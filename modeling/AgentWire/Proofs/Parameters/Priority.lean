import AgentWire.Proofs.Parameters.Section

/-!
# Priority — values that are sent come first, then the defaults of one document after the other

Completing a set never touches a name that has values. A name without values gets the default that
the document declares for it, if it declares one:

    p.get? name    else    the default of the first document    else    that of the second

This is said of one name at a time, and a set is what its names have for values. So completing a
second time with the same document adds nothing, no name is lost, and the order in which a document
declares its parameters does not matter.
-/

namespace AgentWire

/-- A member of a value is a member of an object, where names come once. -/
theorem Json.member?_eq_some_iff {value inner : Json} {name : String} (h : value.Distinct) :
    value.member? name = some inner ↔
      ∃ members, value = .object members ∧ (name, inner) ∈ members := by
  constructor
  · intro hmember
    cases value with
    | object members => exact ⟨members, rfl, Json.mem_of_lookup hmember⟩
    | _ => exact nomatch hmember
  · rintro ⟨members, rfl, hmem⟩
    exact Json.lookup_of_mem h.1 hmem

namespace ParameterSet

variable {p : ParameterSet} {name : String} {values : List String}

-- ── The shape of a declared default ───────────────────────────────────────────────

theorem isDefault_iff {default : Json} : IsDefault default values ↔
    (∃ text, default = .string text ∧ values = [text]) ∨
      default = .array (values.map .string) := by
  constructor
  · rintro (text | texts)
    · exact .inl ⟨text, rfl, rfl⟩
    · exact .inr rfl
  · rintro (⟨text, rfl, rfl⟩ | rfl)
    · exact .single text
    · exact .list values

/-- **What a document declares is read off objects within objects**, four levels deep. -/
theorem declares_iff_members {content : Json} (h : content.Distinct) :
    Declares content name values ↔
      ∃ members declared fields default, content = .object members ∧
        ("parameters", .object declared) ∈ members ∧ (name, .object fields) ∈ declared ∧
        ("default", default) ∈ fields ∧ IsDefault default values := by
  constructor
  · rintro ⟨declared, declaration, default, hsection, hmem, hdefault, hvalues⟩
    have hdeclared := h.nodup_of_member? hsection
    have hdeclaration : declaration.Distinct :=
      (Json.distinctMembers_iff declared).mp hdeclared.2 _ hmem
    obtain ⟨members, hcontent, hparameters⟩ := (Json.member?_eq_some_iff h).mp hsection
    obtain ⟨fields, rfl, hfield⟩ := (Json.member?_eq_some_iff hdeclaration).mp hdefault
    exact ⟨members, declared, fields, default, hcontent, hparameters, hmem, hfield, hvalues⟩
  · rintro ⟨members, declared, fields, default, rfl, hparameters, hmem, hfield, hvalues⟩
    have hsection : (Json.object members).member? "parameters" = some (.object declared) :=
      (Json.member?_eq_some_iff h).mpr ⟨members, rfl, hparameters⟩
    have hdeclared := h.nodup_of_member? hsection
    have hfields : (Json.object fields).Distinct :=
      (Json.distinctMembers_iff declared).mp hdeclared.2 _ hmem
    have hdefault : (Json.object fields).member? "default" = some default :=
      (Json.member?_eq_some_iff hfields).mpr ⟨fields, rfl, hfield⟩
    exact ⟨declared, .object fields, default, hsection, hmem, hdefault, hvalues⟩

-- ── Name by name ──────────────────────────────────────────────────────────────────

/-- A name is left without values if it had none and no default is declared for it. -/
theorem get?_withDefaults_eq_none_iff {content : Json} (h : content.Distinct) (p : ParameterSet)
    (name : String) :
    (p.withDefaults content).get? name = none ↔
      p.get? name = none ∧ ∀ values, ¬Declares content name values := by
  rw [Option.eq_none_iff_forall_ne_some, Option.eq_none_iff_forall_ne_some]
  constructor
  · intro hnever
    have hnone : ∀ values, p.get? name ≠ some values := by
      intro values hvalues
      exact hnever values (get?_withDefaults_of_some hvalues content)
    refine ⟨hnone, ?_⟩
    intro values hdeclares
    have hsent : p.get? name = none := Option.eq_none_iff_forall_ne_some.mpr hnone
    exact hnever values ((get?_withDefaults h p name values).mpr (.inr ⟨hsent, hdeclares⟩))
  · rintro ⟨hnone, hnever⟩ values hvalues
    rcases (get?_withDefaults h p name values).mp hvalues with hthere | ⟨-, hdeclares⟩
    · exact hnone values hthere
    · exact hnever values hdeclares

/-- **The first document comes before the second.** -/
theorem get?_withDefaults_in_turn {first second : Json} (hfirst : first.Distinct)
    (hsecond : second.Distinct) (p : ParameterSet) (name : String) (values : List String) :
    ((p.withDefaults first).withDefaults second).get? name = some values ↔
      p.get? name = some values ∨ p.get? name = none ∧ (Declares first name values ∨
        (∀ others, ¬Declares first name others) ∧ Declares second name values) := by
  rw [get?_withDefaults hsecond, get?_withDefaults hfirst, get?_withDefaults_eq_none_iff hfirst]
  constructor
  · rintro ((hsent | ⟨hnone, hdeclares⟩) | ⟨⟨hnone, hnever⟩, hdeclares⟩)
    · exact .inl hsent
    · exact .inr ⟨hnone, .inl hdeclares⟩
    · exact .inr ⟨hnone, .inr ⟨hnever, hdeclares⟩⟩
  · rintro (hsent | ⟨hnone, hdeclares | ⟨hnever, hdeclares⟩⟩)
    · exact .inl (.inl hsent)
    · exact .inl (.inr ⟨hnone, hdeclares⟩)
    · exact .inr ⟨⟨hnone, hnever⟩, hdeclares⟩

/-- Documents that declare the same defaults complete a set alike. -/
theorem withDefaults_congr {first second : Json} (hfirst : first.Distinct)
    (hsecond : second.Distinct)
    (h : ∀ name values, Declares first name values ↔ Declares second name values)
    (p : ParameterSet) : p.withDefaults first = p.withDefaults second := by
  refine ext_get? ?_
  intro name values
  rw [get?_withDefaults hfirst, get?_withDefaults hsecond, h]

/-- **A second document adds nothing** if the first has a default for every name it has one for. -/
theorem withDefaults_withDefaults_eq {first second : Json} (hfirst : first.Distinct)
    (hsecond : second.Distinct)
    (h : ∀ name values, Declares second name values → ∃ others, Declares first name others)
    (p : ParameterSet) : (p.withDefaults first).withDefaults second = p.withDefaults first := by
  refine ext_get? ?_
  intro name values
  rw [get?_withDefaults hsecond, get?_withDefaults_eq_none_iff hfirst]
  constructor
  · rintro (hthere | ⟨⟨-, hnever⟩, hdeclares⟩)
    · exact hthere
    · obtain ⟨others, hothers⟩ := h name values hdeclares
      exact absurd hothers (hnever others)
  · exact .inl

/-- Completing a second time adds nothing. -/
theorem withDefaults_self {content : Json} (h : content.Distinct) (p : ParameterSet) :
    (p.withDefaults content).withDefaults content = p.withDefaults content :=
  withDefaults_withDefaults_eq h h (fun _ values hdeclares => ⟨values, hdeclares⟩) p

/-- **Completing a set loses no name.** -/
theorem size_le_withDefaults (p : ParameterSet) (content : Json) :
    p.size ≤ (p.withDefaults content).size := by
  refine NameMap.size_le_of_contains ?_
  intro name hcontains
  obtain ⟨values, hvalues⟩ := NameMap.contains_iff.mp hcontains
  exact NameMap.contains_iff.mpr ⟨values, get?_withDefaults_of_some hvalues content⟩

/-- The order of declarations does not matter to what is declared. -/
theorem declares_iff_of_perm {first second : Json} {declared declared' : List (String × Json)}
    (hfirst : first.member? "parameters" = some (.object declared))
    (hsecond : second.member? "parameters" = some (.object declared'))
    (hperm : declared.Perm declared') :
    Declares first name values ↔ Declares second name values := by
  have hdeclarations : declarations first = declared ∧ declarations second = declared' := by
    rw [declarations, declarations, hfirst, hsecond]
    exact ⟨rfl, rfl⟩
  simp only [declares_iff, hdeclarations.1, hdeclarations.2, hperm.mem_iff]

/-- **DEFAULTS FILL THE GAPS OF A SET.** A value of a completed set is one that was there, or the
    name had none and the document declares the value as its default: in an object under
    `parameters`, in an object under the name, as a string or a list of strings under `default`.
    Completing again adds nothing, no name is lost, the order of the declarations does not matter,
    and of two documents the first comes first. -/
theorem defaults_fill_gaps :
    (∀ (p : ParameterSet) (content : Document) (name : String) (values : List String),
      (p.withDefaults content.tree).get? name = some values ↔
        p.get? name = some values ∨ p.get? name = none ∧ Declares content.tree name values) ∧
    (∀ (content : Document) (name : String) (values : List String),
      Declares content.tree name values ↔
        ∃ members declared fields default, content.tree = .object members ∧
          ("parameters", .object declared) ∈ members ∧ (name, .object fields) ∈ declared ∧
          ("default", default) ∈ fields ∧ ((∃ text, default = .string text ∧ values = [text]) ∨
            default = .array (values.map .string))) ∧
    (∀ (p : ParameterSet) (content : Document),
      (p.withDefaults content.tree).withDefaults content.tree = p.withDefaults content.tree) ∧
    (∀ (p : ParameterSet) (content : Document), p.size ≤ (p.withDefaults content.tree).size ∧
      ∀ name ∈ p.values.names, name ∈ (p.withDefaults content.tree).values.names) ∧
    (∀ (p : ParameterSet) (first second : Document) (declared declared' : List (String × Json)),
      first.tree.member? "parameters" = some (.object declared) →
      second.tree.member? "parameters" = some (.object declared') → declared.Perm declared' →
        p.withDefaults first.tree = p.withDefaults second.tree) ∧
    (∀ (p : ParameterSet) (first second : Document) (name : String) (values : List String),
      ((p.withDefaults first.tree).withDefaults second.tree).get? name = some values ↔
        p.get? name = some values ∨ p.get? name = none ∧ (Declares first.tree name values ∨
          (∀ others, ¬Declares first.tree name others) ∧ Declares second.tree name values)) := by
  refine ⟨?_, ?_, ?_, ?_, ?_, ?_⟩
  · intro p content name values
    exact get?_withDefaults content.distinct p name values
  · intro content name values
    simp only [declares_iff_members content.distinct, isDefault_iff]
  · intro p content
    exact withDefaults_self content.distinct p
  · intro p content
    refine ⟨size_le_withDefaults p content.tree, ?_⟩
    intro name hmem
    obtain ⟨values, hvalues⟩ := NameMap.contains_iff.mp (NameMap.mem_names_iff.mp hmem)
    exact NameMap.mem_names_iff.mpr (NameMap.contains_iff.mpr
      ⟨values, get?_withDefaults_of_some hvalues content.tree⟩)
  · intro p first second declared declared' hfirst hsecond hperm
    refine withDefaults_congr first.distinct second.distinct ?_ p
    intro name values
    exact declares_iff_of_perm hfirst hsecond hperm
  · intro p first second name values
    exact get?_withDefaults_in_turn first.distinct second.distinct p name values

/-- Declarations of several shapes, of which the last two declare no default. -/
def mixedDeclarations : List (String × Json) :=
  [("sent", .object [("default", .string "unused")]), ("none", .object [("default", .array [])]),
    ("one", .object [("type", .null), ("default", .string "1")]),
    ("mixed", .object [("default", .array [.string "x", .null])]), ("flat", .string "y")]

/-- A document with declarations in some order. -/
def declaring (declared : List (String × Json)) : Document :=
  .ofJson (.object [("steps", .array []), ("parameters", .object declared)])

/-- A parameter that is sent without values. -/
def sentEmpty : ParameterSet :=
  .ofList [("sent", [])]

/-- An empty list that is sent wins over a default, and the default of the first document over that
    of the second; a list with anything but strings in it is no default. -/
theorem defaults_fill_gaps_mixed :
    (sentEmpty.withDefaults (declaring mixedDeclarations).tree).get? "sent" = some [] ∧
    Declares (declaring mixedDeclarations).tree "one" ["1"] ∧
    (∀ values, ¬Declares (declaring mixedDeclarations).tree "mixed" values) ∧
    sentEmpty.withDefaults (declaring mixedDeclarations).tree =
      sentEmpty.withDefaults (declaring mixedDeclarations.reverse).tree ∧
    ((sentEmpty.withDefaults (declaring mixedDeclarations).tree).withDefaults
      (declaring [("one", .object [("default", .string "2")])]).tree).get? "one" = some ["1"] := by
  obtain ⟨hget, hdeclares, -, -, horder, hturn⟩ := defaults_fill_gaps
  have hone : Declares (declaring mixedDeclarations).tree "one" ["1"] :=
    (hdeclares _ _ _).mpr ⟨_, mixedDeclarations, [("type", .null), ("default", .string "1")],
      .string "1", rfl, by decide, by decide, by decide, .inl ⟨"1", rfl, rfl⟩⟩
  have hmixed : (empty.withDefaults (declaring mixedDeclarations).tree).get? "mixed" = none := by
    decide
  refine ⟨(hget _ _ _ _).mpr (.inl (by decide)), hone, ?_, ?_, ?_⟩
  · intro values hvalues
    have hadded := (hget empty _ _ _).mpr (.inr ⟨rfl, hvalues⟩)
    exact nomatch hmixed.symm.trans hadded
  · exact horder _ _ _ mixedDeclarations mixedDeclarations.reverse rfl rfl
      mixedDeclarations.reverse_perm.symm
  · exact (hturn _ _ _ _ _).mpr (.inr ⟨by decide, .inl hone⟩)

end ParameterSet

end AgentWire
