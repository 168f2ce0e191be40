import AgentWire.ParameterSet
import AgentWire.Proofs.Json.Merging
import Mathlib.Data.List.Basic

/-!
# Completion — what the defaults of a document add

A document declares a default for a name where its `parameters` is an object, the name stands in
it for an object, and that object has a `default` which is a string or a list of strings
(`Declares`). Completing a set with a document leaves every value of the set as it is, and adds
the declared default of every other name that has one, and nothing else:

    (p.withDefaults content).get? name = some values
      ↔ p.get? name = some values ∨ p.get? name = none ∧ Declares content name values

A document names a member once, so no two declarations of one name compete.
-/

namespace AgentWire

namespace Json

/-- Values that are all strings are the strings of a list of texts. -/
theorem strings?_eq_some_iff {items : List Json} {texts : List String} :
    strings? items = some texts ↔ items = texts.map .string := by
  unfold strings?
  induction items generalizing texts with
  | nil =>
      rw [List.mapM_nil]
      cases texts <;> simp
  | cons item rest ih =>
      rw [List.mapM_cons]
      cases item with
      | string text =>
          cases hrest : rest.mapM string? with
          | none =>
              have hnever : ∀ others : List String, rest ≠ others.map .string := by
                intro others heq
                exact nomatch hrest.symm.trans (ih.mpr heq)
              cases texts <;> simp [string?, hnever]
          | some others =>
              have hothers : rest = others.map .string := ih.mp hrest
              rw [hothers]
              cases texts with
              | nil => simp [string?]
              | cons first more =>
                  have hinjective : Function.Injective Json.string := fun _ _ h => by cases h; rfl
                  simp [string?, hinjective.list_map.eq_iff]
      | _ => cases texts <;> simp [string?]

/-- The members of an object that names none of them twice are named once each, as are those of
    its members. -/
theorem Distinct.nodup_of_member? {value inner : Json} {name : String} (h : value.Distinct)
    (hmember : value.member? name = some inner) : inner.Distinct := by
  cases value with
  | object members =>
      have hmem : (name, inner) ∈ members := mem_of_lookup hmember
      exact (distinctMembers_iff members).mp h.2 _ hmem
  | _ => exact nomatch hmember

end Json

namespace ParameterSet

-- ── Declared defaults ─────────────────────────────────────────────────────────────

/-- The values that a default stands for: a string is a list of one. -/
inductive IsDefault : Json → List String → Prop where
  | single (text : String) : IsDefault (.string text) [text]
  | list (texts : List String) : IsDefault (.array (texts.map .string)) texts

/-- The document declares a default for a name. -/
def Declares (content : Json) (name : String) (values : List String) : Prop :=
  ∃ declared declaration default,
    content.member? "parameters" = some (.object declared) ∧ (name, declaration) ∈ declared ∧
      declaration.member? "default" = some default ∧ IsDefault default values

theorem defaultValues?_eq_some_iff {value : Json} {values : List String} :
    defaultValues? value = some values ↔ IsDefault value values := by
  constructor
  · intro h
    cases value with
    | string text => cases h; exact .single text
    | array items => rw [Json.strings?_eq_some_iff.mp h]; exact .list values
    | _ => exact nomatch h
  · rintro (text | texts)
    · rfl
    · exact Json.strings?_eq_some_iff.mpr rfl

/-- A list of texts stands for these. -/
theorem isDefault_ofStrings {texts values : List String} :
    IsDefault (Json.ofStrings texts) values ↔ values = texts := by
  have hstrings : defaultValues? (Json.ofStrings texts) = some texts :=
    Json.strings?_eq_some_iff.mpr rfl
  rw [← defaultValues?_eq_some_iff, hstrings]
  exact ⟨fun h => (Option.some.inj h).symm, fun h => congrArg some h.symm⟩

/-- A value stands for the same values when it is merged. -/
theorem isDefault_merged {value : Json} {values : List String} :
    IsDefault value.merged values ↔ IsDefault value values := by
  constructor
  · intro h
    generalize hmerged : value.merged = kept at h
    cases h with
    | single text => exact Json.merged_eq_string_iff.mp hmerged ▸ .single text
    | list texts => exact Json.merged_eq_strings_iff.mp hmerged ▸ .list _
  · intro h
    cases h with
    | single text => exact .single text
    | list texts =>
        have hmerged : (Json.array (values.map .string)).merged = .array (values.map .string) :=
          Json.merged_eq_strings_iff.mpr rfl
        rw [hmerged]
        exact .list values

theorem declaredDefault?_eq_some_iff {declaration : Json} {values : List String} :
    declaredDefault? declaration = some values ↔
      ∃ default, declaration.member? "default" = some default ∧ IsDefault default values := by
  unfold declaredDefault?
  rw [Option.bind_eq_some_iff]
  simp only [defaultValues?_eq_some_iff]

/-- A document declares the defaults of its declarations. -/
theorem declares_iff {content : Json} {name : String} {values : List String} :
    Declares content name values ↔
      ∃ declaration, (name, declaration) ∈ declarations content ∧
        declaredDefault? declaration = some values := by
  simp only [declaredDefault?_eq_some_iff]
  constructor
  · rintro ⟨declared, declaration, default, hsection, hmem, hdefault, hvalues⟩
    refine ⟨declaration, ?_, default, hdefault, hvalues⟩
    rw [declarations, hsection]
    exact hmem
  · rintro ⟨declaration, hmem, default, hdefault, hvalues⟩
    unfold declarations at hmem
    cases hsection : content.member? "parameters" with
    | none => rw [hsection] at hmem; exact nomatch hmem
    | some found =>
        rw [hsection] at hmem
        cases found with
        | object declared =>
            exact ⟨declared, declaration, default, hsection, hmem, hdefault, hvalues⟩
        | _ => exact nomatch hmem

theorem nodup_declarations {content : Json} (h : content.Distinct) :
    (Json.names (declarations content)).Nodup := by
  unfold declarations
  cases hsection : content.member? "parameters" with
  | none => exact List.nodup_nil
  | some found =>
      have hdistinct := h.nodup_of_member? hsection
      cases found with
      | object declared => exact hdistinct.1
      | _ => exact List.nodup_nil

-- ── Adding them ───────────────────────────────────────────────────────────────────

theorem get?_insert (p : ParameterSet) (name other : String) (values : List String) :
    (p.insert name values).get? other = if other = name then some values else p.get? other :=
  NameMap.get?_insert p.values name other values

/-- One declaration adds its default under its name, if nothing is there. -/
theorem get?_addDefault (p : ParameterSet) (name other : String) (declaration : Json) :
    (p.addDefault (name, declaration)).get? other =
      if other = name then (p.get? name).or (declaredDefault? declaration) else p.get? other := by
  have hget : p.values.get? name = p.get? name := rfl
  unfold addDefault NameMap.contains
  dsimp only
  rw [hget]
  cases hthere : p.get? name with
  | some values =>
      -- the values that are there stay
      show p.get? other = if other = name then some values else p.get? other
      by_cases hname : other = name
      · rw [if_pos hname, hname, hthere]
      · rw [if_neg hname]
  | none =>
      -- nothing is there, so a default takes the place if there is one
      rw [if_neg (fun h => Bool.noConfusion h)]
      cases declaredDefault? declaration with
      | some values => exact get?_insert p name other values
      | none =>
          show p.get? other = if other = name then none else p.get? other
          by_cases hname : other = name
          · rw [if_pos hname, hname, hthere]
          · rw [if_neg hname]

/-- What is there stays as it is while a default is added. -/
theorem get?_addDefault_of_some {p : ParameterSet} {name : String} {values : List String}
    (h : p.get? name = some values) (declared : String × Json) :
    (p.addDefault declared).get? name = some values := by
  obtain ⟨first, declaration⟩ := declared
  rw [get?_addDefault]
  by_cases hname : name = first
  · rw [if_pos hname, ← hname, h, Option.some_or]
  · rw [if_neg hname, h]

/-- **Values that are there win over defaults**, in any document. -/
theorem get?_withDefaults_of_some {p : ParameterSet} {name : String} {values : List String}
    (h : p.get? name = some values) (content : Json) :
    (p.withDefaults content).get? name = some values := by
  rw [withDefaults]
  induction declarations content generalizing p with
  | nil => exact h
  | cons declared rest ih => exact ih (get?_addDefault_of_some h declared)

/-- Declarations of distinct names add their defaults where nothing is there. -/
theorem get?_foldl_addDefault {declared : List (String × Json)}
    (hnodup : (Json.names declared).Nodup) (p : ParameterSet) (name : String)
    (values : List String) :
    (declared.foldl addDefault p).get? name = some values ↔
      p.get? name = some values ∨ p.get? name = none ∧
        ∃ declaration, (name, declaration) ∈ declared ∧
          declaredDefault? declaration = some values := by
  induction declared generalizing p with
  | nil => simp
  | cons member rest ih =>
      obtain ⟨first, declaration⟩ := member
      obtain ⟨hfresh, hrest⟩ := List.nodup_cons.mp hnodup
      rw [List.foldl_cons, ih hrest, get?_addDefault]
      by_cases hname : name = first
      · subst hname
        -- the name does not come again, so the rest adds nothing under it
        have hnone : ∀ other, (name, other) ∉ rest :=
          fun other hmem => hfresh (List.mem_map.mpr ⟨(name, other), hmem, rfl⟩)
        rw [if_pos rfl]
        cases hthere : p.get? name with
        | some there => simp [hnone]
        | none => simp [hnone]
      · rw [if_neg hname]
        simp [hname]

/-- **COMPLETION ADDS THE DECLARED DEFAULTS** of names without values, and nothing else. -/
theorem get?_withDefaults {content : Json} (hdistinct : content.Distinct) (p : ParameterSet)
    (name : String) (values : List String) :
    (p.withDefaults content).get? name = some values ↔
      p.get? name = some values ∨ p.get? name = none ∧ Declares content name values := by
  rw [withDefaults, get?_foldl_addDefault (nodup_declarations hdistinct), declares_iff]

end ParameterSet

end AgentWire
