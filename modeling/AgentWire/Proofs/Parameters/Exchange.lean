import AgentWire.Proofs.Command.Encoding

/-!
# Exchange — sections are read and written alike

A section is read up to the first parameter that is refused, and that parameter is the one that is
reported, with what is wrong about it:

    before ++ (name, value) :: after,   all before it readable,   value refused under name

A set is written as an object of lists in the order of the names, by itself as in the message of a
command, and such an object is read as the set that wrote it. So a section that is read is written
in one form, whatever form it had, and read from that form again.
-/

namespace AgentWire

/-- The first member of an object is written in full, and the others behind it. -/
theorem Json.compact_object_cons (name : String) (value : Json) (rest : List (String × Json)) :
    (Json.object ((name, value) :: rest)).compact =
      "\x7b" ++ (Json.string name).compact ++ ":" ++ value.compact ++
        String.ofList (renderMoreMembers rest ++ ['}']) := by
  refine String.ext ?_
  simp [compact, render, renderMembers]

namespace ParameterSet

variable {name : String} {value : Json} {members : List (String × Json)} {cause : Malformation}

-- ── Refusals ──────────────────────────────────────────────────────────────────────

theorem readable_iff_readValues (name : String) :
    Readable value ↔ ∃ values, readValues name value = .ok values := by
  simp only [readValues_eq_ok_iff, readable_iff]

/-- What is wrong with the value of a parameter: it is a list of more than strings, or neither a
    string nor a list. -/
inductive Refused (name : String) : Json → Malformation → Prop where
  | items {items : List Json} : (∀ texts : List String, items ≠ texts.map .string) →
      Refused name (.array items) (.parameterItems name)
  | kind {value : Json} : value.kind ≠ .string → value.kind ≠ .array →
      Refused name value (.parameterKind name value.kind)

/-- A list holds more than strings exactly if its strings cannot be taken. -/
theorem strings?_eq_none_iff {items : List Json} :
    Json.strings? items = none ↔ ∀ texts : List String, items ≠ texts.map .string := by
  simp only [Option.eq_none_iff_forall_ne_some, ne_eq, Json.strings?_eq_some_iff]

theorem readValues_eq_error_iff :
    readValues name value = .error cause ↔ Refused name value cause := by
  constructor
  · intro h
    cases value with
    | string text => cases h
    | array items =>
        rw [readValues] at h
        cases hstrings : Json.strings? items with
        | some texts =>
            rw [hstrings] at h
            cases h
        | none =>
            -- a list is refused as soon as one of its items is no string
            rw [hstrings] at h
            cases h
            exact .items (strings?_eq_none_iff.mp hstrings)
    | _ =>
        cases h
        exact .kind (by simp [Json.kind]) (by simp [Json.kind])
  · intro h
    cases h with
    | items hitems => rw [readValues, strings?_eq_none_iff.mpr hitems]
    | kind hstring harray =>
        cases value with
        | string text => exact absurd rfl hstring
        | array items => exact absurd rfl harray
        | _ => rfl

/-- A value is refused exactly if it is not readable. -/
theorem exists_refused_iff : (∃ cause, Refused name value cause) ↔ ¬Readable value := by
  simp only [← readValues_eq_error_iff, readable_iff_readValues name]
  cases readValues name value with
  | error cause => simp
  | ok values => simp

/-- The words of a refusal name the parameter. -/
theorem Refused.message (h : Refused name value cause) :
    ∃ rest, cause.message = "parameter `" ++ name ++ "` must " ++ rest := by
  cases h with
  | items _ =>
      refine ⟨"only contain strings", ?_⟩
      have hwords : "` must only contain strings" = "` must " ++ "only contain strings" := by decide
      show "parameter `" ++ name ++ "` must only contain strings" = _
      rw [hwords, ← String.append_assoc]
  | kind _ _ =>
      refine ⟨"be a string or a list of strings, got " ++ value.kind.describe, ?_⟩
      have hwords : "` must be a string or a list of strings, got " =
          "` must " ++ "be a string or a list of strings, got " := by decide
      show "parameter `" ++ name ++ "` must be a string or a list of strings, got " ++
        value.kind.describe = _
      rw [hwords, ← String.append_assoc, ← String.append_assoc]

/-- Reading a section is a step for each of its members. -/
theorem readSection_eq_foldlM : ∀ {p : ParameterSet}, readSection p members =
    members.foldlM (fun p member => (readValues member.1 member.2).map (p.insert member.1)) p := by
  induction members with
  | nil => exact rfl
  | cons member rest ih =>
      intro p
      obtain ⟨first, value⟩ := member
      rw [readSection, List.foldlM_cons]
      cases readValues first value with
      | error cause => rfl
      | ok values => exact ih

/-- **A section is refused for its first parameter that is**, in the order of the section. -/
theorem readSection_eq_error_iff {p : ParameterSet} : readSection p members = .error cause ↔
    ∃ before name value after, members = before ++ (name, value) :: after ∧
      (∀ member ∈ before, Readable member.2) ∧ Refused name value cause := by
  have hstep : ∀ (p : ParameterSet) (member : String × Json) (cause : Malformation),
      (readValues member.1 member.2).map (p.insert member.1) = .error cause ↔
        Refused member.1 member.2 cause := by
    intro p member cause
    rw [map_eq_error_iff, readValues_eq_error_iff]
  have hreadable : ∀ member : String × Json,
      (∀ other, ¬Refused member.1 member.2 other) ↔ Readable member.2 := by
    intro member
    rw [← not_exists, exists_refused_iff, not_not]
  rw [readSection_eq_foldlM, foldlM_eq_error_iff hstep]
  simp only [hreadable]
  constructor
  · rintro ⟨before, ⟨name, value⟩, after, hsplit, hbefore, hrefused⟩
    exact ⟨before, name, value, after, hsplit, hbefore, hrefused⟩
  · rintro ⟨before, name, value, after, hsplit, hbefore, hrefused⟩
    exact ⟨before, (name, value), after, hsplit, hbefore, hrefused⟩

-- ── What is read ──────────────────────────────────────────────────────────────────

/-- A section is read exactly if every value in it is readable. -/
theorem exists_ofSection_iff :
    (∃ p, ofSection members = .ok p) ↔ ∀ member ∈ members, Readable member.2 := by
  simp only [readable_iff]
  constructor
  · rintro ⟨p, h⟩
    exact (get?_of_readSection h).1
  · intro h
    exact exists_readSection h empty

/-- The set that is read has the names of the section and no others, a string as a list of one. -/
theorem get?_of_ofSection {p : ParameterSet} (hnodup : (Json.names members).Nodup)
    (h : ofSection members = .ok p) :
    (∀ text, (name, .string text) ∈ members → p.get? name = some [text]) ∧
    (∀ texts : List String, (name, .array (texts.map .string)) ∈ members →
      p.get? name = some texts) ∧
    (name ∉ Json.names members → p.get? name = none) := by
  have hsection := (ofSection_eq_ok_iff hnodup).mp h
  refine ⟨?_, ?_, ?_⟩
  · intro text hmem
    exact (hsection.values name [text]).mpr ⟨_, Json.lookup_of_mem hnodup hmem, .single text⟩
  · intro texts hmem
    exact (hsection.values name texts).mpr ⟨_, Json.lookup_of_mem hnodup hmem, .list texts⟩
  · intro hname
    refine Option.eq_none_iff_forall_ne_some.mpr ?_
    intro values hvalues
    obtain ⟨value, hlookup, -⟩ := (hsection.values name values).mp hvalues
    exact hname (List.mem_map_of_mem (Json.mem_of_lookup hlookup))

-- ── What is written ───────────────────────────────────────────────────────────────

/-- A set is written in the order of the names. -/
theorem pairwise_names_sectionMembers (p : ParameterSet) :
    (Json.names p.sectionMembers).Pairwise (· < ·) := by
  rw [names_sectionMembers]
  exact List.pairwise_map.mpr p.values.ascending

/-- The text of a set is read as the set. -/
theorem decode_compact (p : ParameterSet) :
    Json.decode decoder (Symbol.ofBytes p.toJson.compact.toUTF8) = .ok p := by
  refine Json.decode_written (Json.Decoder.readsAs_checked (p.readsAs_members (by decide)) ?_)
    (Json.written_render p.toJson).writtenText
  rw [ofSection_sectionMembers]
  rfl

end ParameterSet

/-- **The text of a command begins with its parameters**, written as the text of the set. -/
theorem Command.encode_eq_append (c : Command) :
    ∃ rest, c.encode = "\x7b\"Parameters\":" ++ c.parameters.toJson.compact ++
      ",\"DocumentContent\":" ++ rest := by
  refine ⟨c.content.tree.compact ++ String.ofList (Json.renderMoreMembers
    [("CommandId", .string c.id), ("DocumentName", .string c.documentName),
      ("OutputS3KeyPrefix", .string c.outputKeys),
      ("OutputS3BucketName", .string c.outputBucket)] ++ ['}']), ?_⟩
  rw [encode, toJson_eq, Json.compact_object_cons, Json.renderMoreMembers]
  refine String.ext ?_
  have hparameters : Json.renderString "Parameters" = "\"Parameters\"".toList := by decide
  have hcontent : Json.renderString "DocumentContent" = "\"DocumentContent\"".toList := by decide
  simp [Json.compact, Json.render, hparameters, hcontent]

namespace ParameterSet

/-- **SECTIONS ARE READ AND WRITTEN ALIKE.** A section is read exactly if it holds strings and lists
    of strings only, as the set that has these under the names of the section and nothing under any
    other. Otherwise it is malformed, and the first parameter that is refused is named. A set is
    written in one form, in the order of the names and with every value as a list, by itself as in
    a command. That form is read as the set again, whatever form the set was read from. -/
theorem sections_read_and_write :
    (∀ members : List (String × Json), (∃ p, ofSection members = .ok p) ↔
      ∀ member ∈ members, (∃ text, member.2 = .string text) ∨
        ∃ texts : List String, member.2 = .array (texts.map .string)) ∧
    (∀ (members : List (String × Json)) (p : ParameterSet) (name : String),
      (Json.names members).Nodup → ofSection members = .ok p →
        (∀ text, (name, .string text) ∈ members → p.get? name = some [text]) ∧
        (∀ texts : List String, (name, .array (texts.map .string)) ∈ members →
          p.get? name = some texts) ∧
        (name ∉ Json.names members → p.get? name = none)) ∧
    (∀ (members : List (String × Json)) (cause : Malformation),
      ofSection members = .error cause ↔
        ∃ before name value after, members = before ++ (name, value) :: after ∧
          (∀ member ∈ before, Readable member.2) ∧ Refused name value cause) ∧
    (∀ (name : String) (value : Json), (∃ cause, Refused name value cause) ↔ ¬Readable value) ∧
    (∀ (name : String) (value : Json) (cause : Malformation), Refused name value cause →
      (Fault.malformed cause).code = .malformedMessage ∧
        ∃ rest, cause.message = "parameter `" ++ name ++ "` must " ++ rest) ∧
    (∀ p : ParameterSet, ∃ written, p.toJson = .object written ∧
      written = p.toList.map (fun parameter =>
        (parameter.1, .array (parameter.2.map .string))) ∧
      (Json.names written).Pairwise (· < ·) ∧ ofSection written = .ok p ∧
      Json.decode decoder (Symbol.ofBytes p.toJson.compact.toUTF8) = .ok p) ∧
    (∀ c : Command, c.toJson.member? "Parameters" = some c.parameters.toJson ∧
      ∃ rest, c.encode = "\x7b\"Parameters\":" ++ c.parameters.toJson.compact ++
        ",\"DocumentContent\":" ++ rest) ∧
    (∀ (members written : List (String × Json)) (p : ParameterSet),
      ofSection members = .ok p → p.toJson = .object written → ofSection written = .ok p) := by
  refine ⟨?_, ?_, ?_, ?_, ?_, ?_, ?_, ?_⟩
  · intro members
    exact exists_ofSection_iff
  · intro members p name hnodup h
    exact get?_of_ofSection hnodup h
  · intro members cause
    exact readSection_eq_error_iff
  · intro name value
    exact exists_refused_iff
  · intro name value cause h
    exact ⟨rfl, h.message⟩
  · intro p
    exact ⟨p.sectionMembers, rfl, rfl, p.pairwise_names_sectionMembers,
      p.ofSection_sectionMembers, p.decode_compact⟩
  · intro c
    refine ⟨?_, c.encode_eq_append⟩
    rw [Command.toJson_eq]
    rfl
  · rintro members _ p - ⟨⟩
    exact p.ofSection_sectionMembers

/-- A section of both forms, not in the order of the names. -/
def mixedSection : List (String × Json) :=
  [("b", .string "x"), ("a", .array [.string "y", .string "z"])]

/-- The set of `mixedSection`. -/
def mixedSet : ParameterSet :=
  .ofList [("a", ["y", "z"]), ("b", ["x"])]

/-- A bare string and a list are read alike and written in the order of the names; a section with
    two bad parameters is refused for the first. -/
theorem sections_read_and_write_mixed :
    mixedSet.get? "b" = some ["x"] ∧ mixedSet.get? "a" = some ["y", "z"] ∧
    mixedSet.get? "c" = none ∧
    ofSection mixedSet.sectionMembers = .ok mixedSet ∧
    ofSection (mixedSection ++ [("bad", .array [.string "x", .null]), ("worse", .null)]) =
      .error (.parameterItems "bad") ∧
    ∃ rest, (Malformation.parameterItems "bad").message = "parameter `" ++ "bad" ++ "` must " ++
      rest := by
  obtain ⟨-, hget, herror, -, hmessage, -, -, hagain⟩ := sections_read_and_write
  have hnodup : (Json.names mixedSection).Nodup := by decide
  have hread : ofSection mixedSection = .ok mixedSet := by decide
  have hrefused : Refused "bad" (.array [.string "x", .null]) (.parameterItems "bad") :=
    .items (strings?_eq_none_iff.mp (by decide))
  refine ⟨(hget _ _ "b" hnodup hread).1 "x" (by decide),
    (hget _ _ "a" hnodup hread).2.1 ["y", "z"] (by decide),
    (hget _ _ "c" hnodup hread).2.2 (by decide), hagain _ _ _ hread rfl, ?_,
    (hmessage _ _ _ hrefused).2⟩
  refine (herror _ _).mpr ⟨mixedSection, "bad", _, [("worse", .null)], rfl, ?_, hrefused⟩
  exact exists_ofSection_iff.mp ⟨_, hread⟩

end ParameterSet

end AgentWire
