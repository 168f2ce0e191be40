import AgentWire.Proofs.Command.Fields
import AgentWire.Proofs.Parameters.Exchange

/-!
# Faults — why a message makes no envelope, and an envelope no command

A member is refused for its own value alone, whatever was taken before it (`Mistyped`). So the
members of a message are refused for the first of them that is mistyped. When all of them have been
taken, a field is missing exactly if nothing stands under its name, and the first of
`neededFields` that is missing is reported. An envelope that has all of them makes no command if its
id is blank, or else if its content is no object, or else if its parameters are refused.
-/

namespace AgentWire.Envelope

variable {name : String} {value : Json} {fault : Json.Fault}

-- ── One member ────────────────────────────────────────────────────────────────────

/-- What is wrong with the value of a field: it is of a sort that the field does not take. -/
inductive Mistyped : String → Json → Json.Fault → Prop where
  | parameters {value : Json} : value.kind ≠ .null → value.kind ≠ .object →
      Mistyped "Parameters" value (.wrongKind value.found .map)
  | neededText {name : String} {value : Json} : name ∈ ["CommandId", "DocumentName"] →
      value.kind ≠ .string → Mistyped name value (.wrongKind value.found .text)
  | optionalText {name : String} {value : Json} :
      name ∈ ["OutputS3KeyPrefix", "OutputS3BucketName"] → value.kind ≠ .null →
        value.kind ≠ .string → Mistyped name value (.wrongKind value.found .text)

theorem textOf_eq_error_iff :
    textOf value = .error fault ↔ value.kind ≠ .string ∧ fault = .wrongKind value.found .text := by
  cases value <;> simp [textOf, Json.kind, Json.found, eq_comm]

theorem optionalTextOf_eq_error_iff :
    optionalTextOf value = .error fault ↔
      value.kind ≠ .null ∧ value.kind ≠ .string ∧ fault = .wrongKind value.found .text := by
  cases value <;> simp [optionalTextOf, textOf, Except.map, Json.kind, Json.found, eq_comm]

theorem optionalMembersOf_eq_error_iff :
    optionalMembersOf value = .error fault ↔
      value.kind ≠ .null ∧ value.kind ≠ .object ∧ fault = .wrongKind value.found .map := by
  cases value <;> simp [optionalMembersOf, Json.kind, Json.found, eq_comm]

/-- A value is mistyped if what its field reads is a fault. -/
theorem mistyped_iff :
    Mistyped name value fault ↔
      name = "Parameters" ∧ optionalMembersOf value = .error fault ∨
      name ∈ ["CommandId", "DocumentName"] ∧ textOf value = .error fault ∨
      name ∈ ["OutputS3KeyPrefix", "OutputS3BucketName"] ∧ optionalTextOf value = .error fault := by
  rw [optionalMembersOf_eq_error_iff, textOf_eq_error_iff, optionalTextOf_eq_error_iff]
  constructor
  · rintro (⟨hnull, hobject⟩ | ⟨hname, hstring⟩ | ⟨hname, hnull, hstring⟩)
    · exact .inl ⟨rfl, hnull, hobject, rfl⟩
    · exact .inr (.inl ⟨hname, hstring, rfl⟩)
    · exact .inr (.inr ⟨hname, hnull, hstring, rfl⟩)
  · rintro (⟨rfl, hnull, hobject, rfl⟩ | ⟨hname, hstring, rfl⟩ | ⟨hname, hnull, hstring, rfl⟩)
    · exact .parameters hnull hobject
    · exact .neededText hname hstring
    · exact .optionalText hname hnull hstring

/-- **A member is refused exactly if it is mistyped**, whatever was taken before. -/
theorem Draft.take_eq_error_iff {d : Draft} :
    d.take (name, value) = .error fault ↔ Mistyped name value fault := by
  rw [mistyped_iff, Draft.take]
  dsimp only
  split_ifs with hparameters hcontent hid hname hkeys hbucket
  · simp [hparameters, map_eq_error_iff]
  · simp [hcontent]
  · simp [hid, map_eq_error_iff]
  · simp [hname, map_eq_error_iff]
  · simp [hkeys, map_eq_error_iff]
  · simp [hbucket, map_eq_error_iff]
  · simp [hparameters, hid, hname, hkeys, hbucket]

/-- A member is refused for one fault only. -/
theorem Mistyped.unique {other : Json.Fault} (h : Mistyped name value fault)
    (h' : Mistyped name value other) : fault = other := by
  rw [← Draft.take_eq_error_iff (d := {})] at h h'
  exact Except.error.inj (h.symm.trans h')

/-- Only the sort of a value and its description matter. -/
theorem Mistyped.congr {other : Json} (hkind : value.kind = other.kind)
    (hfound : value.found = other.found) (h : Mistyped name value fault) :
    Mistyped name other fault := by
  cases h with
  | parameters hnull hobject =>
      rw [hfound]
      exact .parameters (hkind ▸ hnull) (hkind ▸ hobject)
  | neededText hname hstring =>
      rw [hfound]
      exact .neededText hname (hkind ▸ hstring)
  | optionalText hname hnull hstring =>
      rw [hfound]
      exact .optionalText hname (hkind ▸ hnull) (hkind ▸ hstring)

/-- A value is mistyped as it is written exactly if what it stands for is. -/
theorem mistyped_merged : Mistyped name value.merged fault ↔ Mistyped name value fault :=
  ⟨.congr value.kind_merged value.found_merged,
    .congr value.kind_merged.symm value.found_merged.symm⟩

-- ── All members ───────────────────────────────────────────────────────────────────

/-- Taking members is a step for each of them. -/
theorem Draft.takeAll_eq_foldlM {members : List (String × Json)} : ∀ {d : Draft},
    d.takeAll members = members.foldlM Draft.take d := by
  induction members with
  | nil => exact rfl
  | cons member rest ih =>
      intro d
      rw [Draft.takeAll, List.foldlM_cons]
      cases d.take member with
      | error fault => rfl
      | ok next => exact ih

/-- **The members are refused for the first of them that is mistyped.** -/
theorem Draft.takeAll_eq_error_iff {members : List (String × Json)} {d : Draft} :
    d.takeAll members = .error fault ↔
      ∃ before name value after, members = before ++ (name, value) :: after ∧
        (∀ member ∈ before, ∀ other, ¬Mistyped member.1 member.2 other) ∧
          Mistyped name value fault := by
  have hstep : ∀ (d : Draft) (member : String × Json) (fault : Json.Fault),
      d.take member = .error fault ↔ Mistyped member.1 member.2 fault := by
    intro d member fault
    exact Draft.take_eq_error_iff
  rw [Draft.takeAll_eq_foldlM, foldlM_eq_error_iff hstep]
  constructor
  · rintro ⟨before, ⟨name, value⟩, after, hsplit, hbefore, hmistyped⟩
    exact ⟨before, name, value, after, hsplit, hbefore, hmistyped⟩
  · rintro ⟨before, name, value, after, hsplit, hbefore, hmistyped⟩
    exact ⟨before, (name, value), after, hsplit, hbefore, hmistyped⟩

/-- No value is mistyped among those that the fields were made of. -/
theorem Draft.Takes.not_mistyped {d last : Draft} {found : String → Option Json}
    (h : d.Takes found last) (hfound : found name = some value) : ¬Mistyped name value fault := by
  intro hmistyped
  obtain ⟨after, hafter⟩ := Draft.exists_take h hfound d
  exact nomatch hafter.symm.trans (Draft.take_eq_error_iff.mpr hmistyped)

-- ── What is missing ───────────────────────────────────────────────────────────────

/-- The fields that an envelope needs, in the order in which they are missed. -/
def neededFields : List String :=
  ["DocumentContent", "CommandId", "DocumentName"]

/-- A field that is read into something is missing exactly if nothing was there to read. -/
theorem ReadInto.isNone_eq {α : Type} {read : Json → Except Json.Fault (Option α)}
    {found : Option Json} {after : Option α} (h : ReadInto read found none after)
    (hread : ∀ value, read value ≠ .ok none) : after.isNone = found.isNone := by
  cases found with
  | none =>
      have hnone : after = none := h
      rw [hnone]
      rfl
  | some value =>
      cases after with
      | none => exact absurd h (hread value)
      | some _ => rfl

theorem contentOf_ne_none (value : Json) : contentOf value ≠ .ok none := by
  simp [contentOf]

theorem neededTextOf_ne_none (value : Json) : neededTextOf value ≠ .ok none := by
  cases value <;> simp [neededTextOf, textOf, Except.map]

/-- **The first needed field without a value is reported as missing.** -/
theorem Draft.Takes.finish_eq_error_iff {d : Draft} {found : String → Option Json}
    (h : Draft.Takes {} found d) :
    d.finish .missingField = .error fault ↔
      ∃ name, neededFields.find? (fun name => (found name).isNone) = some name ∧
        fault = .missingField name := by
  have hcontent := h.content.isNone_eq contentOf_ne_none
  have hid := h.id.isNone_eq neededTextOf_ne_none
  have hname := h.documentName.isNone_eq neededTextOf_ne_none
  simp only [neededFields, List.find?, ← hcontent, ← hid, ← hname]
  rw [Draft.finish]
  cases d.content with
  | none => simp [eq_comm]
  | some content =>
      cases d.id with
      | none => simp [eq_comm]
      | some id =>
          cases d.documentName with
          | none => simp [eq_comm]
          | some documentName => simp

/-- Every needed field of an envelope has a value. -/
theorem IsMadeOf.ne_none {e : Envelope} {found : String → Option Json} (h : e.IsMadeOf found) :
    ∀ name ∈ neededFields, found name ≠ none := by
  intro name hmem hnone
  simp only [neededFields, List.mem_cons, List.not_mem_nil, or_false] at hmem
  rcases hmem with rfl | rfl | rfl
  · obtain ⟨_, hfound, -⟩ := h.content
    exact nomatch hnone.symm.trans hfound
  · exact nomatch hnone.symm.trans h.id
  · exact nomatch hnone.symm.trans h.documentName

-- ── From the envelope to the command ──────────────────────────────────────────────

/-- **An envelope makes no command** if its id is blank, or else if its content is no object, or
    else if its parameters are refused. -/
theorem command_eq_error_iff {e : Envelope} {cause : Malformation} :
    e.command = .error cause ↔
      isBlankText e.id = true ∧ cause = .blankCommandId ∨
      isBlankText e.id = false ∧ (e.content.tree.kind ≠ .object ∧
          cause = .contentNotObject e.content.tree.kind ∨
        e.content.tree.kind = .object ∧ e.parameterSet = .error cause) := by
  rw [command]
  split_ifs with hblank hkind
  · simp [hblank, eq_comm]
  · simp [hblank, hkind, eq_comm]
  · have hobject : e.content.tree.kind = .object := not_not.mp hkind
    cases e.parameterSet with
    | error other => simp [hblank, hobject]
    | ok parameters => simp [hblank, hobject]

/-- Parameters that are refused were sent as a section. -/
theorem exists_section_of_parameterSet {e : Envelope} {cause : Malformation}
    (h : e.parameterSet = .error cause) :
    ∃ members, e.parameters = some members ∧ ParameterSet.ofSection members = .error cause := by
  rw [parameterSet] at h
  cases hparameters : e.parameters with
  | none =>
      rw [hparameters] at h
      cases h
  | some members =>
      rw [hparameters] at h
      exact ⟨members, rfl, h⟩

end AgentWire.Envelope
