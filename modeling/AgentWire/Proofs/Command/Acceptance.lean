import AgentWire.Proofs.Command.Reception

/-!
# Acceptance — which messages are commands

Whether a message is a command is said of what stands under the names of an envelope, for each
name the value that was written last (`Json.lastValue?`):

    IsCommand found c       the values make the command c
    IsAccepted found        the values make some command

A message is decoded through merged values, taken one by one into the fields of an envelope; but
each field is what was written last under its name, and merging changes neither a string nor
whether a value is an object. So a message is decoded to exactly the command that its last values
make:

    decode raw = .ok c
      ↔ ∃ members, Spells raw (.object members) ∧ IsCommand (lastValue? members) c

Nothing else of the message has a say: not the order of its members, not those of other names, and
not the blanks in its text.
-/

namespace AgentWire.Command

-- ── What a message has to say ─────────────────────────────────────────────────────

/-- A text that may be missing or null, and is empty then. -/
inductive HoldsText : Option Json → String → Prop
  | missing : HoldsText none ""
  | null : HoldsText (some .null) ""
  | text (text : String) : HoldsText (some (.string text)) text

/-- Parameters that may be missing or null, and are none then. -/
inductive HoldsParameters : Option Json → ParameterSet → Prop
  | missing : HoldsParameters none .empty
  | null : HoldsParameters (some .null) .empty
  | object {members : List (String × Json)} {p : ParameterSet} :
      ParameterSet.IsSection (Json.lastValue? members) p →
        HoldsParameters (some (.object members)) p

/-- What stands under the names of an envelope makes a command, with every text in it as it was
    written. -/
structure IsCommand (found : String → Option Json) (c : Command) : Prop where
  id : found "CommandId" = some (.string c.id)
  id_not_blank : ∃ char ∈ c.id.toList, isBlank char = false
  documentName : found "DocumentName" = some (.string c.documentName)
  content : ∃ members, found "DocumentContent" = some (.object members) ∧
    c.content = Document.ofJson (.object members)
  parameters : HoldsParameters (found "Parameters") c.parameters
  outputKeys : HoldsText (found "OutputS3KeyPrefix") c.outputKeys
  outputBucket : HoldsText (found "OutputS3BucketName") c.outputBucket

/-- What stands under the names of an envelope is accepted. -/
structure IsAccepted (found : String → Option Json) : Prop where
  id : ∃ text, found "CommandId" = some (.string text) ∧ ∃ char ∈ text.toList, isBlank char = false
  documentName : ∃ text, found "DocumentName" = some (.string text)
  content : ∃ members, found "DocumentContent" = some (.object members)
  parameters : ∀ value, found "Parameters" = some value → value = .null ∨
    ∃ members, value = .object members ∧
      ∀ name inner, Json.lastValue? members name = some inner → ParameterSet.Readable inner
  outputKeys : ∀ value, found "OutputS3KeyPrefix" = some value →
    value = .null ∨ ∃ text, value = .string text
  outputBucket : ∀ value, found "OutputS3BucketName" = some value →
    value = .null ∨ ∃ text, value = .string text

-- ── Some command or none ──────────────────────────────────────────────────────────

theorem exists_holdsText_iff {found : Option Json} :
    (∃ text, HoldsText found text) ↔
      ∀ value, found = some value → value = .null ∨ ∃ text, value = .string text := by
  constructor
  · rintro ⟨text, h⟩ value hvalue
    cases h with
    | missing => exact nomatch hvalue
    | null => exact .inl (Option.some.inj hvalue).symm
    | text _ => exact .inr ⟨text, (Option.some.inj hvalue).symm⟩
  · intro h
    cases found with
    | none => exact ⟨"", .missing⟩
    | some value =>
        rcases h value rfl with rfl | ⟨text, rfl⟩
        · exact ⟨"", .null⟩
        · exact ⟨text, .text text⟩

theorem exists_holdsParameters_iff {found : Option Json} :
    (∃ p, HoldsParameters found p) ↔
      ∀ value, found = some value → value = .null ∨ ∃ members, value = .object members ∧
        ∀ name inner, Json.lastValue? members name = some inner → ParameterSet.Readable inner := by
  constructor
  · rintro ⟨p, h⟩ value hvalue
    cases h with
    | missing => exact nomatch hvalue
    | null => exact .inl (Option.some.inj hvalue).symm
    | object hsection =>
        refine .inr ⟨_, (Option.some.inj hvalue).symm, ?_⟩
        intro name inner hinner
        exact ParameterSet.readable_iff.mpr (hsection.readable name inner hinner)
  · intro h
    cases found with
    | none => exact ⟨.empty, .missing⟩
    | some value =>
        rcases h value rfl with rfl | ⟨members, rfl, hvalues⟩
        · exact ⟨.empty, .null⟩
        · obtain ⟨p, hp⟩ := ParameterSet.exists_isSection fun name inner hinner =>
            ParameterSet.readable_iff.mp (hvalues name inner hinner)
          exact ⟨p, .object hp⟩

/-- **What is accepted is what makes some command.** -/
theorem exists_isCommand_iff {found : String → Option Json} :
    (∃ c, IsCommand found c) ↔ IsAccepted found := by
  constructor
  · rintro ⟨c, h⟩
    obtain ⟨members, hcontent, -⟩ := h.content
    exact
      { id := ⟨c.id, h.id, h.id_not_blank⟩
        documentName := ⟨c.documentName, h.documentName⟩
        content := ⟨members, hcontent⟩
        parameters := exists_holdsParameters_iff.mp ⟨c.parameters, h.parameters⟩
        outputKeys := exists_holdsText_iff.mp ⟨c.outputKeys, h.outputKeys⟩
        outputBucket := exists_holdsText_iff.mp ⟨c.outputBucket, h.outputBucket⟩ }
  · intro h
    obtain ⟨id, hid, hblank⟩ := h.id
    obtain ⟨documentName, hname⟩ := h.documentName
    obtain ⟨members, hcontent⟩ := h.content
    obtain ⟨p, hparameters⟩ := exists_holdsParameters_iff.mpr h.parameters
    obtain ⟨keys, hkeys⟩ := exists_holdsText_iff.mpr h.outputKeys
    obtain ⟨bucket, hbucket⟩ := exists_holdsText_iff.mpr h.outputBucket
    exact ⟨⟨id, documentName, Document.ofJson (.object members), p, bucket, keys⟩,
      hid, hblank, hname, ⟨members, hcontent, rfl⟩, hparameters, hkeys, hbucket⟩

-- ── By way of the envelope ────────────────────────────────────────────────────────

theorem map_merged_eq_string_iff {found : Option Json} {text : String} :
    found.map Json.merged = some (.string text) ↔ found = some (.string text) := by
  cases found with
  | none => simp
  | some value => simp [Json.merged_eq_string_iff]

/-- A text that may be missing is what its field is read into, or empty. -/
theorem holdsText_iff {found : Option Json} {text : String} :
    HoldsText found text ↔
      ∃ read, Envelope.ReadInto Envelope.optionalTextOf (found.map Json.merged) none read ∧
        read.getD "" = text := by
  constructor
  · rintro (_ | _ | text)
    · exact ⟨none, rfl, rfl⟩
    · exact ⟨none, rfl, rfl⟩
    · exact ⟨some text, rfl, rfl⟩
  · rintro ⟨read, hread, rfl⟩
    cases found with
    | none =>
        have hnone : read = none := hread
        rw [hnone]
        exact .missing
    | some value =>
        have hvalue : Envelope.optionalTextOf value.merged = .ok read := hread
        cases value with
        | null =>
            cases hvalue
            exact .null
        | string text =>
            cases hvalue
            exact .text text
        | _ => exact nomatch hvalue

/-- A field that holds parameters can be read. -/
theorem HoldsParameters.exists_read {found : Option Json} {p : ParameterSet}
    (h : HoldsParameters found p) :
    ∃ read, Envelope.ReadInto Envelope.optionalMembersOf (found.map Json.merged) none read := by
  cases h with
  | missing => exact ⟨none, rfl⟩
  | null => exact ⟨none, rfl⟩
  | object _ => exact ⟨some _, rfl⟩

/-- Parameters that may be missing are what the section in their field holds, or none. -/
theorem holdsParameters_iff {found : Option Json} {e : Envelope} {p : ParameterSet}
    (hread : Envelope.ReadInto Envelope.optionalMembersOf (found.map Json.merged) none
      e.parameters) :
    HoldsParameters found p ↔ e.parameterSet = .ok p := by
  unfold Envelope.parameterSet
  cases found with
  | none =>
      have hnone : e.parameters = none := hread
      rw [hnone]
      constructor
      · rintro ⟨⟩
        rfl
      · intro h
        cases h
        exact .missing
  | some value =>
      have hvalue : Envelope.optionalMembersOf value.merged = .ok e.parameters := hread
      cases value with
      | null =>
          -- the word for nothing stands for no section
          rw [show e.parameters = none from (Except.ok.inj hvalue).symm]
          constructor
          · rintro ⟨⟩
            rfl
          · intro h
            cases h
            exact .null
      | object members =>
          -- the section comes with each name once, and holds the same parameters as before
          rw [show e.parameters = some (Json.collect (Json.merged.mergedMembers members)) from
            (Except.ok.inj hvalue).symm]
          dsimp only
          rw [ParameterSet.ofSection_eq_ok_iff (Json.nodup_collect _),
            funext (Json.lookup_merged members), ParameterSet.isSection_map_merged]
          constructor
          · rintro ⟨⟩
            assumption
          · exact .object
      | _ => exact nomatch hvalue

/-- The content of an envelope is an object if what it is made of is one. -/
theorem content_iff {found : Option Json} {content : Document} :
    (∃ members, found = some (.object members) ∧ content = Document.ofJson (.object members)) ↔
      (∃ value, found.map Json.merged = some value ∧ content = Document.ofJson value) ∧
        content.tree.kind = .object := by
  constructor
  · rintro ⟨members, rfl, rfl⟩
    exact ⟨⟨_, rfl, (Document.ofJson_merged (.object members)).symm⟩, rfl⟩
  · rintro ⟨⟨value, hvalue, rfl⟩, hkind⟩
    obtain ⟨written, rfl, rfl⟩ := Option.map_eq_some_iff.mp hvalue
    rw [Document.ofJson_merged] at hkind ⊢
    cases written with
    | object members => exact ⟨members, rfl, rfl⟩
    | _ => exact nomatch hkind

/-- **An envelope of merged values makes the command that the values make.** -/
theorem exists_envelope_iff {found : String → Option Json} {c : Command} :
    (∃ e : Envelope, (e.IsMadeOf fun name => (found name).map Json.merged) ∧
      e.command = .ok c) ↔ IsCommand found c := by
  constructor
  · rintro ⟨e, hmade, hcommand⟩
    obtain ⟨hblank, hkind, p, hparameters, rfl⟩ := Envelope.command_eq_ok_iff.mp hcommand
    exact
      { id := map_merged_eq_string_iff.mp hmade.id
        id_not_blank := isBlankText_eq_false_iff.mp hblank
        documentName := map_merged_eq_string_iff.mp hmade.documentName
        content := content_iff.mpr ⟨hmade.content, hkind⟩
        parameters := (holdsParameters_iff hmade.parameters).mpr hparameters
        outputKeys := holdsText_iff.mpr ⟨_, hmade.outputKeys, rfl⟩
        outputBucket := holdsText_iff.mpr ⟨_, hmade.outputBucket, rfl⟩ }
  · -- conversely each field of the envelope is what stands under its name
    intro h
    obtain ⟨hcontent, hkind⟩ := content_iff.mp h.content
    obtain ⟨keys, hkeys, hkeysText⟩ := holdsText_iff.mp h.outputKeys
    obtain ⟨bucket, hbucket, hbucketText⟩ := holdsText_iff.mp h.outputBucket
    obtain ⟨read, hread⟩ := h.parameters.exists_read
    have hmade : Envelope.IsMadeOf ⟨read, c.content, c.id, c.documentName, keys, bucket⟩
        fun name => (found name).map Json.merged :=
      ⟨hread, hcontent, map_merged_eq_string_iff.mpr h.id,
        map_merged_eq_string_iff.mpr h.documentName, hkeys, hbucket⟩
    refine ⟨_, hmade, Envelope.command_eq_ok_iff.mpr
      ⟨isBlankText_eq_false_iff.mpr h.id_not_blank, hkind, c.parameters,
        (holdsParameters_iff hmade.parameters).mp h.parameters, ?_⟩⟩
    dsimp only
    rw [hkeysText, hbucketText]

/-- Members that name no field twice, with the merged last values of a message, make the command
    that the last values make. -/
theorem exists_ofMembers_iff {members list : List (String × Json)} {c : Command}
    (hnames : Envelope.NamesOnce list)
    (hlast : ∀ name, Json.lastValue? list name = (Json.lastValue? members name).map Json.merged) :
    (∃ e, Envelope.ofMembers list = .ok e ∧ e.command = .ok c) ↔
      IsCommand (Json.lastValue? members) c := by
  rw [← exists_envelope_iff, ← funext hlast]
  simp only [Envelope.ofMembers_eq_ok_iff hnames]

/-- **A MESSAGE IS DECODED TO EXACTLY THE COMMAND THAT ITS LAST VALUES MAKE.** -/
theorem decode_eq_ok_iff_isCommand {raw : ByteArray} {c : Command} :
    decode raw = .ok c ↔
      ∃ members, Json.Spells (Symbol.ofBytes raw) (.object members) ∧
        IsCommand (Json.lastValue? members) c := by
  -- what is kept of an object has each name once, with the last value under it
  have hmembers : ∀ members : List (String × Json),
      (∃ e, Envelope.ofMembers (Json.collect (Json.merged.mergedMembers members)) = .ok e ∧
        e.command = .ok c) ↔ IsCommand (Json.lastValue? members) c := by
    intro members
    have hnodup := Json.nodup_collect (Json.merged.mergedMembers members)
    refine exists_ofMembers_iff (Envelope.namesOnce_of_nodup hnodup) ?_
    intro name
    rw [Json.lastValue?_of_nodup hnodup, Json.lookup_merged]
  rw [decode_eq_ok_iff]
  constructor
  · rintro ⟨message, hparse, hdocument⟩
    obtain ⟨tree, hspells, rfl⟩ := Json.parse_eq_ok_iff.mp hparse
    obtain ⟨kept, e, htree, hmade, hcommand⟩ := ofDocument_eq_ok_iff.mp hdocument
    obtain ⟨members, rfl, rfl⟩ := Json.merged_eq_object_iff.mp htree
    exact ⟨members, hspells, (hmembers members).mp ⟨e, hmade, hcommand⟩⟩
  · rintro ⟨members, hspells, hcommand⟩
    obtain ⟨e, hmade, hcommand⟩ := (hmembers members).mpr hcommand
    exact ⟨_, Json.parse_eq_ok_iff.mpr ⟨_, hspells, rfl⟩,
      ofDocument_eq_ok_iff.mpr ⟨_, e, rfl, hmade, hcommand⟩⟩

-- ── What has no say ───────────────────────────────────────────────────────────────

/-- What stands under other names than those of an envelope says nothing. -/
theorem isCommand_congr {found found' : String → Option Json} {c : Command}
    (h : ∀ field ∈ Envelope.record.fields, found field.name = found' field.name) :
    IsCommand found c ↔ IsCommand found' c := by
  have hnames : ∀ name ∈ ["Parameters", "DocumentContent", "CommandId", "DocumentName",
      "OutputS3KeyPrefix", "OutputS3BucketName"], found name = found' name := by
    intro name hmem
    obtain ⟨field, hfield, rfl⟩ :=
      List.mem_map.mp (show name ∈ Envelope.record.fields.map (·.name) from hmem)
    exact h field hfield
  simp only [List.forall_mem_cons] at hnames
  obtain ⟨hparameters, hcontent, hid, hname, hkeys, hbucket, -⟩ := hnames
  constructor
  · rintro ⟨id, hblank, documentName, content, parameters, keys, bucket⟩
    exact ⟨hid ▸ id, hblank, hname ▸ documentName, hcontent ▸ content,
      hparameters ▸ parameters, hkeys ▸ keys, hbucket ▸ bucket⟩
  · rintro ⟨id, hblank, documentName, content, parameters, keys, bucket⟩
    exact ⟨hid ▸ id, hblank, hname ▸ documentName, hcontent ▸ content,
      hparameters ▸ parameters, hkeys ▸ keys, hbucket ▸ bucket⟩

/-- A message of some members is decoded to what their last values make. -/
theorem decode_of_spells {raw : ByteArray} {members : List (String × Json)}
    (h : Json.Spells (Symbol.ofBytes raw) (.object members)) (c : Command) :
    decode raw = .ok c ↔ IsCommand (Json.lastValue? members) c := by
  rw [decode_eq_ok_iff_isCommand]
  constructor
  · rintro ⟨others, hothers, hc⟩
    have hsame : Json.object others = .object members :=
      Except.ok.inj (Eq.trans (Eq.symm hothers) h)
    cases hsame
    exact hc
  · intro hc
    exact ⟨members, h, hc⟩

/-- Texts that spell one value are decoded alike. -/
theorem decode_eq_of_spells {raw raw' : ByteArray} {tree : Json}
    (h : Json.Spells (Symbol.ofBytes raw) tree) (h' : Json.Spells (Symbol.ofBytes raw') tree) :
    decode raw = decode raw' := by
  have hparse : Json.parse (Symbol.ofBytes raw) = Json.parse (Symbol.ofBytes raw') := by
    rw [Json.parse_eq_ok_iff.mpr ⟨tree, h, rfl⟩, Json.parse_eq_ok_iff.mpr ⟨tree, h', rfl⟩]
  unfold decode
  rw [hparse]

/-- **A MESSAGE IS ACCEPTED EXACTLY IF IT IS AN ENVELOPE**, wherever events go, as the command that
    its last values make; every other message is malformed. What stands under other names, the
    order of the members and the blanks between them make no difference. -/
theorem decode_accepts_envelopes (raw : ByteArray) (log : Destination) :
    (∀ c, ((decodeTraced raw).sendTo log).1 = .ok c ↔
      ∃ members, Json.Spells (Symbol.ofBytes raw) (.object members) ∧
        IsCommand (Json.lastValue? members) c) ∧
    ((∃ c, ((decodeTraced raw).sendTo log).1 = .ok c) ↔
      ∃ members, Json.Spells (Symbol.ofBytes raw) (.object members) ∧
        IsAccepted (Json.lastValue? members)) ∧
    (∀ fault, ((decodeTraced raw).sendTo log).1 = .error fault →
      ∃ cause, fault = .malformed cause) ∧
    (∀ members raw' members', Json.Spells (Symbol.ofBytes raw) (.object members) →
      Json.Spells (Symbol.ofBytes raw') (.object members') →
      (∀ field ∈ Envelope.record.fields,
        Json.lastValue? members field.name = Json.lastValue? members' field.name) →
      ∀ c, ((decodeTraced raw).sendTo log).1 = .ok c ↔
        ((decodeTraced raw').sendTo log).1 = .ok c) ∧
    (∀ tree text, Json.Spells (Symbol.ofBytes raw) tree → Json.WrittenText tree text →
      ((decodeTraced raw).sendTo log).1 =
        ((decodeTraced (String.ofList text).toUTF8).sendTo log).1) := by
  simp only [fst_sendTo_decodeTraced]
  refine ⟨fun c => decode_eq_ok_iff_isCommand, ?_, ?_, ?_, ?_⟩
  · constructor
    · rintro ⟨c, hdecode⟩
      obtain ⟨members, hspells, hc⟩ := decode_eq_ok_iff_isCommand.mp hdecode
      exact ⟨members, hspells, exists_isCommand_iff.mp ⟨c, hc⟩⟩
    · rintro ⟨members, hspells, haccepted⟩
      obtain ⟨c, hc⟩ := exists_isCommand_iff.mpr haccepted
      exact ⟨c, decode_eq_ok_iff_isCommand.mpr ⟨members, hspells, hc⟩⟩
  · intro fault hdecode
    exact exists_malformed_of_decode hdecode
  · intro members raw' members' hspells hspells' hsame c
    rw [decode_of_spells hspells, decode_of_spells hspells']
    exact isCommand_congr hsame
  · intro tree text hspells htext
    exact decode_eq_of_spells hspells (htext.spells hspells.depth_le)

/-- The members of a message that says some things twice, some in vain and some not at all. -/
def scatteredMembers : List (String × Json) :=
  [("Comment", .array [.null]), ("OutputS3BucketName", .null), ("CommandId", .bool true),
    ("DocumentContent", .object [("say", .string "{{ who }}")]), ("CommandId", .string "1"),
    ("Parameters", .object [("who", .null), ("who", .string "me")]), ("DocumentName", .string "d")]

/-- The command that such a message is. -/
def scattered : Command where
  id := "1"
  documentName := "d"
  content := Document.ofJson (.object [("say", .string "{{ who }}")])
  parameters := .ofList [("who", ["me"])]
  outputBucket := ""
  outputKeys := ""

/-- Such a message is accepted in both forms, and so is the one that says each thing once and in the
    reverse order; no bytes at all are malformed. -/
theorem decode_accepts_envelopes_scattered :
    decode (String.ofList (Json.object scatteredMembers).render).toUTF8 = .ok scattered ∧
    decode (String.ofList ((Json.object scatteredMembers).renderSpread 0)).toUTF8 =
      .ok scattered ∧
    decode (String.ofList (Json.object (Json.collect scatteredMembers).reverse).render).toUTF8 =
      .ok scattered ∧
    (∃ cause, decode .empty = .error (.malformed cause)) := by
  have hspells :=
    (Json.written_render (.object scatteredMembers)).writtenText.spells (by decide)
  have hreversed :=
    (Json.written_render (.object (Json.collect scatteredMembers).reverse)).writtenText.spells
      (by decide)
  obtain ⟨haccepts, -, -, hfields, hlayouts⟩ :=
    decode_accepts_envelopes (String.ofList (Json.object scatteredMembers).render).toUTF8 .own
  simp only [fst_sendTo_decodeTraced] at haccepts hfields hlayouts
  have hscattered : IsCommand (Json.lastValue? scatteredMembers) scattered :=
    { id := rfl
      id_not_blank := ⟨'1', List.mem_cons_self, rfl⟩
      documentName := rfl
      content := ⟨_, rfl, rfl⟩
      parameters := .object (ParameterSet.isSection_lastValue?_iff.mpr rfl)
      outputKeys := .missing
      outputBucket := .null }
  have hdecode := (haccepts scattered).mpr ⟨scatteredMembers, hspells, hscattered⟩
  refine ⟨hdecode, ?_, ?_, ?_⟩
  · rw [← hlayouts _ _ hspells (Json.written_renderSpread 0 _).writtenText, hdecode]
  · refine (hfields _ _ _ hspells hreversed ?_ scattered).mp hdecode
    intro field _
    show _ = List.lookup field.name (List.reverse (List.reverse (Json.collect scatteredMembers)))
    rw [List.reverse_reverse, Json.lookup_collect]
  · have hempty : decode .empty = .error (.malformed (.notJson (.text .endInValue))) := by
      decide +kernel
    obtain ⟨-, -, hmalformed, -⟩ := decode_accepts_envelopes .empty .nowhere
    obtain ⟨cause, hcause⟩ := hmalformed _ ((fst_sendTo_decodeTraced _ _).trans hempty)
    exact ⟨cause, hcause ▸ hempty⟩

end AgentWire.Command
