import AgentWire.Command.Envelope
import AgentWire.Proofs.Json.Decoding
import AgentWire.Proofs.Parameters.Section

/-!
# Encodings — the wire form of a command is read as the command

A command can be sent when its id is not blank, its content is an object, and that object leaves
one level of nesting for the envelope around it. Its wire form then is a document of its own:
every name once, nested within the limit. Both ways of reading a message take it:

    decode    the text is the layout of a value, whose members are taken one by one
    read      the members are read one by one as fields of the envelope

and both end with the fields that were written.
-/

namespace AgentWire

/-- A section is read as the members that it is written with. -/
theorem ParameterSet.readsAs_members (p : ParameterSet) {levels : Nat} (h : 1 ≤ levels) :
    Json.ReadsAs (Json.Decoder.members (levels + 1)) p.toJson p.sectionMembers := by
  have hdistinct := p.distinct_toJson
  have hmembers : Json.ReadsAs (Json.Decoder.members (levels + 1)) p.toJson
      (Json.collect (Json.merged.mergedMembers p.sectionMembers)) :=
    Json.Decoder.readsAs_members (Nat.le_trans p.depthMembers_sectionMembers_le h)
  rwa [Json.mergedMembers_of_distinct hdistinct.2, Json.collect_of_nodup hdistinct.1] at hmembers

namespace Command

/-- A command that can be sent: both ways of reading accept its wire form. -/
structure Sendable (c : Command) : Prop where
  id_not_blank : isBlankText c.id = false
  content_object : c.content.tree.kind = .object
  content_depth : c.content.tree.depth + 1 ≤ Json.nestingLimit

variable (c : Command)

-- ── The wire form as a document ───────────────────────────────────────────────────

/-- **The parameters of a command are sent as the set itself is written**: no name comes twice, so
    putting one after the other leaves them as they are. -/
theorem sentParameters_eq : c.sentParameters = c.parameters.sectionMembers := by
  have hnodup : (Json.names c.parameters.sectionMembers).Nodup := by
    rw [ParameterSet.names_sectionMembers]
    exact NameMap.nodup_names c.parameters.values.ascending
  exact Json.collect_of_nodup hnodup

/-- The wire form of a command with its parameters written as a set. -/
theorem toJson_eq : c.toJson = .object
    [("Parameters", c.parameters.toJson), ("DocumentContent", c.content.tree),
      ("CommandId", .string c.id), ("DocumentName", .string c.documentName),
      ("OutputS3KeyPrefix", .string c.outputKeys),
      ("OutputS3BucketName", .string c.outputBucket)] := by
  rw [toJson, sentParameters_eq]
  rfl

/-- The wire form names no member twice. -/
theorem distinct_toJson : c.toJson.Distinct := by
  rw [toJson_eq]
  refine ⟨?_, c.parameters.distinct_toJson, c.content.distinct, trivial, trivial, trivial, trivial,
    trivial⟩
  show List.Nodup ["Parameters", "DocumentContent", "CommandId", "DocumentName",
    "OutputS3KeyPrefix", "OutputS3BucketName"]
  decide

variable {c}

/-- The wire form is nested within the limit. -/
theorem Sendable.depth_le (h : c.Sendable) : c.toJson.depth ≤ Json.nestingLimit := by
  have hcontent := h.content_depth
  have hsection := c.parameters.depthMembers_sectionMembers_le
  have hinner : c.parameters.toJson.depth ≤ 126 :=
    Nat.le_trans (Nat.succ_le_succ hsection) (by decide)
  have hlimit : Json.nestingLimit = 127 := rfl
  rw [hlimit] at hcontent ⊢
  rw [toJson_eq]
  show Json.depth.depthMembers _ + 1 ≤ 126 + 1
  refine Nat.succ_le_succ (Json.depthMembers_le_iff.mpr ?_)
  intro member hmem
  simp only [List.mem_cons, List.not_mem_nil, or_false] at hmem
  rcases hmem with rfl | rfl | rfl | rfl | rfl | rfl
  · exact hinner
  · exact Nat.le_of_succ_le_succ hcontent
  · exact Nat.zero_le _
  · exact Nat.zero_le _
  · exact Nat.zero_le _
  · exact Nat.zero_le _

-- ── From the envelope to the command ──────────────────────────────────────────────

/-- The envelope that the wire form of a command makes. -/
def envelope (c : Command) : Envelope where
  parameters := some c.parameters.sectionMembers
  content := c.content
  id := c.id
  documentName := c.documentName
  outputKeys := some c.outputKeys
  outputBucket := some c.outputBucket

/-- The fields of the wire form of a command. -/
def draft (c : Command) : Envelope.Draft where
  parameters := some c.parameters.sectionMembers
  content := some c.content
  id := some c.id
  documentName := some c.documentName
  outputKeys := some c.outputKeys
  outputBucket := some c.outputBucket

/-- The envelope of a command makes the command. -/
theorem Sendable.command_envelope (h : c.Sendable) : c.envelope.command = .ok c := by
  have hparameters : c.envelope.parameterSet = .ok c.parameters :=
    c.parameters.ofSection_sectionMembers
  unfold Envelope.command
  rw [hparameters, show c.envelope.id = c.id from rfl,
    show c.envelope.content = c.content from rfl, h.id_not_blank,
    if_neg (fun hblank => Bool.noConfusion hblank), if_neg (fun hkind => hkind h.content_object)]
  rfl

-- ── By way of a value ─────────────────────────────────────────────────────────────

/-- The members of the wire form make the envelope of the command. -/
theorem ofMembers_toJson (c : Command) :
    Envelope.ofMembers
      [("Parameters", c.parameters.toJson), ("DocumentContent", c.content.tree),
        ("CommandId", .string c.id), ("DocumentName", .string c.documentName),
        ("OutputS3KeyPrefix", .string c.outputKeys),
        ("OutputS3BucketName", .string c.outputBucket)] =
      .ok c.envelope := by
  have hcontent := c.content.ofJson_tree
  unfold Envelope.ofMembers
  simp only [Envelope.Draft.takeAll, Envelope.Draft.take, ParameterSet.toJson, hcontent]
  rfl

/-- **Every text of a command is decoded as the command.** -/
theorem Sendable.decode_written (h : c.Sendable) {text : List Char}
    (htext : Json.WrittenText c.toJson text) : decode (String.ofList text).toUTF8 = .ok c := by
  have hparse := Json.parse_written h.depth_le htext
  have htree : (Document.ofJson c.toJson).tree = c.toJson :=
    Json.merged_of_distinct c.distinct_toJson
  have hdocument : ofDocument (Document.ofJson c.toJson) = .ok c := by
    unfold ofDocument
    rw [htree, toJson_eq]
    dsimp only
    rw [ofMembers_toJson]
    exact h.command_envelope
  unfold decode
  rw [hparse]
  dsimp only
  rw [hdocument]
  rfl

/-- The wire form is decoded as the command. -/
theorem Sendable.decode_encode (h : c.Sendable) : decode c.encode.toUTF8 = .ok c :=
  h.decode_written (Json.written_render c.toJson).writtenText

-- ── Field by field ────────────────────────────────────────────────────────────────

/-- The fields of the wire form are read into the envelope of the command. -/
theorem Sendable.readsAs_record (h : c.Sendable) :
    Json.ReadsAs (Envelope.record.decoder Json.nestingLimit) c.toJson c.envelope := by
  have hsection : Json.ReadsAs (Json.Decoder.members.optional 126) c.parameters.toJson
      (some c.parameters.sectionMembers) :=
    Json.Decoder.readsAs_optional (c.parameters.readsAs_members (by decide))
      (by intro heq; exact nomatch heq)
  have hcontent : Json.ReadsAs (Json.Decoder.any 126) c.content.tree c.content := by
    have hany := Json.Decoder.readsAs_any (Nat.le_of_succ_le_succ h.content_depth)
    rw [c.content.ofJson_tree] at hany
    exact hany
  have htext : ∀ text : String, Json.ReadsAs (Json.Decoder.text 126) (.string text) text :=
    fun text => Json.Decoder.readsAs_text text 126
  have hoptional : ∀ text : String,
      Json.ReadsAs (Json.Decoder.text.optional 126) (.string text) (some text) := by
    intro text
    exact Json.Decoder.readsAs_optional (htext text) (by intro heq; exact nomatch heq)
  have hnodup : (Envelope.record.fields.map (·.name)).Nodup := by
    show List.Nodup ["Parameters", "DocumentContent", "CommandId", "DocumentName",
      "OutputS3KeyPrefix", "OutputS3BucketName"]
    decide
  -- the fields are written in the order of the record, and each fills its own place
  have hfields : Json.Record.FieldsRead 126 Envelope.record.fields {}
      [("Parameters", c.parameters.toJson), ("DocumentContent", c.content.tree),
        ("CommandId", .string c.id), ("DocumentName", .string c.documentName),
        ("OutputS3KeyPrefix", .string c.outputKeys), ("OutputS3BucketName", .string c.outputBucket)]
      c.draft :=
    .of hsection <| .of hcontent <| .of (htext c.id) <| .of (htext c.documentName) <|
      .of (hoptional c.outputKeys) <| .of (hoptional c.outputBucket) <| .nil _
  rw [toJson_eq]
  exact Envelope.record.readsAs_decoder hnodup hfields rfl

/-- **The wire form is read as the command.** -/
theorem Sendable.read_encode (h : c.Sendable) : read c.encode.toUTF8 = .ok c := by
  unfold read
  refine Json.decode_written (Json.Decoder.readsAs_checked h.readsAs_record ?_)
    (Json.written_render c.toJson).writtenText
  rw [h.command_envelope]
  rfl

end Command

end AgentWire
