import AgentWire.Proofs.Command.Acceptance
import AgentWire.Proofs.Json.Direct

/-!
# Agreement — the two ways of reading a command

A message can be read as a value first, or its fields can be read straight from the text. On the
second way each member is taken in its place and as it is written: one of another name is skipped,
and a field that comes again is refused.

1. A field that is read on the way is read as the merged value of its member is (`follows_field`).
2. So the fields are a fold over the members, which succeeds if no field comes twice and each member
   is taken as on the first way (`ofWritten_eq_ok_iff`).
3. Where no field comes twice, merging the members neither adds nor drops one, and both ways make
   the command that the last values make.

    read raw = .ok c  ↔  NamesOnce members ∧ decode raw = .ok c
-/

namespace AgentWire

namespace Envelope

/-- Takes a member as it is written into the fields: as what its value stands for. -/
def Draft.takeWritten (d : Draft) (member : String × Json) : Except Json.Fault Draft :=
  d.take (member.1, member.2.merged)

-- ── One field ─────────────────────────────────────────────────────────────────────

variable {bound levels : Nat}

/-- A text is read as the value that it stands for is. -/
theorem follows_text : Json.Follows bound (Json.value levels) (Json.Decoder.text levels) fun v =>
    textOf v.merged := by
  intro input v rest hbound h
  rw [Json.Decoder.follows_text hbound h]
  cases v <;> rfl

/-- A text that may be null is read as the value that it stands for is. -/
theorem follows_optionalText : Json.Follows bound (Json.value levels)
    (Json.Decoder.optional .text levels) fun v => optionalTextOf v.merged := by
  intro input v rest hbound h
  rw [Json.Decoder.follows_optional (fun _ => Json.Decoder.follows_text) hbound h]
  cases v <;> rfl

/-- An object that may be null is read as the value that it stands for is. -/
theorem follows_optionalMembers : Json.Follows bound (Json.value levels)
    (Json.Decoder.optional .members levels) fun v => optionalMembersOf v.merged := by
  intro input v rest hbound h
  rw [Json.Decoder.follows_optional (fun _ => Json.Decoder.follows_members) hbound h]
  cases v <;> rfl

/-- **A FIELD IS READ AS ITS MEMBER IS TAKEN.** -/
theorem follows_field : ∀ field ∈ record.fields, ∀ (bound : Nat) (d : Draft),
    Json.Follows bound (Json.value levels) (field.read d levels) fun v =>
      d.takeWritten (field.name, v) := by
  intro field hfield bound d
  simp only [record, List.mem_cons, List.not_mem_nil, or_false] at hfield
  rcases hfield with rfl | rfl | rfl | rfl | rfl | rfl
  · exact follows_optionalMembers.field fun v => rfl
  · refine Json.Decoder.follows_any.field fun v => ?_
    show Except.ok { d with content := some (Document.ofJson v) } =
      Except.ok { d with content := some (Document.ofJson v.merged) }
    rw [Document.ofJson_merged]
  · exact follows_text.field fun v => rfl
  · exact follows_text.field fun v => rfl
  · exact follows_optionalText.field fun v => rfl
  · exact follows_optionalText.field fun v => rfl

-- ── All fields ────────────────────────────────────────────────────────────────────

/-- Members are taken as they are written as what they stand for is taken. -/
theorem foldlM_takeWritten {members : List (String × Json)} : ∀ {d : Draft},
    members.foldlM Draft.takeWritten d = d.takeAll (Json.merged.mergedMembers members) := by
  induction members with
  | nil => exact rfl
  | cons member rest ih =>
      intro d
      obtain ⟨name, v⟩ := member
      rw [List.foldlM_cons, Json.merged.mergedMembers, Draft.takeAll]
      cases htake : d.take (name, v.merged) with
      | error fault =>
          rw [Draft.takeWritten, htake]
          rfl
      | ok next =>
          rw [Draft.takeWritten, htake]
          exact ih

/-- The members of a message are taken first and looked at for what is missing then. -/
theorem ofMembers_eq_bind (members : List (String × Json)) :
    ofMembers members = (Draft.takeAll {} members >>= fun d => d.finish .missingField) := by
  rw [ofMembers]
  cases Draft.takeAll {} members with
  | error fault => rfl
  | ok d => rfl

/-- The envelope that members make as they are written, one after the other and each field once. -/
def ofWritten (members : List (String × Json)) : Except Json.Fault Envelope :=
  members.foldlM (record.takeMember Draft.takeWritten) ([], {}) >>= fun last =>
    last.2.finish .missingField

/-- **Members make an envelope on the way if they name no field twice**, and it is the envelope of
    what they stand for. -/
theorem ofWritten_eq_ok_iff {members : List (String × Json)} {e : Envelope} :
    ofWritten members = .ok e ↔
      NamesOnce members ∧ ofMembers (Json.merged.mergedMembers members) = .ok e := by
  have hunknown : ∀ {name : String}, name ∉ record.fields.map (·.name) →
      ∀ (d : Draft) (v : Json), d.takeWritten (name, v) = .ok d := by
    intro name hname d v
    exact Draft.take_of_unknown hname
  have htaken : ∀ {d : Draft},
      (∃ seen, members.foldlM (record.takeMember Draft.takeWritten) ([], {}) = .ok (seen, d)) ↔
        NamesOnce members ∧ Draft.takeAll {} (Json.merged.mergedMembers members) = .ok d := by
    intro d
    rw [← foldlM_takeWritten]
    exact Json.Record.foldlM_takeMember_iff hunknown
  rw [ofMembers_eq_bind]
  constructor
  · intro h
    obtain ⟨⟨seen, d⟩, hfold, hfinish⟩ := exists_of_bind_eq_ok h
    obtain ⟨hnames, htake⟩ := htaken.mp ⟨seen, hfold⟩
    rw [htake]
    exact ⟨hnames, hfinish⟩
  · rintro ⟨hnames, h⟩
    obtain ⟨d, htake, hfinish⟩ := exists_of_bind_eq_ok h
    obtain ⟨seen, hfold⟩ := htaken.mpr ⟨hnames, htake⟩
    rw [ofWritten, hfold]
    exact hfinish

end Envelope

namespace Command

-- ── Whole messages ────────────────────────────────────────────────────────────────

/-- A message of some members is read as they are written. -/
theorem read_of_spells {raw : ByteArray} {members : List (String × Json)}
    (h : Json.Spells (Symbol.ofBytes raw) (.object members)) :
    read raw = (Envelope.ofWritten members >>= fun e =>
      e.command.mapError fun cause => .refused (Fault.malformed cause).message) := by
  obtain ⟨rest, hvalue, hblank⟩ := Json.whole_eq_ok_iff.mp h
  have hrecord := Json.Record.decoder_of_value Envelope.follows_field hvalue
  exact Json.whole_eq_of_map (Json.Decoder.checked_eq_map hrecord) hblank

/-- **A MESSAGE IS READ TO WHAT ITS LAST VALUES MAKE**, if it names no field twice. -/
theorem read_eq_ok_iff_of_spells {raw : ByteArray} {members : List (String × Json)}
    (h : Json.Spells (Symbol.ofBytes raw) (.object members)) (c : Command) :
    read raw = .ok c ↔ Envelope.NamesOnce members ∧ IsCommand (Json.lastValue? members) c := by
  -- merging changes values and no names, so no field comes twice of it
  have hmakes : Envelope.NamesOnce members →
      ((∃ e, Envelope.ofMembers (Json.merged.mergedMembers members) = .ok e ∧
        e.command = .ok c) ↔ IsCommand (Json.lastValue? members) c) := by
    intro hnames
    refine exists_ofMembers_iff ?_ (Json.lastValue?_mergedMembers members)
    intro field hfield
    rw [Json.names_mergedMembers]
    exact hnames field hfield
  rw [read_of_spells h]
  constructor
  · intro hok
    obtain ⟨e, hwritten, hcommand⟩ := exists_of_bind_eq_ok hok
    obtain ⟨hnames, hmade⟩ := Envelope.ofWritten_eq_ok_iff.mp hwritten
    exact ⟨hnames, (hmakes hnames).mp ⟨e, hmade, mapError_eq_ok_iff.mp hcommand⟩⟩
  · rintro ⟨hnames, hc⟩
    obtain ⟨e, hmade, hcommand⟩ := (hmakes hnames).mpr hc
    rw [Envelope.ofWritten_eq_ok_iff.mpr ⟨hnames, hmade⟩]
    exact mapError_eq_ok_iff.mpr hcommand

/-- **BOTH WAYS OF READING AN OBJECT AGREE**: what is read straight from the text is what is decoded
    of it, and it is read if it is decoded and no field comes twice. Of a field that comes twice the
    last value is decoded, and the message is not read. -/
theorem read_agrees_with_decode {raw : ByteArray} {members : List (String × Json)}
    (h : Json.Spells (Symbol.ofBytes raw) (.object members)) :
    ((∃ c, read raw = .ok c) ↔ (∃ c, decode raw = .ok c) ∧ Envelope.NamesOnce members) ∧
    (∀ c c', read raw = .ok c → decode raw = .ok c' → c = c') ∧
    (∀ c, decode raw = .ok c ↔ IsCommand (Json.lastValue? members) c) ∧
    (¬Envelope.NamesOnce members → ∃ fault, read raw = .error fault) := by
  have hread : ∀ c, read raw = .ok c ↔ Envelope.NamesOnce members ∧ decode raw = .ok c := by
    intro c
    rw [read_eq_ok_iff_of_spells h, decode_of_spells h]
  refine ⟨?_, ?_, decode_of_spells h, ?_⟩
  · constructor
    · rintro ⟨c, hc⟩
      exact ⟨⟨c, ((hread c).mp hc).2⟩, ((hread c).mp hc).1⟩
    · rintro ⟨⟨c, hc⟩, hnames⟩
      exact ⟨c, (hread c).mpr ⟨hnames, hc⟩⟩
  · intro c c' hc hc'
    exact Except.ok.inj (((hread c).mp hc).2.symm.trans hc')
  · intro htwice
    cases houtcome : read raw with
    | error fault => exact ⟨fault, rfl⟩
    | ok c => exact absurd ((hread c).mp houtcome).1 htwice

/-- The members of a message that names each field once, and something else twice. -/
def plainMembers : List (String × Json) :=
  [("Comment", .null), ("DocumentContent", .object []), ("Comment", .array [.null]),
    ("DocumentName", .string "d"), ("CommandId", .string "2")]

/-- The same members behind another id. -/
def twiceNamedMembers : List (String × Json) :=
  ("CommandId", .string "1") :: plainMembers

/-- The command that such messages are. -/
def plain : Command where
  id := "2"
  documentName := "d"
  content := Document.ofJson (.object [])
  parameters := .empty
  outputBucket := ""
  outputKeys := ""

/-- A message that names each field once is decoded and read alike; with another id in front it is
    decoded alike and not read. -/
theorem read_agrees_with_decode_plain :
    decode (String.ofList (Json.object plainMembers).render).toUTF8 = .ok plain ∧
    read (String.ofList (Json.object plainMembers).render).toUTF8 = .ok plain ∧
    decode (String.ofList (Json.object twiceNamedMembers).render).toUTF8 = .ok plain ∧
    (∃ fault,
      read (String.ofList (Json.object twiceNamedMembers).render).toUTF8 = .error fault) := by
  have hspells := (Json.written_render (.object plainMembers)).writtenText.spells (by decide)
  have htwice := (Json.written_render (.object twiceNamedMembers)).writtenText.spells (by decide)
  obtain ⟨hagree, hequal, hdecode, -⟩ := read_agrees_with_decode hspells
  obtain ⟨-, -, hdecodeTwice, hrefused⟩ := read_agrees_with_decode htwice
  have hplain : IsCommand (Json.lastValue? plainMembers) plain :=
    ⟨rfl, ⟨'2', List.mem_cons_self, rfl⟩, rfl, ⟨[], rfl, rfl⟩, .missing, .missing, .missing⟩
  have hlast : IsCommand (Json.lastValue? twiceNamedMembers) plain :=
    ⟨rfl, ⟨'2', List.mem_cons_self, rfl⟩, rfl, ⟨[], rfl, rfl⟩, .missing, .missing, .missing⟩
  have hdecoded := (hdecode plain).mpr hplain
  obtain ⟨c, hread⟩ := hagree.mpr ⟨⟨plain, hdecoded⟩, by decide⟩
  have hsame := hequal c plain hread hdecoded
  subst hsame
  exact ⟨hdecoded, hread, (hdecodeTwice plain).mpr hlast, hrefused (by decide)⟩

end Command

end AgentWire
