import AgentWire.Proofs.Command.Reception

/-!
# Round trips — encoding and decoding are inverse

A command with an id that is not blank and with an object of at most 126 levels for content is
read back from its wire form, by either way of reading, with its names in the same order. A
command that was decoded or resolved is of that kind whatever the message was, so it goes over
the wire and back unchanged.

    decode c.encode = .ok c  ↔  c.Sendable
-/

namespace AgentWire.Command

/-- Both ways of reading take the wire form of a command as the command, and writing what either
    of them returns gives the same bytes. -/
structure RoundTrips (c : Command) : Prop where
  decoded : decode c.encode.toUTF8 = .ok c
  read : read c.encode.toUTF8 = .ok c
  encoded_again : ∀ received : Command,
    decode c.encode.toUTF8 = .ok received ∨ Command.read c.encode.toUTF8 = .ok received →
      received.encode.toUTF8 = c.encode.toUTF8

theorem Sendable.roundTrips {c : Command} (h : c.Sendable) : c.RoundTrips := by
  refine ⟨h.decode_encode, h.read_encode, ?_⟩
  rintro received (hdecode | hread)
  · rw [Except.ok.inj (hdecode.symm.trans h.decode_encode)]
  · rw [Except.ok.inj (hread.symm.trans h.read_encode)]

/-- **What can be sent is exactly what comes back.** -/
theorem decode_encode_iff (c : Command) : decode c.encode.toUTF8 = .ok c ↔ c.Sendable := by
  constructor
  · exact sendable_of_decode
  · exact Sendable.decode_encode

/-- **ENCODING AND DECODING ARE INVERSE** on commands with an id and with an object of at most 126
    levels for content, and so on every command that is decoded or resolved. -/
theorem encoding_inverse :
    (∀ c : Command, isBlankText c.id = false → c.content.tree.kind = .object →
      c.content.tree.depth ≤ 126 → c.RoundTrips) ∧
    (∀ (raw : ByteArray) (c : Command), decode raw = .ok c ∨ parse raw = .ok c →
      c.RoundTrips) := by
  constructor
  · intro c hblank hkind hdepth
    exact Sendable.roundTrips ⟨hblank, hkind, Nat.succ_le_succ hdepth⟩
  · rintro raw c (hdecode | hparse)
    · exact (sendable_of_decode hdecode).roundTrips
    · exact (sendable_of_parse hparse).roundTrips

/-- A command whose strings need every kind of escape, with a number of each kind. -/
def escapes : Command where
  id := "\"quoted\" \\ \t"
  documentName := ""
  content := Document.ofJson <| .object
    [("z\n", .array [.string "\x07 naïve 😀", .number (.integer (-3) (by decide)), .null]),
      ("a", .object [("deep", .bool true)])]
  parameters := ParameterSet.ofList [("b", []), ("a", ["x", "\x1f/"])]
  outputBucket := "bucket"
  outputKeys := ""

/-- Both parts apply to such a command: it meets the conditions, and its wire form is a message
    that is decoded to it. -/
theorem encoding_inverse_escapes :
    decode escapes.encode.toUTF8 = .ok escapes ∧ escapes.RoundTrips := by
  have hdecoded := (encoding_inverse.1 escapes (by decide) (by decide) (by decide)).decoded
  exact ⟨hdecoded, encoding_inverse.2 escapes.encode.toUTF8 escapes (.inl hdecoded)⟩

end AgentWire.Command
