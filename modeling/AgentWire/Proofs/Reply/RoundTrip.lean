import AgentWire.Proofs.Json.Decoding
import AgentWire.Reply.Basic

/-!
# Replies — a reply that is written is read back

A reply is made of records all of whose fields may be left out. A field whose name or form did not
match would therefore not be missed: the record would keep its default. So each record has the law
that every layout of it is decoded as the record, from the laws of its fields, and the maps have
it from the law of what they hold:

    agent, counts             →  general part ┐
    status, code, texts       →  statuses     ┴→  reply

A reply is nested four levels deep, whatever it says.
-/

namespace AgentWire

open Json

variable {levels : Nat}

-- ── The parts of a reply ──────────────────────────────────────────────────────────

theorem Status.readsAs_decoder (s : Status) : ReadsAs (Status.decoder levels) s.toJson s :=
  Decoder.readsAs_choice (Status.ofText?_text s) levels

theorem Agent.readsAs_decoder (a : Agent) :
    ReadsAs (Agent.decoder (levels + 1)) a.toJson a := by
  refine Record.readsAs_ofDefaults (by decide) ?_
  exact .of (Decoder.readsAs_text a.lang _) <| .of (Decoder.readsAs_text a.name _) <|
    .of (Decoder.readsAs_text a.version _) <| .of (Decoder.readsAs_text a.os _) <|
    .of (Decoder.readsAs_text a.osVersion _) <| .nil _

theorem RuntimeStatus.readsAs_decoder (s : RuntimeStatus) :
    ReadsAs (RuntimeStatus.decoder (levels + 1)) s.toJson s := by
  refine Record.readsAs_ofDefaults (by decide) ?_
  exact .of s.status.readsAs_decoder <| .of (Decoder.readsAs_signed32 s.code _) <|
    .of (Decoder.readsAs_text s.name _) <| .of (Decoder.readsAs_text s.output _) <|
    .of (Decoder.readsAs_text s.startText _) <| .of (Decoder.readsAs_text s.endText _) <|
    .of (Decoder.readsAs_text s.outputBucket _) <| .of (Decoder.readsAs_text s.outputKeys _) <|
    .nil _

theorem ReplyInfo.readsAs_decoder (i : ReplyInfo) :
    ReadsAs (ReplyInfo.decoder (levels + 2)) i.toJson i := by
  refine Record.readsAs_ofDefaults (by decide) ?_
  exact .of i.agent.readsAs_decoder <| .of (Decoder.readsAs_text i.dateTime _) <|
    .of (Decoder.readsAs_dictionary (fun n => Decoder.readsAs_unsigned32 n levels) i.counts) <|
    .nil _

namespace Reply

theorem readsAs_decoder (r : Reply) : ReadsAs (Reply.decoder (levels + 3)) r.toJson r := by
  refine Record.readsAs_ofDefaults (by decide) ?_
  exact .of r.info.readsAs_decoder <| .of r.documentStatus.readsAs_decoder <|
    .of (Decoder.readsAs_dictionary (fun s => s.readsAs_decoder) r.statuses) <| .nil _

-- ── Replies ───────────────────────────────────────────────────────────────────────

/-- **EVERY TEXT OF A REPLY IS READ AS THE REPLY.** -/
theorem parse_of_writtenText {r : Reply} {text : List Char} (h : WrittenText r.toJson text) :
    parse (String.ofList text).toUTF8 = .ok r := by
  have hread : ReadsAs (Reply.decoder nestingLimit) r.toJson r := r.readsAs_decoder
  unfold parse
  rw [decode_written hread h]
  rfl

theorem parse_encode (r : Reply) : parse r.encode.toUTF8 = .ok r :=
  parse_of_writtenText (written_render r.toJson).writtenText

/-- **PARSING UNDOES ENCODING** on every reply. So no two replies have one encoding, and what is
    parsed of any bytes is parsed again of its own encoding. -/
theorem parse_undoes_encode :
    (∀ r : Reply, parse r.encode.toUTF8 = .ok r) ∧
    (∀ r r' : Reply, r.encode.toUTF8 = r'.encode.toUTF8 → r = r') ∧
    (∀ (raw : ByteArray) (r : Reply), parse raw = .ok r → parse r.encode.toUTF8 = .ok r) := by
  refine ⟨parse_encode, ?_, ?_⟩
  · intro r r' hsame
    have hparse := parse_encode r
    rw [hsame, parse_encode r'] at hparse
    exact (Except.ok.inj hparse).symm
  · intro raw r _
    exact parse_encode r

/-- A reply with strings of every kind and numbers at both ends. -/
def thorny : Reply where
  info :=
    { agent := { lang := "\"quoted\" \\", name := "naïve 😀", os := "\x07\t" }
      dateTime := "never"
      counts := .ofList [("", 0), ("Töne\n", 4294967295)] }
  documentStatus := .unset
  statuses := .ofList
    [("\x1f", { status := .timedOut, code := -2147483648, output := "/\x7f" }),
      ("b", { status := .unset, code := 2147483647, name := "a" })]

/-- All parts apply to such a reply, and to an empty list, which leaves out every field. -/
theorem parse_undoes_encode_thorny :
    parse thorny.encode.toUTF8 = .ok thorny ∧
    thorny.encode.toUTF8 ≠ ({} : Reply).encode.toUTF8 ∧
    parse "[]".toUTF8 = .ok {} ∧ parse ({} : Reply).encode.toUTF8 = .ok {} := by
  obtain ⟨hparse, hinjective, hagain⟩ := parse_undoes_encode
  have hlist : parse "[]".toUTF8 = .ok {} := by decide +kernel
  refine ⟨hparse thorny, ?_, hlist, hagain _ _ hlist⟩
  intro hsame
  have hstatuses := congrArg Reply.statuses (hinjective thorny {} hsame)
  exact absurd hstatuses (by decide)

end Reply

end AgentWire
