import AgentWire.Proofs.Reply.RoundTrip
import AgentWire.Proofs.Timestamp.RoundTrip
import AgentWire.Reply.Assembly

/-!
# Regeneration — stored replies are made again of what they carry

A reply carries its agent, its time and its runtime statuses. Its document status and its counts can
be derived of these, but a reply that somebody else wrote may hold any. Regenerating a reply
assembles it again of what it carries.

1. A reply of derived fields is regenerated as itself (`regenerate_of_isDerived`).
2. Whatever is regenerated carries what it was made of, with derived fields.

So regenerating twice is regenerating once, and the replies that stay as they are, are those whose
derived fields agree with their statuses. An assembled reply is one of them, also after it has been
written and read:

    assemble  →  encode  →  parse  →  regenerate  =  assemble
-/

namespace AgentWire.Reply

/-- The fields of a reply that can be derived of its runtime statuses are. -/
structure IsDerived (r : Reply) : Prop where
  documentStatus : r.documentStatus = aggregate r.statuses
  counts : r.info.counts = countStatuses r.statuses

/-- Assembles a reply again of its statuses, its time, which must be a timestamp, and its agent. -/
def regenerate (version : String) (r : Reply) : Except Fault Reply :=
  (Timestamp.parse r.info.dateTime).map fun time => assemble version r.statuses time r.info.agent

variable {version : String} {r again : Reply} {time : Timestamp}

section Assembled

variable (version : String) (statuses : NameMap RuntimeStatus) (time : Timestamp) (agent : Agent)

@[simp] theorem statuses_assemble :
    (assemble version statuses time agent).statuses = statuses := rfl

@[simp] theorem agent_assemble : (assemble version statuses time agent).info.agent = agent := rfl

@[simp] theorem dateTime_assemble :
    (assemble version statuses time agent).info.dateTime = time.text := rfl

theorem isDerived_assemble : (assemble version statuses time agent).IsDerived :=
  ⟨rfl, rfl⟩

end Assembled

/-- A reply whose time is a timestamp is regenerated. -/
theorem regenerate_of_parse (h : Timestamp.parse r.info.dateTime = .ok time) :
    r.regenerate version = .ok (assemble version r.statuses time r.info.agent) := by
  rw [regenerate, h]
  rfl

/-- **A reply of derived fields is regenerated as itself.** -/
theorem regenerate_of_isDerived (htime : Timestamp.parse r.info.dateTime = .ok time)
    (h : r.IsDerived) : r.regenerate version = .ok r := by
  rw [regenerate_of_parse htime, assemble, Timestamp.text_of_parse htime, ← h.documentStatus,
    ← h.counts]

/-- What is regenerated of a reply. -/
structure Regenerates (r again : Reply) : Prop where
  statuses : again.statuses = r.statuses
  agent : again.info.agent = r.info.agent
  dateTime : again.info.dateTime = r.info.dateTime
  derived : again.IsDerived

/-- **What is regenerated carries what the reply carried**, with derived fields. -/
theorem regenerates_of_regenerate (h : r.regenerate version = .ok again) :
    Regenerates r again := by
  obtain ⟨time, htime, rfl⟩ := exists_of_map_eq_ok h
  exact
    { statuses := statuses_assemble version r.statuses time r.info.agent
      agent := agent_assemble version r.statuses time r.info.agent
      dateTime := by rw [dateTime_assemble, Timestamp.text_of_parse htime]
      derived := isDerived_assemble version r.statuses time r.info.agent }

/-- **A reply of derived fields is what it carries.** -/
theorem IsDerived.eq_of_carries (h : r.IsDerived) (h' : again.IsDerived)
    (hstatuses : again.statuses = r.statuses) (hagent : again.info.agent = r.info.agent)
    (hdateTime : again.info.dateTime = r.info.dateTime) : again = r := by
  have hcounts : again.info.counts = r.info.counts := by
    rw [h.counts, h'.counts, hstatuses]
  have hdocument : again.documentStatus = r.documentStatus := by
    rw [h.documentStatus, h'.documentStatus, hstatuses]
  clear h h'
  obtain ⟨⟨agent, dateTime, counts⟩, documentStatus, statuses⟩ := r
  obtain ⟨⟨agent', dateTime', counts'⟩, documentStatus', statuses'⟩ := again
  dsimp only at *
  rw [hstatuses, hagent, hdateTime, hcounts, hdocument]

/-- A reply is what is regenerated of it exactly if its fields are derived. -/
theorem Regenerates.eq_iff (h : Regenerates r again) : again = r ↔ r.IsDerived := by
  constructor
  · rintro rfl
    exact h.derived
  · intro hr
    exact hr.eq_of_carries h.derived h.statuses h.agent h.dateTime

/-- **STORED REPLIES REGENERATE EXACTLY.** A reply that is assembled, written and read is
    regenerated as it was. Any reply that is read, with a timestamp for its time, is regenerated with
    its statuses, its agent and its time, and so again; and it is the same reply exactly if its
    document status and its counts are those of its statuses. -/
theorem stored_replies_regenerate :
    (∀ (version version' : String) (statuses : NameMap RuntimeStatus) (time : Timestamp)
      (agent : Agent), ∃ received again,
        parse (assemble version statuses time agent).encode.toUTF8 = .ok received ∧
        Timestamp.parse received.info.dateTime = .ok time ∧
        received.regenerate version' = .ok again ∧
        again = assemble version statuses time agent ∧
        again.encode.toUTF8 = (assemble version statuses time agent).encode.toUTF8) ∧
    (∀ (raw : ByteArray) (r : Reply) (time : Timestamp) (version : String), parse raw = .ok r →
      Timestamp.parse r.info.dateTime = .ok time → ∃ again, r.regenerate version = .ok again ∧
        again = assemble version r.statuses time r.info.agent ∧
        again.statuses = r.statuses ∧ again.info.agent = r.info.agent ∧
        again.info.dateTime = r.info.dateTime ∧
        (∀ version', again.regenerate version' = .ok again) ∧
        (again = r ↔ r.documentStatus = aggregate r.statuses ∧
          r.info.counts = countStatuses r.statuses)) := by
  refine ⟨?_, ?_⟩
  · intro version version' statuses time agent
    have hderived := isDerived_assemble version statuses time agent
    have htime : Timestamp.parse (assemble version statuses time agent).info.dateTime =
        .ok time := by
      rw [dateTime_assemble, (Timestamp.parse_text time).2]
    -- from here on the reply matters only as one with its time and its derived fields
    generalize assemble version statuses time agent = r at *
    exact ⟨r, r, parse_encode r, htime, regenerate_of_isDerived htime hderived, rfl, rfl⟩
  · intro raw r time version _ htime
    have hregenerate : r.regenerate version = _ := regenerate_of_parse htime
    have hcarries := regenerates_of_regenerate hregenerate
    refine ⟨_, hregenerate, rfl, hcarries.statuses, hcarries.agent, hcarries.dateTime, ?_, ?_⟩
    · intro version'
      rw [← hcarries.dateTime] at htime
      exact regenerate_of_isDerived htime hcarries.derived
    · rw [hcarries.eq_iff]
      exact ⟨fun h => ⟨h.documentStatus, h.counts⟩, fun h => ⟨h.1, h.2⟩⟩

/-- A reply by somebody who counts in another way. -/
def foreign : Reply where
  info := { dateTime := Timestamp.zero.text, counts := .ofList [("ok", 2)] }
  documentStatus := .pending
  statuses := .ofList [("a", { status := .success }), ("b", { status := .failed })]

/-- Such a reply is regenerated as another one, and that one as itself; an assembled reply is
    regenerated as itself. -/
theorem stored_replies_regenerate_foreign :
    (∃ again, foreign.regenerate "1.0" = .ok again ∧ again ≠ foreign ∧
      again.documentStatus = .failed ∧ again.regenerate "2.0" = .ok again) ∧
    (∃ received, parse (assemble "1.0" .empty .zero {}).encode.toUTF8 = .ok received ∧
      received.regenerate "2.0" = .ok (assemble "1.0" .empty .zero {})) := by
  obtain ⟨hassembled, hread⟩ := stored_replies_regenerate
  constructor
  · have htime : Timestamp.parse foreign.info.dateTime = .ok .zero :=
      (Timestamp.parse_text .zero).2
    obtain ⟨again, hregenerate, hagain, -, -, -, hstable, hsame⟩ :=
      hread _ foreign .zero "1.0" (parse_encode foreign) htime
    refine ⟨again, hregenerate, ?_, ?_, hstable "2.0"⟩
    · intro heq
      exact absurd (hsame.mp heq).1 (by decide)
    · rw [hagain]
      rfl
  · obtain ⟨received, again, hparse, -, hregenerate, rfl, -⟩ :=
      hassembled "1.0" "2.0" .empty .zero {}
    exact ⟨received, hparse, hregenerate⟩

end AgentWire.Reply
