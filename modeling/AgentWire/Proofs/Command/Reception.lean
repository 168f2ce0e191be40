import AgentWire.Command.Resolution
import AgentWire.Proofs.Command.Encoding
import AgentWire.Proofs.Command.Fields
import AgentWire.Proofs.Json.Nesting
import AgentWire.Proofs.Json.Shape
import AgentWire.Proofs.Substitution.Outcome

/-!
# Reception — what a message that is accepted makes

A message is decoded in three steps: its text is a value, the members of the value make an
envelope, and the envelope makes a command. The content is a member of a value within the limit,
so it leaves a level to spare, and it is an object named by an id that is not blank.

Resolving a command replaces its parameters and the strings of its content and nothing else. So
every command that is received, resolved or not, can be sent.
-/

namespace AgentWire

namespace Command

-- ── What is decoded can be sent ───────────────────────────────────────────────────

/-- A value is a command if it is an object whose members make the envelope of one. -/
theorem ofDocument_eq_ok_iff {message : Document} {c : Command} :
    ofDocument message = .ok c ↔
      ∃ members e, message.tree = .object members ∧ Envelope.ofMembers members = .ok e ∧
        e.command = .ok c := by
  unfold ofDocument
  cases message.tree with
  | object members =>
      dsimp only
      cases hmembers : Envelope.ofMembers members with
      | error fault => simp [hmembers]
      | ok e => simp [hmembers]
  | _ => simp

/-- A message is decoded if it is a value that is a command. -/
theorem decode_eq_ok_iff {raw : ByteArray} {c : Command} :
    decode raw = .ok c ↔
      ∃ message, Json.parse (Symbol.ofBytes raw) = .ok message ∧ ofDocument message = .ok c := by
  unfold decode
  cases Json.parse (Symbol.ofBytes raw) with
  | error fault => simp
  | ok message =>
      dsimp only
      cases hdocument : ofDocument message with
      | error cause => simp [Except.mapError, hdocument]
      | ok found => simp [Except.mapError, hdocument]

/-- **A COMMAND THAT IS DECODED CAN BE SENT.** -/
theorem sendable_of_decode {raw : ByteArray} {c : Command} (h : decode raw = .ok c) :
    c.Sendable := by
  obtain ⟨message, hparse, hdocument⟩ := decode_eq_ok_iff.mp h
  obtain ⟨members, e, htree, hmembers, hcommand⟩ := ofDocument_eq_ok_iff.mp hdocument
  obtain ⟨hblank, hkind, parameters, -, rfl⟩ := Envelope.command_eq_ok_iff.mp hcommand
  have hnodup : (Json.names members).Nodup := by
    have hdistinct := message.distinct
    rw [htree] at hdistinct
    exact hdistinct.1
  obtain ⟨content, hfound, hcontent⟩ :=
    ((Envelope.ofMembers_eq_ok_iff (Envelope.namesOnce_of_nodup hnodup)).mp hmembers).content
  refine ⟨hblank, hkind, ?_⟩
  -- the content is nested less deeply than the message that it stands in
  have hlimit := Json.depth_le_of_parse hparse
  rw [htree] at hlimit
  have hmember : content.depth ≤ Json.depth.depthMembers members :=
    Json.depthMembers_le_iff.mp (Nat.le_refl _) _ (Json.mem_of_lastValue? hfound)
  show e.content.tree.depth + 1 ≤ Json.nestingLimit
  rw [hcontent]
  calc (Document.ofJson content).tree.depth + 1
      ≤ content.depth + 1 := Nat.succ_le_succ (Json.depth_merged_le content)
    _ ≤ Json.depth.depthMembers members + 1 := Nat.succ_le_succ hmember
    _ ≤ Json.nestingLimit := hlimit

/-- A message that is not decoded is malformed. -/
theorem exists_malformed_of_decode {raw : ByteArray} {fault : Fault}
    (h : decode raw = .error fault) : ∃ cause, fault = .malformed cause := by
  unfold decode at h
  split at h
  · rename_i cause _
    exact ⟨.notJson cause, (Except.error.inj h).symm⟩
  · rename_i message _
    cases hdocument : ofDocument message with
    | error cause =>
        rw [hdocument] at h
        exact ⟨cause, (Except.error.inj h).symm⟩
    | ok c =>
        rw [hdocument] at h
        exact nomatch h

-- ── Resolving ─────────────────────────────────────────────────────────────────────

/-- A command that is resolved has its completed parameters and a content in which they have been
    filled in; the rest of it stays. -/
theorem resolve_eq_ok_iff {c resolved : Command} :
    c.resolve = .ok resolved ↔
      ∃ content, c.content.substitute c.completedParameters = .ok content ∧
        resolved = { c with content := content, parameters := c.completedParameters } := by
  unfold resolve
  cases c.content.substitute c.completedParameters with
  | error fault =>
      constructor
      · intro h
        exact nomatch h
      · rintro ⟨content, h, -⟩
        exact nomatch h
  | ok content =>
      constructor
      · intro h
        exact ⟨content, rfl, (Except.ok.inj h).symm⟩
      · rintro ⟨other, h, rfl⟩
        cases h
        rfl

/-- A command is refused for the fault of its content. -/
theorem resolve_eq_error_iff {c : Command} {fault : Fault} :
    c.resolve = .error fault ↔ c.completedParameters.substitute c.content.tree = .error fault := by
  rw [← Document.substitute_eq_error_iff]
  unfold resolve
  cases c.content.substitute c.completedParameters with
  | error other =>
      constructor
      · intro h
        exact congrArg Except.error (Except.error.inj h)
      · intro h
        exact congrArg Except.error (Except.error.inj h)
  | ok content =>
      constructor
      · intro h
        exact nomatch h
      · intro h
        exact nomatch h

/-- A message is decoded first, and its command is resolved then. -/
theorem parse_eq (raw : ByteArray) :
    parse raw = match decode raw with
      | .ok c => c.resolve
      | .error fault => .error fault := by
  unfold parse parseTraced
  cases decode raw with
  | error fault => rfl
  | ok c =>
      dsimp only
      cases c.resolve with
      | error fault => rfl
      | ok resolved => rfl

theorem parse_of_decode {raw : ByteArray} {c : Command} (h : decode raw = .ok c) :
    parse raw = c.resolve := by
  rw [parse_eq, h]

theorem parse_of_decode_error {raw : ByteArray} {fault : Fault} (h : decode raw = .error fault) :
    parse raw = .error fault := by
  rw [parse_eq, h]

/-- A command that is received and resolved was decoded before. -/
theorem exists_of_parse {raw : ByteArray} {resolved : Command} (h : parse raw = .ok resolved) :
    ∃ sent, decode raw = .ok sent ∧ sent.resolve = .ok resolved := by
  cases hdecode : decode raw with
  | error fault =>
      rw [parse_of_decode_error hdecode] at h
      exact nomatch h
  | ok sent =>
      rw [parse_of_decode hdecode] at h
      exact ⟨sent, rfl, h⟩

/-- What a message is decoded to does not depend on where events go. -/
theorem fst_sendTo_decodeTraced (raw : ByteArray) (log : Destination) :
    ((decodeTraced raw).sendTo log).1 = decode raw := by
  show (decodeTraced raw).result = decode raw
  unfold decodeTraced
  cases decode raw with
  | error fault => rfl
  | ok c => rfl

/-- What a message is resolved to does not depend on where events go. -/
theorem fst_sendTo_parseTraced (raw : ByteArray) (log : Destination) :
    ((parseTraced raw).sendTo log).1 = parse raw := rfl

-- ── What is resolved can be sent ──────────────────────────────────────────────────

/-- A content of the same shape is of the same kind. -/
theorem kind_eq_of_sameShape : ∀ {a b : Json}, Json.SameShape a b → a.kind = b.kind := by
  intro a b h
  cases a <;> cases b <;> first | rfl | exact False.elim h

/-- **A COMMAND THAT IS RESOLVED CAN BE SENT** if it could be before. -/
theorem Sendable.of_resolve {c resolved : Command} (hc : c.Sendable)
    (h : c.resolve = .ok resolved) : resolved.Sendable := by
  obtain ⟨content, hcontent, rfl⟩ := resolve_eq_ok_iff.mp h
  have hshape := (ParameterSet.substitute_eq_ok (Document.substitute_eq_ok hcontent)).1
  refine ⟨hc.id_not_blank, ?_, ?_⟩
  · rw [← kind_eq_of_sameShape hshape]
    exact hc.content_object
  · rw [← Json.SameShape.depth_eq _ hshape]
    exact hc.content_depth

theorem sendable_of_parse {raw : ByteArray} {c : Command} (h : parse raw = .ok c) :
    c.Sendable := by
  obtain ⟨sent, hdecode, hresolve⟩ := exists_of_parse h
  exact (sendable_of_decode hdecode).of_resolve hresolve

end Command

end AgentWire
