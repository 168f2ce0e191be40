import AgentWire.Proofs.Command.Reception
import AgentWire.Proofs.Parameters.Completion

/-!
# Resolution — what resolving a command may change

`Resolves sent resolved` says what a resolved command keeps of the one that was sent, and what it
gains: its parameters are the values sent and the declared defaults of names without values, its
content has the shape it had, and every reference that stands in the content selects a value.

The last is said of the content that comes out. So it holds of references that were there, of
those that an inserted value brought along, and of those that arose where a value meets the text
around it.
-/

namespace AgentWire.Command

/-- A command is what another one becomes when its references are resolved. -/
structure Resolves (sent resolved : Command) : Prop where
  id : resolved.id = sent.id
  documentName : resolved.documentName = sent.documentName
  outputBucket : resolved.outputBucket = sent.outputBucket
  outputKeys : resolved.outputKeys = sent.outputKeys
  /-- Every value that was sent is there. -/
  kept : ∀ name values, sent.parameters.get? name = some values →
    resolved.parameters.get? name = some values
  /-- Every other parameter has the default that the document declares for it. -/
  added : ∀ name values, resolved.parameters.get? name = some values →
    sent.parameters.get? name = none →
      ParameterSet.Declares sent.content.tree name values
  /-- Every declared default is there, unless a value was sent. -/
  completed : ∀ name values, ParameterSet.Declares sent.content.tree name values →
    sent.parameters.get? name = none → resolved.parameters.get? name = some values
  /-- The content differs in the text of its strings at most. -/
  shape : Json.SameShape sent.content.tree resolved.content.tree
  /-- Every reference in the content selects a value. -/
  selected : resolved.parameters.SelectsAll resolved.references

/-- **What resolving a command returns is what the command becomes.** -/
theorem resolves_of_resolve {sent resolved : Command} (h : sent.resolve = .ok resolved) :
    Resolves sent resolved := by
  obtain ⟨content, hcontent, rfl⟩ := resolve_eq_ok_iff.mp h
  obtain ⟨hshape, -, hselected⟩ :=
    ParameterSet.substitute_eq_ok (Document.substitute_eq_ok hcontent)
  have hcompleted := ParameterSet.get?_withDefaults sent.content.distinct sent.parameters
  exact
    { id := rfl
      documentName := rfl
      outputBucket := rfl
      outputKeys := rfl
      kept := by
        intro name values hsent
        exact (hcompleted name values).mpr (.inl hsent)
      added := by
        intro name values hthere hnone
        rcases (hcompleted name values).mp hthere with hsent | ⟨-, hdeclared⟩
        · exact nomatch hnone.symm.trans hsent
        · exact hdeclared
      completed := by
        intro name values hdeclared hnone
        exact (hcompleted name values).mpr (.inr ⟨hnone, hdeclared⟩)
      shape := hshape
      selected := hselected }

/-- A command that is not resolved is refused for a reference without a value. -/
theorem isUnresolved_of_resolve {c : Command} {fault : Fault} (h : c.resolve = .error fault) :
    fault.IsUnresolved := by
  obtain ⟨r, hfault, -⟩ :=
    ParameterSet.exists_of_substitute_error (resolve_eq_error_iff.mp h)
  exact ⟨r.name, r.token, hfault⟩

-- ── A greeting ────────────────────────────────────────────────────────────────────

/-- The line of a greeting: what to say, and to whom. -/
def greetingLine : String := "{{ say }} {{ who }}"

/-- The content of a greeting, which declares whom to greet. -/
def greetingContent : Document :=
  Document.ofJson <| .object
    [("parameters", .object [("who", .object [("default", .string "you")])]),
      ("line", .string greetingLine)]

/-- A command that asks for a parameter its content declares and for one that it does not. -/
def greeting (parameters : ParameterSet) : Command where
  id := "1"
  documentName := ""
  content := greetingContent
  parameters := parameters
  outputBucket := ""
  outputKeys := ""

theorem sendable_greeting (parameters : ParameterSet) : (greeting parameters).Sendable where
  id_not_blank := by
    show isBlankText "1" = false
    decide
  content_object := rfl
  content_depth := by
    show greetingContent.tree.depth + 1 ≤ Json.nestingLimit
    decide

/-- A greeting refers to both in its line. -/
theorem references_greeting (parameters : ParameterSet) :
    (greeting parameters).references =
      [⟨"say", none, "{{ say }}"⟩, ⟨"who", none, "{{ who }}"⟩] := by
  show Reference.inContent greetingContent.tree = _
  cbv

/-- A greeting without parameters is for whom its content declares. -/
theorem completedParameters_greeting_empty :
    (greeting .empty).completedParameters = .ofList [("who", ["you"])] := rfl

/-- A greeting with something to say is for whom its content declares, too. -/
theorem completedParameters_greeting_say (text : String) :
    (greeting (.ofList [("say", [text])])).completedParameters =
      .ofList [("say", [text]), ("who", ["you"])] := rfl

/-- The content of a greeting is filled in as its line is. -/
theorem substitute_greetingContent (p : ParameterSet) :
    p.substitute greetingContent.tree = (p.substituteText greetingLine).map fun line => .object
      [("parameters", .object [("who", .object [("default", .string "you")])]),
        ("line", .string line)] := by
  have hplain : p.substituteText "you" = .ok "you" := rfl
  show Json.mapLeavesM p.substituteText (.object
    [("parameters", .object [("who", .object [("default", .string "you")])]),
      ("line", .string greetingLine)]) = _
  simp only [Json.mapLeavesM, Json.mapMembersM, hplain]
  cases p.substituteText greetingLine with
  | error fault => rfl
  | ok line => rfl

/-- A greeting whose line can be filled in is resolved. -/
theorem exists_parse_greeting {parameters p : ParameterSet} {line : String}
    (hcompleted : (greeting parameters).completedParameters = p)
    (hline : p.substituteText greetingLine = .ok line) :
    ∃ resolved, parse (greeting parameters).encode.toUTF8 = .ok resolved := by
  rw [parse_of_decode (sendable_greeting parameters).decode_encode]
  cases hresolve : (greeting parameters).resolve with
  | ok resolved => exact ⟨resolved, rfl⟩
  | error fault =>
      have hfault := resolve_eq_error_iff.mp hresolve
      rw [show (greeting parameters).content = greetingContent from rfl, hcompleted,
        substitute_greetingContent, hline] at hfault
      exact nomatch hfault

/-- A greeting whose line cannot be filled in is refused. -/
theorem parse_greeting_eq_error {parameters p : ParameterSet} {fault : Fault}
    (hcompleted : (greeting parameters).completedParameters = p)
    (hline : p.substituteText greetingLine = .error fault) :
    parse (greeting parameters).encode.toUTF8 = .error fault := by
  rw [parse_of_decode (sendable_greeting parameters).decode_encode, resolve_eq_error_iff,
    show (greeting parameters).content = greetingContent from rfl, hcompleted,
    substitute_greetingContent, hline]
  rfl

-- ── The outcomes of resolving a message ───────────────────────────────────────────

/-- **A MESSAGE IS RESOLVED INTO WHAT ITS COMMAND BECOMES**, wherever events go; and if a command
    that was decoded is refused, then for a reference without a value. -/
theorem parse_resolves (raw : ByteArray) (log : Destination) :
    (∀ resolved, ((parseTraced raw).sendTo log).1 = .ok resolved →
      ∃ sent, ((decodeTraced raw).sendTo log).1 = .ok sent ∧ Resolves sent resolved) ∧
    (∀ sent fault, ((decodeTraced raw).sendTo log).1 = .ok sent →
      ((parseTraced raw).sendTo log).1 = .error fault → fault.IsUnresolved) := by
  rw [fst_sendTo_parseTraced, fst_sendTo_decodeTraced]
  constructor
  · intro resolved hparse
    obtain ⟨sent, hdecode, hresolve⟩ := exists_of_parse hparse
    exact ⟨sent, hdecode, resolves_of_resolve hresolve⟩
  · intro sent fault hdecode hparse
    rw [parse_of_decode hdecode] at hparse
    exact isUnresolved_of_resolve hparse

/-- A greeting with something to say is resolved, and one without is refused. -/
theorem parse_resolves_greeting :
    (∃ sent resolved,
      decode (greeting (.ofList [("say", ["Hi"])])).encode.toUTF8 = .ok sent ∧
      parse (greeting (.ofList [("say", ["Hi"])])).encode.toUTF8 = .ok resolved ∧
        Resolves sent resolved) ∧
    (∃ sent fault, decode (greeting .empty).encode.toUTF8 = .ok sent ∧
      parse (greeting .empty).encode.toUTF8 = .error fault ∧ fault.IsUnresolved) := by
  constructor
  · have hline : (ParameterSet.ofList [("say", ["Hi"]), ("who", ["you"])]).substituteText
        greetingLine = .ok "Hi you" := by cbv
    obtain ⟨resolved, hparse⟩ := exists_parse_greeting (completedParameters_greeting_say _) hline
    obtain ⟨sent, hdecode, hresolves⟩ := (parse_resolves _ .own).1 resolved
      ((fst_sendTo_parseTraced _ _).trans hparse)
    rw [fst_sendTo_decodeTraced] at hdecode
    exact ⟨sent, resolved, hdecode, hparse, hresolves⟩
  · have hline : (ParameterSet.ofList [("who", ["you"])]).substituteText greetingLine =
        .error (.unresolved "say" "{{ say }}") := by cbv
    have hdecode := (sendable_greeting .empty).decode_encode
    have hparse := parse_greeting_eq_error completedParameters_greeting_empty hline
    exact ⟨_, _, hdecode, hparse, (parse_resolves _ .nowhere).2 _ _
      ((fst_sendTo_decodeTraced _ _).trans hdecode) ((fst_sendTo_parseTraced _ _).trans hparse)⟩

end AgentWire.Command
