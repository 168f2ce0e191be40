import AgentWire.Proofs.CommandLine.Output
import AgentWire.Proofs.Reply.Reporting
import AgentWire.Proofs.Reply.RoundTrip

/-!
# Replying — the reply that a run prints

A run that replies reads three sources one after the other and stops at the first that is bad:

    results  →  file of the agent  →  time

If all of them can be had, nothing is left that could fail. What is printed is the wire form of the
reply with a line end behind it, so whoever parses it has the reply that was assembled, whatever
options say about output and notices.
-/

namespace AgentWire.CommandLine

-- ── What is printed ───────────────────────────────────────────────────────────────

/-- The reply that a report is made of: the one on these results at this time. -/
def replyOn (results : NameMap PluginResult) (time : Timestamp) (agent : Agent) : Reply :=
  Reply.assemble agent.version (RuntimeStatus.ofResults results) time agent

/-- **What is printed of a reply is parsed as the reply**, with its line end or without it. -/
theorem parse_replyReport (results : NameMap PluginResult) (time : Timestamp) (agent : Agent) :
    (∃ text, (replyReport results time agent).result = .ok text ∧
      Reply.parse text.toUTF8 = .ok (replyOn results time agent)) ∧
    ∀ json verbose, ((replyReport results time agent).exit json verbose).code = 0 ∧
      Reply.parse ((replyReport results time agent).exit json verbose).output.toUTF8 =
        .ok (replyOn results time agent) := by
  refine ⟨⟨_, rfl, Reply.parse_encode _⟩, ?_⟩
  intro json verbose
  have hreport : (replyReport results time agent).result =
      .ok (String.ofList (replyOn results time agent).toJson.render) := rfl
  obtain ⟨hcode, printed, houtput, htext⟩ :=
    exit_of_written (Json.written_render _) hreport json verbose
  exact ⟨hcode, houtput ▸ Reply.parse_of_writtenText htext⟩

-- ── The sources, one after the other ──────────────────────────────────────────────

variable {m : Type → Type} [Monad m] [LawfulMonad m] {host : Host m} {sources : ReplySources}

/-- A source that is bad ends the run. -/
theorem throw_bind {α β : Type} (fault : Fault) (f : α → ExceptT Fault m β) :
    ((throw fault : ExceptT Fault m α) >>= f) = throw fault := by
  show ExceptT.mk ((pure (Except.error fault) : m (Except Fault α)) >>= ExceptT.bindCont f) = _
  rw [pure_bind]
  rfl

/-- Results that cannot be read or are none end the run. -/
theorem reply_of_bad_results {fault : Fault}
    (h : readSource host (some sources.results) = throw fault ∨
      ∃ document, readSource host (some sources.results) = pure document ∧
        PluginResult.parseResults document = .error fault) :
    reply host sources = throw fault := by
  unfold reply
  rcases h with hread | ⟨document, hread, hresults⟩
  · rw [hread]
    exact throw_bind fault _
  · rw [hread, pure_bind, hresults]
    exact throw_bind fault _

variable {document : ByteArray} {results : NameMap PluginResult} {base : Agent}

/-- Once the results have been read, the agent and the time are still to come. -/
theorem reply_of_results (hread : readSource host (some sources.results) = pure document)
    (hresults : PluginResult.parseResults document = .ok results) :
    reply host sources = (do
      let base ← baseAgent host sources.agentFile
      let time ← replyTime host sources.time
      return replyReport results time (base.override sources.overrides)) := by
  unfold reply
  rw [hread, pure_bind, hresults]
  exact pure_bind results _

/-- Once the agent has been read too, only the time is still to come. -/
theorem reply_of_agent (hread : readSource host (some sources.results) = pure document)
    (hresults : PluginResult.parseResults document = .ok results)
    (hagent : baseAgent host sources.agentFile = pure base) :
    reply host sources = (do
      let time ← replyTime host sources.time
      return replyReport results time (base.override sources.overrides)) := by
  rw [reply_of_results hread hresults, hagent, pure_bind]

/-- **A REPLY LOSES AND INVENTS NO PLUGIN.** If every source can be had, the run succeeds, and what
    it prints is parsed as a reply on the results, at the time as it was given, of the agent with
    its fields replaced. Otherwise it fails for the first source that is bad: the results, then the
    agent, then the time. -/
theorem reply_reports_every_plugin (host : Host m) (sources : ReplySources) :
    (∀ document results base text time,
      readSource host (some sources.results) = pure document →
      PluginResult.parseResults document = .ok results →
      baseAgent host sources.agentFile = pure base →
      sources.time = some text → Timestamp.parse text = .ok time →
      ∃ report r, reply host sources = pure report ∧
        (∃ encoded, report.result = .ok encoded ∧ Reply.parse encoded.toUTF8 = .ok r) ∧
        (∀ json verbose, (report.exit json verbose).code = 0 ∧
          Reply.parse (report.exit json verbose).output.toUTF8 = .ok r) ∧
        r.IsOn results ∧ r.info.dateTime = text ∧
        Agent.Overridden sources.overrides base r.info.agent) ∧
    (∀ fault, (readSource host (some sources.results) = throw fault ∨
        ∃ document, readSource host (some sources.results) = pure document ∧
          PluginResult.parseResults document = .error fault) →
      reply host sources = throw fault) ∧
    (∀ document results fault,
      readSource host (some sources.results) = pure document →
      PluginResult.parseResults document = .ok results →
      baseAgent host sources.agentFile = throw fault → reply host sources = throw fault) ∧
    (∀ document results base text fault,
      readSource host (some sources.results) = pure document →
      PluginResult.parseResults document = .ok results →
      baseAgent host sources.agentFile = pure base →
      sources.time = some text → Timestamp.parse text = .error fault →
      reply host sources = throw fault) := by
  refine ⟨?_, fun fault => reply_of_bad_results, ?_, ?_⟩
  · intro document results base text time hread hresults hagent htext htime
    -- with every source at hand the run comes to its report
    have hreply : reply host sources =
        pure (replyReport results time (base.override sources.overrides)) := by
      rw [reply_of_agent hread hresults hagent, htext]
      show ((ExceptT.mk (pure (Timestamp.parse text)) : ExceptT Fault m Timestamp) >>= _) = _
      rw [htime]
      exact pure_bind time _
    obtain ⟨hencoded, hprinted⟩ :=
      parse_replyReport results time (base.override sources.overrides)
    exact ⟨_, _, hreply, hencoded, hprinted, Reply.isOn_assemble _ _ _ _,
      Timestamp.text_of_parse htime, Agent.overridden_override _ _⟩
  · intro document results fault hread hresults hagent
    rw [reply_of_results hread hresults, hagent]
    exact throw_bind fault _
  · -- only the time is left to be bad
    intro document results base text fault hread hresults hagent htext htime
    rw [reply_of_agent hread hresults hagent, htext]
    show ((ExceptT.mk (pure (Timestamp.parse text)) : ExceptT Fault m Timestamp) >>= _) = _
    rw [htime]
    exact throw_bind fault _

-- ── A desk ────────────────────────────────────────────────────────────────────────

/-- Results of two plugins as they come in a file: one as a list of its fields, one that leaves out
    most of them. -/
def deskResults : Json :=
  .object
    [("b", .array [.string "Failed", .number (.integer 1 (by decide)), .null, .string " "]),
      ("a", .object [("output", .string "done")])]

/-- A host with a file of results, which has a document in it, and one of an agent. -/
def desk (document : ByteArray) : Host Id where
  file path :=
    if path = "r" then .ok document
    else if path = "a" then .ok "[\"en\"]".toUTF8
    else .error "lost"
  input := .error "closed"
  now := .zero

/-- What the desk replies to, at a time, of an agent in a file. -/
def deskSources (agentFile time : String) : ReplySources where
  results := "r"
  agentFile := some agentFile
  overrides := { name := some "n" }
  time := some time

theorem readSource_desk (document : ByteArray) :
    readSource (desk document) (some "r") = pure document := by
  have hsplit : "r".splitOn "/" = ["r"] := by
    rw [String.splitOn, if_neg (by decide), String.splitOnAux, if_neg (by decide),
      if_neg (by decide), String.splitOnAux, if_pos (by decide)]
    rfl
  have hpath : isInputPath "r" = false := by
    unfold isInputPath
    rw [hsplit]
    rfl
  unfold readSource
  simp only [Option.filter, hpath]
  rfl

/-- The desk replies at a time that is one, and fails for each source in turn when those behind it
    are bad as well. -/
theorem reply_reports_every_plugin_desk :
    (∃ report r, reply (desk deskResults.compact.toUTF8)
        (deskSources "a" "2024-02-29T23:59:59.999Z") = pure report ∧
      Reply.parse (report.exit false false).output.toUTF8 = .ok r ∧
      r.IsOn (.ofList
        [("a", { outcome := .completed "done" }),
          ("b", { status := .failed, code := 1, outcome := .failed " " })]) ∧
      r.info.dateTime = "2024-02-29T23:59:59.999Z" ∧
      Agent.Overridden { name := some "n" } { lang := "en" } r.info.agent) ∧
    (∃ cause, reply (desk .empty) (deskSources "x" "soon") = throw (.malformed cause)) ∧
    reply (desk deskResults.compact.toUTF8) (deskSources "x" "soon") =
      throw (.io "failed to read agent file x" "lost") ∧
    reply (desk deskResults.compact.toUTF8) (deskSources "a" "soon") =
      throw (.invalidTimestamp "soon" .form) := by
  have hread := readSource_desk deskResults.compact.toUTF8
  have hresults : PluginResult.parseResults deskResults.compact.toUTF8 = .ok (.ofList
      [("a", { outcome := .completed "done" }),
        ("b", { status := .failed, code := 1, outcome := .failed " " })]) := by decide +kernel
  have hnone : PluginResult.parseResults .empty =
      .error (.malformed (.badResults (.text .endInValue))) := by decide +kernel
  have hcontents : Agent.parseFile "a" "[\"en\"]" = .ok { lang := "en" } := by decide +kernel
  have hagent : baseAgent (desk deskResults.compact.toUTF8) (some "a") = pure { lang := "en" } :=
    congrArg ExceptT.mk hcontents
  have htime : Timestamp.parse "2024-02-29T23:59:59.999Z" = .ok ⟨1709251199999, by decide⟩ := by
    decide +kernel
  have hsoon : Timestamp.parse "soon" = .error (.invalidTimestamp "soon" .form) := by decide +kernel
  refine ⟨?_, ?_, ?_, ?_⟩
  · obtain ⟨hgood, -⟩ := reply_reports_every_plugin (desk deskResults.compact.toUTF8)
      (deskSources "a" "2024-02-29T23:59:59.999Z")
    obtain ⟨report, r, hreply, -, hprinted, hon, hdate, hoverridden⟩ :=
      hgood _ _ _ _ _ hread hresults hagent rfl htime
    exact ⟨report, r, hreply, (hprinted false false).2, hon, hdate, hoverridden⟩
  · obtain ⟨-, hbad, -⟩ := reply_reports_every_plugin (desk .empty) (deskSources "x" "soon")
    exact ⟨_, hbad _ (.inr ⟨_, readSource_desk .empty, hnone⟩)⟩
  · obtain ⟨-, -, hbad, -⟩ := reply_reports_every_plugin (desk deskResults.compact.toUTF8)
      (deskSources "x" "soon")
    exact hbad _ _ _ hread hresults rfl
  · obtain ⟨-, -, -, hbad⟩ := reply_reports_every_plugin (desk deskResults.compact.toUTF8)
      (deskSources "a" "soon")
    exact hbad _ _ _ _ _ hread hresults hagent rfl hsoon

end AgentWire.CommandLine
