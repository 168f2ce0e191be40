import AgentWire.Proofs.NameMap
import AgentWire.Proofs.Timestamp.RoundTrip
import AgentWire.Reply.Assembly

/-!
# Reporting — what a reply says of the results it is made of

A reply is on some results (`Reply.IsOn`) when it has a runtime status for each plugin that has a
result and for no other, and each of these is the report of its result (`RuntimeStatus.Reports`):

    code, status, place of output    →  as in the result
    times                            →  texts that are read as the times of the result
    outcome                          →  the output, or a text that reports the failure

A reply that is assembled is on the results that it is assembled of. Its agent is the one it was
given, in which each field is replaced or not, apart from the others.
-/

namespace AgentWire

-- ── One result ────────────────────────────────────────────────────────────────────

/-- How an outcome is reported: output as it is, and a failure by what it says of itself, if it
    does say something. -/
inductive Outcome.ReportedAs (status : Status) : Outcome → String → Prop
  | completed (output : String) : ReportedAs status (.completed output) output
  | failed {error : String} :
      isBlankText error = false → ReportedAs status (.failed error) error
  | failedSilently {error : String} :
      isBlankText error = true → status = .unset →
        ReportedAs status (.failed error) "plugin failed"
  | failedWithStatus {error : String} :
      isBlankText error = true → status ≠ .unset →
        ReportedAs status (.failed error) ("plugin failed with status " ++ status.text)

/-- A runtime status is the report of a plugin's result. -/
structure RuntimeStatus.Reports (s : RuntimeStatus) (plugin : String) (result : PluginResult) :
    Prop where
  name : s.name = plugin
  status : s.status = result.status
  code : s.code = result.code
  outputBucket : s.outputBucket = result.outputBucket
  outputKeys : s.outputKeys = result.outputKeys
  startTime : Timestamp.parse s.startText = .ok result.startTime
  endTime : Timestamp.parse s.endText = .ok result.endTime
  output : result.outcome.ReportedAs result.status s.output

theorem RuntimeStatus.reportedAs_outcomeText (status : Status) (outcome : Outcome) :
    outcome.ReportedAs status (outcomeText status outcome) := by
  cases outcome with
  | completed output => exact .completed output
  | failed error =>
      show (Outcome.failed error).ReportedAs status (failureOutput status error)
      unfold failureOutput
      cases hblank : isBlankText error with
      | false => exact .failed hblank
      | true =>
          rw [if_pos rfl]
          cases status with
          | unset => exact .failedSilently hblank rfl
          | _ => exact .failedWithStatus hblank (by intro h; exact nomatch h)

/-- **The runtime status of a result is its report.** -/
theorem RuntimeStatus.reports_named (plugin : String) (result : PluginResult) :
    (named plugin result).Reports plugin result where
  name := rfl
  status := rfl
  code := rfl
  outputBucket := rfl
  outputKeys := rfl
  startTime := (Timestamp.parse_text result.startTime).2
  endTime := (Timestamp.parse_text result.endTime).2
  output := reportedAs_outcomeText result.status result.outcome

-- ── All results ───────────────────────────────────────────────────────────────────

/-- A reply is on the results of plugins: it has a report for each of them, and no other. -/
structure Reply.IsOn (r : Reply) (results : NameMap PluginResult) : Prop where
  plugins : r.statuses.names = results.names
  reported : ∀ plugin result, results.get? plugin = some result →
    ∃ s, r.statuses.get? plugin = some s ∧ s.Reports plugin result
  reports : ∀ plugin s, r.statuses.get? plugin = some s →
    ∃ result, results.get? plugin = some result ∧ s.Reports plugin result

/-- **A reply is on the results that it is assembled of.** -/
theorem Reply.isOn_assemble (version : String) (results : NameMap PluginResult) (time : Timestamp)
    (agent : Agent) :
    (assemble version (RuntimeStatus.ofResults results) time agent).IsOn results where
  plugins := NameMap.names_mapValues results RuntimeStatus.named
  reported := by
    intro plugin result hresult
    refine ⟨RuntimeStatus.named plugin result, ?_, RuntimeStatus.reports_named plugin result⟩
    exact (NameMap.get?_mapValues results RuntimeStatus.named plugin).trans
      (congrArg (Option.map _) hresult)
  reports := by
    intro plugin s hs
    obtain ⟨result, hresult, rfl⟩ := Option.map_eq_some_iff.mp
      ((NameMap.get?_mapValues results RuntimeStatus.named plugin).symm.trans hs)
    exact ⟨result, hresult, RuntimeStatus.reports_named plugin result⟩

-- ── The agent ─────────────────────────────────────────────────────────────────────

namespace Agent

/-- A text that is replaced if there is a new one. -/
inductive Replaces : Option String → String → String → Prop
  | kept (old : String) : Replaces none old old
  | replaced (new old : String) : Replaces (some new) old new

/-- An identity is what another one becomes when some of its fields are replaced. -/
structure Overridden (o : Overrides) (base agent : Agent) : Prop where
  lang : Replaces o.lang base.lang agent.lang
  name : Replaces o.name base.name agent.name
  version : Replaces o.version base.version agent.version
  os : Replaces o.os base.os agent.os
  osVersion : Replaces o.osVersion base.osVersion agent.osVersion

theorem replaces_getD (new : Option String) (old : String) : Replaces new old (new.getD old) := by
  cases new with
  | none => exact .kept old
  | some text => exact .replaced text old

/-- **Exactly the fields with a new value are replaced.** -/
theorem overridden_override (base : Agent) (o : Overrides) :
    Overridden o base (base.override o) where
  lang := replaces_getD o.lang base.lang
  name := replaces_getD o.name base.name
  version := replaces_getD o.version base.version
  os := replaces_getD o.os base.os
  osVersion := replaces_getD o.osVersion base.osVersion

end Agent

end AgentWire
