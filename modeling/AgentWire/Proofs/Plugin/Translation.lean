import AgentWire.Proofs.Json.Reading
import AgentWire.Proofs.Reply.Reporting

/-!
# Translation — from results to runtime statuses, and back

A failure is reported with a text that says something, and output is reported as it is. A runtime
status says less than the result that it reports, since it does not tell a failure from output, but
nothing of it is lost when it is turned back into a result: the result has the status, the code, the
times and the texts, with the output of a run that did not fail.

    s.result = .ok r                   →  named s.name r = s
    every record has its plugin's name
      and texts of times               →  ofResults (resultsOf statuses) = statuses

Every map that comes of a translation has such records, so it is the translation of what it is
turned back into.
-/

namespace AgentWire.RuntimeStatus

-- ── What is reported ──────────────────────────────────────────────────────────────

/-- A failure is reported with a text that says something. -/
theorem isBlankText_failureOutput (status : Status) (error : String) :
    isBlankText (failureOutput status error) = false := by
  unfold failureOutput
  split
  · cases status <;> decide
  · rename_i hblank
    exact Bool.eq_false_iff.mpr hblank

/-- A failure is reported with what it says of itself, if it says something. -/
theorem failureOutput_of_not_blank {error : String} (h : isBlankText error = false)
    (status : Status) : failureOutput status error = error := by
  unfold failureOutput
  rw [h]
  rfl

-- ── Back to results ───────────────────────────────────────────────────────────────

/-- The completed result that a runtime status reports, if its times are timestamps. -/
def result (s : RuntimeStatus) : Except Fault PluginResult := do
  let startTime ← Timestamp.parse s.startText
  let endTime ← Timestamp.parse s.endText
  return {
    status := s.status
    code := s.code
    outcome := .completed s.output
    startTime := startTime
    endTime := endTime
    outputBucket := s.outputBucket
    outputKeys := s.outputKeys }

/-- The result that a runtime status reports, under the same name. -/
def turnBack (entry : String × RuntimeStatus) : Except Fault (String × PluginResult) :=
  entry.2.result.map fun r => (entry.1, r)

/-- The results that runtime statuses report, each under its name. -/
def resultsOf (statuses : NameMap RuntimeStatus) : Except Fault (NameMap PluginResult) :=
  (statuses.entries.mapM turnBack).map NameMap.ofList

/-- A runtime status stands under its name, and its times are timestamps. -/
structure IsNamed (s : RuntimeStatus) (plugin : String) : Prop where
  name : s.name = plugin
  startTime : ∃ t, Timestamp.parse s.startText = .ok t
  endTime : ∃ t, Timestamp.parse s.endText = .ok t

/-- **A record that is turned back is reported as it was.** -/
theorem IsNamed.exists_result {s : RuntimeStatus} {plugin : String} (h : s.IsNamed plugin) :
    ∃ r, s.result = .ok r ∧ named plugin r = s := by
  obtain ⟨startTime, hstart⟩ := h.startTime
  obtain ⟨endTime, hend⟩ := h.endTime
  refine ⟨_, by rw [result, hstart, hend]; rfl, ?_⟩
  unfold named ofResult
  rw [Timestamp.text_of_parse hstart, Timestamp.text_of_parse hend, ← h.name]
  rfl

/-- Each report has its plugin's name and texts of times. -/
theorem isNamed_of_ofResults {results : NameMap PluginResult} {plugin : String} {s : RuntimeStatus}
    (h : (ofResults results).get? plugin = some s) : s.IsNamed plugin := by
  obtain ⟨r, -, rfl⟩ := Option.map_eq_some_iff.mp
    ((NameMap.get?_mapValues results named plugin).symm.trans h)
  have hreports := reports_named plugin r
  exact ⟨hreports.name, ⟨_, hreports.startTime⟩, ⟨_, hreports.endTime⟩⟩

/-- **RECORDS THAT ARE TURNED BACK ARE TRANSLATED AS THEY WERE.** -/
theorem exists_resultsOf {statuses : NameMap RuntimeStatus}
    (h : ∀ plugin s, statuses.get? plugin = some s → s.IsNamed plugin) :
    ∃ results, resultsOf statuses = .ok results ∧ ofResults results = statuses := by
  have hback : ∀ entry ∈ statuses.entries, ∃ back, turnBack entry = .ok back ∧
      (back.1, named back.1 back.2) = entry := by
    rintro ⟨plugin, s⟩ hmem
    obtain ⟨r, hr, hnamed⟩ := (h plugin s (NameMap.get?_eq_some_iff.mpr hmem)).exists_result
    refine ⟨(plugin, r), ?_, ?_⟩
    · rw [turnBack, hr]
      rfl
    · rw [hnamed]
  obtain ⟨entries, hentries, hstatuses⟩ := exists_mapM_of_inverse hback
  -- the results have the names of the records, so they stand in the same order
  have hascending : Ascending entries := by
    have hmapped := statuses.ascending
    rwa [← hstatuses, Ascending, List.pairwise_map] at hmapped
  have hresults : (NameMap.ofList entries).entries = entries :=
    NameMap.entries_foldl_insert entries .empty hascending
  refine ⟨NameMap.ofList entries, ?_, NameMap.ext_entries ?_⟩
  · rw [resultsOf, hentries]
    rfl
  · show (NameMap.ofList entries).entries.map _ = statuses.entries
    rw [hresults]
    exact hstatuses

/-- **TRANSLATION IS FAITHFUL AND REPRODUCIBLE.** There is a record for each result and no other. A
    failure is reported with a text that says something, which is its own if that does, and output
    is reported as it is. Records that have their plugins' names and texts of times, as all records
    of results do, are turned back into results that are translated to the same records. -/
theorem translation_is_reproducible :
    (∀ results : NameMap PluginResult, (ofResults results).names = results.names ∧
      ∀ plugin result, results.get? plugin = some result →
        ∃ s, (ofResults results).get? plugin = some s ∧
          (∀ error, result.outcome = .failed error →
            (∃ c ∈ s.output.toList, isBlank c = false) ∧
            ((∃ c ∈ error.toList, isBlank c = false) → s.output = error)) ∧
          (∀ output, result.outcome = .completed output → s.output = output)) ∧
    (∀ statuses : NameMap RuntimeStatus,
      (∀ plugin s, statuses.get? plugin = some s → s.IsNamed plugin) →
      ∃ results, resultsOf statuses = .ok results ∧ ofResults results = statuses) ∧
    (∀ results : NameMap PluginResult,
      (∀ plugin s, (ofResults results).get? plugin = some s → s.IsNamed plugin) ∧
      ∃ results', resultsOf (ofResults results) = .ok results' ∧
        ofResults results' = ofResults results) := by
  refine ⟨?_, fun statuses => exists_resultsOf, ?_⟩
  · intro results
    refine ⟨NameMap.names_mapValues results named, ?_⟩
    intro plugin result hresult
    refine ⟨named plugin result, ?_, ?_, ?_⟩
    · exact (NameMap.get?_mapValues results named plugin).trans (congrArg (Option.map _) hresult)
    · intro error herror
      have houtput : (named plugin result).output = failureOutput result.status error :=
        congrArg (outcomeText result.status) herror
      rw [houtput]
      refine ⟨isBlankText_eq_false_iff.mp (isBlankText_failureOutput _ _), ?_⟩
      intro hsays
      exact failureOutput_of_not_blank (isBlankText_eq_false_iff.mpr hsays) result.status
    · intro output houtput
      exact congrArg (outcomeText result.status) houtput
  · intro results
    have hnamed : ∀ plugin s, (ofResults results).get? plugin = some s → s.IsNamed plugin :=
      fun plugin s => isNamed_of_ofResults
    exact ⟨hnamed, exists_resultsOf hnamed⟩

/-- Results with no output, with an error of blanks alone and with an error that says something. -/
def mixed : NameMap PluginResult :=
  .ofList [("a", .succeeded ""), ("b", { status := .timedOut, outcome := .failed " \t\u00a0" }),
    ("c", .failed "boom\n")]

/-- A runtime status that is no translation of a failure: one that failed with a blank output. -/
def blankFailure : RuntimeStatus where
  status := .failed
  name := "p"
  output := " "
  startText := Timestamp.zero.text
  endText := (⟨1709251199999, by decide⟩ : Timestamp).text

/-- All parts apply: each of three results is reported as it should be, and a runtime status is
    turned back, and translated to itself. -/
theorem translation_is_reproducible_mixed :
    (∃ s, (ofResults mixed).get? "a" = some s ∧ s.output = "") ∧
    (∃ s, (ofResults mixed).get? "b" = some s ∧ ∃ c ∈ s.output.toList, isBlank c = false) ∧
    (∃ s, (ofResults mixed).get? "c" = some s ∧ s.output = "boom\n") ∧
    ∃ results, resultsOf (.ofList [("p", blankFailure)]) = .ok results ∧
      ofResults results = .ofList [("p", blankFailure)] := by
  obtain ⟨hreported, hback, -⟩ := translation_is_reproducible
  obtain ⟨-, hreports⟩ := hreported mixed
  obtain ⟨a, ha, -, houtput⟩ := hreports "a" (.succeeded "") (by decide)
  obtain ⟨b, hb, hblank, -⟩ := hreports "b" _ (by rfl)
  obtain ⟨c, hc, hboom, -⟩ := hreports "c" (.failed "boom\n") (by decide)
  refine ⟨⟨a, ha, houtput "" rfl⟩, ⟨b, hb, (hblank _ rfl).1⟩, ⟨c, hc, ?_⟩, hback _ ?_⟩
  · exact (hboom "boom\n" rfl).2 ⟨'b', by decide, by decide⟩
  · intro plugin s hs
    have hmem : (plugin, s) ∈ [("p", blankFailure)] := NameMap.get?_eq_some_iff.mp hs
    cases List.mem_singleton.mp hmem
    exact ⟨rfl, ⟨_, (Timestamp.parse_text _).2⟩, ⟨_, (Timestamp.parse_text _).2⟩⟩

end AgentWire.RuntimeStatus
