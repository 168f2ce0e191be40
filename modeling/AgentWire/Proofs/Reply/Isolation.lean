import AgentWire.Proofs.NameMap
import AgentWire.Proofs.Reply.Counting
import Mathlib.Tactic.Ring

/-!
# Isolation — a plugin's result is its own affair

Two runs in which one plugin came to different results (`DifferOnlyAt`) are reported alike but for
that plugin. Every result is reported by itself, so the reports of the others are the same. The
counts go by the statuses alone, and in the order of the plugins these are the same list but for one
place, so one status gives up one and another gains one:

    before ++ old :: after    →    before ++ new :: after
-/

namespace AgentWire

-- ── One result replaced ───────────────────────────────────────────────────────────

/-- Results of the same plugins, of which one has an old result and a new one, and every other the
    same. -/
structure DifferOnlyAt (plugin : String) (old new : PluginResult)
    (results results' : NameMap PluginResult) : Prop where
  old : results.get? plugin = some old
  new : results'.get? plugin = some new
  others : ∀ other, other ≠ plugin → results'.get? other = results.get? other

variable {plugin : String} {old new : PluginResult} {results results' : NameMap PluginResult}

/-- The new results are the old ones with one of them replaced. -/
theorem DifferOnlyAt.eq_insert (h : DifferOnlyAt plugin old new results results') :
    results' = results.insert plugin new := by
  refine NameMap.ext_get? ?_
  intro name
  rw [NameMap.get?_insert]
  by_cases hname : name = plugin
  · rw [if_pos hname, hname, h.new]
  · rw [if_neg hname, h.others name hname]

/-- **In the order of the plugins the results differ in one place.** -/
theorem DifferOnlyAt.exists_entries (h : DifferOnlyAt plugin old new results results') :
    ∃ before after, results.entries = before ++ (plugin, old) :: after ∧
      results'.entries = before ++ (plugin, new) :: after := by
  obtain ⟨before, after, hentries, hinsert⟩ := NameMap.exists_entries_insert h.old
  refine ⟨before, after, hentries, ?_⟩
  rw [h.eq_insert, hinsert]

/-- The plugins are the same. -/
theorem DifferOnlyAt.names_eq (h : DifferOnlyAt plugin old new results results') :
    results'.names = results.names := by
  obtain ⟨before, after, hentries, hentries'⟩ := h.exists_entries
  show results'.entries.map (·.1) = results.entries.map (·.1)
  rw [hentries, hentries', List.map_append, List.map_append]
  rfl

/-- As many plugins came to a result. -/
theorem DifferOnlyAt.size_eq (h : DifferOnlyAt plugin old new results results') :
    results'.size = results.size := by
  obtain ⟨before, after, hentries, hentries'⟩ := h.exists_entries
  show results'.entries.length = results.entries.length
  rw [hentries, hentries', List.length_append, List.length_append]
  rfl

/-- **One plugin has moved from its old status to its new one.** -/
theorem DifferOnlyAt.count_texts (h : DifferOnlyAt plugin old new results results')
    (text : String) :
    ((results'.values.map fun r => r.status.text).count text : Int) =
      (results.values.map fun r => r.status.text).count text
        - (if old.status.text = text then 1 else 0)
        + (if new.status.text = text then 1 else 0) := by
  obtain ⟨before, after, hentries, hentries'⟩ := h.exists_entries
  -- the texts are those before the plugin, its own, and those behind it
  have hcount : ∀ {m : NameMap PluginResult} {result : PluginResult},
      m.entries = before ++ (plugin, result) :: after →
        (m.values.map fun r => r.status.text).count text =
          (before.map fun entry => entry.2.status.text).count text +
            ((after.map fun entry => entry.2.status.text).count text +
              if result.status.text = text then 1 else 0) := by
    intro m result hm
    show ((m.entries.map (·.2)).map fun r => r.status.text).count text = _
    rw [hm, List.map_map, List.map_append, List.map_cons, List.count_append, List.count_cons]
    simp only [beq_iff_eq]
    rfl
  rw [hcount hentries, hcount hentries']
  push_cast
  ring

-- ── What is reported ──────────────────────────────────────────────────────────────

namespace RuntimeStatus

/-- A plugin is reported with the status of its result. -/
theorem statusTexts_ofResults (results : NameMap PluginResult) :
    statusTexts (ofResults results) =
      results.values.map fun r => r.status.text := by
  show ((results.entries.map _).map _).map _ = (results.entries.map _).map _
  rw [List.map_map, List.map_map, List.map_map]
  rfl

/-- The reports of the other plugins are the same. -/
theorem get?_ofResults_eq (h : DifferOnlyAt plugin old new results results') {other : String}
    (hother : other ≠ plugin) :
    (ofResults results').get? other = (ofResults results).get? other := by
  rw [ofResults, ofResults, NameMap.get?_mapValues, NameMap.get?_mapValues, h.others other hother]

end RuntimeStatus

namespace Reply

/-- A reply on fewer results than an entry can hold states the number of results at each status. -/
theorem countAt_assemble_ofResults (version : String) (time : Timestamp) (agent : Agent)
    (hsize : results.size < 2 ^ 32) (text : String) :
    (assemble version (RuntimeStatus.ofResults results) time agent).countAt text =
      (results.values.map fun r => r.status.text).count text := by
  have hsame : (RuntimeStatus.ofResults results).size = results.size := List.length_map _
  rw [← RuntimeStatus.statusTexts_ofResults, ← statedFor_of_size_lt (hsame.trans_lt hsize)]
  rfl

/-- **ONE PLUGIN CANNOT CORRUPT THE REPLY FOR THE OTHERS**: another result of it leaves the sender,
    the time and the reports of all others as they are, and moves one plugin from its old status to
    its new one in the counts. -/
theorem assemble_isolates_plugins (h : DifferOnlyAt plugin old new results results')
    {version version' : String} {time : Timestamp} {agent : Agent} {r r' : Reply}
    (hr : r = assemble version (RuntimeStatus.ofResults results) time agent)
    (hr' : r' = assemble version' (RuntimeStatus.ofResults results') time agent) :
    r'.info.agent = r.info.agent ∧ r'.info.dateTime = r.info.dateTime ∧
    r'.statuses.names = r.statuses.names ∧
    (∀ other, other ≠ plugin → r'.statuses.get? other = r.statuses.get? other) ∧
    (results.size < 2 ^ 32 → ∀ text, (r'.countAt text : Int) = r.countAt text
      - (if old.status.text = text then 1 else 0) + (if new.status.text = text then 1 else 0)) ∧
    (∀ text, (r.info.counts.get? text = none ↔ r.countAt text = 0) ∧
      (r'.info.counts.get? text = none ↔ r'.countAt text = 0)) := by
  subst hr hr'
  refine ⟨rfl, rfl, ?_, ?_, ?_, ?_⟩
  · show (RuntimeStatus.ofResults results').names = (RuntimeStatus.ofResults results).names
    rw [RuntimeStatus.ofResults, RuntimeStatus.ofResults, NameMap.names_mapValues,
      NameMap.names_mapValues, h.names_eq]
  · intro other hother
    exact RuntimeStatus.get?_ofResults_eq h hother
  · intro hsize text
    have hsize' := h.size_eq.trans_lt hsize
    rw [countAt_assemble_ofResults _ _ _ hsize, countAt_assemble_ofResults _ _ _ hsize']
    exact h.count_texts text
  · intro text
    exact ⟨counts_assemble_eq_none_iff _ _ _ _ _, counts_assemble_eq_none_iff _ _ _ _ _⟩

/-- Two results, of which the second is still to be told. -/
def pair (second : PluginResult) : NameMap PluginResult :=
  (NameMap.ofList [("first", .succeeded "done")]).insert "second" second

theorem differOnlyAt_pair (old new : PluginResult) :
    DifferOnlyAt "second" old new (pair old) (pair new) where
  old := (NameMap.get?_insert _ _ _ _).trans (if_pos rfl)
  new := (NameMap.get?_insert _ _ _ _).trans (if_pos rfl)
  others := by
    intro other hother
    rw [pair, pair, NameMap.get?_insert, NameMap.get?_insert, if_neg hother, if_neg hother]

/-- The reply on two results. -/
def onPair (second : PluginResult) : Reply :=
  assemble "1.0" (RuntimeStatus.ofResults (pair second)) .zero {}

/-- Whether the second plugin fails does not concern the first one. -/
theorem assemble_isolates_plugins_pair :
    (onPair (.succeeded "")).statuses.get? "first" =
      (onPair (.failed "no")).statuses.get? "first" ∧
    ((onPair (.succeeded "")).countAt "Failed" : Int) =
      (onPair (.failed "no")).countAt "Failed" - 1 ∧
    ((onPair (.succeeded "")).countAt "Success" : Int) =
      (onPair (.failed "no")).countAt "Success" + 1 ∧
    (onPair (.succeeded "")).info.counts.get? "Failed" = none := by
  have h := assemble_isolates_plugins (differOnlyAt_pair (.failed "no") (.succeeded ""))
    (show onPair (.failed "no") = _ from rfl) (show onPair (.succeeded "") = _ from rfl)
  obtain ⟨-, -, -, hothers, hcounts, hnone⟩ := h
  have hsize : (pair (.failed "no")).size < 2 ^ 32 := by decide
  have hold : (PluginResult.failed "no").status.text = "Failed" := rfl
  have hnew : (PluginResult.succeeded "").status.text = "Success" := rfl
  refine ⟨hothers "first" (by decide), ?_, ?_, ?_⟩
  · rw [hcounts hsize, hold, hnew, if_pos rfl, if_neg (by decide), add_zero]
  · rw [hcounts hsize, hold, hnew, if_pos rfl, if_neg (by decide), sub_zero]
  · refine (hnone "Failed").2.mpr ?_
    decide

end Reply

end AgentWire
