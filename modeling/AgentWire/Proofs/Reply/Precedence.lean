import AgentWire.Proofs.NameMap.Union
import AgentWire.Proofs.Reply.Consistency

/-!
# Precedence — the status of a document is the maximum over its plugins

The statuses stand in an order of urgency, in which one that is not set counts as not started. The
status of a document is looked for in the precedence, which lists all of them but the lowest, the
most pressing first; so what is found is the most pressing status of a plugin, and what is not found
is the lowest:

    precedence.find? p = some s  →  t ∈ precedence  →  p t  →  t.urgency ≤ s.urgency

A maximum is settled by which statuses there are among the plugins. So neither the names of plugins
nor the other fields of their reports have a say, two maps in one have the higher of the two maxima,
and another plugin cannot lower it. A map without plugins has no maximum; its document is a success.
-/

namespace AgentWire

namespace Status

-- ── The order of urgency ──────────────────────────────────────────────────────────

/-- A status as it counts for a document: a plugin that has not reported any has not started. -/
def reported : Status → Status
  | unset => notStarted
  | s => s

/-- How pressing a status is. -/
def urgency : Status → Nat
  | unset => 0
  | notStarted => 0
  | success => 1
  | successAndReboot => 2
  | cancelled => 3
  | timedOut => 4
  | failed => 5
  | pending => 6
  | inProgress => 7

/-- The more pressing of two statuses. -/
def morePressing (s t : Status) : Status :=
  if s.urgency < t.urgency then t else s

theorem urgency_reported (s : Status) : s.reported.urgency = s.urgency := by
  cases s <;> rfl

/-- Statuses of one urgency count alike. -/
theorem reported_eq_of_urgency_eq {s t : Status} (h : s.urgency = t.urgency) :
    s.reported = t.reported := by
  have hall : ∀ s ∈ all, ∀ t ∈ all, s.urgency = t.urgency → s.reported = t.reported := by decide
  exact hall s (mem_all s) t (mem_all t) h

theorem urgency_morePressing (s t : Status) :
    (s.morePressing t).urgency = max s.urgency t.urgency := by
  rw [morePressing]
  by_cases hlt : s.urgency < t.urgency
  · rw [if_pos hlt, Nat.max_eq_right (Nat.le_of_lt hlt)]
  · rw [if_neg hlt, Nat.max_eq_left (Nat.le_of_not_lt hlt)]

end Status

/-- The precedence descends in urgency. -/
theorem precedence_descends : precedence.Pairwise fun s t => t.urgency < s.urgency := by
  decide

/-- **What is found first in the precedence is the most pressing that there is to be found.** -/
theorem urgency_le_of_find? {p : Status → Bool} {s t : Status}
    (hfind : precedence.find? p = some s) (hmem : t ∈ precedence) (ht : p t = true) :
    t.urgency ≤ s.urgency := by
  obtain ⟨-, before, after, hsplit, hbefore⟩ := List.find?_eq_some_iff_append.mp hfind
  have hdescends := precedence_descends
  rw [hsplit] at hmem hdescends
  rcases List.mem_append.mp hmem with hmem | hmem
  · have hnot := hbefore t hmem
    rw [ht] at hnot
    exact Bool.noConfusion hnot
  · rcases List.mem_cons.mp hmem with rfl | hmem
    · exact Nat.le_refl _
    · exact Nat.le_of_lt ((List.pairwise_cons.mp (List.pairwise_append.mp hdescends).2.1).1 t hmem)

-- ── The maximum ───────────────────────────────────────────────────────────────────

/-- A status is the maximum over the plugins: one of them has it, and none has a more pressing
    one. -/
structure IsMaximum (statuses : NameMap RuntimeStatus) (s : Status) : Prop where
  attained : ∃ t, StandsAt statuses t ∧ t.reported = s
  bound : ∀ t, StandsAt statuses t → t.urgency ≤ s.urgency

variable {statuses m n : NameMap RuntimeStatus} {s t : Status}

/-- There is one maximum at most. -/
theorem IsMaximum.unique (hs : IsMaximum statuses s) (ht : IsMaximum statuses t) : s = t := by
  obtain ⟨s', hs', rfl⟩ := hs.attained
  obtain ⟨t', ht', rfl⟩ := ht.attained
  have hle := ht.bound s' hs'
  have hge := hs.bound t' ht'
  rw [Status.urgency_reported] at hle hge
  exact Status.reported_eq_of_urgency_eq (Nat.le_antisymm hle hge)

theorem standsAt_empty : ¬StandsAt .empty s := by
  rintro ⟨plugin, report, hplugin, -⟩
  exact nomatch hplugin

/-- Some status stands in a map that is not empty. -/
theorem exists_standsAt (h : statuses ≠ .empty) : ∃ s, StandsAt statuses s := by
  have hentries : statuses.entries ≠ [] := by
    intro hnil
    exact h (NameMap.ext_entries hnil)
  obtain ⟨⟨plugin, report⟩, hmem⟩ := List.exists_mem_of_ne_nil _ hentries
  exact ⟨report.status, plugin, report, NameMap.get?_eq_some_iff.mpr hmem, rfl⟩

/-- **THE STATUS OF A DOCUMENT WITH PLUGINS IS THE MAXIMUM OVER THEM.** -/
theorem isMaximum_aggregate (h : statuses ≠ .empty) : IsMaximum statuses (aggregate statuses) := by
  rw [aggregate, if_neg (mt NameMap.isEmpty_iff.mp h)]
  cases hfind : precedence.find? fun s => statuses.values.any (·.status = s) with
  | some s =>
      -- what comes before it in the precedence stands nowhere, and what is not in it is the lowest
      have hany := List.find?_some hfind
      have hstands : StandsAt statuses s := (any_status_iff s).mp hany
      have hreported : s.reported = s := by
        have hall : ∀ s ∈ precedence, s.reported = s := by decide
        exact hall s (List.mem_of_find?_eq_some hfind)
      refine ⟨⟨s, hstands, hreported⟩, ?_⟩
      intro t ht
      rcases mem_precedence_or t with hmem | rfl | rfl
      · exact urgency_le_of_find? hfind hmem ((any_status_iff t).mpr ht)
      · exact Nat.zero_le _
      · exact Nat.zero_le _
  | none =>
      -- no plugin has a status of the precedence, so each is not started or has none
      have hlow : ∀ t, StandsAt statuses t → t.reported = .notStarted := by
        intro t ht
        rcases mem_precedence_or t with hmem | rfl | rfl
        · exact absurd ((any_status_iff t).mpr ht) (List.find?_eq_none.mp hfind t hmem)
        · rfl
        · rfl
      obtain ⟨t, ht⟩ := exists_standsAt h
      refine ⟨⟨t, ht, hlow t ht⟩, ?_⟩
      intro t ht
      rw [← t.urgency_reported, hlow t ht]
      exact Nat.le_refl _

/-- A maximum is the status of the document, and only a map with plugins has one. -/
theorem isMaximum_iff : IsMaximum statuses s ↔ statuses ≠ .empty ∧ s = aggregate statuses := by
  constructor
  · intro h
    have hne : statuses ≠ .empty := by
      rintro rfl
      obtain ⟨t, ht, -⟩ := h.attained
      exact standsAt_empty ht
    exact ⟨hne, h.unique (isMaximum_aggregate hne)⟩
  · rintro ⟨hne, rfl⟩
    exact isMaximum_aggregate hne

-- ── Which statuses there are settles it ───────────────────────────────────────────

theorem eq_empty_iff_forall_not_standsAt : statuses = .empty ↔ ∀ s, ¬StandsAt statuses s := by
  constructor
  · rintro rfl s
    exact standsAt_empty
  · intro h
    by_contra hne
    obtain ⟨s, hs⟩ := exists_standsAt hne
    exact h s hs

/-- **Maps in which the same statuses stand have one document status.** -/
theorem aggregate_congr (h : ∀ s, StandsAt m s ↔ StandsAt n s) : aggregate m = aggregate n := by
  by_cases hm : m = .empty
  · have hn : n = .empty := by
      refine eq_empty_iff_forall_not_standsAt.mpr ?_
      intro s hs
      exact eq_empty_iff_forall_not_standsAt.mp hm s ((h s).mpr hs)
    rw [hm, hn]
  · obtain ⟨⟨t, ht, hreported⟩, hbound⟩ := isMaximum_aggregate hm
    have hmaximum : IsMaximum n (aggregate m) :=
      ⟨⟨t, (h t).mp ht, hreported⟩, fun t ht => hbound t ((h t).mpr ht)⟩
    exact (isMaximum_iff.mp hmaximum).2

/-- What stands in a union stands in either map. -/
theorem standsAt_union_iff (h : m.Apart n) :
    StandsAt (m.union n) s ↔ StandsAt m s ∨ StandsAt n s := by
  simp only [StandsAt, NameMap.get?_union_eq_some_iff h, or_and_right, exists_or]

/-- The maximum of a union is the higher of the two maxima. -/
theorem IsMaximum.union (h : m.Apart n) (hs : IsMaximum m s) (ht : IsMaximum n t) :
    IsMaximum (m.union n) (s.morePressing t) := by
  refine ⟨?_, ?_⟩
  · rw [Status.morePressing]
    split
    · obtain ⟨t', ht', hreported⟩ := ht.attained
      exact ⟨t', (standsAt_union_iff h).mpr (.inr ht'), hreported⟩
    · obtain ⟨s', hs', hreported⟩ := hs.attained
      exact ⟨s', (standsAt_union_iff h).mpr (.inl hs'), hreported⟩
  · intro u hu
    rw [Status.urgency_morePressing]
    rcases (standsAt_union_iff h).mp hu with hu | hu
    · exact Nat.le_trans (hs.bound u hu) (Nat.le_max_left _ _)
    · exact Nat.le_trans (ht.bound u hu) (Nat.le_max_right _ _)

/-- The statuses under other names are the same. -/
theorem standsAt_rename_iff {f : String → String} (h : NameMap.RenamesApart f statuses) :
    StandsAt (statuses.rename f) s ↔ StandsAt statuses s := by
  simp only [StandsAt, NameMap.get?_rename_eq_some_iff h]
  constructor
  · rintro ⟨plugin, report, ⟨old, hold, -⟩, hstatus⟩
    exact ⟨old, report, hold, hstatus⟩
  · rintro ⟨old, report, hold, hstatus⟩
    exact ⟨f old, report, ⟨old, hold, rfl⟩, hstatus⟩

/-- A status stands where a plugin has it, whatever else is reported. -/
theorem standsAt_iff_map :
    StandsAt statuses s ↔ ∃ plugin, (statuses.get? plugin).map (·.status) = some s := by
  simp only [StandsAt, Option.map_eq_some_iff]

/-- What stands goes on standing when a plugin is added. -/
theorem StandsAt.insert {plugin : String} (hnew : statuses.get? plugin = none)
    (h : StandsAt statuses s) (report : RuntimeStatus) :
    StandsAt (statuses.insert plugin report) s := by
  obtain ⟨other, reported, hother, hstatus⟩ := h
  refine ⟨other, reported, ?_, hstatus⟩
  rw [NameMap.get?_insert, if_neg, hother]
  rintro rfl
  exact nomatch hnew.symm.trans hother

theorem insert_ne_empty (plugin : String) (report : RuntimeStatus) :
    statuses.insert plugin report ≠ .empty := by
  intro hempty
  have hget := NameMap.get?_insert statuses plugin plugin report
  rw [hempty, if_pos rfl] at hget
  exact nomatch hget

/-- **THE STATUS OF A DOCUMENT IS THE MAXIMUM OVER ITS PLUGINS**, in the order of urgency with what
    is not set as not started. So it joins over maps without a common plugin, it depends neither on
    the names of plugins nor on what else is reported of them, and one plugin more does not lower it.
    Without plugins there is no maximum, and the status is a success. -/
theorem aggregate_is_maximum :
    [Status.inProgress, .pending, .failed, .timedOut, .cancelled, .successAndReboot, .success,
      .notStarted].Pairwise (fun s t => t.urgency < s.urgency) ∧
    (∀ s : Status, s.reported = if s = .unset then .notStarted else s) ∧
    (∀ s : Status, s.reported.urgency = s.urgency) ∧
    (∀ (statuses : NameMap RuntimeStatus) (s : Status),
      IsMaximum statuses s ↔ statuses ≠ .empty ∧ s = aggregate statuses) ∧
    (∀ m n : NameMap RuntimeStatus, m ≠ .empty → n ≠ .empty → m.Apart n →
      aggregate (m.union n) = (aggregate m).morePressing (aggregate n)) ∧
    (∀ (statuses : NameMap RuntimeStatus) (f : String → String),
      NameMap.RenamesApart f statuses → aggregate (statuses.rename f) = aggregate statuses) ∧
    (∀ m n : NameMap RuntimeStatus,
      (∀ plugin, (m.get? plugin).map (·.status) = (n.get? plugin).map (·.status)) →
        aggregate m = aggregate n) ∧
    (∀ (statuses : NameMap RuntimeStatus) (plugin : String) (report : RuntimeStatus),
      statuses ≠ .empty → statuses.get? plugin = none →
        (aggregate statuses).urgency ≤ (aggregate (statuses.insert plugin report)).urgency) ∧
    aggregate .empty = .success := by
  refine ⟨by decide, ?_, Status.urgency_reported, ?_, ?_, ?_, ?_, ?_, rfl⟩
  · intro s
    cases s <;> rfl
  · intro statuses s
    exact isMaximum_iff
  · intro m n hm hn hapart
    have hunion := (isMaximum_aggregate hm).union hapart (isMaximum_aggregate hn)
    exact (isMaximum_iff.mp hunion).2.symm
  · intro statuses f hf
    exact aggregate_congr fun s => standsAt_rename_iff hf
  · intro m n hsame
    refine aggregate_congr ?_
    intro s
    rw [standsAt_iff_map, standsAt_iff_map]
    simp only [hsame]
  · -- the plugin that attains the maximum is still there, so it bounds the new one from below
    intro statuses plugin report hne hnew
    obtain ⟨s, hs, hreported⟩ := (isMaximum_aggregate hne).attained
    have hbound := (isMaximum_aggregate (insert_ne_empty plugin report)).bound s
      (hs.insert hnew report)
    rwa [← hreported, Status.urgency_reported]

/-- A plugin that failed beside one that has not reported anything. -/
def failedBesideSilent : NameMap RuntimeStatus :=
  .ofList [("a", { status := .failed }), ("b", { status := .unset })]

/-- A plugin that has not been started, and one that ran out of time. -/
def timedOutBesideIdle : NameMap RuntimeStatus :=
  .ofList [("c", { status := .notStarted }), ("d", { status := .timedOut, output := "late" })]

/-- A failure is more pressing than a lack of time, also under other names, and it is not lowered by
    one plugin more. -/
theorem aggregate_is_maximum_failed :
    IsMaximum failedBesideSilent .failed ∧
    aggregate (failedBesideSilent.union timedOutBesideIdle) = .failed ∧
    aggregate (failedBesideSilent.rename fun name => name ++ name) = .failed ∧
    aggregate timedOutBesideIdle = aggregate
      (timedOutBesideIdle.mapValues fun plugin report => { report with name := plugin, code := 1 }) ∧
    Status.failed.urgency ≤
      (aggregate (failedBesideSilent.insert "e" { status := .success })).urgency := by
  obtain ⟨-, -, -, hmaximum, hunion, hrename, hsame, hadded, -⟩ := aggregate_is_maximum
  have hfailed : aggregate failedBesideSilent = .failed := by decide
  have hapart : failedBesideSilent.Apart timedOutBesideIdle := by decide
  have hrenames : NameMap.RenamesApart (fun name => name ++ name) failedBesideSilent := by decide
  refine ⟨(hmaximum _ _).mpr ⟨by decide, hfailed.symm⟩, ?_, ?_, ?_, ?_⟩
  · rw [hunion _ _ (by decide) (by decide) hapart, hfailed]
    decide
  · rw [hrename _ _ hrenames, hfailed]
  · refine hsame _ _ ?_
    intro plugin
    rw [NameMap.get?_mapValues, Option.map_map]
    rfl
  · rw [← hfailed]
    exact hadded _ "e" _ (by decide) (by decide)

end AgentWire
