import AgentWire.Proofs.NameMap
import AgentWire.Proofs.Reply.Counting

/-!
# Consistency — the document status of a reply can be read off its counts

The document status and the counts come of two walks over the same runtime statuses: one looks for
the most pressing status that a plugin has, the other adds one under the status of each. The counts
have an entry under the text of a status exactly if some plugin stands at it, and no two statuses
have one text. So both walks see the same statuses, and

    no plugins       →  no counts, and a success
    some plugins     →  the first status of the precedence that has an entry, or not started

where it is not started exactly if there are no entries but those that the precedence leaves out.
-/

namespace AgentWire

variable {statuses : NameMap RuntimeStatus}

/-- Some plugin stands at a status. -/
def StandsAt (statuses : NameMap RuntimeStatus) (s : Status) : Prop :=
  ∃ plugin report, statuses.get? plugin = some report ∧ report.status = s

theorem any_status_iff (s : Status) :
    statuses.values.any (·.status = s) = true ↔ StandsAt statuses s := by
  simp only [List.any_eq_true, decide_eq_true_eq, NameMap.mem_values_iff]
  constructor
  · rintro ⟨report, ⟨plugin, hplugin⟩, hstatus⟩
    exact ⟨plugin, report, hplugin, hstatus⟩
  · rintro ⟨plugin, report, hplugin, hstatus⟩
    exact ⟨report, ⟨plugin, hplugin⟩, hstatus⟩

-- ── What has an entry ─────────────────────────────────────────────────────────────

/-- An entry is at least one, and it is under the text of a status that some plugin has. -/
theorem of_get?_countStatuses {text : String} {n : UInt32}
    (h : (countStatuses statuses).get? text = some n) :
    1 ≤ n.toNat ∧ ∃ s, StandsAt statuses s ∧ s.text = text := by
  rw [counted_countStatuses, entryOf] at h
  split at h
  · exact absurd h.symm (Option.some_ne_none n)
  · rename_i hcount
    refine ⟨?_, ?_⟩
    · rw [← Option.some.inj h, toNat_countOf]
      omega
    · obtain ⟨report, hreport, htext⟩ :=
        List.mem_map.mp (List.count_pos_iff.mp (Nat.pos_of_ne_zero hcount))
      obtain ⟨plugin, hplugin⟩ := NameMap.mem_values_iff.mp hreport
      exact ⟨report.status, ⟨plugin, report, hplugin, rfl⟩, htext⟩

/-- **A STATUS HAS AN ENTRY EXACTLY IF SOME PLUGIN STANDS AT IT.** -/
theorem contains_countStatuses_iff (s : Status) :
    (countStatuses statuses).contains s.text = true ↔ StandsAt statuses s := by
  constructor
  · intro h
    obtain ⟨n, hn⟩ := NameMap.contains_iff.mp h
    obtain ⟨-, s', hstands, htext⟩ := of_get?_countStatuses hn
    exact Status.text_injective htext ▸ hstands
  · rintro ⟨plugin, report, hplugin, rfl⟩
    have hmem : report.status.text ∈ statusTexts statuses :=
      List.mem_map.mpr ⟨report, NameMap.mem_values_iff.mpr ⟨plugin, hplugin⟩, rfl⟩
    rw [NameMap.contains, Option.isSome_iff_ne_none]
    exact mt get?_countStatuses_eq_none_iff.mp (not_not.mpr hmem)

-- ── The document status ───────────────────────────────────────────────────────────

/-- The statuses that the precedence leaves out. -/
theorem mem_precedence_or (s : Status) : s ∈ precedence ∨ s = .unset ∨ s = .notStarted := by
  cases s <;> decide

/-- **The document status is the first of the precedence that has an entry.** -/
theorem aggregate_eq_of_ne_empty (h : statuses ≠ .empty) :
    aggregate statuses =
      (precedence.find? fun s => (countStatuses statuses).contains s.text).getD .notStarted := by
  have hsame : (fun s => statuses.values.any (·.status = s)) =
      fun s => (countStatuses statuses).contains s.text := by
    funext s
    exact Bool.eq_iff_iff.mpr ((any_status_iff s).trans (contains_countStatuses_iff s).symm)
  rw [aggregate, if_neg (mt NameMap.isEmpty_iff.mp h), hsame]

/-- A document status is one of the precedence, or not started. -/
theorem aggregate_mem_or (statuses : NameMap RuntimeStatus) :
    aggregate statuses ∈ precedence ∨ aggregate statuses = .notStarted := by
  by_cases hempty : statuses = .empty
  · subst hempty
    exact Or.inl (by decide)
  · rw [aggregate_eq_of_ne_empty hempty]
    cases hfind : precedence.find? fun s => (countStatuses statuses).contains s.text with
    | none => exact Or.inr rfl
    | some s => exact Or.inl (List.mem_of_find?_eq_some hfind)

/-- A document with plugins has not started exactly if none of them has a status of the
    precedence. -/
theorem aggregate_eq_notStarted_iff (h : statuses ≠ .empty) :
    aggregate statuses = .notStarted ↔
      ∀ s ∈ precedence, (countStatuses statuses).contains s.text = false := by
  have hfind : aggregate statuses = .notStarted ↔
      (precedence.find? fun s => (countStatuses statuses).contains s.text) = none := by
    rw [aggregate_eq_of_ne_empty h]
    cases hfind : precedence.find? fun s => (countStatuses statuses).contains s.text with
    | none => exact ⟨fun _ => rfl, fun _ => rfl⟩
    | some s =>
        constructor
        · rintro (rfl : s = .notStarted)
          exact absurd (List.mem_of_find?_eq_some hfind) (by decide)
        · intro hnone
          exact nomatch hnone
  rw [hfind, List.find?_eq_none]
  simp only [Bool.not_eq_true]

/-- Entries of no status of the precedence are those of the statuses that it leaves out. -/
theorem forall_precedence_iff :
    (∀ s ∈ precedence, (countStatuses statuses).contains s.text = false) ↔
      ∀ text, (countStatuses statuses).contains text = true → text = "" ∨ text = "NotStarted" := by
  constructor
  · intro h text hcontains
    obtain ⟨n, hn⟩ := NameMap.contains_iff.mp hcontains
    obtain ⟨-, s, -, rfl⟩ := of_get?_countStatuses hn
    rcases mem_precedence_or s with hmem | rfl | rfl
    · rw [h s hmem] at hcontains
      exact Bool.noConfusion hcontains
    · exact Or.inl rfl
    · exact Or.inr rfl
  · intro h s hmem
    refine Bool.eq_false_iff.mpr ?_
    intro hcontains
    have hleftOut : ∀ s ∈ precedence, ¬(s.text = "" ∨ s.text = "NotStarted") := by decide
    exact hleftOut s hmem (h s.text hcontains)

-- ── Replies ───────────────────────────────────────────────────────────────────────

namespace Reply

/-- **THE DOCUMENT STATUS AND THE COUNTS OF A REPLY AGREE.** The entries of the counts are those of
    the statuses that plugins have, each at least one. Without plugins there are none, and the
    document is a success; otherwise its status is the first that has an entry, in the order of
    urgency, and no more than the entries have to be known. -/
theorem status_agrees_with_counts {version : String} {statuses : NameMap RuntimeStatus}
    {time : Timestamp} {agent : Agent} {r : Reply}
    (hr : r = assemble version statuses time agent) :
    (∀ s : Status, r.info.counts.contains s.text = true ↔
      ∃ plugin report, r.statuses.get? plugin = some report ∧ report.status = s) ∧
    (∀ text n, r.info.counts.get? text = some n → 1 ≤ n.toNat) ∧
    (statuses = .empty → r.info.counts = .empty ∧ r.documentStatus = .success) ∧
    (statuses ≠ .empty →
      r.documentStatus = ([Status.inProgress, .pending, .failed, .timedOut, .cancelled,
        .successAndReboot, .success].find? fun s => r.info.counts.contains s.text).getD
          .notStarted ∧
      (r.documentStatus = .notStarted ↔
        ∀ text, r.info.counts.contains text = true → text = "" ∨ text = "NotStarted")) ∧
    (∀ version' statuses' time' agent' r', r' = assemble version' statuses' time' agent' →
      statuses ≠ .empty → statuses' ≠ .empty →
      r'.info.counts.names = r.info.counts.names → r'.documentStatus = r.documentStatus) ∧
    r.documentStatus ≠ .unset := by
  subst hr
  refine ⟨contains_countStatuses_iff, ?_, ?_, ?_, ?_, ?_⟩
  · intro text n hn
    exact (of_get?_countStatuses hn).1
  · rintro rfl
    exact ⟨rfl, rfl⟩
  · intro hne
    exact ⟨aggregate_eq_of_ne_empty hne,
      (aggregate_eq_notStarted_iff hne).trans forall_precedence_iff⟩
  · rintro version' statuses' time' agent' r' rfl hne hne' hsame
    show aggregate statuses' = aggregate statuses
    rw [aggregate_eq_of_ne_empty hne, aggregate_eq_of_ne_empty hne']
    -- the status asks the counts for nothing but their names
    have hentries : (countStatuses statuses').contains = (countStatuses statuses).contains := by
      funext text
      refine Bool.eq_iff_iff.mpr ?_
      rw [← NameMap.mem_names_iff, ← NameMap.mem_names_iff]
      exact hsame ▸ Iff.rfl
    rw [hentries]
  · show aggregate statuses ≠ .unset
    rcases aggregate_mem_or statuses with hmem | heq
    · intro hunset
      rw [hunset] at hmem
      exact absurd hmem (by decide)
    · rw [heq]
      decide

/-- A reply on three plugins, of which one failed and one has not said anything. -/
def onThree : Reply :=
  assemble "1.0" (.ofList [("a", { status := .success }), ("b", { status := .failed }),
    ("c", { status := .unset })]) .zero {}

/-- A reply on more plugins at the same statuses. -/
def onFour : Reply :=
  assemble "1.0" (.ofList [("d", { status := .failed }), ("e", { status := .unset }),
    ("f", { status := .success }), ("g", { status := .failed })]) .zero {}

/-- One failure more does not change the document status, and who has not said anything does not
    count for it. -/
theorem status_agrees_with_counts_three :
    onThree.info.counts.contains "" = true ∧ onThree.documentStatus = .failed ∧
    onThree.documentStatus ≠ .notStarted ∧ onFour.documentStatus = onThree.documentStatus := by
  obtain ⟨hentry, -, -, hstatus, hsame, -⟩ :=
    status_agrees_with_counts (show onThree = _ from rfl)
  obtain ⟨hfirst, hnot⟩ := hstatus (by decide)
  refine ⟨(hentry .unset).mpr ⟨"c", { status := .unset }, by decide, rfl⟩, ?_, ?_, ?_⟩
  · rw [hfirst]
    decide
  · intro hstarted
    exact absurd (hnot.mp hstarted "Failed" (by decide)) (by decide)
  · exact hsame _ _ _ _ onFour rfl (by decide) (by decide) (by decide)

end Reply

end AgentWire
