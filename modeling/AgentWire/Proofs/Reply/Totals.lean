import AgentWire.Proofs.NameMap.Union
import AgentWire.Proofs.Reply.Consistency
import Mathlib.Algebra.BigOperators.Group.List.Lemmas
import Mathlib.Data.List.Dedup

/-!
# Totals — every plugin is counted once

Counting adds one under the text of a plugin's status and touches no other entry. An entry that is
full stays full, so no entry ever falls. After all plugins the entry of a status states how many
plugins stand at it, as far as it can hold:

    statedFor (countStatuses statuses) s.text = min (pluginsAt statuses s) 4294967295

No other text has an entry, and no two statuses have one text. So as long as there are fewer plugins
than an entry can hold, what the entries state adds up to the number of plugins, and the counts of
two maps without a common plugin add up entry by entry to those of both together.
-/

namespace AgentWire

-- ── What is stated and what there is ──────────────────────────────────────────────

/-- The number of plugins at a status. -/
def pluginsAt (statuses : NameMap RuntimeStatus) (s : Status) : Nat :=
  statuses.values.countP (·.status = s)

variable {statuses m n : NameMap RuntimeStatus}

/-- A text comes up as often as plugins stand at its status. -/
theorem count_statusTexts (statuses : NameMap RuntimeStatus) (s : Status) :
    (statusTexts statuses).count s.text = pluginsAt statuses s := by
  rw [statusTexts, List.count, List.countP_map]
  refine List.countP_congr ?_
  intro report _
  simp only [Function.comp_apply, beq_iff_eq, decide_eq_true_eq]
  constructor
  · intro htext
    exact Status.text_injective htext
  · intro hstatus
    rw [hstatus]

/-- The texts of a union are those of both maps. -/
theorem statusTexts_union_perm (h : m.Apart n) :
    (statusTexts (m.union n)).Perm (statusTexts m ++ statusTexts n) := by
  have htexts := (NameMap.values_union_perm h).map fun report => report.status.text
  rwa [List.map_append] at htexts

-- ── One step ──────────────────────────────────────────────────────────────────────

/-- **One more plugin adds one to what its status states**, unless that is full. -/
theorem statedFor_tally_self (counts : NameMap UInt32) (s : Status) :
    statedFor (tally counts s) s.text = min (statedFor counts s.text + 1) 4294967295 := by
  rw [statedFor, tally, NameMap.get?_insert, if_pos rfl]
  show (countUp ((counts.get? s.text).getD 0)).toNat = _
  rw [toNat_countUp, statedFor]
  cases counts.get? s.text with
  | none => rfl
  | some n => rfl

/-- It leaves every other entry as it is. -/
theorem get?_tally_of_ne {text : String} {s : Status} (h : text ≠ s.text)
    (counts : NameMap UInt32) : (tally counts s).get? text = counts.get? text := by
  rw [tally, NameMap.get?_insert, if_neg h]

/-- What is stated fits into an entry. -/
theorem statedFor_le (counts : NameMap UInt32) (text : String) :
    statedFor counts text ≤ 4294967295 := by
  rw [statedFor]
  cases counts.get? text with
  | none => exact Nat.zero_le _
  | some n => exact Nat.le_of_lt_succ n.toNat_lt

/-- **No entry falls** while plugins are counted. -/
theorem statedFor_le_tally (counts : NameMap UInt32) (s : Status) (text : String) :
    statedFor counts text ≤ statedFor (tally counts s) text := by
  by_cases htext : text = s.text
  · have hle := statedFor_le counts s.text
    rw [htext, statedFor_tally_self]
    omega
  · rw [statedFor, statedFor, get?_tally_of_ne htext]

-- ── All plugins ───────────────────────────────────────────────────────────────────

/-- The entry of a status is that of the number of plugins at it. -/
theorem get?_countStatuses (statuses : NameMap RuntimeStatus) (s : Status) :
    (countStatuses statuses).get? s.text = entryOf (pluginsAt statuses s) := by
  rw [← count_statusTexts]
  exact counted_countStatuses statuses s.text

/-- A text has an entry exactly if it comes up. -/
theorem mem_names_countStatuses_iff {text : String} :
    text ∈ (countStatuses statuses).names ↔ text ∈ statusTexts statuses := by
  have hnone : text ∉ (countStatuses statuses).names ↔ text ∉ statusTexts statuses :=
    NameMap.get?_eq_none_iff.symm.trans get?_countStatuses_eq_none_iff
  exact not_iff_not.mp hnone

/-- **What the entries state adds up to the number of plugins.** -/
theorem sum_countStatuses (h : statuses.size < 2 ^ 32) :
    ((countStatuses statuses).values.map UInt32.toNat).sum = statuses.size := by
  have hvalues : (countStatuses statuses).values.map UInt32.toNat =
      (countStatuses statuses).names.map fun text => (statusTexts statuses).count text := by
    rw [NameMap.values, NameMap.names, List.map_map, List.map_map]
    refine List.map_congr_left ?_
    rintro ⟨text, n⟩ hmem
    have hget : (countStatuses statuses).get? text = some n := NameMap.get?_eq_some_iff.mpr hmem
    show n.toNat = (statusTexts statuses).count text
    rw [← statedFor_of_size_lt h, statedFor, hget]
    rfl
  -- each text that comes up has one entry, so the entries go through the texts without repetition
  have hnames : (countStatuses statuses).names.Perm (statusTexts statuses).dedup := by
    refine (List.perm_ext_iff_of_nodup ?_ (List.nodup_dedup _)).mpr ?_
    · exact NameMap.nodup_names (countStatuses statuses).ascending
    · intro text
      rw [mem_names_countStatuses_iff, List.mem_dedup]
  rw [hvalues, (hnames.map _).sum_eq, List.sum_map_count_dedup_eq_length, length_statusTexts]

/-- **The counts of two maps add up** to those of both together. -/
theorem statedFor_countStatuses_union (h : m.Apart n) (hsize : m.size + n.size < 2 ^ 32)
    (text : String) :
    statedFor (countStatuses (m.union n)) text =
      statedFor (countStatuses m) text + statedFor (countStatuses n) text := by
  have hperm := statusTexts_union_perm h
  have hunion : (m.union n).size = m.size + n.size := by
    rw [← length_statusTexts, hperm.length_eq, List.length_append, length_statusTexts,
      length_statusTexts]
  rw [statedFor_of_size_lt (by omega), statedFor_of_size_lt (by omega),
    statedFor_of_size_lt (by omega), hperm.count_eq, List.count_append]

/-- **EVERY PLUGIN IS COUNTED ONCE.** The entry of a status holds how many plugins stand at it, up
    to the largest number it can hold; there is none if there are no such plugins, and no other text
    has one. Below that limit the entries add up to the number of plugins, and those of two maps
    without a common plugin to those of both. One plugin more adds one to its entry and to no other,
    whatever the entries hold, and lets none of them fall. -/
theorem every_plugin_is_counted_once :
    (∀ (statuses : NameMap RuntimeStatus) (s : Status),
      (pluginsAt statuses s = 0 → (countStatuses statuses).get? s.text = none) ∧
      (pluginsAt statuses s ≠ 0 → ∃ n, (countStatuses statuses).get? s.text = some n ∧
        n.toNat = min (pluginsAt statuses s) (2 ^ 32 - 1))) ∧
    (∀ (statuses : NameMap RuntimeStatus) (text : String) (n : UInt32),
      (countStatuses statuses).get? text = some n → ∃ s : Status, s.text = text) ∧
    (∀ statuses : NameMap RuntimeStatus, statuses.size < 2 ^ 32 →
      ((countStatuses statuses).values.map UInt32.toNat).sum = statuses.size) ∧
    (∀ m n : NameMap RuntimeStatus, m.Apart n → m.size + n.size < 2 ^ 32 → ∀ text,
      statedFor (countStatuses (m.union n)) text =
        statedFor (countStatuses m) text + statedFor (countStatuses n) text ∧
      ((countStatuses (m.union n)).get? text = none ↔
        (countStatuses m).get? text = none ∧ (countStatuses n).get? text = none)) ∧
    (∀ (counts : NameMap UInt32) (s : Status),
      statedFor (tally counts s) s.text = min (statedFor counts s.text + 1) (2 ^ 32 - 1) ∧
      (∀ text, statedFor counts text ≤ statedFor (tally counts s) text) ∧
      ∀ text, text ≠ s.text → (tally counts s).get? text = counts.get? text) := by
  refine ⟨?_, ?_, ?_, ?_, ?_⟩
  · intro statuses s
    rw [get?_countStatuses, entryOf]
    constructor
    · intro hnone
      exact if_pos hnone
    · intro hsome
      exact ⟨_, if_neg hsome, toNat_countOf _⟩
  · intro statuses text n hn
    obtain ⟨-, s, -, htext⟩ := of_get?_countStatuses hn
    exact ⟨s, htext⟩
  · intro statuses hsize
    exact sum_countStatuses hsize
  · intro m n hapart hsize text
    refine ⟨statedFor_countStatuses_union hapart hsize text, ?_⟩
    rw [get?_countStatuses_eq_none_iff, get?_countStatuses_eq_none_iff,
      get?_countStatuses_eq_none_iff, (statusTexts_union_perm hapart).mem_iff, List.mem_append,
      not_or]
  · intro counts s
    refine ⟨statedFor_tally_self counts s, statedFor_le_tally counts s, ?_⟩
    intro text htext
    exact get?_tally_of_ne htext counts

/-- Two plugins that failed, beside one that has not reported anything. -/
def twoFailed : NameMap RuntimeStatus :=
  .ofList [("a", { status := .failed }), ("b", { status := .unset }), ("c", { status := .failed })]

/-- A plugin that failed and one that succeeded. -/
def oneFailed : NameMap RuntimeStatus :=
  .ofList [("d", { status := .failed }), ("e", { status := .success })]

/-- Together three plugins failed; an entry that is full stays full. -/
theorem every_plugin_is_counted_once_failed :
    (∃ n, (countStatuses twoFailed).get? "Failed" = some n ∧ n.toNat = 2) ∧
    (∃ s : Status, s.text = "") ∧
    ((countStatuses twoFailed).values.map UInt32.toNat).sum = 3 ∧
    statedFor (countStatuses (twoFailed.union oneFailed)) "Failed" = 3 ∧
    statedFor (tally (.ofList [("Failed", 4294967295)]) .failed) "Failed" = 4294967295 ∧
    (tally (.ofList [("Failed", 4294967295)]) .failed).get? "Success" = none := by
  obtain ⟨hentry, hother, hsum, hunion, hstep⟩ := every_plugin_is_counted_once
  obtain ⟨hfull, -, hapart⟩ := hstep (.ofList [("Failed", 4294967295)]) .failed
  refine ⟨?_, ?_, ?_, ?_, ?_, ?_⟩
  · exact (hentry twoFailed .failed).2 (by decide)
  · exact hother twoFailed "" 1 (by decide)
  · exact hsum twoFailed (by decide)
  · exact (hunion twoFailed oneFailed (by decide) (by decide) "Failed").1
  · exact hfull
  · exact hapart "Success" (by decide)

end AgentWire
