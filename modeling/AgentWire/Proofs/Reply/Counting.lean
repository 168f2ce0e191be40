import AgentWire.Reply.Assembly
import Mathlib.Algebra.GroupWithZero.Nat
import Mathlib.Data.List.Count

/-!
# Counting — what the counts of a reply hold

Counting goes through the plugins and adds one under the status of each. So at any point there is,
for each text that has come up so far, an entry that holds how often it has, up to the largest
number an entry can hold; and there is no entry for any other text (`Counted`):

    Counted counts texts  →  Counted (tally counts s) (texts ++ [s.text])
-/

namespace AgentWire

/-- The number that an entry holds after so many plugins. -/
def countOf (n : Nat) : UInt32 :=
  .ofNat (min n 4294967295)

/-- The entry after so many plugins: none before the first of them. -/
def entryOf (n : Nat) : Option UInt32 :=
  if n = 0 then none else some (countOf n)

theorem toNat_countOf (n : Nat) : (countOf n).toNat = min n 4294967295 :=
  UInt32.toNat_ofNat_of_lt (Nat.lt_of_le_of_lt (Nat.min_le_right n _) (by decide))

/-- **Counting one more does not wrap**: an entry that is full stays full. -/
theorem toNat_countUp (n : UInt32) : (countUp n).toNat = min (n.toNat + 1) 4294967295 := by
  have hfull : n = 4294967295 ↔ n.toNat = 4294967295 := UInt32.toNat_inj.symm
  have hlt := n.toNat_lt
  rw [countUp]
  by_cases hn : n = 4294967295
  · rw [if_pos hn, hfull.mp hn]
    rfl
  · -- below the largest number one more does not wrap
    rw [if_neg hn, UInt32.toNat_add]
    show (n.toNat + 1) % 4294967296 = _
    have hne := mt hfull.mpr hn
    omega

/-- One more plugin is counted, unless the entry is full. -/
theorem countUp_countOf (n : Nat) : countUp (countOf n) = countOf (n + 1) := by
  rw [← UInt32.toNat_inj, toNat_countUp, toNat_countOf, toNat_countOf]
  omega

/-- Nothing is counted yet where there is no entry. -/
theorem getD_entryOf (n : Nat) : (entryOf n).getD 0 = countOf n := by
  cases n with
  | zero => rfl
  | succ n => rfl

/-- Counts hold how often each text has come up. -/
def Counted (counts : NameMap UInt32) (texts : List String) : Prop :=
  ∀ text, counts.get? text = entryOf (texts.count text)

/-- **One more plugin adds one under its status.** -/
theorem Counted.tally {counts : NameMap UInt32} {texts : List String} (h : Counted counts texts)
    (s : Status) : Counted (tally counts s) (texts ++ [s.text]) := by
  intro text
  rw [AgentWire.tally, NameMap.get?_insert, List.count_append, h s.text, getD_entryOf,
    countUp_countOf]
  by_cases hsame : text = s.text
  · rw [if_pos hsame, hsame, List.count_singleton_self]
    rfl
  · have hnone : List.count text [s.text] = 0 :=
      List.count_eq_zero.mpr (mt List.mem_singleton.mp hsame)
    rw [if_neg hsame, h text, hnone]
    rfl

/-- Plugins one after the other add one under the status of each. -/
theorem Counted.foldl_tally (statuses : List Status) :
    ∀ {counts : NameMap UInt32} {texts : List String}, Counted counts texts →
      Counted (statuses.foldl AgentWire.tally counts) (texts ++ statuses.map Status.text) := by
  induction statuses with
  | nil =>
      intro counts texts h
      rw [List.map_nil, List.append_nil]
      exact h
  | cons s rest ih =>
      intro counts texts h
      rw [List.map_cons, List.append_cons]
      exact ih (h.tally s)

/-- The texts of the statuses of all plugins. -/
def statusTexts (statuses : NameMap RuntimeStatus) : List String :=
  statuses.values.map fun report => report.status.text

theorem length_statusTexts (statuses : NameMap RuntimeStatus) :
    (statusTexts statuses).length = statuses.size := by
  rw [statusTexts, List.length_map]
  exact List.length_map _

/-- **THE COUNTS HOLD HOW MANY PLUGINS STAND AT EACH STATUS.** -/
theorem counted_countStatuses (statuses : NameMap RuntimeStatus) :
    Counted (countStatuses statuses) (statusTexts statuses) := by
  have hempty : Counted .empty [] := fun _ => rfl
  have hcounted := hempty.foldl_tally (statuses.values.map (·.status))
  rw [List.map_map] at hcounted
  exact hcounted

/-- What counts state for a text: nothing is stated where there is no entry. -/
def statedFor (counts : NameMap UInt32) (text : String) : Nat :=
  ((counts.get? text).map UInt32.toNat).getD 0

/-- An entry states how often its text comes up, as far as it can hold. -/
theorem statedFor_countStatuses (statuses : NameMap RuntimeStatus) (text : String) :
    statedFor (countStatuses statuses) text =
      min ((statusTexts statuses).count text) 4294967295 := by
  rw [statedFor, counted_countStatuses, entryOf]
  split
  · rename_i hnone
    rw [hnone]
    rfl
  · exact toNat_countOf _

/-- With fewer plugins than an entry can hold, it states how often its text comes up. -/
theorem statedFor_of_size_lt {statuses : NameMap RuntimeStatus} (h : statuses.size < 2 ^ 32)
    (text : String) :
    statedFor (countStatuses statuses) text = (statusTexts statuses).count text := by
  have hcount := List.count_le_length (a := text) (l := statusTexts statuses)
  rw [length_statusTexts] at hcount
  rw [statedFor_countStatuses]
  omega

/-- A text has no entry exactly if it does not come up. -/
theorem get?_countStatuses_eq_none_iff {statuses : NameMap RuntimeStatus} {text : String} :
    (countStatuses statuses).get? text = none ↔ text ∉ statusTexts statuses := by
  have hentry : (countStatuses statuses).get? text = entryOf ((statusTexts statuses).count text) :=
    counted_countStatuses statuses text
  rw [hentry, entryOf, ← List.count_eq_zero]
  split
  · rename_i hnone
    exact iff_of_true rfl hnone
  · rename_i hsome
    exact iff_of_false (Option.some_ne_none _) hsome

namespace Reply

/-- The number of plugins that a reply states for the text of a status: none where there is no
    entry. -/
def countAt (r : Reply) (text : String) : Nat :=
  statedFor r.info.counts text

/-- **A reply has no entry exactly where it states none.** -/
theorem counts_assemble_eq_none_iff (version : String) (statuses : NameMap RuntimeStatus)
    (time : Timestamp) (agent : Agent) (text : String) :
    (assemble version statuses time agent).info.counts.get? text = none ↔
      (assemble version statuses time agent).countAt text = 0 := by
  show (countStatuses statuses).get? text = none ↔ statedFor (countStatuses statuses) text = 0
  rw [get?_countStatuses_eq_none_iff, statedFor_countStatuses, ← List.count_eq_zero]
  omega

end Reply

end AgentWire
