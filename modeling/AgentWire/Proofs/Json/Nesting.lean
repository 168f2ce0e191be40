import AgentWire.Json.Value
import AgentWire.Proofs.Json.Merging
import AgentWire.Proofs.Json.Reading

/-!
# Nesting — what is read is nested no deeper than was allowed

`Ensures r P` says that whatever `r` returns has the property `P`. A sequence of steps ensures
what its last step does, and a loop ensures what each of its turns preserves:

    each turn takes a state with P to one with P    →  the loop ensures P

So a value that is read with some levels to spare has at most that depth, by induction on the
levels, and a text that parses stands for a value within the limit.
-/

namespace AgentWire.Json

open Reader

variable {α β σ : Type}

/-- Whatever a reader returns has a property. -/
def Ensures (r : Reader α) (P : α → Prop) : Prop :=
  ∀ ⦃input : List Symbol⦄ ⦃a : α⦄ ⦃rest : List Symbol⦄, r input = .ok (a, rest) → P a

namespace Ensures

variable {P : α → Prop} {Q : β → Prop}

theorem bind {x : Reader α} {f : α → Reader β} (hx : Ensures x P)
    (hf : ∀ a, P a → Ensures (f a) Q) : Ensures (x >>= f) Q := by
  intro input b rest h
  obtain ⟨a, between, hfirst, hsecond⟩ := of_bind_eq_ok h
  exact hf a (hx hfirst) hsecond

/-- A step about which nothing needs to be known. -/
theorem step {x : Reader α} {f : α → Reader β} (hf : ∀ a, Ensures (f a) Q) :
    Ensures (x >>= f) Q := by
  intro input b rest h
  obtain ⟨a, between, hfirst, hsecond⟩ := of_bind_eq_ok h
  exact hf a hsecond

theorem pure {a : α} (h : P a) : Ensures (Pure.pure a : Reader α) P := by
  intro input b rest heq
  cases heq
  exact h

theorem fail {cause : TextFault} : Ensures (Reader.fail cause : Reader α) P := by
  intro input b rest heq
  exact nomatch heq

end Ensures

-- ── Loops ─────────────────────────────────────────────────────────────────────────

section Loops

variable {P : σ → Prop} (after : AfterComma) {turn : σ → Reader σ}

theorem ensures_moreItems (hturn : ∀ state, P state → Ensures (turn state) P) :
    ∀ (turns : Nat) (state : σ), P state → Ensures (moreItems after turn turns state) P
  | 0, _, _ => .fail
  | turns + 1, state, hstate => by
      rw [moreItems]
      refine .step ?_
      intro symbol
      split
      · exact .fail
      · exact .step fun _ => .pure hstate
      · refine .step fun _ => .step ?_
        intro next
        split
        · exact .fail
        · exact .fail
        · exact (hturn state hstate).bind (ensures_moreItems hturn turns)
      · exact .fail

/-- **A loop over items ensures what its turns preserve.** -/
theorem ensures_items (hturn : ∀ state, P state → Ensures (turn state) P) {start : σ}
    (hstart : P start) : Ensures (items after turn start) P := by
  unfold items
  refine .step ?_
  intro symbol
  split
  · exact .fail
  · exact .step fun _ => .pure hstart
  · refine (hturn start hstart).bind ?_
    intro state hstate
    exact .step fun turns => ensures_moreItems after hturn turns state hstate

theorem ensures_moreMembers (hturn : ∀ state, P state → Ensures (turn state) P) :
    ∀ (turns : Nat) (state : σ), P state → Ensures (moreMembers after turn turns state) P
  | 0, _, _ => .fail
  | turns + 1, state, hstate => by
      rw [moreMembers]
      refine .step ?_
      intro symbol
      split
      · exact .fail
      · exact .step fun _ => .pure hstate
      · refine .step fun _ => .step ?_
        intro next
        split
        · exact .fail
        · exact .fail
        · exact (hturn state hstate).bind (ensures_moreMembers hturn turns)
        · exact .fail
      · exact .fail

/-- **A loop over members ensures what its turns preserve.** -/
theorem ensures_members (hturn : ∀ state, P state → Ensures (turn state) P) {start : σ}
    (hstart : P start) : Ensures (members after turn start) P := by
  unfold members
  refine .step ?_
  intro symbol
  split
  · exact .fail
  · exact .step fun _ => .pure hstart
  · refine (hturn start hstart).bind ?_
    intro state hstate
    exact .step fun turns => ensures_moreMembers after hturn turns state hstate
  · exact .fail

end Loops

-- ── Values ────────────────────────────────────────────────────────────────────────

theorem ensures_listOf {item : Reader Json} {bound : Nat}
    (hitem : Ensures item (·.depth ≤ bound)) : Ensures (listOf item) (·.depth ≤ bound + 1) := by
  refine .step fun _ => .bind (P := fun reversed => ∀ value ∈ reversed, value.depth ≤ bound) ?_ ?_
  · refine ensures_items keeping ?_ (by intro value hmem; exact nomatch hmem)
    intro before hbefore
    refine hitem.bind ?_
    intro value hvalue
    exact .pure (List.forall_mem_cons.mpr ⟨hvalue, hbefore⟩)
  · intro reversed hreversed
    refine .pure (Nat.succ_le_succ (depthItems_le_iff.mpr ?_))
    intro value hmem
    exact hreversed value (List.mem_reverse.mp hmem)

theorem ensures_membersOf {read : Reader Json} {bound : Nat}
    (hread : Ensures read (·.depth ≤ bound)) :
    Ensures (membersOf read) (depth.depthMembers · ≤ bound) := by
  refine .bind (P := fun reversed => ∀ member ∈ reversed, member.2.depth ≤ bound) ?_ ?_
  · refine ensures_members keeping ?_ (by intro member hmem; exact nomatch hmem)
    intro before hbefore
    refine .bind (P := fun member : String × Json => member.2.depth ≤ bound) ?_ ?_
    · exact .step fun name => .step fun _ => hread.bind fun value hvalue => .pure hvalue
    · intro member hmember
      exact .pure (List.forall_mem_cons.mpr ⟨hmember, hbefore⟩)
  · intro reversed hreversed
    refine .pure (depthMembers_le_iff.mpr ?_)
    intro member hmem
    exact hreversed member (List.mem_reverse.mp hmem)

theorem ensures_objectOf {read : Reader Json} {bound : Nat}
    (hread : Ensures read (·.depth ≤ bound)) :
    Ensures (objectOf read) (·.depth ≤ bound + 1) :=
  .step fun _ => (ensures_membersOf hread).bind fun _ hmembers => .pure (Nat.succ_le_succ hmembers)

/-- Only lists and objects have a depth. -/
theorem ensures_valueWith {list object : Reader Json} {bound : Nat}
    (hlist : Ensures list (·.depth ≤ bound)) (hobject : Ensures object (·.depth ≤ bound)) :
    Ensures (valueWith list object) (·.depth ≤ bound) := by
  refine .step ?_
  intro start
  cases start with
  | null => exact .step fun _ => .pure (Nat.zero_le _)
  | yes => exact .step fun _ => .pure (Nat.zero_le _)
  | no => exact .step fun _ => .pure (Nat.zero_le _)
  | text => exact .step fun _ => .pure (Nat.zero_le _)
  | number => exact .step fun _ => .pure (Nat.zero_le _)
  | list => exact hlist
  | object => exact hobject

/-- **A VALUE IS NESTED NO DEEPER THAN THE LEVELS IT IS READ WITH.** -/
theorem ensures_value : ∀ levels : Nat, Ensures (value levels) (·.depth ≤ levels)
  | 0 => ensures_valueWith .fail .fail
  | levels + 1 =>
      ensures_valueWith (ensures_listOf (ensures_value levels))
        (ensures_objectOf (ensures_value levels))

/-- A text that holds one thing holds what its reader returns. -/
theorem Ensures.whole {r : Reader α} {P : α → Prop} (h : Ensures r P) {input : List Symbol} {a : α}
    (heq : Json.whole r input = .ok a) : P a := by
  obtain ⟨rest, hread, -⟩ := whole_eq_ok_iff.mp heq
  exact h hread

/-- **A text spells no value beyond the limit.** -/
theorem Spells.depth_le {input : List Symbol} {tree : Json} (h : Spells input tree) :
    tree.depth ≤ nestingLimit :=
  (ensures_value nestingLimit).whole h

/-- **A text that parses stands for a value within the limit.** -/
theorem depth_le_of_parse {input : List Symbol} {document : Document}
    (h : parse input = .ok document) : document.tree.depth ≤ nestingLimit := by
  obtain ⟨tree, hspells, rfl⟩ := parse_eq_ok_iff.mp h
  exact Nat.le_trans (depth_merged_le tree) hspells.depth_le

end AgentWire.Json
