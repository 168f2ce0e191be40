import AgentWire.Json.Record
import AgentWire.Proofs.Json.Consumption
import AgentWire.Proofs.Json.Merging
import AgentWire.Proofs.Json.RoundTrip

/-!
# Following — a reader beside the one that keeps the value

A text that can be read as a value can be read in other ways from the same place: what is wanted
of the value may be decoded on the way, or the value may be skipped. Such a reader follows the one
that keeps the value (`Follows`): wherever that one has read `v`, this one stops at the same place,
with what `of` makes of `v`, or refuses it as `of` does.

    kept input = .ok (v, rest)    →  r input = (of v).map (·, rest)
    each turn follows one item    →  the loop follows the list, as a fold of its turns

Skipping needs as many levels as there are symbols left. No reader puts a symbol back and each
bracket is one, so the levels outlast the nesting; the bound on the input in `Follows` carries
this through the induction.
-/

namespace AgentWire.Json

open Reader

variable {α β γ σ ρ : Type}

/-- From every input of bounded length on which `kept` succeeds, another reader goes as far, and
    ends with what `of` makes of what was kept. -/
def Follows (bound : Nat) (kept : Reader α) (r : Reader β) (of : α → Except Fault β) : Prop :=
  ∀ ⦃input : List Symbol⦄ ⦃a : α⦄ ⦃rest : List Symbol⦄, input.length ≤ bound →
    kept input = .ok (a, rest) → r input = (of a).map fun b => (b, rest)

variable {bound : Nat}

-- ── Steps ─────────────────────────────────────────────────────────────────────────

/-- A step goes on with what it is known to return. -/
theorem bind_map {x : Reader α} {f : α → Reader β} {input rest : List Symbol}
    {result : Except Fault α} (h : x input = result.map fun a => (a, rest)) :
    (x >>= f) input = result >>= fun a => f a rest := by
  show (x input >>= fun step => f step.1 step.2) = _
  rw [h]
  cases result with
  | error fault => rfl
  | ok a => rfl

/-- Readers that begin with the same step need to follow from there on only. -/
theorem Follows.step {x : Reader γ} {f : γ → Reader α} {g : γ → Reader β}
    {of : α → Except Fault β} (hx : Shrinks x) (h : ∀ c, Follows bound (f c) (g c) of) :
    Follows bound (x >>= f) (x >>= g) of := by
  intro input a rest hbound hkept
  obtain ⟨c, between, hfirst, hsecond⟩ := of_bind_eq_ok hkept
  rw [bind_ok hfirst]
  exact h c (Nat.le_trans (hx hfirst) hbound) hsecond

/-- What is made of the result of a reader that follows. -/
theorem Follows.map {kept : Reader α} {r : Reader β} {of : α → Except Fault β}
    (h : Follows bound kept r of) (f : β → γ) :
    Follows bound kept (do return f (← r)) fun a => (of a).map f := by
  intro input a rest hbound hkept
  rw [bind_map (h hbound hkept)]
  dsimp only
  cases of a with
  | error fault => rfl
  | ok b => rfl

/-- A symbol that is seen past blanks is the first of what is left. -/
theorem exists_tail_of_peekPastBlanks {input rest : List Symbol} {symbol : Symbol}
    (h : peekPastBlanks input = .ok (some symbol, rest)) : ∃ tail, rest = symbol :: tail := by
  have hhead : (input.dropWhile isJsonBlank).head? = some symbol ∧
      input.dropWhile isJsonBlank = rest := Prod.mk.inj (Except.ok.inj h)
  obtain ⟨tail, htail⟩ := List.head?_eq_some_iff.mp hhead.1
  exact ⟨tail, hhead.2.symm.trans htail⟩

-- ── Loops ─────────────────────────────────────────────────────────────────────────

section Loops

variable {kept : Reader α} {turn : σ → Reader σ} {step : σ → α → Except Fault σ}

/-- A turn and the turns behind it are a fold over one more item. -/
theorem bind_foldlM {f : σ → Reader σ} {state : σ} {a : α} {list : List α}
    {input between rest : List Symbol}
    (hturn : turn state input = (step state a).map fun next => (next, between))
    (hmore : ∀ next, f next between = (list.foldlM step next).map fun last => (last, rest)) :
    (turn state >>= f) input = ((a :: list).foldlM step state).map fun last => (last, rest) := by
  rw [bind_map hturn, List.foldlM_cons]
  cases step state a with
  | error fault => rfl
  | ok next => exact hmore next

/-- One item is kept in front of those before it. -/
theorem exists_kept {before all : List α} {input rest : List Symbol}
    (h : (do return (← kept) :: before : Reader (List α)) input = .ok (all, rest)) :
    ∃ a, kept input = .ok (a, rest) ∧ all = a :: before := by
  obtain ⟨a, between, hkept, h⟩ := of_bind_eq_ok h
  cases h
  exact ⟨a, hkept, rfl⟩

/-- A turn among items ends the list, or reads an item behind a comma and turns again. -/
theorem cases_of_moreItems {after : AfterComma} {turns : Nat} {state last : σ}
    {input rest : List Symbol}
    (h : moreItems after turn (turns + 1) state input = .ok (last, rest)) :
    (∃ close, peekPastBlanks input = .ok (some (.char ']'), close) ∧
      last = state ∧ rest = close.tail) ∨
    ∃ comma symbol atItem next behind, peekPastBlanks input = .ok (some (.char ','), comma) ∧
      peekPastBlanks comma.tail = .ok (some symbol, atItem) ∧ symbol ≠ .char ']' ∧
      turn state atItem = .ok (next, behind) ∧
      moreItems after turn turns next behind = .ok (last, rest) := by
  rw [moreItems] at h
  obtain ⟨symbol, atSymbol, hpeek, h⟩ := of_bind_eq_ok h
  split at h
  · cases h
  · cases h
    exact .inl ⟨atSymbol, hpeek, rfl, rfl⟩
  · obtain ⟨_, _, hadvance, h⟩ := of_bind_eq_ok h
    cases hadvance
    obtain ⟨seen, atItem, hnext, h⟩ := of_bind_eq_ok h
    split at h
    · cases h
    · cases h
    · rename_i first hopen
      obtain ⟨next, behind, hitem, hmore⟩ := of_bind_eq_ok h
      exact .inr ⟨atSymbol, first, atItem, next, behind, hpeek, hnext, hopen, hitem, hmore⟩
  · cases h

/-- A list has no items, or a first one and those behind it. -/
theorem cases_of_items {after : AfterComma} {state last : σ} {input rest : List Symbol}
    (h : items after turn state input = .ok (last, rest)) :
    (∃ close, peekPastBlanks input = .ok (some (.char ']'), close) ∧
      last = state ∧ rest = close.tail) ∨
    ∃ symbol atItem next behind, peekPastBlanks input = .ok (some symbol, atItem) ∧
      symbol ≠ .char ']' ∧ turn state atItem = .ok (next, behind) ∧
      moreItems after turn behind.length next behind = .ok (last, rest) := by
  rw [items] at h
  obtain ⟨symbol, atSymbol, hpeek, h⟩ := of_bind_eq_ok h
  split at h
  · cases h
  · cases h
    exact .inl ⟨atSymbol, hpeek, rfl, rfl⟩
  · rename_i first hopen
    obtain ⟨next, behind, hitem, h⟩ := of_bind_eq_ok h
    obtain ⟨_, _, hturns, hmore⟩ := of_bind_eq_ok h
    cases hturns
    exact .inr ⟨first, atSymbol, next, behind, hpeek, hopen, hitem, hmore⟩

theorem follows_moreItems (hkept : Shrinks kept)
    (hturn : ∀ state, Follows bound kept (turn state) (step state)) (after : AfterComma) :
    ∀ (turns : Nat) {before all : List α} {input rest : List Symbol}, input.length ≤ bound →
      moreItems keeping (fun before => return (← kept) :: before) turns before input =
        .ok (all, rest) →
      ∃ list : List α, all = list.reverse ++ before ∧ ∀ state,
        moreItems after turn turns state input =
          (list.foldlM step state).map fun last => (last, rest)
  | 0, before, all, input, rest, _, h => by cases h
  | turns + 1, before, all, input, rest, hbound, h => by
      rcases cases_of_moreItems h with
        ⟨close, hclose, rfl, rfl⟩ |
        ⟨comma, symbol, atItem, kepts, behind, hcomma, hnext, hopen, hitem, hmore⟩
      · exact ⟨[], rfl, fun state => moreItems_close after turn turns state hclose⟩
      · -- the turns behind the item follow a list by induction, and the item goes in front of it
        obtain ⟨a, hread, rfl⟩ := exists_kept hitem
        have hatItem : atItem.length ≤ bound :=
          calc atItem.length
              ≤ comma.tail.length := Shrinks.peekPastBlanks hnext
            _ ≤ comma.length := (List.tail_suffix comma).length_le
            _ ≤ input.length := Shrinks.peekPastBlanks hcomma
            _ ≤ bound := hbound
        obtain ⟨list, rfl, hfollows⟩ := follows_moreItems hkept hturn after turns
          (Nat.le_trans (hkept hread) hatItem) hmore
        refine ⟨a :: list, by rw [List.reverse_cons, List.append_assoc]; rfl, ?_⟩
        intro state
        rw [moreItems_comma after turn turns state hcomma hnext hopen]
        exact bind_foldlM (hturn state hatItem hread) hfollows

/-- **A loop whose turns follow the items follows the list.** -/
theorem follows_items (hkept : Shrinks kept)
    (hturn : ∀ state, Follows bound kept (turn state) (step state)) (after : AfterComma)
    {all : List α} {input rest : List Symbol} (hbound : input.length ≤ bound)
    (h : items keeping (fun before => return (← kept) :: before) [] input = .ok (all, rest))
    (state : σ) :
    items after turn state input =
      (all.reverse.foldlM step state).map fun last => (last, rest) := by
  rcases cases_of_items h with
    ⟨close, hclose, rfl, rfl⟩ | ⟨symbol, atItem, kepts, behind, hnext, hopen, hitem, hmore⟩
  · exact items_close after turn state hclose
  · obtain ⟨a, hread, rfl⟩ := exists_kept hitem
    have hatItem := Nat.le_trans (Shrinks.peekPastBlanks hnext) hbound
    obtain ⟨list, rfl, hfollows⟩ := follows_moreItems hkept hturn after _
      (Nat.le_trans (hkept hread) hatItem) hmore
    rw [items_first after turn state hnext hopen, List.reverse_append, List.reverse_reverse]
    exact bind_foldlM (hturn state hatItem hread) hfollows

/-- A turn among members ends the object, or reads a member behind a comma and turns again. -/
theorem cases_of_moreMembers {after : AfterComma} {turns : Nat} {state last : σ}
    {input rest : List Symbol}
    (h : moreMembers after turn (turns + 1) state input = .ok (last, rest)) :
    (∃ close, peekPastBlanks input = .ok (some (.char '}'), close) ∧
      last = state ∧ rest = close.tail) ∨
    ∃ comma atMember next behind, peekPastBlanks input = .ok (some (.char ','), comma) ∧
      peekPastBlanks comma.tail = .ok (some (.char '"'), atMember) ∧
      turn state atMember = .ok (next, behind) ∧
      moreMembers after turn turns next behind = .ok (last, rest) := by
  rw [moreMembers] at h
  obtain ⟨symbol, atSymbol, hpeek, h⟩ := of_bind_eq_ok h
  split at h
  · cases h
  · cases h
    exact .inl ⟨atSymbol, hpeek, rfl, rfl⟩
  · obtain ⟨_, _, hadvance, h⟩ := of_bind_eq_ok h
    cases hadvance
    obtain ⟨quote, atMember, hquote, h⟩ := of_bind_eq_ok h
    split at h
    · cases h
    · cases h
    · obtain ⟨next, behind, hmember, hmore⟩ := of_bind_eq_ok h
      exact .inr ⟨atSymbol, atMember, next, behind, hpeek, hquote, hmember, hmore⟩
    · cases h
  · cases h

/-- An object has no members, or a first one and those behind it. -/
theorem cases_of_members {after : AfterComma} {state last : σ} {input rest : List Symbol}
    (h : members after turn state input = .ok (last, rest)) :
    (∃ close, peekPastBlanks input = .ok (some (.char '}'), close) ∧
      last = state ∧ rest = close.tail) ∨
    ∃ atMember next behind, peekPastBlanks input = .ok (some (.char '"'), atMember) ∧
      turn state atMember = .ok (next, behind) ∧
      moreMembers after turn behind.length next behind = .ok (last, rest) := by
  rw [members] at h
  obtain ⟨symbol, atSymbol, hpeek, h⟩ := of_bind_eq_ok h
  split at h
  · exact nomatch h
  · cases h
    exact .inl ⟨atSymbol, hpeek, rfl, rfl⟩
  · obtain ⟨next, behind, hmember, h⟩ := of_bind_eq_ok h
    obtain ⟨_, _, hturns, hmore⟩ := of_bind_eq_ok h
    cases hturns
    exact .inr ⟨atSymbol, next, behind, hpeek, hmember, hmore⟩
  · exact nomatch h

theorem follows_moreMembers (hkept : Shrinks kept)
    (hturn : ∀ state, Follows bound kept (turn state) (step state)) (after : AfterComma) :
    ∀ (turns : Nat) {before all : List α} {input rest : List Symbol}, input.length ≤ bound →
      moreMembers keeping (fun before => return (← kept) :: before) turns before input =
        .ok (all, rest) →
      ∃ list : List α, all = list.reverse ++ before ∧ ∀ state,
        moreMembers after turn turns state input =
          (list.foldlM step state).map fun last => (last, rest)
  | 0, before, all, input, rest, _, h => by cases h
  | turns + 1, before, all, input, rest, hbound, h => by
      rcases cases_of_moreMembers h with
        ⟨close, hclose, rfl, rfl⟩ | ⟨comma, atMember, kepts, behind, hcomma, hquote, hmember, hmore⟩
      · exact ⟨[], rfl, fun state => moreMembers_close after turn turns state hclose⟩
      · -- as among items, the member goes in front of those behind it
        obtain ⟨a, hread, rfl⟩ := exists_kept hmember
        have hatMember : atMember.length ≤ bound :=
          calc atMember.length
              ≤ comma.tail.length := Shrinks.peekPastBlanks hquote
            _ ≤ comma.length := (List.tail_suffix comma).length_le
            _ ≤ input.length := Shrinks.peekPastBlanks hcomma
            _ ≤ bound := hbound
        obtain ⟨list, rfl, hfollows⟩ := follows_moreMembers hkept hturn after turns
          (Nat.le_trans (hkept hread) hatMember) hmore
        refine ⟨a :: list, by rw [List.reverse_cons, List.append_assoc]; rfl, ?_⟩
        intro state
        rw [moreMembers_comma after turn turns state hcomma hquote]
        exact bind_foldlM (hturn state hatMember hread) hfollows

/-- **A loop whose turns follow the members follows the object.** -/
theorem follows_members (hkept : Shrinks kept)
    (hturn : ∀ state, Follows bound kept (turn state) (step state)) (after : AfterComma)
    {all : List α} {input rest : List Symbol} (hbound : input.length ≤ bound)
    (h : members keeping (fun before => return (← kept) :: before) [] input = .ok (all, rest))
    (state : σ) :
    members after turn state input =
      (all.reverse.foldlM step state).map fun last => (last, rest) := by
  rcases cases_of_members h with
    ⟨close, hclose, rfl, rfl⟩ | ⟨atMember, kepts, behind, hquote, hmember, hmore⟩
  · exact members_close after turn state hclose
  · obtain ⟨a, hread, rfl⟩ := exists_kept hmember
    have hatMember := Nat.le_trans (Shrinks.peekPastBlanks hquote) hbound
    obtain ⟨list, rfl, hfollows⟩ := follows_moreMembers hkept hturn after _
      (Nat.le_trans (hkept hread) hatMember) hmore
    rw [members_first after turn state hquote, List.reverse_append, List.reverse_reverse]
    exact bind_foldlM (hturn state hatMember hread) hfollows

end Loops

-- ── A value that is kept ──────────────────────────────────────────────────────────

/-- How a value is read from its first symbol on, by the kind that the symbol tells. -/
inductive ReadAt (rest : List Symbol) : Nat → List Symbol → Start → Json → Prop
  | null {levels : Nat} {input : List Symbol} :
      nullWord input = .ok ((), rest) → ReadAt rest levels input .null .null
  | yes {levels : Nat} {input : List Symbol} :
      boolWord true input = .ok ((), rest) → ReadAt rest levels input .yes (.bool true)
  | no {levels : Nat} {input : List Symbol} :
      boolWord false input = .ok ((), rest) → ReadAt rest levels input .no (.bool false)
  | text {levels : Nat} {input : List Symbol} {text : String} :
      stringAtQuote input = .ok (text, rest) → ReadAt rest levels input .text (.string text)
  | number {levels : Nat} {input : List Symbol} {n : Number} :
      ofText readNumber input = .ok (n, rest) → ReadAt rest levels input .number (.number n)
  | list {levels : Nat} {input : List Symbol} {kept : List Json} :
      items keeping (fun before => return (← value levels) :: before) [] input.tail =
        .ok (kept, rest) → ReadAt rest (levels + 1) input .list (.array kept.reverse)
  | object {levels : Nat} {input : List Symbol} {list : List (String × Json)} :
      membersOf (value levels) input.tail = .ok (list, rest) →
        ReadAt rest (levels + 1) input .object (.object list)

/-- A value without brackets is read alike whatever readers lists and objects have. -/
theorem exists_readAt_of_valueWith {list object : Reader Json} {levels : Nat}
    (hlist : ∀ {input rest : List Symbol} {v : Json}, list input = .ok (v, rest) →
      ReadAt rest levels input .list v)
    (hobject : ∀ {input rest : List Symbol} {v : Json}, object input = .ok (v, rest) →
      ReadAt rest levels input .object v)
    {input rest : List Symbol} {v : Json} (h : valueWith list object input = .ok (v, rest)) :
    ∃ start atStart, peekStart input = .ok (start, atStart) ∧
      ReadAt rest levels atStart start v := by
  unfold valueWith at h
  obtain ⟨start, atStart, hpeek, h⟩ := of_bind_eq_ok h
  refine ⟨start, atStart, hpeek, ?_⟩
  cases start with
  | null =>
      obtain ⟨_, after, hword, h⟩ := of_bind_eq_ok h
      cases h
      exact .null hword
  | yes =>
      obtain ⟨_, after, hword, h⟩ := of_bind_eq_ok h
      cases h
      exact .yes hword
  | no =>
      obtain ⟨_, after, hword, h⟩ := of_bind_eq_ok h
      cases h
      exact .no hword
  | text =>
      obtain ⟨text, after, htext, h⟩ := of_bind_eq_ok h
      cases h
      exact .text htext
  | number =>
      obtain ⟨n, after, hnumber, h⟩ := of_bind_eq_ok h
      cases h
      exact .number hnumber
  | list => exact hlist h
  | object => exact hobject h

/-- **What is read of a value** is told by its first symbol. -/
theorem exists_readAt : ∀ {levels : Nat} {input rest : List Symbol} {v : Json},
    value levels input = .ok (v, rest) →
      ∃ start atStart, peekStart input = .ok (start, atStart) ∧ ReadAt rest levels atStart start v
  | 0, input, rest, v, h => by
      refine exists_readAt_of_valueWith ?_ ?_ h
      · -- without a level left, no bracket is opened
        intro input rest v hlist
        exact nomatch hlist
      · intro input rest v hobject
        exact nomatch hobject
  | levels + 1, input, rest, v, h => by
      refine exists_readAt_of_valueWith ?_ ?_ h
      · intro input rest v hlist
        obtain ⟨_, behind, hadvance, hinside⟩ := of_bind_eq_ok hlist
        obtain ⟨kept, after, hitems, hend⟩ := of_bind_eq_ok hinside
        cases hadvance
        cases hend
        exact .list hitems
      · intro input rest v hobject
        obtain ⟨_, behind, hadvance, hinside⟩ := of_bind_eq_ok hobject
        obtain ⟨list, after, hmembers, hend⟩ := of_bind_eq_ok hinside
        cases hadvance
        cases hend
        exact .object hmembers

/-- A start that is seen is that of the symbol past the blanks. -/
theorem exists_symbol_of_peekStart {input rest : List Symbol} {start : Start}
    (h : peekStart input = .ok (start, rest)) :
    ∃ symbol, peekPastBlanks input = .ok (some symbol, rest) ∧ startOf? symbol = some start := by
  unfold peekStart at h
  obtain ⟨seen, after, hpeek, hseen⟩ := of_bind_eq_ok h
  cases seen with
  | none => exact nomatch hseen
  | some symbol =>
      dsimp only at hseen
      cases hfound : startOf? symbol with
      | none =>
          rw [hfound] at hseen
          exact nomatch hseen
      | some found =>
          rw [hfound] at hseen
          cases hseen
          exact ⟨symbol, hpeek, hfound⟩

/-- Behind the first symbol of a value there is less than there was. -/
theorem length_tail_of_peekStart {input rest : List Symbol} {start : Start}
    (h : peekStart input = .ok (start, rest)) : rest.tail.length < input.length := by
  have hshort := Shrinks.peekStart h
  obtain ⟨symbol, hpeek, -⟩ := exists_symbol_of_peekStart h
  obtain ⟨tail, rfl⟩ := exists_tail_of_peekPastBlanks hpeek
  exact hshort

-- ── Skipping ──────────────────────────────────────────────────────────────────────

theorem skipText_escape {input rest : List Symbol} (h : skipEscape input = .ok ((), rest)) :
    skipText (.char '\\' :: input) = skipText rest := by
  rw [skipText]
  split
  · rename_i heq
    cases h.symm.trans heq
  · rename_i heq
    cases h.symm.trans heq
    rfl

/-- A code unit is skipped by its digits. -/
theorem skipText_codeUnit {input rest : List Symbol} {n : Nat}
    (h : readHexFour input = .ok (n, rest)) :
    skipText (.char '\\' :: .char 'u' :: input) = skipText rest := by
  refine skipText_escape ?_
  show (readHexFour input).map _ = _
  rw [h]
  rfl

/-- The second half of a pair of surrogates is skipped as an escape of its own. -/
theorem skipText_of_readTrailing {leading : Nat} {input rest : List Symbol} {c : Char}
    (h : readTrailing leading input = .ok (c, rest)) : skipText input = skipText rest := by
  unfold readTrailing at h
  split at h
  · split at h
    · exact nomatch h
    · rename_i hunit
      split_ifs at h
      rw [← (Prod.mk.inj (Except.ok.inj h)).2]
      exact skipText_codeUnit hunit
  · exact nomatch h
  · exact nomatch h
  · exact nomatch h

/-- Code units that are read are skipped, in two steps where they are a pair of surrogates. -/
theorem skipText_of_readCodeUnits {input rest : List Symbol} {c : Char}
    (h : readCodeUnits input = .ok (c, rest)) :
    skipText (.char '\\' :: .char 'u' :: input) = skipText rest := by
  rw [readCodeUnits] at h
  split at h
  · exact nomatch h
  · rename_i hunit
    rw [skipText_codeUnit hunit]
    split_ifs at h with htrailing hleading
    · exact skipText_of_readTrailing h
    · cases h
      rfl

/-- An escape that is read is skipped. -/
theorem skipText_of_readEscape {input rest : List Symbol} {c : Char}
    (h : readEscape input = .ok (c, rest)) : skipText (.char '\\' :: input) = skipText rest := by
  unfold readEscape at h
  split at h
  · cases h
  · exact skipText_of_readCodeUnits h
  · rename_i letter tail hletter
    split at h
    · rename_i meant hshort
      cases h
      refine skipText_escape ?_
      rw [skipEscape.eq_3 _ _ hletter, hshort]
    · cases h
  · cases h

/-- The body of a string that is read is skipped. -/
theorem skipText_of_readStringBody {input : List Symbol} :
    ∀ {body rest : List Symbol}, readStringBody input = .ok (body, rest) →
      skipText input = .ok ((), rest) := by
  induction input using readStringBody.induct with
  | case1 =>
      intro body rest h
      rw [readStringBody] at h
      cases h
  | case2 tail =>
      intro body rest h
      rw [readStringBody] at h
      cases h
      rw [skipText]
  | case3 tail cause hescape =>
      intro body rest h
      rw [readStringBody] at h
      split at h
      · cases h
      · rename_i heq
        cases hescape.symm.trans heq
  | case4 tail c after hescape ih =>
      -- an escape is skipped by itself, and what is behind it by induction
      intro body rest h
      rw [readStringBody_escape hescape] at h
      obtain ⟨⟨inner, left⟩, hinner, heq⟩ := exists_of_map_eq_ok h
      cases heq
      rw [skipText_of_readEscape hescape]
      exact ih hinner
  | case5 symbol tail hquote hescape hbare =>
      intro body rest h
      rw [readStringBody.eq_4 _ _ hquote hescape, if_pos hbare] at h
      cases h
  | case6 symbol tail hquote hescape hbare ih =>
      -- a symbol that stands for itself
      intro body rest h
      rw [readStringBody.eq_4 _ _ hquote hescape, if_neg hbare] at h
      obtain ⟨⟨inner, left⟩, hinner, heq⟩ := exists_of_map_eq_ok h
      cases heq
      rw [skipText.eq_4 _ _ hquote hescape, if_neg hbare]
      exact ih hinner

theorem skipText_of_readText {input rest : List Symbol} {text : String}
    (h : readText input = .ok (text, rest)) : skipText input = .ok ((), rest) := by
  obtain ⟨body, hbody⟩ := exists_body_of_readText h
  exact skipText_of_readStringBody hbody

theorem skipNumber_of_readNumber {input rest : List Symbol} {n : Number}
    (h : readNumber input = .ok (n, rest)) : skipNumber input = .ok ((), rest) := by
  obtain ⟨text, htext⟩ := exists_text_of_readNumber h
  unfold skipNumber
  rw [htext]

/-- A fold that refuses nothing and keeps nothing. -/
theorem foldlM_unit (list : List α) :
    list.foldlM (fun (_ : Unit) (_ : α) => (.ok () : Except Fault Unit)) () = .ok () := by
  induction list with
  | nil => rfl
  | cons a rest ih => exact ih

/-- A string that is read from its quote on is skipped from there on. -/
theorem skipQuoted {input rest : List Symbol} {text : String}
    (h : stringAtQuote input = .ok (text, rest)) :
    (do advance; ofText skipText : Reader Unit) input = .ok ((), rest) := by
  obtain ⟨_, atText, hadvance, htext⟩ := of_bind_eq_ok h
  rw [bind_ok hadvance]
  exact ofText_ok (skipText_of_readText (of_ofText_eq_ok htext))

/-- A member that is read is skipped if its value is. -/
theorem follows_skipMember {read : Reader Json} {skipped : Reader Unit}
    (h : Follows bound read skipped fun _ => .ok ()) :
    Follows bound (memberOf read) (skipMember skipped) fun _ => .ok () := by
  intro input member rest hbound hmember
  obtain ⟨name, atColon, hname, hbehind⟩ := of_bind_eq_ok hmember
  obtain ⟨_, atValue, hcolon, hvalue⟩ := of_bind_eq_ok hbehind
  obtain ⟨v, after, hread, hend⟩ := of_bind_eq_ok hvalue
  cases hend
  have hatValue : atValue.length ≤ bound :=
    Nat.le_trans (Shrinks.colon hcolon) (Nat.le_trans (Shrinks.stringAtQuote hname) hbound)
  show ((do advance; ofText skipText : Reader Unit) >>= fun _ => colon >>= fun _ => skipped) input =
    _
  rw [bind_ok (skipQuoted hname), bind_ok hcolon, h hatValue hread]

/-- **A VALUE THAT IS READ IS SKIPPED** with as many levels as there are symbols. -/
theorem follows_skip : ∀ levels size : Nat,
    Follows size (value levels) (skip size) fun _ => .ok ()
  | levels, size, input, v, rest, hbound, h => by
      obtain ⟨start, atStart, hpeek, hread⟩ := exists_readAt h
      have htail := Nat.lt_of_lt_of_le (length_tail_of_peekStart hpeek) hbound
      obtain ⟨size, rfl⟩ := Nat.exists_eq_succ_of_ne_zero (Nat.ne_of_gt (Nat.zero_lt_of_lt htail))
      rw [skip, skipWith, bind_ok hpeek]
      cases hread with
      | null hword => exact hword
      | yes hword => exact hword
      | no hword => exact hword
      | text htext => exact skipQuoted htext
      | number hnumber =>
          exact ofText_ok (skipNumber_of_readNumber (of_ofText_eq_ok hnumber))
      | list hitems =>
          -- the bracket used up a symbol, so the items have a level for each symbol that is left
          rename_i levels kept
          have hloop := follows_items (Shrinks.value levels) (fun _ => follows_skip levels size)
            skipping (Nat.le_of_lt_succ htail) hitems ()
          rw [foldlM_unit] at hloop
          exact hloop
      | object hmembers =>
          rename_i levels list
          obtain ⟨kept, after, hkept, hend⟩ := of_bind_eq_ok hmembers
          cases hend
          have hloop := follows_members (Shrinks.value levels).memberOf
            (fun _ => follows_skipMember (follows_skip levels size)) skipping
            (Nat.le_of_lt_succ htail) hkept ()
          rw [foldlM_unit] at hloop
          exact hloop

theorem follows_skipValue (levels : Nat) :
    Follows bound (value levels) skipValue fun _ => .ok () := by
  intro input v rest _ h
  exact follows_skip levels input.length (Nat.le_refl _) h

end AgentWire.Json
