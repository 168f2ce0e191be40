import AgentWire.Proofs.Json.Direct

/-!
# Choices — one of several names, as a string or as an object

A choice is written as a string, or as an object whose only member has its name and holds nothing.
The decoder reads such an object on its way and stops at the first thing that is not as it should
be: a name that nobody knows, a value that is something, a second member. What it does is told by
the first member of the object and by the symbol behind it (`MembersAt`).
-/

namespace AgentWire.Json

open Reader

variable {α σ : Type} {bound levels outer : Nat}

-- ── The first member of an object ─────────────────────────────────────────────────

/-- How the members of an object are read: there is none, or one, or one and a comma behind it. -/
inductive MembersAt (read : Reader Json) :
    List Symbol → List (String × Json) → List Symbol → Prop
  | none {input close : List Symbol} :
      peekPastBlanks input = .ok (some (.char '}'), close) → MembersAt read input [] close.tail
  | one {input atName behind close : List Symbol} {member : String × Json} :
      peekPastBlanks input = .ok (some (.char '"'), atName) →
        memberOf read atName = .ok (member, behind) →
        peekPastBlanks behind = .ok (some (.char '}'), close) →
        MembersAt read input [member] close.tail
  | several {input atName behind comma rest : List Symbol} {member next : String × Json}
      {others : List (String × Json)} :
      peekPastBlanks input = .ok (some (.char '"'), atName) →
        memberOf read atName = .ok (member, behind) →
        peekPastBlanks behind = .ok (some (.char ','), comma) →
        MembersAt read input (member :: next :: others) rest

/-- What is kept last stands before what was kept already. -/
theorem exists_append_of_moreMembers {kept : Reader σ} {after : AfterComma} :
    ∀ (turns : Nat) {before all : List σ} {input rest : List Symbol},
      moreMembers after (fun before => return (← kept) :: before) turns before input =
        .ok (all, rest) → ∃ list, all = list ++ before
  | 0, _, _, _, _, h => nomatch h
  | turns + 1, before, all, input, rest, h => by
      rcases cases_of_moreMembers h with ⟨_, -, rfl, -⟩ | ⟨_, _, kepts, _, -, -, hmember, hmore⟩
      · exact ⟨[], rfl⟩
      · obtain ⟨a, -, rfl⟩ := exists_kept hmember
        obtain ⟨list, rfl⟩ := exists_append_of_moreMembers turns hmore
        exact ⟨list ++ [a], by rw [List.append_assoc]; rfl⟩

/-- **What is read of an object** is told by its first member and the symbol behind it. -/
theorem membersAt_of_membersOf {read : Reader Json} {input rest : List Symbol}
    {list : List (String × Json)} (h : membersOf read input = .ok (list, rest)) :
    MembersAt read input list rest := by
  obtain ⟨kept, after, hkept, hend⟩ := of_bind_eq_ok h
  cases hend
  rcases cases_of_members hkept with
    ⟨close, hclose, rfl, rfl⟩ | ⟨atName, kepts, behind, hquote, hmember, hmore⟩
  · exact .none hclose
  · obtain ⟨member, hread, rfl⟩ := exists_kept hmember
    -- the loop has come to an end, so there was a turn left for it
    obtain ⟨turns, hturns⟩ : ∃ turns, behind.length = turns + 1 := by
      cases hlength : behind.length with
      | zero =>
          rw [hlength] at hmore
          exact nomatch hmore
      | succ turns => exact ⟨turns, rfl⟩
    rw [hturns] at hmore
    rcases cases_of_moreMembers hmore with
      ⟨close, hclose, rfl, rfl⟩ | ⟨comma, _, kepts, _, hcomma, -, hnext, hothers⟩
    · exact .one hquote hread hclose
    · obtain ⟨next, -, rfl⟩ := exists_kept hnext
      obtain ⟨others, rfl⟩ := exists_append_of_moreMembers turns hothers
      rw [List.reverse_append]
      exact .several hquote hread hcomma

/-- An object of one member is read as its member is. -/
theorem membersOf_of_memberOf {read : Reader Json} {input atName behind close : List Symbol}
    {member : String × Json} (hpeek : peekPastBlanks input = .ok (some (.char '"'), atName))
    (hmember : memberOf read atName = .ok (member, behind))
    (hclose : peekPastBlanks behind = .ok (some (.char '}'), close)) :
    membersOf read input = .ok ([member], close.tail) := by
  have hturn : (do return (← memberOf read) :: [] : Reader (List (String × Json))) atName =
      .ok ([member], behind) := bind_ok hmember
  obtain ⟨turns, hturns⟩ : ∃ turns, behind.length = turns + 1 := by
    obtain ⟨tail, rfl⟩ := exists_tail_of_peekPastBlanks hclose
    exact Nat.exists_eq_succ_of_ne_zero
      (Nat.ne_of_gt (Nat.lt_of_lt_of_le (Nat.zero_lt_succ _) (Shrinks.peekPastBlanks hclose)))
  have hmembers : members keeping (fun before => return (← memberOf read) :: before) [] input =
      .ok ([member], close.tail) := by
    rw [members_first keeping _ [] hpeek, bind_ok hturn]
    show moreMembers keeping _ behind.length [member] behind = _
    rw [hturns]
    exact moreMembers_close keeping _ turns _ hclose
  exact bind_ok hmembers

-- ── Choices ───────────────────────────────────────────────────────────────────────

namespace Decoder

variable {known : List String} {ofName? : String → Option α}

/-- A choice is found by its name, or refused. -/
def chosenOf (known : List String) (ofName? : String → Option α) (name : String) :
    Except Fault α :=
  match ofName? name with
  | some chosen => .ok chosen
  | none => .error (.unknownVariant name known)

/-- A string is decoded as the choice of that name, and so is an object whose only member has the
    name and holds nothing. -/
def choiceOf (known : List String) (ofName? : String → Option α) : Json → Except Fault α
  | .string name => chosenOf known ofName? name
  | .object ((name, v) :: more) => do
    let chosen ← chosenOf known ofName? name
    if v = .null then
      if more = [] then .ok chosen else .error (.text .noValue)
    else .error (.wrongKind v.found .unit)
  | _ => .error (.text .noValue)

theorem choose_eq_map (name : String) (input : List Symbol) :
    choose known ofName? name input =
      (chosenOf known ofName? name).map fun chosen => (chosen, input) := by
  unfold choose chosenOf
  cases ofName? name with
  | none => rfl
  | some chosen => rfl

/-- What is no string and no object is refused. -/
theorem choice_of_ne {input atStart : List Symbol} {symbol : Symbol}
    (hpeek : peekPastBlanks input = .ok (some symbol, atStart)) (hquote : symbol ≠ .char '"')
    (hbrace : symbol ≠ .char '{') :
    choice known ofName? levels input = .error (.text .noValue) := by
  unfold choice
  rw [bind_ok hpeek]
  refine congrFun (?_ : _ = (fail .noValue : Reader α)) atStart
  split
  · rename_i heq
    exact nomatch heq
  · rename_i heq
    exact absurd (Option.some.inj heq) hquote
  · rename_i heq
    exact absurd (Option.some.inj heq) hbrace
  · rfl

/-- What a choice holds is nothing, or it is refused. -/
theorem unit_of_value {next : Unit → Reader α} {input rest : List Symbol} {v : Json}
    (h : value outer input = .ok (v, rest)) :
    (peekStart >>= fun start =>
      match start with
      | .null => nullWord >>= next
      | _ => wrongKind .unit >>= next) input =
        if v = .null then next () rest else .error (.wrongKind v.found .unit) := by
  obtain ⟨start, atStart, hpeek, hread⟩ := exists_readAt h
  have hrefused : wrongKind .unit atStart =
      (Except.error (.wrongKind v.found .unit) : Except Fault Unit).map fun a => (a, rest) :=
    wrongKind_of_peekStart hpeek h .unit
  rw [bind_ok hpeek]
  cases hread with
  | null hword => exact bind_ok hword
  | _ => exact bind_map hrefused

/-- Reads the closing brace behind a choice. -/
def closeChoice (chosen : α) : Reader α := do
  match ← peekPastBlanks with
  | none => fail .endInObject
  | some (.char '}') =>
    advance
    return chosen
  | some _ => fail .noValue

/-- A choice in the form of an object is its name, then nothing, then what stands behind it. -/
theorem inside_of_memberOf {input atName behind rest : List Symbol} {name : String} {v : Json}
    {more : List (String × Json)} (hpeek : peekPastBlanks input = .ok (some (.char '"'), atName))
    (hmember : memberOf (value outer) atName = .ok ((name, v), behind))
    (hclose : ∀ chosen : α, closeChoice chosen behind =
      if more = [] then .ok (chosen, rest) else .error (.text .noValue)) :
    choice.inside known ofName? levels input =
      (choiceOf known ofName? (.object ((name, v) :: more))).map fun chosen => (chosen, rest) := by
  obtain ⟨_, atColon, hname, hbehind⟩ := of_bind_eq_ok hmember
  obtain ⟨_, atValue, hcolon, hvalue⟩ := of_bind_eq_ok hbehind
  obtain ⟨_, _, hread, hend⟩ := of_bind_eq_ok hvalue
  cases hend
  calc choice.inside known ofName? levels input
      = (chosenOf known ofName? name >>= fun chosen =>
          if v = .null then closeChoice chosen behind else .error (.wrongKind v.found .unit)) := by
        unfold choice.inside
        rw [bind_ok hpeek]
        show (stringAtQuote >>= _) atName = _
        rw [bind_ok hname, bind_map (choose_eq_map name atColon)]
        refine congrArg _ (funext fun chosen => ?_)
        rw [bind_ok hcolon]
        exact unit_of_value hread
    _ = _ := by
        rw [choiceOf]
        cases chosenOf known ofName? name with
        | error fault => rfl
        | ok chosen =>
            show (if _ then _ else _) = Except.map _ (if _ then if _ then _ else _ else _)
            rw [hclose]
            split_ifs
            · rfl
            · rfl
            · rfl

/-- The inside of a choice that is written as an object is decoded as its members say. -/
theorem inside_of_membersAt {input rest : List Symbol} {list : List (String × Json)}
    (h : MembersAt (value outer) input list rest) :
    choice.inside known ofName? levels input =
      (choiceOf known ofName? (.object list)).map fun chosen => (chosen, rest) := by
  cases h with
  | none hpeek =>
      unfold choice.inside
      rw [bind_ok hpeek]
      rfl
  | one hpeek hmember hclose =>
      refine inside_of_memberOf hpeek hmember fun chosen => ?_
      rw [if_pos rfl]
      exact bind_ok hclose
  | several hpeek hmember hcomma =>
      refine inside_of_memberOf hpeek hmember fun chosen => ?_
      rw [if_neg (List.cons_ne_nil _ _)]
      exact bind_ok hcomma

/-- **A choice is decoded as what it is written as.** -/
theorem follows_choice :
    Follows bound (value outer) (choice known ofName? (levels + 1)) (choiceOf known ofName?) := by
  intro input v rest _ h
  obtain ⟨start, atStart, hpeek, hread⟩ := exists_readAt h
  obtain ⟨symbol, hsymbol, hstart⟩ := exists_symbol_of_peekStart hpeek
  cases hread with
  | text htext =>
      unfold choice
      rw [bind_ok hsymbol, eq_of_startOf? hstart rfl]
      exact (bind_ok htext).trans (choose_eq_map _ _)
  | object hmembers =>
      unfold choice
      rw [bind_ok hsymbol, eq_of_startOf? hstart rfl]
      show choice.inside known ofName? levels atStart.tail = _
      exact inside_of_membersAt (membersAt_of_membersOf hmembers)
  | _ =>
      refine choice_of_ne hsymbol ?_ ?_
      · rintro rfl
        exact nomatch hstart
      · rintro rfl
        exact nomatch hstart

end Decoder

end AgentWire.Json
