import AgentWire.Json.Kind
import AgentWire.Proofs.Json.Following
import Mathlib.Data.List.DropRight

/-!
# Direct decoding — what a decoder makes of a value that it does not keep

A decoder reads what it wants straight from the text. Where the text holds a value, it ends as if
the value had been read first and looked at then: it goes as far, and succeeds or is refused by
what the value is. So a record that is written as an object is a fold over the members as they are
written, each of which is skipped, refused for its name, or taken into its field:

    r.decoder input = (members.foldlM (r.takeMember take) ([], r.start) >>= finish).map (·, rest)
-/

namespace AgentWire.Json

open Reader

variable {α β ρ : Type} {bound levels outer : Nat}

-- ── Before and behind blanks ──────────────────────────────────────────────────────

/-- Blanks that have been passed over are not there any more. -/
theorem peekPastBlanks_again {input rest : List Symbol} {seen : Option Symbol}
    (h : peekPastBlanks input = .ok (seen, rest)) : peekPastBlanks rest = .ok (seen, rest) := by
  cases h
  show Except.ok ((List.dropWhile isJsonBlank (List.dropWhile isJsonBlank input)).head?,
    List.dropWhile isJsonBlank (List.dropWhile isJsonBlank input)) = _
  rw [List.dropWhile_idempotent]

/-- A value is read behind the blanks as it is from before them. -/
theorem value_of_peekPastBlanks {input rest : List Symbol} {seen : Option Symbol}
    (h : peekPastBlanks input = .ok (seen, rest)) : value levels rest = value levels input := by
  have hpeek : peekStart rest = peekStart input := by
    unfold peekStart
    rw [bind_ok h, bind_ok (peekPastBlanks_again h)]
  cases levels with
  | zero =>
      show (peekStart rest >>= _) = (peekStart input >>= _)
      rw [hpeek]
  | succ levels =>
      show (peekStart rest >>= _) = (peekStart input >>= _)
      rw [hpeek]

/-- An outcome that is lifted leaves everything. -/
theorem ofExcept_eq_map (result : Except Fault α) (input : List Symbol) :
    (ofExcept result : Reader α) input = result.map fun a => (a, input) := by
  cases result with
  | error fault => rfl
  | ok a => rfl

-- ── Single values ─────────────────────────────────────────────────────────────────

/-- What is of the wrong kind is refused with what it is. -/
theorem follows_wrongKind (wanted : Wanted) :
    Follows bound (value levels) (wrongKind wanted : Reader α) fun v =>
      .error (.wrongKind v.found wanted) := by
  intro input v rest _ h
  obtain ⟨start, atStart, hpeek, hread⟩ := exists_readAt h
  unfold wrongKind
  rw [bind_ok hpeek]
  cases hread with
  | null hword => exact bind_ok hword
  | yes hword => exact bind_ok hword
  | no hword => exact bind_ok hword
  | text htext => exact bind_ok htext
  | number hnumber => exact bind_ok hnumber
  | list _ => rfl
  | object _ => rfl

/-- A value is refused behind the blanks as it is from before them. -/
theorem wrongKind_of_peekStart {input atStart rest : List Symbol} {start : Start} {v : Json}
    (hpeek : peekStart input = .ok (start, atStart)) (h : value levels input = .ok (v, rest))
    (wanted : Wanted) :
    (wrongKind wanted : Reader α) atStart = .error (.wrongKind v.found wanted) := by
  obtain ⟨symbol, hsymbol, -⟩ := exists_symbol_of_peekStart hpeek
  rw [← value_of_peekPastBlanks hsymbol] at h
  exact follows_wrongKind wanted (Nat.le_refl _) h

namespace Decoder

/-- Any value is decoded as what it stands for. -/
theorem follows_any :
    Follows bound (value levels) (any levels) fun v => .ok (Document.ofJson v) := by
  intro input v rest _ h
  unfold any
  rw [bind_ok h]
  rfl

/-- A text is decoded as itself, and anything else is refused. -/
def textOf : Json → Except Fault String
  | .string text => .ok text
  | other => .error (.wrongKind other.found .text)

theorem textOf_eq_ok_iff {v : Json} {text : String} : textOf v = .ok text ↔ v = .string text := by
  cases v <;> simp [textOf]

theorem follows_text : Follows bound (value outer) (text levels) textOf := by
  intro input v rest _ h
  obtain ⟨start, atStart, hpeek, hread⟩ := exists_readAt h
  have hrefused := wrongKind_of_peekStart (α := String) hpeek h .text
  unfold text
  rw [bind_ok hpeek]
  cases hread with
  | text htext => exact htext
  | _ => exact hrefused

/-- An integer that thirty-two bits hold is decoded as itself, and anything else is refused. -/
def signed32Of : Json → Except Fault Int32
  | .number (.integer n _) =>
    if -2_147_483_648 ≤ n ∧ n < 2_147_483_648 then .ok (Int32.ofInt n)
    else .error (.outOfRange n .signed32)
  | other => .error (.wrongKind other.found .signed32)

theorem signed32Of_eq_ok_iff {v : Json} {n : Int32} :
    signed32Of v = .ok n ↔ v = .number (.ofInt32 n) := by
  constructor
  · intro h
    unfold signed32Of at h
    split at h
    · split at h
      · rename_i n' word hrange
        cases h
        have hsame : (Int32.ofInt n').toInt = n' := Int32.toInt_ofInt_of_le hrange.1 hrange.2
        simp only [Number.ofInt32, hsame]
      · cases h
    · cases h
  · rintro rfl
    have hrange : -2147483648 ≤ n.toInt ∧ n.toInt < 2147483648 := ⟨n.le_toInt, n.toInt_lt⟩
    show (if -2_147_483_648 ≤ n.toInt ∧ n.toInt < 2_147_483_648 then _ else _) = _
    rw [if_pos hrange, Int32.ofInt_toInt]

theorem follows_signed32 : Follows bound (value outer) (signed32 levels) signed32Of := by
  intro input v rest _ h
  obtain ⟨start, atStart, hpeek, hread⟩ := exists_readAt h
  have hrefused := wrongKind_of_peekStart (α := Int32) hpeek h .signed32
  unfold signed32
  rw [bind_ok hpeek]
  cases hread with
  | @number _ _ n hnumber =>
      refine (bind_ok hnumber).trans ?_
      cases n with
      | double x => rfl
      | integer n word =>
          dsimp only [signed32Of]
          split
          · rfl
          · rfl
  | _ => exact hrefused

/-- The members of an object are decoded, each name once, and anything else is refused. -/
theorem follows_members :
    Follows bound (value levels) (members levels) fun v =>
      match v.members? with
      | some list => .ok (collect (merged.mergedMembers list))
      | none => .error (.wrongKind v.found .map) := by
  intro input v rest _ h
  obtain ⟨start, atStart, hpeek, hread⟩ := exists_readAt h
  have hrefused := wrongKind_of_peekStart (α := List (String × Json)) hpeek h .map
  unfold members
  rw [bind_ok hpeek]
  cases hread with
  | object hmembers =>
      show sectionMembers _ atStart.tail = _
      exact bind_ok hmembers
  | _ => exact hrefused

/-- The symbol that begins a value, unless it is a number. -/
def opening : Start → Option Char
  | .null => some 'n'
  | .yes => some 't'
  | .no => some 'f'
  | .text => some '"'
  | .number => none
  | .list => some '['
  | .object => some '{'

/-- No other symbol begins a value of the kind. -/
theorem eq_of_startOf? {symbol : Symbol} {start : Start} {c : Char}
    (h : startOf? symbol = some start) (hc : opening start = some c) : symbol = .char c := by
  unfold startOf? at h
  split at h
  case h_7 =>
    split at h
    · cases h
      exact nomatch hc
    · exact nomatch h
  case h_8 => exact nomatch h
  all_goals
    cases h
    cases hc
    rfl

/-- The word for nothing is decoded as nothing, and any other value as it would be if it had to be
    there. -/
def optionalOf (of : Json → Except Fault α) (v : Json) : Except Fault (Option α) :=
  if v = .null then .ok none else (of v).map some

theorem optionalOf_textOf_eq_ok_iff {v : Json} {x : Option String} :
    optionalOf textOf v = .ok x ↔
      (v = .null ∧ x = none) ∨ ∃ text, v = .string text ∧ x = some text := by
  cases v <;> simp [optionalOf, textOf, Except.map, eq_comm]

theorem follows_optional {decoder : Decoder α} {of : Json → Except Fault α}
    (h : ∀ bound : Nat, Follows bound (value outer) (decoder levels) of) :
    Follows bound (value outer) (optional decoder levels) (optionalOf of) := by
  intro input v rest _ hkept
  obtain ⟨start, atStart, hpeek, hread⟩ := exists_readAt hkept
  obtain ⟨symbol, hsymbol, hstart⟩ := exists_symbol_of_peekStart hpeek
  unfold optional
  rw [bind_ok hsymbol]
  by_cases hnull : start = .null
  · -- both read the word for nothing
    subst hnull
    rw [eq_of_startOf? hstart rfl]
    cases hread with
    | null hword => exact bind_ok hword
  · -- any other value begins with another letter than that word
    have hvalue : v ≠ .null := by
      rintro rfl
      cases hread
      exact hnull rfl
    have hletter : symbol ≠ .char 'n' := by
      rintro rfl
      exact hnull (Option.some.inj hstart).symm
    rw [← value_of_peekPastBlanks hsymbol] at hkept
    show _ = Except.map _ (if v = .null then _ else _)
    rw [if_neg hvalue, ← (h _).map some (Nat.le_refl _) hkept]
    refine congrFun ?_ atStart
    split
    · rename_i heq
      exact absurd (Option.some.inj heq) hletter
    · rfl

/-- What is checked is what has been decoded. -/
theorem checked_eq_map {decoder : Decoder α} {check : α → Except Fault β}
    {input rest : List Symbol} {result : Except Fault α}
    (h : decoder levels input = result.map fun a => (a, rest)) :
    checked decoder check levels input = (result >>= check).map fun b => (b, rest) := by
  show (decoder levels >>= fun found => ofExcept (check found)) input = _
  rw [bind_map h]
  cases result with
  | error fault => rfl
  | ok a => exact ofExcept_eq_map (check a) rest

end Decoder

/-- A whole text is read as its beginning is, if nothing but blanks is left. -/
theorem whole_eq_of_map {r : Reader α} {input rest : List Symbol} {result : Except Fault α}
    (h : r input = result.map fun a => (a, rest))
    (hblank : (rest.dropWhile isJsonBlank).isEmpty = true) : whole r input = result := by
  rw [whole, h]
  cases result with
  | error fault => rfl
  | ok a => exact if_pos hblank

-- ── Members ───────────────────────────────────────────────────────────────────────

/-- Reads a member from the quote of its name on, given a reader for the values of each name. -/
def memberBy (read : String → Reader Json) : Reader (String × Json) := do
  let name ← stringAtQuote
  colon
  return (name, ← read name)

/-- Reads the members of an object after its opening brace, given a reader for the values of each
    name. -/
def membersBy (read : String → Reader Json) : Reader (List (String × Json)) := do
  let reversed ← members keeping (fun before => return (← memberBy read) :: before) []
  return reversed.reverse

theorem Shrinks.memberBy {read : String → Reader Json} (h : ∀ name, Shrinks (read name)) :
    Shrinks (Json.memberBy read) :=
  .bind .stringAtQuote fun name => .bind .colon fun _ => .bind (h name) fun _ => .pure _

/-- An object that is read as a value is read member by member. -/
theorem exists_membersBy_of_value {input rest : List Symbol} {list : List (String × Json)}
    (h : value (levels + 1) input = .ok (.object list, rest)) :
    ∃ atStart, peekStart input = .ok (.object, atStart) ∧
      membersBy (fun _ => value levels) atStart.tail = .ok (list, rest) := by
  obtain ⟨start, atStart, hpeek, hread⟩ := exists_readAt h
  generalize hlist : Json.object list = v at hread
  cases hread with
  | object hmembers =>
      cases hlist
      exact ⟨atStart, hpeek, hmembers⟩
  | _ => exact nomatch hlist

-- ── Records ───────────────────────────────────────────────────────────────────────

/-- A field is read as `result` says if its decoder follows what is stored of it. -/
theorem Follows.field {kept : Reader Json} {decoder : Decoder α} {of : Json → Except Fault α}
    (h : Follows bound kept (decoder levels) of) {name : String} {set : ρ → α → ρ} {state : ρ}
    {result : Json → Except Fault ρ} (hresult : ∀ v, (of v).map (set state) = result v) :
    Follows bound kept ((Field.of name decoder set).read state levels) result := by
  intro input v rest hbound hkept
  rw [← hresult]
  exact h.map (set state) hbound hkept

namespace Record

variable (r : Record ρ α)

/-- Takes a member into a record: one that nobody knows says nothing, and one that has been there
    before is refused. The state remembers the fields seen. -/
def takeMember (take : ρ → String × Json → Except Fault ρ) (state : List String × ρ)
    (member : String × Json) : Except Fault (List String × ρ) :=
  if member.1 ∉ r.fields.map (·.name) then .ok state
  else if member.1 ∈ state.1 then .error (.repeatedField member.1)
  else (take state.2 member).map fun next => (member.1 :: state.1, next)

variable {r} {take : ρ → String × Json → Except Fault ρ}

section Turn

variable {name : String} {v : Json} {seen : List String} {state : ρ}

theorem takeMember_of_unknown (h : name ∉ r.fields.map (·.name)) :
    r.takeMember take (seen, state) (name, v) = .ok (seen, state) :=
  if_pos h

theorem takeMember_of_seen (hknown : name ∈ r.fields.map (·.name)) (hseen : name ∈ seen) :
    r.takeMember take (seen, state) (name, v) = .error (.repeatedField name) := by
  rw [takeMember, if_neg (not_not.mpr hknown), if_pos hseen]

theorem takeMember_of_new (hknown : name ∈ r.fields.map (·.name)) (hnew : name ∉ seen) :
    r.takeMember take (seen, state) (name, v) =
      (take state (name, v)).map fun next => (name :: seen, next) := by
  rw [takeMember, if_neg (not_not.mpr hknown), if_neg hnew]

end Turn

/-- **A member is read into a record as it is taken into it**, if each field follows its value and
    no other value is in the way. -/
theorem follows_member {read : String → Reader Json}
    (hfields : ∀ field ∈ r.fields, ∀ (bound : Nat) (state : ρ),
      Follows bound (read field.name) (field.read state levels) fun v => take state (field.name, v))
    (hothers : ∀ name, name ∉ r.fields.map (·.name) → ∀ bound : Nat,
      Follows bound (read name) skipValue fun _ => .ok ())
    (state : List String × ρ) :
    Follows bound (memberBy read) (r.member levels state) (r.takeMember take state) := by
  obtain ⟨seen, state⟩ := state
  refine .step .stringAtQuote ?_
  intro name
  cases hfind : r.fields.find? (·.name = name) with
  | none =>
      -- the name is no field, so the value is skipped and nothing is taken
      refine .step .colon ?_
      intro _ input member rest hbound hkept
      obtain ⟨v, after, hvalue, hend⟩ := of_bind_eq_ok hkept
      cases hend
      have hunknown : name ∉ r.fields.map (·.name) := by
        intro hmem
        obtain ⟨field, hfield, heq⟩ := List.mem_map.mp hmem
        exact List.find?_eq_none.mp hfind field hfield (decide_eq_true heq)
      rw [bind_ok (hothers name hunknown bound hbound hvalue), takeMember_of_unknown hunknown]
      rfl
  | some field =>
      have hfield := List.mem_of_find?_eq_some hfind
      have hname : field.name = name := by simpa using List.find?_some hfind
      subst hname
      have hknown : field.name ∈ r.fields.map (·.name) := List.mem_map_of_mem hfield
      by_cases hseen : field.name ∈ seen
      · -- a field that comes again is refused before its value is read
        intro input member rest _ hkept
        obtain ⟨_, between, -, hbehind⟩ := of_bind_eq_ok hkept
        obtain ⟨v, after, -, hend⟩ := of_bind_eq_ok hbehind
        cases hend
        dsimp only
        rw [if_pos hseen, takeMember_of_seen hknown hseen]
        rfl
      · -- a field that is new reads its value
        dsimp only
        rw [if_neg hseen]
        refine .step .colon ?_
        intro _ input member rest hbound hkept
        obtain ⟨v, after, hvalue, hend⟩ := of_bind_eq_ok hkept
        cases hend
        rw [takeMember_of_new hknown hseen]
        exact (hfields field hfield bound state).map (fun next => (field.name :: seen, next))
          hbound hvalue

/-- No field comes twice among members, and none of those that were seen before comes at all. -/
def Unrepeated (r : Record ρ α) (seen : List String) (members : List (String × Json)) : Prop :=
  ∀ field ∈ r.fields, (names members).count field.name ≤ if field.name ∈ seen then 0 else 1

section Unrepeated

variable {name : String} {v : Json} {rest : List (String × Json)} {seen : List String}

/-- A member that is no field repeats none. -/
theorem unrepeated_cons_of_unknown (h : name ∉ r.fields.map (·.name)) :
    r.Unrepeated seen ((name, v) :: rest) ↔ r.Unrepeated seen rest := by
  refine forall₂_congr ?_
  intro field hfield
  have hother : name ≠ field.name := by
    rintro rfl
    exact h (List.mem_map_of_mem hfield)
  rw [count_names_cons, if_neg hother, Nat.add_zero]

/-- A field that was seen before is repeated by a member of its name. -/
theorem not_unrepeated_cons_of_seen (hknown : name ∈ r.fields.map (·.name)) (hseen : name ∈ seen) :
    ¬r.Unrepeated seen ((name, v) :: rest) := by
  obtain ⟨field, hfield, rfl⟩ := List.mem_map.mp hknown
  intro h
  have hagain := h field hfield
  rw [count_names_cons, if_pos rfl, if_pos hseen] at hagain
  exact nomatch hagain

/-- A field that comes first with a member is one of those seen behind it. -/
theorem unrepeated_cons_of_new (hnew : name ∉ seen) :
    r.Unrepeated seen ((name, v) :: rest) ↔ r.Unrepeated (name :: seen) rest := by
  refine forall₂_congr ?_
  intro field _
  rw [count_names_cons]
  by_cases hsame : name = field.name
  · rw [← hsame, if_pos rfl, if_pos List.mem_cons_self, if_neg hnew]
    exact Nat.succ_le_succ_iff
  · have hother : field.name ∈ name :: seen ↔ field.name ∈ seen := by
      rw [List.mem_cons, or_iff_right (Ne.symm hsame)]
    rw [if_neg hsame, Nat.add_zero, if_congr hother rfl rfl]

end Unrepeated

/-- **Members are taken if no field comes twice and each of them is taken by itself.** -/
theorem foldlM_takeMember_iff
    (hunknown : ∀ {name : String}, name ∉ r.fields.map (·.name) → ∀ (state : ρ) (v : Json),
      take state (name, v) = .ok state) {members : List (String × Json)} {last : ρ} :
    ∀ {seen : List String} {state : ρ},
      (∃ seen', members.foldlM (r.takeMember take) (seen, state) = .ok (seen', last)) ↔
        r.Unrepeated seen members ∧ members.foldlM take state = .ok last := by
  induction members with
  | nil =>
      intro seen state
      constructor
      · rintro ⟨seen', h⟩
        cases h
        exact ⟨fun field _ => Nat.zero_le _, rfl⟩
      · rintro ⟨-, h⟩
        cases h
        exact ⟨seen, rfl⟩
  | cons member rest ih =>
      intro seen state
      obtain ⟨name, v⟩ := member
      rw [List.foldlM_cons, List.foldlM_cons]
      by_cases hknown : name ∈ r.fields.map (·.name)
      · by_cases hseen : name ∈ seen
        · -- a field that comes again is refused, and repeats one that was seen
          rw [takeMember_of_seen hknown hseen]
          refine iff_of_false nofun ?_
          exact fun h => not_unrepeated_cons_of_seen hknown hseen h.1
        · -- the field is new, and from here on among those seen
          rw [takeMember_of_new hknown hseen, unrepeated_cons_of_new hseen]
          cases take state (name, v) with
          | error fault => exact iff_of_false nofun fun h => nomatch h.2
          | ok next => exact ih
      · rw [takeMember_of_unknown hknown, hunknown hknown, unrepeated_cons_of_unknown hknown]
        exact ih

/-- **A RECORD IS READ AS ITS MEMBERS ARE TAKEN**, as they are written and one after the other. -/
theorem decoder_of_members {read : String → Reader Json} (hread : ∀ name, Shrinks (read name))
    (hfields : ∀ field ∈ r.fields, ∀ (bound : Nat) (state : ρ),
      Follows bound (read field.name) (field.read state levels) fun v => take state (field.name, v))
    (hothers : ∀ name, name ∉ r.fields.map (·.name) → ∀ bound : Nat,
      Follows bound (read name) skipValue fun _ => .ok ())
    {input atStart rest : List Symbol} {list : List (String × Json)}
    (hpeek : peekStart input = .ok (.object, atStart))
    (hmembers : membersBy read atStart.tail = .ok (list, rest)) :
    r.decoder (levels + 1) input =
      (list.foldlM (r.takeMember take) ([], r.start) >>= fun last =>
        r.finish .missingField last.2).map fun result => (result, rest) := by
  obtain ⟨kept, after, hkept, hend⟩ := of_bind_eq_ok hmembers
  cases hend
  have hloop := Json.follows_members (Shrinks.memberBy hread) (follows_member hfields hothers)
    keeping (Nat.le_refl _) hkept ([], r.start)
  unfold decoder
  rw [bind_ok hpeek]
  show r.asObject levels atStart.tail = _
  unfold asObject
  rw [bind_map hloop]
  cases kept.reverse.foldlM (r.takeMember take) ([], r.start) with
  | error fault => rfl
  | ok last => exact ofExcept_eq_map (r.finish .missingField last.2) rest

/-- A record that is written as a value is read as the members of the value are taken. -/
theorem decoder_of_value
    (hfields : ∀ field ∈ r.fields, ∀ (bound : Nat) (state : ρ),
      Follows bound (value outer) (field.read state levels) fun v => take state (field.name, v))
    {input rest : List Symbol} {list : List (String × Json)}
    (h : value (outer + 1) input = .ok (.object list, rest)) :
    r.decoder (levels + 1) input =
      (list.foldlM (r.takeMember take) ([], r.start) >>= fun last =>
        r.finish .missingField last.2).map fun result => (result, rest) := by
  obtain ⟨atStart, hpeek, hmembers⟩ := exists_membersBy_of_value h
  exact decoder_of_members (fun _ => .value outer) hfields (fun _ _ _ => follows_skipValue outer)
    hpeek hmembers

end Record

end AgentWire.Json
