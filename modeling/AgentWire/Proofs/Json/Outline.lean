import AgentWire.Proofs.Json.Choice

/-!
# Outlines — an object of which only some members are looked at

A record moves past a member that it does not know, and checks no more of it than its shape. So not
every object that is decoded is a value that could be kept: what stands in an unknown member may be
nested without limit, and its numbers may be of any size. The outline of an object keeps the values
under some names, and has nothing in the place of the others:

    {"code": 1, "trace": [[[1e999]]]}    →  code: 1, trace: nothing

1. A decoder judges values (`Judges`) if it follows the reader that keeps them, and succeeds only
   where a value can be kept.
2. A record whose fields judge values is read as the members of its outline are taken.
3. Every object that is decoded has an outline.
-/

namespace AgentWire.Json

open Reader

variable {α β ρ σ : Type} {levels : Nat}

-- ── Decoders that judge values ────────────────────────────────────────────────────

/-- A decoder judges values: where there is one it goes as far, and ends with what `of` makes of it,
    and where there is none it fails. -/
structure Judges (decoder : Reader α) (of : Json → Except Fault α) : Prop where
  follows : ∀ bound outer : Nat, Follows bound (value outer) decoder of
  exists_value : ∀ (outer : Nat) {input rest : List Symbol} {a : α},
    decoder input = .ok (a, rest) → ∃ v, value (outer + 1) input = .ok (v, rest)

/-- What is made of the result of a decoder that judges values. -/
theorem Judges.map {decoder : Reader α} {of : Json → Except Fault α} (h : Judges decoder of)
    (f : α → β) : Judges (do return f (← decoder)) fun v => (of v).map f where
  follows := fun bound outer => (h.follows bound outer).map f
  exists_value := by
    intro outer input rest b hb
    obtain ⟨a, after, hdecoder, hend⟩ := of_bind_eq_ok hb
    cases hend
    exact h.exists_value outer hdecoder

/-- A symbol past blanks tells what begins there. -/
theorem peekStart_of_peekPastBlanks {input rest : List Symbol} {symbol : Symbol} {start : Start}
    (hpeek : peekPastBlanks input = .ok (some symbol, rest)) (hstart : startOf? symbol = some start) :
    peekStart input = .ok (start, rest) := by
  unfold peekStart
  rw [bind_ok hpeek]
  dsimp only
  rw [hstart]
  rfl

/-- A value is read as its first symbol says. -/
theorem value_of_readAt {input atStart rest : List Symbol} {start : Start} {v : Json}
    (hpeek : peekStart input = .ok (start, atStart)) (h : ReadAt rest levels atStart start v) :
    value levels input = .ok (v, rest) := by
  have hadvance : advance atStart = .ok ((), atStart.tail) := rfl
  cases h with
  | list hitems =>
      exact (bind_ok hpeek).trans ((bind_ok hadvance).trans (bind_ok hitems))
  | object hmembers =>
      exact (bind_ok hpeek).trans ((bind_ok hadvance).trans (bind_ok hmembers))
  | null h | yes h | no h | text h | number h =>
      cases levels with
      | zero => exact (bind_ok hpeek).trans (bind_ok h)
      | succ levels => exact (bind_ok hpeek).trans (bind_ok h)

theorem wrongKind_ne_ok {wanted : Wanted} {input : List Symbol} {result : α × List Symbol} :
    (wrongKind wanted : Reader α) input ≠ .ok result := by
  intro h
  obtain ⟨start, atStart, -, h⟩ := of_bind_eq_ok h
  cases start with
  | list => exact nomatch h
  | object => exact nomatch h
  | _ =>
      obtain ⟨_, after, -, h⟩ := of_bind_eq_ok h
      exact nomatch h

/-- What is lifted leaves everything. -/
theorem rest_of_ofExcept {result : Except Fault α} {a : α} {input rest : List Symbol}
    (h : (ofExcept result : Reader α) input = .ok (a, rest)) : rest = input := by
  rw [ofExcept_eq_map] at h
  obtain ⟨_, -, hend⟩ := exists_of_map_eq_ok h
  exact (Prod.mk.inj hend).2.symm

namespace Decoder

theorem judges_text (levels : Nat) : Judges (text levels) textOf where
  follows := fun _ _ => follows_text
  exists_value := by
    intro outer input rest text h
    obtain ⟨start, atStart, hpeek, h⟩ := of_bind_eq_ok h
    cases start with
    | text => exact ⟨.string text, value_of_readAt hpeek (.text h)⟩
    | _ => exact absurd h wrongKind_ne_ok

theorem judges_signed32 (levels : Nat) : Judges (signed32 levels) signed32Of where
  follows := fun _ _ => follows_signed32
  exists_value := by
    intro outer input rest n h
    obtain ⟨start, atStart, hpeek, h⟩ := of_bind_eq_ok h
    cases start with
    | number =>
        obtain ⟨number, after, hnumber, h⟩ := of_bind_eq_ok h
        have hrest : after = rest := by
          cases number with
          | double x => exact nomatch h
          | integer n word =>
              dsimp only at h
              split at h
              · cases h
                rfl
              · exact nomatch h
        subst hrest
        exact ⟨.number number, value_of_readAt hpeek (.number hnumber)⟩
    | _ => exact absurd h wrongKind_ne_ok

theorem judges_optional {decoder : Decoder α} {of : Json → Except Fault α}
    (h : Judges (decoder levels) of) : Judges (optional decoder levels) (optionalOf of) where
  follows := fun _ outer => follows_optional fun bound => h.follows bound outer
  exists_value := by
    intro outer input rest found hfound
    obtain ⟨symbol, atSymbol, hpeek, hfound⟩ := of_bind_eq_ok hfound
    split at hfound
    · obtain ⟨_, after, hword, hend⟩ := of_bind_eq_ok hfound
      cases hend
      exact ⟨.null, value_of_readAt (peekStart_of_peekPastBlanks hpeek rfl) (.null hword)⟩
    · obtain ⟨a, after, hdecoder, hend⟩ := of_bind_eq_ok hfound
      cases hend
      rw [← value_of_peekPastBlanks hpeek]
      exact h.exists_value outer hdecoder

theorem judges_checked {decoder : Decoder α} {of : Json → Except Fault α}
    (h : Judges (decoder levels) of) (check : α → Except Fault β) :
    Judges (checked decoder check levels) fun v => of v >>= check where
  follows := fun bound outer _ _ _ hbound hvalue =>
    checked_eq_map (h.follows bound outer hbound hvalue)
  exists_value := by
    intro outer input rest b hb
    obtain ⟨a, after, hdecoder, hcheck⟩ := of_bind_eq_ok hb
    obtain ⟨v, hvalue⟩ := h.exists_value outer hdecoder
    rw [rest_of_ofExcept hcheck]
    exact ⟨v, hvalue⟩

section Choice

variable {known : List String} {ofName? : String → Option α}

/-- A choice that is found leaves what is behind its name. -/
theorem rest_of_choose {name : String} {chosen : α} {input rest : List Symbol}
    (h : choose known ofName? name input = .ok (chosen, rest)) : rest = input := by
  rw [choose_eq_map] at h
  obtain ⟨_, -, hend⟩ := exists_of_map_eq_ok h
  exact (Prod.mk.inj hend).2.symm

/-- The inside of a choice that is written as an object is that of an object with one member. -/
theorem exists_members_of_inside (outer : Nat) {input rest : List Symbol} {chosen : α}
    (h : choice.inside known ofName? levels input = .ok (chosen, rest)) :
    ∃ list, membersOf (value outer) input = .ok (list, rest) := by
  obtain ⟨symbol, atName, hpeek, h⟩ := of_bind_eq_ok h
  split at h
  · exact nomatch h
  · obtain ⟨name, atColon, hname, hbehind⟩ := of_bind_eq_ok h
    obtain ⟨found, _, hfound, h⟩ := of_bind_eq_ok hbehind
    obtain rfl := rest_of_choose hfound
    obtain ⟨_, atValue, hcolon, h⟩ := of_bind_eq_ok h
    obtain ⟨start, atStart, hstart, h⟩ := of_bind_eq_ok h
    cases start with
    | null =>
        -- the only value that a choice can have, with the end of the object behind it
        obtain ⟨_, behind, hword, h⟩ := of_bind_eq_ok h
        obtain ⟨symbol, atClose, hclose, h⟩ := of_bind_eq_ok h
        split at h
        · exact nomatch h
        · cases h
          have hvalue : value outer atValue = .ok (.null, behind) :=
            value_of_readAt hstart (.null hword)
          have hmember : memberOf (value outer) atName = .ok ((name, .null), behind) :=
            (bind_ok hname).trans ((bind_ok hcolon).trans (bind_ok hvalue))
          exact ⟨_, membersOf_of_memberOf hpeek hmember hclose⟩
        · exact nomatch h
    | _ =>
        obtain ⟨_, behind, hrefused, h⟩ := of_bind_eq_ok h
        exact absurd hrefused wrongKind_ne_ok
  · exact nomatch h
  · exact nomatch h

theorem judges_choice : Judges (choice known ofName? (levels + 1)) (choiceOf known ofName?) where
  follows := fun _ _ => follows_choice
  exists_value := by
    intro outer input rest chosen h
    obtain ⟨symbol, atSymbol, hpeek, h⟩ := of_bind_eq_ok h
    split at h
    · exact nomatch h
    · obtain ⟨name, after, hname, hchosen⟩ := of_bind_eq_ok h
      obtain rfl := rest_of_choose hchosen
      exact ⟨.string name, value_of_readAt (peekStart_of_peekPastBlanks hpeek rfl) (.text hname)⟩
    · obtain ⟨_, inside, hadvance, hinside⟩ := of_bind_eq_ok h
      cases hadvance
      obtain ⟨list, hmembers⟩ := exists_members_of_inside outer hinside
      exact ⟨.object list,
        value_of_readAt (peekStart_of_peekPastBlanks hpeek rfl) (.object hmembers)⟩
    · exact nomatch h

end Choice

end Decoder

-- ── Loops ─────────────────────────────────────────────────────────────────────────

section Loops

variable {turn : σ → Reader σ} {kept : Reader α}

theorem exists_moreMembers_of_turns
    (hturn : ∀ (state : σ) {input rest : List Symbol} {next : σ},
      turn state input = .ok (next, rest) → ∃ a, kept input = .ok (a, rest)) (after : AfterComma) :
    ∀ (turns : Nat) {state last : σ} {input rest : List Symbol},
      moreMembers after turn turns state input = .ok (last, rest) → ∀ before : List α,
        ∃ all, moreMembers after (fun before => return (← kept) :: before) turns before input =
          .ok (all, rest)
  | 0, _, _, _, _, h, _ => nomatch h
  | turns + 1, state, last, input, rest, h, before => by
      rcases cases_of_moreMembers h with
        ⟨close, hclose, -, rfl⟩ | ⟨comma, atMember, next, behind, hcomma, hquote, hmember, hmore⟩
      · exact ⟨before, moreMembers_close after _ turns before hclose⟩
      · obtain ⟨a, hkept⟩ := hturn state hmember
        obtain ⟨all, hall⟩ := exists_moreMembers_of_turns hturn after turns hmore (a :: before)
        have hkepts : (do return (← kept) :: before : Reader (List α)) atMember =
            .ok (a :: before, behind) := bind_ok hkept
        refine ⟨all, ?_⟩
        rw [moreMembers_comma after _ turns before hcomma hquote, bind_ok hkepts]
        exact hall

/-- **A loop whose turns succeed only where something can be kept** succeeds only where everything
    can be kept. -/
theorem exists_members_of_turns
    (hturn : ∀ (state : σ) {input rest : List Symbol} {next : σ},
      turn state input = .ok (next, rest) → ∃ a, kept input = .ok (a, rest)) (after : AfterComma)
    {state last : σ} {input rest : List Symbol}
    (h : members after turn state input = .ok (last, rest)) :
    ∃ all, members after (fun before => return (← kept) :: before) [] input = .ok (all, rest) := by
  rcases cases_of_members h with
    ⟨close, hclose, -, rfl⟩ | ⟨atMember, next, behind, hquote, hmember, hmore⟩
  · exact ⟨[], members_close after _ [] hclose⟩
  · obtain ⟨a, hkept⟩ := hturn state hmember
    obtain ⟨all, hall⟩ := exists_moreMembers_of_turns hturn after _ hmore [a]
    have hkepts : (do return (← kept) :: [] : Reader (List α)) atMember = .ok ([a], behind) :=
      bind_ok hkept
    refine ⟨all, ?_⟩
    rw [members_first after _ [] hquote, bind_ok hkepts]
    exact hall

end Loops

-- ── Outlines ──────────────────────────────────────────────────────────────────────

/-- The value of a member: kept if its name is wanted, and else moved past. -/
def valueIfWanted (wanted : List String) (levels : Nat) (name : String) : Reader Json :=
  if name ∈ wanted then value levels
  else do
    skipValue
    return .null

/-- Reads an object, with nothing in the place of what is not wanted. -/
def outline (wanted : List String) (levels : Nat) : Reader (List (String × Json)) := do
  match ← peekStart with
  | .object =>
    advance
    membersBy (valueIfWanted wanted levels)
  | _ => wrongKind .map

/-- A text is an object, whatever stands in it. -/
def IsObjectText (input : List Symbol) : Prop :=
  ∃ atStart, peekStart input = .ok (.object, atStart)

/-- A text outlines some members: it is an object of these, and those whose names are not wanted
    hold anything, in the place of which there is nothing. -/
def Outlines (wanted : List String) (input : List Symbol) (members : List (String × Json)) : Prop :=
  ∃ levels, whole (outline wanted levels) input = .ok members

/-- What is read as an object is one. -/
theorem isObjectText_of_value {input : List Symbol} {members : List (String × Json)}
    (h : whole (value (levels + 1)) input = .ok (.object members)) : IsObjectText input := by
  obtain ⟨rest, hread, -⟩ := whole_eq_ok_iff.mp h
  obtain ⟨atStart, hpeek, -⟩ := exists_membersBy_of_value hread
  exact ⟨atStart, hpeek⟩

variable {wanted : List String} {name : String}

theorem shrinks_valueIfWanted (wanted : List String) (levels : Nat) (name : String) :
    Shrinks (valueIfWanted wanted levels name) := by
  unfold valueIfWanted
  split
  · exact .value levels
  · exact .bind .skipValue fun _ => .pure _

/-- A value that is wanted is kept. -/
theorem valueIfWanted_of_mem (h : name ∈ wanted) : valueIfWanted wanted levels name = value levels :=
  if_pos h

/-- A value that is not wanted is moved past. -/
theorem valueIfWanted_of_not_mem (h : name ∉ wanted) :
    valueIfWanted wanted levels name = (do skipValue; return .null) :=
  if_neg h

/-- Moving past a value is following the reader that moves past it. -/
theorem follows_of_not_wanted (h : name ∉ wanted) (bound : Nat) :
    Follows bound (valueIfWanted wanted levels name) skipValue fun _ => .ok () := by
  rw [valueIfWanted_of_not_mem h]
  intro input v rest _ hskip
  obtain ⟨_, after, hskipped, hend⟩ := of_bind_eq_ok hskip
  cases hend
  exact hskipped

namespace Record

variable {r : Record ρ α} {take : ρ → String × Json → Except Fault ρ}

/-- **A RECORD IS READ AS THE MEMBERS OF ITS OUTLINE ARE TAKEN**, if its fields judge values. -/
theorem whole_of_outlines
    (hfields : ∀ field ∈ r.fields, ∀ state : ρ,
      Judges (field.read state levels) fun v => take state (field.name, v))
    {input : List Symbol} {members : List (String × Json)}
    (h : Outlines (r.fields.map (·.name)) input members) :
    whole (r.decoder (levels + 1)) input =
      (members.foldlM (r.takeMember take) ([], r.start) >>= fun last =>
        r.finish .missingField last.2) := by
  obtain ⟨outer, houtline⟩ := h
  obtain ⟨rest, houtline, hblank⟩ := whole_eq_ok_iff.mp houtline
  obtain ⟨start, atStart, hpeek, hmembers⟩ := of_bind_eq_ok houtline
  cases start with
  | object =>
      obtain ⟨_, _, hadvance, hmembers⟩ := of_bind_eq_ok hmembers
      cases hadvance
      refine whole_eq_of_map (decoder_of_members (shrinks_valueIfWanted _ outer) ?_
        (fun _ => follows_of_not_wanted) hpeek hmembers) hblank
      intro field hfield bound state
      rw [valueIfWanted_of_mem (List.mem_map_of_mem hfield)]
      exact (hfields field hfield state).follows bound outer
  | _ => exact absurd hmembers wrongKind_ne_ok

/-- A member that is read into a record has a place in the outline. -/
theorem exists_memberBy_of_member
    (hfields : ∀ field ∈ r.fields, ∀ state : ρ,
      Judges (field.read state levels) fun v => take state (field.name, v))
    (state : List String × ρ) {input rest : List Symbol} {next : List String × ρ}
    (h : r.member levels state input = .ok (next, rest)) :
    ∃ member, memberBy (valueIfWanted (r.fields.map (·.name)) 1) input = .ok (member, rest) := by
  obtain ⟨name, atColon, hname, hbehind⟩ := of_bind_eq_ok h
  cases hfind : r.fields.find? (·.name = name) with
  | none =>
      -- the name is no field, and its value is skipped by both
      rw [hfind] at hbehind
      obtain ⟨_, atValue, hcolon, hvalue⟩ := of_bind_eq_ok hbehind
      obtain ⟨_, after, hskip, hend⟩ := of_bind_eq_ok hvalue
      cases hend
      have hunknown : name ∉ r.fields.map (·.name) := by
        intro hmem
        obtain ⟨field, hfield, heq⟩ := List.mem_map.mp hmem
        exact List.find?_eq_none.mp hfind field hfield (decide_eq_true heq)
      refine ⟨(name, .null), (bind_ok hname).trans ((bind_ok hcolon).trans ?_)⟩
      rw [valueIfWanted_of_not_mem hunknown]
      have hnull : (do skipValue; return .null : Reader Json) atValue = .ok (.null, _) :=
        bind_ok hskip
      exact bind_ok hnull
  | some field =>
      have hfield := List.mem_of_find?_eq_some hfind
      have heq : field.name = name := by simpa using List.find?_some hfind
      subst heq
      rw [hfind] at hbehind
      dsimp only at hbehind
      split at hbehind
      · exact nomatch hbehind
      · -- what the field decodes is a value, and is kept
        obtain ⟨_, atValue, hcolon, hvalue⟩ := of_bind_eq_ok hbehind
        obtain ⟨next, after, hread, hend⟩ := of_bind_eq_ok hvalue
        cases hend
        obtain ⟨v, hv⟩ := (hfields field hfield state.2).exists_value 0 hread
        refine ⟨(field.name, v), (bind_ok hname).trans ((bind_ok hcolon).trans ?_)⟩
        rw [valueIfWanted_of_mem (List.mem_map_of_mem hfield)]
        exact bind_ok hv

/-- **EVERY OBJECT THAT IS DECODED HAS AN OUTLINE.** -/
theorem exists_outlines_of_whole
    (hfields : ∀ field ∈ r.fields, ∀ state : ρ,
      Judges (field.read state levels) fun v => take state (field.name, v))
    {input : List Symbol} {a : α} (hobject : IsObjectText input)
    (h : whole (r.decoder (levels + 1)) input = .ok a) :
    ∃ members, Outlines (r.fields.map (·.name)) input members := by
  obtain ⟨atStart, hpeek⟩ := hobject
  obtain ⟨rest, hdecoder, hblank⟩ := whole_eq_ok_iff.mp h
  have hrecord : r.asObject levels atStart.tail = .ok (a, rest) := by
    unfold decoder at hdecoder
    rwa [bind_ok hpeek] at hdecoder
  obtain ⟨last, behind, hloop, hfinish⟩ := of_bind_eq_ok hrecord
  obtain rfl : rest = behind := rest_of_ofExcept hfinish
  obtain ⟨all, hall⟩ := exists_members_of_turns (exists_memberBy_of_member hfields) keeping hloop
  have hmembers : membersBy (valueIfWanted (r.fields.map (·.name)) 1) atStart.tail =
      .ok (all.reverse, rest) := bind_ok hall
  have hadvance : advance atStart = .ok ((), atStart.tail) := rfl
  have houtline : outline (r.fields.map (·.name)) 1 input = .ok (all.reverse, rest) :=
    (bind_ok hpeek).trans ((bind_ok hadvance).trans hmembers)
  exact ⟨all.reverse, 1, whole_eq_ok_iff.mpr ⟨rest, houtline, hblank⟩⟩

end Record

end AgentWire.Json
