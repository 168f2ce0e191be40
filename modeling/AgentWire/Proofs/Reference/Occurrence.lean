import AgentWire.Proofs.Json.Shape
import AgentWire.Proofs.Reference.Token
import AgentWire.Substitution

/-!
# Occurrences — a text is searched for references from left to right, and none is missed

The parts of a text are listed by the place where they begin, and from one place the shorter ones
first. The occurrences of references are the parts that are tokens by themselves, whatever stands
around them. The search does not try all parts: it goes on behind each token that it has read. It
finds the occurrences all the same, because no two of them have a character in common:

1. Behind its two opening braces a token has no such brace, so no token begins within another.
2. At one place at most one token begins.

    inChars text = occurrences text

The references of a value are those of its strings, in the order of the document.
-/

namespace AgentWire.Reference

/-- All parts of a text, by the place where they begin and then by their length. -/
def partsOf (text : List Char) : List (List Char) :=
  text.tails.flatMap List.inits

/-- The references that parts of a text are by themselves. -/
def occurrences (text : List Char) : List Reference :=
  (partsOf text).filterMap fun part => parse? (String.ofList part)

variable {name name' token token' : List Char} {digits digits' : Option (List Char)}

-- ── No token begins within another ────────────────────────────────────────────────

theorem AllOf.not_mem {p : Char → Bool} {text : List Char} (h : AllOf p text) {c : Char}
    (hc : p c = false) : c ∉ text := by
  intro hmem
  rw [h c hmem] at hc
  exact Bool.noConfusion hc

theorem IndexText.brace_not_mem {index : List Char} (h : IndexText digits index) :
    '{' ∉ index := by
  cases h with
  | absent => exact List.not_mem_nil
  | bracketed hbefore _ hdigits hbetween hafter =>
      simp only [List.mem_cons, List.mem_append, not_or]
      exact ⟨by decide, hbefore.not_mem (by decide), hdigits.not_mem (by decide),
        hbetween.not_mem (by decide), by decide, hafter.not_mem (by decide)⟩

/-- A token has no opening brace behind its first two, and does not end with these. -/
theorem TokenText.exists_inner (h : TokenText name digits token) :
    ∃ first inner, token = '{' :: '{' :: first :: inner ∧ '{' ∉ first :: inner := by
  obtain ⟨hbefore, -, hname, hafter, hindex⟩ := h
  rename_i before after index
  have hnone : '{' ∉ before ++ (name ++ (after ++ (index ++ ['}', '}']))) := by
    simp only [List.mem_cons, List.mem_append, not_or, List.not_mem_nil]
    exact ⟨hbefore.not_mem (by decide), hname.not_mem (by decide), hafter.not_mem (by decide),
      hindex.brace_not_mem, by decide, by decide, not_false⟩
  cases hinner : before ++ (name ++ (after ++ (index ++ ['}', '}']))) with
  | nil =>
      have hlength := congrArg List.length hinner
      simp only [List.length_append, List.length_cons, List.length_nil] at hlength
      omega
  | cons first inner => exact ⟨first, inner, rfl, hinner ▸ hnone⟩

/-- **No token begins within another.** -/
theorem TokenText.read?_within {front back : List Char} (h : TokenText name digits (front ++ back))
    (hfront : front ≠ []) (hback : back ≠ []) (rest : List Char) : read? (back ++ rest) = none := by
  cases hread : read? (back ++ rest) with
  | none => rfl
  | some found =>
      obtain ⟨tail, htail⟩ := exists_braces_of_read? hread
      obtain ⟨first, inner, htoken, hnone⟩ := h.exists_inner
      -- the second token would begin at the second place of the first one, or behind it
      match front, back, htoken with
      | [_], _ :: back, htoken =>
          have hback' : back = first :: inner := (List.cons.inj (List.cons.inj htoken).2).2
          have hfirst : first = '{' := by
            rw [hback'] at htail
            exact (List.cons.inj (List.cons.inj htail).2).1
          exact absurd (hfirst ▸ List.mem_cons_self) hnone
      | _ :: _ :: front, c :: back, htoken =>
          have hinner : front ++ c :: back = first :: inner :=
            (List.cons.inj (List.cons.inj htoken).2).2
          have hc : c = '{' := (List.cons.inj htail).1
          rw [← hinner, hc] at hnone
          exact absurd (List.mem_append_right front List.mem_cons_self) hnone

/-- What begins behind the beginning of a token begins behind its end. -/
theorem TokenText.length_le_of_behind {gap after after' : List Char}
    (h : TokenText name digits token) (h' : TokenText name' digits' token') (hgap : gap ≠ [])
    (heq : token ++ after = gap ++ (token' ++ after')) : token.length ≤ gap.length := by
  rcases List.append_eq_append_iff.mp heq with ⟨between, rfl, -⟩ | ⟨back, rfl, hrest⟩
  · rw [List.length_append]
    exact Nat.le_add_right _ _
  · by_cases hback : back = []
    · rw [hback, List.append_nil]
    · have hread := h'.read?_append after'
      rw [hrest, h.read?_within hgap hback after] at hread
      exact nomatch hread

/-- **TWO TOKENS OF A TEXT ARE THE SAME OR APART.** -/
theorem TokenText.eq_or_apart {before before' after after' : List Char}
    (h : TokenText name digits token) (h' : TokenText name' digits' token')
    (heq : before ++ (token ++ after) = before' ++ (token' ++ after')) :
    (before = before' ∧ token = token') ∨ before.length + token.length ≤ before'.length ∨
      before'.length + token'.length ≤ before.length := by
  rcases List.append_eq_append_iff.mp heq with ⟨gap, rfl, hgap⟩ | ⟨gap, rfl, hgap⟩
  · cases gap with
    | nil => exact Or.inl ⟨(List.append_nil before).symm, (h.eq_of_append_eq h' hgap).2.2⟩
    | cons c gap =>
        have hle := h.length_le_of_behind h' (List.cons_ne_nil c gap) hgap
        rw [List.length_append]
        exact Or.inr (Or.inl (Nat.add_le_add_left hle _))
  · cases gap with
    | nil => exact Or.inl ⟨List.append_nil before', (h'.eq_of_append_eq h hgap).2.2.symm⟩
    | cons c gap =>
        have hle := h'.length_le_of_behind h (List.cons_ne_nil c gap) hgap
        rw [List.length_append]
        exact Or.inr (Or.inr (Nat.add_le_add_left hle _))

-- ── The occurrences, place by place ───────────────────────────────────────────────

/-- A part of a text is a token by itself, if it is one at all. -/
theorem parse?_ofList_eq_some_iff {part : List Char} {r : Reference} :
    parse? (String.ofList part) = some r ↔
      ∃ name digits, TokenText name digits part ∧ r = ofParts name digits part := by
  rw [parse?_eq_some_iff, String.toList_ofList]

/-- Of the parts from the front of a text only one counts. -/
theorem filterMap_inits {α : Type} {f : List Char → Option α} {part rest : List Char}
    (h : ∀ other, other <+: part ++ rest → other ≠ part → f other = none) :
    (part ++ rest).inits.filterMap f = (f part).toList := by
  induction part generalizing f with
  | nil =>
      cases rest with
      | nil => cases hf : f [] <;> simp [hf]
      | cons c rest =>
          have hlonger : (rest.inits.map (c :: ·)).filterMap f = [] := by
            rw [List.filterMap_map, List.filterMap_eq_nil_iff]
            intro other hother
            exact h _ ((List.prefix_cons_inj c).mpr ((List.mem_inits _ _).mp hother))
              (List.cons_ne_nil c other)
          rw [List.nil_append, List.inits_cons, List.filterMap_cons, hlonger]
          cases f [] <;> rfl
  | cons c part ih =>
      have hempty : f [] = none := h [] List.nil_prefix (List.cons_ne_nil c part).symm
      rw [List.cons_append, List.inits_cons, List.filterMap_cons, hempty, List.filterMap_map]
      refine ih ?_
      intro other hother hne
      exact h _ ((List.prefix_cons_inj c).mpr hother) (mt (fun heq => (List.cons.inj heq).2) hne)

/-- From one place on, the parts of a text that are tokens are the one that is read there, if there
    is one. -/
theorem filterMap_inits_parse? (text : List Char) :
    (text.inits.filterMap fun part => parse? (String.ofList part)) =
      ((read? text).map Prod.fst).toList := by
  cases hread : read? text with
  | none =>
      -- a part that is a token would be read with what is behind it
      rw [List.filterMap_eq_nil_iff.mpr]
      · rfl
      · intro part hpart
        obtain ⟨rest, rfl⟩ := (List.mem_inits part text).mp hpart
        cases hparse : parse? (String.ofList part) with
        | none => rfl
        | some r =>
            obtain ⟨name, digits, htoken, -⟩ := parse?_ofList_eq_some_iff.mp hparse
            exact nomatch hread.symm.trans (htoken.read?_append rest)
  | some found =>
      -- two tokens that begin at one place are the same
      obtain ⟨r, rest⟩ := found
      obtain ⟨name, digits, token, htoken, rfl, rfl⟩ := read?_eq_some_iff.mp hread
      have honly : ∀ other, other <+: token ++ rest → other ≠ token →
          parse? (String.ofList other) = none := by
        rintro other ⟨more, heq⟩ hne
        cases hparse : parse? (String.ofList other) with
        | none => rfl
        | some r =>
            obtain ⟨_, _, hother, -⟩ := parse?_ofList_eq_some_iff.mp hparse
            exact absurd (hother.eq_of_append_eq htoken heq).2.2 hne
      rw [filterMap_inits honly, parse?_ofList_eq_some_iff.mpr ⟨name, digits, htoken, rfl⟩]
      rfl

theorem occurrences_nil : occurrences [] = [] :=
  filterMap_inits_parse? []

/-- The occurrences in a text are the one at its front, if there is one, and those behind its first
    character. -/
theorem occurrences_cons (c : Char) (rest : List Char) :
    occurrences (c :: rest) =
      ((read? (c :: rest)).map Prod.fst).toList ++ occurrences rest := by
  rw [occurrences, partsOf, List.tails_cons, List.flatMap_cons, List.filterMap_append,
    filterMap_inits_parse?]
  rfl

/-- Within a token nothing occurs that does not occur behind it. -/
theorem TokenText.occurrences_within {front : List Char} (hfront : front ≠ []) (rest : List Char) :
    ∀ {back : List Char}, TokenText name digits (front ++ back) →
      occurrences (back ++ rest) = occurrences rest := by
  intro back h
  induction back generalizing front with
  | nil => rfl
  | cons c back ih =>
      rw [List.cons_append, occurrences_cons, ← List.cons_append,
        h.read?_within hfront (List.cons_ne_nil c back)]
      rw [List.append_cons] at h
      exact ih (List.append_ne_nil_of_right_ne_nil front (List.cons_ne_nil c [])) h

-- ── The search finds the occurrences ──────────────────────────────────────────────

/-- **THE SEARCH FINDS EVERY REFERENCE AND NOTHING ELSE.** -/
theorem inChars_eq_occurrences (text : List Char) : inChars text = occurrences text := by
  unfold inChars
  fun_induction Piece.ofText text with
  | case1 => exact occurrences_nil.symm
  | case2 c rest r after hread ih =>
      obtain ⟨name, digits, token, htoken, htext, -⟩ := read?_eq_some_iff.mp hread
      obtain ⟨first, inner, rfl, -⟩ := htoken.exists_inner
      obtain ⟨rfl, rfl⟩ : c = '{' ∧ rest = '{' :: first :: inner ++ after := List.cons.inj htext
      rw [occurrences_cons, hread,
        TokenText.occurrences_within (List.cons_ne_nil '{' []) after htoken]
      show r :: (Piece.ofText after).filterMap Piece.reference? = r :: occurrences after
      rw [ih]
  | case3 c rest hread ih =>
      rw [occurrences_cons, hread]
      exact ih

end AgentWire.Reference

namespace AgentWire

open Reference

namespace Piece

theorem ofText_of_read? {text rest : List Char} {r : Reference}
    (h : read? text = some (r, rest)) : ofText text = .token r :: ofText rest := by
  cases text with
  | nil =>
      obtain ⟨tail, htail⟩ := exists_braces_of_read? h
      exact absurd htail.symm (List.cons_ne_nil _ _)
  | cons c tail =>
      rw [ofText.eq_def]
      split
      · rename_i heq
        exact absurd heq (List.cons_ne_nil c tail)
      · rename_i heq
        obtain ⟨rfl, rfl⟩ := List.cons.inj heq
        split
        · rename_i hread
          cases hread.symm.trans h
          rfl
        · rename_i hread
          exact absurd (h.symm.trans hread) (Option.some_ne_none _)

theorem ofText_of_read?_eq_none {c : Char} {rest : List Char} (h : read? (c :: rest) = none) :
    ofText (c :: rest) = .literal c :: ofText rest := by
  rw [ofText.eq_def]
  split
  · rename_i heq
    exact absurd heq (List.cons_ne_nil c rest)
  · rename_i heq
    obtain ⟨rfl, rfl⟩ := List.cons.inj heq
    split
    · rename_i hread
      exact absurd (hread.symm.trans h) (Option.some_ne_none _)
    · rfl

/-- **A token parts the search**: what stands before it and what stands behind it are searched
    apart. -/
theorem ofText_append_token {r : Reference} (h : parse? r.token = some r)
    (before rest : List Char) :
    ofText (before ++ (r.token.toList ++ rest)) = ofText before ++ .token r :: ofText rest := by
  obtain ⟨name, digits, htoken, hr⟩ := parse?_eq_some_iff.mp h
  have hread := htoken.read?_append rest
  rw [← hr] at hread
  fun_induction ofText before with
  | case1 => exact ofText_of_read? hread
  | case2 c tail r' after hread' ih =>
      -- a token that stands before is read whatever is behind it
      obtain ⟨_, _, token', htoken', htext, rfl⟩ := read?_eq_some_iff.mp hread'
      rw [htext, List.append_assoc, ofText_of_read? (htoken'.read?_append _), ih]
      rfl
  | case3 c tail hnone ih =>
      -- no token reaches from before into this one, so a literal stays a literal
      have hnone' : read? (c :: (tail ++ (r.token.toList ++ rest))) = none := by
        cases hread' : read? (c :: (tail ++ (r.token.toList ++ rest))) with
        | none => rfl
        | some found =>
            obtain ⟨r', after⟩ := found
            obtain ⟨_, _, token', htoken', htext, rfl⟩ := read?_eq_some_iff.mp hread'
            have hle := htoken'.length_le_of_behind htoken (List.cons_ne_nil c tail) htext.symm
            obtain ⟨gap, hgap⟩ := List.prefix_of_prefix_length_le
              (htext ▸ List.prefix_append token' after) (List.prefix_append (c :: tail) _) hle
            rw [← hgap] at hnone
            have hfound := htoken'.read?_append gap
            exact absurd (hfound.symm.trans hnone) (Option.some_ne_none _)
      rw [List.cons_append, ofText_of_read?_eq_none hnone', ih]
      rfl

end Piece

namespace Reference

-- ── What is found ─────────────────────────────────────────────────────────────────

theorem mem_partsOf_iff {text part : List Char} :
    part ∈ partsOf text ↔ ∃ before after, text = before ++ (part ++ after) := by
  simp only [partsOf, List.mem_flatMap, List.mem_tails, List.mem_inits]
  constructor
  · rintro ⟨_, ⟨before, rfl⟩, ⟨after, rfl⟩⟩
    exact ⟨before, after, rfl⟩
  · rintro ⟨before, after, rfl⟩
    exact ⟨part ++ after, List.suffix_append _ _, List.prefix_append _ _⟩

/-- What occurs in a text is what its parts are by themselves. -/
theorem mem_occurrences_iff {text : List Char} {r : Reference} :
    r ∈ occurrences text ↔
      ∃ before part after, text = before ++ (part ++ after) ∧
        parse? (String.ofList part) = some r := by
  simp only [occurrences, List.mem_filterMap, mem_partsOf_iff]
  constructor
  · rintro ⟨part, ⟨before, after, htext⟩, hparse⟩
    exact ⟨before, part, after, htext, hparse⟩
  · rintro ⟨before, part, after, htext, hparse⟩
    exact ⟨part, ⟨before, after, htext⟩, hparse⟩

/-- **WHAT IS FOUND IN A TEXT IS WHAT OCCURS IN IT**: by the list of references, by substitution and
    by the check of what comes out of it. No two occurrences have a character in common. In a value
    they are looked for in its strings, in the order of the document. -/
theorem search_finds_occurrences :
    (∀ text : String, inText text = occurrences text.toList ∧
      (Piece.ofText text.toList).filterMap Piece.reference? = occurrences text.toList ∧
      (∀ p : ParameterSet, p.firstUnresolved? text.toList =
        (occurrences text.toList).find? fun r => (p.select? r).isNone) ∧
      ∀ r, r ∈ inText text ↔ ∃ before part after,
        text.toList = before ++ (part ++ after) ∧ parse? (String.ofList part) = some r) ∧
    (∀ (text before part after before' part' after' : List Char) (r r' : Reference),
      text = before ++ (part ++ after) → parse? (String.ofList part) = some r →
      text = before' ++ (part' ++ after') → parse? (String.ofList part') = some r' →
      (before = before' ∧ part = part') ∨ before.length + part.length ≤ before'.length ∨
        before'.length + part'.length ≤ before.length) ∧
    (∀ content : Json, inContent content =
      content.leaves.flatMap fun text => occurrences text.toList) ∧
    (∀ text, (Json.string text).leaves = [text]) ∧
    (∀ items, (Json.array items).leaves = items.flatMap Json.leaves) ∧
    (∀ members, (Json.object members).leaves = members.flatMap fun member => member.2.leaves) ∧
    Json.null.leaves = [] ∧ (∀ b, (Json.bool b).leaves = []) ∧
    (∀ n, (Json.number n).leaves = []) := by
  refine ⟨?_, ?_, ?_, fun _ => rfl, Json.leaves_array, Json.leaves_object, rfl, fun _ => rfl,
    fun _ => rfl⟩
  · intro text
    have hfound := inChars_eq_occurrences text.toList
    refine ⟨hfound, hfound, ?_, ?_⟩
    · intro p
      rw [ParameterSet.firstUnresolved?, hfound]
    · intro r
      rw [inText, hfound, mem_occurrences_iff]
  · rintro text before part after before' part' after' r r' rfl hparse htext' hparse'
    obtain ⟨_, _, htoken, -⟩ := parse?_ofList_eq_some_iff.mp hparse
    obtain ⟨_, _, htoken', -⟩ := parse?_ofList_eq_some_iff.mp hparse'
    exact htoken.eq_or_apart htoken' htext'
  · intro content
    rw [inContent]
    refine List.flatMap_congr ?_
    intro text _
    exact inChars_eq_occurrences text.toList

/-- Braces around a token and tokens that are left open do not hide one, names of members are not
    searched, and where one token ends the next one has not begun. -/
theorem search_finds_occurrences_nested :
    (inContent (.object [("{{no}}", .array [.string "\x7b\x7b{{a}}\x7b\x7b - {{c}}", .null]),
      ("d", .string "\x7b\x7b d")])).map Reference.token = ["{{a}}", "{{c}}"] ∧
    "".toList.length + "{{a}}".toList.length ≤ "{{a}}\x7b\x7b - ".toList.length := by
  obtain ⟨-, hapart, hcontent, -⟩ := search_finds_occurrences
  refine ⟨?_, ?_⟩
  · rw [hcontent]
    decide +kernel
  · have hplaces := hapart "{{a}}\x7b\x7b - {{c}}".toList "".toList "{{a}}".toList
      "\x7b\x7b - {{c}}".toList "{{a}}\x7b\x7b - ".toList "{{c}}".toList "".toList
      ⟨"a", none, "{{a}}"⟩ ⟨"c", none, "{{c}}"⟩
      (by decide) (by decide +kernel) (by decide) (by decide +kernel)
    rcases hplaces with ⟨hsame, -⟩ | hbefore | hbehind
    · exact absurd hsame (by decide)
    · exact hbefore
    · exact absurd hbehind (by decide)

end Reference

end AgentWire
