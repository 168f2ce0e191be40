import AgentWire.Proofs.Substitution.Cut

/-!
# Splicing — how a text is put together again

A text can be put together by positions: go through the places of its tokens, keep the position up
to which it has been copied, and copy the part from there to the next token before the value of that
(`spliceFrom?`). A part that is not there would be noticed, since nothing could be copied. It always
is there: what has been copied, what is still to be copied, and what the search has yet to read make
up the text, in this order (`Splits`).

    copied ++ pending ++ the text of the pieces that are left  =  text

So splicing ends as substitution does, and with the cut of the text that is

    the first token without a value  →  refused for it
    the first reference without a value in the cut that is filled in  →  refused for it
    otherwise  →  the cut that is filled in
-/

namespace AgentWire

open Reference

namespace ParameterSet

-- ── Going by positions ────────────────────────────────────────────────────────────

/-- The text that comes out from a position on, behind what has been put together already; `none` if
    a part that is to be copied is not there. -/
def spliceFrom? (p : ParameterSet) (text : String) (copied : Nat) (resolved : String) :
    List Place → Option (Except Fault String)
  | [] => (slice? text copied text.utf8ByteSize).map fun literal => .ok (resolved ++ literal)
  | place :: rest =>
    match p.select? place.reference with
    | none => some (.error (unresolved place.reference))
    | some value =>
      match slice? text copied place.start with
      | none => none
      | some literal => spliceFrom? p text place.stop (resolved ++ literal ++ value) rest

/-- The text that comes out, unless it holds a reference that selects nothing. -/
def checked (p : ParameterSet) (resolved : String) : Except Fault String :=
  match p.firstUnresolved? resolved.toList with
  | some r => .error (unresolved r)
  | none => .ok resolved

/-- Substitution by the places of the tokens; `none` if a part of the text is not there. -/
def splice? (p : ParameterSet) (text : String) : Option (Except Fault String) :=
  (p.spliceFrom? text 0 "" (Place.inText text)).map fun outcome => outcome.bind p.checked

/-- What has been copied, what is still to be copied and the pieces that are left make up the text. -/
def Splits (text copied pending : String) (pieces : List Piece) : Prop :=
  text = copied ++ pending ++ String.ofList (pieces.flatMap (Piece.fillWith Reference.token))

namespace Splits

variable {text copied pending : String} {rest : List Piece}

theorem start (text : String) : Splits text "" "" (Piece.ofText text.toList) := by
  rw [Splits, Piece.flatMap_token_ofText, String.ofList_toList, String.empty_append,
    String.empty_append]

/-- A literal character is still to be copied. -/
theorem literal {c : Char} (h : Splits text copied pending (.literal c :: rest)) :
    Splits text copied (pending ++ String.singleton c) rest := by
  rw [Splits, Piece.ofList_flatMap_literal] at h
  rw [Splits, h, ← String.append_assoc, ← String.append_assoc]

/-- Up to the end of a token everything has been copied. -/
theorem token {r : Reference} (h : Splits text copied pending (.token r :: rest)) :
    Splits text (copied ++ pending ++ r.token) "" rest := by
  rw [Splits, Piece.ofList_flatMap_token] at h
  rw [Splits, h, String.append_empty, ← String.append_assoc]

/-- What is still to be copied is there. -/
theorem slice?_eq {pieces : List Piece} (h : Splits text copied pending pieces) :
    slice? text copied.utf8ByteSize (copied ++ pending).utf8ByteSize = some pending := by
  rw [Splits] at h
  rw [h, String.utf8ByteSize_append]
  exact slice?_append copied pending _

theorem eq_append (h : Splits text copied pending []) : text = copied ++ pending := by
  rwa [Splits, List.flatMap_nil, String.ofList_nil, String.append_empty] at h

end Splits

/-- **Every part that is to be copied is there**, and what comes out is what the pieces stand for. -/
theorem spliceFrom?_among (p : ParameterSet) (text : String) (pieces : List Piece) :
    ∀ copied pending resolved : String, Splits text copied pending pieces →
      p.spliceFrom? text copied.utf8ByteSize resolved
        (Place.among (copied ++ pending).utf8ByteSize pieces) =
      some ((p.resolvePieces pieces).map fun after =>
        resolved ++ pending ++ String.ofList after) := by
  induction pieces with
  | nil =>
      -- no token is left, and what is pending is the rest of the text
      intro copied pending resolved hsplits
      have hslice := hsplits.slice?_eq
      rw [← hsplits.eq_append] at hslice
      rw [Place.among, spliceFrom?, hslice, resolvePieces]
      show some (Except.ok (resolved ++ pending)) = some (Except.ok (resolved ++ pending ++ ""))
      rw [String.append_empty]
  | cons piece rest ih =>
      intro copied pending resolved hsplits
      cases piece with
      | literal c =>
          -- a letter outside of tokens waits with those that are pending
          have hrest := ih copied (pending ++ String.singleton c) resolved hsplits.literal
          rw [← String.append_assoc, String.utf8ByteSize_append,
            String.utf8ByteSize_singleton] at hrest
          rw [Place.among, hrest, resolvePieces, resolvePiece]
          cases p.resolvePieces rest with
          | error fault => rfl
          | ok after =>
              show some (Except.ok (resolved ++ (pending ++ String.singleton c) ++
                String.ofList after)) = some (Except.ok (resolved ++ pending ++
                String.ofList (c :: after)))
              rw [String.ofList_cons, ← String.append_assoc, ← String.append_assoc]
      | token r =>
          -- at a token what is pending is copied, and nothing is pending behind it
          rw [Place.among, spliceFrom?, resolvePieces, resolvePiece]
          cases hselect : p.select? r with
          | none => rfl
          | some value =>
              have hrest := ih (copied ++ pending ++ r.token) "" (resolved ++ pending ++ value)
                hsplits.token
              rw [String.append_empty, String.append_empty, String.utf8ByteSize_append] at hrest
              dsimp only
              rw [hsplits.slice?_eq]
              dsimp only
              rw [hrest]
              cases p.resolvePieces rest with
              | error fault => rfl
              | ok after =>
                  show some (Except.ok (resolved ++ pending ++ value ++ String.ofList after)) =
                    some (Except.ok (resolved ++ pending ++ String.ofList (value.toList ++ after)))
                  rw [String.ofList_append, String.ofList_toList, ← String.append_assoc]

/-- **SPLICING ENDS AS SUBSTITUTION DOES**, and misses no part of the text. -/
theorem splice?_eq (p : ParameterSet) (text : String) :
    p.splice? text = some (p.substituteText text) := by
  have hsplice := p.spliceFrom?_among text _ "" "" "" (Splits.start text)
  rw [String.empty_append, String.utf8ByteSize_empty] at hsplice
  rw [splice?, Place.inText, hsplice, substituteText_eq, expand]
  cases p.resolvePieces (Piece.ofText text.toList) with
  | error fault => rfl
  | ok after =>
      show some (p.checked ("" ++ "" ++ String.ofList after)) =
        some (Except.map String.ofList (match p.firstUnresolved? after with
          | some r => .error (unresolved r)
          | none => .ok after))
      rw [String.empty_append, String.empty_append, checked, String.toList_ofList]
      cases p.firstUnresolved? after with
      | none => rfl
      | some r => rfl

-- ── The ends of a text that is cut ────────────────────────────────────────────────

/-- A reference is the first of several that selects nothing. -/
def FirstWithout (p : ParameterSet) (references : List Reference) (r : Reference) : Prop :=
  ∃ before after, references = before ++ r :: after ∧ p.SelectsAll before ∧ p.select? r = none

/-- How substitution in a text that is cut ends: refused for the first of its tokens that selects
    nothing, or for the first reference that selects nothing in the cut that is filled in, and
    otherwise with this cut. -/
inductive Ends (p : ParameterSet) (cut : Cut) : Except Fault String → Prop
  | lacking (r : Reference) (hlacking : p.FirstWithout cut.references r) :
      Ends p cut (.error (unresolved r))
  | assembled (value : Reference → String) (r : Reference)
      (hvalue : ∀ r ∈ cut.references, p.select? r = some (value r))
      (hlacking : p.FirstWithout (occurrences (cut.fill value)) r) :
      Ends p cut (.error (unresolved r))
  | filled (value : Reference → String)
      (hvalue : ∀ r ∈ cut.references, p.select? r = some (value r))
      (hselects : p.SelectsAll (occurrences (cut.fill value))) :
      Ends p cut (.ok (String.ofList (cut.fill value)))

variable {p : ParameterSet}

theorem firstUnresolved?_eq_some_iff {text : List Char} {r : Reference} :
    p.firstUnresolved? text = some r ↔ p.FirstWithout (occurrences text) r := by
  rw [firstUnresolved?, inChars_eq_occurrences, List.find?_eq_some_iff_append]
  constructor
  · rintro ⟨hnone, before, after, htext, hbefore⟩
    refine ⟨before, after, htext, ?_, Option.isNone_iff_eq_none.mp hnone⟩
    intro r' hmem
    rw [← Option.not_isNone]
    exact hbefore r' hmem
  · rintro ⟨before, after, htext, hbefore, hnone⟩
    refine ⟨Option.isNone_iff_eq_none.mpr hnone, before, after, htext, ?_⟩
    intro r' hmem
    rw [Option.not_isNone]
    exact hbefore r' hmem

/-- Where every reference selects a value, there is one to put in the place of each. -/
theorem SelectsAll.exists_value {references : List Reference} (h : p.SelectsAll references) :
    ∃ value : Reference → String, ∀ r ∈ references, p.select? r = some (value r) := by
  refine ⟨fun r => (p.select? r).getD "", ?_⟩
  intro r hmem
  obtain ⟨value, hselect⟩ := Option.isSome_iff_exists.mp (h r hmem)
  show p.select? r = some ((p.select? r).getD "")
  rw [hselect, Option.getD_some]

theorem selectsAll_of_value {references : List Reference} {value : Reference → String}
    (h : ∀ r ∈ references, p.select? r = some (value r)) : p.SelectsAll references := by
  intro r hmem
  rw [h r hmem]
  rfl

variable {cut : Cut} {text : String}

/-- A text whose tokens all select values ends as the cut that is filled in does. -/
theorem substituteText_of_value {value : Reference → String} (hcut : cut.IsOf text.toList)
    (hvalue : ∀ r ∈ cut.references, p.select? r = some (value r)) :
    p.substituteText text =
      match p.firstUnresolved? (cut.fill value) with
      | some r => .error (unresolved r)
      | none => .ok (String.ofList (cut.fill value)) := by
  have hnone : p.firstUnresolved? text.toList = none := by
    rw [firstUnresolved?_eq_none_iff, inChars_eq_occurrences, ← hcut.references_eq]
    exact selectsAll_of_value hvalue
  rw [substituteText_eq, expand_eq, hnone, hcut.filled_eq hvalue]
  cases p.firstUnresolved? (cut.fill value) with
  | none => rfl
  | some r => rfl

theorem Ends.substituteText_eq {result : Except Fault String} (h : p.Ends cut result)
    (hcut : cut.IsOf text.toList) : p.substituteText text = result := by
  cases h with
  | lacking r hlacking =>
      rw [hcut.references_eq, ← firstUnresolved?_eq_some_iff] at hlacking
      rw [ParameterSet.substituteText_eq, expand_eq, hlacking]
      rfl
  | assembled value r hvalue hlacking =>
      rw [substituteText_of_value hcut hvalue, firstUnresolved?_eq_some_iff.mpr hlacking]
  | filled value hvalue hselects =>
      rw [← inChars_eq_occurrences, ← firstUnresolved?_eq_none_iff] at hselects
      rw [substituteText_of_value hcut hvalue, hselects]

/-- **Every text has one of the ends.** -/
theorem ends_substituteText (p : ParameterSet) (hcut : cut.IsOf text.toList) :
    p.Ends cut (p.substituteText text) := by
  cases hfirst : p.firstUnresolved? text.toList with
  | some r =>
      rw [firstUnresolved?_eq_some_iff, ← hcut.references_eq] at hfirst
      have hlacking : p.Ends cut (.error (unresolved r)) := .lacking r hfirst
      rwa [hlacking.substituteText_eq hcut]
  | none =>
      rw [firstUnresolved?_eq_none_iff, inChars_eq_occurrences, ← hcut.references_eq] at hfirst
      obtain ⟨value, hvalue⟩ := hfirst.exists_value
      rw [substituteText_of_value hcut hvalue]
      cases hsecond : p.firstUnresolved? (cut.fill value) with
      | some r => exact .assembled value r hvalue (firstUnresolved?_eq_some_iff.mp hsecond)
      | none =>
          rw [firstUnresolved?_eq_none_iff, inChars_eq_occurrences] at hsecond
          exact .filled value hvalue hsecond

/-- **A TEXT COMES OUT AS ITS CUT WITH THE VALUES IN THE PLACE OF THE TOKENS**, unless a token of it
    or a reference in what comes out selects nothing. No part that is to be copied is missing, and
    a text without two opening braces in a row ends the same way without being searched. -/
theorem substituteText_fills_cut (p : ParameterSet) (text : String) :
    (∃! cut : Cut, cut.IsOf text.toList) ∧
    (∀ cut : Cut, cut.IsOf text.toList →
      ∀ result, p.substituteText text = result ↔ p.Ends cut result) ∧
    p.splice? text = some (p.substituteText text) ∧
    (∀ place ∈ Place.inText text,
      slice? text place.start place.stop = some place.reference.token) ∧
    p.substituteText text = (p.expand text.toList).map String.ofList ∧
    (¬ ['{', '{'] <:+: text.toList → p.substituteText text = .ok text) := by
  refine ⟨⟨_, Cut.isOf_ofPieces text.toList, ?_⟩, ?_, p.splice?_eq text,
    fun _ => Place.slice?_of_mem_inText, substituteText_eq p text, ?_⟩
  · intro other hother
    exact (Cut.isOf_ofPieces text.toList).unique hother
  · intro cut hcut result
    constructor
    · rintro rfl
      exact p.ends_substituteText hcut
    · intro hends
      exact hends.substituteText_eq hcut
  · intro hnot
    rw [← hasOpening_iff] at hnot
    rw [substituteText, if_neg hnot]

/-- Two values that meet make up a token, which is checked but not expanded; a value and the text
    behind it may do so as well. -/
theorem substituteText_fills_cut_assembled :
    (ofList [("x", ["\x7b\x7b"]), ("y", ["q", "y\x7d\x7d"])]).substituteText
      "a {{x}}{{ y[1] }} b" = .ok "a {{y}} b" ∧
    (ofList [("x", ["\x7b\x7b"])]).substituteText "{{x}}z\x7d\x7d" =
      .error (.unresolved "z" "{{z}}") ∧
    empty.substituteText "{ {x}}" = .ok "{ {x}}" := by
  refine ⟨?_, ?_, ?_⟩
  · obtain ⟨-, hends, -⟩ := substituteText_fills_cut
      (ofList [("x", ["\x7b\x7b"]), ("y", ["q", "y\x7d\x7d"])]) "a {{x}}{{ y[1] }} b"
    have hcut : (Cut.mk ['a', ' '] [(⟨"x", none, "{{x}}"⟩, []),
        (⟨"y", some 1, "{{ y[1] }}"⟩, [' ', 'b'])]).IsOf "a {{x}}{{ y[1] }} b".toList :=
      ⟨by decide +kernel, by decide +kernel⟩
    refine (hends _ hcut _).mpr
      (.filled (fun r => if r.name = "x" then "\x7b\x7b" else "y\x7d\x7d") ?_ ?_)
    · decide +kernel
    · unfold SelectsAll
      decide +kernel
  · obtain ⟨-, hends, -⟩ := substituteText_fills_cut (ofList [("x", ["\x7b\x7b"])])
      "{{x}}z\x7d\x7d"
    have hcut : (Cut.mk [] [(⟨"x", none, "{{x}}"⟩, ['z', '}', '}'])]).IsOf
        "{{x}}z\x7d\x7d".toList :=
      ⟨by decide +kernel, by decide +kernel⟩
    refine (hends _ hcut _).mpr (.assembled (fun _ => "\x7b\x7b") ⟨"z", none, "{{z}}"⟩ ?_
      ⟨[], [], ?_, nofun, ?_⟩)
    · decide +kernel
    · decide +kernel
    · decide +kernel
  · obtain ⟨-, -, -, -, -, hshort⟩ := substituteText_fills_cut empty "{ {x}}"
    exact hshort (by decide)

end ParameterSet

end AgentWire
