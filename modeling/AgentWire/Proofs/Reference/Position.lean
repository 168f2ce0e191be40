import AgentWire.Proofs.Reference.Occurrence
import Mathlib

/-!
# Positions — where the tokens of a text stand

Positions are counted in bytes. Two of them bound a part of a text only if both stand between
characters; in the middle of a character there is no position to cut at (`slice?`). The search keeps
the position of each token that it reads (`placesIn`), and these always bound a part, the token.

The pieces of a text make up the text again, whatever they are cut at:

    (ofText text).flatMap (fillWith token) = text

So a text is a reference exactly if the first token that is found in it begins where the text begins
and ends where it ends.
-/

namespace AgentWire

open Reference

-- ── Parts of a text between two positions ─────────────────────────────────────────

/-- The part of a text between two positions, if both stand between characters of the text and the
    first does not stand behind the second. -/
def slice? (text : String) (start stop : Nat) : Option String :=
  if String.Pos.Raw.isValid text ⟨start⟩ ∧ String.Pos.Raw.isValid text ⟨stop⟩ ∧ start ≤ stop then
    some (String.Pos.Raw.extract text ⟨start⟩ ⟨stop⟩)
  else none

/-- **Where a text is put together, it can be cut.** -/
theorem slice?_append (before inside after : String) :
    slice? (before ++ inside ++ after) before.utf8ByteSize
      (before.utf8ByteSize + inside.utf8ByteSize) = some inside := by
  have hstart : String.Pos.Raw.IsValid (before ++ inside ++ after) ⟨before.utf8ByteSize⟩ :=
    String.Pos.Raw.isValid_iff_exists_append.mpr
      ⟨before, inside ++ after, String.append_assoc .., rfl⟩
  have hstop : String.Pos.Raw.IsValid (before ++ inside ++ after)
      ⟨before.utf8ByteSize + inside.utf8ByteSize⟩ :=
    String.Pos.Raw.isValid_iff_exists_append.mpr
      ⟨before ++ inside, after, rfl, congrArg _ String.utf8ByteSize_append.symm⟩
  have hextract := String.extract_of_valid before.toList inside.toList after.toList
  simp only [← String.utf8ByteSize_ofList, String.ofList_append, String.ofList_toList] at hextract
  rw [slice?, if_pos ⟨String.Pos.Raw.isValid_eq_true_iff.mpr hstart,
    String.Pos.Raw.isValid_eq_true_iff.mpr hstop, Nat.le_add_right _ _⟩, hextract]

-- ── The pieces make up the text ───────────────────────────────────────────────────

namespace Piece

/-- The text of a piece, with some text in the place of a reference. -/
def fillWith (value : Reference → String) : Piece → List Char
  | .literal c => [c]
  | .token r => (value r).toList

theorem ofList_flatMap_literal (value : Reference → String) (c : Char) (rest : List Piece) :
    String.ofList ((literal c :: rest).flatMap (fillWith value)) =
      String.singleton c ++ String.ofList (rest.flatMap (fillWith value)) :=
  String.ofList_cons

theorem ofList_flatMap_token (value : Reference → String) (r : Reference) (rest : List Piece) :
    String.ofList ((token r :: rest).flatMap (fillWith value)) =
      value r ++ String.ofList (rest.flatMap (fillWith value)) := by
  rw [List.flatMap_cons, String.ofList_append]
  exact congrArg (· ++ _) String.ofList_toList

/-- **THE PIECES OF A TEXT MAKE IT UP AGAIN.** -/
theorem flatMap_token_ofText (text : List Char) :
    (ofText text).flatMap (fillWith Reference.token) = text := by
  fun_induction ofText text with
  | case1 => rfl
  | case2 c rest r after hread ih =>
      obtain ⟨name, digits, token, -, htext, rfl⟩ := read?_eq_some_iff.mp hread
      rw [List.flatMap_cons, ih, htext]
      exact congrArg (· ++ after) String.toList_ofList
  | case3 c rest _ ih =>
      rw [List.flatMap_cons, ih]
      rfl

end Piece

-- ── Places ────────────────────────────────────────────────────────────────────────

/-- Where a token stands in a text, and what it refers to. -/
structure Place where
  start : Nat
  stop : Nat
  reference : Reference
deriving DecidableEq, Repr

namespace Place

/-- The places of the tokens among pieces, the first of which stands at a position. -/
def among (position : Nat) : List Piece → List Place
  | [] => []
  | .literal c :: rest => among (position + c.utf8Size) rest
  | .token r :: rest =>
    let stop := position + r.token.utf8ByteSize
    ⟨position, stop, r⟩ :: among stop rest

/-- The places of the tokens in a text, from left to right. -/
def inText (text : String) : List Place :=
  among 0 (Piece.ofText text.toList)

theorem reference_among (position : Nat) (pieces : List Piece) :
    (among position pieces).map reference = pieces.filterMap Piece.reference? := by
  induction pieces generalizing position with
  | nil => rfl
  | cons piece rest ih =>
      cases piece with
      | literal c => exact ih (position + c.utf8Size)
      | token r => exact congrArg (r :: ·) (ih (position + r.token.utf8ByteSize))

theorem slice?_of_mem_among {place : Place} (pieces : List Piece) (before : String)
    (h : place ∈ among before.utf8ByteSize pieces) :
    slice? (before ++ String.ofList (pieces.flatMap (Piece.fillWith Reference.token)))
      place.start place.stop = some place.reference.token := by
  induction pieces generalizing before with
  | nil => exact nomatch h
  | cons piece rest ih =>
      cases piece with
      | literal c =>
          rw [Piece.ofList_flatMap_literal, ← String.append_assoc]
          refine ih _ ?_
          rw [String.utf8ByteSize_append, String.utf8ByteSize_singleton]
          exact h
      | token r =>
          rw [Piece.ofList_flatMap_token, ← String.append_assoc]
          rcases List.mem_cons.mp h with rfl | hrest
          · exact slice?_append before r.token _
          · refine ih _ ?_
            rw [String.utf8ByteSize_append]
            exact hrest

/-- **At the place of a token the token stands.** -/
theorem slice?_of_mem_inText {text : String} {place : Place} (h : place ∈ inText text) :
    slice? text place.start place.stop = some place.reference.token := by
  have hslice := slice?_of_mem_among (Piece.ofText text.toList) "" h
  rwa [Piece.flatMap_token_ofText, String.ofList_toList, String.empty_append] at hslice

/-- **A text is a reference exactly if the first place that is found in it is the whole of it.** -/
theorem head?_inText_eq_some_iff {text : String} {r : Reference} :
    (inText text).head? = some ⟨0, text.utf8ByteSize, r⟩ ↔ parse? text = some r := by
  constructor
  · intro h
    have hmem : ⟨0, text.utf8ByteSize, r⟩ ∈ inText text := List.mem_of_mem_head? h
    -- the place reaches from end to end, so its token is the text
    have hwhole := slice?_append "" text ""
    rw [String.empty_append, String.append_empty, String.utf8ByteSize_empty, Nat.zero_add,
      slice?_of_mem_inText hmem] at hwhole
    have hfound : r ∈ inChars text.toList := by
      rw [inChars, ← reference_among 0]
      exact List.mem_map.mpr ⟨_, hmem, rfl⟩
    rw [← Option.some.inj hwhole]
    exact parse?_token hfound
  · intro h
    have htoken : r.token = text := by
      obtain ⟨name, digits, -, rfl⟩ := parse?_eq_some_iff.mp h
      exact String.ofList_toList
    have hpieces : Piece.ofText text.toList = [.token r] := by
      have hparted := Piece.ofText_append_token (htoken.symm ▸ h) [] []
      rwa [htoken, List.nil_append, List.append_nil, Piece.ofText] at hparted
    rw [inText, hpieces]
    show some (Place.mk 0 (0 + r.token.utf8ByteSize) r) = _
    rw [Nat.zero_add, htoken]

end Place

end AgentWire
