import AgentWire.Proofs.Reference.Position
import AgentWire.Proofs.Substitution.Outcome

/-!
# Cuts — a text between its references

A text is cut at its references into literal text and tokens by turns (`Cut`). A cut is one of the
text (`IsOf`) if it makes up the text and its references are the occurrences in the text, all of
them, in order. That leaves one cut for each text:

1. The pieces of the search give such a cut (`isOf_ofPieces`).
2. The search goes through any such cut as it stands, because a token parts the search and there are
   no more references in the text than the cut has (`IsOf.ofText_eq`).

A text that is filled in is its cut with the values in the place of the tokens.
-/

namespace AgentWire

open Reference

/-- A text cut at references: the literal text in front, and each reference with the literal text
    behind it. -/
structure Cut where
  lead : List Char
  parts : List (Reference × List Char)
deriving DecidableEq, Repr

namespace Cut

/-- The references at which a text is cut. -/
def references (cut : Cut) : List Reference :=
  cut.parts.map (·.1)

/-- The literal text, with some text in the place of each reference. -/
def fill (cut : Cut) (value : Reference → String) : List Char :=
  cut.lead ++ cut.parts.flatMap fun part => (value part.1).toList ++ part.2

/-- A cut is that of a text into the tokens that occur in it, all of them in order, and the literal
    text between them. -/
structure IsOf (cut : Cut) (text : List Char) : Prop where
  fill_token : cut.fill Reference.token = text
  references_eq : cut.references = occurrences text

/-- The pieces of a text that is cut, if its literal text holds no reference. -/
def pieces (cut : Cut) : List Piece :=
  cut.lead.map .literal ++ cut.parts.flatMap fun part => .token part.1 :: part.2.map .literal

/-- The cut of pieces at their references. -/
def ofPieces : List Piece → Cut
  | [] => ⟨[], []⟩
  | .literal c :: rest => ⟨c :: (ofPieces rest).lead, (ofPieces rest).parts⟩
  | .token r :: rest => ⟨[], (r, (ofPieces rest).lead) :: (ofPieces rest).parts⟩

-- ── Pieces and cuts ───────────────────────────────────────────────────────────────

theorem references_ofPieces (pieces : List Piece) :
    (ofPieces pieces).references = pieces.filterMap Piece.reference? := by
  induction pieces with
  | nil => rfl
  | cons piece rest ih =>
      cases piece with
      | literal c => exact ih
      | token r => exact congrArg (r :: ·) ih

theorem fill_ofPieces (value : Reference → String) (pieces : List Piece) :
    (ofPieces pieces).fill value = pieces.flatMap (Piece.fillWith value) := by
  induction pieces with
  | nil => rfl
  | cons piece rest ih =>
      rw [List.flatMap_cons, ← ih]
      cases piece with
      | literal c => rfl
      | token r => exact (List.append_assoc ..)

theorem ofPieces_literals (literal : List Char) (rest : List Piece) :
    ofPieces (literal.map .literal ++ rest) =
      ⟨literal ++ (ofPieces rest).lead, (ofPieces rest).parts⟩ := by
  induction literal with
  | nil => rfl
  | cons c literal ih => rw [List.map_cons, List.cons_append, ofPieces, ih]; rfl

theorem ofPieces_parts (parts : List (Reference × List Char)) :
    ofPieces (parts.flatMap fun part => .token part.1 :: part.2.map .literal) = ⟨[], parts⟩ := by
  induction parts with
  | nil => rfl
  | cons part rest ih =>
      rw [List.flatMap_cons, List.cons_append, ofPieces, ofPieces_literals, ih, List.append_nil]

/-- A cut is made again of its pieces. -/
theorem ofPieces_pieces (cut : Cut) : ofPieces cut.pieces = cut := by
  rw [pieces, ofPieces_literals, ofPieces_parts, List.append_nil]

/-- **The pieces of a text give a cut of it.** -/
theorem isOf_ofPieces (text : List Char) : (ofPieces (Piece.ofText text)).IsOf text where
  fill_token := (fill_ofPieces _ _).trans (Piece.flatMap_token_ofText text)
  references_eq := (references_ofPieces _).trans (inChars_eq_occurrences text)

-- ── One cut for each text ─────────────────────────────────────────────────────────

/-- Each token of a cut parts the search. -/
theorem ofText_fill_token (parts : List (Reference × List Char))
    (h : ∀ part ∈ parts, parse? part.1.token = some part.1) (lead : List Char) :
    Piece.ofText (lead ++ parts.flatMap fun part => part.1.token.toList ++ part.2) =
      Piece.ofText lead ++ parts.flatMap fun part => .token part.1 :: Piece.ofText part.2 := by
  induction parts generalizing lead with
  | nil => rw [List.flatMap_nil, List.flatMap_nil, List.append_nil, List.append_nil]
  | cons part rest ih =>
      obtain ⟨hpart, hrest⟩ := List.forall_mem_cons.mp h
      rw [List.flatMap_cons, List.flatMap_cons, List.append_assoc,
        Piece.ofText_append_token hpart, ih hrest, List.cons_append]

/-- The references of a text that is cut are those of the cut and those of its literal text. -/
theorem length_references (parts : List (Reference × List Char)) (lead : List Char) :
    ((Piece.ofText lead ++ parts.flatMap fun part =>
      .token part.1 :: Piece.ofText part.2).filterMap Piece.reference?).length =
        (inChars lead).length + (parts.map fun part => (inChars part.2).length).sum +
          parts.length := by
  induction parts generalizing lead with
  | nil => rw [List.flatMap_nil, List.append_nil]; rfl
  | cons part rest ih =>
      have hrest := ih part.2
      rw [List.filterMap_append] at hrest ⊢
      rw [List.flatMap_cons, List.cons_append, List.length_append, List.map_cons, List.sum_cons,
        List.length_cons]
      show (inChars lead).length + (List.length (part.1 :: _)) = _
      rw [List.length_cons, List.filterMap_append, hrest]
      omega

/-- **The search goes through a cut of a text as it stands.** -/
theorem IsOf.ofText_eq {cut : Cut} {text : List Char} (h : cut.IsOf text) :
    Piece.ofText text = cut.pieces := by
  have hreferences : inChars text = cut.references :=
    (inChars_eq_occurrences text).trans h.references_eq.symm
  have htokens : ∀ part ∈ cut.parts, parse? part.1.token = some part.1 := by
    intro part hmem
    have hfound : part.1 ∈ inChars text := by
      rw [hreferences]
      exact List.mem_map.mpr ⟨part, hmem, rfl⟩
    exact parse?_token hfound
  have hpieces := ofText_fill_token cut.parts htokens cut.lead
  rw [show cut.lead ++ cut.parts.flatMap _ = text from h.fill_token] at hpieces
  -- the tokens of the cut are all references there are, so the literals hold none
  have hlength := congrArg List.length hreferences
  rw [inChars, hpieces, length_references, references, List.length_map] at hlength
  have hsum : (cut.parts.map fun part => (inChars part.2).length).sum = 0 := by omega
  have hlead : inChars cut.lead = [] := List.length_eq_zero_iff.mp (by omega)
  have hliteral : ∀ part ∈ cut.parts, inChars part.2 = [] := by
    intro part hmem
    refine List.length_eq_zero_iff.mp ?_
    exact List.sum_eq_zero_iff.mp hsum _ (List.mem_map.mpr ⟨part, hmem, rfl⟩)
  rw [hpieces, pieces, ParameterSet.ofText_of_inChars_eq_nil hlead]
  refine congrArg (_ ++ ·) (List.flatMap_congr ?_)
  intro part hmem
  rw [ParameterSet.ofText_of_inChars_eq_nil (hliteral part hmem)]

/-- **A TEXT HAS ONE CUT.** -/
theorem IsOf.unique {cut other : Cut} {text : List Char} (h : cut.IsOf text)
    (h' : other.IsOf text) : other = cut := by
  rw [← ofPieces_pieces other, ← h'.ofText_eq, h.ofText_eq, ofPieces_pieces]

-- ── Values in the place of tokens ─────────────────────────────────────────────────

theorem fill_congr {cut : Cut} {value value' : Reference → String}
    (h : ∀ r ∈ cut.references, value r = value' r) : cut.fill value = cut.fill value' := by
  refine congrArg (cut.lead ++ ·) (List.flatMap_congr ?_)
  intro part hmem
  rw [h part.1 (List.mem_map.mpr ⟨part, hmem, rfl⟩)]

/-- **A text is filled in by filling in its cut.** -/
theorem IsOf.filled_eq {cut : Cut} {text : List Char} (h : cut.IsOf text) {p : ParameterSet}
    {value : Reference → String} (hvalue : ∀ r ∈ cut.references, p.select? r = some (value r)) :
    p.filled text = cut.fill value := by
  have hpiece : p.fillPiece = Piece.fillWith fun r => (p.select? r).getD "" := by
    funext piece
    cases piece with
    | literal c => rfl
    | token r => rfl
  rw [ParameterSet.filled, hpiece, ← fill_ofPieces, h.ofText_eq, ofPieces_pieces]
  refine fill_congr ?_
  intro r hmem
  rw [hvalue r hmem, Option.getD_some]

end Cut

end AgentWire
