import AgentWire.Substitution
import AgentWire.Proofs.Json.Shape
import AgentWire.Proofs.Reference.Token

/-!
# Outcomes of a substitution — the three ways in which it ends

A text is refused for a reference of its own, or for one of the text that comes out, or it becomes
its pieces with every reference filled in (`filled`). The short way for texts without two opening
braces ends as the long way does, because no reference stands in such a text.

A content is refused only if one of its leaves is, and whatever comes out of it asks for values
that are there.
-/

namespace AgentWire

open Reference

/-- A fault that says of some reference that it selects nothing. -/
def Fault.IsUnresolved (fault : Fault) : Prop :=
  ∃ name token, fault = .unresolved name token

namespace ParameterSet

/-- Every reference of a list selects a value. -/
def SelectsAll (p : ParameterSet) (references : List Reference) : Prop :=
  ∀ r ∈ references, (p.select? r).isSome = true

/-- The text that a piece stands for, nothing where a reference selects nothing. -/
def fillPiece (p : ParameterSet) : Piece → List Char
  | .literal c => [c]
  | .token r => ((p.select? r).getD "").toList

/-- A text with the values in place of its references. -/
def filled (p : ParameterSet) (text : List Char) : List Char :=
  (Piece.ofText text).flatMap p.fillPiece

theorem firstUnresolved?_eq_none_iff (p : ParameterSet) (text : List Char) :
    p.firstUnresolved? text = none ↔ p.SelectsAll (inChars text) := by
  unfold firstUnresolved? SelectsAll
  rw [List.find?_eq_none]
  constructor
  · intro h r hmem
    have hnot := h r hmem
    cases hselect : p.select? r with
    | none => rw [hselect] at hnot; exact absurd rfl hnot
    | some value => rfl
  · intro h r hmem hnone
    have hsome := h r hmem
    rw [Option.isNone_iff_eq_none] at hnone
    rw [hnone] at hsome
    exact Bool.noConfusion hsome

/-- The first reference that selects nothing is one of the text, and selects nothing. -/
theorem of_firstUnresolved? {p : ParameterSet} {text : List Char} {r : Reference}
    (h : p.firstUnresolved? text = some r) : r ∈ inChars text ∧ p.select? r = none := by
  unfold firstUnresolved? at h
  have hnone := List.find?_some h
  exact ⟨List.mem_of_find?_eq_some h, Option.isNone_iff_eq_none.mp hnone⟩

-- ── Pieces ────────────────────────────────────────────────────────────────────────

/-- Pieces are resolved up to the first reference that selects nothing. -/
theorem resolvePieces_eq (p : ParameterSet) (pieces : List Piece) :
    p.resolvePieces pieces =
      match (pieces.filterMap Piece.reference?).find? fun r => (p.select? r).isNone with
      | some r => .error (unresolved r)
      | none => .ok (pieces.flatMap p.fillPiece) := by
  induction pieces with
  | nil => rfl
  | cons piece rest ih =>
      rw [resolvePieces, ih]
      cases piece with
      | literal c =>
          rw [show List.filterMap Piece.reference? (.literal c :: rest) =
            rest.filterMap Piece.reference? from rfl]
          cases (rest.filterMap Piece.reference?).find? fun r => (p.select? r).isNone with
          | none => rfl
          | some r => rfl
      | token r =>
          -- the first token that selects nothing decides, whatever stands behind it
          rw [show List.filterMap Piece.reference? (.token r :: rest) =
            r :: rest.filterMap Piece.reference? from rfl]
          cases hselect : p.select? r with
          | none => simp [resolvePiece, hselect]
          | some value =>
              cases hrest :
                (rest.filterMap Piece.reference?).find? fun r => (p.select? r).isNone with
              | none => simp [resolvePiece, fillPiece, hselect, hrest]
              | some r' => simp [resolvePiece, hselect, hrest]

/-- **THE THREE ENDS OF A TEXT**: the first reference without a value fails it, then the first
    one of the text that comes out, and otherwise it is filled. -/
theorem expand_eq (p : ParameterSet) (text : List Char) :
    p.expand text =
      match p.firstUnresolved? text with
      | some r => .error (unresolved r)
      | none =>
        match p.firstUnresolved? (p.filled text) with
        | some r => .error (unresolved r)
        | none => .ok (p.filled text) := by
  rw [expand, resolvePieces_eq, show (Piece.ofText text).filterMap Piece.reference? =
    inChars text from rfl]
  cases hfirst : p.firstUnresolved? text with
  | some r =>
      rw [firstUnresolved?] at hfirst
      rw [hfirst]
  | none =>
      rw [firstUnresolved?] at hfirst
      rw [hfirst]
      rfl

/-- A text without references is made of literal characters. -/
theorem ofText_of_inChars_eq_nil {text : List Char} (h : inChars text = []) :
    Piece.ofText text = text.map .literal := by
  unfold inChars at h
  fun_induction Piece.ofText text with
  | case1 => rfl
  | case2 c rest r after hread _ => exact absurd h (List.cons_ne_nil r _)
  | case3 c rest _ ih => rw [ih h, List.map_cons]

/-- A text without references is filled in as it is. -/
theorem filled_of_inChars_eq_nil (p : ParameterSet) {text : List Char} (h : inChars text = []) :
    p.filled text = text := by
  rw [filled, ofText_of_inChars_eq_nil h, List.flatMap_map]
  exact List.flatMap_singleton' text

-- ── The short way ─────────────────────────────────────────────────────────────────

theorem hasOpening_of_cons {c : Char} {rest : List Char} (h : hasOpening (c :: rest) = false) :
    hasOpening rest = false := by
  rw [hasOpening.eq_def] at h
  split at h
  · exact Bool.noConfusion h
  · rename_i heq
    cases heq
    exact h
  · rename_i heq
    exact nomatch heq

/-- Two opening braces stand next to each other if they are a part of the text. -/
theorem hasOpening_iff {text : List Char} : hasOpening text = true ↔ ['{', '{'] <:+: text := by
  fun_induction hasOpening text with
  | case1 rest => exact iff_of_true rfl (List.prefix_append ['{', '{'] rest).isInfix
  | case2 c rest hnot ih =>
      rw [ih, List.infix_cons_iff]
      constructor
      · exact Or.inr
      · rintro (⟨tail, htail⟩ | hinfix)
        · obtain ⟨rfl, rfl⟩ := List.cons.inj htail
          exact (hnot tail rfl rfl).elim
        · exact hinfix
  | case3 => exact iff_of_false Bool.noConfusion (by decide)

/-- Without two opening braces in a row a text is made of literal characters. -/
theorem ofText_of_not_hasOpening {text : List Char} (h : hasOpening text = false) :
    Piece.ofText text = text.map .literal := by
  fun_induction Piece.ofText text with
  | case1 => rfl
  | case2 c rest r after hread _ =>
      obtain ⟨tail, htail⟩ := exists_braces_of_read? hread
      rw [htail] at h
      exact Bool.noConfusion h
  | case3 c rest _ ih => rw [ih (hasOpening_of_cons h), List.map_cons]

theorem inChars_of_not_hasOpening {text : List Char} (h : hasOpening text = false) :
    inChars text = [] := by
  rw [inChars, ofText_of_not_hasOpening h, List.filterMap_map]
  exact List.filterMap_eq_nil_iff.mpr fun _ _ => rfl

/-- **The short way ends as the long way does.** -/
theorem substituteText_eq (p : ParameterSet) (text : String) :
    p.substituteText text = (p.expand text.toList).map String.ofList := by
  unfold substituteText
  split
  · rfl
  · rename_i hnot
    have hopening : hasOpening text.toList = false := Bool.eq_false_iff.mpr hnot
    have hnone : p.firstUnresolved? text.toList = none := by
      rw [firstUnresolved?, inChars_of_not_hasOpening hopening]
      rfl
    rw [expand_eq, filled_of_inChars_eq_nil p (inChars_of_not_hasOpening hopening), hnone]
    show Except.ok text = Except.ok (String.ofList text.toList)
    rw [String.ofList_toList]

/-- A text without references stays as it is. -/
theorem substituteText_of_inText_eq_nil (p : ParameterSet) {text : String}
    (h : inText text = []) : p.substituteText text = .ok text := by
  have hchars : inChars text.toList = [] := h
  have hnone : p.firstUnresolved? text.toList = none := by
    rw [firstUnresolved?, hchars]
    rfl
  rw [substituteText_eq, expand_eq, filled_of_inChars_eq_nil p hchars, hnone]
  show Except.ok (String.ofList text.toList) = Except.ok text
  rw [String.ofList_toList]

/-- **A text is accepted exactly if the references in it and in what it is filled in to all select
    values**, and it comes out filled in. -/
theorem substituteText_eq_ok_iff {p : ParameterSet} {text text' : String} :
    p.substituteText text = .ok text' ↔ p.SelectsAll (inText text) ∧
      text' = String.ofList (p.filled text.toList) ∧ p.SelectsAll (inText text') := by
  rw [substituteText_eq, expand_eq]
  constructor
  · intro h
    cases hfirst : p.firstUnresolved? text.toList with
    | some r => rw [hfirst] at h; exact nomatch h
    | none =>
        rw [hfirst] at h
        -- what the text is filled in to is searched as well
        cases hsecond : p.firstUnresolved? (p.filled text.toList) with
        | some r => rw [hsecond] at h; exact nomatch h
        | none =>
            rw [hsecond] at h
            have htext : String.ofList (p.filled text.toList) = text' := Except.ok.inj h
            refine ⟨(p.firstUnresolved?_eq_none_iff _).mp hfirst, htext.symm, ?_⟩
            rw [← htext, inText, String.toList_ofList]
            exact (p.firstUnresolved?_eq_none_iff _).mp hsecond
  · rintro ⟨hbefore, rfl, hafter⟩
    rw [inText, String.toList_ofList] at hafter
    rw [← firstUnresolved?_eq_none_iff] at hafter
    rw [(p.firstUnresolved?_eq_none_iff _).mpr hbefore, hafter]
    rfl

/-- A text that is accepted asks for values that are there, before and after. -/
theorem selectsAll_of_substituteText {p : ParameterSet} {text text' : String}
    (h : p.substituteText text = .ok text') :
    p.SelectsAll (inText text) ∧ p.SelectsAll (inText text') := by
  obtain ⟨hbefore, -, hafter⟩ := substituteText_eq_ok_iff.mp h
  exact ⟨hbefore, hafter⟩

/-- A text is refused for a reference that selects nothing, in the text or in what comes out. -/
theorem exists_of_substituteText_error {p : ParameterSet} {text : String} {fault : Fault}
    (h : p.substituteText text = .error fault) :
    ∃ r, fault = unresolved r ∧ p.select? r = none ∧
      (r ∈ inText text ∨ r ∈ inChars (p.filled text.toList)) := by
  rw [substituteText_eq, expand_eq] at h
  cases hfirst : p.firstUnresolved? text.toList with
  | some r =>
      rw [hfirst] at h
      obtain ⟨hmem, hnone⟩ := of_firstUnresolved? hfirst
      exact ⟨r, (Except.error.inj h).symm, hnone, Or.inl hmem⟩
  | none =>
      rw [hfirst] at h
      cases hsecond : p.firstUnresolved? (p.filled text.toList) with
      | some r =>
          rw [hsecond] at h
          obtain ⟨hmem, hnone⟩ := of_firstUnresolved? hsecond
          exact ⟨r, (Except.error.inj h).symm, hnone, Or.inr hmem⟩
      | none => rw [hsecond] at h; exact nomatch h

-- ── Contents ──────────────────────────────────────────────────────────────────────

/-- A content that is accepted keeps its shape, and asks for values that are there, before and
    after. -/
theorem substitute_eq_ok {p : ParameterSet} {content content' : Json}
    (h : p.substitute content = .ok content') :
    Json.SameShape content content' ∧ p.SelectsAll (inContent content) ∧
      p.SelectsAll (inContent content') := by
  obtain ⟨hshape, hleaves⟩ := Json.mapLeavesM_eq_ok h
  refine ⟨hshape, ?_, ?_⟩
  · intro r hmem
    obtain ⟨text, hin, href⟩ := List.mem_flatMap.mp hmem
    obtain ⟨text', hto⟩ := hleaves.exists_ok text hin
    exact (selectsAll_of_substituteText hto).1 r href
  · intro r hmem
    obtain ⟨text', hin, href⟩ := List.mem_flatMap.mp hmem
    obtain ⟨text, -, hto⟩ := hleaves.exists_source text' hin
    exact (selectsAll_of_substituteText hto).2 r href

/-- **A content without references stays as it is.** -/
theorem substitute_of_inContent_eq_nil (p : ParameterSet) {content : Json}
    (h : inContent content = []) : p.substitute content = .ok content := by
  refine Json.mapLeavesM_eq_self content ?_
  intro text hmem
  exact p.substituteText_of_inText_eq_nil (List.flatMap_eq_nil_iff.mp h text hmem)

/-- A content is refused for a reference that selects nothing, in one of its leaves or in what
    comes out of one. -/
theorem exists_of_substitute_error {p : ParameterSet} {content : Json} {fault : Fault}
    (h : p.substitute content = .error fault) :
    ∃ r, fault = unresolved r ∧ p.select? r = none ∧
      (r ∈ inContent content ∨ ∃ text ∈ content.leaves, r ∈ inChars (p.filled text.toList)) := by
  obtain ⟨before, text, after, hleaves, -, hrefused⟩ := Json.mapLeavesM_eq_error h
  have hin : text ∈ content.leaves := by rw [hleaves]; simp
  obtain ⟨r, hfault, hnone, hwhere⟩ := exists_of_substituteText_error hrefused
  refine ⟨r, hfault, hnone, ?_⟩
  rcases hwhere with hmem | hmem
  · exact Or.inl (List.mem_flatMap.mpr ⟨text, hin, hmem⟩)
  · exact Or.inr ⟨text, hin, hmem⟩

/-- A reference without a value in the content is enough to refuse it. -/
theorem exists_error_of_select?_eq_none {p : ParameterSet} {content : Json} {r : Reference}
    (hmem : r ∈ inContent content) (hnone : p.select? r = none) :
    ∃ fault, p.substitute content = .error fault := by
  cases hresult : p.substitute content with
  | error fault => exact ⟨fault, rfl⟩
  | ok content' =>
      have hsome := (substitute_eq_ok hresult).2.1 r hmem
      rw [hnone] at hsome
      exact Bool.noConfusion hsome

end ParameterSet

-- ── Documents ─────────────────────────────────────────────────────────────────────

theorem Document.substitute_eq_ok {content content' : Document} {p : ParameterSet}
    (h : content.substitute p = .ok content') : p.substitute content.tree = .ok content'.tree := by
  unfold Document.substitute at h
  split at h
  · rename_i tree hresolved
    rw [hresolved, ← Except.ok.inj h]
  · exact nomatch h

theorem Document.substitute_of_inContent_eq_nil (content : Document) (p : ParameterSet)
    (h : inContent content.tree = []) : content.substitute p = .ok content := by
  have hself := p.substitute_of_inContent_eq_nil h
  unfold Document.substitute
  split
  · rename_i tree hresolved
    obtain ⟨tree', hdistinct⟩ := content
    cases hself.symm.trans hresolved
    rfl
  · rename_i fault hresolved
    exact nomatch hself.symm.trans hresolved

theorem Document.substitute_eq_error_iff {content : Document} {p : ParameterSet} {fault : Fault} :
    content.substitute p = .error fault ↔ p.substitute content.tree = .error fault := by
  unfold Document.substitute
  split
  · rename_i tree hresolved
    constructor
    · intro h
      exact nomatch h
    · intro h
      exact nomatch hresolved.symm.trans h
  · rename_i fault' hresolved
    constructor
    · intro h
      exact hresolved.trans (congrArg Except.error (Except.error.inj h))
    · intro h
      exact congrArg Except.error (Except.error.inj (hresolved.symm.trans h))

end AgentWire
