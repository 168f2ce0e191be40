import AgentWire.Proofs.Substitution.Splicing

/-!
# Remainders — when no reference is left

Inserted values are not expanded, so a reference can be left in what comes out: one that a value
brings along, one between the braces of the literal text around a token, and one that is closed by a
value that is empty. None of these is possible where

* the literal text has no two opening braces in a row, and
* the values have no opening brace at all, and are not empty (`IsPlain`).

A value then keeps the braces on its two sides apart, so in the cut that is filled in no two opening
braces meet (`bracesApart_fill`):

    literal ++ value ++ literal ++ value ++ literal
           ↑        ↑          ↑        ↑   one side of each joint is no brace

Every reference begins with two of them, so there is none, and what comes out stays as it is from
then on.
-/

namespace AgentWire

open Reference

-- ── Braces that are apart ─────────────────────────────────────────────────────────

/-- No opening brace stands next to another one. -/
def BracesApart (text : List Char) : Prop :=
  text.IsChain fun c c' => ¬ (c = '{' ∧ c' = '{')

theorem bracesApart_iff {text : List Char} : BracesApart text ↔ ¬ ['{', '{'] <:+: text := by
  rw [BracesApart, List.isChain_iff_forall_rel_of_append_cons_cons]
  constructor
  · rintro hapart ⟨before, after, heq⟩
    rw [List.append_assoc] at heq
    exact hapart heq.symm ⟨rfl, rfl⟩
  · rintro hnot c c' before after rfl ⟨rfl, rfl⟩
    exact hnot ⟨before, after, List.append_assoc ..⟩

/-- Where braces are apart there is no reference. -/
theorem BracesApart.inChars_eq_nil {text : List Char} (h : BracesApart text) :
    inChars text = [] := by
  rw [bracesApart_iff, ← ParameterSet.hasOpening_iff, Bool.not_eq_true] at h
  exact ParameterSet.inChars_of_not_hasOpening h

/-- Text without an opening brace parts the braces on its two sides. -/
theorem BracesApart.append_plain {text inner rest : List Char} (htext : BracesApart text)
    (hinner : '{' ∉ inner) (hne : inner ≠ []) (hrest : BracesApart rest) :
    BracesApart (text ++ (inner ++ rest)) := by
  have hplain : BracesApart inner := by
    rw [bracesApart_iff]
    intro hmeet
    exact hinner (hmeet.subset List.mem_cons_self)
  have hbehind : BracesApart (inner ++ rest) := by
    refine hplain.append hrest ?_
    rintro c hlast c' - ⟨rfl, -⟩
    exact hinner (List.mem_of_mem_getLast? hlast)
  refine htext.append hbehind ?_
  rintro c - c' hhead ⟨-, rfl⟩
  rw [List.head?_append_of_ne_nil inner hne] at hhead
  exact hinner (List.mem_of_mem_head? hhead)

-- ── A cut that is filled in ───────────────────────────────────────────────────────

/-- A value that says something, without an opening brace. -/
structure IsPlain (value : String) : Prop where
  ne_empty : value ≠ ""
  brace_not_mem : '{' ∉ value.toList

namespace Cut

/-- The literal text of a cut: that in front, and that behind each reference. -/
def literals (cut : Cut) : List (List Char) :=
  cut.lead :: cut.parts.map (·.2)

/-- **Plain values keep the braces of literal text apart.** -/
theorem bracesApart_fill {cut : Cut} {value : Reference → String}
    (hliterals : ∀ literal ∈ cut.literals, BracesApart literal)
    (hvalue : ∀ r ∈ cut.references, IsPlain (value r)) : BracesApart (cut.fill value) := by
  obtain ⟨lead, parts⟩ := cut
  obtain ⟨hlead, hbehind⟩ := List.forall_mem_cons.mp hliterals
  show BracesApart (lead ++ parts.flatMap _)
  induction parts generalizing lead with
  | nil => rwa [List.flatMap_nil, List.append_nil]
  | cons part rest ih =>
      obtain ⟨hpart, hrest⟩ := List.forall_mem_cons.mp hvalue
      have hne : (value part.1).toList ≠ [] := mt String.toList_eq_nil_iff.mp hpart.ne_empty
      have hafter := ih part.2 hbehind hrest (hbehind _ List.mem_cons_self)
        (List.forall_mem_cons.mp hbehind).2
      rw [List.flatMap_cons, List.append_assoc]
      exact hlead.append_plain hpart.brace_not_mem hne hafter

end Cut

namespace ParameterSet

variable {p : ParameterSet}

/-- **A text that asks for plain values comes out without a reference.** -/
theorem exists_substituteText_of_plain {cut : Cut} {text : String} (hcut : cut.IsOf text.toList)
    (hliterals : ∀ literal ∈ cut.literals, ¬ ['{', '{'] <:+: literal)
    (hvalues : ∀ r ∈ inText text, ∃ value, p.select? r = some value ∧ IsPlain value) :
    ∃ text', p.substituteText text = .ok text' ∧ inText text' = [] := by
  rw [inText, inChars_eq_occurrences, ← hcut.references_eq] at hvalues
  have hselects : p.SelectsAll cut.references := by
    intro r hmem
    obtain ⟨value, hselect, -⟩ := hvalues r hmem
    rw [hselect]
    rfl
  obtain ⟨value, hvalue⟩ := hselects.exists_value
  have hplain : ∀ r ∈ cut.references, IsPlain (value r) := by
    intro r hmem
    obtain ⟨selected, hselect, hselected⟩ := hvalues r hmem
    rwa [← Option.some.inj (hselect.symm.trans (hvalue r hmem))]
  -- no two braces come together within a part or between two
  have hapart : BracesApart (cut.fill value) :=
    Cut.bracesApart_fill (fun literal hmem => bracesApart_iff.mpr (hliterals literal hmem)) hplain
  refine ⟨String.ofList (cut.fill value), ?_, ?_⟩
  · rw [substituteText_of_value hcut hvalue, firstUnresolved?, hapart.inChars_eq_nil]
    rfl
  · rw [inText, String.toList_ofList, hapart.inChars_eq_nil]

/-- **PLAIN VALUES LEAVE NO REFERENCE.** Where the literal text of every string leaf has no two
    opening braces in a row, and every reference selects a value that is plain, the content comes
    out, it holds no reference, and nothing that it is substituted with changes it any more. -/
theorem substitute_leaves_no_reference (p : ParameterSet) (content : Json)
    (hliterals : ∀ text ∈ content.leaves, ∀ cut : Cut, cut.IsOf text.toList →
      ∀ literal ∈ cut.literals, ¬ ['{', '{'] <:+: literal)
    (hvalues : ∀ r ∈ inContent content, ∃ value, p.select? r = some value ∧ IsPlain value) :
    ∃ result, p.substitute content = .ok result ∧ inContent result = [] ∧
      ∀ q : ParameterSet, q.substitute result = .ok result := by
  have hleaves : ∀ text ∈ content.leaves,
      ∃ text', p.substituteText text = .ok text' ∧ inText text' = [] := by
    intro text hmem
    have hcut := Cut.isOf_ofPieces text.toList
    refine exists_substituteText_of_plain hcut (hliterals text hmem _ hcut) ?_
    intro r hfound
    exact hvalues r (List.mem_flatMap.mpr ⟨text, hmem, hfound⟩)
  have hsome : ∃ result, p.substitute content = .ok result := by
    refine Json.exists_mapLeavesM_iff.mpr ?_
    intro text hmem
    obtain ⟨text', htext, -⟩ := hleaves text hmem
    exact ⟨text', htext⟩
  obtain ⟨result, hresult⟩ := hsome
  -- every string of the result comes of a string of the content, and has no reference
  have hnone : inContent result = [] := by
    refine List.flatMap_eq_nil_iff.mpr ?_
    intro text' hmem
    obtain ⟨text, hsource, htext⟩ := (Json.mapLeavesM_eq_ok hresult).2.exists_source text' hmem
    obtain ⟨filled, hfilled, hclean⟩ := hleaves text hsource
    rwa [Except.ok.inj (htext.symm.trans hfilled)]
  exact ⟨result, hresult, hnone, fun q => q.substitute_of_inContent_eq_nil hnone⟩

/-- Single braces around tokens do no harm, and neither do closing ones in a value. -/
theorem substitute_leaves_no_reference_braced :
    ∃ result, (ofList [("x", ["\x7d"]), ("y", ["q", "z\x7d\x7d"])]).substitute
        (.array [.string "\x7b{{x}}\x7b {{ y[1] }}", .null]) = .ok result ∧
      inContent result = [] ∧ empty.substitute result = .ok result := by
  have hreferences : inContent (.array [.string "\x7b{{x}}\x7b {{ y[1] }}", .null]) =
      [⟨"x", none, "{{x}}"⟩, ⟨"y", some 1, "{{ y[1] }}"⟩] := by decide +kernel
  have hliterals : ∀ text ∈ (Json.array [.string "\x7b{{x}}\x7b {{ y[1] }}", .null]).leaves,
      ∀ cut : Cut, cut.IsOf text.toList → ∀ literal ∈ cut.literals, ¬ ['{', '{'] <:+: literal := by
    intro text hmem cut hof
    rw [List.mem_singleton.mp hmem] at hof
    rw [(Cut.isOf_ofPieces _).unique hof]
    decide +kernel
  have hvalues : ∀ r ∈ inContent (.array [.string "\x7b{{x}}\x7b {{ y[1] }}", .null]),
      ∃ value, (ofList [("x", ["\x7d"]), ("y", ["q", "z\x7d\x7d"])]).select? r = some value ∧
        IsPlain value := by
    rw [hreferences]
    intro r hmem
    rcases List.mem_cons.mp hmem with rfl | hmem
    · exact ⟨"\x7d", rfl, by decide, by decide⟩
    · rw [List.mem_singleton.mp hmem]
      exact ⟨"z\x7d\x7d", rfl, by decide, by decide⟩
  obtain ⟨result, hresult, hnone, hstays⟩ := substitute_leaves_no_reference _ _ hliterals hvalues
  exact ⟨result, hresult, hnone, hstays empty⟩

/-- An empty value lets two braces meet, and a reference is left. -/
example : (ofList [("x", [""]), ("y", ["1"])]).substituteText "\x7b{{x}}\x7by\x7d\x7d" =
    .ok "{{y}}" := by
  decide +kernel

end ParameterSet

end AgentWire
