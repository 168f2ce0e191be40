import AgentWire.ParameterSet
import AgentWire.Proofs.NameMap
import AgentWire.Proofs.Reference.Position

/-!
# Selection — what a token asks for

A text is a reference exactly if it is a token, and then its name and the digits of its index are
the only ones that it is a token of. The index is the number that the digits stand for, however many
they are, up to the largest word. No list of values is as long as that, so an index that does not
fit selects nothing, as the number itself would:

    p.select? r  =  the value at that number in the list of that name, if there is one
-/

namespace AgentWire

namespace Reference

/-- The number that the digits of an index stand for: the first value has none. -/
def indexValue (digits : Option (List Char)) : Nat :=
  (digits.map Numeral.value).getD 0

theorem toNat_indexOf (digits : List Char) :
    (indexOf digits).toNat = min (Numeral.value digits) (2 ^ 64 - 1) :=
  UInt64.toNat_ofNat_of_lt (Nat.lt_of_le_of_lt (Nat.min_le_right _ _) (by decide))

theorem parse?_isSome_iff {text : String} :
    (∃ r, parse? text = some r) ↔ ∃ name digits, TokenText name digits text.toList := by
  constructor
  · rintro ⟨r, h⟩
    obtain ⟨name, digits, htoken, -⟩ := parse?_eq_some_iff.mp h
    exact ⟨name, digits, htoken⟩
  · rintro ⟨name, digits, htoken⟩
    exact ⟨_, parse?_eq_some_iff.mpr ⟨name, digits, htoken, rfl⟩⟩

/-- **A text is a token of one name and one index.** -/
theorem TokenText.unique {name name' token : List Char} {digits digits' : Option (List Char)}
    (h : TokenText name digits token) (h' : TokenText name' digits' token) :
    name = name' ∧ digits = digits' := by
  have heq : token ++ [] = token ++ [] := rfl
  obtain ⟨hname, hdigits, -⟩ := h.eq_of_append_eq h' heq
  exact ⟨hname, hdigits⟩

/-- The reference that a token is has its parts. -/
theorem TokenText.eq_ofParts {name : List Char} {digits : Option (List Char)} {text : String}
    {r : Reference} (h : TokenText name digits text.toList) (hparse : parse? text = some r) :
    r = ofParts name digits text.toList := by
  obtain ⟨name', digits', htoken, rfl⟩ := parse?_eq_some_iff.mp hparse
  obtain ⟨rfl, rfl⟩ := htoken.unique h
  rfl

end Reference

open Reference

namespace ParameterSet

variable {p : ParameterSet}

/-- An index is as good as the number that it stands for. -/
theorem getElem?_indexOf {values : List String} (h : values.length < 2 ^ 64)
    (digits : Option (List Char)) :
    values[((digits.map indexOf).getD 0).toNat]? = values[indexValue digits]? := by
  cases digits with
  | none => rfl
  | some digits =>
      show values[(indexOf digits).toNat]? = values[Numeral.value digits]?
      rw [toNat_indexOf]
      by_cases hfits : Numeral.value digits ≤ 2 ^ 64 - 1
      · rw [Nat.min_eq_left hfits]
      · rw [List.getElem?_eq_none (by omega), List.getElem?_eq_none (by omega)]

/-- **A reference selects the value at the number of its index.** -/
theorem select?_ofParts (h : ∀ name values, p.get? name = some values → values.length < 2 ^ 64)
    (name : List Char) (digits : Option (List Char)) (token : List Char) :
    p.select? (ofParts name digits token) =
      (p.get? (String.ofList name)).bind fun values => values[indexValue digits]? := by
  show (p.get? (String.ofList name)).bind _ = _
  cases hget : p.get? (String.ofList name) with
  | none => rfl
  | some values => exact getElem?_indexOf (h _ values hget) digits

end ParameterSet

/-- A value is missing exactly if the name is, or its list ends before the number. -/
theorem bind_getElem?_eq_none_iff {found : Option (List String)} {n : Nat} :
    (found.bind fun values => values[n]?) = none ↔
      found = none ∨ ∃ values, found = some values ∧ values.length ≤ n := by
  cases found with
  | none => simp
  | some values => simp

namespace Reference

/-- **A REFERENCE IS ACCEPTED EXACTLY IF IT IS A TOKEN**, as the first thing that is found in its
    text and the whole of it, and it selects the value at the number of its index in the list of
    its name. -/
theorem parse?_accepts_tokens :
    (∀ text : String, (∃ r, parse? text = some r) ↔
      ∃ name digits, TokenText name digits text.toList) ∧
    (∀ (text : String) (name name' : List Char) (digits digits' : Option (List Char)),
      TokenText name digits text.toList → TokenText name' digits' text.toList →
      name = name' ∧ digits = digits') ∧
    (∀ (text : String) (r : Reference) (name : List Char) (digits : Option (List Char)),
      TokenText name digits text.toList → parse? text = some r →
      r.name = String.ofList name ∧ r.token = text ∧
      r.index.map UInt64.toNat = digits.map fun d => min (Numeral.value d) (2 ^ 64 - 1)) ∧
    (∀ (text : String) (r : Reference), parse? text = some r ↔
      (Place.inText text).head? = some ⟨0, text.utf8ByteSize, r⟩) ∧
    (∀ p : ParameterSet, (∀ name values, p.get? name = some values → values.length < 2 ^ 64) →
      ∀ (text : String) (r : Reference) (name : List Char) (digits : Option (List Char)),
        TokenText name digits text.toList → parse? text = some r →
        p.select? r =
          ((p.get? (String.ofList name)).bind fun values => values[indexValue digits]?) ∧
        (p.select? r = none ↔ p.get? (String.ofList name) = none ∨
          ∃ values, p.get? (String.ofList name) = some values ∧
            values.length ≤ indexValue digits)) := by
  refine ⟨fun _ => parse?_isSome_iff, fun _ _ _ _ _ => TokenText.unique, ?_,
    fun _ _ => Place.head?_inText_eq_some_iff.symm, ?_⟩
  · intro text r name digits htoken hparse
    rw [htoken.eq_ofParts hparse]
    refine ⟨rfl, String.ofList_toList, ?_⟩
    show (digits.map indexOf).map UInt64.toNat = _
    rw [Option.map_map]
    exact congrArg (digits.map ·) (funext toNat_indexOf)
  · intro p hlists text r name digits htoken hparse
    rw [htoken.eq_ofParts hparse, ParameterSet.select?_ofParts hlists]
    exact ⟨rfl, bind_getElem?_eq_none_iff⟩

/-- The second of two values is at the number one, however that is written, and none is at a number
    beyond the largest word. -/
theorem parse?_accepts_tokens_indexed :
    (ParameterSet.ofList [("p", ["a", "b"])]).select? ⟨"p", some 1, "{{ p [ 01 ] }}"⟩ = some "b" ∧
    (ParameterSet.ofList [("p", ["a", "b"])]).select?
      ⟨"p", some 18446744073709551615, "{{p[99999999999999999999999]}}"⟩ = none := by
  have hlists : ∀ name values, (ParameterSet.ofList [("p", ["a", "b"])]).get? name = some values →
      values.length < 2 ^ 64 := by
    intro name values h
    have hmem : (name, values) ∈ [("p", ["a", "b"])] := NameMap.get?_eq_some_iff.mp h
    obtain ⟨-, rfl⟩ := Prod.mk.inj (List.mem_singleton.mp hmem)
    decide
  have hsecond : parse? "{{ p [ 01 ] }}" = some ⟨"p", some 1, "{{ p [ 01 ] }}"⟩ := by
    decide +kernel
  have hhuge : parse? "{{p[99999999999999999999999]}}" =
      some ⟨"p", some 18446744073709551615, "{{p[99999999999999999999999]}}"⟩ := by
    decide +kernel
  obtain ⟨htoken, -, hparts, -, hselect⟩ := parse?_accepts_tokens
  constructor
  · obtain ⟨name, digits, h⟩ := (htoken _).mp ⟨_, hsecond⟩
    obtain ⟨hname, -, hindex⟩ := hparts _ _ name digits h hsecond
    have hvalue : indexValue digits = 1 := by
      cases digits with
      | none => exact nomatch hindex
      | some digits =>
          have hmin : 1 = min (Numeral.value digits) (2 ^ 64 - 1) := Option.some.inj hindex
          show Numeral.value digits = 1
          omega
    rw [(hselect _ hlists _ _ name digits h hsecond).1, ← hname, hvalue]
    rfl
  · obtain ⟨name, digits, h⟩ := (htoken _).mp ⟨_, hhuge⟩
    obtain ⟨hname, -, hindex⟩ := hparts _ _ name digits h hhuge
    have hvalue : 2 ≤ indexValue digits := by
      cases digits with
      | none => exact nomatch hindex
      | some digits =>
          have hmin : 18446744073709551615 = min (Numeral.value digits) (2 ^ 64 - 1) :=
            Option.some.inj hindex
          show 2 ≤ Numeral.value digits
          omega
    refine (hselect _ hlists _ _ name digits h hhuge).2.mpr (Or.inr ⟨["a", "b"], ?_, hvalue⟩)
    rw [← hname]
    rfl

end Reference

end AgentWire
