/-!
# Blanks — the characters that count as white space

The twenty-five code points with the Unicode property `White_Space`. They may surround the
parts of a parameter reference, and a text of blanks alone says nothing.
-/

namespace AgentWire

/-- A character with the property `White_Space`. -/
def isBlank (c : Char) : Bool :=
  let n := c.toNat
  (0x9 ≤ n && n ≤ 0xd) || n == 0x20 || n == 0x85 || n == 0xa0 || n == 0x1680 ||
    (0x2000 ≤ n && n ≤ 0x200a) || n == 0x2028 || n == 0x2029 || n == 0x202f ||
    n == 0x205f || n == 0x3000

/-- A text that holds nothing but blanks, possibly nothing at all. -/
def isBlankText (text : String) : Bool :=
  text.toList.all isBlank

theorem isBlankText_iff (text : String) :
    isBlankText text = true ↔ ∀ c ∈ text.toList, isBlank c = true := by
  simp [isBlankText]

/-- A text says something if one of its characters is no blank. -/
theorem isBlankText_eq_false_iff {text : String} :
    isBlankText text = false ↔ ∃ char ∈ text.toList, isBlank char = false := by
  unfold isBlankText
  rw [List.all_eq_false]
  simp

end AgentWire
