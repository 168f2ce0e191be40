import AgentWire.Text.Blank
import AgentWire.Text.Numeral
import AgentWire.Json.Leaves

/-!
# References — how a document asks for a parameter

A reference is a token such as `{{ name }}` or `{{ name[2] }}`: two opening braces, a name, an
index in square brackets or none, two closing braces, with blanks anywhere between these. The
name is made of ASCII letters, digits, `_`, `.` and `-`. Every part ends where the next begins,
so a token is read from left to right without going back.

A text is a sequence of `Piece`s: where a token begins, the reference and what follows it;
anywhere else, one literal character.
-/

namespace AgentWire

/-- A reference to a parameter: its name, an index or none for the first value, and the token as
    it is written. An index too large for the type counts as the largest one. -/
structure Reference where
  name : String
  index : Option UInt64
  token : String
deriving DecidableEq, Repr

namespace Reference

/-- A character of a parameter name. -/
def isNameChar (c : Char) : Bool :=
  c.isAlphanum || c == '_' || c == '.' || c == '-'

/-- The index that digits stand for. -/
def indexOf (digits : List Char) : UInt64 :=
  UInt64.ofNat (min (Numeral.value digits) 18_446_744_073_709_551_615)

-- ── Reading a token ───────────────────────────────────────────────────────────────

/-- Reads an index in brackets, if a bracket stands there: its digits and the rest. -/
def readIndex? : List Char → Option (Option (List Char) × List Char)
  | '[' :: rest =>
    let rest := rest.dropWhile isBlank
    let digits := rest.takeWhile Char.isDigit
    match (rest.dropWhile Char.isDigit).dropWhile isBlank with
    | ']' :: rest => if digits = [] then none else some (some digits, rest)
    | _ => none
  | rest => some (none, rest)

/-- Reads a token: its name, the digits of its index, and the rest. -/
def readParts? : List Char → Option (List Char × Option (List Char) × List Char)
  | '{' :: '{' :: rest =>
    let rest := rest.dropWhile isBlank
    let name := rest.takeWhile isNameChar
    if name = [] then none
    else
      match readIndex? ((rest.dropWhile isNameChar).dropWhile isBlank) with
      | none => none
      | some (digits, rest) =>
        match rest.dropWhile isBlank with
        | '}' :: '}' :: rest => some (name, digits, rest)
        | _ => none
  | _ => none

/-- Reads a reference at the front of a text. -/
def read? (text : List Char) : Option (Reference × List Char) :=
  match readParts? text with
  | none => none
  | some (name, digits, rest) =>
    let token := text.take (text.length - rest.length)
    some (⟨String.ofList name, digits.map indexOf, String.ofList token⟩, rest)

/-- The reference that a text is, if it is one token and nothing else. -/
def parse? (token : String) : Option Reference :=
  match read? token.toList with
  | some (reference, []) => some reference
  | _ => none

-- ── A token takes up text ─────────────────────────────────────────────────────────

theorem length_dropWhile_le {α : Type} (p : α → Bool) (l : List α) :
    (l.dropWhile p).length ≤ l.length :=
  (List.dropWhile_sublist p).length_le

theorem length_of_readIndex? {text rest : List Char} {digits : Option (List Char)}
    (h : readIndex? text = some (digits, rest)) : rest.length ≤ text.length := by
  unfold readIndex? at h
  split at h
  · rename_i tail
    simp only at h
    split at h
    · rename_i after closed
      split at h
      · cases h
      · cases h
        have dropped := congrArg List.length closed
        simp only [List.length_cons] at dropped ⊢
        have := length_dropWhile_le isBlank ((tail.dropWhile isBlank).dropWhile Char.isDigit)
        have := length_dropWhile_le Char.isDigit (tail.dropWhile isBlank)
        have := length_dropWhile_le isBlank tail
        omega
    · cases h
  · cases h
    exact Nat.le_refl _

theorem length_of_readParts? {text rest name : List Char} {digits : Option (List Char)}
    (h : readParts? text = some (name, digits, rest)) : rest.length < text.length := by
  unfold readParts? at h
  split at h
  · rename_i tail
    simp only at h
    split at h
    · cases h
    · split at h
      · cases h
      · rename_i index after read
        split at h
        · rename_i final closed
          cases h
          have dropped := congrArg List.length closed
          simp only [List.length_cons] at dropped ⊢
          have := length_of_readIndex? read
          have := length_dropWhile_le isBlank after
          have := length_dropWhile_le isBlank ((tail.dropWhile isBlank).dropWhile isNameChar)
          have := length_dropWhile_le isNameChar (tail.dropWhile isBlank)
          have := length_dropWhile_le isBlank tail
          omega
        · cases h
  · cases h

/-- What is left after a token is shorter. -/
theorem length_of_read? {text rest : List Char} {reference : Reference}
    (h : read? text = some (reference, rest)) : rest.length < text.length := by
  unfold read? at h
  split at h
  · cases h
  · rename_i read
    simp only [Option.some.injEq, Prod.mk.injEq] at h
    rw [← h.2]
    exact length_of_readParts? read

end Reference

-- ── Texts as pieces ───────────────────────────────────────────────────────────────

/-- A part of a text: a character that stands for itself, or the token of a reference. -/
inductive Piece where
  | literal (c : Char)
  | token (r : Reference)
deriving DecidableEq, Repr

namespace Piece

/-- The pieces of a text, from left to right. -/
def ofText (text : List Char) : List Piece :=
  match text with
  | [] => []
  | c :: rest =>
    match _read : Reference.read? (c :: rest) with
    | some (r, after) => .token r :: ofText after
    | none => .literal c :: ofText rest
termination_by text.length
decreasing_by
  · exact Reference.length_of_read? _read
  · simp

/-- The reference that a piece is. -/
def reference? : Piece → Option Reference
  | .literal _ => none
  | .token r => some r

end Piece

namespace Reference

/-- The references of a text, from left to right. -/
def inChars (text : List Char) : List Reference :=
  (Piece.ofText text).filterMap Piece.reference?

/-- The references of a text, from left to right. -/
def inText (text : String) : List Reference :=
  inChars text.toList

/-- The references in the string leaves of a value, in the order of the document. -/
def inContent (content : Json) : List Reference :=
  content.leaves.flatMap inText

end Reference

end AgentWire
