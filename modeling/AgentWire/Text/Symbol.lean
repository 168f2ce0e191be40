/-!
# Symbols — raw bytes read as text that may be broken

A message arrives as bytes. Where they are well-formed UTF-8 they are characters; where they
are not, a byte that starts no character stands alone as a **stray** and reading goes on with
the next byte. So no byte is lost, an ASCII character is never swallowed by a broken
neighbour, and the bytes of a text are exactly its characters:

    symbols s.toByteArray = chars s
-/

namespace AgentWire

/-- One step of reading raw bytes: a character, or a byte that starts none. -/
inductive Symbol where
  | char (c : Char)
  | stray (b : UInt8)
deriving DecidableEq, Repr

namespace Symbol

/-- The number of bytes a symbol takes up. -/
def byteLength : Symbol → Nat
  | .char c => c.utf8Size
  | .stray _ => 1

/-- The symbols of `bytes` from position `i` on. -/
def fromPosition (bytes : ByteArray) (i : Nat) : List Symbol :=
  if inside : i < bytes.size then
    match bytes.utf8DecodeChar? i with
    | some c => .char c :: fromPosition bytes (i + c.utf8Size)
    | none => .stray bytes[i] :: fromPosition bytes (i + 1)
  else []
termination_by bytes.size - i
decreasing_by
  · have := c.utf8Size_pos; omega
  · omega

/-- The symbols of a byte array, in order. -/
def ofBytes (bytes : ByteArray) : List Symbol :=
  fromPosition bytes 0

/-- The symbols of a text: its characters. -/
def ofString (text : String) : List Symbol :=
  text.toList.map .char

/-- The characters of a list of symbols, if none of them is stray. -/
def characters? : List Symbol → Option (List Char)
  | [] => some []
  | .char c :: rest => (characters? rest).map (c :: ·)
  | .stray _ :: _ => none

-- ── The bytes of a text are its characters ────────────────────────────────────────

/-- Reading from a position inside an encoded text yields the characters left there. -/
theorem fromPosition_append (before : ByteArray) (cs : List Char) :
    fromPosition (before ++ cs.utf8Encode) before.size = cs.map .char := by
  induction cs generalizing before with
  | nil =>
      rw [fromPosition]
      simp
  | cons c cs ih =>
      have decoded : (before ++ (c :: cs).utf8Encode).utf8DecodeChar? before.size = some c := by
        rw [ByteArray.utf8DecodeChar?_eq_utf8DecodeChar?_extract]
        simp [ByteArray.extract_append_eq_right]
      have inside := ByteArray.le_size_of_utf8DecodeChar?_eq_some decoded
      have positive := c.utf8Size_pos
      rw [fromPosition, dif_pos (by omega)]
      simp only [decoded, List.map_cons, List.cons.injEq, true_and]
      have split : before ++ (c :: cs).utf8Encode = (before ++ [c].utf8Encode) ++ cs.utf8Encode := by
        rw [ByteArray.append_assoc, ← List.utf8Encode_append]; rfl
      have size : before.size + c.utf8Size = (before ++ [c].utf8Encode).size := by
        simp [List.utf8Encode_singleton]
      rw [split, size]
      exact ih _

/-- **The bytes of a text read as its characters.** -/
theorem ofBytes_toByteArray (text : String) : ofBytes text.toByteArray = ofString text := by
  have h := fromPosition_append ByteArray.empty text.toList
  simpa [ofBytes, ofString] using h

@[simp] theorem characters?_ofString (text : String) :
    characters? (ofString text) = some text.toList := by
  unfold ofString
  induction text.toList with
  | nil => rfl
  | cons c cs ih => simp [characters?, ih]

end Symbol

end AgentWire
