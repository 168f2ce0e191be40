import AgentWire.NameMap
import Mathlib.Tactic

/-!
# Bytes — texts are ordered as their bytes are

A character takes up one to four bytes. The first of them tells how many there are, more for later
characters, and those behind it count the character on in steps of sixty-four. So a later character
begins later bytes, whatever follows, and comparing texts by their bytes is comparing them by their
characters:

    bytesOf s < bytesOf t  ↔  s < t
-/

namespace AgentWire

/-- The bytes of a text. -/
def bytesOf (text : String) : List UInt8 :=
  text.toUTF8.data.toList

/-- The bytes of a text are those of its characters. -/
theorem bytesOf_eq (text : String) : bytesOf text = text.toList.flatMap String.utf8EncodeChar := by
  unfold bytesOf
  rw [String.toUTF8_eq_toByteArray, ← String.utf8Encode_toList]
  exact List.toList_data_toByteArray

-- ── Lists in lexicographic order ──────────────────────────────────────────────────

/-- Where the fronts are of one length, the rest is only looked at if the fronts are the same. -/
theorem append_lt_append_iff {α : Type} [LT α] {front other : List α}
    (h : front.length = other.length) (rest more : List α) :
    front ++ rest < other ++ more ↔ front < other ∨ front = other ∧ rest < more := by
  induction front generalizing other with
  | nil =>
      have hnil : other = [] := List.length_eq_zero_iff.mp h.symm
      subst hnil
      simp
  | cons a front ih =>
      cases other with
      | nil => exact nomatch h
      | cons b other =>
          rw [List.cons_append, List.cons_append, List.cons_lt_cons_iff, List.cons_lt_cons_iff,
            ih (Nat.succ.inj h), List.cons.injEq]
          tauto

-- ── Characters ────────────────────────────────────────────────────────────────────

/-- **A later character begins later bytes**, whatever follows. -/
theorem utf8EncodeChar_append_lt {c d : Char} (h : c < d) (rest more : List UInt8) :
    String.utf8EncodeChar c ++ rest < String.utf8EncodeChar d ++ more := by
  have hlt : c.val.toNat < d.val.toNat := h
  have hvalid : d.val.toNat < 0x110000 := by
    have := d.valid
    simp only [UInt32.isValidChar, Nat.isValidChar] at this
    omega
  unfold String.utf8EncodeChar
  dsimp only
  generalize c.val.toNat = m at *
  generalize d.val.toNat = n at *
  -- one case for each pair of widths; in those of one width the digits to base 64 are compared
  split_ifs <;>
    simp only [List.cons_append, List.nil_append, List.cons_lt_cons_iff, UInt8.lt_iff_toNat_lt,
      ← UInt8.toNat_inj, UInt8.toNat_ofNat'] <;>
    simp (disch := omega) only [Nat.mod_eq_of_lt] <;>
    omega

theorem utf8EncodeChar_ne_nil (c : Char) : String.utf8EncodeChar c ≠ [] := by
  unfold String.utf8EncodeChar
  dsimp only
  split_ifs <;> exact List.cons_ne_nil _ _

-- ── Texts ─────────────────────────────────────────────────────────────────────────

theorem flatMap_utf8EncodeChar_lt {chars others : List Char} (h : chars < others) :
    chars.flatMap String.utf8EncodeChar < others.flatMap String.utf8EncodeChar := by
  induction chars generalizing others with
  | nil =>
      cases others with
      | nil => exact absurd h (List.lt_irrefl [])
      | cons d others =>
          obtain ⟨b, rest, hbytes⟩ := List.exists_cons_of_ne_nil (utf8EncodeChar_ne_nil d)
          rw [List.flatMap_cons, hbytes]
          exact List.nil_lt_cons _ _
  | cons c chars ih =>
      cases others with
      | nil => exact absurd h (List.not_lt_nil _)
      | cons d others =>
          rw [List.flatMap_cons, List.flatMap_cons]
          rcases List.cons_lt_cons_iff.mp h with hfirst | ⟨rfl, hrest⟩
          · exact utf8EncodeChar_append_lt hfirst _ _
          · exact List.append_left_lt (ih hrest)

/-- **THE ORDER OF TEXTS IS THAT OF THEIR BYTES.** -/
theorem bytesOf_lt_iff {s t : String} : bytesOf s < bytesOf t ↔ s < t := by
  have hmono : ∀ {s t : String}, s < t → bytesOf s < bytesOf t := by
    intro s t h
    rw [bytesOf_eq, bytesOf_eq]
    exact flatMap_utf8EncodeChar_lt (String.lt_iff.mp h)
  refine ⟨?_, hmono⟩
  intro h
  by_contra hnot
  by_cases hsame : s = t
  · rw [hsame] at h
    exact List.lt_irrefl _ h
  · exact List.lt_asymm h (hmono (NameMap.name_lt_of_not_lt hnot hsame))

end AgentWire
