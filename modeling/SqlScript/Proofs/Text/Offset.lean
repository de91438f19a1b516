import SqlScript.Proofs.Location.Walk
import SqlScript.Proofs.Text.ByteOrder

/-!
# Reading a text at byte offsets

The functions here take byte offsets into a text, and give nothing if an offset lies beyond the text or within
a character. Behind a part of the text they give what is there (`from?_byteLength`, `slice?_byteLength`). Any
byte of a character tells whether it is a given ASCII character (`exists_byte?`).
-/

namespace SqlScript.Text

/-- The text from an offset on. -/
def from? (t : List Char) (offset : Nat) : Option (List Char) :=
  (splitAtByte? t offset).map (·.2)

/-- The text up to an offset. -/
def upTo? (t : List Char) (offset : Nat) : Option (List Char) :=
  (splitAtByte? t offset).map (·.1)

/-- The text between two offsets. -/
def slice? (t : List Char) (first last : Nat) : Option (List Char) :=
  (upTo? t last).bind (from? · first)

/-- The byte at an offset, whether a character starts there or not. -/
def byte? (t : List Char) (offset : Nat) : Option UInt8 :=
  (t.flatMap String.utf8EncodeChar)[offset]?

/-- The one byte of an ASCII character. -/
def asciiByte (c : Char) : UInt8 :=
  UInt8.ofNat c.toNat

/-- The offset of the first character that is `p`. -/
def find? (p : Char → Bool) (t : List Char) : Option Nat :=
  if t.any p then some (byteLength (t.takeWhile (!p ·))) else none

section
variable {c d : Char} {t before mid rest : List Char} {p : Char → Bool} {n : Nat}

theorem byteLength_pos {t : List Char} (h : t ≠ []) : 0 < byteLength t := by
  obtain ⟨c, t, rfl⟩ := List.exists_cons_of_ne_nil h
  exact Nat.lt_of_lt_of_le c.utf8Size_pos (Nat.le_add_right _ _)

theorem length_le_byteLength (t : List Char) : t.length ≤ byteLength t := by
  induction t with
  | nil => exact Nat.le_refl 0
  | cons c t ih =>
    have hpos := c.utf8Size_pos
    rw [List.length_cons, byteLength_cons]
    omega

theorem not_splitsCharacter_byteLength (before rest : List Char) :
    ¬ SplitsCharacter (before ++ rest) (byteLength before) := by
  intro h
  have hnone := splitAtByte?_eq_none_iff.2 (.inr h)
  rw [splitAtByte?_byteLength] at hnone
  cases hnone

theorem from?_byteLength (before rest : List Char) :
    from? (before ++ rest) (byteLength before) = some rest := by
  rw [from?, splitAtByte?_byteLength]
  rfl

theorem upTo?_byteLength (before rest : List Char) :
    upTo? (before ++ rest) (byteLength before) = some before := by
  rw [upTo?, splitAtByte?_byteLength]
  rfl

theorem upTo?_eq_some_iff : upTo? t n = some before ↔ ∃ rest, t = before ++ rest ∧ byteLength before = n := by
  rw [upTo?, Option.map_eq_some_iff]
  constructor
  · rintro ⟨⟨b, rest⟩, h, rfl⟩
    exact ⟨rest, splitAtByte?_eq_some_iff.1 h⟩
  · rintro ⟨rest, h⟩
    exact ⟨(before, rest), splitAtByte?_eq_some_iff.2 h, rfl⟩

theorem upTo?_of_isPrefix (h : before <+: t) : upTo? t (byteLength before) = some before := by
  obtain ⟨rest, rfl⟩ := h
  exact upTo?_byteLength before rest

theorem slice?_byteLength (before mid rest : List Char) :
    slice? (before ++ (mid ++ rest)) (byteLength before) (byteLength before + byteLength mid) = some mid := by
  rw [slice?, ← byteLength_append, ← List.append_assoc, upTo?_byteLength, Option.bind_some, from?_byteLength]

theorem find?_eq (p : Char → Bool) (t : List Char) :
    (find? p t).getD (byteLength t) = byteLength (t.takeWhile (!p ·)) := by
  rw [find?]
  split
  · rfl
  · next h =>
    have hall : t.takeWhile (!p ·) = t := List.takeWhile_eq_self_iff.2 (by simpa using h)
    rw [hall, Option.getD_none]

theorem byte?_append (before rest : List Char) (n : Nat) :
    byte? (before ++ rest) (byteLength before + n) = byte? rest n := by
  have hlength : (before.flatMap String.utf8EncodeChar).length = byteLength before := by
    induction before with
    | nil => rfl
    | cons c t ih => rw [List.flatMap_cons, List.length_append, String.length_utf8EncodeChar, ih, byteLength_cons]
  rw [byte?, List.flatMap_append, ← hlength, List.getElem?_append_right (Nat.le_add_right _ _),
    Nat.add_sub_cancel_left, byte?]

/-- A character below `0x80` is its own byte, and all bytes of any other character are from `0x80` on. -/
theorem utf8EncodeChar_cases (c : Char) : c.toNat < 0x80 ∧ String.utf8EncodeChar c = [asciiByte c] ∨
    0x80 ≤ c.toNat ∧ ∀ b ∈ String.utf8EncodeChar c, 0x80 ≤ b.toNat := by
  have hbyte : ∀ n, 0x80 ≤ n → n < 256 → 0x80 ≤ (UInt8.ofNat n).toNat := fun n hle hlt => by
    rwa [UInt8.toNat_ofNat_of_lt' hlt]
  have hcode : c.toNat = c.val.toNat := rfl
  simp only [String.utf8EncodeChar]
  split_ifs with hone
  · exact .inl ⟨by omega, rfl⟩
  all_goals
    refine .inr ⟨by omega, ?_⟩
    simp only [List.forall_mem_cons, List.not_mem_nil, false_implies, implies_true, and_true]
    repeat' apply And.intro
    all_goals exact hbyte _ (by omega) (by omega)

/-- Each byte of a character tells whether it is a given ASCII character. -/
theorem exists_byte? (before rest : List Char) (hn : n < c.utf8Size) :
    ∃ b, byte? (before ++ c :: rest) (byteLength before + n) = some b ∧
      ∀ d, d.toNat < 0x80 → (b = asciiByte d ↔ c = d) := by
  have hlength := String.length_utf8EncodeChar c
  have hmem : n < (String.utf8EncodeChar c).length := by omega
  refine ⟨(String.utf8EncodeChar c)[n], ?_, fun d hd => ?_⟩
  · rw [byte?_append, byte?, List.flatMap_cons, List.getElem?_append_left hmem, List.getElem?_eq_getElem hmem]
  · rcases utf8EncodeChar_cases c with ⟨hc, heq⟩ | ⟨hc, hall⟩
    · have hone : n = 0 := by
        rw [heq, List.length_singleton] at hmem
        omega
      subst hone
      have hc : c.toNat < 256 := by omega
      have hd : d.toNat < 256 := by omega
      simp only [heq, List.getElem_cons_zero, asciiByte, ofNat_eq_ofNat hc hd]
      exact Char.toNat_inj
    · have hge := hall _ (List.getElem_mem hmem)
      constructor
      · intro h
        rw [h, asciiByte, UInt8.toNat_ofNat_of_lt' (show d.toNat < 256 by omega)] at hge
        omega
      · rintro rfl
        omega

end
end SqlScript.Text
