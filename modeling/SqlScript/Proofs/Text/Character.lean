import Mathlib.Data.List.Basic
import SqlScript.Text.Alphanumeric
import SqlScript.Text.AsciiCase
import SqlScript.Text.Blank

/-!
# Classes of characters

A blank is no word character (`isWordChar_of_isBlank`), so a word ends before it (`EndsWord`). The
case of a letter does not show in whether it is a word character or a blank.
-/

namespace SqlScript.Text

def blankCodes : List Nat :=
  [0x09, 0x0A, 0x0B, 0x0C, 0x0D, 0x20, 0x85, 0xA0, 0x1680, 0x2000, 0x2001, 0x2002, 0x2003, 0x2004,
    0x2005, 0x2006, 0x2007, 0x2008, 0x2009, 0x200A, 0x2028, 0x2029, 0x202F, 0x205F, 0x3000]

theorem toNat_mem_blankCodes {c : Char} (h : isBlank c) : c.toNat ∈ blankCodes := by
  simp only [isBlank, Bool.or_eq_true, Bool.and_eq_true, decide_eq_true_eq, beq_iff_eq] at h
  simp only [blankCodes, List.mem_cons, List.not_mem_nil, or_false]
  omega

/-- What a decidable property says of the codes of blanks it says of the blanks. -/
theorem of_isBlank {p : Char → Bool} (hp : ∀ n ∈ blankCodes, p (Char.ofNat n)) {c : Char}
    (h : isBlank c) : p c := by
  have := hp _ (toNat_mem_blankCodes h)
  rwa [Char.ofNat_toNat] at this

theorem isWordChar_of_isBlank {c : Char} (h : isBlank c) : isWordChar c = false := by
  simpa using of_isBlank (p := fun c => !isWordChar c) (by decide +kernel) h

theorem not_isBlank_of_isWordChar {c : Char} (h : isWordChar c) : isBlank c = false := by
  by_contra hblank
  simp [isWordChar_of_isBlank (Bool.not_eq_false _ ▸ hblank)] at h

def capitals : List Char := "ABCDEFGHIJKLMNOPQRSTUVWXYZ".toList

theorem mem_capitals {c : Char} (h : 'A' ≤ c ∧ c ≤ 'Z') : c ∈ capitals := by
  have hn : 65 ≤ c.toNat ∧ c.toNat ≤ 90 := ⟨h.1, h.2⟩
  have hall : ∀ n < 91, 65 ≤ n → Char.ofNat n ∈ capitals := by decide
  simpa using hall c.toNat (Nat.lt_succ_of_le hn.2) hn.1

theorem foldAscii_cases (c : Char) : foldAscii c = c ∨ c ∈ capitals := by
  by_cases h : 'A' ≤ c ∧ c ≤ 'Z'
  · exact .inr (mem_capitals h)
  · exact .inl (if_neg h)

/-- The case of a letter does not show in what holds of both cases alike. -/
theorem of_foldAscii {p : Char → Bool} (hp : capitals.all fun c => p (foldAscii c) == p c) (c : Char) :
    p (foldAscii c) = p c := by
  rcases foldAscii_cases c with h | h
  · rw [h]
  · exact eq_of_beq (List.all_eq_true.1 hp c h)

theorem isWordChar_foldAscii (c : Char) : isWordChar (foldAscii c) = isWordChar c :=
  of_foldAscii (by decide) c

/-- No word goes on in the text. -/
def EndsWord (z : List Char) : Prop := ∀ c ∈ z.head?, isWordChar c = false

theorem endsWord_nil : EndsWord [] := nofun

theorem endsWord_cons {c : Char} (hc : isWordChar c = false) (z : List Char) : EndsWord (c :: z) := by
  simpa [EndsWord] using hc

theorem endsWord_of_isBlank {c : Char} (hc : isBlank c) (z : List Char) : EndsWord (c :: z) :=
  endsWord_cons (isWordChar_of_isBlank hc) z

theorem EndsWord.takeWhile_eq_nil {z : List Char} (h : EndsWord z) : z.takeWhile isWordChar = [] := by
  cases z with
  | nil => rfl
  | cons c z => exact List.takeWhile_cons_of_neg (by simp [h c rfl])

theorem EndsWord.dropWhile_eq_self {z : List Char} (h : EndsWord z) : z.dropWhile isWordChar = z := by
  cases z with
  | nil => rfl
  | cons c z => exact List.dropWhile_cons_of_neg (by simp [h c rfl])

theorem EndsWord.reverse_append {b z : List Char} (hz : EndsWord z) (hb : ∀ c ∈ b, isBlank c) :
    EndsWord (b.reverse ++ z) := by
  cases h : b.reverse with
  | nil => exact hz
  | cons c b' =>
    have hc : c ∈ b := List.mem_reverse.1 (by simp [h])
    exact endsWord_of_isBlank (hb c hc) _

theorem isBlank_foldAscii (c : Char) : isBlank (foldAscii c) = isBlank c :=
  of_foldAscii (by decide) c

end SqlScript.Text
