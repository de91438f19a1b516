import SqlScript.Location

/-!
# Places and byte offsets

The place after a part of a script is the one that its byte offset stands for (`Location.of?_after`).
-/

namespace SqlScript
namespace Text

@[simp] theorem byteLength_nil : byteLength [] = 0 := rfl

@[simp] theorem byteLength_cons (c : Char) (cs : List Char) :
    byteLength (c :: cs) = c.utf8Size + byteLength cs := rfl

@[simp] theorem byteLength_append (cs ds : List Char) :
    byteLength (cs ++ ds) = byteLength cs + byteLength ds := by
  induction cs with
  | nil => simp
  | cons c cs ih => simp [ih, Nat.add_assoc]

@[simp] theorem byteLength_reverse (cs : List Char) : byteLength cs.reverse = byteLength cs := by
  induction cs with
  | nil => rfl
  | cons c cs ih => simp [ih, Nat.add_comm]

theorem splitAtByte?_zero (cs : List Char) : splitAtByte? cs 0 = some ([], cs) := by
  cases cs <;> rfl

theorem splitAtByte?_byteLength (cs ds : List Char) :
    splitAtByte? (cs ++ ds) (byteLength cs) = some (cs, ds) := by
  induction cs with
  | nil => exact splitAtByte?_zero ds
  | cons c cs ih =>
    have hpos : 0 < c.utf8Size := c.utf8Size_pos
    obtain ⟨n, hn⟩ : ∃ n, byteLength (c :: cs) = n + 1 :=
      Nat.exists_eq_succ_of_ne_zero (by rw [byteLength_cons]; omega)
    have hle : c.utf8Size ≤ n + 1 := by rw [← hn, byteLength_cons]; omega
    have hrest : n + 1 - c.utf8Size = byteLength cs := by rw [← hn, byteLength_cons]; omega
    rw [hn, List.cons_append, splitAtByte?, if_pos hle, hrest, ih]
    rfl

end Text

theorem Location.of?_after {text : String} {before rest : List Char}
    (h : text.toList = before.reverse ++ rest) :
    Location.of? text (Location.after before).offset = some (.after before) := by
  have hoffset : (Location.after before).offset = Text.byteLength before.reverse :=
    (Text.byteLength_reverse before).symm
  rw [of?, h, hoffset, Text.splitAtByte?_byteLength]
  simp

end SqlScript
