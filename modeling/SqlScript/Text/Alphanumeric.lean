import SqlScript.Text.AlphanumericTable

/-!
# Letters, digits and word characters

`isAlphanumeric` holds of the alphabetic and the numeric characters of Unicode, `isWordChar` of
those that can go on an unquoted name.
-/

namespace SqlScript.Text

/-- Alphabetic, or a number of any kind. -/
def isAlphanumeric (c : Char) : Bool :=
  if c.toNat < 0x80 then c.isAlphanum
  else alphanumericRanges.any fun r => r.1 ≤ c.toNat && c.toNat ≤ r.2

/-- A character that goes on an unquoted name. -/
def isWordChar (c : Char) : Bool :=
  isAlphanumeric c || c == '_' || c == '$' || c == '#'

theorem isAlphanumeric_of_ascii {c : Char} (h : c.toNat < 0x80) :
    isAlphanumeric c = c.isAlphanum := by
  simp [isAlphanumeric, h]

end SqlScript.Text
