import Mathlib.Data.List.Basic
import SqlScript.Json

/-!
# Reading JSON back

`Json.read?` reads a text as a value of JSON, by the grammar and not by the way values are printed: it
minds neither line breaks nor blanks, and knows escapes that are never written. Of a printer only matters
that what it writes is read as the value (`Json.Prints`), so that the text tells all that the value does;
`Json.print` is one (`Json.prints_print`).
-/

namespace SqlScript.Json

/-- What may stand between the parts of a value. -/
def isGap (c : Char) : Bool :=
  c == ' ' || c == '\n' || c == '\t' || c == '\r'

def skipGap (ahead : List Char) : List Char :=
  ahead.dropWhile isGap

def hexValue? (c : Char) : Option Nat :=
  if '0' ≤ c ∧ c ≤ '9' then some (c.toNat - '0'.toNat)
  else if 'a' ≤ c ∧ c ≤ 'f' then some (c.toNat - 'a'.toNat + 10)
  else if 'A' ≤ c ∧ c ≤ 'F' then some (c.toNat - 'A'.toNat + 10)
  else none

section
variable {α : Type} (part : List Char → Option (α × List Char)) (closing : Char)

end

/-- The bracket closes what the parts of a list or an object are in. -/
structure Closes (closing : Char) : Prop where
  isGap : isGap closing = false
  isDigit : closing.isDigit = false
  ne_comma : closing ≠ ','

section
variable {α : Type} {part : List Char → Option (α × List Char)} {closing : Char} {written : α → List Char}
  {gap behind : List Char}

end

section
variable {α : Type} {part : List Char → Option (α × List Char)} (depth : Nat) (opening : Char) {closing : Char}
  {xs : List α} {write : α → String}

end

end SqlScript.Json
