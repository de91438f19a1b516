import SqlScript.Text.Utf8

/-!
# Places in a script

A `Location` names a place by its byte offset, its line and its column. Lines and columns count
from one, a column in characters; both stop at `Location.maxCount`.
-/

namespace SqlScript

/-- A place in a script. -/
structure Location where
  offset : Nat
  line : Nat
  column : Nat
deriving Repr, DecidableEq, Inhabited

namespace Location

def maxCount : Nat := UInt32.size - 1

def maxOffset : Nat := UInt64.size - 1

/-- The place after the characters `before`, newest first. -/
def after (before : List Char) : Location where
  offset := Text.byteLength before
  line := min (before.count '\n' + 1) maxCount
  column := min ((before.takeWhile (· != '\n')).length + 1) maxCount

/-- The place at a byte offset of `text`, if the offset falls between two of its characters. -/
def of? (text : String) (offset : Nat) : Option Location :=
  (Text.splitAtByte? text.toList offset).map fun p => after p.1.reverse

def display (l : Location) : String :=
  "line " ++ toString l.line ++ ", column " ++ toString l.column

end Location
end SqlScript
