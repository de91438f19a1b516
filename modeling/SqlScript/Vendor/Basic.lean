/-!
# Vendors

A `Vendor` is what the splitter knows of a database product: which statements open a procedural
block, what ends a statement, what ends a block, and which lexical extras the product's scripts
use.
-/

namespace SqlScript

/-- The text that ends a statement; it is never empty, so reading one always gets ahead. -/
structure Delimiter where
  chars : List Char
  ne_nil : chars ≠ []
deriving DecidableEq

namespace Delimiter

def ofChars? (chars : List Char) : Option Delimiter :=
  if h : chars = [] then none else some ⟨chars, h⟩

def semicolon : Delimiter := ⟨[';'], by decide⟩

def text (d : Delimiter) : String :=
  String.ofList d.chars

end Delimiter

/-- What ends a procedural block. -/
inductive BlockEnd
  /-- A line that holds nothing else than this token. -/
  | line (token : String)
  /-- The delimiter in force where the block ends. -/
  | activeDelimiter
deriving Repr, DecidableEq

/-- A database product, as far as splitting its scripts goes. -/
structure Vendor where
  name : String
  /-- Whether a statement that starts like this is a procedural block. -/
  isProceduralStart : List Char → Bool
  /-- What ends a statement at the start of a script. -/
  delimiter : Delimiter := Delimiter.semicolon
  blockEnd : BlockEnd
  /-- Lines `DELIMITER token` set another delimiter. -/
  delimiterDirective : Bool := false
  /-- Text between two equal marks `$tag$` is a literal. -/
  dollarQuoting : Bool := false
  /-- A backslash in a quoted literal takes the next character with it. -/
  backslashEscapes : Bool := false
  /-- Where the product's servers listen, for display only. -/
  serverPort : Option Nat := none

end SqlScript
