import SqlScript.Text.Alphanumeric
import SqlScript.Text.AsciiCase
import SqlScript.Text.Blank

/-!
# Keywords at the start of a text

Each function takes a text and gives what is left after the keywords it looks for, if they are
there. A keyword may follow blanks, its letters may have either case, and it has to be a whole word:
`BEGIN` is not found in `BEGIN_DATE`.
-/

namespace SqlScript.Keyword
open Text

/-- A keyword that ends in a word character ends only where the word does. -/
def endsHere (keyword rest : List Char) : Bool :=
  !((keyword.getLast?.map isWordChar).getD false && (rest.head?.map isWordChar).getD false)

def after? (keyword text : List Char) : Option (List Char) :=
  match dropIgnoringCase keyword (trimStart text) with
  | some rest => if endsHere keyword rest then some rest else none
  | none => none

/-- The text after the first of several keywords that is there. -/
def afterAny? (keywords : List (List Char)) (text : List Char) : Option (List Char) :=
  keywords.findSome? (after? · text)

/-- The text after several keywords in a row. -/
def afterAll? : List (List Char) → List Char → Option (List Char)
  | [], text => some text
  | keyword :: more, text => (after? keyword text).bind (afterAll? more)

/-- The text after several keywords in a row, or the whole text if they are not all there. -/
def skip (keywords : List (List Char)) (text : List Char) : List Char :=
  (afterAll? keywords text).getD text

/-- The text after the next run of characters that are not blank. -/
def afterWord? (text : List Char) : Option (List Char) :=
  match trimStart text with
  | [] => none
  | rest => some (rest.dropWhile (!isBlank ·))

def next? (text : List Char) : Option Char :=
  (trimStart text).head?

end SqlScript.Keyword
