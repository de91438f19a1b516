/-!
# Places in a YAML text

A `Cursor` is what is left of a text and where that is. Five line breaks are known, two of which end
up in scalars as they are.
-/

namespace SqlScript.Yaml

/-- Why a text is no YAML document. -/
inductive Fault
  | forbiddenCharacter
  | missingColon
  | misplacedIndicator
  | unexpectedCharacter
  | tabIndentation
  | unterminatedScalar
  | badEscape
  | badBlockHeader
  | badAnchor
  | badTag
  | badDirective
  | unexpectedToken
  | undefinedTagHandle
  | unknownAnchor
  | tooManyAliases
  | severalDocuments
deriving Repr, DecidableEq

def Fault.message : Fault → String
  | forbiddenCharacter => "control characters are not allowed"
  | missingColon => "could not find expected ':'"
  | misplacedIndicator => "an indicator is not allowed in this context"
  | unexpectedCharacter => "found a character that cannot start any token"
  | tabIndentation => "found a tab character that violates indentation"
  | unterminatedScalar => "found unexpected end of a quoted scalar"
  | badEscape => "found an unknown escape"
  | badBlockHeader => "did not find expected comment or line break"
  | badAnchor => "did not find expected alphabetic or numeric character"
  | badTag => "did not find expected tag"
  | badDirective => "found an unknown or repeated directive"
  | unexpectedToken => "did not find expected node content"
  | undefinedTagHandle => "found undefined tag handle"
  | unknownAnchor => "unknown anchor"
  | tooManyAliases => "too many aliases"
  | severalDocuments => "more than one document"

/-- A text may hold tabs, line breaks and printable characters. -/
def isAllowed (c : Char) : Bool :=
  let n := c.toNat
  n == 0x09 || n == 0x0A || n == 0x0D || (0x20 ≤ n && n ≤ 0x7E) || n == 0x85 ||
    (0xA0 ≤ n && n ≤ 0xD7FF) || (0xE000 ≤ n && n ≤ 0xFFFD) || 0x10000 ≤ n

def isBlank (c : Char) : Bool :=
  c == ' ' || c == '\t'

def isBreak (c : Char) : Bool :=
  c == '\n' || c == '\r' || c == '\u0085' || c == '\u2028' || c == '\u2029'

/-- A character of an anchor, a tag handle or the name of a directive. -/
def isNameChar (c : Char) : Bool :=
  c.isAlphanum || c == '_' || c == '-'

/-- What is left of a text, and the place where it starts. -/
structure Cursor where
  rest : List Char
  index : Nat := 0
  line : Nat := 0
  column : Nat := 0
deriving Repr

namespace Cursor

def peek? (c : Cursor) (n : Nat := 0) : Option Char :=
  c.rest[n]?

def isAt (c : Cursor) (x : Char) (n : Nat := 0) : Bool :=
  c.peek? n == some x

def atEnd (c : Cursor) (n : Nat := 0) : Bool :=
  (c.peek? n).isNone

def atBlank (c : Cursor) (n : Nat := 0) : Bool :=
  ((c.peek? n).map isBlank).getD false

def atBreak (c : Cursor) (n : Nat := 0) : Bool :=
  ((c.peek? n).map isBreak).getD false

/-- A blank, a line break or the end of the text is `n` places ahead. -/
def atGap (c : Cursor) (n : Nat := 0) : Bool :=
  c.atBlank n || c.atBreak n || c.atEnd n

/-- Past `n` characters of the line. -/
def skip (c : Cursor) (n : Nat := 1) : Cursor :=
  let n := min n c.rest.length
  { c with rest := c.rest.drop n, index := c.index + n, column := c.column + n }

/-- Past a line break, if there is one; a carriage return and a line feed together are one. -/
def skipBreak (c : Cursor) : Cursor :=
  match c.rest with
  | '\r' :: '\n' :: rest => { rest, index := c.index + 2, line := c.line + 1 }
  | x :: rest => if isBreak x then { rest, index := c.index + 1, line := c.line + 1 } else c
  | [] => c

/-- The line break ahead as it stands in a scalar. -/
def breakText (c : Cursor) : List Char :=
  match c.rest with
  | x :: _ => if x == '\u2028' || x == '\u2029' then [x] else if isBreak x then ['\n'] else []
  | [] => []

/-- Past all characters ahead that satisfy `p`, which holds of no line break. -/
def skipWhile (c : Cursor) (p : Char → Bool) : Cursor :=
  c.skip (c.rest.takeWhile p).length

def atDocumentMark (c : Cursor) : Bool :=
  c.column == 0 && (['-', '-', '-'].isPrefixOf c.rest || ['.', '.', '.'].isPrefixOf c.rest) &&
    c.atGap 3

def skipComment (c : Cursor) : Cursor :=
  if c.isAt '#' then c.skipWhile (!isBreak ·) else c

end Cursor
end SqlScript.Yaml
