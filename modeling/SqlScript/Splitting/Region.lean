import SqlScript.Text.Alphanumeric
import SqlScript.Vendor.Basic

/-!
# Regions of a script

At every place a script is in code, in a quoted literal, in a comment or in a dollar-quoted literal.
`Region.openedBy?` says what the next characters of code open, and `Region.advance` how far the next
piece of any other region reaches and which region comes after it. Only code holds terminators.
-/

namespace SqlScript
open Text

/-- What a place of a script is in. -/
inductive Region
  | code
  /-- Up to the next `mark`; a backslash may take the character after it along. -/
  | quoted (mark : Char) (backslash : Bool)
  | lineComment
  /-- Up to the next end of a comment; comments do not nest. -/
  | blockComment
  /-- Up to the next `tag`. -/
  | dollarQuoted (tag : List Char)
deriving Repr, DecidableEq

namespace Region

/-- The tag `$name$` that the text starts with. A name may be empty, and has no digit in front. -/
def dollarTag? : List Char → Option (List Char)
  | '$' :: rest =>
    let name := rest.takeWhile fun c => isAlphanumeric c || c == '_'
    if (name.head?.map Char.isDigit).getD false then none
    else if (rest.drop name.length).head? = some '$' then some ('$' :: name ++ ['$'])
    else none
  | _ => none

/-- A quote after these characters, newest first, opens an escape string: the letter `E` stands
directly before it and ends no longer word. -/
def afterEscapeMark : List Char → Bool
  | c :: before =>
    (c == 'E' || c == 'e') &&
      !((before.head?.map fun c => isAlphanumeric c || c == '_' || c == '$').getD false)
  | [] => false

/-- The region that the text opens after the characters `before`, newest first, and the length of
what opens it. -/
def openedBy? (v : Vendor) (before : List Char) (text : List Char) : Option (Nat × Region) :=
  match text with
  | '-' :: '-' :: _ => some (2, .lineComment)
  | '/' :: '*' :: _ => some (2, .blockComment)
  | '\x27' :: _ => some (1, .quoted '\x27' (v.backslashEscapes || afterEscapeMark before))
  | '"' :: _ => some (1, .quoted '"' v.backslashEscapes)
  | _ =>
    if v.dollarQuoting then (dollarTag? text).map fun tag => (tag.length, .dollarQuoted tag)
    else none

/-- How far the next piece of a region reaches and the region after it. The line feed after a
comment is code already, so it is a piece of its own. -/
def advance (r : Region) (text : List Char) : Nat × Region :=
  match r with
  | .code => (1, .code)
  | .quoted mark backslash =>
    if backslash && text.head? = some '\\' then (2, r)
    else if text.head? = some mark then (1, .code)
    else (1, r)
  | .lineComment => if text.head? = some '\n' then (1, .code) else (1, r)
  | .blockComment => if ['*', '/'].isPrefixOf text then (2, .code) else (1, r)
  | .dollarQuoted tag => if tag.isPrefixOf text then (tag.length, .code) else (1, r)

end Region
end SqlScript
