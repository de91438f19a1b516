import SqlScript.Splitting.Failure
import SqlScript.Splitting.Region
import SqlScript.Statement
import SqlScript.Text.AsciiCase

/-!
# Scanning a script

A `Scan` is a place in a script, the region it is in and the unit that is being gathered.
`Scan.move?` looks at the text ahead and names the next `Move`; `Scan.make` carries it out. Every
move reads at least one character, so a scan of a text of `n` characters is over after `n` moves.
-/

namespace SqlScript
open Text

/-- The unit that is being gathered. -/
structure Gathered where
  /-- Its text so far, newest character first. -/
  text : List Char := []
  /-- It holds something else than blanks and comments. -/
  significant : Bool := false
  procedural : Bool := false
  /-- What came last, blanks aside, is a comment to the end of the line. -/
  commentTail : Bool := false
deriving Repr, DecidableEq

namespace Gathered

/-- The text of the statement: trimmed, with a line feed behind a comment to the end of the line,
so that nothing appended to it becomes part of the comment. -/
def body (u : Gathered) : List Char :=
  let text := trim u.text.reverse
  if u.commentTail then text ++ ['\n'] else text

/-- The statement that the unit amounts to, if it is more than blanks and comments. -/
def statement? (u : Gathered) : Option Statement :=
  if u.significant && !(trim u.text.reverse).isEmpty then
    some ⟨if u.procedural then .procedural else .regular, String.ofList u.body⟩
  else none

end Gathered

/-- A place in a script and what has been gathered up to it. -/
structure Scan where
  /-- The text behind, newest character first. -/
  before : List Char
  /-- The text ahead. -/
  rest : List Char
  region : Region
  /-- The text before the place where the region opened, newest character first. -/
  opened : List Char
  delimiter : Delimiter
  unit : Gathered
  /-- The statements so far, newest first. -/
  statements : List Statement
deriving DecidableEq

/-- What the next characters of a script are. -/
inductive Move
  /-- The next characters belong to the unit, and `region` follows them. -/
  | keep (length : Nat) (region : Region)
  /-- The delimiter, which ends the unit. -/
  | delimiter
  /-- The rest of a line that ends the unit. -/
  | markerLine
  /-- The rest of a line that sets another delimiter. -/
  | directive (delimiter : Delimiter)
deriving DecidableEq

/-- The delimiter that a line `DELIMITER token` sets. -/
def directiveOfLine? (line : List Char) : Option Delimiter :=
  match words line with
  | keyword :: token :: _ =>
    if sameIgnoringCase keyword "DELIMITER".toList then Delimiter.ofChars? token else none
  | _ => none

namespace Scan

def start (v : Vendor) (text : List Char) : Scan where
  before := []
  rest := text
  region := .code
  opened := []
  delimiter := v.delimiter
  unit := {}
  statements := []

def atLineStart (s : Scan) : Bool :=
  (s.before.head?.map (· == '\n')).getD true

/-- The line ahead holds nothing else than the token that ends a block. -/
def atMarkerLine (v : Vendor) (s : Scan) : Bool :=
  match v.blockEnd with
  | .line token => s.atLineStart && sameIgnoringCase (trim (firstLine s.rest)) token.toList
  | .activeDelimiter => false

def atBlank (s : Scan) : Bool :=
  (s.rest.head?.map isBlank).getD false

def atLineComment (s : Scan) : Bool :=
  ['-', '-'].isPrefixOf s.rest

def atComment (s : Scan) : Bool :=
  s.atLineComment || ['/', '*'].isPrefixOf s.rest

def atDelimiter (s : Scan) : Bool :=
  s.delimiter.chars.isPrefixOf s.rest

/-- A delimiter ahead would end the unit. -/
def delimiterEnds (v : Vendor) (s : Scan) : Bool :=
  !s.unit.procedural || v.blockEnd == .activeDelimiter

/-- The text ahead is the first of the unit that is no blank, comment or delimiter. -/
def startsUnit (s : Scan) : Bool :=
  !s.unit.significant && !s.atComment && !s.atBlank && !s.atDelimiter

/-- The delimiter that the line ahead sets, where a unit would start. -/
def directive? (v : Vendor) (s : Scan) : Option Delimiter :=
  if v.delimiterDirective && s.startsUnit then directiveOfLine? (firstLine s.rest) else none

def moveInCode (v : Vendor) (s : Scan) : Move :=
  if s.atMarkerLine v then .markerLine
  else match s.directive? v with
    | some d => .directive d
    | none =>
      match Region.openedBy? v s.before s.rest with
      | some (length, region) => .keep length region
      | none => if s.atDelimiter && s.delimiterEnds v then .delimiter else .keep 1 .code

def move (v : Vendor) (s : Scan) : Move :=
  if s.region = .code then s.moveInCode v
  else
    let (length, region) := s.region.advance s.rest
    .keep length region

/-- The number of characters that a move reads, as long as there are so many. -/
def reach (s : Scan) : Move → Nat
  | .keep length _ => length
  | .delimiter => s.delimiter.chars.length
  | .markerLine | .directive _ => (firstLine s.rest).length + 1

def skip (s : Scan) (n : Nat) : Scan :=
  { s with before := (s.rest.take n).reverse ++ s.before, rest := s.rest.drop n }

/-- The unit once the code ahead is known to be its next part: its first significant text decides
whether it is procedural. -/
def noted (v : Vendor) (s : Scan) : Gathered :=
  let unit :=
    if s.startsUnit then
      { s.unit with significant := true, procedural := v.isProceduralStart s.rest }
    else s.unit
  if s.atBlank || (s.atDelimiter && s.delimiterEnds v) then unit
  else { unit with commentTail := s.atLineComment }

/-- The next `n` characters become part of the unit. -/
def take (v : Vendor) (s : Scan) (n : Nat) (region : Region) : Scan :=
  let unit := if s.region = .code then s.noted v else s.unit
  { s.skip n with
    region
    opened := if s.region = .code then s.before else s.opened
    unit := { unit with text := (s.rest.take n).reverse ++ unit.text } }

/-- The unit ends; a new one begins. -/
def close (s : Scan) : Scan :=
  { s with unit := {}, statements := s.unit.statement?.toList ++ s.statements }

def make (v : Vendor) (s : Scan) (m : Move) : Scan :=
  match m with
  | .keep length region => s.take v length region
  | .delimiter | .markerLine => s.close.skip (s.reach m)
  | .directive delimiter => { s.skip (s.reach m) with delimiter }

def next (v : Vendor) (s : Scan) : Scan :=
  s.make v (s.move v)

/-- The scan after `n` moves, or fewer if the text ends before. -/
def advance (v : Vendor) : Nat → Scan → Scan
  | 0, s => s
  | n + 1, s => if s.rest.isEmpty then s else advance v n (s.next v)

def finish (v : Vendor) (s : Scan) : Scan :=
  s.advance v s.rest.length

/-- The scans from which the next `n` moves are made. -/
def visited (v : Vendor) : Nat → Scan → List Scan
  | 0, _ => []
  | n + 1, s => if s.rest.isEmpty then [] else s :: visited v n (s.next v)

/-- What is still open where the text ends. -/
def unterminated? (s : Scan) : Option Unterminated :=
  match s.region with
  | .code | .lineComment => none
  | .quoted mark _ => some (.quote (String.singleton mark) (.after s.opened))
  | .dollarQuoted tag => some (.quote (String.ofList tag) (.after s.opened))
  | .blockComment => some (.comment (.after s.opened))

end Scan
end SqlScript
