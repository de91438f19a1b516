import SqlScript.Proofs.Text.Line
import SqlScript.Proofs.Text.Search
import SqlScript.Splitting.Basic
import SqlScript.Vendor.Builtin

/-!
# Lexemes

`lex` cuts a whole text into lexemes without any regard to units: comments, literals, marker lines,
and single characters of code for all the rest. A lexeme is read off the text ahead; of the text
behind it only matters whether a line starts here, and whether an `E` stands before a quote. What
never closes is the `tail` of the lexing.
-/

namespace SqlScript
open Text

/-- A line with nothing else on it than the token that ends a block. -/
def Vendor.endsBlock (v : Vendor) (line : List Char) : Bool :=
  match v.blockEnd with
  | .line token => sameIgnoringCase (trim line) token.toList
  | .activeDelimiter => false

/-- The vendor's scripts fall into lexemes before anything is known of their units: the semicolon
ends statements all along, and only escape strings know backslashes. -/
structure Vendor.Plain (v : Vendor) : Prop where
  delimiter : v.delimiter = .semicolon
  delimiterDirective : v.delimiterDirective = false
  backslashEscapes : v.backslashEscapes = false

/-- The built-in vendors whose scripts fall into lexemes. -/
def Vendor.plainBuiltins : List Vendor :=
  [oracle, postgresql, sqlserver]

theorem Vendor.mem_plainBuiltins {v : Vendor} :
    v ∈ Vendor.plainBuiltins ↔ v = oracle ∨ v = postgresql ∨ v = sqlserver := by
  simp [plainBuiltins]

theorem Vendor.plain_of_mem {v : Vendor} (hv : v ∈ Vendor.plainBuiltins) : v.Plain := by
  rcases mem_plainBuiltins.1 hv with rfl | rfl | rfl <;> exact ⟨rfl, rfl, rfl⟩

inductive Lexeme.Kind
  | code
  /-- Its line feed is part of it. -/
  | lineComment
  | blockComment
  /-- A quoted or dollar-quoted literal with its marks. -/
  | literal
  /-- A line that ends a block, with its line feed. -/
  | markerLine
deriving Repr, DecidableEq

/-- A stretch of a script that is read as one. -/
structure Lexeme where
  kind : Lexeme.Kind
  text : List Char
deriving Repr, DecidableEq

/-- The lexeme of an opener and the text through its closer, if there is one. -/
def Lexeme.enclosed (kind : Kind) (opener : List Char) (body? : Option (List Char))
    (failure : Unterminated) : Except Unterminated Lexeme :=
  match body? with
  | some body => .ok ⟨kind, opener ++ body⟩
  | none => .error failure

/-- A single-quoted literal behind these characters, newest first, knows backslashes: an `E` stands
directly before it, and directly before that no letter, digit, underscore or dollar sign. -/
def Lexeme.behindE : List Char → Bool
  | 'E' :: before | 'e' :: before =>
    before.head?.all fun c => !isAlphanumeric c && c != '_' && c != '$'
  | _ => false

/-- The name that the text starts with and the dollar sign behind it. -/
def Lexeme.tagEnd? : List Char → Option (List Char)
  | [] => none
  | c :: text =>
    if c = '$' then some ['$']
    else if isAlphanumeric c || c == '_' then (tagEnd? text).map (c :: ·)
    else none

/-- The `$tag$` that the text starts with; what follows the first dollar sign is no digit. -/
def Lexeme.tag? : List Char → Option (List Char)
  | '$' :: text => if text.head?.any Char.isDigit then none else (tagEnd? text).map ('$' :: ·)
  | _ => none

/-- What the text `c :: text` starts with after the characters `before`, newest first: a lexeme, or
something that never closes. -/
def lexeme (v : Vendor) (before : List Char) (c : Char) (text : List Char) :
    Except Unterminated Lexeme :=
  let here := Location.after before
  if startsLine before && v.endsBlock (firstLine (c :: text)) then
    .ok ⟨.markerLine, wholeLine (c :: text)⟩
  else match c, text with
    | '-', '-' :: _ => .ok ⟨.lineComment, wholeLine (c :: text)⟩
    | '/', '*' :: text =>
      Lexeme.enclosed .blockComment ['/', '*'] (through? ['*', '/'] text) (.comment here)
    | '\x27', text =>
      Lexeme.enclosed .literal ['\x27'] (throughQuote? '\x27' (Lexeme.behindE before) text)
        (.quote "\x27" here)
    | '"', text => Lexeme.enclosed .literal ['"'] (throughQuote? '"' false text) (.quote "\"" here)
    | c, text =>
      match if v.dollarQuoting then Lexeme.tag? (c :: text) else none with
      | some tag =>
        Lexeme.enclosed .literal tag (through? tag ((c :: text).drop tag.length))
          (.quote (String.ofList tag) here)
      | none => .ok ⟨.code, [c]⟩

/-- The lexemes of a text, and the text from what never closes on, if something does not. -/
structure Lexing where
  lexemes : List Lexeme
  tail : List Char
  failure : Option Unterminated
deriving Repr, DecidableEq

/-- The lexing of a text after the characters `before`, newest first. -/
def lex (v : Vendor) (before : List Char) : List Char → Lexing
  | [] => ⟨[], [], none⟩
  | c :: text =>
    match lexeme v before c text with
    | .error failure => ⟨[], c :: text, some failure⟩
    | .ok l =>
      let more := lex v (l.text.reverse ++ before) (text.drop (l.text.length - 1))
      { more with lexemes := l :: more.lexemes }
termination_by text => text.length

namespace Lexeme

def isBlank (l : Lexeme) : Bool :=
  l.kind == .code && l.text.all Text.isBlank

def isComment (l : Lexeme) : Bool :=
  l.kind == .lineComment || l.kind == .blockComment

def isSemicolon (l : Lexeme) : Bool :=
  l.kind == .code && l.text == [';']

/-- A unit can begin with it without being more than blanks and comments. -/
def isPadding (l : Lexeme) : Bool :=
  l.isBlank || l.isComment

/-- It makes a unit more than blanks and comments. -/
def isSignificant (l : Lexeme) : Bool :=
  !l.isPadding && !l.isSemicolon && l.kind != .markerLine

/-- It ends a unit: a marker line always, a semicolon unless it stands in a block with an end of its
own. -/
def ends (v : Vendor) (procedural : Bool) (l : Lexeme) : Bool :=
  l.kind == .markerLine || l.isSemicolon && (!procedural || v.blockEnd == .activeDelimiter)

def join (ls : List Lexeme) : List Char :=
  ls.flatMap text

/-- What comes last, blanks aside, is a comment to the end of the line. -/
def endInLineComment (ls : List Lexeme) : Bool :=
  (ls.reverse.dropWhile (·.isBlank)).head?.any (·.kind == .lineComment)

end Lexeme

/-- The lexemes between two ends of units. -/
structure SourceUnit where
  lexemes : List Lexeme
  procedural : Bool
deriving Repr, DecidableEq

namespace SourceUnit

/-- The unit that begins with `ls` is a procedural block: the vendor says so of the text from its
first significant lexeme on; `tail` is the text behind all lexemes. -/
def startsProcedural (v : Vendor) (tail : List Char) (ls : List Lexeme) : Bool :=
  match ls.dropWhile (·.isPadding) with
  | [] => false
  | l :: more => l.isSignificant && v.isProceduralStart (Lexeme.join (l :: more) ++ tail)

/-- The statement of the unit, unless it is nothing but blanks and comments. -/
def statement? (u : SourceUnit) : Option Statement :=
  if u.lexemes.any (·.isSignificant) then
    some ⟨if u.procedural then .procedural else .regular, String.ofList
      (trim (Lexeme.join u.lexemes) ++ if Lexeme.endInLineComment u.lexemes then ['\n'] else [])⟩
  else none

end SourceUnit

/-- The units that the lexemes `ls` fall into; the last one is not ended by a lexeme. -/
def sourceUnits (v : Vendor) (tail : List Char) (ls : List Lexeme) : List SourceUnit :=
  let procedural := SourceUnit.startsProcedural v tail ls
  let unit : SourceUnit := ⟨ls.takeWhile (!·.ends v procedural), procedural⟩
  match _h : ls.dropWhile (!·.ends v procedural) with
  | [] => [unit]
  | _ :: more => unit :: sourceUnits v tail more
termination_by ls.length
decreasing_by
  have := (List.dropWhile_suffix (!·.ends v procedural) (l := ls)).length_le
  rw [_h] at this
  exact this

namespace Lexing

/-- The units that are complete: what never closes takes the unit it stands in with it. -/
def complete (failure : Option Unterminated) (units : List SourceUnit) : List SourceUnit :=
  if failure.isSome then units.dropLast else units

def splitting (v : Vendor) (l : Lexing) : Splitting :=
  ⟨(complete l.failure (sourceUnits v l.tail l.lexemes)).filterMap (·.statement?), l.failure⟩

end Lexing
end SqlScript
