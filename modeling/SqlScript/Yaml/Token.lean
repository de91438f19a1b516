import SqlScript.Text.Utf8
import SqlScript.Yaml.Scalar

/-!
# Tokens

`tokens` cuts a YAML text into tokens. Block collections have no brackets of their own: a `Lexer`
keeps the columns of those that are open, opens one where a line goes further in, and closes those
that a line leaves. A mapping's key without `?` is known as such only by the colon behind it, so the
lexer keeps the candidate and puts the token for it in front later.
-/

namespace SqlScript.Yaml

/-- The name of a node's type, in octets: as escapes, any may be in it. -/
abbrev Tag := List UInt8

namespace Tag

/-- The tag that ASCII characters spell. -/
def ofAscii (text : String) : Tag :=
  text.toList.map Char.toUInt8

/-- What counts of a tag: the octets before the first zero. -/
def upToZero (t : Tag) : Tag :=
  t.takeWhile (· != 0)

/-- A tag of the file's own, which is a text that starts with an exclamation mark. -/
def isOwn (t : Tag) : Bool :=
  t.head? == some 0x21 && (Text.decode? t).isSome

/-- The tag of one of the types that every file knows. -/
def known (name : String) : Tag :=
  ofAscii ("tag:yaml.org,2002:" ++ name)

end Tag

inductive Token
  | version (major minor : Nat)
  | tagHandle (handle : List Char) (stem : Tag)
  | documentStart
  | documentEnd
  | blockSequenceStart
  | blockMappingStart
  | blockEnd
  | flowSequenceStart
  | flowSequenceEnd
  | flowMappingStart
  | flowMappingEnd
  | blockEntry
  | flowEntry
  | key
  | value
  | alias (name : List Char)
  | anchor (name : List Char)
  | tag (handle : List Char) (suffix : Tag)
  | scalar (style : Style) (text : List Char)
deriving Repr, DecidableEq

/-! ### Anchors, tags and directives -/

/-- Reads the name of an anchor or an alias after its indicator. -/
def readAnchor (c : Cursor) : Except Fault (List Char × Cursor) :=
  let name := c.rest.takeWhile isNameChar
  let c := c.skip name.length
  let ends := c.atGap || ((c.peek?).map fun x => "?:,]\x7d%@\x60".toList.contains x).getD false
  if name.isEmpty || !ends then .error .badAnchor else .ok (name, c)

/-- A character of a tag; a tag in angle brackets may hold the indicators of a flow sequence. -/
def isTagChar (verbatim : Bool) (x : Char) : Bool :=
  isNameChar x || ";/?:@&=+$.!~*'()".toList.contains x || (verbatim && ",[]".toList.contains x)

/-- Reads an octet: a percent sign and two hexadecimal digits. -/
def readOctet (c : Cursor) : Except Fault (UInt8 × Cursor) :=
  let digits := (c.rest.drop 1).take 2
  match if c.isAt '%' && digits.length = 2 then hexValue? digits else none with
  | some b => .ok (UInt8.ofNat b, c.skip 3)
  | none => .error .badTag

/-- How many octets a character has by the first of them. -/
def octetCount? (lead : UInt8) : Option Nat :=
  if lead < 0x80 then some 1
  else if 0xC0 ≤ lead && lead < 0xE0 then some 2
  else if 0xE0 ≤ lead && lead < 0xF0 then some 3
  else if 0xF0 ≤ lead && lead < 0xF8 then some 4
  else none

/-- Reads `n` further octets of a character. -/
def readTrailing : Nat → Cursor → Except Fault (Tag × Cursor)
  | 0, c => .ok ([], c)
  | n + 1, c => do
    let (b, c) ← readOctet c
    if b < 0x80 || 0xC0 ≤ b then throw .badTag
    let (later, c) ← readTrailing n c
    return (b :: later, c)

/-- Reads a character that is written as octets. Only their number and kind have to fit. -/
def readEscaped (c : Cursor) : Except Fault (Tag × Cursor) := do
  let (lead, c) ← readOctet c
  match octetCount? lead with
  | none => throw .badTag
  | some n =>
    let (trailing, c) ← readTrailing (n - 1) c
    return (lead :: trailing, c)

/-- Reads the characters of a tag after `text`. -/
def readTagText (verbatim : Bool) : Nat → Tag → Cursor → Except Fault (Tag × Cursor)
  | 0, text, c => .ok (text, c)
  | n + 1, text, c =>
    match c.peek? with
    | none => .ok (text, c)
    | some x =>
      if isTagChar verbatim x then readTagText verbatim n (text ++ [x.toUInt8]) c.skip
      else if x == '%' then
        match readEscaped c with
        | .error e => .error e
        | .ok (octets, c) => readTagText verbatim n (text ++ octets) c
      else .ok (text, c)

/-- Reads the handle of a tag: an exclamation mark, or a name between two. -/
def readHandle (c : Cursor) : List Char × Cursor :=
  let name := (c.rest.drop 1).takeWhile isNameChar
  let c := c.skip (name.length + 1)
  if c.isAt '!' then ('!' :: name ++ ['!'], c.skip) else ('!' :: name, c)

/-- Reads a tag without regard to what follows. -/
def readTagParts (c : Cursor) : Except Fault (List Char × Tag × Cursor) :=
  if c.isAt '<' 1 then
    match readTagText true c.rest.length [] (c.skip 2) with
    | .error e => .error e
    | .ok (suffix, c) =>
      if suffix.isEmpty || !c.isAt '>' then .error .badTag
      else .ok ([], suffix.upToZero, c.skip)
  else
    let (handle, c) := readHandle c
    if handle.length ≥ 2 && handle.getLast? == some '!' then
      match readTagText false c.rest.length [] c with
      | .error e => .error e
      | .ok (suffix, c) =>
        if suffix.isEmpty then .error .badTag else .ok (handle, suffix.upToZero, c)
    else
      match readTagText false c.rest.length ((handle.drop 1).map Char.toUInt8) c with
      | .error e => .error e
      | .ok (suffix, c) =>
        let suffix := suffix.upToZero
        if suffix.isEmpty then .ok ([], .ofAscii "!", c) else .ok (['!'], suffix, c)

/-- Reads a tag, which ends at a gap, or at a comma in a flow collection. -/
def readTag (inFlow : Bool) (c : Cursor) : Except Fault (Token × Cursor) :=
  match readTagParts c with
  | .error e => .error e
  | .ok (handle, suffix, c) =>
    if c.atGap || (inFlow && c.isAt ',') then .ok (.tag handle suffix, c) else .error .badTag

/-- Reads a part of a version, of at most nine digits. -/
def readNumber (c : Cursor) : Except Fault (Nat × Cursor) :=
  let digits := c.rest.takeWhile Char.isDigit
  if digits.isEmpty || digits.length > 9 then .error .badDirective
  else .ok (digits.foldl (fun n d => 10 * n + (d.toNat - 0x30)) 0, c.skip digits.length)

/-- Reads the value of a directive by its name. -/
def readDirectiveValue (name : List Char) (c : Cursor) : Except Fault (Token × Cursor) := do
  if name == "YAML".toList then
    let (major, c) ← readNumber (c.skipWhile isBlank)
    if !c.isAt '.' then throw .badDirective
    let (minor, c) ← readNumber c.skip
    return (.version major minor, c)
  else if name == "TAG".toList then
    let c := c.skipWhile isBlank
    if !c.isAt '!' then throw .badDirective
    let (handle, c) := readHandle c
    if !(handle == ['!'] || handle.getLast? == some '!') || !c.atBlank then throw .badDirective
    let c := c.skipWhile isBlank
    let (stem, c) ← readTagText true c.rest.length [] c
    if stem.isEmpty || !c.atGap then throw .badDirective
    return (.tagHandle handle (stem.upToZero), c)
  else throw .badDirective

/-- Reads a directive, which takes a line of its own. -/
def readDirective (c : Cursor) : Except Fault (Token × Cursor) :=
  let name := (c.rest.drop 1).takeWhile isNameChar
  let c := c.skip (name.length + 1)
  if name.isEmpty || !c.atGap then .error .badDirective
  else match readDirectiveValue name c with
    | .error e => .error e
    | .ok (t, c) =>
      let c := (c.skipWhile isBlank).skipComment
      if c.atBreak then .ok (t, c.skipBreak)
      else if c.atEnd then .ok (t, c)
      else .error .badDirective

/-! ### The lexer -/

/-- A token that may turn out to be a mapping's key. -/
structure KeyCandidate where
  /-- The number of tokens before it. -/
  position : Nat
  index : Nat
  line : Nat
  column : Nat
  /-- Nothing but a key can stand here. -/
  required : Bool

/-- The state of cutting a text into tokens. -/
structure Lexer where
  cursor : Cursor
  /-- The tokens so far, newest first. -/
  tokens : List Token := []
  /-- The column of the innermost block collection, or -1. -/
  indent : Int := -1
  /-- The columns of those around it. -/
  outer : List Int := []
  keyAllowed : Bool := true
  /-- The candidate for a key in each open flow collection, innermost first, and outside of them. -/
  candidates : List (Option KeyCandidate) := [none]

namespace Lexer

def inFlow (l : Lexer) : Bool :=
  l.candidates.length > 1

def push (l : Lexer) (t : Token) : Lexer :=
  { l with tokens := t :: l.tokens }

/-- Puts a token behind the first `n`. -/
def insertAt (l : Lexer) (n : Nat) (t : Token) : Lexer :=
  let later := l.tokens.take (l.tokens.length - n)
  { l with tokens := later ++ t :: l.tokens.drop later.length }

/-- A candidate is out of date on a further line, and 1024 characters on. -/
def isStale (l : Lexer) (k : KeyCandidate) : Bool :=
  k.line < l.cursor.line || k.index + 1024 < l.cursor.index

/-- Drops the candidates that are out of date; a required one must not be. -/
def dropStale (l : Lexer) : Except Fault Lexer :=
  let stale := fun k : Option KeyCandidate => (k.map l.isStale).getD false
  if l.candidates.any fun k => stale k && (k.map (·.required)).getD false then
    .error .missingColon
  else .ok { l with candidates := l.candidates.map fun k => if stale k then none else k }

def setCandidate (l : Lexer) (k : Option KeyCandidate) : Lexer :=
  { l with candidates := k :: l.candidates.tail }

def candidate? (l : Lexer) : Option KeyCandidate :=
  l.candidates.head?.join

/-- Gives up the candidate in the innermost collection. -/
def dropCandidate (l : Lexer) : Except Fault Lexer :=
  match l.candidate? with
  | some k => if k.required then .error .missingColon else .ok (l.setCandidate none)
  | none => .ok (l.setCandidate none)

/-- Notes that the token ahead may be a key. -/
def noteCandidate (l : Lexer) : Except Fault Lexer :=
  if l.keyAllowed then do
    let l ← l.dropCandidate
    let c := l.cursor
    return l.setCandidate (some {
      position := l.tokens.length, index := c.index, line := c.line, column := c.column
      required := !l.inFlow && l.indent == c.column })
  else .ok l

/-- Opens a block collection at a column that lies further in, by a token behind the first `n`. -/
def openBlock (l : Lexer) (column n : Nat) (t : Token) : Lexer :=
  if !l.inFlow && l.indent < column then
    { l.insertAt n t with indent := column, outer := l.indent :: l.outer }
  else l

/-- The columns that are left when those beyond `column` are closed, and how many those are. -/
def closedTo (column : Int) : Int → List Int → Int × List Int × Nat
  | indent, [] => (indent, [], 0)
  | indent, i :: outer =>
    if column < indent then
      let (indent, outer, n) := closedTo column i outer
      (indent, outer, n + 1)
    else (indent, i :: outer, 0)

/-- Closes the block collections that lie further in than a column. -/
def closeBlocks (l : Lexer) (column : Int) : Lexer :=
  if l.inFlow then l
  else
    let (indent, outer, n) := closedTo column l.indent l.outer
    { l with indent, outer, tokens := List.replicate n .blockEnd ++ l.tokens }

/-- Goes on to the next token, over blanks, comments and line breaks. Tabs are no indentation. -/
def skipGap : Nat → Lexer → Lexer
  | 0, l => l
  | n + 1, l =>
    let c := l.cursor
    let c := if c.column == 0 && c.isAt '\uFEFF' then c.skip else c
    let tabs := l.inFlow || !l.keyAllowed
    let c := (c.skipWhile fun x => x == ' ' || (tabs && x == '\t')).skipComment
    if c.atBreak then
      skipGap n { l with cursor := c.skipBreak, keyAllowed := l.keyAllowed || !l.inFlow }
    else { l with cursor := c }

/-- Reads a token that may be a key. -/
def readScalarLike (l : Lexer) (read : Cursor → Except Fault (Token × Cursor)) :
    Except Fault Lexer := do
  let l ← l.noteCandidate
  let (t, c) ← read l.cursor
  return { l.push t with cursor := c, keyAllowed := false }

def readAnchorToken (make : List Char → Token) (c : Cursor) : Except Fault (Token × Cursor) :=
  (readAnchor c.skip).map fun r => (make r.1, r.2)

def readQuotedToken (style : Style) (quote : Char) (c : Cursor) : Except Fault (Token × Cursor) :=
  (readQuoted quote c).map fun r => (.scalar style r.1, r.2)

/-- Reads a plain scalar. A key may follow it where it has gone over the end of a line. -/
def readPlainToken (l : Lexer) : Except Fault Lexer := do
  let l ← l.noteCandidate
  let (text, crossed, c) ← readPlain l.inFlow (l.indent + 1) l.cursor
  return { l.push (.scalar .plain text) with cursor := c, keyAllowed := crossed }

def readBlockToken (l : Lexer) (literal : Bool) : Except Fault Lexer := do
  let l ← l.dropCandidate
  let (text, c) ← readBlock literal l.indent l.cursor
  let style := if literal then Style.literal else Style.folded
  return { l.push (.scalar style text) with cursor := c, keyAllowed := true }

def readFlowStart (l : Lexer) (t : Token) : Except Fault Lexer := do
  let l ← l.noteCandidate
  return { l.push t with
    cursor := l.cursor.skip, keyAllowed := true, candidates := none :: l.candidates }

def readFlowEnd (l : Lexer) (t : Token) : Except Fault Lexer := do
  let l ← l.dropCandidate
  let candidates := if l.inFlow then l.candidates.tail else l.candidates
  return { l.push t with cursor := l.cursor.skip, keyAllowed := false, candidates }

def readFlowEntry (l : Lexer) : Except Fault Lexer := do
  let l ← l.dropCandidate
  return { l.push .flowEntry with cursor := l.cursor.skip, keyAllowed := true }

/-- Opens the block collection of an indicator, which must stand where a key may. -/
def openAtIndicator (l : Lexer) (t : Token) : Except Fault Lexer :=
  if l.inFlow then .ok l
  else if l.keyAllowed then .ok (l.openBlock l.cursor.column l.tokens.length t)
  else .error .misplacedIndicator

def readBlockEntry (l : Lexer) : Except Fault Lexer := do
  let l ← l.openAtIndicator .blockSequenceStart
  let l ← l.dropCandidate
  return { l.push .blockEntry with cursor := l.cursor.skip, keyAllowed := true }

def readKey (l : Lexer) : Except Fault Lexer := do
  let l ← l.openAtIndicator .blockMappingStart
  let l ← l.dropCandidate
  return { l.push .key with cursor := l.cursor.skip, keyAllowed := !l.inFlow }

/-- Reads the colon before a value. The candidate for a key is one then. -/
def readValue (l : Lexer) : Except Fault Lexer := do
  let l ← match l.candidate? with
    | some k =>
      let l := l.insertAt k.position .key
      let l := l.openBlock k.column k.position .blockMappingStart
      pure { l.setCandidate none with keyAllowed := false }
    | none => do
      let l ← l.openAtIndicator .blockMappingStart
      pure { l with keyAllowed := !l.inFlow }
  return { l.push .value with cursor := l.cursor.skip }

/-- Reads a directive or the mark of a document's start or end, which close all collections. -/
def readAtMargin (l : Lexer) (read : Cursor → Except Fault (Token × Cursor)) :
    Except Fault Lexer := do
  let l ← (l.closeBlocks (-1)).dropCandidate
  let (t, c) ← read l.cursor
  return { l.push t with cursor := c, keyAllowed := false }

/-- A plain scalar may start with any character but a blank and the indicators; `-`, `?` and `:` may
start one where they are no indicators. -/
def startsPlain (l : Lexer) (x : Char) : Bool :=
  let c := l.cursor
  !(c.atGap || "-?:,[]\x7b\x7d#&*!|>'\"%@\x60".toList.contains x) ||
    (x == '-' && !c.atBlank 1) || (!l.inFlow && (x == '?' || x == ':') && !c.atGap 1)

def readToken (l : Lexer) (x : Char) : Except Fault Lexer :=
  let c := l.cursor
  if c.column == 0 && x == '%' then l.readAtMargin readDirective
  else if c.atDocumentMark then
    l.readAtMargin fun c => .ok (if x == '-' then .documentStart else .documentEnd, c.skip 3)
  else if x == '[' then l.readFlowStart .flowSequenceStart
  else if x == '\x7b' then l.readFlowStart .flowMappingStart
  else if x == ']' then l.readFlowEnd .flowSequenceEnd
  else if x == '\x7d' then l.readFlowEnd .flowMappingEnd
  else if x == ',' then l.readFlowEntry
  else if x == '-' && c.atGap 1 then l.readBlockEntry
  else if x == '?' && (l.inFlow || c.atGap 1) then l.readKey
  else if x == ':' && (l.inFlow || c.atGap 1) then l.readValue
  else if x == '*' then l.readScalarLike (readAnchorToken .alias)
  else if x == '&' then l.readScalarLike (readAnchorToken .anchor)
  else if x == '!' then l.readScalarLike (readTag l.inFlow)
  else if x == '|' && !l.inFlow then l.readBlockToken true
  else if x == '>' && !l.inFlow then l.readBlockToken false
  else if x == '\x27' then l.readScalarLike (readQuotedToken .singleQuoted '\x27')
  else if x == '"' then l.readScalarLike (readQuotedToken .doubleQuoted '"')
  else if l.startsPlain x then l.readPlainToken
  else .error .unexpectedCharacter

/-- Reads all tokens. Each takes at least one character. -/
def readAll : Nat → Lexer → Except Fault Lexer
  | 0, _ => .error .unexpectedCharacter
  | n + 1, l => do
    let l := skipGap (l.cursor.rest.length + 1) l
    let l ← l.dropStale
    let l := l.closeBlocks l.cursor.column
    match l.cursor.peek? with
    | none => (l.closeBlocks (-1)).dropCandidate
    | some x => readAll n (← l.readToken x)

end Lexer

def tokens (text : List Char) : Except Fault (List Token) :=
  if text.all isAllowed then
    (Lexer.readAll (text.length + 1) { cursor := { rest := text } }).map (·.tokens.reverse)
  else .error .forbiddenCharacter

end SqlScript.Yaml
