import SqlScript.Yaml.Cursor

/-!
# Scalars

The five ways to write a text in YAML: plain, in single or double quotes, and as a literal or folded
block. Line breaks between words of the first three are folded: a single one becomes a space, and of
several all but the first are kept.
-/

namespace SqlScript.Yaml

inductive Style
  | plain
  | singleQuoted
  | doubleQuoted
  | literal
  | folded
deriving Repr, DecidableEq

/-- Blanks and line breaks between two words of a scalar. -/
structure Gap where
  blanks : List Char := []
  firstBreak : List Char := []
  moreBreaks : List Char := []
  /-- The gap reaches over the end of a line. -/
  crossed : Bool := false

def Gap.text (g : Gap) : List Char :=
  if g.crossed then
    if g.firstBreak = ['\n'] then
      if g.moreBreaks.isEmpty then [' '] else g.moreBreaks
    else g.firstBreak ++ g.moreBreaks
  else g.blanks

/-- Reads blanks and line breaks. No tab may stand before column `tabLimit` of a further line. -/
def readGap (tabLimit : Int) : Nat → Gap → Cursor → Except Fault (Gap × Cursor)
  | 0, g, c => .ok (g, c)
  | n + 1, g, c =>
    if c.atBlank then
      if g.crossed then
        if c.column < tabLimit && c.isAt '\t' then .error .tabIndentation
        else readGap tabLimit n g c.skip
      else readGap tabLimit n { g with blanks := g.blanks ++ (c.rest.take 1) } c.skip
    else if c.atBreak then
      if g.crossed then
        readGap tabLimit n { g with moreBreaks := g.moreBreaks ++ c.breakText } c.skipBreak
      else
        readGap tabLimit n { g with blanks := [], firstBreak := c.breakText, crossed := true }
          c.skipBreak
    else .ok (g, c)

/-! ### Plain scalars -/

def isFlowIndicator (c : Char) : Bool :=
  c == ',' || c == '[' || c == ']' || c == '{' || c == '}'

/-- Reads a word of a plain scalar. A colon before a gap ends it; within a flow collection the
indicators of the collection do so too. -/
def readPlainWord (inFlow : Bool) : Nat → List Char → Cursor → Except Fault (List Char × Cursor)
  | 0, word, c => .ok (word.reverse, c)
  | n + 1, word, c =>
    match c.peek? with
    | none => .ok (word.reverse, c)
    | some x =>
      if isBlank x || isBreak x then .ok (word.reverse, c)
      else if inFlow && x == ':' &&
          ((c.peek? 1).map fun y => isFlowIndicator y || y == '?').getD false then
        .error .unexpectedCharacter
      else if (x == ':' && c.atGap 1) || (inFlow && isFlowIndicator x) then .ok (word.reverse, c)
      else readPlainWord inFlow n (x :: word) c.skip

/-- Reads words of a plain scalar after `text` and the gap `g`. In a block the scalar ends where a
line is indented less than `indent`. The result also tells whether it ended on a further line. -/
def readPlainWords (inFlow : Bool) (indent : Int) :
    Nat → List Char → Gap → Cursor → Except Fault (List Char × Bool × Cursor)
  | 0, text, g, c => .ok (text, g.crossed, c)
  | n + 1, text, g, c =>
    if c.atDocumentMark || c.isAt '#' then .ok (text, g.crossed, c)
    else match readPlainWord inFlow c.rest.length [] c with
      | .error e => .error e
      | .ok (word, c) =>
        let (text, g) := if word.isEmpty then (text, g) else (text ++ g.text ++ word, {})
        if !(c.atBlank || c.atBreak) then .ok (text, g.crossed, c)
        else match readGap indent c.rest.length g c with
          | .error e => .error e
          | .ok (g, c) =>
            if !inFlow && c.column < indent then .ok (text, g.crossed, c)
            else readPlainWords inFlow indent n text g c

def readPlain (inFlow : Bool) (indent : Int) (c : Cursor) :
    Except Fault (List Char × Bool × Cursor) :=
  readPlainWords inFlow indent (c.rest.length + 1) [] {} c

/-! ### Quoted scalars -/

def hexValue? (digits : List Char) : Option Nat :=
  digits.foldl (fun acc d => acc.bind fun n =>
    if d.isDigit then some (16 * n + (d.toNat - 0x30))
    else if 'a' ≤ d ∧ d ≤ 'f' then some (16 * n + (d.toNat - 0x57))
    else if 'A' ≤ d ∧ d ≤ 'F' then some (16 * n + (d.toNat - 0x37))
    else none) (some 0)

/-- What a backslash and one more character stand for: a character, or as many hexadecimal digits of
a character's code. -/
def escape? : Char → Option (Char ⊕ Nat)
  | '0' => some (.inl '\x00')
  | 'a' => some (.inl '\x07')
  | 'b' => some (.inl '\x08')
  | 't' => some (.inl '\t')
  | '\t' => some (.inl '\t')
  | 'n' => some (.inl '\n')
  | 'v' => some (.inl '\x0b')
  | 'f' => some (.inl '\x0c')
  | 'r' => some (.inl '\r')
  | 'e' => some (.inl '\x1b')
  | ' ' => some (.inl ' ')
  | '"' => some (.inl '"')
  | '/' => some (.inl '/')
  | '\\' => some (.inl '\\')
  | 'N' => some (.inl '\u0085')
  | '_' => some (.inl '\u00a0')
  | 'L' => some (.inl '\u2028')
  | 'P' => some (.inl '\u2029')
  | 'x' => some (.inr 2)
  | 'u' => some (.inr 4)
  | 'U' => some (.inr 8)
  | _ => none

/-- Reads what follows a backslash. -/
def readEscape (c : Cursor) : Except Fault (Char × Cursor) :=
  match (c.peek?).bind escape? with
  | none => .error .badEscape
  | some (.inl x) => .ok (x, c.skip)
  | some (.inr n) =>
    let digits := (c.rest.drop 1).take n
    match if digits.length = n then hexValue? digits else none with
    | none => .error .badEscape
    | some code =>
      if code.isValidChar then .ok (Char.ofNat code, c.skip (n + 1)) else .error .badEscape

/-- Reads characters of a quoted scalar up to a gap or the closing quote. The result also tells
whether a backslash stood at the end of the line. -/
def readQuotedWord (quote : Char) :
    Nat → List Char → Cursor → Except Fault (List Char × Bool × Cursor)
  | 0, word, c => .ok (word.reverse, false, c)
  | n + 1, word, c =>
    match c.peek? with
    | none => .ok (word.reverse, false, c)
    | some x =>
      if isBlank x || isBreak x then .ok (word.reverse, false, c)
      else if x == quote then
        if quote == '\x27' && c.isAt quote 1 then readQuotedWord quote n (x :: word) (c.skip 2)
        else .ok (word.reverse, false, c)
      else if quote == '"' && x == '\\' then
        if c.atBreak 1 then .ok (word.reverse, true, c.skip.skipBreak)
        else match readEscape c.skip with
          | .error e => .error e
          | .ok (y, c) => readQuotedWord quote n (y :: word) c
      else readQuotedWord quote n (x :: word) c.skip

/-- Reads a quoted scalar after its opening quote. -/
def readQuotedWords (quote : Char) : Nat → List Char → Cursor → Except Fault (List Char × Cursor)
  | 0, _, _ => .error .unterminatedScalar
  | n + 1, text, c =>
    if c.atDocumentMark || c.atEnd then .error .unterminatedScalar
    else match readQuotedWord quote c.rest.length [] c with
      | .error e => .error e
      | .ok (word, crossed, c) =>
        if !crossed && c.isAt quote then .ok (text ++ word, c.skip)
        else match readGap 0 c.rest.length { crossed } c with
          | .error e => .error e
          | .ok (g, c) => readQuotedWords quote n (text ++ word ++ g.text) c

def readQuoted (quote : Char) (c : Cursor) : Except Fault (List Char × Cursor) :=
  readQuotedWords quote (c.rest.length + 1) [] c.skip

/-! ### Block scalars -/

/-- What becomes of the line breaks at the end of a block. -/
inductive Chomping
  | strip
  | clip
  | keep
deriving Repr, DecidableEq

/-- Reads the line breaks before a line of a block. Without a known indentation the deepest of the
blank lines and the line after them set it. -/
def readBlockBreaks (indent : Option Int) :
    Nat → Int → List Char → Cursor → Except Fault (Int × List Char × Cursor)
  | 0, deepest, breaks, c => .ok (deepest, breaks, c)
  | n + 1, deepest, breaks, c =>
    let spaces := (c.rest.takeWhile (· == ' ')).length
    let c := match indent with
      | none => c.skip spaces
      | some i => c.skip (min spaces (i - c.column).toNat)
    let deepest := max deepest c.column
    if c.isAt '\t' && (indent.map fun i => decide (c.column < i)).getD true then
      .error .tabIndentation
    else if c.atBreak then readBlockBreaks indent n deepest (breaks ++ c.breakText) c.skipBreak
    else .ok (deepest, breaks, c)

/-- Reads lines of a block that are indented by `indent`. `lineBreak` ends the line before, `breaks`
are the blank lines after it, and `wasBlank` tells that it began with a blank. The result is the
text and the breaks behind it. -/
def readBlockLines (literal : Bool) (indent : Int) :
    Nat → List Char → List Char → List Char → Bool → Cursor →
      Except Fault (List Char × List Char × List Char × Cursor)
  | 0, text, lineBreak, breaks, _, c => .ok (text, lineBreak, breaks, c)
  | n + 1, text, lineBreak, breaks, wasBlank, c =>
    if c.column != indent || c.atEnd then .ok (text, lineBreak, breaks, c)
    else
      let joint :=
        if !literal && lineBreak == ['\n'] && !wasBlank && !c.atBlank then
          if breaks.isEmpty then [' '] else []
        else lineBreak
      let line := c.rest.takeWhile (!isBreak ·)
      let c' := c.skip line.length
      match readBlockBreaks (some indent) (c.rest.length + 1) 0 [] c'.skipBreak with
      | .error e => .error e
      | .ok (_, more, next) =>
        readBlockLines literal indent n (text ++ joint ++ breaks ++ line) c'.breakText more
          c.atBlank next

/-- Reads the digit of a block's header, the depth of its indentation. -/
def readBlockDepth (c : Cursor) : Except Fault (Option Nat × Cursor) :=
  match c.peek? with
  | some d =>
    if d == '0' then .error .badBlockHeader
    else if d.isDigit then .ok (some (d.toNat - 0x30), c.skip)
    else .ok (none, c)
  | none => .ok (none, c)

/-- Reads the sign of a block's header. -/
def readChomping (c : Cursor) : Option Chomping × Cursor :=
  if c.isAt '+' then (some .keep, c.skip)
  else if c.isAt '-' then (some .strip, c.skip)
  else (none, c)

/-- Reads the header of a block after its indicator: a sign and a digit in either order, and perhaps
a comment. -/
def readBlockHeader (c : Cursor) : Except Fault (Chomping × Option Nat × Cursor) :=
  let (sign, c) := readChomping c
  match readBlockDepth c with
  | .error e => .error e
  | .ok (depth, c) =>
    let (sign, c) := if sign.isNone && depth.isSome then readChomping c else (sign, c)
    let c := (c.skipWhile isBlank).skipComment
    if c.atBreak then .ok (sign.getD .clip, depth, c.skipBreak)
    else if c.atEnd then .ok (sign.getD .clip, depth, c)
    else .error .badBlockHeader

/-- Reads a block scalar in a collection that is indented by `parent`. -/
def readBlock (literal : Bool) (parent : Int) (c : Cursor) : Except Fault (List Char × Cursor) :=
  match readBlockHeader c.skip with
  | .error e => .error e
  | .ok (chomping, depth, c) =>
    let known := depth.map fun d => if 0 ≤ parent then parent + d else (d : Int)
    match readBlockBreaks known (c.rest.length + 1) 0 [] c with
    | .error e => .error e
    | .ok (deepest, breaks, c) =>
      let indent := known.getD (max deepest (max (parent + 1) 1))
      match readBlockLines literal indent (c.rest.length + 1) [] [] breaks false c with
      | .error e => .error e
      | .ok (text, lineBreak, breaks, c) =>
        .ok (match chomping with
          | .strip => text
          | .clip => text ++ lineBreak
          | .keep => text ++ lineBreak ++ breaks, c)

end SqlScript.Yaml
