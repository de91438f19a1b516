import SqlScript.Vendor.Keyword

/-!
# Keyword patterns

A pattern such as `CREATE [OR REPLACE] FUNCTION|PROCEDURE` says how a statement starts: word after
word, where `A|B` is either word and a run of words in brackets may be missing as a whole.
`Pattern.parse` reads one, and `Pattern.startsWith` looks for it at the start of a text.
-/

namespace SqlScript
open Text

/-- A word of a pattern: the spellings it may have. -/
abbrev Alternatives := List (List Char)

/-- A part of a pattern. -/
inductive PatternItem
  | word (alternatives : Alternatives)
  /-- Words that are there together or not at all. -/
  | optional (words : List Alternatives)
deriving Repr, DecidableEq

inductive PatternFault
  | nestedGroup
  | emptyWord
  | unmatchedClose
  | unclosedGroup
  | noRequiredWord
deriving Repr, DecidableEq

def PatternFault.message : PatternFault → String
  | nestedGroup => "nested optional group"
  | emptyWord => "empty word"
  | unmatchedClose => "unmatched ']'"
  | unclosedGroup => "unclosed '['"
  | noRequiredWord => "pattern needs at least one required word"

/-- A pattern and the text it was read from. -/
structure Pattern where
  source : String
  items : List PatternItem
deriving Repr, DecidableEq

namespace PatternItem

def isWord : PatternItem → Bool
  | word _ => true
  | optional _ => false

end PatternItem

namespace Pattern

/-- The parts of a word between bars, without the empty ones; `current` is the part being read,
newest character first. -/
def barPartsFrom (current : List Char) : List Char → Alternatives
  | [] => if current.isEmpty then [] else [current.reverse]
  | c :: rest =>
    if c = '|' then
      if current.isEmpty then barPartsFrom [] rest
      else current.reverse :: barPartsFrom [] rest
    else barPartsFrom (c :: current) rest

def barParts (word : List Char) : Alternatives :=
  barPartsFrom [] word

/-- A word of the source: whether a bracket opens before it and one closes after it, and its
spellings. -/
structure SourceWord where
  opens : Bool
  closes : Bool
  alternatives : Alternatives
deriving Repr, DecidableEq

/-- Reads a word of the source; within a group no other may open. -/
def SourceWord.read (grouped : Bool) (raw : List Char) : Except PatternFault SourceWord :=
  let opens := raw.head? = some '['
  let word := if opens then raw.tail else raw
  let closes := word.getLast? = some ']'
  let word := if closes then word.dropLast else word
  if opens && grouped then .error .nestedGroup
  else if word.contains '[' || word.contains ']' then .error .nestedGroup
  else if (barParts word).isEmpty then .error .emptyWord
  else .ok ⟨opens, closes, barParts word⟩

/-- The items that the words stand for. `group` holds the words of the group that is open, newest
first. -/
def readItems :
    Option (List Alternatives) → List (List Char) → Except PatternFault (List PatternItem)
  | none, [] => .ok []
  | some _, [] => .error .unclosedGroup
  | group, raw :: rest =>
    match SourceWord.read group.isSome raw with
    | .error e => .error e
    | .ok w =>
      match if w.opens then some [] else group with
      | none =>
        if w.closes then .error .unmatchedClose
        else (readItems none rest).map (.word w.alternatives :: ·)
      | some words =>
        if w.closes then
          (readItems none rest).map (.optional (w.alternatives :: words).reverse :: ·)
        else readItems (some (w.alternatives :: words)) rest

/-- Reads a pattern. At least one of its words has to be there always. -/
def parse (source : String) : Except PatternFault Pattern :=
  match readItems none (words source.toList) with
  | .error e => .error e
  | .ok items => if items.any (·.isWord) then .ok ⟨source, items⟩ else .error .noRequiredWord

/-- The text after several words in a row, each in one of its spellings. -/
def afterWords? : List Alternatives → List Char → Option (List Char)
  | [], text => some text
  | w :: more, text => (Keyword.afterAny? w text).bind (afterWords? more)

/-- The text after the items. An optional group is taken whenever it is there. -/
def afterItems? : List PatternItem → List Char → Option (List Char)
  | [], text => some text
  | .word w :: more, text => (Keyword.afterAny? w text).bind (afterItems? more)
  | .optional ws :: more, text => afterItems? more ((afterWords? ws text).getD text)

def startsWith (p : Pattern) (text : List Char) : Bool :=
  (afterItems? p.items text).isSome

end Pattern
end SqlScript
