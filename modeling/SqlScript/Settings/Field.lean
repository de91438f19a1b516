import SqlScript.Settings.Error
import SqlScript.Yaml.Document

/-!
# Values of settings

How a node of a settings file is read as a text, a number, a truth value, a list or the entries of a
record. An alias is read as the node that it refers to. A quoted scalar is always a text. Nothing at
all is an empty list or record, and for a value that may be missing it means that it is.
-/

namespace SqlScript
open Yaml

namespace Field

/-- Reads from a document. The state is the number of aliases that may still be followed. -/
abbrev Reader := ReaderT Document (StateT Nat (Except SettingsFault))

/-- Reads the root of a document. In all, a hundred times as many aliases may be followed as the
document has parts, so that lists of lists of aliases come to an end. -/
def readRoot {α : Type} (read : Node → Reader α) (d : Document) : Except SettingsFault α :=
  ((read d.root).run d).run' (100 * d.size)

/-- The node itself, or the one that an alias refers to. -/
def target (n : Node) : Reader Node := do
  match n with
  | .alias mark =>
    match ← get, (← read).find? mark with
    | 0, _ => throw (.malformed .tooManyAliases)
    | _, none => throw (.malformed .unknownAnchor)
    | left + 1, some node => set left; return node
  | _ => return n

/-- A plain scalar, or a literal block that has the tag of the type that is looked for. -/
def isBare (type : String) (style : Style) (tag : Option Tag) : Bool :=
  style == .plain || (style == .literal && tag == some (.known type))

def isNull (text : String) : Bool :=
  ["null", "Null", "NULL", "~"].contains text

def truth? (text : String) : Option Bool :=
  if ["true", "True", "TRUE"].contains text then some true
  else if ["false", "False", "FALSE"].contains text then some false
  else none

/-- The value of digits in a base up to sixteen. -/
def digits? (base : Nat) (cs : List Char) : Option Nat :=
  if cs.isEmpty then none
  else cs.foldl (fun acc c => acc.bind fun n =>
    (hexValue? [c]).bind fun d => if d < base then some (base * n + d) else none) (some 0)

/-- The number that a text stands for: decimal without leading zeros, or hexadecimal, octal or
binary behind `0x`, `0o` or `0b`; a plus sign may come first. -/
def number? (text : String) : Option Nat :=
  let cs := text.toList
  let cs := if cs.head? = some '+' then cs.tail else cs
  match cs with
  | '0' :: 'x' :: ds => digits? 16 ds
  | '0' :: 'o' :: ds => digits? 8 ds
  | '0' :: 'b' :: ds => digits? 2 ds
  | '0' :: _ :: _ => none
  | ds => digits? 10 ds

/-- Reads a text: any scalar as it is written. -/
def text (n : Node) : Reader String := do
  match ← target n with
  | .scalar _ _ text => return text
  | _ => throw .wrongType

/-- Reads a scalar of one of the types that are written bare. -/
def bare {α : Type} (type : String) (value? : String → Option α) (n : Node) : Reader α := do
  match ← target n with
  | .scalar props style text =>
    match if isBare type style props.tag then value? text else none with
    | some a => return a
    | none => throw .wrongType
  | _ => throw .wrongType

def truth : Node → Reader Bool :=
  bare "bool" truth?

def number (least most : Nat) : Node → Reader Nat :=
  bare "int" fun text => (number? text).filter fun n => least ≤ n ∧ n ≤ most

/-- Nothing, or one of the words for it. A tag of another type makes a value of it all the same. -/
def optional {α : Type} (read : Node → Reader α) (n : Node) : Reader (Option α) := do
  match ← target n with
  | n@(.scalar props .plain text) =>
    match props.tag with
    | none => if text.isEmpty || isNull text then return none else return some (← read n)
    | some tag =>
      if tag != .known "null" then return some (← read n)
      else if isNull text then return none
      else throw .wrongType
  | n => return some (← read n)

def list {α : Type} (read : Node → Reader α) (n : Node) : Reader (List α) := do
  match ← target n with
  | .sequence _ items => items.mapM read
  | .scalar _ .plain "" => return []
  | _ => throw .wrongType

/-- Reads the entries of a record; their keys are texts. -/
def record (n : Node) : Reader (List (String × Node)) := do
  match ← target n with
  | .mapping _ entries => entries.mapM fun e => return (← text e.1, e.2)
  | .scalar _ .plain "" => return []
  | _ => throw .wrongType

/-- Reads the value at a key, which may stand only once. -/
def at? {α : Type} (key : String) (read : Node → Reader α) (entries : List (String × Node)) :
    Reader (Option α) :=
  match entries.filter (·.1 == key) with
  | [] => return none
  | [e] => return some (← read e.2)
  | _ => throw (.repeatedKey key)

/-- Reads the value at a key, or takes a default. -/
def atOr {α : Type} (key : String) (default : α) (read : Node → Reader α)
    (entries : List (String × Node)) : Reader α :=
  return (← at? key read entries).getD default

end Field
end SqlScript
