import SqlScript.Yaml.Node

/-!
# Documents

`parse` reads the one document of a text. An alias refers to its node by a mark, and what bears the
mark is known only when the document has been read: of several nodes with one mark it is the last.
-/

namespace SqlScript.Yaml

structure Document where
  root : Node
  /-- The nodes that aliases may refer to, last first. -/
  marked : List (Nat × Node)
  /-- How many starts and ends of collections, scalars and aliases there are. -/
  size : Nat

namespace Document

def of (root : Node) : Document where
  root
  marked := (root.parts.filterMap fun n => n.mark?.map (·, n)).reverse
  size := root.parts.foldr (fun n size => n.weight + size) 0

def find? (d : Document) (mark : Nat) : Option Node :=
  (d.marked.find? (·.1 == mark)).map (·.2)

end Document

/-- What tokens are read with: the marks that the names of anchors stand for, and what the handles
of tags stand for. -/
structure Context where
  marks : List (List Char × Nat) := []
  handles : List (List Char × Tag) := []

/-- Reads a part of the tokens. -/
abbrev Reader := StateT (List Token × Context) (Except Fault)

namespace Reader

def fail {α : Type} (f : Fault) : Reader α :=
  throw f

def peek? : Reader (Option Token) := do
  return (← get).1.head?

def drop : Reader Unit :=
  modify fun s => (s.1.tail, s.2)

/-- The next token is one of these, or none is left. -/
def endsAt (ends : List Token) : Reader Bool := do
  match ← peek? with
  | some t => return ends.contains t
  | none => return false

/-- Gives the name of an anchor its mark: the number of names so far. A name that is used again
counts once, so a later name may come to the same mark. -/
def markOf (name : List Char) : Reader Nat := do
  let (ts, context) ← get
  let mark := context.marks.length
  set (ts, { context with marks := (name, mark) :: context.marks.filter (·.1 != name) })
  return mark

/-- The tag that a handle and a suffix stand for. -/
def resolveTag (handle : List Char) (suffix : Tag) : Reader Tag := do
  if handle.isEmpty then return suffix
  else match (← get).2.handles.find? (·.1 == handle) with
    | some h => return h.2 ++ suffix
    | none => fail .undefinedTagHandle

def anchor? : Reader (Option Nat) := do
  match ← peek? with
  | some (.anchor name) => drop; return some (← markOf name)
  | _ => return none

def tag? : Reader (Option Tag) := do
  match ← peek? with
  | some (.tag handle suffix) => drop; return some (← resolveTag handle suffix)
  | _ => return none

/-- The anchor and the tag in front of a node, in either order. -/
def properties : Reader Properties := do
  match ← anchor? with
  | some mark => return { mark, tag := ← tag? }
  | none =>
    let tag ← tag?
    if tag.isSome then return { mark := ← anchor?, tag } else return {}

mutual

/-- Reads a node. A block collection may stand only in a block; `indentless` allows a sequence
whose entries are not indented against the key before it. -/
def node : Nat → (block indentless : Bool) → Reader Node
  | 0, _, _ => fail .unexpectedToken
  | n + 1, block, indentless => do
    if let some (.alias name) ← peek? then
      drop
      match (← get).2.marks.find? (·.1 == name) with
      | some m => return .alias m.2
      | none => fail .unknownAnchor
    else content n block indentless (← properties)

/-- Reads what follows the anchor and the tag of a node. Where that is nothing, one of them has to
be there. -/
def content : Nat → (block indentless : Bool) → Properties → Reader Node
  | 0, _, _, _ => fail .unexpectedToken
  | n + 1, block, indentless, props => do
    match ← peek?, block, indentless with
    | some .blockEntry, _, true => return .sequence props (← entries n true)
    | some (.scalar style text), _, _ =>
      drop
      let tag := if props.tag = some (.ofAscii "!") then none else props.tag
      return .scalar { props with tag } style (String.ofList text)
    | some .flowSequenceStart, _, _ => drop; return .sequence props (← flowItems n true)
    | some .flowMappingStart, _, _ => drop; return .mapping props (← flowPairs n true)
    | some .blockSequenceStart, true, _ => drop; return .sequence props (← entries n false)
    | some .blockMappingStart, true, _ => drop; return .mapping props (← pairs n)
    | _, _, _ => if props = {} then fail .unexpectedToken else return .scalar props .plain ""

/-- Reads a node unless one of the tokens `ends` shows that there is none. -/
def nodeUnless : Nat → (block indentless : Bool) → List Token → Reader Node
  | 0, _, _, _ => fail .unexpectedToken
  | n + 1, block, indentless, ends => do
    if ← endsAt ends then return .empty else node n block indentless

/-- Reads the entries of a block sequence. -/
def entries : Nat → (indentless : Bool) → Reader (List Node)
  | 0, _ => fail .unexpectedToken
  | n + 1, indentless => do
    match ← peek? with
    | some .blockEntry =>
      drop
      let ends := if indentless then [.blockEntry, .key, .value, .blockEnd]
        else [.blockEntry, .blockEnd]
      let item ← nodeUnless n true false ends
      return item :: (← entries n indentless)
    | t =>
      if indentless then return []
      else if t = some .blockEnd then drop; return []
      else fail .unexpectedToken

/-- Reads the value of a mapping's entry, if a colon is there. -/
def valueOf : Nat → (block : Bool) → List Token → Reader Node
  | 0, _, _ => fail .unexpectedToken
  | n + 1, block, ends => do
    if (← peek?) = some .value then
      drop
      nodeUnless n block block ends
    else return .empty

/-- Reads the entries of a block mapping. -/
def pairs : Nat → Reader (List (Node × Node))
  | 0 => fail .unexpectedToken
  | n + 1 => do
    match ← peek? with
    | some .key =>
      drop
      let key ← nodeUnless n true true [.key, .value, .blockEnd]
      let value ← valueOf n true [.key, .value, .blockEnd]
      return (key, value) :: (← pairs n)
    | some .blockEnd => drop; return []
    | _ => fail .unexpectedToken

/-- Reads the items of a flow sequence. A key among them is a mapping with one entry. -/
def flowItems : Nat → (first : Bool) → Reader (List Node)
  | 0, _ => fail .unexpectedToken
  | n + 1, first => do
    if (← peek?) = some .flowSequenceEnd then
      drop
      return []
    else
      flowComma first
      match ← peek? with
      | some .flowSequenceEnd => drop; return []
      | some .key =>
        drop
        let key ←
          if ← endsAt [.value, .flowEntry, .flowSequenceEnd] then
            drop
            pure Node.empty
          else node n false false
        let value ← valueOf n false [.flowEntry, .flowSequenceEnd]
        return .mapping {} [(key, value)] :: (← flowItems n false)
      | _ =>
        let item ← node n false false
        return item :: (← flowItems n false)

/-- Reads the entries of a flow mapping. One without a key mark has no value. -/
def flowPairs : Nat → (first : Bool) → Reader (List (Node × Node))
  | 0, _ => fail .unexpectedToken
  | n + 1, first => do
    if (← peek?) = some .flowMappingEnd then
      drop
      return []
    else
      flowComma first
      match ← peek? with
      | some .flowMappingEnd => drop; return []
      | some .key =>
        drop
        let key ← nodeUnless n false false [.value, .flowEntry, .flowMappingEnd]
        let value ← valueOf n false [.flowEntry, .flowMappingEnd]
        return (key, value) :: (← flowPairs n false)
      | _ =>
        let key ← node n false false
        return (key, .empty) :: (← flowPairs n false)

/-- Reads the comma in front of every item but the first. -/
def flowComma (first : Bool) : Reader Unit := do
  if first then return ()
  else if (← peek?) = some .flowEntry then drop
  else fail .unexpectedToken

end

/-- Reads the directives in front of a document, each at most once. -/
def directives : Nat → (versioned : Bool) → Reader Unit
  | 0, _ => fail .unexpectedToken
  | n + 1, versioned => do
    match ← peek? with
    | some (.version major minor) =>
      drop
      if versioned || major != 1 || (minor != 1 && minor != 2) then fail .badDirective
      directives n true
    | some (.tagHandle handle stem) =>
      drop
      if (← get).2.handles.any (·.1 == handle) then fail .badDirective
      modify fun s => (s.1, { s.2 with handles := (handle, stem) :: s.2.handles })
      directives n versioned
    | _ => pure ()

/-- What the handles stand for that no directive needs to introduce. -/
def defaultHandles : List (List Char × Tag) :=
  [(['!'], .ofAscii "!"), (['!', '!'], .known "")]

/-- Reads a document: directives and a mark, if any, and a node. -/
def document (n : Nat) : Reader Node := do
  let ahead := (← get).1.length
  directives n false
  let directed := (← get).1.length < ahead
  modify fun s => (s.1, { s.2 with handles := s.2.handles ++ defaultHandles })
  match ← peek? with
  | some .documentStart =>
    drop
    match ← peek? with
    | none | some .documentEnd | some .documentStart | some (.version ..) | some (.tagHandle ..) =>
      return .empty
    | _ => node n true false
  | next =>
    if directed then fail .unexpectedToken
    else if next.isNone then return .empty
    else node n true false

end Reader

/-- The document of a text, which may not hold a second one. Without a document, an empty one. -/
def parse (text : String) : Except Fault Document := do
  let ts ← tokens text.toList
  let (root, rest, _) ← (Reader.document (4 * ts.length + 4)).run (ts, {})
  if (rest.dropWhile (· == .documentEnd)).isEmpty then return .of root
  else throw .severalDocuments

end SqlScript.Yaml
