import SqlScript.NameMap

/-!
# JSON

Values of JSON and their printed form: an item or field on a line of its own, two blanks deeper than
what it belongs to, and the fields of an object in the order of their names.
-/

namespace SqlScript

/-- A value of JSON, as far as results need it. -/
inductive Json
  | text (content : String)
  | number (value : Nat)
  | list (items : List Json)
  | object (fields : List (String × Json))

namespace Json

/-- The object with the values of a map. -/
def ofMap (m : NameMap Json) : Json :=
  .object m.entries

/-- The object with the given fields, whose names differ. -/
def record (fields : List (String × Json)) : Json :=
  ofMap (.ofList fields)

def hexDigit (n : Nat) : Char :=
  if n < 10 then Char.ofNat ('0'.toNat + n) else Char.ofNat ('a'.toNat + (n - 10))

/-- How a character is written in a text: control characters, the quote and the backslash are
escaped, all others stand for themselves. -/
def escaped (c : Char) : List Char :=
  if c = '"' ∨ c = '\\' then ['\\', c]
  else if c = '\n' then ['\\', 'n']
  else if c = '\t' then ['\\', 't']
  else if c = '\r' then ['\\', 'r']
  else if c = '\x08' then ['\\', 'b']
  else if c = '\x0c' then ['\\', 'f']
  else if c.toNat < 0x20 then
    ['\\', 'u', '0', '0', hexDigit (c.toNat / 16), hexDigit (c.toNat % 16)]
  else [c]

def quoted (content : String) : String :=
  "\"" ++ String.ofList (content.toList.flatMap escaped) ++ "\""

/-- A line break and the blanks in front of what lies `depth` levels deep. -/
def lineBreak (depth : Nat) : String :=
  "\n" ++ String.ofList (List.replicate (2 * depth) ' ')

/-- The parts of a list or an object at `depth`, between brackets. -/
def enclosed (depth : Nat) (opening closing : String) (parts : List String) : String :=
  if parts.isEmpty then opening ++ closing
  else opening ++ ",".intercalate (parts.map (lineBreak (depth + 1) ++ ·)) ++ lineBreak depth ++
    closing

mutual

/-- The printed form of a value that lies `depth` levels deep. -/
def render (depth : Nat) : Json → String
  | text content => quoted content
  | number value => toString value
  | list items => enclosed depth "[" "]" (renderItems (depth + 1) items)
  | object fields => enclosed depth "\x7b" "\x7d" (renderFields (depth + 1) fields)

def renderItems (depth : Nat) : List Json → List String
  | [] => []
  | j :: rest => render depth j :: renderItems depth rest

def renderFields (depth : Nat) : List (String × Json) → List String
  | [] => []
  | (name, j) :: rest => (quoted name ++ ": " ++ render depth j) :: renderFields depth rest

end

def print (j : Json) : String :=
  j.render 0

end Json
end SqlScript
