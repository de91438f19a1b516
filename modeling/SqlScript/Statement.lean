import SqlScript.Text.Blank

/-!
# Statements and scripts

A script falls into statements, each a plain one, ended by the delimiter, or a procedural block.
The terminator is no part of the text.
-/

namespace SqlScript

namespace Statement

inductive Kind
  | regular
  | procedural
deriving Repr, DecidableEq

namespace Kind

def all : List Kind := [.regular, .procedural]

def name : Kind → String
  | .regular => "regular"
  | .procedural => "procedural"

def ofName? (name : String) : Option Kind :=
  all.find? (·.name == name)

end Kind
end Statement

/-- A unit of a script that a database runs on its own. -/
structure Statement where
  kind : Statement.Kind
  text : String
deriving Repr, DecidableEq

namespace Statement

/-- The statement with the given text less the blanks at its ends, unless that leaves nothing. -/
def new? (kind : Kind) (text : String) : Option Statement :=
  let body := Text.trim text.toList
  if body.isEmpty then none else some ⟨kind, String.ofList body⟩

def isProcedural (s : Statement) : Bool :=
  s.kind == .procedural

end Statement

/-- The statements of a script in the order of its text. -/
abbrev Script := List Statement

namespace Script

def proceduralCount (s : Script) : Nat :=
  s.countP (·.isProcedural)

/-- The statements with their places in the script, counted from one. -/
def numbered (s : Script) : List (Nat × Statement) :=
  (List.range' 1 s.length).zip s

end Script
end SqlScript
