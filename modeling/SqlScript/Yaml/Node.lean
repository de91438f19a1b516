import SqlScript.Yaml.Token

/-!
# Nodes

A YAML document is a tree of scalars, sequences and mappings, in which an alias takes the place of
a node that stands elsewhere in it.
-/

namespace SqlScript.Yaml

/-- What may be written in front of a node: a mark for aliases to refer to, and a tag, which is
given in full. -/
structure Properties where
  mark : Option Nat := none
  tag : Option Tag := none
deriving Repr, DecidableEq

inductive Node
  | scalar (props : Properties) (style : Style) (text : String)
  | sequence (props : Properties) (items : List Node)
  | mapping (props : Properties) (entries : List (Node × Node))
  | alias (mark : Nat)

namespace Node

/-- What stands where nothing is written. -/
def empty : Node := .scalar {} .plain ""

/-- The mark that aliases of a node refer to. -/
def mark? : Node → Option Nat
  | .scalar props _ _ | .sequence props _ | .mapping props _ => props.mark
  | .alias _ => none

/-- How much a node counts without what is in it: a collection has a start and an end. -/
def weight : Node → Nat
  | .scalar .. | .alias _ => 1
  | .sequence .. | .mapping .. => 2

mutual

/-- A node and all that is in it, in the order of the text. -/
def parts : Node → List Node
  | n@(.sequence _ items) => n :: partsOfItems items
  | n@(.mapping _ entries) => n :: partsOfEntries entries
  | n => [n]

def partsOfItems : List Node → List Node
  | [] => []
  | n :: items => n.parts ++ partsOfItems items

def partsOfEntries : List (Node × Node) → List Node
  | [] => []
  | (key, value) :: entries => key.parts ++ (value.parts ++ partsOfEntries entries)

end

end Node
end SqlScript.Yaml
