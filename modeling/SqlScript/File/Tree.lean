import SqlScript.File.Reading

/-!
# A tree of files in memory

A `FileTree` holds files under paths relative to a working directory; the directories on their paths
exist too, and so do those above it, of which nothing else is known. `FileTree.read` follows a path
name after name, as a file system does.
-/

namespace SqlScript

inductive FileContent
  | bytes (content : List UInt8)
  | endless
deriving Repr, DecidableEq

/-- Files under their paths, each a list of names. -/
structure FileTree where
  files : List (List String × FileContent)

namespace FileTree

/-- The parts of a path between slashes. -/
def parts (path : String) : List String :=
  path.splitOn "/"

def ofList (files : List (String × FileContent)) : FileTree :=
  ⟨files.map fun f => ((parts f.1).filter fun n => n != "" && n != ".", f.2)⟩

/-- What is found under a list of names. -/
inductive Node
  | file (content : FileContent)
  | directory

/-- A directory above the working directory, or that itself. -/
def isAbove (place : List String) : Bool :=
  place.all (· == "..")

def node? (t : FileTree) (place : List String) : Option Node :=
  match t.files.find? (·.1 == place) with
  | some f => some (.file f.2)
  | none =>
    if isAbove place || t.files.any (fun f => place.isPrefixOf f.1) then some .directory else none

/-- How many octets a name may have. -/
def maxName : Nat := 255

/-- How many octets a path may have. -/
def maxPath : Nat := 4095

/-- Follows the parts of a path from a place. Only a directory leads on: an empty part and `.` to
itself, `..` to the directory above. -/
def resolve (t : FileTree) (place : List String) : List String → Except SystemFault Node
  | [] => match t.node? place with
    | some n => .ok n
    | none => .error .notFound
  | part :: rest =>
    match t.node? place with
    | none => .error .notFound
    | some (.file _) => .error .notDirectory
    | some .directory =>
      if part = "" || part = "." then t.resolve place rest
      else if part = ".." then
        t.resolve (if isAbove place then ".." :: place else place.dropLast) rest
      else if maxName < part.utf8ByteSize then .error .nameTooLong
      else t.resolve (place ++ [part]) rest

/-- What comes of reading the file at a path. The empty path leads nowhere, and an absolute one
starts above the working directory. -/
def read (t : FileTree) (path : String) : Reading :=
  if path.contains '\x00' then .fault .zeroInPath
  else if path.isEmpty then .fault .notFound
  else if maxPath < path.utf8ByteSize then .fault .nameTooLong
  else match t.resolve (if path.front = '/' then [".."] else []) (parts path) with
    | .error f => .fault f
    | .ok .directory => .fault .isDirectory
    | .ok (.file (.bytes content)) => .bytes content
    | .ok (.file .endless) => .endless

end FileTree
end SqlScript
