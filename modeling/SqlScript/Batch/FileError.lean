import SqlScript.File.Reading
import SqlScript.Splitting.Failure

/-!
# Failures of single files

In a batch each file succeeds or fails on its own. A `FileError` says which one failed, in which way
and why; a file that fails to split also tells where.
-/

namespace SqlScript

namespace FileError

inductive Kind
  /-- The script ends inside a literal or a comment. -/
  | splitFailed
  /-- The file is not UTF-8. -/
  | encodingError
  | ioError
  | crashed
deriving Repr, DecidableEq

namespace Kind

def all : List Kind := [.splitFailed, .encodingError, .ioError, .crashed]

def name : Kind → String
  | splitFailed => "split-failed"
  | encodingError => "encoding-error"
  | ioError => "io-error"
  | crashed => "worker-panicked"

def display : Kind → String
  | splitFailed => "split failed"
  | encodingError => "encoding error"
  | ioError => "I/O error"
  | crashed => "worker panicked"

def ofName? (name : String) : Option Kind :=
  all.find? (·.name == name)

/-- The file is at fault. -/
def isInputError (k : Kind) : Bool :=
  k == .splitFailed || k == .encodingError

def isInternalError (k : Kind) : Bool :=
  k == .ioError || k == .crashed

end Kind
end FileError

/-- Why a file of a batch failed. -/
structure FileError where
  id : String
  kind : FileError.Kind
  message : String
  location : Option Location := none
deriving Repr, DecidableEq

namespace FileError

def display (e : FileError) : String :=
  e.id ++ ": " ++ e.message ++ " (" ++ e.kind.display ++ ")"

def ofUnterminated (id : String) (u : Unterminated) : FileError :=
  ⟨id, .splitFailed, u.message, some u.location⟩

def ofReadFault (id : String) : ReadFault → FileError
  | .system fault => ⟨id, .ioError, fault.message, none⟩
  | .notUtf8 => ⟨id, .encodingError, "file is not valid UTF-8", none⟩

/-- `message` is what the runtime says of the worker. -/
def ofCrash (id message : String) : FileError :=
  ⟨id, .crashed, message, none⟩

end FileError
end SqlScript
