import SqlScript.Text.Utf8

/-!
# Reading files

A `Reading` is what comes of reading a file, and `Reading.decode` what comes of reading it as text.
-/

namespace SqlScript

/-- Why the system does not read a file. -/
inductive SystemFault
  | notFound
  | isDirectory
  | notDirectory
  | nameTooLong
  | zeroInPath
  | other (message : String)
deriving Repr, DecidableEq

def SystemFault.message : SystemFault → String
  | notFound => "No such file or directory (os error 2)"
  | isDirectory => "Is a directory (os error 21)"
  | notDirectory => "Not a directory (os error 20)"
  | nameTooLong => "File name too long (os error 36)"
  | zeroInPath => "file name contained an unexpected NUL byte"
  | other message => message

/-- What comes of reading a file. -/
inductive Reading
  | bytes (content : List UInt8)
  | fault (fault : SystemFault)
  | endless
deriving Repr, DecidableEq

/-- Why a file cannot be read as text. -/
inductive ReadFault
  | system (fault : SystemFault)
  | notUtf8
deriving Repr, DecidableEq

def ReadFault.message : ReadFault → String
  | system fault => fault.message
  | notUtf8 => "stream did not contain valid UTF-8"

/-- What comes of reading a file as text. -/
inductive TextReading
  | text (content : String)
  | fault (fault : ReadFault)
  | endless
deriving Repr, DecidableEq

def Reading.decode : Reading → TextReading
  | bytes content =>
    match Text.decode? content with
    | some cs => .text (String.ofList cs)
    | none => .fault .notUtf8
  | fault f => .fault (.system f)
  | endless => .endless

end SqlScript
