import SqlScript.File.Reading
import SqlScript.Registry
import SqlScript.Settings.Field

/-!
# Settings

A settings file in YAML names the vendor to use, limits a batch and describes further vendors.
Everything in it may be missing; what a command line gives wins over it.
-/

namespace SqlScript

structure Settings where
  vendor : Option String := none
  maxConcurrency : Option Nat := none
  timeoutSecs : Option Nat := none
  vendors : List VendorEntry := []
deriving Repr, DecidableEq

namespace BlockEndEntry

/-- A scalar names a way to end a block; a record with the one key `line` gives a token. A tag of
the file's own fits neither. -/
def read (n : Yaml.Node) : Field.Reader BlockEndEntry := do
  match ← Field.target n with
  | .scalar props _ text =>
    if props.tag.any fun t => t.isOwn || typeTags.contains t then throw .wrongType
    else if text = "slash" then return .slash
    else if text = "active-delimiter" then return .activeDelimiter
    else throw .wrongType
  | .mapping props [(key, value)] =>
    if props.tag.any (·.isOwn) then throw .wrongType
    else if (← Field.text key) = "line" then return .line (← Field.text value)
    else throw .wrongType
  | _ => throw .wrongType
where
  typeTags : List Yaml.Tag := ["bool", "int", "float", "null"].map .known

end BlockEndEntry

/-- Reads the description of a vendor. Keys that mean nothing are passed over. -/
def VendorEntry.read (n : Yaml.Node) : Field.Reader VendorEntry := do
  let entries ← Field.record n
  let name ← Field.at? "name" Field.text entries
  let delimiter ← Field.atOr "delimiter" ";" Field.text entries
  let blockEnd ← Field.atOr "block-end" .slash BlockEndEntry.read entries
  let proceduralStarts ← Field.atOr "procedural-starts" [] (Field.list Field.text) entries
  let delimiterDirective ← Field.atOr "delimiter-directive" false Field.truth entries
  let dollarQuoting ← Field.atOr "dollar-quoting" false Field.truth entries
  let backslashEscapes ← Field.atOr "backslash-escapes" false Field.truth entries
  let serverPort ← Field.atOr "port" none (Field.optional (Field.number 0 65535)) entries
  match name with
  | none => throw (.missingKey "name")
  | some name => return {
      name, delimiter, blockEnd, proceduralStarts, delimiterDirective, dollarQuoting
      backslashEscapes, serverPort }

namespace Settings

def fileName : String := "sqlsplit.yaml"

/-- The largest number of a limit. -/
def maxLimit : Nat := UInt64.size - 1

/-- Reads settings from a record, which may hold no other keys. -/
def read (n : Yaml.Node) : Field.Reader Settings := do
  let entries ← Field.record n
  match entries.find? fun e => !keys.contains e.1 with
  | some e => throw (.unknownKey e.1)
  | none =>
    let vendor ← Field.atOr "vendor" none (Field.optional Field.text) entries
    let maxConcurrency ←
      Field.atOr "max-concurrency" none (Field.optional (Field.number 1 maxLimit)) entries
    let timeoutSecs ←
      Field.atOr "timeout-secs" none (Field.optional (Field.number 0 maxLimit)) entries
    let vendors ← Field.atOr "vendors" [] (Field.list VendorEntry.read) entries
    return { vendor, maxConcurrency, timeoutSecs, vendors }
where
  keys : List String := ["vendor", "max-concurrency", "timeout-secs", "vendors"]

def parse (text : String) : Except SettingsFault Settings :=
  match Yaml.parse text with
  | .error fault => .error (.malformed fault)
  | .ok d => Field.readRoot read d

/-- Loads settings from what comes of reading a file. A file that never ends cannot be loaded. -/
def ofReading (path : String) (r : Reading) : Except SetupError Settings :=
  match r.decode with
  | .fault fault => .error (.unreadable fault)
  | .endless => .error (.unreadable (.system (.other "the file never ends")))
  | .text content =>
    match parse content with
    | .error fault => .error (.badSettings path fault)
    | .ok s => .ok s

def load (read : String → Reading) (path : String) : Except SetupError Settings :=
  ofReading path (read path)

/-- Loads settings from the usual file in a directory; without the file they are the default. -/
def discover (read : String → Reading) (dir : String) : Except SetupError Settings :=
  let path := if dir.isEmpty || dir.endsWith "/" then dir ++ fileName else dir ++ "/" ++ fileName
  match read path with
  | .fault .notFound => .ok {}
  | r => ofReading path r

/-- The known vendors and those that the settings describe. -/
def registry (s : Settings) : Except EntryFault Registry :=
  Registry.builtins.registerEntries s.vendors

/-- The name of the vendor to use: the given one, else that of the settings, else `oracle`. -/
def vendorOr (s : Settings) (given : Option String) : String :=
  (given <|> s.vendor).getD oracle.name

def concurrencyOr (s : Settings) (given : Option Nat) : Option Nat :=
  given <|> s.maxConcurrency

def timeoutOr (s : Settings) (given : Option Nat) : Option Nat :=
  given <|> s.timeoutSecs

end Settings
end SqlScript
