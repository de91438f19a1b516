import SqlScript.Text.Lowercase
import SqlScript.Vendor.Basic
import SqlScript.Vendor.Pattern

/-!
# Vendors that a user defines

A `VendorEntry` describes a vendor by plain data, with patterns for the statements that start a
procedural block. `VendorEntry.build` makes a vendor of it, or says what is wrong with it.
-/

namespace SqlScript

/-- The name under which a vendor is kept: trimmed, in lowercase. -/
def normalName (name : String) : String :=
  String.ofList (Text.lowercase (Text.trim name.toList))

/-- What ends a block, as an entry writes it. -/
inductive BlockEndEntry
  | slash
  | activeDelimiter
  | line (token : String)
deriving Repr, DecidableEq

def BlockEndEntry.blockEnd : BlockEndEntry → BlockEnd
  | slash => .line "/"
  | activeDelimiter => .activeDelimiter
  | line token => .line (String.ofList (Text.trim token.toList))

/-- A vendor described by data. -/
structure VendorEntry where
  name : String
  delimiter : String := ";"
  blockEnd : BlockEndEntry := .slash
  proceduralStarts : List String := []
  delimiterDirective : Bool := false
  dollarQuoting : Bool := false
  backslashEscapes : Bool := false
  serverPort : Option Nat := none
deriving Repr, DecidableEq

inductive EntryFault
  | blankName
  | blankDelimiter (vendor : String)
  | blankLineToken (vendor : String)
  | badPattern (source : String) (fault : PatternFault)
deriving Repr, DecidableEq

def EntryFault.message : EntryFault → String
  | blankName => "custom vendor name must not be empty"
  | blankDelimiter vendor => "vendor '" ++ vendor ++ "': delimiter must not be empty"
  | blankLineToken vendor => "vendor '" ++ vendor ++ "': block-end line token must not be empty"
  | badPattern source fault => "invalid keyword pattern '" ++ source ++ "': " ++ fault.message

/-- A vendor made from an entry, with the patterns of its procedural starts. -/
structure CustomVendor extends Vendor where
  patterns : List Pattern

/-- The patterns of the given sources, or the first that is none. -/
def Pattern.parseAll : List String → Except EntryFault (List Pattern)
  | [] => .ok []
  | source :: rest =>
    match Pattern.parse source with
    | .error fault => .error (.badPattern source fault)
    | .ok p => (parseAll rest).map (p :: ·)

namespace VendorEntry

/-- The vendor that an entry describes. Its name, its delimiter and its line token must not be
blank, and its patterns must be in order; the first fault counts. -/
def build (e : VendorEntry) : Except EntryFault CustomVendor :=
  let name := normalName e.name
  if name.isEmpty then .error .blankName
  else match Delimiter.ofChars? (Text.trim e.delimiter.toList) with
    | none => .error (.blankDelimiter name)
    | some delimiter =>
      if e.blockEnd.blockEnd = .line "" then .error (.blankLineToken name)
      else match Pattern.parseAll e.proceduralStarts with
        | .error fault => .error fault
        | .ok patterns => .ok {
            name, delimiter, patterns
            isProceduralStart := fun text => patterns.any (·.startsWith text)
            blockEnd := e.blockEnd.blockEnd
            delimiterDirective := e.delimiterDirective
            dollarQuoting := e.dollarQuoting
            backslashEscapes := e.backslashEscapes
            serverPort := e.serverPort }

/-- The vendors that several entries describe, or what is wrong with the first faulty one. -/
def buildAll : List VendorEntry → Except EntryFault (List CustomVendor)
  | [] => .ok []
  | e :: rest =>
    match e.build with
    | .error fault => .error fault
    | .ok v => (buildAll rest).map (v :: ·)

end VendorEntry
end SqlScript
