import SqlScript.Batch.Aggregate
import SqlScript.Registry
import SqlScript.Text.Lines

/-!
# Reports

The lines that the commands print for a reader. Files are in the order of their ids; those that did
not finish come last.
-/

namespace SqlScript.CommandLine.Report

/-- The longest line that a preview shows in full. -/
def previewWidth : Nat := 72

/-- The lines as a text; each ends with a line feed. -/
def unlines (lines : List String) : String :=
  String.join (lines.map (· ++ "\n"))

def statementLines (place : Nat) (s : Statement) : List String :=
  ("[" ++ toString place ++ "] " ++ s.kind.name) ::
    (Text.lines s.text.toList).map fun line => "    " ++ String.ofList line

def failureLine (e : FileError) : String :=
  "  ✗ " ++ e.display

/-- What came of a file, in full. -/
def outcomeLines (id : String) : Outcome → List String
  | .ok script =>
    (id ++ " (" ++ toString script.length ++ " statements)") ::
      (script.numbered.flatMap fun p => statementLines p.1 p.2) ++ [""]
  | .error failure => [failureLine failure]

/-- The first line of a statement, cut short if it is too long. -/
def preview (s : Statement) : String :=
  let line := (Text.lines s.text.toList).headD []
  String.ofList
    (if line.length > previewWidth then line.take (previewWidth - 1) ++ ['…'] else line)

/-- What came of a file, in one line. -/
def outcomeLine (id : String) : Outcome → String
  | .ok script =>
    "  ✓ " ++ id ++ ": " ++ toString script.length ++ " statements, " ++
      toString script.proceduralCount ++ " procedural  " ++ (script.head?.map preview).getD ""
  | .error failure => failureLine failure

/-- The files that did not finish, if the batch ended early. -/
def unfinishedLines (a : Aggregate) : List String :=
  match reason? a.status with
  | none => []
  | some reason =>
    (reason ++ ": " ++ toString a.pending.length ++ " of " ++ toString a.submitted ++
      " files did not finish") :: a.pending.map fun id => "    • " ++ id
where
  reason? : Status → Option String
    | .complete => none
    | .deadlineExpired => some "deadline expired"
    | .cancelled => some "cancelled"

def scripts (a : Aggregate) : List String :=
  (a.entries.entries.flatMap fun e => outcomeLines e.1 e.2) ++ unfinishedLines a

/-- How many files there are, and what came of them. -/
structure Summary where
  files : Nat
  ok : Nat
  failed : Nat
  unfinished : Nat
deriving Repr, DecidableEq

namespace Summary

def of (a : Aggregate) : Summary :=
  let failed := a.entries.entries.countP fun e => !e.2.isOk
  ⟨a.submitted, a.entries.size - failed, failed, a.pending.length⟩

/-- The counts as they are shown. The time that the batch took, which would stand in brackets behind
them, is left out. -/
def line (s : Summary) : String :=
  toString s.files ++ " files, " ++ toString s.ok ++ " ok, " ++ toString s.failed ++
    " failed, " ++ toString s.unfinished ++ " unfinished"

end Summary

def checks (a : Aggregate) : List String :=
  (a.entries.entries.map fun e => outcomeLine e.1 e.2) ++ unfinishedLines a ++
    ["", (Summary.of a).line]

/-- A vendor and what its scripts may use. -/
def vendorLine (name : String) (v : Vendor) : String :=
  let blockEnd := match v.blockEnd with
    | .line token => "\x27" ++ token ++ "\x27 line"
    | .activeDelimiter => "active delimiter"
  let extras :=
    (if v.delimiterDirective then [", DELIMITER"] else []) ++
    (if v.dollarQuoting then [", $$ quoting"] else []) ++
    (if v.backslashEscapes then [", backslash escapes"] else []) ++
    (v.serverPort.toList.map fun n => ", port " ++ toString n)
  "  • " ++ name ++ ": delimiter '" ++ v.delimiter.text ++ "', blocks end at " ++ blockEnd ++
    String.join extras

def patternLines (v : CustomVendor) : List String :=
  if v.patterns.isEmpty then []
  else "" :: ("Procedural starts for " ++ v.name) :: v.patterns.map fun p => "  • " ++ p.source

/-- All vendors, and the patterns of those that a user defines. -/
def vendors (r : Registry) (custom : List CustomVendor) : List String :=
  ["Registered vendors", ""] ++ (r.vendors.entries.map fun e => vendorLine e.1 e.2) ++
    custom.flatMap patternLines

end SqlScript.CommandLine.Report
