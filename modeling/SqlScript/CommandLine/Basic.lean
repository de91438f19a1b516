import SqlScript.Batch.Run
import SqlScript.CommandLine.Arguments
import SqlScript.CommandLine.Record
import SqlScript.CommandLine.Report

/-!
# The command line

`run` answers the arguments of a command line, given what comes of reading the files and how JSON is
printed. Arguments that make no sense come before everything else, then the settings, then the vendor;
scripts are read last. A command on files succeeds if all files were split.
-/

namespace SqlScript.CommandLine

def programName : String := "sqlsplit"

def programVersion : String := "0.1.0"

/-- The end of a program: its exit code and what it has printed. -/
structure Answer where
  exitCode : Nat
  output : String := ""
  errors : String := ""
deriving Repr, DecidableEq

namespace Answer

/-- The exit code of a success or a failure. -/
def code (success : Bool) : Nat :=
  if success then 0 else 1

/-- The request cannot be carried out; `causes` go into detail. -/
def error (message : String) (causes : List String := []) : Answer where
  exitCode := code false
  errors := Report.unlines (("error: " ++ message) :: causes.map fun c => "  caused by: " ++ c)

/-- The batch needs more permits than there can be. -/
def breakdown : Answer where
  exitCode := 101
  errors := Report.unlines ["too many jobs at a time"]

def ofInterruption : Interruption → Answer
  | .misuse fault =>
    { exitCode := 2, errors := Report.unlines ["error: " ++ fault.message] }
  | .version verb =>
    let behind := (verb.map fun v => "-" ++ v.name).getD ""
    { exitCode := 0, output := Report.unlines [programName ++ behind ++ " " ++ programVersion] }

/-- `print` writes JSON. -/
def split (print : Json → String) (json : Bool) (a : Aggregate) : Answer where
  exitCode := code (a.failures.isEmpty && a.isComplete)
  output := Report.unlines (if json then [print a.record] else Report.scripts a)

def check (a : Aggregate) : Answer where
  exitCode := code ((Report.Summary.of a).failed == 0 && a.isComplete)
  output := Report.unlines (Report.checks a)

def vendors (registry : Registry) (custom : List CustomVendor) : Answer where
  exitCode := code true
  output := Report.unlines (Report.vendors registry custom)

end Answer

/-- The settings that a request goes by: those in its own file, or else in the usual one. -/
def loadSettings (read : String → Reading) (config : Option String) : Except Answer Settings :=
  match config with
  | some path => (Settings.load read path).mapError fun e =>
    .error ("failed to load config from " ++ path) [e.message]
  | none => (Settings.discover read "").mapError fun e =>
    .error ("failed to load " ++ Settings.fileName) [e.message]

/-- Splits the files of a command and reports with `report`. The batch ends when no file is left
that can finish. -/
def onFiles (read : String → Reading) (settings : Settings) (registry : Registry)
    (given : RunArguments) (report : Aggregate → Answer) : Answer :=
  match registry.get (settings.vendorOr given.vendor) with
  | .error e => .error e.message
  | .ok v =>
    let cap := settings.concurrencyOr given.jobs
    if Batch.maxPermits < cap.getD 0 then .breakdown
    else report (Batch.run (Job.work v read) cap .deadlineExpired (given.files.map .ofFile))

/-- Carries out a request. -/
def Request.answer (print : Json → String) (read : String → Reading) (r : Request) : Answer :=
  match loadSettings read r.config with
  | .error answer => answer
  | .ok settings =>
    match VendorEntry.buildAll settings.vendors, settings.registry with
    | .ok custom, .ok registry =>
      match r.command with
      | .split given json => onFiles read settings registry given (Answer.split print json)
      | .check given => onFiles read settings registry given Answer.check
      | .vendors => .vendors registry custom
    | .error fault, _ | _, .error fault =>
      .error "invalid vendor configuration" [(SetupError.badEntry fault).message]

/-- Answers a command line. -/
def run (print : Json → String) (read : String → Reading) (arguments : List String) : Answer :=
  match Request.read arguments with
  | .error i => .ofInterruption i
  | .ok request => request.answer print read

end SqlScript.CommandLine
