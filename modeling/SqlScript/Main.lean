import SqlScript.CommandLine.Basic

/-!
# The program

Reads the files that the arguments name, has the command line answered and prints the answer. A
file that is not read in time counts as one that never ends.
-/

open SqlScript

namespace SqlScript.Program

def systemFault : IO.Error → SystemFault
  | .noFileOrDirectory .. => .notFound
  | .inappropriateType _ 21 _ => .isDirectory
  | .inappropriateType .. => .notDirectory
  | .invalidArgument _ 36 _ => .nameTooLong
  | e => .other (toString e)

def readFile (path : String) : BaseIO Reading := do
  match ← (IO.FS.readBinFile path).toBaseIO with
  | .ok content => return .bytes content.toList
  | .error e => return .fault (systemFault e)

/-- What comes of a reading by a time of the clock, in milliseconds. -/
def await (until? : Option Nat) (task : Task Reading) : IO Reading := do
  match until? with
  | none => IO.wait task
  | some limit =>
    while !(← IO.hasFinished task) && (← IO.monoMsNow) < limit do
      IO.sleep 5
    if ← IO.hasFinished task then IO.wait task else return .endless

/-- What comes of reading several files at a time. -/
def readFiles (seconds : Option Nat) (paths : List String) :
    IO (List (String × Reading)) := do
  let start ← IO.monoMsNow
  let tasks ← paths.mapM fun path => return (path, ← BaseIO.asTask (readFile path) .dedicated)
  tasks.mapM fun t => return (t.1, ← await (seconds.map (start + 1000 * ·)) t.2)

/-- What comes of reading the files of a request, its settings included. -/
def readAll (r : CommandLine.Request) : IO (String → Reading) := do
  let path := r.config.getD Settings.fileName
  let reading ← readFile path
  let seconds := match CommandLine.loadSettings (fun _ => reading) r.config with
    | .ok settings => settings.timeoutOr r.command.timeout
    | .error _ => none
  let files ← readFiles seconds r.command.files
  return fun name => (((path, reading) :: files).lookup name).getD (.fault .notFound)

def answer (arguments : List String) : IO CommandLine.Answer := do
  match CommandLine.Request.read arguments with
  | .error i => return .ofInterruption i
  | .ok request => return request.answer Json.print (← readAll request)

end SqlScript.Program

/-- Runs the program on its arguments; the result is the exit code. -/
def main (arguments : List String) : IO UInt32 := do
  let answer ← Program.answer arguments
  IO.print answer.output
  IO.eprint answer.errors
  (← IO.getStdout).flush
  return answer.exitCode.toUInt32
