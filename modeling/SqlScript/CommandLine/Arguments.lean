import SqlScript.Settings.Basic

/-!
# Arguments of the command line

The arguments name a command, switches and files. A switch is written with a letter or with a word,
and the letters of several switches may stand together behind one dash. A value follows its switch
directly, behind an equals sign or as the next argument. Behind `--` there are only files.
`Request.read` reads arguments from left to right and stops at the first that makes no sense.
-/

namespace SqlScript.CommandLine

inductive Verb
  | split
  | check
  | vendors
deriving Repr, DecidableEq

namespace Verb

def all : List Verb := [.split, .check, .vendors]

def name : Verb → String
  | split => "split"
  | check => "check"
  | vendors => "vendors"

def ofName? (name : String) : Option Verb :=
  all.find? (·.name == name)

def takesFiles (v : Verb) : Bool :=
  v != .vendors

end Verb

/-- What a switch sets or asks for. -/
inductive Switch
  | config
  | verbose
  | version
  | vendor
  | jobs
  | timeout
  | json
deriving Repr, DecidableEq

namespace Switch

def all : List Switch := [.config, .verbose, .version, .vendor, .jobs, .timeout, .json]

def word : Switch → String
  | config => "config"
  | verbose => "verbose"
  | version => "version"
  | vendor => "type"
  | jobs => "jobs"
  | timeout => "timeout"
  | json => "json"

def letter? : Switch → Option Char
  | config => some 'c'
  | verbose => some 'v'
  | version => some 'V'
  | vendor => some 't'
  | jobs => some 'j'
  | timeout => none
  | json => none

def takesValue : Switch → Bool
  | config | vendor | jobs | timeout => true
  | verbose | version | json => false

/-- The switch may stand behind the command, or with `none` before any command. -/
def isKnown (verb : Option Verb) : Switch → Bool
  | config | verbose | version => true
  | vendor | jobs | timeout => verb = some .split ∨ verb = some .check
  | json => verb = some .split

def ofLetter? (verb : Option Verb) (c : Char) : Option Switch :=
  all.find? fun s => s.isKnown verb && s.letter? == some c

def ofWord? (verb : Option Verb) (word : String) : Option Switch :=
  all.find? fun s => s.isKnown verb && s.word == word

def display (s : Switch) : String :=
  "--" ++ s.word

end Switch

/-- What makes no sense in the arguments. -/
inductive Misuse
  | unknownSwitch (argument : String)
  | missingValue (switch : Switch)
  | unwantedValue (switch : Switch)
  | badValue (switch : Switch) (value : String)
  | repeated (switch : Switch)
  | unexpected (argument : String)
  | emptyPath
  | noFile
  | noCommand
deriving Repr, DecidableEq

def Misuse.message : Misuse → String
  | unknownSwitch argument => "unknown option '" ++ argument ++ "'"
  | missingValue switch => switch.display ++ " needs a value"
  | unwantedValue switch => switch.display ++ " takes no value"
  | badValue switch value => "'" ++ value ++ "' is no value for " ++ switch.display
  | repeated switch => switch.display ++ " is given twice"
  | unexpected argument => "unexpected argument '" ++ argument ++ "'"
  | emptyPath => "a path must not be empty"
  | noFile => "no files are given"
  | noCommand => "no command is given"

/-- Why the arguments are not read to their end. -/
inductive Interruption
  | misuse (fault : Misuse)
  /-- The version is asked for, behind a command or before any. -/
  | version (verb : Option Verb)
deriving Repr, DecidableEq

/-- What the arguments behind a command have given so far. -/
structure Given where
  /-- The settings file that is given before the command. -/
  outerConfig : Option String := none
  config : Option String := none
  vendor : Option String := none
  jobs : Option Nat := none
  timeout : Option Nat := none
  json : Bool := false
  files : List String := []
deriving Repr, DecidableEq

/-- How a command is to work on files. -/
structure RunArguments where
  vendor : Option String
  jobs : Option Nat
  timeout : Option Nat
  files : List String
deriving Repr, DecidableEq

/-- What the program is to do. -/
inductive Command
  | split (run : RunArguments) (json : Bool)
  | check (run : RunArguments)
  | vendors
deriving Repr, DecidableEq

def Command.files : Command → List String
  | split run _ => run.files
  | check run => run.files
  | vendors => []

def Command.timeout : Command → Option Nat
  | split run _ => run.timeout
  | check run => run.timeout
  | vendors => none

/-- What the arguments ask for. -/
structure Request where
  /-- The settings file, if it is not the usual one. -/
  config : Option String
  command : Command
deriving Repr, DecidableEq

/-- The number that a value stands for: decimal digits, with a plus sign in front or not. -/
def number? (least : Nat) (value : String) : Option Nat :=
  let cs := value.toList
  (Field.digits? 10 (if cs.head? = some '+' then cs.tail else cs)).filter fun n =>
    least ≤ n && n ≤ Settings.maxLimit

namespace Given

def misuse {α : Type} (fault : Misuse) : Except Interruption α :=
  .error (.misuse fault)

/-- The value `new` for a switch that has none yet. -/
def once {α : Type} (s : Switch) (old : Option α) (new : Except Misuse α) :
    Except Interruption (Option α) :=
  match old, new with
  | some _, _ => misuse (.repeated s)
  | none, .error fault => misuse fault
  | none, .ok value => .ok (some value)

def set (g : Given) (s : Switch) (value : String) : Except Interruption Given :=
  let number (least : Nat) : Except Misuse Nat :=
    match number? least value with
    | some n => .ok n
    | none => .error (.badValue s value)
  match s with
  | .config =>
    (once s g.config (if value.isEmpty then .error .emptyPath else .ok value)).map
      fun config => { g with config }
  | .vendor => (once s g.vendor (.ok value)).map fun vendor => { g with vendor }
  | .jobs => (once s g.jobs (number 1)).map fun jobs => { g with jobs }
  | .timeout => (once s g.timeout (number 0)).map fun timeout => { g with timeout }
  | .verbose | .version | .json => misuse (.unwantedValue s)

/-- Turns on a switch without a value. How much is logged changes no result. -/
def turnOn (g : Given) (verb : Option Verb) (s : Switch) : Except Interruption Given :=
  match s with
  | .verbose => .ok g
  | .version => .error (.version verb)
  | .json => if g.json then misuse (.repeated s) else .ok { g with json := true }
  | .config | .vendor | .jobs | .timeout => misuse (.missingValue s)

/-- Reads letters behind a dash. A switch that is left over has its value in the next argument. -/
def readLetters (verb : Option Verb) (g : Given) :
    List Char → Except Interruption (Given × Option Switch)
  | [] => .ok (g, none)
  | c :: rest =>
    match Switch.ofLetter? verb c with
    | none => misuse (.unknownSwitch (String.ofList ['-', c]))
    | some s =>
      if s.takesValue then
        if rest.isEmpty then .ok (g, some s)
        else
          let value := if rest.head? = some '=' then rest.tail else rest
          (g.set s (String.ofList value)).map (·, none)
      else
        match g.turnOn verb s with
        | .error i => .error i
        | .ok g => readLetters verb g rest

/-- Reads a word behind two dashes, as `readLetters` reads letters. -/
def readWord (verb : Option Verb) (g : Given) (cs : List Char) :
    Except Interruption (Given × Option Switch) :=
  let word := String.ofList (cs.takeWhile (· != '='))
  let value? := (cs.dropWhile (· != '=')).tail?.map String.ofList
  match Switch.ofWord? verb word with
  | none => misuse (.unknownSwitch ("--" ++ word))
  | some s =>
    match value? with
    | some value => (g.set s value).map (·, none)
    | none => if s.takesValue then .ok (g, some s) else (g.turnOn verb s).map (·, none)

def addFile (verb : Option Verb) (g : Given) (path : String) : Except Interruption Given :=
  if !(verb.map Verb.takesFiles).getD false then misuse (.unexpected path)
  else if path.isEmpty then misuse .emptyPath
  else .ok { g with files := g.files ++ [path] }

/-- What has been given, taken together. -/
def finish (g : Given) (verb : Option Verb) : Except Interruption Request :=
  let config := g.config <|> g.outerConfig
  let run : RunArguments := ⟨g.vendor, g.jobs, g.timeout, g.files⟩
  match verb with
  | none => misuse .noCommand
  | some .vendors => .ok ⟨config, .vendors⟩
  | some .split => if g.files.isEmpty then misuse .noFile else .ok ⟨config, .split run g.json⟩
  | some .check => if g.files.isEmpty then misuse .noFile else .ok ⟨config, .check run⟩

end Given

inductive Argument
  /-- `--`. -/
  | separator
  | word (cs : List Char)
  | letters (cs : List Char)
  /-- A command, a file or a value. -/
  | operand
deriving Repr, DecidableEq

/-- A dash alone is an operand. -/
def Argument.of (text : String) : Argument :=
  match text.toList with
  | ['-', '-'] => .separator
  | '-' :: '-' :: cs => .word cs
  | '-' :: c :: cs => .letters (c :: cs)
  | _ => .operand

/-- Reads the arguments that follow the command, or with `none` those before it. -/
def Given.read (verb : Option Verb) (g : Given) : List String → Except Interruption Request
  | [] => g.finish verb
  | text :: rest =>
    let continued (step : Except Interruption (Given × Option Switch)) :
        Except Interruption Request :=
      match step with
      | .error i => .error i
      | .ok (g, none) => Given.read verb g rest
      | .ok (g, some s) =>
        match rest with
        | [] => misuse (.missingValue s)
        | value :: rest =>
          if Argument.of value ≠ .operand then misuse (.missingValue s)
          else match g.set s value with
            | .error i => .error i
            | .ok g => Given.read verb g rest
    match Argument.of text with
    | .separator =>
      match rest.foldlM (Given.addFile verb) g with
      | .error i => .error i
      | .ok g => g.finish verb
    | .word cs => continued (g.readWord verb cs)
    | .letters cs => continued (g.readLetters verb cs)
    | .operand =>
      match verb with
      | none =>
        match Verb.ofName? text with
        | none => misuse (.unexpected text)
        | some verb => Given.read (some verb) { outerConfig := g.config } rest
      | some _ => continued ((g.addFile verb text).map (·, none))

def Request.read (arguments : List String) : Except Interruption Request :=
  Given.read none {} arguments

end SqlScript.CommandLine
