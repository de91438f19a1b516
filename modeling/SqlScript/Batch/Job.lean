import SqlScript.Batch.FileError
import SqlScript.Splitting.Basic

/-!
# Jobs

A job is one script of a batch: its text, or the file that holds it. `Job.work` is what comes of
doing a job alone, and `Job.distinct` keeps the first job of each id. When a worker breaks down, the
message comes from the runtime, which may say something else each time; so `Job.workWith` is given it.
-/

namespace SqlScript

/-- Where the text of a script is. -/
inductive Source
  | text (content : String)
  | file (path : String)
deriving Repr, DecidableEq

structure Job where
  id : String
  source : Source
deriving Repr, DecidableEq

/-- What came of a job. -/
abbrev Outcome := Except FileError Script

/-- What comes of doing a job. -/
inductive Work
  | done (outcome : Outcome)
  | endless

/-- What happens when a vendor is asked about a unit. -/
inductive Reaction
  | answers
  | crashes
  | hangs
deriving Repr, DecidableEq

namespace Job

def ofText (id content : String) : Job := ⟨id, .text content⟩

/-- The job of a file goes by its path. -/
def ofFile (path : String) : Job := ⟨path, .file path⟩

/-- The first job of each id that is not in `seen`. -/
def distinctFrom (seen : List String) : List Job → List Job
  | [] => []
  | j :: rest =>
    if seen.contains j.id then distinctFrom seen rest
    else j :: distinctFrom (j.id :: seen) rest

def distinct (jobs : List Job) : List Job :=
  distinctFrom [] jobs

/-- What comes of splitting a text with a vendor that always answers. -/
def splitWork (v : Vendor) (id text : String) : Work :=
  match split v text with
  | .ok script => .done (.ok script)
  | .error u => .done (.error (.ofUnterminated id u))

/-- What comes of splitting a text with a vendor that may break down, of which the runtime says
`crash`. -/
def guardedWork (v : Vendor) (reaction : List Char → Reaction) (crash id text : String) : Work :=
  match ((unitStarts v text).map reaction).find? (· ≠ .answers) with
  | some .hangs => .endless
  | some .crashes => .done (.error (.ofCrash id crash))
  | _ => splitWork v id text

/-- What comes of a job alone, given how files read and what comes of its text. -/
def workOn (read : String → Reading) (onText : String → Work) (j : Job) : Work :=
  match j.source with
  | .text content => onText content
  | .file path =>
    match (read path).decode with
    | .text content => onText content
    | .fault fault => .done (.error (.ofReadFault j.id fault))
    | .endless => .endless

/-- What comes of a job alone, given how the vendor behaves, what the runtime says if that breaks the
worker of a job, and how files read. -/
def workWith (v : Vendor) (reaction : List Char → Reaction) (crash : Job → String)
    (read : String → Reading) (j : Job) : Work :=
  j.workOn read (guardedWork v reaction (crash j) j.id)

/-- What comes of a job alone with a vendor that always answers. -/
def work (v : Vendor) (read : String → Reading) (j : Job) : Work :=
  j.workOn read (splitWork v j.id)

end Job
end SqlScript
