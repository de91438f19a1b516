import SqlScript.Batch.Job
import SqlScript.NameMap

/-!
# Results of a batch

An `Aggregate` holds what came of each job that reported, the ids of those that did not, and how the
batch ended. The entries lie in the order of their ids, so what is listed in that order is not sorted
again.
-/

namespace SqlScript

/-- How a batch ends. -/
inductive Status
  /-- Every job reported. -/
  | complete
  | deadlineExpired
  | cancelled
deriving Repr, DecidableEq

namespace Status

def all : List Status := [.complete, .deadlineExpired, .cancelled]

def name : Status → String
  | complete => "complete"
  | deadlineExpired => "deadline-expired"
  | cancelled => "cancelled"

def ofName? (name : String) : Option Status :=
  all.find? (·.name == name)

end Status

/-- What came of a batch. -/
structure Aggregate where
  /-- The outcomes of the jobs that reported, under their ids. -/
  entries : NameMap Outcome
  /-- The ids of the others, in order. -/
  pending : List String
  status : Status
  /-- The number of distinct jobs. -/
  submitted : Nat

namespace Aggregate

def isComplete (a : Aggregate) : Bool :=
  a.status == .complete

/-- The scripts that were split, with their ids and in the order of these. -/
def successes (a : Aggregate) : List (String × Script) :=
  a.entries.entries.filterMap fun e =>
    match e.2 with
    | .ok script => some (e.1, script)
    | .error _ => none

/-- The failures of the files that failed, in the order of their ids. -/
def failures (a : Aggregate) : List FileError :=
  a.entries.entries.filterMap fun e =>
    match e.2 with
    | .ok _ => none
    | .error failure => some failure

end Aggregate
end SqlScript
