import SqlScript.Batch.Aggregate

/-!
# Running a batch

A batch is run by one worker for each distinct job and one collector. A worker begins, waits for a
permit if there is a cap, does its job, sends one report, gives its permit back and leaves; the
collector receives the reports in the order they were sent, until it sees that all workers have left
or is told to stop. `Run.after?` says which events are possible and what they change, so that every
order of events is a run (`Run.follow?`); `Run.drive` follows one of them as far as it goes.
-/

namespace SqlScript

/-- What a worker reports: the id of its job and what came of it. -/
abbrev Report := String × Outcome

/-- A state of a batch that is being run. Each distinct job is at one stage. -/
structure Run where
  /-- The jobs whose workers have not begun. -/
  idle : List Job
  /-- The jobs whose workers wait for a permit, in the order they asked for it. -/
  waiting : List Job
  /-- The jobs that workers are at. -/
  running : List Job
  /-- The jobs whose workers have reported and still have their permits. -/
  reported : List Job
  /-- The jobs whose workers have given their permits back and can still report. -/
  leaving : List Job
  /-- The jobs whose workers have left. -/
  left : List Job
  /-- The reports that are sent and not received, oldest first. -/
  queue : List Report
  entries : NameMap Outcome
  /-- The ids of the jobs whose reports are not received. -/
  pending : List String
  /-- How the collector stopped, if it has. -/
  status : Option Status
  submitted : Nat

/-- What can happen in a run. -/
inductive Event
  /-- The worker of a job begins; with a cap it asks for a permit. -/
  | start (job : Job)
  /-- The first job that waits gets a permit. -/
  | grant
  | send (job : Job)
  /-- The worker of a job gives its permit back. -/
  | release (job : Job)
  | leave (job : Job)
  /-- The collector receives the oldest report. -/
  | receive
  | stop (status : Status)
deriving DecidableEq

/-- The job whose worker begins. -/
def Event.started? : Event → Option Job
  | start job => some job
  | _ => none

namespace Run

/-- The run of some jobs before anything has happened. -/
def start (jobs : List Job) : Run :=
  let jobs := Job.distinct jobs
  { idle := jobs, waiting := [], running := [], reported := [], leaving := [], left := []
    queue := [], entries := .empty, pending := jobs.map (·.id), status := none
    submitted := jobs.length }

/-- The jobs whose workers have not reported. -/
def unreported (r : Run) : List Job :=
  r.idle ++ r.waiting ++ r.running

/-- The jobs that hold a permit, if there is a cap. -/
def holders (r : Run) : List Job :=
  r.running ++ r.reported

/-- The jobs that hold a permit or have held one, if there is a cap. -/
def granted (r : Run) : List Job :=
  r.running ++ r.reported ++ r.leaving ++ r.left

def hasPermit (cap : Option Nat) (r : Run) : Bool :=
  match cap with
  | none => true
  | some n => r.holders.length < n

/-- All workers have left, and all their reports are received. -/
def drained (r : Run) : Bool :=
  r.unreported.isEmpty && r.reported.isEmpty && r.leaving.isEmpty && r.queue.isEmpty

/-- The run after an event, if the event is possible. Without a cap nobody waits: the pool of threads
is taken to have no bound, so that a job begins its work as soon as it has begun or has its permit. A
report that is sent when the collector has stopped is lost. -/
def after? (work : Job → Work) (cap : Option Nat) (r : Run) : Event → Option Run
  | .start j =>
    if j ∈ r.idle then
      if cap.isSome then some { r with idle := r.idle.erase j, waiting := r.waiting ++ [j] }
      else some { r with idle := r.idle.erase j, running := r.running ++ [j] }
    else none
  | .grant =>
    match r.waiting with
    | [] => none
    | j :: waiting =>
      if r.hasPermit cap then some { r with waiting, running := r.running ++ [j] } else none
  | .send j =>
    if j ∈ r.running then
      match work j with
      | .endless => none
      | .done outcome => some { r with
          running := r.running.erase j
          reported := r.reported ++ [j]
          queue := if r.status.isNone then r.queue ++ [(j.id, outcome)] else r.queue }
    else none
  | .release j =>
    if j ∈ r.reported then
      some { r with reported := r.reported.erase j, leaving := r.leaving ++ [j] }
    else none
  | .leave j =>
    if j ∈ r.leaving then some { r with leaving := r.leaving.erase j, left := r.left ++ [j] }
    else none
  | .receive =>
    match r.status, r.queue with
    | none, (id, outcome) :: queue => some { r with
        queue
        entries := r.entries.insert id outcome
        pending := r.pending.erase id }
    | _, _ => none
  | .stop status =>
    if r.status.isSome || (status == .complete && !r.drained) then none
    else some { r with status := some status }

/-- The run after some events one after the other, if each of them is possible. -/
def follow? (work : Job → Work) (cap : Option Nat) (events : List Event) (r : Run) : Option Run :=
  events.foldlM (·.after? work cap) r

/-- What came of the batch if the collector stops with `status`. -/
def close (r : Run) (status : Status) : Aggregate :=
  ⟨r.entries, r.pending.mergeSort (fun a b => decide (a ≤ b)), status, r.submitted⟩

/-- What came of the batch once the collector has stopped. -/
def aggregate? (r : Run) : Option Aggregate :=
  r.status.map r.close

/-- No worker can go on, and nothing can be received. -/
def AtRest (work : Job → Work) (cap : Option Nat) (r : Run) : Prop :=
  ∀ e, (∀ status, e ≠ .stop status) → r.after? work cap e = none

/-- The events that may be next, the stop of the collector apart. -/
def candidates (r : Run) : List Event :=
  r.idle.head?.toList.map .start ++ .grant :: (r.running.map .send ++ r.reported.map .release ++
    r.leaving.map .leave ++ [.receive])

/-- The run after the first of these events that is possible. -/
def next? (work : Job → Work) (cap : Option Nat) (r : Run) : Option Run :=
  r.candidates.findSome? (r.after? work cap)

/-- The run after at most `n` events, none of which stops the collector. -/
def drive (work : Job → Work) (cap : Option Nat) : Nat → Run → Run
  | 0, r => r
  | n + 1, r =>
    match r.next? work cap with
    | none => r
    | some r' => drive work cap n r'

end Run

namespace Batch

/-- The largest number of permits that a batch can share out. -/
def maxPermits : Nat := UInt64.size / 8 - 1

/-- Runs a batch until all jobs have reported, or all that ever will: then it ends as `early`. Each
job takes six events. -/
def run (work : Job → Work) (cap : Option Nat) (early : Status) (jobs : List Job) : Aggregate :=
  let start := Run.start jobs
  let last := start.drive work cap (6 * start.submitted)
  last.close (if last.drained then .complete else early)

/-- A batch that ends as `early` before any job reports. -/
def stopAtOnce (early : Status) (jobs : List Job) : Aggregate :=
  (Run.start jobs).close early

end Batch
end SqlScript
