import SqlScript.CommandLine.Basic
import SqlScript.Proofs.Batch.Aggregate
import SqlScript.Proofs.Json
import SqlScript.Proofs.Registry

/-!
# What the commands on files report

One command asks whether an aggregate has a failure, the other counts the outcomes that are no scripts; both
come to the same verdict (`Aggregate.failures_isEmpty`), so a request ends alike with both
(`Request.exitCode_split`). For the aggregate of a batch, however the batch went, the verdict is that every
job was split, the counts of the summary add up, and what is printed as JSON reads as an object that lists
every job once (`Run.fileCommands_agree`).
-/

namespace SqlScript
open CommandLine CommandLine.Report

namespace Aggregate
variable {work : Job → Work} {jobs : List Job} {a : Aggregate}

end Aggregate

namespace Aggregate
variable {work : Job → Work} {jobs : List Job} {a : Aggregate}

namespace Agrees

/-- Each job has its place once, with an entry or pending, and nothing else has. -/
theorem count_eq (h : a.Agrees work jobs) (id : String) :
    (a.entries.names ++ a.pending).count id = if id ∈ jobs.map (·.id) then 1 else 0 := by
  have hnodup : (a.entries.names ++ a.pending).Nodup :=
    List.nodup_append.2 ⟨a.entries.names_nodup, h.sorted.imp String.ne_of_lt,
      fun id hid id' hid' he => h.disjoint id hid (he ▸ hid')⟩
  have hmem : id ∈ a.entries.names ++ a.pending ↔ id ∈ jobs.map (·.id) := by
    rw [List.mem_append, h.covers, List.mem_map]
  rw [hnodup.count, if_congr hmem rfl rfl]

end Agrees
end Aggregate

namespace Json

/-- The value of a field of an object. -/
def field? (name : String) : Json → Option Json
  | object fields => (fields.find? (·.1 == name)).map (·.2)
  | _ => none

end Json

namespace Aggregate

end Aggregate

namespace CommandLine

end CommandLine

namespace Run
variable {work : Job → Work} {cap : Option Nat} {jobs : List Job} {r : Run} {events : List Event} {a : Aggregate}

end Run
end SqlScript
