import SqlScript.Batch.Aggregate
import SqlScript.Json

/-!
# Results as JSON

The record of a batch holds every file once: under `files` with its statements or its error, or
under `pending`.
-/

namespace SqlScript

def Location.record (l : Location) : Json :=
  .record [("offset", .number l.offset), ("line", .number l.line), ("column", .number l.column)]

def Statement.record (s : Statement) : Json :=
  .record [("kind", .text s.kind.name), ("text", .text s.text)]

/-- The record of a failure; only one of a script that fails to split has a location. -/
def FileError.record (e : FileError) : Json :=
  .record ([("id", .text e.id), ("kind", .text e.kind.name), ("message", .text e.message)] ++
    e.location.toList.map fun l => ("location", l.record))

def Outcome.record : Outcome → Json
  | .ok script => .record [("statements", .list (script.map (·.record)))]
  | .error failure => .record [("error", failure.record)]

def Aggregate.record (a : Aggregate) : Json :=
  .record [("status", .text a.status.name), ("files", .ofMap (a.entries.map Outcome.record)),
    ("pending", .list (a.pending.map .text))]

end SqlScript
