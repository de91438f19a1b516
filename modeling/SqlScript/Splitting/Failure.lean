import SqlScript.Location

/-!
# Scripts that end too early

A script fails to split for one reason: it ends inside a literal or a block comment.
-/

namespace SqlScript

/-- What was still open at the end of a script, and where it opened. -/
inductive Unterminated
  | quote (opener : String) (location : Location)
  | comment (location : Location)
deriving Repr, DecidableEq

namespace Unterminated

def location : Unterminated → Location
  | quote _ l => l
  | comment l => l

def message : Unterminated → String
  | quote opener l => "unterminated " ++ opener ++ " quote opened at " ++ l.display
  | comment l => "unterminated block comment opened at " ++ l.display

end Unterminated
end SqlScript
