import SqlScript.Splitting.Scan

/-!
# Splitting scripts

`split` cuts a script into its statements, or reports what is still open where it ends.
`splitPartial` keeps the statements that were complete before.
-/

namespace SqlScript

/-- The statements of a script, and what is still open where it ends. -/
structure Splitting where
  script : Script
  failure : Option Unterminated
deriving Repr, DecidableEq

/-- The splitting that a scan of the whole text amounts to. The text after the last terminator is a
statement too, unless something is still open. -/
def Scan.result (s : Scan) : Splitting :=
  match s.unterminated? with
  | none => ⟨s.close.statements.reverse, none⟩
  | some failure => ⟨s.statements.reverse, some failure⟩

/-- The statements that are complete before the script ends or fails. -/
def splitPartial (v : Vendor) (text : String) : Splitting :=
  ((Scan.start v text.toList).finish v).result

/-- The statements of a script that does not fail. -/
def split (v : Vendor) (text : String) : Except Unterminated Script :=
  match splitPartial v text with
  | ⟨script, none⟩ => .ok script
  | ⟨_, some failure⟩ => .error failure

/-- The texts, each up to the end of the script, for which the vendor says whether they start a
procedural block, in order. -/
def unitStarts (v : Vendor) (text : String) : List (List Char) :=
  let start := Scan.start v text.toList
  (start.visited v text.length).filterMap fun s =>
    if s.region = .code && !s.atMarkerLine v && (s.directive? v).isNone && s.startsUnit then
      some s.rest
    else none

end SqlScript
