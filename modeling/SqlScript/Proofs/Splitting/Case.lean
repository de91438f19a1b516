import Mathlib.Data.List.Forall2
import SqlScript.Proofs.Splitting.Run
import SqlScript.Proofs.Vendor.Case

/-!
# Scripts in another case

A scan of a folded script is the folded scan of the script, move by move (`Scan.next_folded`), where the
vendor ignores case and what the scan waits for is no letter (`Scan.IsCaseless`). So the splitting of a folded
script is the folded splitting (`splitPartial_folded`), and what two scripts that differ in case alone are split
into differs in case alone (`splitPartial_ignoresCase`).
-/

namespace SqlScript
open Text

namespace Region
variable {v : Vendor} {r : Region}

/-- What closes the region is no letter. -/
def IsCaseless : Region → Prop
  | quoted mark _ => mark.isAlpha = false
  | dollarQuoted tag => tag.all (!·.isAlpha)
  | code | lineComment | blockComment => True

theorem afterEscapeMark_map_foldAscii (before : List Char) :
    afterEscapeMark (before.map foldAscii) = afterEscapeMark before := by
  have hmark : ∀ c, (foldAscii c == 'E' || foldAscii c == 'e') = (c == 'E' || c == 'e') := fun c =>
    of_foldAscii (p := fun c => c == 'E' || c == 'e') (by decide) c
  have hword : ∀ c, (isAlphanumeric (foldAscii c) || foldAscii c == '_' || foldAscii c == '$') =
      (isAlphanumeric c || c == '_' || c == '$') := fun c =>
    of_foldAscii (p := fun c => isAlphanumeric c || c == '_' || c == '$') (by decide) c
  cases before with
  | nil => rfl
  | cons c before =>
    rw [List.map_cons, afterEscapeMark, afterEscapeMark, hmark]
    cases before with
    | nil => rfl
    | cons d before => simp only [List.map_cons, List.head?_cons, Option.map_some, hword]

theorem openedBy?_map_foldAscii (hv : v.dollarQuoting = false) (before text : List Char) :
    openedBy? v (before.map foldAscii) (text.map foldAscii) = openedBy? v before text := by
  have hnot : ¬ v.dollarQuoting := by simp [hv]
  rw [openedBy?_eq, openedBy?_eq, if_neg hnot, if_neg hnot, afterEscapeMark_map_foldAscii,
    isPrefixOf_map_foldAscii rfl, isPrefixOf_map_foldAscii rfl,
    isPrefixOf_map_foldAscii rfl, isPrefixOf_map_foldAscii rfl]

theorem isCaseless_of_openedBy? (hv : v.dollarQuoting = false) {before text : List Char} {n : Nat}
    (h : openedBy? v before text = some (n, r)) : r.IsCaseless := by
  unfold openedBy? at h
  split at h
  case h_5 =>
    rw [hv] at h
    cases h
  all_goals
    cases h
    trivial

theorem advance_map_foldAscii (hr : r.IsCaseless) (text : List Char) :
    r.advance (text.map foldAscii) = r.advance text := by
  cases r with
  | code => rfl
  | quoted mark backslash =>
    simp only [advance, head?_map_foldAscii (c := '\\') rfl,
      head?_map_foldAscii (c := mark) hr]
  | lineComment => simp only [advance, head?_map_foldAscii (c := '\n') rfl]
  | blockComment => rw [advance, isPrefixOf_map_foldAscii rfl, advance]
  | dollarQuoted tag => rw [advance, isPrefixOf_map_foldAscii hr, advance]

theorem isCaseless_advance (hr : r.IsCaseless) (text : List Char) : (r.advance text).2.IsCaseless := by
  cases r <;> simp only [advance] <;> repeat' split
  all_goals first | exact hr | trivial

end Region

namespace Statement

def folded (s : Statement) : Statement :=
  ⟨s.kind, String.ofList (s.text.toList.map foldAscii)⟩

/-- The statements differ in the case of letters alone. -/
structure SameButCase (s s' : Statement) : Prop where
  kind : s.kind = s'.kind
  text : sameIgnoringCase s.text.toList s'.text.toList
  lineFeed : s.text.toList.getLast? = some '\n' ↔ s'.text.toList.getLast? = some '\n'

end Statement

def Gathered.folded (u : Gathered) : Gathered :=
  { u with text := u.text.map foldAscii }

def Splitting.folded (r : Splitting) : Splitting :=
  { r with script := r.script.map (·.folded) }

namespace Gathered

theorem body_folded (u : Gathered) : u.folded.body = u.body.map foldAscii := by
  have htrim : trim (u.text.map foldAscii).reverse = (trim u.text.reverse).map foldAscii := by
    rw [← List.map_reverse, trim_map_foldAscii]
  rw [body, folded, htrim, body]
  split
  · rw [List.map_append]
    rfl
  · rfl

theorem statement?_folded (u : Gathered) : u.folded.statement? = u.statement?.map (·.folded) := by
  have htrim : (trim u.folded.text.reverse).isEmpty = (trim u.text.reverse).isEmpty := by
    rw [folded, ← List.map_reverse, trim_map_foldAscii, List.isEmpty_map]
  have hsignificant : u.folded.significant = u.significant := rfl
  have hprocedural : u.folded.procedural = u.procedural := rfl
  rw [statement?, hsignificant, hprocedural, htrim, body_folded, statement?]
  split
  · rw [Option.map_some, Statement.folded, String.toList_ofList]
  · rfl

end Gathered

namespace Scan
variable {v : Vendor} {s : Scan}

def folded (s : Scan) : Scan where
  before := s.before.map foldAscii
  rest := s.rest.map foldAscii
  region := s.region
  opened := s.opened.map foldAscii
  delimiter := s.delimiter
  unit := s.unit.folded
  statements := s.statements.map (·.folded)

/-- What the scan waits for is no letter. -/
structure IsCaseless (s : Scan) : Prop where
  region : s.region.IsCaseless
  delimiter : s.delimiter.chars.all (!·.isAlpha)

theorem atMarkerLine_folded (v : Vendor) (s : Scan) : s.folded.atMarkerLine v = s.atMarkerLine v := by
  have hstart : s.folded.atLineStart = s.atLineStart := by
    rw [atLineStart, folded, List.head?_map, Option.map_map,
      show (· == '\n') ∘ foldAscii = (· == '\n') from funext (foldAscii_beq (by decide)), atLineStart]
  rw [atMarkerLine, hstart, folded, firstLine_map_foldAscii, trim_map_foldAscii]
  simp only [sameIgnoringCase_map_foldAscii]
  rfl

theorem atBlank_folded (s : Scan) : s.folded.atBlank = s.atBlank := by
  rw [atBlank, folded, List.head?_map, Option.map_map, show isBlank ∘ foldAscii = isBlank from
    funext isBlank_foldAscii, atBlank]

theorem atLineComment_folded (s : Scan) : s.folded.atLineComment = s.atLineComment :=
  isPrefixOf_map_foldAscii rfl s.rest

theorem atComment_folded (s : Scan) : s.folded.atComment = s.atComment := by
  rw [atComment, atLineComment_folded, folded, isPrefixOf_map_foldAscii rfl, atComment]

theorem atDelimiter_folded (hs : s.IsCaseless) : s.folded.atDelimiter = s.atDelimiter :=
  isPrefixOf_map_foldAscii hs.delimiter s.rest

theorem startsUnit_folded (hs : s.IsCaseless) : s.folded.startsUnit = s.startsUnit := by
  rw [startsUnit, atComment_folded, atBlank_folded, atDelimiter_folded hs]
  rfl

theorem directive?_eq_none (hv : v.delimiterDirective = false) (s : Scan) : s.directive? v = none := by
  rw [directive?, hv]
  rfl

theorem moveInCode_folded (hv : v.IgnoresCase) (hs : s.IsCaseless) :
    s.folded.moveInCode v = s.moveInCode v := by
  have hopened : Region.openedBy? v s.folded.before s.folded.rest = Region.openedBy? v s.before s.rest :=
    Region.openedBy?_map_foldAscii hv.dollarQuoting s.before s.rest
  rw [moveInCode, atMarkerLine_folded, directive?_eq_none hv.delimiterDirective, hopened,
    atDelimiter_folded hs, moveInCode, directive?_eq_none hv.delimiterDirective]
  rfl

/-- The next move is the same in a folded script. -/
theorem move_folded (hv : v.IgnoresCase) (hs : s.IsCaseless) : s.folded.move v = s.move v := by
  have hadvance : s.folded.region.advance s.folded.rest = s.region.advance s.rest :=
    Region.advance_map_foldAscii hs.region s.rest
  rw [move, moveInCode_folded hv hs, hadvance, move]
  rfl

theorem reach_folded (s : Scan) (m : Move) : s.folded.reach m = s.reach m := by
  have hline : (firstLine s.folded.rest).length = (firstLine s.rest).length := by
    rw [folded, firstLine_map_foldAscii, List.length_map]
  cases m with
  | keep | delimiter => rfl
  | markerLine | directive => rw [reach, hline, reach]

theorem skip_folded (s : Scan) (n : Nat) : s.folded.skip n = (s.skip n).folded := by
  simp [skip, folded]

theorem close_folded (s : Scan) : s.folded.close = s.close.folded := by
  have hstatement : s.folded.unit.statement? = s.unit.statement?.map (·.folded) :=
    s.unit.statement?_folded
  rw [close, hstatement]
  cases hunit : s.unit.statement? <;> simp [close, folded, hunit, Gathered.folded]

theorem noted_folded (hv : v.IgnoresCase) (hs : s.IsCaseless) :
    s.folded.noted v = (s.noted v).folded := by
  have hprocedural : v.isProceduralStart s.folded.rest = v.isProceduralStart s.rest :=
    hv.isProceduralStart s.rest
  have hends : s.folded.delimiterEnds v = s.delimiterEnds v := rfl
  simp only [noted, startsUnit_folded hs, atBlank_folded, atDelimiter_folded hs, hends, hprocedural,
    atLineComment_folded]
  split <;> split <;> rfl

theorem take_folded (hv : v.IgnoresCase) (hs : s.IsCaseless) (n : Nat) (r : Region) :
    s.folded.take v n r = (s.take v n r).folded := by
  have hregion : s.folded.region = s.region := rfl
  simp only [take, hregion, skip_folded, noted_folded hv hs]
  split <;> simp [folded, Gathered.folded]

/-- A move carried out in a folded script leads to the folded scan. -/
theorem make_folded (hv : v.IgnoresCase) (hs : s.IsCaseless) (m : Move) :
    s.folded.make v m = (s.make v m).folded := by
  cases m with
  | keep n r => exact take_folded hv hs n r
  | delimiter | markerLine => rw [make, reach_folded, close_folded, skip_folded, make]
  | directive d => rw [make, reach_folded, skip_folded, make, folded, folded]

theorem next_folded (hv : v.IgnoresCase) (hs : s.IsCaseless) : s.folded.next v = (s.next v).folded := by
  rw [next, move_folded hv hs, make_folded hv hs, next]

theorem isCaseless_next (hv : v.IgnoresCase) (hs : s.IsCaseless) : (s.next v).IsCaseless := by
  unfold next move
  split
  · rcases s.moveInCode_cases v with
      ⟨-, h⟩ | ⟨d, hd, -⟩ | ⟨n, r, hopened, h⟩ | ⟨-, -, -, h⟩ | ⟨-, -, h⟩
    · rw [h]
      exact ⟨hs.region, hs.delimiter⟩
    · -- a directive could set a letter as the delimiter, but there is none
      rw [directive?_eq_none hv.delimiterDirective] at hd
      cases hd
    · rw [h]
      exact ⟨Region.isCaseless_of_openedBy? hv.dollarQuoting hopened, hs.delimiter⟩
    · rw [h]
      exact ⟨hs.region, hs.delimiter⟩
    · rw [h]
      exact ⟨trivial, hs.delimiter⟩
  · exact ⟨Region.isCaseless_advance hs.region s.rest, hs.delimiter⟩

theorem advance_folded (hv : v.IgnoresCase) (hs : s.IsCaseless) (n : Nat) :
    s.folded.advance v n = (s.advance v n).folded := by
  induction n generalizing s with
  | zero => rfl
  | succ n ih =>
    have hrest : s.folded.rest.isEmpty = s.rest.isEmpty := List.isEmpty_map
    rw [advance, hrest, next_folded hv hs, ih (isCaseless_next hv hs), advance]
    split <;> rfl

theorem finish_folded (hv : v.IgnoresCase) (hs : s.IsCaseless) : s.folded.finish v = (s.finish v).folded := by
  have hlength : s.folded.rest.length = s.rest.length := List.length_map _
  rw [finish, hlength, advance_folded hv hs, finish]

theorem unterminated?_folded (s : Scan) : s.folded.unterminated? = s.unterminated? := by
  have hopened : Location.after s.folded.opened = .after s.opened := Location.after_map_foldAscii s.opened
  rw [unterminated?, hopened, unterminated?]
  rfl

theorem result_folded (s : Scan) : s.folded.result = s.result.folded := by
  rw [result, unterminated?_folded, close_folded, result]
  split <;> simp [Splitting.folded, folded]

end Scan

theorem splitPartial_folded {v : Vendor} (hv : v.IgnoresCase) (text : String) :
    splitPartial v (String.ofList (text.toList.map foldAscii)) = (splitPartial v text).folded := by
  have hstart : (Scan.start v text.toList).IsCaseless := ⟨trivial, hv.delimiter⟩
  have hfolded : Scan.start v (text.toList.map foldAscii) = (Scan.start v text.toList).folded := rfl
  rw [splitPartial, String.toList_ofList, hfolded, Scan.finish_folded hv hstart, Scan.result_folded,
    splitPartial]

theorem Statement.sameButCase_of_folded {s s' : Statement} (h : s.folded = s'.folded) : s.SameButCase s' := by
  obtain ⟨hkind, htext⟩ := Statement.mk.inj h
  have hfold : s.text.toList.map foldAscii = s'.text.toList.map foldAscii := String.ofList_injective htext
  refine ⟨hkind, sameIgnoringCase_iff.2 hfold, ?_⟩
  rw [← getLast?_map_foldAscii (by decide), hfold, getLast?_map_foldAscii (by decide)]

/-- Scripts of Oracle or SQL Server that differ in case alone are split at the same places into statements
that differ in case alone, and fail alike. -/
theorem splitPartial_ignoresCase {v : Vendor} (hv : v = oracle ∨ v = sqlserver) {a b : String}
    (h : sameIgnoringCase a.toList b.toList) :
    (splitPartial v a).failure = (splitPartial v b).failure ∧
      List.Forall₂ Statement.SameButCase (splitPartial v a).script (splitPartial v b).script := by
  have hcase : v.IgnoresCase := by
    rcases hv with rfl | rfl
    · exact Vendor.ignoresCase_oracle
    · exact Vendor.ignoresCase_sqlserver
  have hfolded : (splitPartial v a).folded = (splitPartial v b).folded := by
    rw [← splitPartial_folded hcase, ← splitPartial_folded hcase, sameIgnoringCase_iff.1 h]
  obtain ⟨hscript, hfailure⟩ := Splitting.mk.inj hfolded
  have hall : List.Forall₂ (fun s s' : Statement => s.folded = s'.folded) (splitPartial v a).script
      (splitPartial v b).script := by
    rw [← List.forall₂_map_right_iff, ← List.forall₂_map_left_iff, List.forall₂_eq_eq_eq]
    exact hscript
  exact ⟨hfailure, hall.imp fun _ _ => Statement.sameButCase_of_folded⟩

/-- A marker line, a keyword and the letter in front of an escape string, each in both cases. -/
theorem splitPartial_ignoresCase_go :
    let a := "Create Proc p As Print 1; -- x\nGO\nselect E'\\''; select 'a"
    let b := "CREATE PROC P AS PRINT 1; -- X\ngo\nSELECT e'\\''; SELECT 'A"
    sameIgnoringCase a.toList b.toList ∧
      (splitPartial sqlserver a).failure = (splitPartial sqlserver b).failure ∧
      (splitPartial sqlserver a).failure.isSome ∧
      List.Forall₂ Statement.SameButCase (splitPartial sqlserver a).script (splitPartial sqlserver b).script ∧
      (splitPartial sqlserver a).script.map (·.kind) = [.procedural, .regular] := by
  intro a b
  have hsame : sameIgnoringCase a.toList b.toList := by decide
  obtain ⟨hfailure, hscript⟩ := splitPartial_ignoresCase (v := sqlserver) (.inr rfl) hsame
  exact ⟨hsame, hfailure, by decide +kernel, hscript, by decide +kernel⟩

/-- The tags of dollar-quoted literals are told apart by case. -/
example : (splitPartial postgresql "SELECT $a$ $A$").failure.isSome ∧
    (splitPartial postgresql "SELECT $a$ $a$").failure = none := by
  decide +kernel

end SqlScript
