import SqlScript.Proofs.Splitting.Pieces

/-!
# Where units end

A unit ends at a delimiter, at a marker line, and at the end of a script that leaves nothing open.
`Scan.ends` are the scans that have come there with the unit, and the statements of a script are the
statements of their units (`Scan.script_outcome`). `Scan.units` has each of them with the scans from which
the moves in the unit are made, so that something can be asked of one unit alone (`Scan.forall_units`).
-/

namespace SqlScript
open Text

namespace Scan
variable {v : Vendor} {s t : Scan}

/-- What is ahead ends the unit. -/
def endsUnit (v : Vendor) (s : Scan) : Bool :=
  s.move v == .delimiter || s.move v == .markerLine

/-- The scans at which a unit ends. -/
def ends (v : Vendor) (s : Scan) : List Scan :=
  (s.visited v s.rest.length).filter (endsUnit v) ++
    if (s.finish v).unterminated?.isNone then [s.finish v] else []

/-- A unit of a script: the scans from which the moves in it are made, and the one at which it ends. -/
structure UnitRun where
  scans : List Scan
  last : Scan

/-- The units that end, in order. -/
def units (v : Vendor) (s : Scan) : List UnitRun :=
  List.zipWith UnitRun.mk ((s.visited v s.rest.length).splitOnP (endsUnit v)) (s.ends v)

/-- The unit with more scans in front. -/
def UnitRun.after (scans : List Scan) (u : UnitRun) : UnitRun :=
  { u with scans := scans ++ u.scans }

theorem ends_of_rest_eq_nil (hs : s.rest = []) :
    s.ends v = if s.unterminated?.isNone then [s] else [] := by
  have hvisited : s.visited v s.rest.length = [] := by rw [hs]; rfl
  rw [ends, hvisited, finish_of_rest_eq_nil hs, List.filter_nil, List.nil_append]

theorem ends_next (h : s.region.HasCloser) (hs : s.rest ≠ []) :
    s.ends v = (if s.endsUnit v then [s] else []) ++ (s.next v).ends v := by
  rw [ends, visited_next h hs, finish_next h hs, ends]
  cases he : s.endsUnit v <;> simp [he]

theorem units_of_rest_eq_nil (hs : s.rest = []) :
    s.units v = if s.unterminated?.isNone then [⟨[], s⟩] else [] := by
  have hvisited : s.visited v s.rest.length = [] := by rw [hs]; rfl
  rw [units, hvisited, List.splitOnP_nil, ends_of_rest_eq_nil hs]
  cases s.unterminated? <;> rfl

theorem units_next_of_ends (h : s.region.HasCloser) (hs : s.rest ≠ []) (he : s.endsUnit v) :
    s.units v = ⟨[], s⟩ :: (s.next v).units v := by
  rw [units, visited_next h hs, ends_next h hs, List.splitOnP_cons_eq_if_modifyHead, if_pos he, if_pos he]
  rfl

theorem units_next (h : s.region.HasCloser) (hs : s.rest ≠ []) (he : s.endsUnit v = false) :
    s.units v = ((s.next v).units v).modifyHead (.after [s]) := by
  rw [units, visited_next h hs, ends_next h hs, List.splitOnP_cons_eq_if_modifyHead, if_neg (by simp [he]),
    if_neg (by simp [he]), units, List.nil_append]
  cases ((s.next v).visited v (s.next v).rest.length).splitOnP (endsUnit v) with
  | nil => rfl
  | cons scans more => cases (s.next v).ends v <;> rfl

theorem finish_rest (h : s.region.HasCloser) : (s.finish v).rest = [] := by
  refine run_induction (P := fun s => (s.finish v).rest = []) v (fun s hs => ?_) (fun s h hs ih => ?_) s h
  · rw [finish_of_rest_eq_nil hs, hs]
  · rw [finish_next h hs, ih]

/-- A move that ends no unit leaves the statements as they are. -/
theorem next_statements (v : Vendor) (s : Scan) : (s.next v).statements =
    (if s.endsUnit v then s.unit.statement?.toList else []) ++ s.statements := by
  rw [next, endsUnit]
  cases s.move v <;> rfl

/-- What comes out of a scan are the statements of the units that end behind it. -/
theorem script_outcome (h : s.region.HasCloser) : (s.outcome v).script =
    s.statements.reverse ++ (s.ends v).filterMap (·.unit.statement?) := by
  refine run_induction (P := fun s => (s.outcome v).script =
    s.statements.reverse ++ (s.ends v).filterMap (·.unit.statement?)) v (fun s hs => ?_)
    (fun s h hs ih => ?_) s h
  · rw [outcome_of_rest_eq_nil hs, ends_of_rest_eq_nil hs, result]
    cases s.unterminated? with
    | none => cases hst : s.unit.statement? <;> simp [hst]
    | some failure => simp
  · rw [outcome_next h hs, ih, next_statements, ends_next h hs, List.filterMap_append,
      List.reverse_append, List.append_assoc]
    cases s.endsUnit v with
    | false => rfl
    | true => cases hst : s.unit.statement? <;> simp [hst]

/-- A unit ends in code, or in a comment that goes on to the end of the script. -/
theorem ends_cases (h : s.region.HasCloser) (ht : t ∈ s.ends v) :
    t.rest = [] ∧ (t.region = .code ∨ t.region = .lineComment) ∨
      t.region = .code ∧ (t.move v = .delimiter ∧ t.atDelimiter ∨ t.move v = .markerLine ∧ t.atMarkerLine v) := by
  rw [ends, List.mem_append, List.mem_filter] at ht
  rcases ht with ⟨-, ht⟩ | ht
  · right
    rw [endsUnit, Bool.or_eq_true, beq_iff_eq, beq_iff_eq] at ht
    rcases t.move_cases v with ⟨n, r, hm, -⟩ | ⟨hc, hm, hat, -⟩ | ⟨hc, hm, hat⟩ | ⟨d, -, hm, -⟩
    · rw [hm] at ht
      simp at ht
    · exact ⟨hc, .inl ⟨hm, hat⟩⟩
    · exact ⟨hc, .inr ⟨hm, hat⟩⟩
    · rw [hm] at ht
      simp at ht
  · left
    split at ht
    · next hopen =>
      obtain rfl := List.mem_singleton.1 ht
      refine ⟨finish_rest h, ?_⟩
      unfold unterminated? at hopen
      cases hr : (s.finish v).region <;> simp [hr] at hopen ⊢
    · simp at ht

/-- What holds of a scan and is kept by every move from a scan of the kind `H` holds where units end. -/
theorem forall_ends {P H : Scan → Prop} (step : ∀ s, s.rest ≠ [] → s.region.HasCloser → H s → P s → P (s.next v))
    (h : s.region.HasCloser) (hs : P s) (hall : ∀ t ∈ s.visited v s.rest.length, H t) :
    ∀ t ∈ s.ends v, P t := by
  refine run_induction (P := fun s => P s → (∀ t ∈ s.visited v s.rest.length, H t) → ∀ t ∈ s.ends v, P t) v
    (fun s hrest hs _ t ht => ?_) (fun s h hrest ih hs hall t ht => ?_) s h hs hall
  · rw [ends_of_rest_eq_nil hrest] at ht
    split at ht
    · rwa [List.mem_singleton.1 ht]
    · simp at ht
  · rw [visited_next h hrest, List.forall_mem_cons] at hall
    rw [ends_next h hrest, List.mem_append] at ht
    rcases ht with ht | ht
    · split at ht
      · rwa [List.mem_singleton.1 ht]
      · simp at ht
    · exact ih (step s hrest h hall.1 hs) hall.2 t ht

theorem modifyHead_after_nil (us : List UnitRun) : us.modifyHead (.after []) = us := by
  cases us <;> rfl

theorem modifyHead_after_after (before scans : List Scan) (us : List UnitRun) :
    (us.modifyHead (.after scans)).modifyHead (.after before) = us.modifyHead (.after (before ++ scans)) := by
  cases us with
  | nil => rfl
  | cons u us => simp [UnitRun.after]

/-- What holds where a unit begins, and is kept by every move within a unit from a scan of the kind `H`,
holds where the unit ends, if all its scans are of that kind. -/
theorem forall_units {P H : Scan → Prop}
    (step : ∀ s : Scan, s.rest ≠ [] → s.region.HasCloser → s.endsUnit v = false → H s → P s → P (s.next v))
    (fresh : ∀ s : Scan, s.endsUnit v → P (s.next v)) (h : s.region.HasCloser) (hs : P s) :
    ∀ u ∈ s.units v, (∀ t ∈ u.scans, H t) → P u.last := by
  -- `before` are the scans of the unit so far
  have hrun : ∀ before : List Scan, ((∀ t ∈ before, H t) → P s) →
      ∀ u ∈ (s.units v).modifyHead (.after before), (∀ t ∈ u.scans, H t) → P u.last := by
    refine run_induction (P := fun s => ∀ before : List Scan, ((∀ t ∈ before, H t) → P s) →
      ∀ u ∈ (s.units v).modifyHead (.after before), (∀ t ∈ u.scans, H t) → P u.last) v
      (fun s hrest before hbefore u hu hall => ?_) (fun s h hrest ih before hbefore u hu hall => ?_) s h
    · rw [units_of_rest_eq_nil hrest] at hu
      split at hu
      · obtain rfl := List.mem_singleton.1 hu
        exact hbefore (by simpa [UnitRun.after] using hall)
      · cases hu
    · cases he : s.endsUnit v with
      | true =>
        rw [units_next_of_ends h hrest he, List.modifyHead_cons] at hu
        rcases List.mem_cons.1 hu with rfl | hu
        · exact hbefore (by simpa [UnitRun.after] using hall)
        · exact ih [] (fun _ => fresh s he) u (by rwa [modifyHead_after_nil]) hall
      | false =>
        rw [units_next h hrest he, modifyHead_after_after] at hu
        refine ih (before ++ [s]) (fun hscans => ?_) u hu hall
        rw [List.forall_mem_append, List.forall_mem_singleton] at hscans
        exact step s hrest h he hscans.2 (hbefore hscans.1)
  have hall := hrun [] fun _ => hs
  rwa [modifyHead_after_nil] at hall

end Scan

theorem script_splitPartial (v : Vendor) (text : String) : (splitPartial v text).script =
    ((Scan.start v text.toList).ends v).filterMap (·.unit.statement?) :=
  Scan.script_outcome Region.hasCloser_code

end SqlScript
