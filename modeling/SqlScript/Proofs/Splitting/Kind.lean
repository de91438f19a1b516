import SqlScript.Proofs.Splitting.Padding
import SqlScript.Proofs.Vendor.Marker
import SqlScript.Proofs.Vendor.Opening

/-!
# What the kind of a statement depends on

Whether a unit is procedural is decided at its first significant character, over the whole script from
there on. What ends a unit seals it from what comes behind, so of three built-in vendors the text of the
unit alone decides (`Scan.Begun.isProceduralStart_eq`). For MySQL it does unless the unit is cut off in
the middle of the opening of a stored program and the delimiter goes on with that
(`splitPartial_kind_of_unit`).
-/

namespace SqlScript
open Text

namespace Scan
variable {v : Vendor} {s : Scan} {lead own : List Char}

/-- What ends a unit does not show in its kind. -/
theorem Begun.isProceduralStart_eq (hv : v ∈ Vendor.plainBuiltins) (h : s.Begun v lead own)
    (hd : s.delimiter = .semicolon) (hs : s.rest = [] ∨ s.atDelimiter ∨ s.atMarkerLine v) :
    v.isProceduralStart (own ++ s.rest) = v.isProceduralStart own := by
  rcases hs with hrest | hat | hmarker
  · rw [hrest, List.append_nil]
  · obtain ⟨text, htext⟩ : ∃ text, ';' :: text = s.rest := by
      rw [atDelimiter, List.isPrefixOf_iff_prefix, hd] at hat
      exact hat
    rw [← htext, Vendor.isProceduralStart_append hv (Keyword.seals_semicolon text)]
  · -- the line feed in front of the marker line is the last character of the unit
    obtain ⟨hstart, hends⟩ := atMarkerLine_iff.1 hmarker
    obtain ⟨init, c, hown⟩ := (List.eq_nil_or_concat own).resolve_left h.ne_nil
    rw [List.concat_eq_append] at hown
    have hc : c = '\n' := by
      obtain ⟨above, habove⟩ := h.before
      rw [← habove, hown] at hstart
      simpa [startsLine] using hstart
    subst hc
    have hseals : Keyword.Seals (['\n'] ++ s.rest) :=
      Keyword.seals_blank_append blank_lineFeed (by simp) (Keyword.visible_of_endsBlock hv hends)
    have hfeed : Keyword.Seals ['\n'] := by
      have := Keyword.seals_nil.blank_append blank_lineFeed
      rwa [List.append_nil] at this
    rw [hown, List.append_assoc, Vendor.isProceduralStart_append hv hseals,
      Vendor.isProceduralStart_append hv hfeed]

/-- Each literal of the unit opens where the unit is significant already, or away from the delimiter. -/
def UnitRun.NoticesLiterals (v : Vendor) (u : UnitRun) : Prop :=
  ∀ s ∈ u.scans, s.opensLiteral v → s.unit.significant ∨ ¬ s.atDelimiter

instance (v : Vendor) (u : UnitRun) : Decidable (u.NoticesLiterals v) :=
  List.decidableBAll _ _

/-- A unit is sorted where it ends, whatever the literals of other units are. -/
theorem UnitRun.NoticesLiterals.sorted {text : List Char} {u : UnitRun} (hu : u ∈ (Scan.start v text).units v)
    (h : u.NoticesLiterals v) : u.last.Sorted v := by
  refine forall_units (P := Sorted v) (fun s hs _ _ hopen h => h.next hs hopen) (fun s he => ?_)
    Region.hasCloser_code (.inl (pads_of_unit rfl rfl)) u hu h
  rw [endsUnit, Bool.or_eq_true, beq_iff_eq, beq_iff_eq] at he
  rcases s.move_cases v with ⟨n, r, hm, -⟩ | ⟨hr, -⟩ | ⟨hr, -⟩ | ⟨d, hr, -⟩
  · rw [hm] at he
    simp at he
  all_goals exact .inl (pads_next_of_ends hr he)

end Scan

end SqlScript
