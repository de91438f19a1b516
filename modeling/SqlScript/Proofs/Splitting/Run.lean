import SqlScript.Proofs.Splitting.Region
import SqlScript.Splitting.Basic

/-!
# Runs of a scan

Every move reads at least one character (`next_length_lt`), as long as no closing tag is empty, and
no move makes one (`hasCloser_next`). So `finish` carries out moves until the text is over:
`finish_next` takes the first one off, and `run_induction` proves a property of a scan from that of
the scan one move later.
-/

namespace SqlScript
open Text

namespace Scan
variable {v : Vendor} {s : Scan}

@[simp] theorem skip_rest (s : Scan) (n : Nat) : (s.skip n).rest = s.rest.drop n := rfl
@[simp] theorem skip_before (s : Scan) (n : Nat) :
    (s.skip n).before = (s.rest.take n).reverse ++ s.before := rfl
@[simp] theorem skip_region (s : Scan) (n : Nat) : (s.skip n).region = s.region := rfl
@[simp] theorem skip_delimiter (s : Scan) (n : Nat) : (s.skip n).delimiter = s.delimiter := rfl
@[simp] theorem skip_unit (s : Scan) (n : Nat) : (s.skip n).unit = s.unit := rfl
@[simp] theorem skip_statements (s : Scan) (n : Nat) : (s.skip n).statements = s.statements := rfl
@[simp] theorem close_rest (s : Scan) : s.close.rest = s.rest := rfl
@[simp] theorem close_before (s : Scan) : s.close.before = s.before := rfl
@[simp] theorem close_region (s : Scan) : s.close.region = s.region := rfl
@[simp] theorem close_delimiter (s : Scan) : s.close.delimiter = s.delimiter := rfl
@[simp] theorem close_unit (s : Scan) : s.close.unit = {} := rfl
@[simp] theorem close_statements (s : Scan) :
    s.close.statements = s.unit.statement?.toList ++ s.statements := rfl
@[simp] theorem take_rest (s : Scan) (n : Nat) (r : Region) :
    (s.take v n r).rest = s.rest.drop n := rfl
@[simp] theorem take_before (s : Scan) (n : Nat) (r : Region) :
    (s.take v n r).before = (s.rest.take n).reverse ++ s.before := rfl
@[simp] theorem take_region (s : Scan) (n : Nat) (r : Region) : (s.take v n r).region = r := rfl
@[simp] theorem take_delimiter (s : Scan) (n : Nat) (r : Region) :
    (s.take v n r).delimiter = s.delimiter := rfl
@[simp] theorem take_statements (s : Scan) (n : Nat) (r : Region) :
    (s.take v n r).statements = s.statements := rfl

theorem moveInCode_cases (v : Vendor) (s : Scan) :
    (s.atMarkerLine v ∧ s.moveInCode v = .markerLine) ∨
    (∃ d, s.directive? v = some d ∧ s.moveInCode v = .directive d) ∨
    (∃ n r, Region.openedBy? v s.before s.rest = some (n, r) ∧ s.moveInCode v = .keep n r) ∨
    (Region.openedBy? v s.before s.rest = none ∧ s.atDelimiter ∧ s.delimiterEnds v ∧
      s.moveInCode v = .delimiter) ∨
    (Region.openedBy? v s.before s.rest = none ∧ (s.atDelimiter && s.delimiterEnds v) = false ∧
      s.moveInCode v = .keep 1 .code) := by
  unfold moveInCode
  split
  · simp_all
  · split
    · simp_all
    · split
      · simp_all
      · split <;> simp_all

/-- Every move reads something, and leaves no empty tag to wait for. -/
theorem reach_pos (h : s.region.HasCloser) : 0 < s.reach (s.move v) := by
  unfold move
  split
  · rcases s.moveInCode_cases v with ⟨_, h⟩ | ⟨d, _, h⟩ | ⟨n, r, ho, h⟩ | ⟨_, _, _, h⟩ | ⟨_, _, h⟩ <;> rw [h]
    · exact Nat.succ_pos _
    · exact Nat.succ_pos _
    · exact (Region.openedBy?_eq_some ho).1
    · exact List.length_pos_iff.2 s.delimiter.ne_nil
    · exact Nat.one_pos
  · exact Region.advance_pos h s.rest

theorem make_rest (m : Move) : (s.make v m).rest = s.rest.drop (s.reach m) := by
  cases m <;> rfl

theorem make_before (m : Move) :
    (s.make v m).before = (s.rest.take (s.reach m)).reverse ++ s.before := by
  cases m <;> rfl

theorem next_of_keep {n : Nat} {r : Region} (h : s.move v = .keep n r) : s.next v = s.take v n r := by
  rw [next, h]; rfl

theorem hasCloser_next (h : s.region.HasCloser) : (s.next v).region.HasCloser := by
  unfold next move
  split
  · next hc =>
    rcases s.moveInCode_cases v with
      ⟨_, h'⟩ | ⟨d, _, h'⟩ | ⟨n, r, ho, h'⟩ | ⟨_, _, _, h'⟩ | ⟨_, _, h'⟩ <;> rw [h']
    · exact h
    · exact h
    · exact (Region.openedBy?_eq_some ho).2.2
    · exact h
    · exact Region.hasCloser_code
  · exact Region.hasCloser_advance h s.rest

theorem next_length_lt (h : s.region.HasCloser) (hs : s.rest ≠ []) :
    (s.next v).rest.length < s.rest.length := by
  have := List.length_pos_iff.2 hs
  have := reach_pos (v := v) h
  rw [next, make_rest, List.length_drop]
  omega

theorem advance_of_length_le (h : s.region.HasCloser) {n : Nat} (hn : s.rest.length ≤ n) :
    s.advance v n = s.finish v := by
  unfold finish
  induction n using Nat.strongRecOn generalizing s with
  | ind n ih =>
    cases n with
    | zero => rw [Nat.le_zero.1 hn]
    | succ n =>
      cases hr : s.rest with
      | nil => simp [advance, hr]
      | cons c rest =>
        have hlt := next_length_lt (v := v) h (by simp [hr])
        have hlen : s.rest.length = rest.length + 1 := by simp [hr]
        have hn' := ih n (by omega) (s := s.next v) (hasCloser_next h) (by omega)
        have hr' := ih rest.length (by omega) (s := s.next v) (hasCloser_next h) (by omega)
        simp only [List.length_cons, advance, hr, List.isEmpty_cons, Bool.false_eq_true, if_false]
        rw [hn', hr']

theorem finish_of_rest_eq_nil (hs : s.rest = []) : s.finish v = s := by
  simp [finish, hs, advance]

theorem finish_next (h : s.region.HasCloser) (hs : s.rest ≠ []) :
    s.finish v = (s.next v).finish v := by
  obtain ⟨c, rest, hr⟩ := List.exists_cons_of_ne_nil hs
  have hlt := next_length_lt (v := v) h hs
  rw [← advance_of_length_le (hasCloser_next h) (n := rest.length)
    (by rw [hr, List.length_cons] at hlt; omega)]
  simp [finish, hr, advance]

def outcome (v : Vendor) (s : Scan) : Splitting :=
  (s.finish v).result

theorem outcome_next (h : s.region.HasCloser) (hs : s.rest ≠ []) :
    s.outcome v = (s.next v).outcome v := by
  rw [outcome, finish_next h hs, outcome]

theorem outcome_of_rest_eq_nil (hs : s.rest = []) : s.outcome v = s.result := by
  rw [outcome, finish_of_rest_eq_nil hs]

/-- What holds at the end of a text, and of a scan if it holds one move later, holds of every scan. -/
theorem run_induction {P : Scan → Prop} (v : Vendor) (stop : ∀ s, s.rest = [] → P s)
    (step : ∀ s, s.region.HasCloser → s.rest ≠ [] → P (s.next v) → P s) (s : Scan)
    (h : s.region.HasCloser) : P s := by
  by_cases hs : s.rest = []
  · exact stop s hs
  · exact step s h hs (run_induction v stop step (s.next v) (hasCloser_next h))
termination_by s.rest.length
decreasing_by exact next_length_lt h hs

end Scan
end SqlScript
