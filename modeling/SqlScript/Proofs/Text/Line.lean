import Mathlib.Data.List.TakeWhile
import SqlScript.Text.Blank

/-!
# Whole lines

`wholeLine` is the first line of a text with the line feed behind it, `startsLine` says whether a
line starts behind a text. What follows a line feed does not show in the first line
(`firstLine_append`).
-/

namespace SqlScript.Text

/-- The first line and the line feed behind it. -/
def wholeLine (text : List Char) : List Char :=
  text.take ((firstLine text).length + 1)

/-- Nothing, or a line feed, comes right before. -/
def startsLine (before : List Char) : Bool :=
  (before.head?.map (· == '\n')).getD true

@[simp] theorem firstLine_nil : firstLine [] = [] := rfl

theorem firstLine_cons (c : Char) (t : List Char) :
    firstLine (c :: t) = if c = '\n' then [] else c :: firstLine t := by
  by_cases h : c = '\n' <;> simp [firstLine, h]

@[simp] theorem firstLine_line_feed (t : List Char) : firstLine ('\n' :: t) = [] := rfl

@[simp] theorem wholeLine_nil : wholeLine [] = [] := rfl

@[simp] theorem wholeLine_line_feed (t : List Char) : wholeLine ('\n' :: t) = ['\n'] := rfl

theorem wholeLine_cons {c : Char} (hc : c ≠ '\n') (t : List Char) :
    wholeLine (c :: t) = c :: wholeLine t := by
  simp [wholeLine, firstLine_cons, hc]

theorem line_feed_notMem_firstLine (t : List Char) : '\n' ∉ firstLine t :=
  fun h => by simpa using List.mem_takeWhile_imp h

theorem ne_line_feed {t : List Char} (h : '\n' ∉ t) : ∀ c ∈ t, c != '\n' :=
  fun _ hc => bne_iff_ne.2 fun e => h (e ▸ hc)

theorem firstLine_eq_self {t : List Char} (h : '\n' ∉ t) : firstLine t = t :=
  List.takeWhile_eq_self_iff.2 (ne_line_feed h)

theorem firstLine_append_of_mem {t : List Char} (h : '\n' ∈ t) (u : List Char) :
    firstLine (t ++ u) = firstLine t := by
  induction t with
  | nil => cases h
  | cons c t ih =>
    by_cases hc : c = '\n'
    · simp [hc]
    · have ht : '\n' ∈ t := by simpa [Ne.symm hc] using h
      rw [List.cons_append, firstLine_cons, firstLine_cons, ih ht]

theorem firstLine_append_of_notMem {t : List Char} (h : '\n' ∉ t) (u : List Char) :
    firstLine (t ++ u) = t ++ firstLine u := by
  rw [firstLine, List.takeWhile_append_of_pos (ne_line_feed h), firstLine]

theorem firstLine_append_line_feed (t u : List Char) : firstLine (t ++ '\n' :: u) = firstLine t := by
  by_cases h : '\n' ∈ t
  · exact firstLine_append_of_mem h _
  · rw [firstLine_append_of_notMem h, firstLine_eq_self h, firstLine_line_feed, List.append_nil]

theorem wholeLine_append_of_mem {t : List Char} (h : '\n' ∈ t) (u : List Char) :
    wholeLine (t ++ u) = wholeLine t := by
  induction t with
  | nil => cases h
  | cons c t ih =>
    by_cases hc : c = '\n'
    · simp [hc]
    · have ht : '\n' ∈ t := by simpa [Ne.symm hc] using h
      rw [List.cons_append, wholeLine_cons hc, wholeLine_cons hc, ih ht]

theorem wholeLine_of_mem {t : List Char} (h : '\n' ∈ t) : wholeLine t = firstLine t ++ ['\n'] := by
  induction t with
  | nil => cases h
  | cons c t ih =>
    by_cases hc : c = '\n'
    · simp [hc]
    · have ht : '\n' ∈ t := by simpa [Ne.symm hc] using h
      rw [wholeLine_cons hc, firstLine_cons, if_neg hc, ih ht, List.cons_append]

theorem wholeLine_isPrefix (t : List Char) : wholeLine t <+: t :=
  List.take_prefix _ _

theorem exists_eq_firstLine_append {t : List Char} (h : '\n' ∈ t) : ∃ u, t = firstLine t ++ '\n' :: u := by
  obtain ⟨u, hu⟩ := wholeLine_isPrefix t
  rw [wholeLine_of_mem h] at hu
  exact ⟨u, by simpa using hu.symm⟩

theorem append_line_feed_inj {t t' u u' : List Char} (ht : '\n' ∉ t) (ht' : '\n' ∉ t')
    (h : t ++ '\n' :: u = t' ++ '\n' :: u') : t = t' ∧ u = u' := by
  have hfirst := congrArg firstLine h
  rw [firstLine_append_line_feed, firstLine_append_line_feed, firstLine_eq_self ht,
    firstLine_eq_self ht'] at hfirst
  subst hfirst
  exact ⟨rfl, (List.cons.inj (List.append_cancel_left h)).2⟩

theorem wholeLine_append_of_notMem {t : List Char} (h : '\n' ∉ t) (u : List Char) :
    wholeLine (t ++ u) = t ++ wholeLine u := by
  induction t with
  | nil => rfl
  | cons c t ih =>
    simp only [List.mem_cons, not_or] at h
    rw [List.cons_append, wholeLine_cons (Ne.symm h.1), ih h.2, List.cons_append]

theorem wholeLine_eq_self {t : List Char} (h : '\n' ∉ t) : wholeLine t = t := by
  simpa using wholeLine_append_of_notMem h []

theorem wholeLine_ne_nil (c : Char) (t : List Char) : wholeLine (c :: t) ≠ [] := by
  simp [wholeLine]

/-- The length that a scan goes on by over a line is that of the line, the end of the text apart. -/
theorem drop_firstLine_succ (t : List Char) :
    t.drop ((firstLine t).length + 1) = t.drop (wholeLine t).length := by
  rw [wholeLine, List.length_take, List.drop_eq_drop_min]

theorem take_length_wholeLine (t : List Char) : t.take (wholeLine t).length = wholeLine t :=
  (List.prefix_iff_eq_take.1 (wholeLine_isPrefix t)).symm

@[simp] theorem firstLine_wholeLine (t : List Char) : firstLine (wholeLine t) = firstLine t := by
  by_cases h : '\n' ∈ t
  · rw [wholeLine_of_mem h, firstLine_append_line_feed, firstLine_eq_self (line_feed_notMem_firstLine t)]
  · rw [wholeLine_eq_self h]

end SqlScript.Text
