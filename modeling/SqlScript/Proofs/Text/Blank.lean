import Mathlib.Data.List.TakeWhile
import SqlScript.Text.Blank

/-!
# Trimming

`trim` takes off blanks and nothing else: blanks put around a text do not show in it
(`trim_append`, `trim_append_of_blank`), and it leaves nothing of blanks alone (`trim_eq_nil_iff`).
-/

namespace SqlScript.Text

theorem trimStart_append_of_blank {b : List Char} (hb : ∀ c ∈ b, isBlank c) (t : List Char) :
    trimStart (b ++ t) = trimStart t :=
  List.dropWhile_append_of_pos hb

theorem blank_lineFeed : ∀ c ∈ ['\n'], isBlank c :=
  List.forall_mem_singleton.2 rfl

theorem trimEnd_append_of_blank {b : List Char} (hb : ∀ c ∈ b, isBlank c) (t : List Char) :
    trimEnd (t ++ b) = trimEnd t := by
  rw [trimEnd, List.reverse_append, List.dropWhile_append_of_pos (by simpa using hb), ← trimEnd]

theorem trimStart_eq_nil_iff {t : List Char} : trimStart t = [] ↔ ∀ c ∈ t, isBlank c :=
  List.dropWhile_eq_nil_iff

theorem trimStart_append_of_ne {t : List Char} (ht : trimStart t ≠ []) (u : List Char) :
    trimStart (t ++ u) = trimStart t ++ u := by
  rw [trimStart, List.dropWhile_append, if_neg (by simpa [trimStart] using ht), trimStart]

theorem trimStart_append_cons {c : Char} (hc : isBlank c = false) (t u : List Char) :
    trimStart (t ++ c :: u) = trimStart t ++ c :: u := by
  by_cases ht : trimStart t = []
  · rw [trimStart_append_of_blank (trimStart_eq_nil_iff.1 ht), ht]
    simp [trimStart, hc]
  · exact trimStart_append_of_ne ht _

theorem trimEnd_append_cons {c : Char} (hc : isBlank c = false) (t u : List Char) :
    trimEnd (t ++ c :: u) = t ++ c :: trimEnd u := by
  have h := trimStart_append_cons hc u.reverse t.reverse
  rw [trimStart, trimStart] at h
  simp [trimEnd, h]

theorem not_isBlank_of_trimStart {c : Char} {t rest : List Char} (h : trimStart t = c :: rest) :
    isBlank c = false := by
  have := List.head?_dropWhile_not isBlank t
  rw [trimStart] at h
  simpa [h] using this

theorem trimEnd_cons {c : Char} (hc : isBlank c = false) (t : List Char) :
    trimEnd (c :: t) = c :: trimEnd t := by
  rw [trimEnd, List.reverse_cons, List.dropWhile_append]
  split
  · next h => simp [trimEnd, List.isEmpty_iff.1 h, hc]
  · simp [trimEnd]

theorem trimEnd_append_blank (t : List Char) : ∃ b, t = trimEnd t ++ b ∧ ∀ c ∈ b, isBlank c := by
  refine ⟨(t.reverse.takeWhile isBlank).reverse, ?_, fun c hc => ?_⟩
  · rw [trimEnd, ← List.reverse_append, List.takeWhile_append_dropWhile, List.reverse_reverse]
  · exact List.mem_takeWhile_imp (List.mem_reverse.1 hc)

theorem not_isBlank_of_trimEnd {c : Char} {t rest : List Char} (h : trimEnd t = rest ++ [c]) :
    isBlank c = false := by
  have hrev : trimStart t.reverse = c :: rest.reverse := by
    rw [← List.reverse_inj, trimStart, ← trimEnd, h]; simp
  exact not_isBlank_of_trimStart hrev

/-- Trimming at the end leaves what begins with no blank as it begins. -/
theorem head?_trim (t : List Char) : (trim t).head? = (trimStart t).head? := by
  rw [trim]
  cases h : trimStart t with
  | nil => rfl
  | cons c rest => rw [trimEnd_cons (not_isBlank_of_trimStart h)]; rfl

theorem trim_eq_nil_iff {t : List Char} : trim t = [] ↔ ∀ c ∈ t, isBlank c := by
  rw [← List.head?_eq_none_iff, head?_trim, List.head?_eq_none_iff, trimStart_eq_nil_iff]

theorem trim_eq_self {t : List Char} (hfirst : ∀ c ∈ t.head?, isBlank c = false)
    (hlast : ∀ c ∈ t.getLast?, isBlank c = false) : trim t = t := by
  have hstart : trimStart t = t := by
    cases t with
    | nil => rfl
    | cons c t => simp [trimStart, hfirst c rfl]
  rw [trim, hstart]
  rcases t.eq_nil_or_concat with rfl | ⟨u, c, rfl⟩
  · rfl
  · have hc : isBlank c = false := hlast c (by simp)
    simp [trimEnd, hc]

theorem mem_trim {c : Char} {t : List Char} (hc : c ∈ t) (hb : isBlank c = false) : c ∈ trim t := by
  have hmem : ∀ {t : List Char}, c ∈ t → c ∈ t.dropWhile isBlank := by
    intro t hc
    rw [← List.takeWhile_append_dropWhile (p := isBlank) (l := t), List.mem_append] at hc
    exact hc.resolve_left fun h => by simp [List.mem_takeWhile_imp h] at hb
  rw [trim, trimEnd, List.mem_reverse]
  exact hmem (List.mem_reverse.2 (hmem hc))

theorem trim_blank_append {b : List Char} (hb : ∀ c ∈ b, isBlank c) (t : List Char) :
    trim (b ++ t) = trim t := by
  rw [trim, trimStart_append_of_blank hb, trim]

theorem trim_append_blank {b : List Char} (hb : ∀ c ∈ b, isBlank c) (t : List Char) :
    trim (t ++ b) = trim t := by
  by_cases ht : trimStart t = []
  · rw [trim_eq_nil_iff.2 (trimStart_eq_nil_iff.1 ht), trim_eq_nil_iff.2]
    simpa [or_imp, forall_and] using ⟨trimStart_eq_nil_iff.1 ht, hb⟩
  · rw [trim, trimStart_append_of_ne ht, trimEnd_append_of_blank hb, trim]

/-- Trimming does not go beyond what begins and ends with no blank. -/
theorem trim_append_append {l : List Char} (hfirst : ∃ c t, l = c :: t ∧ isBlank c = false)
    (hlast : ∃ t c, l = t ++ [c] ∧ isBlank c = false) (t u : List Char) :
    trim (t ++ (l ++ u)) = trimStart t ++ l ++ trimEnd u := by
  obtain ⟨c, more, hl, hc⟩ := hfirst
  obtain ⟨init, d, hl', hd⟩ := hlast
  have hstart : trimStart (t ++ (l ++ u)) = trimStart t ++ (l ++ u) := by
    rw [hl]; exact trimStart_append_cons hc t (more ++ u)
  have hend := trimEnd_append_cons hd (trimStart t ++ init) u
  rw [trim, hstart, hl']
  simpa using hend

theorem trim_isInfix (t : List Char) : trim t <:+: t := by
  obtain ⟨b, hb, -⟩ := trimEnd_append_blank (trimStart t)
  have hstart : t.takeWhile isBlank ++ trimStart t = t := List.takeWhile_append_dropWhile
  exact ⟨t.takeWhile isBlank, b, by rw [trim, List.append_assoc, ← hb, hstart]⟩

theorem trimEnd_isPrefix (t : List Char) : trimEnd t <+: t := by
  obtain ⟨b, hb, -⟩ := trimEnd_append_blank t
  exact ⟨b, hb.symm⟩

theorem trimStart_isSuffix (t : List Char) : trimStart t <:+ t :=
  List.dropWhile_suffix _

/-- The characters that are no blanks. -/
def visible (t : List Char) : List Char :=
  t.filter (!isBlank ·)

@[simp] theorem visible_append (t u : List Char) : visible (t ++ u) = visible t ++ visible u :=
  List.filter_append t u

theorem visible_of_blank {b : List Char} (hb : ∀ c ∈ b, isBlank c) : visible b = [] := by
  simpa [visible, List.filter_eq_nil_iff] using hb

theorem visible_trim (t : List Char) : visible (trim t) = visible t := by
  have hstart : t.takeWhile isBlank ++ trimStart t = t := List.takeWhile_append_dropWhile
  obtain ⟨b, hend, hb⟩ := trimEnd_append_blank (trimStart t)
  calc visible (trim t)
      = visible (t.takeWhile isBlank) ++ (visible (trim t) ++ visible b) := by
        rw [visible_of_blank fun c hc => List.mem_takeWhile_imp hc, visible_of_blank hb]
        simp
    _ = visible t := by rw [← visible_append, trim, ← hend, ← visible_append, hstart]

end SqlScript.Text
