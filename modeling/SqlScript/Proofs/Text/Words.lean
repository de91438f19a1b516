import SqlScript.Text.Blank

/-!
# Cutting a text into words

Cutting a text at some of its characters and leaving out the empty pieces is one recursion with the piece
being read at hand (`cutFrom_eq`); `words` cuts at blanks (`words_eq`). A word holds no blank and is not
empty (`mem_words`), and a blank keeps the words on its two sides apart (`words_append_cons`).
-/

namespace SqlScript.Text
variable {p : Char → Bool} {c : Char} {t w : List Char}

theorem mem_splitOnP (h : w ∈ t.splitOnP p) : w ⊆ t ∧ ∀ c ∈ w, p c = false := by
  induction t generalizing w with
  | nil =>
    rw [List.splitOnP_nil, List.mem_singleton] at h
    subst h
    exact ⟨List.nil_subset _, List.forall_mem_nil _⟩
  | cons d t ih =>
    have hcons : ∀ {w}, w ∈ t.splitOnP p → w ⊆ d :: t ∧ ∀ c ∈ w, p c = false := fun h =>
      ⟨fun c hc => List.mem_cons_of_mem d ((ih h).1 hc), (ih h).2⟩
    rw [List.splitOnP_cons_eq_if_modifyHead] at h
    split at h
    · rcases List.mem_cons.1 h with rfl | h
      · exact ⟨List.nil_subset _, List.forall_mem_nil _⟩
      · exact hcons h
    · next hd =>
      obtain ⟨first, more, hsplit⟩ := List.exists_cons_of_ne_nil (List.splitOnP_ne_nil p t)
      rw [hsplit, List.modifyHead_cons] at h
      rcases List.mem_cons.1 h with rfl | h
      · obtain ⟨hsub, hp⟩ := hcons (w := first) (by simp [hsplit])
        exact ⟨List.cons_subset.2 ⟨List.mem_cons_self, hsub⟩,
          List.forall_mem_cons.2 ⟨Bool.eq_false_iff.2 hd, hp⟩⟩
      · exact hcons (by simp [hsplit, h])

/-- A recursion that cuts a text at the characters `p`, with the newest part of the piece being read in
front, gives the pieces that are not empty. -/
theorem cutFrom_eq {f : List Char → List Char → List (List Char)}
    (hnil : ∀ current, f current [] = if current.isEmpty then [] else [current.reverse])
    (hcons : ∀ current c t, f current (c :: t) =
      if p c then if current.isEmpty then f [] t else current.reverse :: f [] t else f (c :: current) t)
    (current t : List Char) :
    f current t = ((t.splitOnP p).modifyHead (current.reverse ++ ·)).filter (!·.isEmpty) := by
  induction t generalizing current with
  | nil =>
    rw [hnil, List.splitOnP_nil]
    cases current <;> simp
  | cons c t ih =>
    rw [hcons, List.splitOnP_cons_eq_if_modifyHead]
    have hempty : (t.splitOnP p).modifyHead ([].reverse ++ ·) = t.splitOnP p := by
      cases t.splitOnP p <;> rfl
    split
    · rw [ih, hempty]
      cases current <;> simp
    · rw [ih, List.modifyHead_modifyHead]
      congr 2
      funext piece
      simp

theorem words_eq (t : List Char) : words t = (t.splitOnP isBlank).filter (!·.isEmpty) := by
  rw [words, cutFrom_eq (f := wordsFrom) (p := isBlank) (fun _ => rfl) (fun _ _ _ => rfl)]
  cases t.splitOnP isBlank <;> rfl

theorem mem_words (h : w ∈ words t) : w ≠ [] ∧ w ⊆ t ∧ ∀ c ∈ w, isBlank c = false := by
  rw [words_eq, List.mem_filter] at h
  exact ⟨by simpa using h.2, mem_splitOnP h.1⟩

@[simp] theorem words_nil : words [] = [] := rfl

/-- A blank keeps words apart. -/
theorem words_append_cons (hc : isBlank c) (t u : List Char) : words (t ++ c :: u) = words t ++ words u := by
  rw [words_eq, words_eq, words_eq, List.splitOnP_append_cons t u hc, List.filter_append]

theorem words_eq_singleton (hne : t ≠ []) (h : ∀ c ∈ t, isBlank c = false) : words t = [t] := by
  rw [words_eq, List.splitOnP_eq_singleton h]
  simp [hne]

theorem words_intercalate (ts : List (List Char)) : words ([' '].intercalate ts) = ts.flatMap words := by
  induction ts with
  | nil => rfl
  | cons t ts ih =>
    rw [List.flatMap_cons, ← ih]
    cases ts with
    | nil => simp
    | cons u ts =>
      rw [List.intercalate_cons_cons, List.append_assoc, List.singleton_append,
        words_append_cons (c := ' ') (by decide)]

theorem mem_intercalate {c : Char} {sep : List Char} {ts : List (List Char)} (h : c ∈ sep.intercalate ts) :
    c ∈ sep ∨ ∃ t ∈ ts, c ∈ t := by
  induction ts with
  | nil => simp at h
  | cons t ts ih =>
    cases ts with
    | nil => exact .inr ⟨t, List.mem_cons_self, by simpa using h⟩
    | cons u ts =>
      rw [List.intercalate_cons_cons, List.mem_append, List.mem_append] at h
      rcases h with (h | h) | h
      · exact .inr ⟨t, List.mem_cons_self, h⟩
      · exact .inl h
      · refine (ih h).imp_right ?_
        rintro ⟨w, hw, hc⟩
        exact ⟨w, List.mem_cons_of_mem t hw, hc⟩

end SqlScript.Text
