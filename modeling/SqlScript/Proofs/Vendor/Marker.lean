import SqlScript.Proofs.Vendor.Lookahead

/-!
# Lines that end a block

A line ends a block of a built-in vendor if it holds a slash, or the word `GO`, and nothing else
(`Vendor.endsBlock_cases`). Blanks at its end do not show (`Vendor.endsBlock_append_blank`), any other
character does (`Vendor.notMem_of_endsBlock`), and no keyword begins in it
(`Keyword.visible_of_endsBlock`).
-/

namespace SqlScript
open Text

namespace Vendor
variable {v : Vendor} {line : List Char}

theorem endsBlock_congr {line' : List Char} (h : trim line = trim line') :
    v.endsBlock line = v.endsBlock line' := by
  simp only [endsBlock, h]

theorem endsBlock_append_blank {b : List Char} (hb : ∀ c ∈ b, isBlank c) :
    v.endsBlock (line ++ b) = v.endsBlock line :=
  endsBlock_congr (trim_append_blank hb line)

/-- A line that ends a block: a slash, or the two letters of `GO`. -/
theorem endsBlock_cases (hv : v ∈ plainBuiltins) (h : v.endsBlock line) :
    ∃ c more, trim line = c :: more ∧ (foldAscii c = '/' ∨ foldAscii c = 'g') ∧
      ∀ d ∈ more, foldAscii d = 'o' := by
  rcases mem_plainBuiltins.1 hv with rfl | rfl | rfl
  · have heq : (trim line).map foldAscii = ['/'] := eq_of_beq h
    obtain ⟨c, more, hline, hc, hmore⟩ := List.map_eq_cons_iff.1 heq
    rw [List.map_eq_nil_iff.1 hmore] at hline
    exact ⟨c, [], hline, .inl hc, List.forall_mem_nil _⟩
  · cases h
  · have heq : (trim line).map foldAscii = ['g', 'o'] := eq_of_beq h
    obtain ⟨c, more, hline, hc, hmore⟩ := List.map_eq_cons_iff.1 heq
    exact ⟨c, more, hline, .inr hc, fun d hd => by
      simpa [hmore] using List.mem_map_of_mem (f := foldAscii) hd⟩

theorem endsBlock_nil (hv : v ∈ plainBuiltins) : v.endsBlock [] = false := by
  by_contra h
  obtain ⟨c, more, hline, -⟩ := endsBlock_cases hv (by simpa using h)
  cases hline

/-- A line that ends a block holds its token and blanks, nothing else. -/
theorem notMem_of_endsBlock (hv : v ∈ plainBuiltins) (h : v.endsBlock line) {c : Char}
    (hblank : isBlank c = false) (hfold : foldAscii c ∉ ['/', 'g', 'o']) : c ∉ line := by
  intro hc
  obtain ⟨d, more, hline, hd, hmore⟩ := endsBlock_cases hv h
  have hmem := mem_trim hc hblank
  rw [hline, List.mem_cons] at hmem
  rcases hmem with rfl | hmem
  · rcases hd with hd | hd <;> simp [hd] at hfold
  · simp [hmore c hmem] at hfold

theorem visible_ne_nil_of_endsBlock (hv : v ∈ plainBuiltins) (h : v.endsBlock line) :
    visible line ≠ [] := by
  obtain ⟨c, rest, hline, hc, -⟩ := endsBlock_cases hv h
  have hblank : isBlank c = false := by
    rw [← isBlank_foldAscii]
    rcases hc with hc | hc <;> rw [hc] <;> decide
  rw [← visible_trim, hline]
  simp [visible, hblank]

end Vendor

theorem Keyword.visible_of_endsBlock {v : Vendor} (hv : v ∈ Vendor.plainBuiltins) {t : List Char}
    (h : v.endsBlock (firstLine t)) : ∀ c ∈ (trimStart t).head?, isInitial c = false ∧ c ≠ '$' := by
  obtain ⟨c, more, hline, hc, -⟩ := Vendor.endsBlock_cases hv h
  have hhead : (trimStart (firstLine t)).head? = some c := by rw [← head?_trim, hline]; rfl
  have hne : trimStart (firstLine t) ≠ [] := fun hnil => by simp [hnil] at hhead
  have hsplit : firstLine t ++ t.dropWhile (· != '\n') = t := List.takeWhile_append_dropWhile
  rw [← hsplit, trimStart_append_of_ne hne, List.head?_append_of_ne_nil _ hne, hhead]
  rintro d hd
  obtain rfl : c = d := Option.some.inj hd
  refine ⟨?_, ?_⟩
  · rcases hc with hc | hc <;> simp [isInitial, hc]
  · rintro rfl
    rcases hc with hc | hc <;> exact absurd hc (by decide)

end SqlScript
