import SqlScript.Proofs.Text.Blank
import SqlScript.Proofs.Text.Character
import SqlScript.Vendor.Entry

/-!
# Lowercase text and normal names

Lowercasing and trimming settle at once: a lowercase text is its own lowercase form
(`lowercase_lowercase`), and a normal name is its own normal name (`normalName_normalName`). Both
rest on the table of lowercase forms: none of them has a lowercase form of its own, and none is a
blank.
-/

namespace SqlScript
namespace Text

namespace CaseRun

/-- No lowercase form of the first run belongs to the second: the two lie apart, or the second has
the codes of the other parity. -/
def misses (r r' : CaseRun) : Bool :=
  r.target + (r.last - r.first) < r'.first || r'.last < r.target ||
    (r.first == r.last || r.stride == 2) && r'.stride == 2 && (r.target + r'.first) % 2 == 1

/-- The lowercase forms of the run are characters behind `Z`: no blanks, and neither `İ` nor `Σ`. -/
def isPlain (r : CaseRun) : Bool :=
  let last := r.target + (r.last - r.first)
  90 < r.target && (last < 0xD800 || 0xDFFF < r.target && last < 0x110000) &&
    (0x130 :: 0x3A3 :: blankCodes).all fun n => n < r.target || last < n

theorem lower?_eq_some_iff {r : CaseRun} {n m : Nat} : r.lower? n = some m ↔
    (r.first ≤ n ∧ n ≤ r.last ∧ (n - r.first) % r.stride = 0) ∧ r.target + (n - r.first) = m := by
  simp [lower?]

theorem lower?_eq_none_of_misses {r r' : CaseRun} (h : r.misses r') {n m : Nat}
    (hm : r.lower? n = some m) : r'.lower? m = none := by
  obtain ⟨⟨hfirst, hlast, hstride⟩, rfl⟩ := lower?_eq_some_iff.1 hm
  rw [Option.eq_none_iff_forall_ne_some]
  intro k hk
  obtain ⟨⟨hfirst', hlast', hstride'⟩, -⟩ := lower?_eq_some_iff.1 hk
  simp only [misses, Bool.or_eq_true, Bool.and_eq_true, decide_eq_true_eq, beq_iff_eq] at h
  rcases h with (hbefore | hbehind) | ⟨⟨hone | htwo, htwo'⟩, hodd⟩
  · omega
  · omega
  · rw [htwo'] at hstride'
    omega
  · rw [htwo'] at hstride'
    rw [htwo] at hstride
    omega

end CaseRun

theorem lowercaseRuns_miss : lowercaseRuns.all fun r => lowercaseRuns.all r.misses := by
  decide +kernel

theorem lowercaseRuns_plain : lowercaseRuns.all CaseRun.isPlain := by
  decide +kernel

/-- What lowercasing leaves as it is. -/
def IsLower (c : Char) : Prop :=
  c ≠ 'Σ' ∧ lowerChar c = [c]

instance (c : Char) : Decidable (IsLower c) :=
  inferInstanceAs (Decidable (_ ∧ _))

theorem lowerChar_eq_self {c : Char} (hz : 90 < c.toNat) (hdotted : c ≠ 'İ')
    (hnone : lowercaseRuns.findSome? (·.lower? c.toNat) = none) : lowerChar c = [c] := by
  by_cases hascii : c.toNat < 0x80
  · have hcapital : ¬ (c.val ≥ 'A'.val ∧ c.val ≤ 'Z'.val) :=
      fun h => absurd (show c.toNat ≤ 90 from h.2) (by omega)
    have hlower : c.toLower = c := dif_neg hcapital
    rw [lowerChar, if_pos hascii, hlower]
  · rw [lowerChar, if_neg hascii, if_neg hdotted, hnone]

theorem toNat_ofNat {n : Nat} (h : n.isValidChar) : (Char.ofNat n).toNat = n := by
  rw [Char.ofNat, dif_pos h]
  rfl

/-- A lowercase form from the table is its own lowercase form and no blank. -/
theorem isLower_of_lower? {r : CaseRun} (hr : r ∈ lowercaseRuns) {n m : Nat} (hm : r.lower? n = some m) :
    IsLower (Char.ofNat m) ∧ isBlank (Char.ofNat m) = false := by
  have hplain := List.all_eq_true.1 lowercaseRuns_plain r hr
  obtain ⟨⟨hfirst, hlast, -⟩, hform⟩ := CaseRun.lower?_eq_some_iff.1 hm
  simp only [CaseRun.isPlain, Bool.and_eq_true, Bool.or_eq_true, decide_eq_true_eq,
    List.all_eq_true] at hplain
  obtain ⟨⟨hz, hvalid⟩, hapart⟩ := hplain
  have hcode : (Char.ofNat m).toNat = m := toNat_ofNat (by simp only [Nat.isValidChar]; omega)
  have hne : ∀ k ∈ 0x130 :: 0x3A3 :: blankCodes, (Char.ofNat m).toNat ≠ k := by
    intro k hk
    have := hapart k hk
    omega
  have hdotted : Char.ofNat m ≠ 'İ' := fun h => hne 0x130 (by simp) (by rw [h]; rfl)
  have hsigma : Char.ofNat m ≠ 'Σ' := fun h => hne 0x3A3 (by simp) (by rw [h]; rfl)
  have hblank : isBlank (Char.ofNat m) = false := by
    by_contra h
    have hmem := toNat_mem_blankCodes (Bool.of_not_eq_false h)
    exact hne _ (List.mem_cons_of_mem _ (List.mem_cons_of_mem _ hmem)) rfl
  have hnone : lowercaseRuns.findSome? (·.lower? m) = none := by
    rw [List.findSome?_eq_none_iff]
    intro r' hr'
    have hmisses := List.all_eq_true.1 (List.all_eq_true.1 lowercaseRuns_miss r hr) r' hr'
    exact CaseRun.lower?_eq_none_of_misses hmisses hm
  exact ⟨⟨hsigma, lowerChar_eq_self (by omega) hdotted (by rw [hcode]; exact hnone)⟩, hblank⟩

theorem lowerChar_ne_nil (c : Char) : lowerChar c ≠ [] := by
  simp only [lowerChar]
  split
  · simp
  · split
    · simp
    · split <;> simp

/-- Lowercasing makes lowercase characters, and no blank of another character. -/
theorem isLower_of_mem_lowerChar {c d : Char} (hc : c ≠ 'Σ') (hd : d ∈ lowerChar c) :
    IsLower d ∧ (isBlank c = false → isBlank d = false) := by
  by_cases hascii : c.toNat < 0x80
  · have hlower : ∀ n < 0x80, IsLower (Char.ofNat n).toLower ∧
        (isBlank (Char.ofNat n) = false → isBlank (Char.ofNat n).toLower = false) := by decide
    rw [lowerChar, if_pos hascii, List.mem_singleton] at hd
    simpa [hd] using hlower _ hascii
  · by_cases hdotted : c = 'İ'
    · rw [lowerChar, if_neg hascii, if_pos hdotted, List.mem_pair] at hd
      have hlower : IsLower d ∧ isBlank d = false := by rcases hd with rfl | rfl <;> decide +kernel
      exact hlower.imp_right fun h _ => h
    · cases hrun : lowercaseRuns.findSome? (·.lower? c.toNat) with
      | none =>
        have hself : lowerChar c = [c] := by rw [lowerChar, if_neg hascii, if_neg hdotted, hrun]
        rw [hself, List.mem_singleton] at hd
        subst hd
        exact ⟨⟨hc, hself⟩, id⟩
      | some m =>
        rw [lowerChar, if_neg hascii, if_neg hdotted, hrun, List.mem_singleton] at hd
        obtain ⟨r, hr, hm⟩ := List.exists_of_findSome?_eq_some hrun
        exact hd ▸ (isLower_of_lower? hr hm).imp_right fun h _ => h

/-- What one character becomes between the given texts. -/
def lowerBetween (before rest : List Char) (c : Char) : List Char :=
  if c = 'Σ' then [if meetsCased before && !meetsCased rest then 'ς' else 'σ'] else lowerChar c

theorem lowercaseAfter_cons (before : List Char) (c : Char) (rest : List Char) :
    lowercaseAfter before (c :: rest) = lowerBetween before rest c ++ lowercaseAfter (c :: before) rest :=
  rfl

theorem lowerBetween_ne_nil (before rest : List Char) (c : Char) : lowerBetween before rest c ≠ [] := by
  rw [lowerBetween]
  split
  · simp
  · exact lowerChar_ne_nil c

theorem isLower_of_mem_lowerBetween {before rest : List Char} {c d : Char}
    (hd : d ∈ lowerBetween before rest c) : IsLower d ∧ (isBlank c = false → isBlank d = false) := by
  rw [lowerBetween] at hd
  split at hd
  · have hlower : IsLower d ∧ isBlank d = false := by
      rw [List.mem_singleton] at hd
      split at hd <;> subst hd <;> decide +kernel
    exact hlower.imp_right fun h _ => h
  · next hc => exact isLower_of_mem_lowerChar hc hd

theorem lowerBetween_of_isLower {before rest : List Char} {c : Char} (hc : IsLower c) :
    lowerBetween before rest c = [c] := by
  rw [lowerBetween, if_neg hc.1, hc.2]

theorem isLower_of_mem_lowercaseAfter {before t : List Char} {d : Char}
    (hd : d ∈ lowercaseAfter before t) : IsLower d := by
  induction t generalizing before with
  | nil => simp [lowercaseAfter] at hd
  | cons c rest ih =>
    rw [lowercaseAfter_cons, List.mem_append] at hd
    rcases hd with hd | hd
    · exact (isLower_of_mem_lowerBetween hd).1
    · exact ih hd

theorem lowercaseAfter_eq_self {t : List Char} (ht : ∀ c ∈ t, IsLower c) (before : List Char) :
    lowercaseAfter before t = t := by
  induction t generalizing before with
  | nil => rfl
  | cons c rest ih =>
    obtain ⟨hc, hrest⟩ := List.forall_mem_cons.1 ht
    rw [lowercaseAfter_cons, lowerBetween_of_isLower hc, ih hrest]
    rfl

theorem lowercase_lowercase (t : List Char) : lowercase (lowercase t) = lowercase t :=
  lowercaseAfter_eq_self (fun _ hd => isLower_of_mem_lowercaseAfter hd) []

theorem lowercaseAfter_ne_nil (before : List Char) (c : Char) (rest : List Char) :
    lowercaseAfter before (c :: rest) ≠ [] := by
  rw [lowercaseAfter_cons]
  exact List.append_ne_nil_of_left_ne_nil (lowerBetween_ne_nil _ _ _) _

theorem not_isBlank_head?_lowercaseAfter {t : List Char} (ht : ∀ c ∈ t.head?, isBlank c = false)
    (before : List Char) : ∀ d ∈ (lowercaseAfter before t).head?, isBlank d = false := by
  cases t with
  | nil => nofun
  | cons c rest =>
    intro d hd
    rw [lowercaseAfter_cons, List.head?_append_of_ne_nil _ (lowerBetween_ne_nil _ _ _)] at hd
    exact (isLower_of_mem_lowerBetween (List.mem_of_mem_head? hd)).2 (ht c rfl)

theorem not_isBlank_getLast?_lowercaseAfter {t : List Char} (ht : ∀ c ∈ t.getLast?, isBlank c = false)
    (before : List Char) : ∀ d ∈ (lowercaseAfter before t).getLast?, isBlank d = false := by
  induction t generalizing before with
  | nil => nofun
  | cons c rest ih =>
    intro d hd
    cases rest with
    | nil =>
      rw [lowercaseAfter_cons, lowercaseAfter, List.append_nil] at hd
      exact (isLower_of_mem_lowerBetween (List.mem_of_getLast? hd)).2 (ht c rfl)
    | cons c' rest =>
      rw [lowercaseAfter_cons, List.getLast?_append_of_ne_nil _ (lowercaseAfter_ne_nil _ _ _)] at hd
      rw [List.getLast?_cons_cons] at ht
      exact ih ht _ d hd

theorem trim_lowercase_trim (t : List Char) : trim (lowercase (trim t)) = lowercase (trim t) := by
  refine trim_eq_self (not_isBlank_head?_lowercaseAfter ?_ []) (not_isBlank_getLast?_lowercaseAfter ?_ [])
  · intro c hc
    rw [head?_trim] at hc
    obtain ⟨rest, h⟩ := List.head?_eq_some_iff.1 hc
    exact not_isBlank_of_trimStart h
  · intro c hc
    obtain ⟨rest, h⟩ := List.getLast?_eq_some_iff.1 hc
    exact not_isBlank_of_trimEnd h

end Text

theorem normalName_normalName (name : String) : normalName (normalName name) = normalName name := by
  simp only [normalName, String.toList_ofList]
  rw [Text.trim_lowercase_trim, Text.lowercase_lowercase]

end SqlScript
