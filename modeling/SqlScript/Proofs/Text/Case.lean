import Mathlib.Data.List.TakeWhile
import SqlScript.Proofs.Location
import SqlScript.Proofs.Text.Character

/-!
# Folded texts

Two texts are the same up to the case of ASCII letters if they are equal once folded, so what does not tell
cases apart need only be compared with itself on a folded text. Trimming and cutting into lines go by
characters that are no letters, and folding a text before is folding what they give (`trim_map_foldAscii`,
`firstLine_map_foldAscii`). No character takes more or less room folded, so places stay where they are
(`Location.after_map_foldAscii`).
-/

namespace SqlScript
namespace Text
variable {a b k t : List Char} {c d : Char} {p : Char → Bool}

theorem sameIgnoringCase_iff : sameIgnoringCase a b ↔ a.map foldAscii = b.map foldAscii :=
  beq_iff_eq

/-- What a function gives for both cases of a capital alike does not tell cases apart at all. -/
theorem apply_foldAscii {α : Type} [DecidableEq α] {f : Char → α}
    (h : capitals.all fun c => decide (f (foldAscii c) = f c)) (c : Char) : f (foldAscii c) = f c := by
  rcases foldAscii_cases c with hc | hc
  · rw [hc]
  · exact of_decide_eq_true (List.all_eq_true.1 h c hc)

theorem foldAscii_foldAscii (c : Char) : foldAscii (foldAscii c) = foldAscii c :=
  apply_foldAscii (by decide) c

theorem utf8Size_foldAscii (c : Char) : (foldAscii c).utf8Size = c.utf8Size :=
  apply_foldAscii (by decide) c

theorem forall_of_sameIgnoringCase (hp : ∀ c, p (foldAscii c) = p c) (h : sameIgnoringCase a b)
    (hb : ∀ c ∈ b, p c) : ∀ c ∈ a, p c := by
  intro c hc
  have hmem : foldAscii c ∈ b.map foldAscii := sameIgnoringCase_iff.1 h ▸ List.mem_map_of_mem hc
  obtain ⟨d, hd, hcd⟩ := List.mem_map.1 hmem
  rw [← hp, ← hcd, hp, hb d hd]

theorem isAlpha_of_mem_capitals (h : c ∈ capitals) : c.isAlpha ∧ (foldAscii c).isAlpha := by
  have hletters : capitals.all fun c => c.isAlpha && (foldAscii c).isAlpha := by decide
  simpa using List.all_eq_true.1 hletters c h

/-- A character that is no letter is told apart from all others on a folded text too. -/
theorem foldAscii_eq_iff (hc : c.isAlpha = false) : foldAscii d = c ↔ d = c := by
  rcases foldAscii_cases d with h | h
  · rw [h]
  · obtain ⟨hcapital, hsmall⟩ := isAlpha_of_mem_capitals h
    constructor
    · rintro rfl
      simp [hsmall] at hc
    · rintro rfl
      simp [hcapital] at hc

theorem foldAscii_beq (hc : c.isAlpha = false) (d : Char) : (foldAscii d == c) = (d == c) :=
  Bool.eq_iff_iff.2 (by rw [beq_iff_eq, beq_iff_eq, foldAscii_eq_iff hc])

theorem head?_map_foldAscii (hc : c.isAlpha = false) : (t.map foldAscii).head? = some c ↔ t.head? = some c := by
  cases t with
  | nil => rfl
  | cons d t => simp [foldAscii_eq_iff hc]

theorem getLast?_map_foldAscii (hc : c.isAlpha = false) :
    (t.map foldAscii).getLast? = some c ↔ t.getLast? = some c := by
  rw [← List.head?_reverse, ← List.map_reverse, head?_map_foldAscii hc, List.head?_reverse]

theorem takeWhile_map_foldAscii (hp : ∀ c, p (foldAscii c) = p c) (t : List Char) :
    (t.map foldAscii).takeWhile p = (t.takeWhile p).map foldAscii := by
  rw [List.takeWhile_map, show p ∘ foldAscii = p from funext hp]

theorem dropWhile_map_foldAscii (hp : ∀ c, p (foldAscii c) = p c) (t : List Char) :
    (t.map foldAscii).dropWhile p = (t.dropWhile p).map foldAscii := by
  rw [List.dropWhile_map, show p ∘ foldAscii = p from funext hp]

theorem trimStart_map_foldAscii (t : List Char) :
    trimStart (t.map foldAscii) = (trimStart t).map foldAscii :=
  dropWhile_map_foldAscii isBlank_foldAscii t

theorem trimEnd_map_foldAscii (t : List Char) : trimEnd (t.map foldAscii) = (trimEnd t).map foldAscii := by
  rw [trimEnd, ← List.map_reverse, dropWhile_map_foldAscii isBlank_foldAscii, ← List.map_reverse, trimEnd]

theorem trim_map_foldAscii (t : List Char) : trim (t.map foldAscii) = (trim t).map foldAscii := by
  rw [trim, trimStart_map_foldAscii, trimEnd_map_foldAscii, trim]

theorem foldAscii_bne_line_feed (c : Char) : (foldAscii c != '\n') = (c != '\n') := by
  rw [bne, bne, foldAscii_beq (by decide)]

theorem firstLine_map_foldAscii (t : List Char) : firstLine (t.map foldAscii) = (firstLine t).map foldAscii :=
  takeWhile_map_foldAscii foldAscii_bne_line_feed t

theorem isPrefixOf_map_foldAscii (hk : k.all (!·.isAlpha)) (t : List Char) :
    k.isPrefixOf (t.map foldAscii) = k.isPrefixOf t := by
  induction k generalizing t with
  | nil => rfl
  | cons c k ih =>
    rw [List.all_cons, Bool.and_eq_true, Bool.not_eq_true'] at hk
    cases t with
    | nil => rfl
    | cons d t =>
      rw [List.map_cons, List.isPrefixOf_cons_cons, List.isPrefixOf_cons_cons, ih hk.2, Bool.beq_comm,
        foldAscii_beq hk.1, Bool.beq_comm]

theorem sameIgnoringCase_map_foldAscii (a b : List Char) :
    sameIgnoringCase (a.map foldAscii) b = sameIgnoringCase a b := by
  rw [sameIgnoringCase, List.map_map, show foldAscii ∘ foldAscii = foldAscii from funext foldAscii_foldAscii,
    sameIgnoringCase]

theorem dropIgnoringCase_map_foldAscii (k t : List Char) :
    dropIgnoringCase k (t.map foldAscii) = (dropIgnoringCase k t).map (·.map foldAscii) := by
  induction k generalizing t with
  | nil => cases t <;> rfl
  | cons c k ih =>
    cases t with
    | nil => rfl
    | cons d t =>
      rw [List.map_cons, dropIgnoringCase, dropIgnoringCase, foldAscii_foldAscii, ih]
      split <;> rfl

theorem byteLength_map_foldAscii (t : List Char) : byteLength (t.map foldAscii) = byteLength t := by
  induction t with
  | nil => rfl
  | cons c t ih =>
    rw [List.map_cons, byteLength_cons, byteLength_cons, ih, utf8Size_foldAscii]

end Text

open Text

theorem Location.after_map_foldAscii (before : List Char) : after (before.map foldAscii) = after before := by
  have hcount : (before.map foldAscii).count '\n' = before.count '\n' := by
    rw [List.count, List.countP_map]
    exact List.countP_congr fun c _ => by simp [foldAscii_beq (c := '\n') (by decide)]
  rw [after, byteLength_map_foldAscii, hcount, takeWhile_map_foldAscii foldAscii_bne_line_feed,
    List.length_map, after]

end SqlScript
