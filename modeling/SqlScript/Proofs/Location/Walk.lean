import Mathlib.Algebra.Group.Nat.Defs
import Mathlib.Data.List.TakeWhile
import SqlScript.Proofs.Location

/-!
# Walking to a place

`Text.walk?` goes from the start of a text through a number of line feeds and then over a number of
characters of the line it has come to. The place of an offset is read off the walk that leads there
(`Location.of?_eq_some_iff`), and longer walks lead further (`Text.walk?_lt`), so lines and columns are in
the order of the offsets as long as they are counted in full (`Location.of?_walks_back`). No walk leads
beyond the text or into a character, and there is no place either (`Location.of?_eq_none_iff`).
-/

namespace SqlScript
namespace Text

/-- The bytes gone over on the way through `lines` line feeds and then over `columns` characters of one
line, if the text has them. -/
def walk? : Nat → Nat → List Char → Option Nat
  | 0, 0, _ => some 0
  | _, _, [] => none
  | 0, columns + 1, c :: t => if c = '\n' then none else (walk? 0 columns t).map (c.utf8Size + ·)
  | lines + 1, columns, c :: t =>
    (walk? (if c = '\n' then lines else lines + 1) columns t).map (c.utf8Size + ·)

/-- The offset falls between the first and the last byte of a character. -/
def SplitsCharacter (t : List Char) (offset : Nat) : Prop :=
  ∃ before c rest, t = before ++ c :: rest ∧ byteLength before < offset ∧
    offset < byteLength before + c.utf8Size

section
variable {c : Char} {t before rest : List Char} {lines columns lines' columns' o o' : Nat}

theorem walk?_zero_zero (t : List Char) : walk? 0 0 t = some 0 := by
  cases t <;> rfl

theorem walk?_nil : walk? lines columns [] = some o ↔ lines = 0 ∧ columns = 0 ∧ o = 0 := by
  cases lines <;> cases columns <;> simp [walk?, eq_comm]

theorem walk?_zero_succ_cons : walk? 0 (columns + 1) (c :: t) = some o ↔
    c ≠ '\n' ∧ ∃ o', walk? 0 columns t = some o' ∧ c.utf8Size + o' = o := by
  by_cases hc : c = '\n' <;> simp [walk?, hc]

theorem walk?_succ_cons : walk? (lines + 1) columns (c :: t) = some o ↔
    ∃ o', walk? (if c = '\n' then lines else lines + 1) columns t = some o' ∧ c.utf8Size + o' = o := by
  simp [walk?]

/-- Through more line feeds, or over more characters of the same line, a walk leads further. -/
theorem walk?_lt (h : walk? lines columns t = some o) (h' : walk? lines' columns' t = some o')
    (hlt : lines < lines' ∨ lines = lines' ∧ columns < columns') : o < o' := by
  induction t generalizing lines columns lines' columns' o o' with
  | nil =>
    obtain ⟨rfl, rfl, -⟩ := walk?_nil.1 h
    obtain ⟨rfl, rfl, -⟩ := walk?_nil.1 h'
    omega
  | cons c t ih =>
    have hpos : 0 < c.utf8Size := c.utf8Size_pos
    cases lines with
    | zero =>
      cases columns with
      | zero =>
        rw [walk?_zero_zero, Option.some.injEq] at h
        cases lines' with
        | succ lines' =>
          obtain ⟨p, -, rfl⟩ := walk?_succ_cons.1 h'
          omega
        | zero =>
          obtain ⟨columns', rfl⟩ : ∃ n, columns' = n + 1 := Nat.exists_eq_succ_of_ne_zero (by omega)
          obtain ⟨-, p, -, rfl⟩ := walk?_zero_succ_cons.1 h'
          omega
      | succ columns =>
        obtain ⟨hc, p, hp, rfl⟩ := walk?_zero_succ_cons.1 h
        cases lines' with
        | succ lines' =>
          obtain ⟨p', hp', rfl⟩ := walk?_succ_cons.1 h'
          rw [if_neg hc] at hp'
          have := ih hp hp' (.inl (Nat.succ_pos _))
          omega
        | zero =>
          obtain ⟨columns', rfl⟩ : ∃ n, columns' = n + 1 := Nat.exists_eq_succ_of_ne_zero (by omega)
          obtain ⟨-, p', hp', rfl⟩ := walk?_zero_succ_cons.1 h'
          have := ih hp hp' (.inr ⟨rfl, by omega⟩)
          omega
    | succ lines =>
      obtain ⟨lines', rfl⟩ : ∃ n, lines' = n + 1 := Nat.exists_eq_succ_of_ne_zero (by omega)
      obtain ⟨p, hp, rfl⟩ := walk?_succ_cons.1 h
      obtain ⟨p', hp', rfl⟩ := walk?_succ_cons.1 h'
      have := ih hp hp' (by split <;> omega)
      omega

theorem lt_of_walk?_lt (h : walk? lines columns t = some o) (h' : walk? lines' columns' t = some o')
    (hlt : o < o') : lines < lines' ∨ lines = lines' ∧ columns < columns' := by
  by_contra hge
  rcases (by omega : lines' < lines ∨ lines' = lines ∧ columns' < columns ∨
    lines = lines' ∧ columns = columns') with hl | hc | ⟨rfl, rfl⟩
  · exact absurd (walk?_lt h' h (.inl hl)) (by omega)
  · exact absurd (walk?_lt h' h (.inr hc)) (by omega)
  · obtain rfl := Option.some.inj (h.symm.trans h')
    exact absurd hlt (Nat.lt_irrefl o)

/-- Only one walk leads to a place. -/
theorem walk?_inj (h : walk? lines columns t = some o) (h' : walk? lines' columns' t = some o) :
    lines = lines' ∧ columns = columns' := by
  have hlt := mt (walk?_lt h h') (Nat.lt_irrefl o)
  have hgt := mt (walk?_lt h' h) (Nat.lt_irrefl o)
  omega

/-- A character in front makes the line that a text ends in longer if the text has no line feed. -/
theorem takeWhile_reverse_cons (c : Char) (t : List Char) :
    ((c :: t).reverse.takeWhile (· != '\n')).length =
      (t.reverse.takeWhile (· != '\n')).length + if c = '\n' ∨ '\n' ∈ t then 0 else 1 := by
  rw [List.reverse_cons]
  by_cases ht : '\n' ∈ t
  · rw [if_pos (.inr ht), List.takeWhile_append, if_neg, Nat.add_zero]
    intro hlen
    have hall := List.takeWhile_eq_self_iff.1
      (List.IsPrefix.eq_of_length (List.takeWhile_prefix (· != '\n')) hlen)
    exact absurd (hall '\n' (List.mem_reverse.2 ht)) (by decide)
  · have hall : ∀ d ∈ t.reverse, d != '\n' := fun d hd =>
      bne_iff_ne.2 fun h => ht (h ▸ List.mem_reverse.1 hd)
    rw [List.takeWhile_append_of_pos hall, List.takeWhile_eq_self_iff.2 hall, List.length_append]
    by_cases hc : c = '\n' <;> simp [hc, ht]

/-- The walk to the end of `before`. -/
theorem walk?_append (before rest : List Char) :
    walk? (before.count '\n') (before.reverse.takeWhile (· != '\n')).length (before ++ rest) =
      some (byteLength before) := by
  induction before with
  | nil => exact walk?_zero_zero rest
  | cons c before ih =>
    rw [takeWhile_reverse_cons, List.cons_append, byteLength_cons]
    by_cases hc : c = '\n'
    · subst hc
      rw [List.count_cons_self, if_pos (.inl rfl)]
      exact walk?_succ_cons.2 ⟨_, ih, rfl⟩
    · rw [List.count_cons_of_ne hc]
      by_cases ht : '\n' ∈ before
      · obtain ⟨lines, hlines⟩ := Nat.exists_eq_succ_of_ne_zero (List.count_pos_iff.2 ht).ne'
        rw [hlines] at ih ⊢
        rw [if_pos (.inr ht)]
        exact walk?_succ_cons.2 ⟨_, by rwa [if_neg hc], rfl⟩
      · rw [List.count_eq_zero.2 ht] at ih ⊢
        rw [if_neg (by simp [hc, ht])]
        exact walk?_zero_succ_cons.2 ⟨hc, _, ih, rfl⟩

theorem exists_append_of_walk? (h : walk? lines columns t = some o) :
    ∃ before rest, t = before ++ rest ∧ byteLength before = o := by
  induction t generalizing lines columns o with
  | nil =>
    obtain ⟨-, -, rfl⟩ := walk?_nil.1 h
    exact ⟨[], [], rfl, rfl⟩
  | cons c t ih =>
    have hcons : ∀ {o'}, (∃ before rest, t = before ++ rest ∧ byteLength before = o') →
        ∃ before rest, c :: t = before ++ rest ∧ byteLength before = c.utf8Size + o' := by
      rintro _ ⟨before, rest, rfl, rfl⟩
      exact ⟨c :: before, rest, rfl, rfl⟩
    cases lines with
    | succ lines =>
      obtain ⟨o', ho', rfl⟩ := walk?_succ_cons.1 h
      exact hcons (ih ho')
    | zero =>
      cases columns with
      | zero =>
        rw [walk?_zero_zero, Option.some.injEq] at h
        exact ⟨[], c :: t, rfl, h⟩
      | succ columns =>
        obtain ⟨-, o', ho', rfl⟩ := walk?_zero_succ_cons.1 h
        exact hcons (ih ho')

end

theorem splitAtByte?_cons {c : Char} {t : List Char} {n : Nat} (hn : n ≠ 0) : splitAtByte? (c :: t) n =
    if c.utf8Size ≤ n then (splitAtByte? t (n - c.utf8Size)).map fun p => (c :: p.1, p.2) else none := by
  obtain ⟨n, rfl⟩ := Nat.exists_eq_succ_of_ne_zero hn
  rfl

theorem splitAtByte?_eq_some_iff {t before rest : List Char} {o : Nat} :
    splitAtByte? t o = some (before, rest) ↔ t = before ++ rest ∧ byteLength before = o := by
  refine ⟨fun h => ?_, fun h => ?_⟩
  · induction t generalizing o before with
    | nil =>
      cases o with
      | zero =>
        cases h
        exact ⟨rfl, rfl⟩
      | succ n => cases h
    | cons c t ih =>
      by_cases ho : o = 0
      · subst ho
        rw [splitAtByte?_zero] at h
        cases h
        exact ⟨rfl, rfl⟩
      · rw [splitAtByte?_cons ho] at h
        split at h
        · next hle =>
          obtain ⟨⟨b, r⟩, hsplit, heq⟩ := Option.map_eq_some_iff.1 h
          cases heq
          obtain ⟨rfl, hb⟩ := ih hsplit
          exact ⟨rfl, by rw [byteLength_cons, hb]; omega⟩
        · cases h
  · obtain ⟨rfl, rfl⟩ := h
    exact splitAtByte?_byteLength before rest

theorem splitsCharacter_cons {c : Char} {t : List Char} {o : Nat} : SplitsCharacter (c :: t) o ↔
    0 < o ∧ o < c.utf8Size ∨ c.utf8Size ≤ o ∧ SplitsCharacter t (o - c.utf8Size) := by
  constructor
  · rintro ⟨before, d, rest, heq, hlt, hgt⟩
    cases before with
    | nil =>
      obtain ⟨rfl, rfl⟩ := List.cons.inj heq
      exact .inl ⟨hlt, by simpa using hgt⟩
    | cons b before =>
      obtain ⟨rfl, rfl⟩ := List.cons.inj heq
      rw [byteLength_cons] at hlt hgt
      exact .inr ⟨by omega, before, d, rest, rfl, by omega, by omega⟩
  · rintro (⟨hpos, hlt⟩ | ⟨hle, before, d, rest, rfl, hlt, hgt⟩)
    · exact ⟨[], c, t, rfl, hpos, by simpa using hlt⟩
    · exact ⟨c :: before, d, rest, rfl, by rw [byteLength_cons]; omega, by rw [byteLength_cons]; omega⟩

theorem splitAtByte?_eq_none_iff {t : List Char} {o : Nat} :
    splitAtByte? t o = none ↔ byteLength t < o ∨ SplitsCharacter t o := by
  induction t generalizing o with
  | nil =>
    have hnil : ¬ SplitsCharacter [] o := by simp [SplitsCharacter]
    cases o <;> simp [splitAtByte?, hnil]
  | cons c t ih =>
    have hpos : 0 < c.utf8Size := c.utf8Size_pos
    rw [splitsCharacter_cons, byteLength_cons]
    by_cases ho : o = 0
    · subst ho
      rw [splitAtByte?_zero]
      simp only [reduceCtorEq, false_iff]
      omega
    · rw [splitAtByte?_cons ho]
      by_cases hle : c.utf8Size ≤ o
      · rw [if_pos hle, Option.map_eq_none_iff, ih]
        constructor
        · rintro (hlt | hsplits)
          · exact .inl (by omega)
          · exact .inr (.inr ⟨hle, hsplits⟩)
        · rintro (hlt | ⟨-, hlt⟩ | ⟨-, hsplits⟩)
          · exact .inl (by omega)
          · omega
          · exact .inr hsplits
      · rw [if_neg hle]
        exact iff_of_true rfl (.inr (.inl ⟨by omega, by omega⟩))

theorem utf8ByteSize_ofList (t : List Char) : (String.ofList t).utf8ByteSize = byteLength t := by
  induction t with
  | nil => rfl
  | cons c t ih =>
    rw [String.ofList_cons, String.utf8ByteSize_append, String.utf8ByteSize_singleton, ih, byteLength_cons]

end Text

namespace Location
open Text

/-- The place of an offset is read off the walk that leads to it, up to the bound of both counts. -/
theorem of?_eq_some_iff {text : String} {o : Nat} {l : Location} :
    of? text o = some l ↔ ∃ lines columns, walk? lines columns text.toList = some o ∧
      l = ⟨o, min (lines + 1) maxCount, min (columns + 1) maxCount⟩ := by
  have hafter : ∀ before : List Char, after before.reverse =
      ⟨byteLength before, min (before.count '\n' + 1) maxCount,
        min ((before.reverse.takeWhile (· != '\n')).length + 1) maxCount⟩ := by
    intro before
    rw [after, byteLength_reverse, List.count_reverse]
  rw [of?, Option.map_eq_some_iff]
  constructor
  · rintro ⟨⟨before, rest⟩, hsplit, rfl⟩
    obtain ⟨htext, rfl⟩ := splitAtByte?_eq_some_iff.1 hsplit
    rw [htext]
    exact ⟨_, _, walk?_append before rest, hafter before⟩
  · rintro ⟨lines, columns, hwalk, rfl⟩
    obtain ⟨before, rest, htext, rfl⟩ := exists_append_of_walk? hwalk
    rw [htext] at hwalk
    obtain ⟨rfl, rfl⟩ := walk?_inj hwalk (walk?_append before rest)
    exact ⟨(before, rest), splitAtByte?_eq_some_iff.2 ⟨htext, rfl⟩, hafter before⟩

theorem of?_eq_none_iff {text : String} {o : Nat} :
    of? text o = none ↔ text.utf8ByteSize < o ∨ SplitsCharacter text.toList o := by
  rw [of?, Option.map_eq_none_iff, splitAtByte?_eq_none_iff, ← utf8ByteSize_ofList, String.ofList_toList]

/-- The offset is counted in full: neither its line nor its column is beyond what a place can hold. -/
def IsCounted (text : String) (offset : Nat) : Prop :=
  ∃ lines columns, walk? lines columns text.toList = some offset ∧
    lines + 1 < 2 ^ 32 ∧ columns + 1 < 2 ^ 32

theorem IsCounted.walk? {text : String} {o : Nat} {l : Location} (h : IsCounted text o)
    (hl : of? text o = some l) : Text.walk? (l.line - 1) (l.column - 1) text.toList = some o := by
  obtain ⟨lines, columns, hwalk, hline, hcolumn⟩ := h
  obtain ⟨lines', columns', hwalk', rfl⟩ := of?_eq_some_iff.1 hl
  obtain ⟨rfl, rfl⟩ := walk?_inj hwalk hwalk'
  have hmax : maxCount = 2 ^ 32 - 1 := rfl
  have hlines : min (lines + 1) maxCount - 1 = lines := by omega
  have hcolumns : min (columns + 1) maxCount - 1 = columns := by omega
  rw [hlines, hcolumns, hwalk]

theorem one_le_of_of? {text : String} {o : Nat} {l : Location} (hl : of? text o = some l) :
    1 ≤ l.line ∧ 1 ≤ l.column := by
  obtain ⟨lines, columns, -, rfl⟩ := of?_eq_some_iff.1 hl
  have hmax : maxCount = 2 ^ 32 - 1 := rfl
  constructor <;> simp only <;> omega

/-- A place tells its offset: it counts the line feeds and then the characters of the walk that leads
there, each count up to a bound. Below the bound one can walk back, and the order of lines and columns is
that of the offsets. There is no place beyond the text or within a character, and nowhere else none. -/
theorem of?_walks_back (text : String) :
    (∀ o l, of? text o = some l ↔ ∃ lines columns, walk? lines columns text.toList = some o ∧
      l = ⟨o, min (lines + 1) (2 ^ 32 - 1), min (columns + 1) (2 ^ 32 - 1)⟩) ∧
    (∀ o, of? text o = none ↔ text.utf8ByteSize < o ∨ SplitsCharacter text.toList o) ∧
    (∀ o l, IsCounted text o → of? text o = some l →
      walk? (l.line - 1) (l.column - 1) text.toList = some o) ∧
    ∀ o o' l l', o < o' → IsCounted text o → IsCounted text o' →
      of? text o = some l → of? text o' = some l' →
      Prod.Lex (· < ·) (· < ·) (l.line, l.column) (l'.line, l'.column) := by
  refine ⟨fun o l => of?_eq_some_iff, fun o => of?_eq_none_iff, fun o l h hl => h.walk? hl, ?_⟩
  intro o o' l l' hlt h h' hl hl'
  have hline := one_le_of_of? hl
  have hline' := one_le_of_of? hl'
  rw [Prod.lex_def]
  rcases lt_of_walk?_lt (h.walk? hl) (h'.walk? hl') hlt with hlines | ⟨hlines, hcolumns⟩
  · exact .inl (show l.line < l'.line by omega)
  · exact .inr ⟨show l.line = l'.line by omega, show l.column < l'.column by omega⟩

/-- Behind a character of two bytes, and in the line below it. -/
theorem of?_walks_back_two_lines :
    let text := "é\nab"
    IsCounted text 2 ∧ IsCounted text 4 ∧ of? text 1 = none ∧ walk? 1 1 text.toList = some 4 ∧
      Prod.Lex (· < ·) (· < ·) (1, 2) (2, 2) := by
  intro text
  obtain ⟨-, hnone, hwalk, hlex⟩ := of?_walks_back text
  have hfirst : IsCounted text 2 := ⟨0, 1, by decide, by decide, by decide⟩
  have hsecond : IsCounted text 4 := ⟨1, 1, by decide, by decide, by decide⟩
  have hl : of? text 2 = some ⟨2, 1, 2⟩ := by decide
  have hl' : of? text 4 = some ⟨4, 2, 2⟩ := by decide
  have hsplits : SplitsCharacter text.toList 1 := ⟨[], 'é', "\nab".toList, by decide, by decide, by decide⟩
  exact ⟨hfirst, hsecond, (hnone 1).2 (.inr hsplits), hwalk 4 _ hsecond hl',
    hlex 2 4 _ _ (by decide) hfirst hsecond hl hl'⟩

end Location
end SqlScript
