import SqlScript.Proofs.Lexing.Lexeme

/-!
# Lexings and their units

`lex_cons_of_ok` and `lex_cons_of_error` take one lexeme off a lexing, `lex_induction` is the
induction that goes with them, `sourceUnits_append` takes the first unit off a list of lexemes. Until
a unit has a significant lexeme it is padding (`isPadding_of_open`), and the first significant lexeme
decides whether it is procedural (`startsProcedural_append`). Blanks at the ends of a unit do not show
in its statement.
-/

namespace SqlScript
open Text

/-- The lexing with the lexemes `g` in front. -/
def Lexing.after (g : List Lexeme) (L : Lexing) : Lexing :=
  { L with lexemes := g ++ L.lexemes }

section
variable {v : Vendor} {before text : List Char} {c : Char} {l : Lexeme}

@[simp] theorem lex_nil (v : Vendor) (before : List Char) : lex v before [] = ⟨[], [], none⟩ := by
  rw [lex]

theorem lex_cons_of_error {f : Unterminated} (h : lexeme v before c text = .error f) :
    lex v before (c :: text) = ⟨[], c :: text, some f⟩ := by
  rw [lex, h]

theorem lex_cons_of_ok (hv : v.Plain) (h : lexeme v before c text = .ok l) {rest : List Char}
    (hrest : l.text ++ rest = c :: text) :
    lex v before (c :: text) = (lex v (l.text.reverse ++ before) rest).after [l] := by
  obtain ⟨more, hl, -⟩ := lexeme_text hv h
  have hdrop : text.drop (l.text.length - 1) = rest := by
    rw [hl, List.cons_append] at hrest
    simp [hl, ← (List.cons.inj hrest).2]
  rw [lex, h]
  simp [Lexing.after, hdrop]

/-- A lexing goes from a lexeme to the text behind it, until that is empty or begins with what never
closes. -/
theorem lex_induction (hv : v.Plain) {motive : List Char → List Char → Prop}
    (nil : ∀ before, motive before [])
    (error : ∀ before c text failure, lexeme v before c text = .error failure →
      motive before (c :: text))
    (ok : ∀ before c text l rest, lexeme v before c text = .ok l → l.text ++ rest = c :: text →
      motive (l.text.reverse ++ before) rest → motive before (c :: text))
    (before text : List Char) : motive before text := by
  induction hn : text.length using Nat.strongRecOn generalizing before text with
  | ind n ih =>
    cases text with
    | nil => exact nil before
    | cons c text =>
      cases h : lexeme v before c text with
      | error failure => exact error before c text failure h
      | ok l =>
        obtain ⟨more, hl, rest, hrest⟩ := lexeme_text hv h
        have hlt : rest.length < n := by
          rw [← hn, ← hrest, List.length_cons, List.length_append]
          omega
        exact ok before c text l rest h (by rw [hl, ← hrest, List.cons_append]) (ih _ hlt _ rest rfl)

theorem join_lex (hv : v.Plain) (before text : List Char) :
    Lexeme.join (lex v before text).lexemes ++ (lex v before text).tail = text := by
  induction before, text using lex_induction hv with
  | nil before => simp [Lexeme.join]
  | error before c text failure h => simp [lex_cons_of_error h, Lexeme.join]
  | ok before c text l rest h hrest ih =>
    rw [lex_cons_of_ok hv h hrest, ← hrest]
    simpa [Lexing.after, Lexeme.join] using ih

theorem lex_tail_eq_nil (hv : v.Plain) (h : (lex v before text).failure = none) :
    (lex v before text).tail = [] := by
  induction before, text using lex_induction hv with
  | nil before => simp
  | error before c text failure hl => rw [lex_cons_of_error hl] at h; cases h
  | ok before c text l rest hl hrest ih =>
    rw [lex_cons_of_ok hv hl hrest] at h ⊢
    exact ih h

end

namespace Lexeme
variable {v : Vendor} {l : Lexeme}

@[simp] theorem join_nil : join [] = [] := rfl
@[simp] theorem join_cons (l : Lexeme) (ls : List Lexeme) : join (l :: ls) = l.text ++ join ls := rfl
@[simp] theorem join_append (g ls : List Lexeme) : join (g ++ ls) = join g ++ join ls :=
  List.flatMap_append

theorem isPadding_of_not_ends (hs : l.isSignificant = false) (he : l.ends v false = false) :
    l.isPadding := by
  simp only [ends, isSignificant, Bool.or_eq_false_iff, Bool.not_false, Bool.true_or,
    Bool.and_true] at hs he
  simp_all

theorem ends_of_isPadding (hl : l.isPadding) (p : Bool) : l.ends v p = false := by
  unfold isPadding isBlank isComment at hl
  unfold ends isSemicolon
  cases hk : l.kind <;> simp_all
  intro hsemi
  simp [hsemi] at hl
  exact absurd hl (by decide)

theorem not_isSignificant_of_isPadding (hl : l.isPadding) : l.isSignificant = false := by
  simp [isSignificant, hl]

theorem not_isPadding_of_ends {p : Bool} (he : l.ends v p) : l.isPadding = false := by
  by_contra h
  rw [ends_of_isPadding (by simpa using h)] at he
  cases he

theorem not_isSignificant_of_ends {p : Bool} (he : l.ends v p) : l.isSignificant = false := by
  simp only [ends, Bool.or_eq_true, Bool.and_eq_true, beq_iff_eq] at he
  rcases he with hk | ⟨hsemi, -⟩
  · simp [isSignificant, hk]
  · simp [isSignificant, hsemi]

theorem isBlank_of_mem (hl : l.isBlank) : ∀ c ∈ l.text, Text.isBlank c := by
  simp only [isBlank, Bool.and_eq_true, List.all_eq_true] at hl
  exact hl.2

theorem isBlank_of_mem_join {ls : List Lexeme} (hls : ∀ l ∈ ls, l.isBlank) :
    ∀ c ∈ join ls, Text.isBlank c := by
  simp only [join, List.mem_flatMap]
  rintro c ⟨l, hl, hc⟩
  exact isBlank_of_mem (hls l hl) c hc

theorem isPadding_of_isBlank (hl : l.isBlank) : l.isPadding := by
  simp [isPadding, hl]

theorem endInLineComment_concat (g : List Lexeme) (l : Lexeme) :
    endInLineComment (g ++ [l]) =
      if l.isBlank then endInLineComment g else l.kind == .lineComment := by
  cases h : l.isBlank <;> simp [endInLineComment, h]

theorem endInLineComment_cons (hl : l.isBlank) (g : List Lexeme) :
    endInLineComment (l :: g) = endInLineComment g := by
  unfold endInLineComment
  rw [List.reverse_cons, List.dropWhile_append]
  cases h : g.reverse.dropWhile (·.isBlank) <;> simp [hl]

end Lexeme

namespace SourceUnit
variable {v : Vendor} {tail : List Char} {g ls : List Lexeme} {l : Lexeme}

theorem startsProcedural_append_of_isPadding (hg : ∀ l ∈ g, l.isPadding) (ls : List Lexeme) :
    startsProcedural v tail (g ++ ls) = startsProcedural v tail ls := by
  unfold startsProcedural
  rw [List.dropWhile_append_of_pos hg]

theorem startsProcedural_cons (hl : l.isPadding = false) :
    startsProcedural v tail (l :: ls) =
      (l.isSignificant && v.isProceduralStart (Lexeme.join (l :: ls) ++ tail)) := by
  simp [startsProcedural, hl]

/-- What is more than padding decides, whatever is behind it. -/
theorem startsProcedural_append {l : Lexeme} {more : List Lexeme} (hg : g.dropWhile (·.isPadding) = l :: more)
    (ls : List Lexeme) : startsProcedural v tail (g ++ ls) =
      (l.isSignificant && v.isProceduralStart (Lexeme.join (l :: more) ++ (Lexeme.join ls ++ tail))) := by
  have hdrop : (g ++ ls).dropWhile (·.isPadding) = l :: (more ++ ls) := by
    rw [List.dropWhile_append, hg]; rfl
  simp [startsProcedural, hdrop]

/-- A unit without a significant lexeme is padding as long as nothing ends it. -/
theorem isPadding_of_open (hopen : ∀ l ∈ g, l.ends v (startsProcedural v tail (g ++ ls)) = false)
    (hs : g.any (·.isSignificant) = false) : ∀ l ∈ g, l.isPadding := by
  induction g with
  | nil => simp
  | cons m g ih =>
    simp only [List.any_cons, Bool.or_eq_false_iff] at hs
    by_cases hm : m.isPadding
    · have hp : startsProcedural v tail (m :: g ++ ls) = startsProcedural v tail (g ++ ls) :=
        startsProcedural_append_of_isPadding (g := [m]) (by simpa using hm) _
      rw [hp] at hopen
      simpa [hm] using ih (fun l hl => hopen l (by simp [hl])) hs.2
    · -- `m` is no padding and not significant, so it would have ended the unit
      have hp : startsProcedural v tail (m :: g ++ ls) = false := by
        rw [List.cons_append, startsProcedural_cons (by simpa using hm), hs.1, Bool.false_and]
      rw [hp] at hopen
      exact absurd (Lexeme.isPadding_of_not_ends hs.1 (hopen m (by simp))) hm

end SourceUnit

section
variable {v : Vendor} {tail : List Char} {g : List Lexeme}

theorem sourceUnits_of_open
    (hopen : ∀ l ∈ g, l.ends v (SourceUnit.startsProcedural v tail g) = false) :
    sourceUnits v tail g = [⟨g, SourceUnit.startsProcedural v tail g⟩] := by
  have htake : g.takeWhile (!·.ends v (SourceUnit.startsProcedural v tail g)) = g :=
    List.takeWhile_eq_self_iff.2 (by simpa using hopen)
  have hdrop : g.dropWhile (!·.ends v (SourceUnit.startsProcedural v tail g)) = [] :=
    List.dropWhile_eq_nil_iff.2 (by simpa using hopen)
  rw [sourceUnits]
  split
  · rw [htake]
  · next h => rw [hdrop] at h; cases h

theorem sourceUnits_append {l : Lexeme} {ls : List Lexeme}
    (hopen : ∀ m ∈ g, m.ends v (SourceUnit.startsProcedural v tail (g ++ l :: ls)) = false)
    (hl : l.ends v (SourceUnit.startsProcedural v tail (g ++ l :: ls)) = true) :
    sourceUnits v tail (g ++ l :: ls) =
      ⟨g, SourceUnit.startsProcedural v tail (g ++ l :: ls)⟩ :: sourceUnits v tail ls := by
  have htake : (g ++ l :: ls).takeWhile
      (!·.ends v (SourceUnit.startsProcedural v tail (g ++ l :: ls))) = g := by
    rw [List.takeWhile_append_of_pos (by simpa using hopen)]; simp [hl]
  have hdrop : (g ++ l :: ls).dropWhile
      (!·.ends v (SourceUnit.startsProcedural v tail (g ++ l :: ls))) = l :: ls := by
    rw [List.dropWhile_append_of_pos (by simpa using hopen)]; simp [hl]
  rw [sourceUnits]
  split
  · next h => rw [hdrop] at h; cases h
  · next h => rw [hdrop] at h; cases h; rw [htake]

theorem sourceUnits_ne_nil (v : Vendor) (tail : List Char) (ls : List Lexeme) :
    sourceUnits v tail ls ≠ [] := by
  rw [sourceUnits]; split <;> simp

theorem sourceUnits_cases (v : Vendor) (p : Bool) (ls : List Lexeme) :
    (∀ l ∈ ls, l.ends v p = false) ∨
      ∃ g e more, ls = g ++ e :: more ∧ (∀ l ∈ g, l.ends v p = false) ∧ e.ends v p = true := by
  have hsplit : ls.takeWhile (!·.ends v p) ++ ls.dropWhile (!·.ends v p) = ls :=
    List.takeWhile_append_dropWhile
  have hg : ∀ l ∈ ls.takeWhile (!·.ends v p), l.ends v p = false := fun l hl => by
    simpa using List.mem_takeWhile_imp hl
  cases h : ls.dropWhile (!·.ends v p) with
  | nil => exact .inl (by rw [h, List.append_nil] at hsplit; rwa [hsplit] at hg)
  | cons e more =>
    refine .inr ⟨_, e, more, (h ▸ hsplit).symm, hg, ?_⟩
    have := List.head?_dropWhile_not (!·.ends v p) ls
    simpa [h] using this

theorem Lexing.complete_cons (f : Option Unterminated) (u : SourceUnit) (ls : List Lexeme) :
    complete f (u :: sourceUnits v tail ls) = u :: complete f (sourceUnits v tail ls) := by
  unfold complete
  split
  · exact List.dropLast_cons_of_ne_nil (sourceUnits_ne_nil v tail ls)
  · rfl

end

namespace SourceUnit
variable {g : List Lexeme} {l : Lexeme} {p : Bool}

theorem statement?_cons_blank (hl : l.isBlank) : statement? ⟨l :: g, p⟩ = statement? ⟨g, p⟩ := by
  simp only [statement?, List.any_cons, Lexeme.join_cons, Lexeme.endInLineComment_cons hl,
    Lexeme.not_isSignificant_of_isPadding (Lexeme.isPadding_of_isBlank hl), Bool.false_or,
    trim_blank_append (Lexeme.isBlank_of_mem hl)]

theorem statement?_concat_blank (hl : l.isBlank) : statement? ⟨g ++ [l], p⟩ = statement? ⟨g, p⟩ := by
  simp only [statement?, List.any_append, List.any_cons, List.any_nil, Lexeme.join_append,
    Lexeme.join_cons, Lexeme.join_nil, List.append_nil, Lexeme.endInLineComment_concat, hl, if_true,
    Lexeme.not_isSignificant_of_isPadding (Lexeme.isPadding_of_isBlank hl), Bool.or_false,
    trim_append_blank (Lexeme.isBlank_of_mem hl)]

theorem statement?_blanks_append {b : List Lexeme} (hb : ∀ l ∈ b, l.isBlank) :
    statement? ⟨b ++ g, p⟩ = statement? ⟨g, p⟩ := by
  induction b with
  | nil => rfl
  | cons l b ih =>
    simp only [List.forall_mem_cons] at hb
    rw [List.cons_append, statement?_cons_blank hb.1, ih hb.2]

theorem statement?_append_blanks {b : List Lexeme} (hb : ∀ l ∈ b, l.isBlank) :
    statement? ⟨g ++ b, p⟩ = statement? ⟨g, p⟩ := by
  induction b generalizing g with
  | nil => rw [List.append_nil]
  | cons l b ih =>
    simp only [List.forall_mem_cons] at hb
    rw [← List.singleton_append, ← List.append_assoc, ih hb.2, statement?_concat_blank hb.1]

/-- Nor do blanks at the end of a comment that goes on to the end of the line. -/
theorem statement?_concat_lineComment {t t' : List Char} (h : trimEnd t = trimEnd t') :
    statement? ⟨g ++ [⟨.lineComment, t⟩], p⟩ = statement? ⟨g ++ [⟨.lineComment, t'⟩], p⟩ := by
  have htrim : trim (Lexeme.join g ++ t) = trim (Lexeme.join g ++ t') := by
    obtain ⟨b, hb, hblank⟩ := trimEnd_append_blank t
    obtain ⟨b', hb', hblank'⟩ := trimEnd_append_blank t'
    rw [hb, hb', h, ← List.append_assoc, ← List.append_assoc, trim_append_blank hblank,
      trim_append_blank hblank']
  simp only [statement?, List.any_append, List.any_cons, List.any_nil, Lexeme.join_append,
    Lexeme.join_cons, Lexeme.join_nil, List.append_nil, Lexeme.endInLineComment_concat, htrim]
  rfl

end SourceUnit

namespace Lexing
variable {v : Vendor} {g : List Lexeme} {e : Lexeme} {L : Lexing}

/-- The statements that a lexing amounts to. -/
def script (v : Vendor) (L : Lexing) : Script :=
  (complete L.failure (sourceUnits v L.tail L.lexemes)).filterMap (·.statement?)

theorem splitting_eq (v : Vendor) (L : Lexing) : L.splitting v = ⟨L.script v, L.failure⟩ := rfl

/-- The first unit, if a lexeme ends it, is a statement of its own. -/
theorem script_after {p : Bool}
    (hp : SourceUnit.startsProcedural v L.tail (g ++ e :: L.lexemes) = p)
    (hopen : ∀ l ∈ g, l.ends v p = false) (he : e.ends v p = true) :
    (L.after (g ++ [e])).script v = (SourceUnit.statement? ⟨g, p⟩).toList ++ L.script v := by
  subst hp
  simp only [script, after, List.append_assoc, List.singleton_append]
  rw [sourceUnits_append hopen he, complete_cons, List.filterMap_cons]
  cases SourceUnit.statement? _ <;> rfl

theorem after_after (g ls : List Lexeme) (L : Lexing) : (L.after ls).after g = L.after (g ++ ls) := by
  simp [after]

theorem script_of_open {tail : List Char} {p : Bool} (hp : SourceUnit.startsProcedural v tail g = p)
    (hopen : ∀ l ∈ g, l.ends v p = false) :
    script v ⟨g, tail, none⟩ = (SourceUnit.statement? ⟨g, p⟩).toList := by
  subst hp
  simp only [script, sourceUnits_of_open hopen, complete]
  cases h : SourceUnit.statement? _ <;> simp [h]

@[simp] theorem script_nil (v : Vendor) : script v ⟨[], [], none⟩ = [] :=
  script_of_open (g := []) rfl (List.forall_mem_nil _)

/-- A unit that what never closes stands in makes no statement. -/
theorem script_of_open_failure {tail : List Char} {p : Bool}
    (hp : SourceUnit.startsProcedural v tail g = p) (hopen : ∀ l ∈ g, l.ends v p = false)
    (failure : Unterminated) : script v ⟨g, tail, some failure⟩ = [] := by
  subst hp
  simp [script, sourceUnits_of_open hopen, complete]

/-- The statements do not depend on where a failure is. -/
theorem script_congr {ls : List Lexeme} {tail : List Char} {f f' : Option Unterminated}
    (h : f.isSome = f'.isSome) : script v ⟨ls, tail, f⟩ = script v ⟨ls, tail, f'⟩ := by
  simp only [script, complete, h]

theorem script_after_blank {l : Lexeme} (hl : l.isBlank) (L : Lexing) :
    (L.after [l]).script v = L.script v := by
  obtain ⟨ls, tail, f⟩ := L
  have hp : SourceUnit.startsProcedural v tail (l :: ls) = SourceUnit.startsProcedural v tail ls :=
    SourceUnit.startsProcedural_append_of_isPadding (g := [l])
      (by simpa using Lexeme.isPadding_of_isBlank hl) ls
  have hends := Lexeme.ends_of_isPadding (v := v) (Lexeme.isPadding_of_isBlank hl)
  simp only [script, after, List.singleton_append]
  rcases sourceUnits_cases v (SourceUnit.startsProcedural v tail ls) ls with
    hopen | ⟨g, e, more, rfl, hopen, he⟩
  · rw [sourceUnits_of_open hopen, sourceUnits_of_open (by simpa [hp, hends] using hopen), hp]
    cases f with
    | some f => rfl
    | none => simp [complete, List.filterMap_cons, SourceUnit.statement?_cons_blank hl]
  · rw [sourceUnits_append hopen he, ← List.cons_append,
      sourceUnits_append (by simpa [hp, hends] using hopen) (by simpa [hp] using he),
      complete_cons, complete_cons, List.filterMap_cons, List.filterMap_cons, List.cons_append, hp,
      SourceUnit.statement?_cons_blank hl]

theorem script_after_blanks {b : List Lexeme} (hb : ∀ l ∈ b, l.isBlank) (L : Lexing) :
    (L.after b).script v = L.script v := by
  induction b with
  | nil => rfl
  | cons l b ih =>
    simp only [List.forall_mem_cons] at hb
    rw [← List.singleton_append, ← after_after, script_after_blank hb.1, ih hb.2]

end Lexing
end SqlScript
