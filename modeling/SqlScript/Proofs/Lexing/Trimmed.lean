import Mathlib.Data.List.DropRight
import SqlScript.Proofs.Lexing.Context

/-!
# Units without the blanks at their ends

The statement of a unit is the text of its lexemes without the blanks at both ends; a comment to the
end of the line that comes last keeps its text and a line feed. `Lexeme.Parts` takes the lexemes of a
unit apart accordingly, and `Lexeme.Parts.text_eq` says that what is left is the text of lexemes again.
-/

namespace SqlScript
open Text

theorem line_feed_notMem_trimEnd_wholeLine (t : List Char) : '\n' ∉ trimEnd (wholeLine t) := by
  have hsub : ∀ u, '\n' ∈ trimEnd u → '\n' ∈ u := fun u h => by
    obtain ⟨b, hb, -⟩ := trimEnd_append_blank u
    rw [hb]
    exact List.mem_append_left b h
  by_cases ht : '\n' ∈ t
  · rw [wholeLine_of_mem ht, trimEnd_append_of_blank blank_lineFeed]
    exact fun h => line_feed_notMem_firstLine t (hsub _ h)
  · rw [wholeLine_eq_self ht]
    exact fun h => ht (hsub _ h)

namespace Lexeme

/-- What comes last, and what is left of it: a comment to the end of the line is cut to its text and a
line feed. -/
inductive Closing : (y y' : List Lexeme) → Prop
  | none : Closing [] []
  | comment (t : List Char) : Closing [⟨.lineComment, t⟩] [⟨.lineComment, trimEnd t ++ ['\n']⟩]

/-- Lexemes by their parts: blanks at the ends, and a comment to the end of the line if it comes last,
blanks aside. -/
structure Parts (ls lead mid y y' trail : List Lexeme) : Prop where
  eq : ls = lead ++ (mid ++ (y ++ trail))
  lead : ∀ l ∈ lead, l.isBlank
  trail : ∀ l ∈ trail, l.isBlank
  closing : Closing y y'
  first : ∀ l ∈ mid.head?, l.isBlank = false
  last : y = [] → ∀ l ∈ mid.getLast?, l.isBlank = false ∧ l.kind ≠ .lineComment

theorem exists_parts (ls : List Lexeme) : ∃ lead mid y y' trail, Parts ls lead mid y y' trail := by
  have hlead : ∀ l ∈ ls.takeWhile (·.isBlank), l.isBlank := fun l hl => List.mem_takeWhile_imp hl
  have hls : ls = ls.takeWhile (·.isBlank) ++ ls.dropWhile (·.isBlank) :=
    List.takeWhile_append_dropWhile.symm
  have hfirst : ∀ l ∈ (ls.dropWhile (·.isBlank)).head?, l.isBlank = false := by
    intro l hl
    have := List.head?_dropWhile_not (·.isBlank) ls
    simpa [Option.mem_def.1 hl] using this
  generalize ls.dropWhile (·.isBlank) = rest at hls hfirst
  have htrail : ∀ l ∈ rest.rtakeWhile (·.isBlank), l.isBlank := fun l hl => List.mem_rtakeWhile_imp hl
  have hrest : rest.rdropWhile (·.isBlank) ++ rest.rtakeWhile (·.isBlank) = rest :=
    List.rdropWhile_append_rtakeWhile
  have hlast := List.rdropWhile_last_not (·.isBlank) rest
  generalize rest.rdropWhile (·.isBlank) = core at hrest hlast
  generalize rest.rtakeWhile (·.isBlank) = trail at hrest htrail
  subst hrest
  rcases core.eq_nil_or_concat' with rfl | ⟨m, z, rfl⟩
  · exact ⟨_, [], [], [], _, hls, hlead, htrail, .none, nofun, nofun⟩
  · have hz : z.isBlank = false := by simpa using hlast (by simp)
    by_cases hk : z.kind = .lineComment
    · obtain ⟨k, t⟩ := z
      obtain rfl : k = .lineComment := hk
      refine ⟨_, m, _, _, _, by simpa using hls, hlead, htrail, .comment t, fun l hl => hfirst l ?_, nofun⟩
      rw [List.append_assoc, List.head?_append_of_ne_nil _ (by rintro rfl; cases hl)]
      exact hl
    · refine ⟨_, m ++ [z], [], [], _, by simpa using hls, hlead, htrail, .none, fun l hl => hfirst l ?_, ?_⟩
      · rw [List.head?_append_of_ne_nil _ (by simp)]
        exact hl
      · intro _ l hl
        obtain rfl : z = l := by simpa using hl
        exact ⟨hz, hk⟩

namespace Parts
variable {v : Vendor} {before z : List Char} {ls lead mid y y' trail : List Lexeme} {p : Bool}

theorem statement?_eq (h : Parts ls lead mid y y' trail) :
    SourceUnit.statement? ⟨ls, p⟩ = SourceUnit.statement? ⟨mid ++ y', p⟩ := by
  rw [h.eq, SourceUnit.statement?_blanks_append h.lead, ← List.append_assoc,
    SourceUnit.statement?_append_blanks h.trail]
  rcases h.closing with _ | t
  · rfl
  · have htrim : trimEnd (trimEnd t ++ ['\n']) = trimEnd t := by
      obtain ⟨b, hb, hblank⟩ := trimEnd_append_blank t
      conv_rhs => rw [hb, trimEnd_append_of_blank hblank]
      rw [trimEnd_append_of_blank blank_lineFeed]
    exact SourceUnit.statement?_concat_lineComment htrim.symm

/-- A comment that comes last is cut to its dashes and what is visible of its line. -/
theorem comment_eq (hv : v.Plain) {t : List Char} (h : Parts ls lead mid [⟨.lineComment, t⟩] y' trail)
    (hls : Lexes v z before ls) :
    ∃ u w, t = '-' :: '-' :: u ∧ trimEnd t = '-' :: '-' :: w ∧ '\n' ∉ w := by
  rw [h.eq, ← List.append_assoc] at hls
  obtain ⟨u, ht, hu⟩ := (hls.reads (lead ++ mid)).lineComment_eq hv rfl
  refine ⟨u, trimEnd u, ht, ?_, ?_⟩
  · rw [show t = _ from ht, trimEnd_cons (by decide), trimEnd_cons (by decide)]
  · rw [hu]
    exact line_feed_notMem_trimEnd_wholeLine _

theorem not_isBlank_head (hv : v.Plain) (h : Parts ls lead mid y y' trail) (hls : Lexes v z before ls)
    (hkind : ∀ l ∈ ls, l.kind ≠ .markerLine) : ∀ c ∈ (join (mid ++ y')).head?, Text.isBlank c = false := by
  cases mid with
  | nil =>
    rcases h.closing with _ | t
    · nofun
    · obtain ⟨-, w, -, htrim, -⟩ := h.comment_eq hv hls
      intro c hc
      simp only [List.nil_append, join_cons, htrim, List.cons_append, List.head?_cons, Option.mem_def,
        Option.some.injEq] at hc
      subst hc
      decide
  | cons l m =>
    have hls' := hls
    rw [h.eq, List.cons_append] at hls'
    obtain ⟨d, more, hd, hblank, -⟩ := (hls'.reads lead).begins hv (hkind l (by simp [h.eq]))
    intro c hc
    obtain rfl : d = c := by simpa [hd] using hc
    rw [← hblank]
    exact h.first l (by simp)

theorem mem_mid (h : Parts ls lead mid y y' trail) {l : Lexeme} (hl : l ∈ ls) (hsig : l.isSignificant) :
    l ∈ mid := by
  have hpad : ¬ l.isPadding := fun hpad => by simp [not_isSignificant_of_isPadding hpad] at hsig
  rw [h.eq, List.mem_append, List.mem_append, List.mem_append] at hl
  rcases hl with hl | hl | hl | hl
  · exact absurd (isPadding_of_isBlank (h.lead l hl)) hpad
  · exact hl
  · rcases h.closing with _ | t
    · cases hl
    · obtain rfl := List.mem_singleton.1 hl
      exact absurd rfl hpad
  · exact absurd (isPadding_of_isBlank (h.trail l hl)) hpad

/-- A comment before what comes last has its line feed. -/
theorem line_feed_mem (hv : v.Plain) (h : Parts ls lead mid y y' trail) (hls : Lexes v z before ls)
    {l : Lexeme} (hl : l ∈ mid) (hk : l.kind = .lineComment) : '\n' ∈ l.text := by
  obtain ⟨a, b, rfl⟩ := List.append_of_mem hl
  by_contra hopen
  have hne := hls.text_ne_nil hv
  rw [h.eq, List.append_assoc a, List.cons_append, ← List.append_assoc] at hls
  have hnil := (hls.reads (lead ++ a)).eq_nil_of_open hv (.inl hk) hopen
  have hrest : b ++ (y ++ trail) = [] := by
    refine List.eq_nil_iff_forall_not_mem.2 fun m hm => hne m (by simp [h.eq] at hm ⊢; tauto) ?_
    simp only [List.append_eq_nil_iff, join, List.flatMap_eq_nil_iff] at hnil
    exact hnil.1 m hm
  simp only [List.append_eq_nil_iff] at hrest
  exact (h.last hrest.2.1 l (by simp [hrest.1])).2 hk

/-- What is left is the text of its lexemes, without more ado. -/
theorem text_eq (hv : v.Plain) (h : Parts ls lead mid y y' trail) (hls : Lexes v z before ls)
    (hkind : ∀ l ∈ ls, l.kind ≠ .markerLine) :
    trim (join (mid ++ y')) ++ (if endInLineComment (mid ++ y') then ['\n'] else []) = join (mid ++ y') := by
  have hhead := h.not_isBlank_head hv hls hkind
  rcases h.closing with hy | t
  · rw [List.append_nil] at hhead ⊢
    rcases mid.eq_nil_or_concat' with rfl | ⟨m, l, rfl⟩
    · rfl
    · obtain ⟨hblank, hline⟩ := h.last rfl l (by simp)
      have hls' := hls
      rw [h.eq, List.append_assoc, List.singleton_append, ← List.append_assoc] at hls'
      obtain ⟨t, c, ht, hc⟩ := (hls'.reads (lead ++ m)).ends hv (hkind l (by simp [h.eq])) hline hblank
      have hend : endInLineComment (m ++ [l]) = false := by
        simp [endInLineComment_concat, hblank, hline]
      rw [hend, trim_eq_self hhead fun d hd => ?_]
      · simp
      · obtain rfl : c = d := by simpa [ht] using hd
        exact hc
  · obtain ⟨-, w, -, htrim, -⟩ := h.comment_eq hv hls
    have hend : endInLineComment (mid ++ [⟨.lineComment, trimEnd t ++ ['\n']⟩]) = true := by
      simp [endInLineComment_concat, isBlank]
    have hjoin : join (mid ++ [⟨.lineComment, trimEnd t ++ ['\n']⟩]) =
        join mid ++ trimEnd t ++ ['\n'] := by simp
    rw [hend, hjoin, trim_append_blank blank_lineFeed, trim_eq_self (fun c hc => ?_) fun c hc => ?_]
    · rfl
    · refine hhead c ?_
      rw [hjoin, List.head?_append_of_ne_nil _ (by simp [htrim])]
      exact hc
    · rcases (trimEnd t).eq_nil_or_concat' with hnil | ⟨u, d, hu⟩
      · simp [htrim] at hnil
      · obtain rfl : d = c := by simpa [hu] using hc
        exact not_isBlank_of_trimEnd hu

end Parts
end Lexeme
end SqlScript
