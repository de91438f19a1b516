import SqlScript.Proofs.Lexing.Trimmed
import SqlScript.Proofs.Vendor.Marker

/-!
# Where units stand

A complete unit stands between two ends of units (`SourceUnit.Occurs`), the first at the start of the
script and the last, if nothing is open, at its end. No word comes into a unit from what ends the one
before (`SourceUnit.Occurs.endsWord`).
-/

namespace SqlScript
open Text

/-- The unit stands in the script with the lexemes `ls` between what is before it and what is behind
it. Nothing behind it means that nothing is open at the end. -/
structure SourceUnit.Occurs (v : Vendor) (tail : List Char) (open? : Bool) (ls : List Lexeme)
    (u : SourceUnit) (pre post : List Lexeme) : Prop where
  lexemes : ls = pre ++ (u.lexemes ++ post)
  procedural : u.procedural = startsProcedural v tail (u.lexemes ++ post)
  unended : ∀ l ∈ u.lexemes, l.ends v u.procedural = false
  before : ∀ e ∈ pre.getLast?, ∃ p, e.ends v p
  behind : ∀ e ∈ post.head?, e.ends v u.procedural
  closed : post = [] → open? = false

section
variable {v : Vendor} {tail : List Char} {ls : List Lexeme} {u : SourceUnit}

/-- Every complete unit stands somewhere. -/
theorem exists_occurs {f : Option Unterminated}
    (hu : u ∈ Lexing.complete f (sourceUnits v tail ls)) :
    ∃ pre post, u.Occurs v tail f.isSome ls pre post := by
  induction hn : ls.length using Nat.strongRecOn generalizing ls with
  | ind n ih =>
    rcases sourceUnits_cases v (SourceUnit.startsProcedural v tail ls) ls with
      hopen | ⟨g, e, more, rfl, hopen, he⟩
    · rw [sourceUnits_of_open hopen] at hu
      cases f with
      | some f => simp [Lexing.complete] at hu
      | none =>
        simp only [Lexing.complete, Option.isSome_none, Bool.false_eq_true, if_false,
          List.mem_singleton] at hu
        subst hu
        exact ⟨[], [], by simp, by simp, hopen, by simp, by simp, fun _ => rfl⟩
    · rw [sourceUnits_append hopen he, Lexing.complete_cons, List.mem_cons] at hu
      rcases hu with rfl | hu
      · exact ⟨[], e :: more, rfl, rfl, hopen, by simp, by simpa using he, by simp⟩
      · obtain ⟨pre, post, h⟩ := ih more.length (by simp [← hn]; omega) hu rfl
        refine ⟨g ++ e :: pre, post, by simp [h.lexemes], h.procedural, h.unended, ?_, h.behind, h.closed⟩
        intro e' he'
        cases pre with
        | nil =>
          have : e = e' := by simpa using he'
          exact ⟨_, this ▸ he⟩
        | cons d pre => exact h.before e' (by simpa [List.getLast?_append] using he')

end

section
variable {v : Vendor} {before z : List Char} {l : Lexeme}

/-- What ends a unit ends the word before the next one. -/
theorem Reads.endsWord_of_ends (hv : v.Plain) (h : Reads v before l z) (hz : z ≠ []) {p : Bool}
    (he : l.ends v p) (b : List Char) : EndsWord (l.text.reverse ++ b) := by
  simp only [Lexeme.ends, Lexeme.isSemicolon, Bool.or_eq_true, Bool.and_eq_true, beq_iff_eq] at he
  rcases he with hk | ⟨⟨-, ht⟩, -⟩
  · have hmem : '\n' ∈ l.text := by_contra fun hl => hz (h.eq_nil_of_open hv (.inr hk) hl)
    have heq := h.eq_wholeLine hv hk
    rw [wholeLine_append_of_mem hmem, wholeLine_of_mem hmem] at heq
    rw [heq, List.reverse_append]
    exact endsWord_of_isBlank (by decide) _
  · rw [ht]
    exact endsWord_cons (by decide) b

end

namespace SourceUnit.Occurs
variable {v : Vendor} {tail : List Char} {open? : Bool} {ls pre post lead mid y' trail : List Lexeme}
  {u : SourceUnit}

theorem endsWord (hv : v.Plain) (h : u.Occurs v tail open? ls pre post) (hls : Lexes v tail [] ls)
    (hne : Lexeme.join u.lexemes ≠ []) : EndsWord (Lexeme.join pre).reverse := by
  rcases pre.eq_nil_or_concat' with rfl | ⟨pre, e, rfl⟩
  · exact endsWord_nil
  · obtain ⟨p, he⟩ := h.before e (by simp)
    rw [h.lexemes, List.append_assoc, List.singleton_append] at hls
    have := (hls.reads pre).endsWord_of_ends hv (by simp [hne]) he (Lexeme.join pre).reverse
    simpa using this

/-- A marker line ends a unit on a line of its own: a line feed is among the blanks before it. -/
theorem line_feed_mem_trail (hv : v.Plain) (h : u.Occurs v tail open? ls pre post)
    (hls : Lexes v tail [] ls) (hparts : Lexeme.Parts u.lexemes lead mid [] y' trail) (hmid : mid ≠ [])
    (hkind : ∀ l ∈ u.lexemes, l.kind ≠ .markerLine) {e : Lexeme} (he : post.head? = some e)
    (hk : e.kind = .markerLine) : '\n' ∈ Lexeme.join trail := by
  obtain ⟨post, rfl⟩ := List.head?_eq_some_iff.1 he
  obtain ⟨m, l, rfl⟩ := (mid.eq_nil_or_concat').resolve_left hmid
  rw [h.lexemes, hparts.eq] at hls
  -- the marker line starts a line, and `l` ends in no blank
  have hstart : startsLine (Lexeme.join (pre ++ (lead ++ (m ++ [l]) ++ trail))).reverse := by
    have hls' : Lexes v tail [] ((pre ++ (lead ++ (m ++ [l]) ++ trail)) ++ e :: post) := by simpa using hls
    simpa using (((hls'.reads _).atMarkerLine_iff hv).2 hk).1
  obtain ⟨t, c, ht, hc⟩ : ∃ t c, l.text = t ++ [c] ∧ isBlank c = false := by
    have hls' : Lexes v tail [] ((pre ++ lead ++ m) ++ l :: (trail ++ e :: post)) := by simpa using hls
    obtain ⟨hblank, hline⟩ := hparts.last rfl l (by simp)
    exact (hls'.reads _).ends hv (hkind l (by simp [hparts.eq])) hline hblank
  rcases (Lexeme.join trail).eq_nil_or_concat' with hnil | ⟨w, d, hw⟩
  · simp [startsLine, hnil, ht] at hstart
    subst hstart
    cases hc
  · simp [startsLine, hw] at hstart
    simp [hw, hstart]

/-- Behind a unit there is nothing, a semicolon, or a line feed and a marker line: no keyword reaches
over that. -/
theorem seals_behind (hv : v ∈ Vendor.plainBuiltins) (h : u.Occurs v tail open? ls pre post)
    (hls : Lexes v tail [] ls) (htail : open? = false → tail = [])
    (hparts : Lexeme.Parts u.lexemes lead mid [] y' trail) (hmid : mid ≠ [])
    (hkind : ∀ l ∈ u.lexemes, l.kind ≠ .markerLine) :
    Keyword.Seals (Lexeme.join trail ++ (Lexeme.join post ++ tail)) := by
  have hplain := Vendor.plain_of_mem hv
  have htrail := Lexeme.isBlank_of_mem_join hparts.trail
  cases post with
  | nil =>
    rw [htail (h.closed rfl)]
    exact Keyword.seals_nil.blank_append htrail
  | cons e post =>
    have he := h.behind e rfl
    simp only [Lexeme.ends, Lexeme.isSemicolon, Bool.or_eq_true, Bool.and_eq_true, beq_iff_eq] at he
    rcases he with hk | ⟨⟨-, ht⟩, -⟩
    · have hmem := h.line_feed_mem_trail hplain hls hparts hmid hkind rfl hk
      refine Keyword.seals_blank_append htrail (List.ne_nil_of_mem hmem) (Keyword.visible_of_endsBlock hv ?_)
      rw [h.lexemes, ← List.append_assoc] at hls
      simpa using (((hls.reads _).atMarkerLine_iff hplain).2 hk).2
    · rw [Lexeme.join_cons, ht]
      exact (Keyword.seals_semicolon _).blank_append htrail

/-- Behind a block with an end of its own nothing else is on the line. -/
theorem blank_behind (hv : v.Plain) (h : u.Occurs v tail open? ls pre post)
    (hls : Lexes v tail [] ls) (htail : open? = false → tail = [])
    (hparts : Lexeme.Parts u.lexemes lead mid [] y' trail) (hmid : mid ≠ [])
    (hkind : ∀ l ∈ u.lexemes, l.kind ≠ .markerLine) {token : String} (hblock : v.blockEnd = .line token)
    (hproc : u.procedural) :
    ∀ c ∈ firstLine (Lexeme.join trail ++ (Lexeme.join post ++ tail)), isBlank c := by
  have htrail := Lexeme.isBlank_of_mem_join hparts.trail
  have hline : ∀ t, ∀ c ∈ firstLine (t : List Char), c ∈ t := fun t c hc => (List.takeWhile_sublist _).mem hc
  cases post with
  | nil =>
    rw [htail (h.closed rfl), Lexeme.join_nil, List.append_nil, List.append_nil]
    exact fun c hc => htrail c (hline _ c hc)
  | cons e post =>
    have he := h.behind e rfl
    have hk : e.kind = .markerLine := by simpa [Lexeme.ends, hproc, hblock] using he
    rw [firstLine_append_of_mem (h.line_feed_mem_trail hv hls hparts hmid hkind rfl hk)]
    exact fun c hc => htrail c (hline _ c hc)

end SourceUnit.Occurs
end SqlScript
