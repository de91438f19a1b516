import SqlScript.Proofs.Lexing.Context
import SqlScript.Proofs.Lexing.Splitting
import SqlScript.Proofs.Location
import SqlScript.Proofs.Vendor.Marker

/-!
# Scripts cut where they fail

What never closes begins with the opener that is reported, and the script up to there does not fail.
Its lexemes are those that the whole script has before the failure; only its last line may be a marker
line now, since nothing is behind it any more (`Lexes.truncated`). That line lies in the unit that was
open. What is behind a complete unit does not show in its kind (`SourceUnit.startsProcedural_truncated`),
so the complete units stay what they are (`Lexing.script_truncated`).
-/

namespace SqlScript
open Text
open Keyword (Seals)

namespace Unterminated

/-- What opened what is still open. -/
def opener : Unterminated → List Char
  | quote opener _ => opener.toList
  | comment _ => ['/', '*']

end Unterminated

/-- What becomes of the lexemes `x` of the last line once nothing is behind them: there are none, or
they make up a marker line. -/
inductive Lexeme.LastLine (v : Vendor) : (x x' : List Lexeme) → Prop
  | same : LastLine v [] []
  | marker {x : List Lexeme} (hline : v.endsBlock (join x)) (hkind : ∀ l ∈ x, l.kind ≠ .markerLine) :
    LastLine v x [⟨.markerLine, join x⟩]

namespace Lexeme.LastLine
variable {v : Vendor} {x x' : List Lexeme}

theorem join_eq (h : LastLine v x x') : join x' = join x := by
  cases h <;> simp

/-- The characters of a line that ends a block end nothing by themselves. -/
theorem unended (hv : v ∈ Vendor.plainBuiltins) (h : LastLine v x x') (p : Bool) :
    ∀ l ∈ x, l.ends v p = false := by
  intro l hl
  cases h with
  | same => cases hl
  | marker hline hkind =>
    have hsemi : ';' ∉ join x := Vendor.notMem_of_endsBlock hv hline (by decide) (by decide)
    have htext : l.text ≠ [';'] := by
      intro heq
      exact hsemi (List.mem_flatMap.2 ⟨l, hl, by simp [heq]⟩)
    simp [ends, isSemicolon, hkind l hl, htext]

end Lexeme.LastLine

theorem Region.openedBy?_eq_none_of_append {v : Vendor} {before t z : List Char} {c : Char}
    (h : openedBy? v before (c :: (t ++ z)) = none) : openedBy? v before (c :: t) = none := by
  have hp : c :: t <+: c :: (t ++ z) := List.prefix_append (c :: t) z
  rw [openedBy?_eq_none_iff] at h ⊢
  obtain ⟨hline, hblock, hquote, hdouble, htag⟩ := h
  refine ⟨fun hd => hline (hd.trans hp), fun hd => hblock (hd.trans hp), hquote, hdouble, fun hd => ?_⟩
  rw [Option.eq_none_iff_forall_ne_some]
  intro tag heq
  have hfound := dollarTag?_append heq z
  rw [List.cons_append, htag hd] at hfound
  cases hfound

section
variable {v : Vendor} {before w z : List Char} {l : Lexeme} {ls : List Lexeme}

/-- A line to whose end a lexeme goes is over before the text behind. -/
theorem Reads.line_feed_mem (hv : v.Plain) (h : Reads v before l (w ++ z)) (hz : z ≠ [])
    (hk : l.kind = .lineComment ∨ l.kind = .markerLine) : '\n' ∈ l.text := by
  by_contra hl
  have hnil := h.eq_nil_of_open hv hk hl
  exact hz (List.append_eq_nil_iff.1 hnil).2

/-- A lexeme is read as before when the text behind is cut off, unless its line is a marker line now. -/
theorem Reads.truncated (hv : v.Plain) (h : Reads v before l (w ++ z)) (hz : z ≠ [])
    (hm : v.AtMarkerLine before (l.text ++ w) → l.kind = .markerLine) : Reads v before l w := by
  refine h.congr hv ⟨fun hat => ?_, fun hat => ?_⟩ rfl (fun c _ ho => ?_) (h.line_feed_mem hv hz)
  · exact (h.atMarkerLine_iff hv).2 (hm hat)
  · have hmem := h.line_feed_mem hv hz (.inr ((h.atMarkerLine_iff hv).1 hat))
    rw [Vendor.AtMarkerLine, firstLine_append_of_mem hmem] at hat ⊢
    exact hat
  · exact Region.openedBy?_eq_none_of_append ho

/-- Lexemes in front of a text are read without it too, but that the last line may become a marker
line. -/
theorem Lexes.truncated (hv : v.Plain) (h : Lexes v z before ls) (hz : z ≠ []) :
    ∃ g x x', ls = g ++ x ∧ Lexeme.LastLine v x x' ∧ Lexes v [] before (g ++ x') := by
  induction h with
  | nil before => exact ⟨[], [], [], rfl, .same, .nil before⟩
  | @cons before l ls h hls ih =>
    by_cases hm : v.AtMarkerLine before (l.text ++ Lexeme.join ls) ∧ l.kind ≠ .markerLine
    · obtain ⟨⟨hstart, hends⟩, hl⟩ := hm
      -- a line feed ahead would end the line with the text behind as well
      have hfeed : '\n' ∉ l.text ++ Lexeme.join ls := by
        intro hmem
        refine hl ((h.atMarkerLine_iff hv).1 ⟨hstart, ?_⟩)
        rwa [← List.append_assoc, firstLine_append_of_mem hmem]
      rw [firstLine_eq_self hfeed] at hends
      have hkind : ∀ m ∈ l :: ls, m.kind ≠ .markerLine := by
        intro m hm hk
        obtain ⟨xs, ys, heq⟩ := List.append_of_mem hm
        have hread := (heq ▸ Lexes.cons h hls : Lexes v z before (xs ++ m :: ys)).reads xs
        refine hfeed ?_
        rw [← Lexeme.join_cons, heq]
        simp [hread.line_feed_mem hv hz (.inr hk)]
      have hread : Reads v before ⟨.markerLine, l.text ++ Lexeme.join ls⟩ [] := by
        refine (reads_iff hv).2 (.inl ⟨⟨hstart, ?_⟩, rfl, ?_, ?_⟩)
        · rwa [List.append_nil, firstLine_eq_self hfeed]
        · simp [h.text_ne_nil hv]
        · rw [List.append_nil, wholeLine_eq_self hfeed]
      exact ⟨[], l :: ls, _, rfl, .marker hends hkind, .cons (by simpa using hread) (.nil _)⟩
    · obtain ⟨g, x, x', rfl, hx, hg⟩ := ih
      refine ⟨l :: g, x, x', rfl, hx, .cons ?_ hg⟩
      show Reads v before l (Lexeme.join (g ++ x') ++ [])
      rw [Lexeme.join_append, hx.join_eq, ← Lexeme.join_append, List.append_nil]
      exact h.truncated hv hz fun hat => by_contra fun hl => hm ⟨hat, hl⟩

/-- A lexing that fails has read all the text before what never closes. -/
theorem lexeme_eq_error_of_failure (hv : v.Plain) {text : List Char} {failure : Unterminated}
    (h : (lex v before text).failure = some failure) : ∃ c rest, (lex v before text).tail = c :: rest ∧
      lexeme v ((Lexeme.join (lex v before text).lexemes).reverse ++ before) c rest = .error failure := by
  induction before, text using lex_induction hv with
  | nil before => rw [lex_nil] at h; cases h
  | error before c text failure' hl =>
    rw [lex_cons_of_error hl] at h ⊢
    cases h
    exact ⟨c, text, rfl, hl⟩
  | ok before c text l rest hl hrest ih =>
    rw [lex_cons_of_ok hv hl hrest] at h ⊢
    obtain ⟨d, more, htail, herror⟩ := ih h
    exact ⟨d, more, htail, by simpa [Lexing.after] using herror⟩

/-- What never closes begins with what opened it. That seals, dollar-quoted literals apart. -/
theorem opener_isPrefix (hv : v.Plain) {c : Char} {rest : List Char} {failure : Unterminated}
    (h : lexeme v before c rest = .error failure) :
    failure.opener <+: c :: rest ∧ failure.location = .after before ∧
      (Seals (c :: rest) ∨ v.dollarQuoting) := by
  obtain ⟨-, n, r, ho, hthrough, rfl⟩ := (lexeme_eq_error_iff hv).1 h
  rcases Region.openedBy?_cases ho with
    ⟨rfl, -⟩ | ⟨rfl, -, hp⟩ | ⟨mark, backslash, rfl, -, rfl, hc⟩ | ⟨tag, rfl, -, -, hd, htag⟩
  · cases hthrough
  · refine ⟨hp, rfl, .inl ?_⟩
    obtain ⟨u, hu⟩ := hp
    rw [← hu]
    exact Keyword.seals_cons (by decide) (by decide) (by decide) (by decide) _
  · refine ⟨by simp [Region.failure, Unterminated.opener], rfl, .inl ?_⟩
    rcases hc with rfl | rfl
    · exact Keyword.seals_cons (by decide) (by decide) (by decide) (by decide) _
    · exact Keyword.seals_cons (by decide) (by decide) (by decide) (by decide) _
  · refine ⟨?_, rfl, .inr hd⟩
    simpa [Region.failure, Unterminated.opener] using Region.dollarTag?_isPrefix htag

end

/-- The text behind the lexemes of a script shows in no unit that they complete: it seals, or nothing
but the delimiter ends a unit. -/
def Vendor.Hides (v : Vendor) (tail : List Char) (ls : List Lexeme) : Prop :=
  Seals tail ∨ v.blockEnd = .activeDelimiter ∧ ∀ l ∈ ls, l.kind ≠ .markerLine

section
variable {v : Vendor} {before tail : List Char} {x x' g ls : List Lexeme} {e : Lexeme}

theorem Vendor.Hides.of_append (h : v.Hides tail (g ++ ls)) : v.Hides tail ls :=
  h.imp_right (And.imp_right fun hkind l hl => hkind l (List.mem_append_right g hl))

theorem Vendor.hides_of_error (hv : v ∈ Vendor.plainBuiltins) {c : Char} {rest : List Char}
    {failure : Unterminated} (h : lexeme v before c rest = .error failure)
    (hls : Lexes v (c :: rest) [] ls) : v.Hides (c :: rest) ls := by
  have hplain := Vendor.plain_of_mem hv
  refine (opener_isPrefix hplain h).2.2.imp_right fun hd => ?_
  have hend : v.blockEnd = .activeDelimiter := by
    rcases Vendor.mem_plainBuiltins.1 hv with rfl | rfl | rfl
    · cases hd
    · rfl
    · cases hd
  refine ⟨hend, fun l hl hk => ?_⟩
  obtain ⟨xs, ys, rfl⟩ := List.append_of_mem hl
  have hmarker := (((hls.reads xs).atMarkerLine_iff hplain).2 hk).2
  rw [Vendor.endsBlock, hend] at hmarker
  cases hmarker

namespace SourceUnit

/-- A text that seals does not show in a unit that has a significant lexeme in front of it. -/
theorem startsProcedural_of_seals (hv : v ∈ Vendor.plainBuiltins) (hx : Lexeme.LastLine v x x')
    (hz : Seals tail) (hg : ¬ ∀ l ∈ g, l.isPadding) :
    startsProcedural v [] (g ++ x') = startsProcedural v tail (g ++ x) := by
  cases hdrop : g.dropWhile (·.isPadding) with
  | nil => exact absurd (List.dropWhile_eq_nil_iff.1 hdrop) hg
  | cons l more =>
    rw [startsProcedural_append hdrop, startsProcedural_append hdrop, hx.join_eq, List.append_nil,
      ← List.append_assoc, Vendor.isProceduralStart_append hv hz]

/-- Nor does anything behind a semicolon. -/
theorem startsProcedural_semicolon (hv : v ∈ Vendor.plainBuiltins) (he : e.isSemicolon)
    (tail' : List Char) (ls' : List Lexeme) :
    startsProcedural v tail' (g ++ e :: ls') = startsProcedural v tail (g ++ e :: ls) := by
  obtain ⟨-, htext⟩ : e.kind = .code ∧ e.text = [';'] := by simpa [Lexeme.isSemicolon] using he
  have hends : e.ends v false := by simp [Lexeme.ends, he]
  cases hdrop : g.dropWhile (·.isPadding) with
  | nil =>
    have hg := by simpa using List.dropWhile_eq_nil_iff.1 hdrop
    have hpadding := Lexeme.not_isPadding_of_ends hends
    rw [startsProcedural_append_of_isPadding hg, startsProcedural_append_of_isPadding hg,
      startsProcedural_cons hpadding, startsProcedural_cons hpadding,
      Lexeme.not_isSignificant_of_ends hends]
    rfl
  | cons l more =>
    have hcut : ∀ ls tail, Lexeme.join (e :: ls) ++ tail = ';' :: (Lexeme.join ls ++ tail) := by
      intro ls tail
      rw [Lexeme.join_cons, htext]
      rfl
    rw [startsProcedural_append hdrop, startsProcedural_append hdrop, hcut, hcut,
      Vendor.isProceduralStart_append hv (Keyword.seals_semicolon _),
      Vendor.isProceduralStart_append hv (Keyword.seals_semicolon _)]

/-- A unit that a lexeme ends is of the same kind without the text behind all lexemes. -/
theorem startsProcedural_truncated (hv : v ∈ Vendor.plainBuiltins) (hx : Lexeme.LastLine v x x')
    (h : v.Hides tail (g ++ e :: ls)) {p : Bool} (he : e.ends v p) :
    startsProcedural v [] (g ++ e :: ls ++ x') = startsProcedural v tail (g ++ e :: ls ++ x) := by
  rcases h with hz | ⟨-, hkind⟩
  · refine startsProcedural_of_seals hv hx hz fun hpadding => ?_
    have hnot := Lexeme.not_isPadding_of_ends he
    rw [hpadding e (by simp)] at hnot
    cases hnot
  · have hsemi : e.isSemicolon := by
      have hk : e.kind ≠ .markerLine := hkind e (by simp)
      simp only [Lexeme.ends, Bool.or_eq_true, beq_iff_eq, hk, false_or, Bool.and_eq_true] at he
      exact he.1
    simpa using startsProcedural_semicolon hv hsemi [] (ls ++ x')

/-- A unit that is open is open without the text behind, whatever its kind is then. -/
theorem unended_truncated (hv : v ∈ Vendor.plainBuiltins) (hx : Lexeme.LastLine v x x')
    (h : v.Hides tail g) (hopen : ∀ l ∈ g, l.ends v (startsProcedural v tail (g ++ x)) = false) :
    ∀ l ∈ g, l.ends v (startsProcedural v [] (g ++ x')) = false := by
  by_cases hg : ∀ l ∈ g, l.isPadding
  · exact fun l hl => Lexeme.ends_of_isPadding (hg l hl) _
  rcases h with hz | ⟨hend, -⟩
  · rwa [startsProcedural_of_seals hv hx hz hg]
  · intro l hl
    have := hopen l hl
    simp only [Lexeme.ends, hend] at this ⊢
    simpa using this

end SourceUnit

/-- The statement is the trimmed text, perhaps with a line feed, a marker line at its end apart. -/
def Statement.Ends (v : Vendor) (text : List Char) (s : Statement) : Prop :=
  ∃ unit line, text = unit ++ line ∧ (line = [] ∨ v.endsBlock line) ∧
    (s.text.toList = trim unit ∨ s.text.toList = trim unit ++ ['\n'])

theorem SourceUnit.ends_of_statement? (hx : Lexeme.LastLine v x x') {p : Bool} {s : Statement}
    (hs : statement? ⟨g, p⟩ = some s) : s.Ends v (Lexeme.join (g ++ x)) := by
  unfold statement? at hs
  split at hs
  · obtain rfl := Option.some.inj hs
    refine ⟨Lexeme.join g, Lexeme.join x, Lexeme.join_append g x, ?_, ?_⟩
    · cases hx with
      | same => exact .inl rfl
      | marker hline => exact .inr hline
    · rw [String.toList_ofList]
      by_cases hc : Lexeme.endInLineComment g
      · exact .inr (by rw [if_pos hc])
      · exact .inl (by rw [if_neg hc, List.append_nil])
  · cases hs

namespace Lexing

/-- The unit that is open at the cut makes a statement of its own, or none. -/
theorem script_truncated_of_open (hx : Lexeme.LastLine v x x')
    (hopen : ∀ l ∈ g, l.ends v (SourceUnit.startsProcedural v [] (g ++ x')) = false) :
    script v ⟨g ++ x', [], none⟩ =
      (SourceUnit.statement? ⟨g, SourceUnit.startsProcedural v [] (g ++ x')⟩).toList := by
  cases hx with
  | same =>
    rw [List.append_nil] at hopen ⊢
    exact script_of_open rfl hopen
  | marker hline hkind =>
    have hafter := script_after (L := ⟨[], [], none⟩) (e := ⟨.markerLine, Lexeme.join x⟩) rfl hopen rfl
    rwa [script_nil, List.append_nil, after, List.append_nil] at hafter

/-- Without what never closes, the statements are those that were complete before it, and the one, if any,
of the unit that was open: the lexemes behind the last one that ends a unit. -/
theorem script_truncated (hv : v ∈ Vendor.plainBuiltins) (hx : Lexeme.LastLine v x x')
    (h : v.Hides tail g) (failure : Unterminated) :
    ∃ unit, unit <:+ g ∧ (sourceUnits v tail (g ++ x)).getLast? =
        some ⟨unit ++ x, SourceUnit.startsProcedural v tail (unit ++ x)⟩ ∧
      script v ⟨g ++ x', [], none⟩ = script v ⟨g ++ x, tail, some failure⟩ ++
        (SourceUnit.statement? ⟨unit, SourceUnit.startsProcedural v [] (unit ++ x')⟩).toList := by
  induction hn : g.length using Nat.strongRecOn generalizing g with
  | ind n ih =>
    rcases sourceUnits_cases v (SourceUnit.startsProcedural v tail (g ++ x)) g with
      hopen | ⟨u, e, more, rfl, hopen, he⟩
    · have hall := List.forall_mem_append.2 ⟨hopen, hx.unended hv _⟩
      have hfail : script v ⟨g ++ x, tail, some failure⟩ = [] := script_of_open_failure rfl hall failure
      have hcut := script_truncated_of_open hx (SourceUnit.unended_truncated hv hx h hopen)
      refine ⟨g, List.suffix_refl g, ?_, ?_⟩
      · rw [sourceUnits_of_open hall]
        rfl
      · rw [hfail, hcut, List.nil_append]
    · have hp := SourceUnit.startsProcedural_truncated hv hx h he
      generalize hk : SourceUnit.startsProcedural v tail (u ++ e :: more ++ x) = p at hp hopen he
      have hmore : v.Hides tail more := Vendor.Hides.of_append (g := u ++ [e]) (by simpa using h)
      obtain ⟨unit, hsuffix, hlast, hscript⟩ := ih more.length (by simp at hn; omega) hmore rfl
      have hcut := script_after (L := ⟨more ++ x', [], none⟩) (by simpa using hp) hopen he
      have hwhole := script_after (L := ⟨more ++ x, tail, some failure⟩) (by simpa using hk) hopen he
      refine ⟨unit, hsuffix.trans ⟨u ++ [e], by simp⟩, ?_, ?_⟩
      · have hassoc : u ++ e :: more ++ x = u ++ e :: (more ++ x) := by simp
        rw [hassoc] at hk ⊢
        rw [sourceUnits_append (by rwa [hk]) (by rwa [hk]), List.getLast?_cons, hlast]
        rfl
      · calc script v ⟨u ++ e :: more ++ x', [], none⟩
            = (SourceUnit.statement? ⟨u, p⟩).toList ++ script v ⟨more ++ x', [], none⟩ := by
              rw [← hcut]; simp [after]
          _ = (SourceUnit.statement? ⟨u, p⟩).toList ++ script v ⟨more ++ x, tail, some failure⟩ ++
                (SourceUnit.statement? ⟨unit, SourceUnit.startsProcedural v [] (unit ++ x')⟩).toList := by
              rw [hscript, List.append_assoc]
          _ = script v ⟨u ++ e :: more ++ x, tail, some failure⟩ ++
                (SourceUnit.statement? ⟨unit, SourceUnit.startsProcedural v [] (unit ++ x')⟩).toList := by
              rw [← hwhole]; simp [after]

end Lexing
end

/-- A script that fails, up to the opener where it does: it does not fail, and its statements are those
that were complete before the failure, and the one, if any, of the unit that was open. The lexemes of that
unit are those behind the last one that ends a unit, perhaps but for a line that ends a block now, and its
kind is what they are classified as with nothing behind. -/
theorem splitPartial_truncated {v : Vendor} (hv : v ∈ Vendor.plainBuiltins) {text : String}
    {failure : Unterminated} (h : (splitPartial v text).failure = some failure) :
    ∃ before rest, splitAtByte? text.toList failure.location.offset = some (before, rest) ∧
      text.toList = before ++ rest ∧ failure.location.offset < byteLength text.toList ∧
      failure.opener <+: rest ∧
      ∃ (last : Option Statement) (unit line line' : List Lexeme),
        splitPartial v (String.ofList before) = ⟨(splitPartial v text).script ++ last.toList, none⟩ ∧
        (sourceUnits v rest (lex v [] text.toList).lexemes).getLast? =
          some ⟨unit ++ line, SourceUnit.startsProcedural v rest (unit ++ line)⟩ ∧
        Lexeme.LastLine v line line' ∧
        last = SourceUnit.statement? ⟨unit, SourceUnit.startsProcedural v [] (unit ++ line')⟩ ∧
        Lexeme.join (unit ++ line) <:+ before ∧ ∀ s ∈ last, s.Ends v (Lexeme.join (unit ++ line)) := by
  have hplain := Vendor.plain_of_mem hv
  rw [splitPartial_eq_splitting_lex hplain, Lexing.splitting_eq] at h
  obtain ⟨c, rest, htail, herror⟩ := lexeme_eq_error_of_failure hplain h
  have hjoin := join_lex hplain [] text.toList
  have hlexes := lexes_lex hplain [] text.toList
  have hwhole : lex v [] text.toList = ⟨(lex v [] text.toList).lexemes, c :: rest, some failure⟩ := by
    rw [← htail, ← h]
  rw [htail] at hjoin hlexes
  rw [List.append_nil] at herror
  generalize (lex v [] text.toList).lexemes = ls at hjoin hlexes herror hwhole
  obtain ⟨hopener, hlocation, -⟩ := opener_isPrefix hplain herror
  obtain ⟨g, x, x', rfl, hx, hcut⟩ := hlexes.truncated hplain (List.cons_ne_nil c rest)
  have hhides : v.Hides (c :: rest) (g ++ x) := Vendor.hides_of_error hv herror hlexes
  have hbefore : lex v [] (Lexeme.join (g ++ x)) = ⟨g ++ x', [], none⟩ := by
    have hlex := hcut.lex_eq hplain
    rwa [Lexeme.join_append, hx.join_eq, ← Lexeme.join_append, List.append_nil, lex_nil, Lexing.after,
      List.append_nil] at hlex
  have hoffset : failure.location.offset = byteLength (Lexeme.join (g ++ x)) := by
    rw [hlocation]
    exact byteLength_reverse _
  refine ⟨Lexeme.join (g ++ x), c :: rest, ?_, hjoin.symm, ?_, hopener, ?_⟩
  · rw [hoffset, ← hjoin, splitAtByte?_byteLength]
  · have hpos : 0 < c.utf8Size := c.utf8Size_pos
    rw [hoffset, ← hjoin, byteLength_append, byteLength_cons]
    omega
  · have hg : v.Hides (c :: rest) g :=
      hhides.imp_right (And.imp_right fun hkind l hl => hkind l (List.mem_append_left x hl))
    obtain ⟨unit, hsuffix, hlast, hscript⟩ := Lexing.script_truncated hv hx hg failure
    refine ⟨_, unit, x, x', ?_, ?_, hx, rfl, ?_, fun s => SourceUnit.ends_of_statement? hx⟩
    · rw [splitPartial_eq_splitting_lex hplain, splitPartial_eq_splitting_lex hplain, String.toList_ofList,
        hbefore, hwhole, Lexing.splitting_eq, Lexing.splitting_eq, hscript]
    · exact hlast
    · obtain ⟨closed, rfl⟩ := hsuffix
      exact ⟨Lexeme.join closed, by simp⟩

/-- Cut in front of its quote, a script ends in a line that ends the block, and the block is a statement. -/
theorem splitPartial_truncated_slash :
    let text := "SELECT 1;\nBEGIN x;\n/ \x27abc"
    let failure := Unterminated.quote "\x27" ⟨21, 3, 3⟩
    splitPartial oracle text = ⟨[⟨.regular, "SELECT 1"⟩], some failure⟩ ∧
      ∃ before rest, splitAtByte? text.toList failure.location.offset = some (before, rest) ∧
        ∃ (last : Option Statement) (unit line line' : List Lexeme),
          splitPartial oracle (String.ofList before) =
            ⟨(splitPartial oracle text).script ++ last.toList, none⟩ ∧
          last = SourceUnit.statement? ⟨unit, SourceUnit.startsProcedural oracle [] (unit ++ line')⟩ ∧
          Lexeme.LastLine oracle line line' ∧ last = some ⟨.procedural, "BEGIN x;"⟩ := by
  intro text failure
  have hwhole : splitPartial oracle text = ⟨[⟨.regular, "SELECT 1"⟩], some failure⟩ := by
    decide +kernel
  have hv : oracle ∈ Vendor.plainBuiltins := Vendor.mem_plainBuiltins.2 (.inl rfl)
  obtain ⟨before, rest, hat, -, -, -, last, unit, line, line', hcut, -, hline, hlast, -⟩ :=
    splitPartial_truncated hv (congrArg Splitting.failure hwhole)
  refine ⟨hwhole, before, rest, hat, last, unit, line, line', hcut, hlast, hline, ?_⟩
  have hbefore : before = "SELECT 1;\nBEGIN x;\n/ ".toList := by
    have heval : splitAtByte? text.toList failure.location.offset =
        some ("SELECT 1;\nBEGIN x;\n/ ".toList, "\x27abc".toList) := by decide +kernel
    exact (Prod.mk.inj (Option.some.inj (hat.symm.trans heval))).1
  have hrun : splitPartial oracle "SELECT 1;\nBEGIN x;\n/ " =
      ⟨[⟨.regular, "SELECT 1"⟩, ⟨.procedural, "BEGIN x;"⟩], none⟩ := by decide +kernel
  rw [hbefore, String.ofList_toList, hrun, hwhole] at hcut
  cases last with
  | none => simp at hcut
  | some s => simpa using hcut.symm

end SqlScript
