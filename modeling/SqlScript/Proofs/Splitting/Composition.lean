import SqlScript.Proofs.Lexing.Moved
import SqlScript.Proofs.Lexing.Separator
import SqlScript.Proofs.Lexing.Splitting

/-!
# Scripts one after the other

A separator between two scripts ends the unit that the first one leaves open, and nothing on one side
of it shows on the other: what ends a unit seals its classification (`startsProcedural_line_feed`), so
the units of both sides stay what they are (`Lexing.script_line_feed`). So a script that does not fail
can be put in front of any other (`splitPartial_append_separator`).
-/

namespace SqlScript
open Text
open Keyword (Seals)

section
variable {v : Vendor} {x x' g ls : List Lexeme} {e : Lexeme} {tail : List Char}

/-- A line feed and what ends a unit behind it do not show in the kind of the unit. -/
theorem SourceUnit.startsProcedural_line_feed (hv : v ∈ Vendor.plainBuiltins)
    (hx : Lexeme.LineFeed x x') (he : ∀ p, e.ends v p)
    (hz : Seals ('\n' :: (Lexeme.join (e :: ls) ++ tail))) (g : List Lexeme) :
    startsProcedural v tail (g ++ (x' ++ e :: ls)) = startsProcedural v [] (g ++ x) := by
  have hpad := Lexeme.not_isPadding_of_ends (he false)
  have hsig := Lexeme.not_isSignificant_of_ends (he false)
  cases hg : g.dropWhile (·.isPadding) with
  | nil =>
    -- nothing significant is behind: the line that may be left open is none, nor is `e`
    have hg := by simpa using List.dropWhile_eq_nil_iff.1 hg
    rw [startsProcedural_append_of_isPadding hg, startsProcedural_append_of_isPadding hg]
    rcases hx with _ | ⟨text, rfl | rfl⟩
    · rw [startsProcedural_append_of_isPadding (g := [_]) (by simp; rfl), startsProcedural_cons hpad, hsig]
      rfl
    · rw [startsProcedural_append_of_isPadding (g := [_]) (by simp; rfl), startsProcedural_cons hpad, hsig]
      rfl
    · rw [List.singleton_append, startsProcedural_cons rfl, startsProcedural_cons rfl]
      rfl
  | cons l more =>
    have hjoin : Lexeme.join (l :: more) ++ (Lexeme.join (x' ++ e :: ls) ++ tail) =
        Lexeme.join (l :: more) ++ Lexeme.join x ++ '\n' :: (Lexeme.join (e :: ls) ++ tail) := by
      simp [hx.join_eq]
    rw [startsProcedural_append hg, startsProcedural_append hg, hjoin,
      Vendor.isProceduralStart_append hv hz, List.append_nil]

namespace Lexing
variable {L : Lexing}

/-- The last unit of a text, once a line feed and what ends a unit are behind it. -/
theorem script_line_feed_of_open (hv : v ∈ Vendor.plainBuiltins) (hx : Lexeme.LineFeed x x')
    (he : ∀ p, e.ends v p) (hz : Seals ('\n' :: (Lexeme.join (e :: L.lexemes) ++ L.tail)))
    (hopen : ∀ l ∈ g, l.ends v (SourceUnit.startsProcedural v [] (g ++ x)) = false) :
    (L.after (g ++ (x' ++ [e]))).script v = script v ⟨g ++ x, [], none⟩ ++ L.script v := by
  have hp := SourceUnit.startsProcedural_line_feed hv hx he hz g
  generalize hk : SourceUnit.startsProcedural v [] (g ++ x) = p at hp hopen
  rcases hx with _ | ⟨text, rfl | rfl⟩
  · have hnl : Lexeme.isBlank ⟨.code, ['\n']⟩ := rfl
    have hg : ∀ l ∈ g ++ [⟨.code, ['\n']⟩], l.ends v p = false := by
      simpa [or_imp, forall_and, Lexeme.ends_of_isPadding (Lexeme.isPadding_of_isBlank hnl)] using hopen
    rw [← List.append_assoc, script_after (p := p) (by simpa using hp) hg (he p),
      SourceUnit.statement?_concat_blank hnl]
    rw [List.append_nil] at hk ⊢
    rw [script_of_open hk hopen]
  · have hg : ∀ text, ∀ l ∈ g ++ [⟨.lineComment, text⟩], l.ends v p = false := by
      simpa [or_imp, forall_and, Lexeme.ends, Lexeme.isSemicolon] using hopen
    rw [← List.append_assoc, script_after (p := p) (by simpa using hp) (hg _) (he p),
      SourceUnit.statement?_concat_lineComment (trimEnd_append_of_blank blank_lineFeed text),
      script_of_open hk (hg _)]
  · -- the marker line ends the unit, and the one behind it is empty
    have hm : ∀ t, Lexeme.ends v p ⟨.markerLine, t⟩ = true := fun _ => rfl
    have hleft : (L.after (g ++ ([⟨.markerLine, text ++ ['\n']⟩] ++ [e]))).script v =
        (SourceUnit.statement? ⟨g, p⟩).toList ++ (L.after [e]).script v := by
      rw [← List.append_assoc, ← after_after]
      exact script_after (by simpa [after] using hp) hopen (hm _)
    have hempty : (L.after [e]).script v = L.script v := script_after (g := []) rfl (List.forall_mem_nil _) (he _)
    have hright : script v ⟨g ++ [⟨.markerLine, text⟩], [], none⟩ =
        (SourceUnit.statement? ⟨g, p⟩).toList ++ script v ⟨[], [], none⟩ := by
      rw [← script_after (L := ⟨[], [], none⟩) hk hopen (hm text)]
      simp [after]
    rw [hleft, hempty, hright, script_nil, List.append_nil]

/-- A line feed and what ends a unit behind a text leave its statements as they are. The text has
begun with the lexemes `g` of a unit that nothing has ended. -/
theorem script_line_feed (hv : v ∈ Vendor.plainBuiltins) (hx : Lexeme.LineFeed x x')
    (he : ∀ p, e.ends v p) (hz : Seals ('\n' :: (Lexeme.join (e :: L.lexemes) ++ L.tail)))
    (hopen : ∀ l ∈ g, l.ends v (SourceUnit.startsProcedural v [] (g ++ (ls ++ x))) = false) :
    (L.after (g ++ (ls ++ (x' ++ [e])))).script v = script v ⟨g ++ (ls ++ x), [], none⟩ ++ L.script v := by
  induction ls generalizing g with
  | nil => exact script_line_feed_of_open hv hx he hz hopen
  | cons l ls ih =>
    have hp := SourceUnit.startsProcedural_line_feed hv hx he hz (g ++ l :: ls)
    generalize hk : SourceUnit.startsProcedural v [] (g ++ (l :: ls ++ x)) = p at hopen
    rw [List.append_assoc, List.append_assoc, hk] at hp
    by_cases hl : l.ends v p
    · -- `l` ends the unit on both sides
      have hrest : (L.after (ls ++ (x' ++ [e]))).script v = script v ⟨ls ++ x, [], none⟩ ++ L.script v := by
        simpa using ih (g := []) nofun
      have hleft := script_after (L := L.after (ls ++ (x' ++ [e]))) (by simpa [after] using hp) hopen hl
      have hright := script_after (L := ⟨ls ++ x, [], none⟩) hk hopen hl
      calc (L.after (g ++ (l :: ls ++ (x' ++ [e])))).script v
          = (SourceUnit.statement? ⟨g, p⟩).toList ++ (L.after (ls ++ (x' ++ [e]))).script v := by
            rw [← hleft, after_after]; simp
        _ = (SourceUnit.statement? ⟨g, p⟩).toList ++ script v ⟨ls ++ x, [], none⟩ ++ L.script v := by
            rw [hrest, List.append_assoc]
        _ = script v ⟨g ++ (l :: ls ++ x), [], none⟩ ++ L.script v := by
            rw [← hright]; simp [after]
    · have hg : ∀ m ∈ g ++ [l],
          m.ends v (SourceUnit.startsProcedural v [] (g ++ [l] ++ (ls ++ x))) = false := by
        rw [show g ++ [l] ++ (ls ++ x) = g ++ (l :: ls ++ x) by simp, hk]
        simpa [or_imp, forall_and, hl] using hopen
      simpa using ih hg

end Lexing
end

/-- The lexing of two texts with a separator between: on the left no more than a line feed shows of
it, on the right nothing. -/
theorem lex_append_separator {v : Vendor} (hv : v ∈ Vendor.plainBuiltins) {a : List Char}
    (ha : (lex v [] a).failure = none) (b : List Char) :
    ∃ g x x', (lex v [] a).lexemes = g ++ x ∧ Lexeme.LineFeed x x' ∧
      lex v [] (a ++ (v.separator.toList ++ b)) =
        ((lex v [] b).moved (a ++ v.separator.toList)).after
          (g ++ (x' ++ (v.blockEndLexeme :: v.blockEndGap))) := by
  have hplain := Vendor.plain_of_mem hv
  have htail := lex_tail_eq_nil hplain ha
  have hlexes := lexes_lex hplain [] a
  have hjoin := join_lex hplain [] a
  rw [htail] at hlexes hjoin
  rw [List.append_nil] at hjoin
  obtain ⟨g, x, x', heq, hx, hg⟩ :=
    hlexes.line_feed hv (Lexeme.join (v.blockEndLexeme :: v.blockEndGap) ++ b)
  refine ⟨g, x, x', heq, hx, ?_⟩
  have hjoin' : Lexeme.join (g ++ x') = a ++ ['\n'] := by
    rw [Lexeme.join_append, hx.join_eq, ← List.append_assoc, ← Lexeme.join_append, ← heq, hjoin]
  have hall : Lexes v b [] (g ++ x' ++ (v.blockEndLexeme :: v.blockEndGap)) := by
    refine lexes_append.2 ⟨hg, ?_⟩
    rw [hjoin']
    simpa using lexes_blockEnd hv a.reverse b
  have htext : Lexeme.join (g ++ x' ++ (v.blockEndLexeme :: v.blockEndGap)) =
      a ++ v.separator.toList := by
    rw [Lexeme.join_append, hjoin', Vendor.join_blockEnd]
    simp [Vendor.separator]
  have hlex := hall.lex_eq hplain
  -- the text above ends in a line feed
  obtain ⟨above, habove⟩ : ∃ above, (a ++ v.separator.toList).reverse = '\n' :: above :=
    ⟨(a ++ '\n' :: v.blockEndText.toList).reverse, by simp [Vendor.separator]⟩
  have hmoved := lex_append_line_feed hplain [] above b
  rw [List.nil_append, ← habove, Lexing.moved_reverse] at hmoved
  rw [htext, List.append_nil, hmoved] at hlex
  rw [← List.append_assoc, hlex, List.append_assoc g]

/-- Scripts compose: with a separator between, the statements of both come one after the other, and
what is open at the end is what the second leaves open, further down. -/
theorem splitPartial_append_separator {v : Vendor} (hv : v ∈ Vendor.plainBuiltins) {a : String}
    {script : Script} (ha : split v a = .ok script) (b : String) :
    splitPartial v (a ++ v.separator ++ b) =
      ⟨script ++ (splitPartial v b).script,
        (splitPartial v b).failure.map (·.moved (a ++ v.separator).toList)⟩ := by
  have hplain := Vendor.plain_of_mem hv
  rw [split_eq_ok_iff, splitPartial_eq_splitting_lex hplain, Lexing.splitting_eq] at ha
  obtain ⟨hscript, hfailure⟩ := Splitting.mk.inj ha
  obtain ⟨g, x, x', heq, hx, hlex⟩ := lex_append_separator hv hfailure b.toList
  have htext : (a ++ v.separator ++ b).toList = a.toList ++ (v.separator.toList ++ b.toList) := by simp
  -- the lexing of `b` below, with what is left of the line of the separator
  let M := ((lex v [] b.toList).moved (a ++ v.separator).toList).after v.blockEndGap
  have hjoin : Lexeme.join M.lexemes ++ M.tail = Lexeme.join v.blockEndGap ++ b.toList := by
    rw [← join_lex hplain [] b.toList]
    simp [M, Lexing.after, Lexing.moved]
  have hseals : Seals ('\n' :: (Lexeme.join (v.blockEndLexeme :: M.lexemes) ++ M.tail)) := by
    have htail : Lexeme.join (v.blockEndLexeme :: M.lexemes) ++ M.tail =
        v.blockEndText.toList ++ ('\n' :: b.toList) := by
      have := Vendor.join_blockEnd v
      rw [Lexeme.join_cons] at this ⊢
      rw [List.append_assoc, hjoin, ← List.append_assoc, this, List.append_assoc, List.singleton_append]
    rw [htail]
    exact Vendor.seals_blockEndText hv _
  have hleft : lex v [] a.toList = ⟨g ++ x, [], none⟩ := by
    have htail := lex_tail_eq_nil hplain hfailure
    generalize lex v [] a.toList = L at heq htail hfailure
    cases L; simp_all
  have hright : M.script v = (lex v [] b.toList).script v := by
    rw [Lexing.script_after_blanks (Vendor.isBlank_blockEndGap v), Lexing.script_moved]
  have hall : lex v [] (a ++ v.separator ++ b).toList = M.after (g ++ (x' ++ [v.blockEndLexeme])) := by
    rw [htext, hlex, Lexing.after_after]
    simp
  have hcut : (M.after (g ++ (x' ++ [v.blockEndLexeme]))).script v =
      script ++ (lex v [] b.toList).script v := by
    rw [← hright, ← hscript, hleft]
    exact Lexing.script_line_feed (g := []) hv hx (Vendor.ends_blockEndLexeme hplain) hseals
      (List.forall_mem_nil _)
  rw [splitPartial_eq_splitting_lex hplain, splitPartial_eq_splitting_lex hplain, hall,
    Lexing.splitting_eq, Lexing.splitting_eq, hcut]
  rfl

/-- A script that ends in an open comment to the end of the line, and one that fails. -/
theorem splitPartial_append_separator_comment :
    split sqlserver "a --" = .ok [⟨.regular, "a --\n"⟩] ∧
      splitPartial sqlserver ("a --" ++ sqlserver.separator ++ "b;'") =
        ⟨[⟨.regular, "a --\n"⟩] ++ (splitPartial sqlserver "b;'").script,
          (splitPartial sqlserver "b;'").failure.map (·.moved ("a --" ++ sqlserver.separator).toList)⟩ :=
  have h : split sqlserver "a --" = .ok [⟨.regular, "a --\n"⟩] := by decide
  ⟨h, splitPartial_append_separator (Vendor.mem_plainBuiltins.2 (.inr (.inr rfl))) h _⟩

end SqlScript
