import SqlScript.Proofs.Lexing.Lexeme
import SqlScript.Proofs.Splitting.Run

/-!
# Scanning by lexemes

A scan in code reads one lexeme after the other: `outcome_lexeme` takes the moves of one lexeme
together as `Scan.read`, and `outcome_open` says how a scan ends that meets what never closes. The
region a scan is in between does not look at the unit at all.
-/

namespace SqlScript
open Text

namespace Region

theorem advance_quoted_cons (mark : Char) (backslash : Bool) (c : Char) (text : List Char) :
    (quoted mark backslash).advance (c :: text) =
      if backslash && c == '\\' then (2, quoted mark backslash)
      else if c == mark then (1, .code) else (1, quoted mark backslash) := by
  simp [advance]

theorem through?_nil {r : Region} (h : r.HasCloser) :
    r.through? [] = some [] ∧ (r = .code ∨ r = .lineComment) ∨
    r.through? [] = none ∧ r ≠ .code ∧ r ≠ .lineComment := by
  cases r <;> simp [through?, Text.through?, throughQuote?]

/-- The text through the end of a region, by the next piece of it. -/
theorem through?_advance {r : Region} (hr : r ≠ .code) {text : List Char} (ht : text ≠ []) :
    (r.advance text).2 = .code ∧ r.through? text = some (text.take (r.advance text).1) ∨
    (r.advance text).2 = r ∧ r.through? text =
      (r.through? (text.drop (r.advance text).1)).map (text.take (r.advance text).1 ++ ·) := by
  obtain ⟨c, text, rfl⟩ := List.exists_cons_of_ne_nil ht
  cases r with
  | code => exact absurd rfl hr
  | quoted mark backslash =>
    by_cases hb : (backslash && c == '\\') = true
    · right
      rw [advance_quoted_cons, through?, throughQuote?_cons, if_pos hb, if_pos hb]
      cases text <;> simp [through?, throughQuote?]
    · rw [advance_quoted_cons, through?, throughQuote?_cons, if_neg hb, if_neg hb]
      by_cases hm : (c == mark) = true
      · left; simp [hm]
      · right; simp [hm, through?]
  | lineComment =>
    by_cases hc : c = '\n'
    · left; simp [advance, through?, hc]
    · right; simp [advance, through?, hc, wholeLine_cons]
  | blockComment =>
    by_cases hc : ['*', '/'].isPrefixOf (c :: text) = true
    · left
      have := List.prefix_iff_eq_take.1 (List.isPrefixOf_iff_prefix.1 hc)
      simp only [advance, through?, Text.through?, if_pos hc, true_and]
      rw [show 2 = ['*', '/'].length from rfl, ← this]
    · right; simp only [advance, through?, Text.through?, if_neg hc]; simp
  | dollarQuoted tag =>
    by_cases hc : tag.isPrefixOf (c :: text) = true
    · left
      have := List.prefix_iff_eq_take.1 (List.isPrefixOf_iff_prefix.1 hc)
      simp only [advance, through?, Text.through?, if_pos hc, true_and]
      rw [← this]
    · right; simp only [advance, through?, Text.through?, if_neg hc]; simp

end Region

namespace Scan
variable {v : Vendor} {s : Scan}

theorem next_of_region_ne_code (hr : s.region ≠ .code) :
    s.next v = s.take v (s.region.advance s.rest).1 (s.region.advance s.rest).2 := by
  simp [next, move, hr, make]

theorem take_take {r : Region} (hr : r ≠ .code) (n m : Nat) (r' : Region) :
    (s.take v n r).take v m r' = s.take v (n + m) r' := by
  simp [take, skip, hr, List.take_add, List.drop_drop]

theorem take_congr {n m : Nat} (h : min n s.rest.length = min m s.rest.length) (r : Region) :
    s.take v n r = s.take v m r := by
  have htake : s.rest.take n = s.rest.take m := List.take_eq_take_iff.2 h
  have hdrop : s.rest.drop n = s.rest.drop m := by
    rw [List.drop_eq_drop_min, h, ← List.drop_eq_drop_min]
  simp [take, skip, htake, hdrop]

theorem take_opened (hr : s.region ≠ .code) (n : Nat) (r : Region) :
    (s.take v n r).opened = s.opened := by
  simp [take, hr]

/-- A region is read to its end before the scan is in code again. -/
theorem outcome_region (h : s.region.HasCloser) (hr : s.region ≠ .code) :
    s.outcome v =
      match s.region.through? s.rest with
      | some body => (s.take v body.length .code).outcome v
      | none => ⟨s.statements.reverse, some (s.region.failure (.after s.opened))⟩ := by
  induction hn : s.rest.length using Nat.strongRecOn generalizing s with
  | ind n ih =>
    by_cases hs : s.rest = []
    · rw [outcome_of_rest_eq_nil hs, hs]
      rcases Region.through?_nil h with ⟨hth, hc | hl⟩ | ⟨hth, -, hl⟩
      · exact absurd hc hr
      · rw [hth]
        show _ = (s.take v 0 .code).outcome v
        rw [outcome_of_rest_eq_nil (by simp [hs])]
        simp [result, unterminated?, hl, close, take, hs, skip]
      · rw [hth]
        cases hreg : s.region <;> simp_all [result, unterminated?, Region.failure]
    · rw [outcome_next h hs, next_of_region_ne_code hr]
      rcases Region.through?_advance hr hs with ⟨hcode, hth⟩ | ⟨hsame, hth⟩
      · rw [hth, hcode]
        exact congrArg (outcome v) (take_congr (by simp) _)
      · have hlt : (s.rest.drop (s.region.advance s.rest).1).length < n := by
          have := List.length_pos_iff.2 hs
          have := Region.advance_pos h s.rest
          rw [List.length_drop]; omega
        rw [hsame, ih _ hlt (by simpa using h) (by simpa using hr) rfl, hth, take_opened hr]
        simp only [take_region, take_rest, take_statements]
        cases s.region.through? (s.rest.drop (s.region.advance s.rest).1) with
        | none => rfl
        | some body =>
          simp only [Option.map_some]
          rw [take_take hr]
          refine congrArg (outcome v) (take_congr ?_ _)
          simp only [List.length_append, List.length_take]
          omega

def read (v : Vendor) (s : Scan) (l : Lexeme) : Scan :=
  if l.ends v s.unit.procedural then s.close.skip l.text.length else s.take v l.text.length .code

theorem read_rest (l : Lexeme) : (s.read v l).rest = s.rest.drop l.text.length := by
  unfold read; split <;> rfl

theorem read_before (l : Lexeme) :
    (s.read v l).before = (s.rest.take l.text.length).reverse ++ s.before := by
  unfold read; split <;> rfl

theorem read_region (hr : s.region = .code) (l : Lexeme) : (s.read v l).region = .code := by
  unfold read; split
  · exact hr
  · rfl

theorem read_delimiter (l : Lexeme) : (s.read v l).delimiter = s.delimiter := by
  unfold read; split <;> rfl

theorem atMarkerLine_iff : s.atMarkerLine v ↔ v.AtMarkerLine s.before s.rest := by
  unfold atMarkerLine Vendor.AtMarkerLine Vendor.endsBlock
  cases v.blockEnd with
  | line token => simp [atLineStart, startsLine]
  | activeDelimiter => simp

theorem atDelimiter_cons (hd : s.delimiter = .semicolon) {c : Char} {text : List Char}
    (hs : s.rest = c :: text) : s.atDelimiter = (c == ';') := by
  rw [atDelimiter, hd, hs]
  simp [Delimiter.semicolon, List.isPrefixOf, BEq.comm]

theorem next_of_atMarkerLine (hr : s.region = .code) (hm : s.atMarkerLine v) :
    s.next v = s.close.skip (wholeLine s.rest).length := by
  have hskip : s.close.skip ((firstLine s.rest).length + 1) = s.close.skip (wholeLine s.rest).length := by
    simp only [skip, close_rest, drop_firstLine_succ, take_length_wholeLine]
    rfl
  simp [next, move, hr, moveInCode, hm, make, reach, hskip]

theorem next_of_openedBy? (hv : v.Plain) (hr : s.region = .code) (hm : ¬ s.atMarkerLine v) {n : Nat}
    {r : Region} (ho : Region.openedBy? v s.before s.rest = some (n, r)) :
    s.next v = s.take v n r := by
  simp [next, move, hr, moveInCode, hm, make, directive?, hv.delimiterDirective, ho]

theorem next_of_openedBy?_eq_none (hv : v.Plain) (hr : s.region = .code)
    (hd : s.delimiter = .semicolon) (hm : ¬ s.atMarkerLine v) {c : Char} {text : List Char}
    (hs : s.rest = c :: text) (ho : Region.openedBy? v s.before s.rest = none) :
    s.next v = s.read v ⟨.code, [c]⟩ := by
  have hends : Lexeme.ends v s.unit.procedural ⟨.code, [c]⟩ = (s.atDelimiter && s.delimiterEnds v) := by
    simp [Lexeme.ends, Lexeme.isSemicolon, atDelimiter_cons hd hs, delimiterEnds]
  unfold next move moveInCode read
  rw [if_pos hr, if_neg hm, hends]
  simp only [directive?, hv.delimiterDirective, ho, Bool.false_and, Bool.false_eq_true, if_false]
  split
  · simp [make, reach, hd, Delimiter.semicolon]
  · rfl

/-- The moves over what opens a region and the text through its end, taken together. -/
theorem take_take_eq_read {n : Nat} {r : Region} {body : List Char}
    (ho : Region.openedBy? v s.before s.rest = some (n, r))
    (hb : r.through? (s.rest.drop n) = some body) :
    (s.take v n r).take v body.length .code = s.read v ⟨r.lexemeKind, s.rest.take n ++ body⟩ := by
  obtain ⟨-, hcode, -⟩ := Region.openedBy?_eq_some ho
  have hkeep : Lexeme.ends v s.unit.procedural ⟨r.lexemeKind, s.rest.take n ++ body⟩ = false := by
    cases r <;> simp_all [Lexeme.ends, Lexeme.isSemicolon, Region.lexemeKind]
  rw [read, hkeep, take_take hcode]
  refine take_congr ?_ _
  have := (Region.through?_isPrefix hb).length_le
  simp only [List.length_append, List.length_take, List.length_drop] at this ⊢
  omega

theorem outcome_lexeme (hv : v.Plain) (hr : s.region = .code) (hd : s.delimiter = .semicolon)
    {c : Char} {text : List Char} (hs : s.rest = c :: text) {l : Lexeme}
    (hl : lexeme v s.before c text = .ok l) : s.outcome v = (s.read v l).outcome v := by
  rw [outcome_next (by simp [hr, Region.hasCloser_code]) (by simp [hs])]
  have hcases := (lexeme_eq_ok_iff hv).1 hl
  rw [← hs, ← atMarkerLine_iff] at hcases
  rcases hcases with ⟨hm, rfl⟩ | ⟨hm, ⟨ho, rfl⟩ | ⟨n, r, body, ho, hb, rfl⟩⟩
  · rw [next_of_atMarkerLine hr hm, read, if_pos (by simp [Lexeme.ends])]
  · rw [next_of_openedBy?_eq_none hv hr hd hm hs ho]
  · obtain ⟨-, hcode, hcloser⟩ := Region.openedBy?_eq_some ho
    rw [next_of_openedBy? hv hr hm ho, outcome_region (by simpa using hcloser) (by simpa using hcode)]
    simp only [take_region, take_rest]
    rw [hb]
    exact congrArg (outcome v) (take_take_eq_read ho hb)

theorem outcome_open (hv : v.Plain) (hr : s.region = .code) {c : Char} {text : List Char}
    (hs : s.rest = c :: text) {f : Unterminated} (hl : lexeme v s.before c text = .error f) :
    s.outcome v = ⟨s.statements.reverse, some f⟩ := by
  obtain ⟨hm, n, r, ho, hb, rfl⟩ := (lexeme_eq_error_iff hv).1 hl
  rw [← hs] at hm ho hb
  rw [← atMarkerLine_iff] at hm
  obtain ⟨hpos, hcode, hcloser⟩ := Region.openedBy?_eq_some ho
  rw [outcome_next (by simp [hr, Region.hasCloser_code]) (by simp [hs]), next_of_openedBy? hv hr hm ho,
    outcome_region (by simpa using hcloser) (by simpa using hcode)]
  simp [hb, take, hr, skip]

end Scan
end SqlScript
