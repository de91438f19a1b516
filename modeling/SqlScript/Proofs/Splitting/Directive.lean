import SqlScript.Proofs.Lexing.Moved
import SqlScript.Proofs.Splitting.Literal
import SqlScript.Proofs.Text.Words

/-!
# Lines that set a delimiter

Of the text behind it a scan sees no more than whether a line starts there and whether a quote opens an
escape string. So below a line feed it goes on as it does from the start of a script
(`Scan.Below.outcome_eq`). A line `DELIMITER token` in front of a script is read in one move and leaves
nothing but the delimiter (`splitPartial_below_directive`), so the script below it is split as by the
vendor that has that delimiter from the start.
-/

namespace SqlScript
open Text

namespace Scan
variable {v : Vendor} {above : List Char} {s t : Scan}

/-- The scan `t` is in the place of `s` in a text below `above` and a line feed. Where the region opened
counts only outside code. -/
structure Below (above : List Char) (s t : Scan) : Prop where
  before : t.before = s.before ++ '\n' :: above
  rest : t.rest = s.rest
  region : t.region = s.region
  opened : s.region ≠ .code → t.opened = s.opened ++ '\n' :: above
  delimiter : t.delimiter = s.delimiter
  unit : t.unit = s.unit
  statements : t.statements = s.statements

namespace Below

theorem startsUnit_eq (h : s.Below above t) : t.startsUnit = s.startsUnit := by
  unfold startsUnit atComment atLineComment atBlank atDelimiter
  rw [h.rest, h.delimiter, h.unit]

theorem directive?_eq (h : s.Below above t) : t.directive? v = s.directive? v := by
  unfold directive?
  rw [h.startsUnit_eq, h.rest]

theorem atMarkerLine_eq (h : s.Below above t) : t.atMarkerLine v = s.atMarkerLine v := by
  have hstart : t.atLineStart = s.atLineStart := by
    unfold atLineStart
    rw [h.before]
    exact startsLine_append_line_feed s.before above
  unfold atMarkerLine
  rw [hstart, h.rest]

theorem openedBy?_eq (h : s.Below above t) :
    Region.openedBy? v t.before t.rest = Region.openedBy? v s.before s.rest := by
  rw [h.rest, h.before]
  exact Region.openedBy?_congr_before
    (Region.afterEscapeMark_append (endsWord_of_isBlank (c := '\n') (by decide) above) s.before)

theorem move_eq (h : s.Below above t) : t.move v = s.move v := by
  have hends : t.delimiterEnds v = s.delimiterEnds v := by
    unfold delimiterEnds
    rw [h.unit]
  have hat : t.atDelimiter = s.atDelimiter := by
    unfold atDelimiter
    rw [h.rest, h.delimiter]
  unfold move moveInCode
  rw [h.region, h.atMarkerLine_eq, h.directive?_eq, h.openedBy?_eq, hat, hends, h.rest]

theorem noted_eq (h : s.Below above t) : t.noted v = s.noted v := by
  have hstarts := h.startsUnit_eq
  unfold noted atBlank atDelimiter delimiterEnds atLineComment
  rw [hstarts, h.rest, h.delimiter, h.unit]

theorem skip (h : s.Below above t) (n : Nat) : (s.skip n).Below above (t.skip n) := by
  refine ⟨?_, ?_, h.region, h.opened, h.delimiter, h.unit, h.statements⟩
  · rw [skip_before, skip_before, h.before, h.rest, List.append_assoc]
  · rw [skip_rest, skip_rest, h.rest]

theorem close (h : s.Below above t) : s.close.Below above t.close := by
  refine ⟨h.before, h.rest, h.region, h.opened, h.delimiter, rfl, ?_⟩
  rw [close_statements, close_statements, h.unit, h.statements]

theorem take (h : s.Below above t) (n : Nat) (r : Region) :
    (s.take v n r).Below above (t.take v n r) := by
  refine ⟨(h.skip n).before, (h.skip n).rest, rfl, fun _ => ?_, h.delimiter, ?_, h.statements⟩
  · unfold Scan.take
    by_cases hr : s.region = .code
    · simp [h.region, hr, h.before]
    · simp [h.region, hr, h.opened hr]
  · unfold Scan.take
    rw [h.region, h.rest, h.unit, h.noted_eq]

theorem next (h : s.Below above t) : (s.next v).Below above (t.next v) := by
  have hreach : ∀ m, t.reach m = s.reach m := by
    intro m
    cases m <;> simp [reach, h.rest, h.delimiter]
  unfold Scan.next
  rw [h.move_eq]
  cases s.move v with
  | keep n r => exact h.take n r
  | delimiter =>
    unfold make
    rw [hreach]
    exact h.close.skip _
  | markerLine =>
    unfold make
    rw [hreach]
    exact h.close.skip _
  | directive d =>
    unfold make
    rw [hreach]
    exact { h.skip _ with delimiter := rfl }

theorem result_eq (h : s.Below above t) : t.result =
    ⟨s.result.script, s.result.failure.map (·.moved ('\n' :: above))⟩ := by
  have hopen : t.unterminated? = s.unterminated?.map (·.moved ('\n' :: above)) := by
    unfold unterminated?
    rw [h.region]
    cases hr : s.region with
    | code => rfl
    | lineComment => rfl
    | quoted | dollarQuoted | blockComment =>
      rw [h.opened (by rw [hr]; nofun), Location.after_append_line_feed]
      rfl
  unfold result
  rw [hopen, h.close.statements, h.statements]
  cases s.unterminated? <;> rfl

theorem outcome_eq (h : s.Below above t) (hcloser : s.region.HasCloser) : t.outcome v =
    ⟨(s.outcome v).script, (s.outcome v).failure.map (·.moved ('\n' :: above))⟩ := by
  refine run_induction (P := fun s => ∀ t, s.Below above t → t.outcome v =
    ⟨(s.outcome v).script, (s.outcome v).failure.map (·.moved ('\n' :: above))⟩) v
    (fun s hs t h => ?_) (fun s hcloser hs ih t h => ?_) s hcloser t h
  · rw [outcome_of_rest_eq_nil hs, outcome_of_rest_eq_nil (h.rest.trans hs), h.result_eq]
  · rw [outcome_next hcloser hs, outcome_next (h.region ▸ hcloser) (by rwa [h.rest])]
    exact ih _ h.next

end Below

theorem advance_delimiter (v : Vendor) (delimiter : Delimiter) (n : Nat) (s : Scan) :
    s.advance { v with delimiter } n = s.advance v n := by
  induction n generalizing s with
  | zero => rfl
  | succ n ih =>
    have hnext : s.next { v with delimiter } = s.next v := rfl
    rw [advance, advance, hnext, ih]

end Scan

theorem prefix_of_prefix_append_cons {c : Char} {p w r : List Char} (h : p <+: w ++ c :: r) (hc : c ∉ p) :
    p <+: w := by
  have hw : w <+: w ++ c :: r := List.prefix_append w (c :: r)
  rcases List.prefix_or_prefix_of_prefix h hw with hp | ⟨u, rfl⟩
  · exact hp
  · rw [List.prefix_append_right_inj] at h
    cases u with
    | nil => simp
    | cons d u =>
      obtain rfl : d = c := (List.cons_prefix_cons.1 h).1
      simp at hc

namespace Delimiter
variable {v : Vendor} {d : Delimiter}

/-- The line that sets the delimiter. -/
def line (d : Delimiter) : String :=
  "DELIMITER " ++ d.text ++ "\n"

/-- A line `DELIMITER token` sets the token, which no blank cuts short. -/
def IsToken (d : Delimiter) : Prop :=
  ∀ c ∈ d.chars, isBlank c = false

instance (d : Delimiter) : Decidable d.IsToken :=
  List.decidableBAll _ d.chars

theorem toList_line (d : Delimiter) : d.line.toList = "DELIMITER ".toList ++ (d.chars ++ ['\n']) := by
  simp [line, text]

theorem directiveOfLine?_line (hd : d.IsToken) :
    directiveOfLine? ("DELIMITER ".toList ++ d.chars) = some d := by
  have hwords : words ("DELIMITER ".toList ++ d.chars) = ["DELIMITER".toList, d.chars] := by
    have hline : "DELIMITER ".toList ++ d.chars = "DELIMITER".toList ++ ' ' :: d.chars := rfl
    rw [hline, words_append_cons (by decide), words_eq_singleton d.ne_nil hd]
    rfl
  rw [directiveOfLine?, hwords]
  simp [sameIgnoringCase, ofChars?, d.ne_nil]

theorem line_feed_notMem (hd : d.IsToken) : '\n' ∉ "DELIMITER ".toList ++ d.chars := by
  rw [List.mem_append]
  rintro (h | h)
  · exact absurd h (by decide)
  · exact absurd (hd _ h) (by decide)

/-- At the start of a script the line is read in one move. -/
theorem next_line (hd : d.IsToken) (hdirective : v.delimiterDirective = true)
    (hblock : v.blockEnd = .activeDelimiter) {text : List Char}
    (hat : ¬ v.delimiter.chars <+: d.line.toList ++ text) :
    (Scan.start v (d.line.toList ++ text)).next v =
      { Scan.start { v with delimiter := d } text with before := d.line.toList.reverse } := by
  have hline : firstLine (d.line.toList ++ text) = "DELIMITER ".toList ++ d.chars := by
    rw [toList_line, List.append_assoc, List.append_assoc, ← List.append_assoc, List.singleton_append,
      firstLine_append_line_feed, firstLine_eq_self (line_feed_notMem hd)]
  have hstarts : (Scan.start v (d.line.toList ++ text)).startsUnit = true := by
    have hdelimiter : (Scan.start v (d.line.toList ++ text)).atDelimiter = false := by
      rw [Scan.atDelimiter, ← Bool.not_eq_true, List.isPrefixOf_iff_prefix]
      exact hat
    rw [Scan.startsUnit, hdelimiter]
    simp [Scan.start, Scan.atComment, Scan.atLineComment, Scan.atBlank, toList_line, List.isPrefixOf]
    decide
  have hmove : (Scan.start v (d.line.toList ++ text)).move v = .directive d := by
    have hmarker : (Scan.start v (d.line.toList ++ text)).atMarkerLine v = false := by
      rw [Scan.atMarkerLine, hblock]
    have hset : (Scan.start v (d.line.toList ++ text)).directive? v = some d := by
      rw [Scan.directive?, hdirective, hstarts]
      show directiveOfLine? (firstLine (d.line.toList ++ text)) = some d
      rw [hline, directiveOfLine?_line hd]
    have hcode : (Scan.start v (d.line.toList ++ text)).region = .code := rfl
    rw [Scan.move, if_pos hcode, Scan.moveInCode, hmarker, hset]
    rfl
  have hlength : (firstLine (d.line.toList ++ text)).length + 1 = d.line.toList.length := by
    rw [hline, toList_line]
    simp
  rw [Scan.next, hmove, Scan.make, Scan.reach]
  show { Scan.skip _ ((firstLine (d.line.toList ++ text)).length + 1) with delimiter := d } = _
  rw [hlength]
  simp [Scan.skip, Scan.start]

end Delimiter

/-- A script below a line that sets a delimiter is split as by the vendor that has the delimiter from
the start. -/
theorem splitPartial_below_directive {v : Vendor} {d : Delimiter} (hd : d.IsToken)
    (hdirective : v.delimiterDirective = true) (hblock : v.blockEnd = .activeDelimiter) {text : String}
    (hat : ¬ v.delimiter.chars <+: d.line.toList ++ text.toList) :
    splitPartial v (d.line ++ text) =
      ⟨(splitPartial { v with delimiter := d } text).script,
        (splitPartial { v with delimiter := d } text).failure.map (·.moved d.line.toList)⟩ := by
  obtain ⟨above, habove⟩ : ∃ above, d.line.toList.reverse = '\n' :: above := by
    rw [Delimiter.toList_line, ← List.append_assoc, List.reverse_append]
    exact ⟨_, rfl⟩
  have hbelow : (Scan.start { v with delimiter := d } text.toList).Below above
      { Scan.start { v with delimiter := d } text.toList with before := d.line.toList.reverse } :=
    ⟨habove, rfl, rfl, fun h => absurd rfl h, rfl, rfl, rfl⟩
  have hmoved : Unterminated.moved ('\n' :: above) = Unterminated.moved d.line.toList := by
    funext f
    rw [← habove, f.moved_reverse]
  have hne : (Scan.start v (d.line.toList ++ text.toList)).rest ≠ [] := by
    rw [Scan.start, Delimiter.toList_line]
    simp
  calc splitPartial v (d.line ++ text)
      = (Scan.start v (d.line.toList ++ text.toList)).outcome v := by
        rw [splitPartial, String.toList_append, Scan.outcome]
    _ = Scan.outcome v { Scan.start { v with delimiter := d } text.toList with
          before := d.line.toList.reverse } := by
        rw [Scan.outcome_next Region.hasCloser_code hne, Delimiter.next_line hd hdirective hblock hat]
    _ = ⟨(splitPartial { v with delimiter := d } text).script,
          (splitPartial { v with delimiter := d } text).failure.map (·.moved d.line.toList)⟩ := by
        have hvendor : (Scan.start { v with delimiter := d } text.toList).outcome v =
            splitPartial { v with delimiter := d } text :=
          congrArg Scan.result (Scan.advance_delimiter v d _ _).symm
        rw [hbelow.outcome_eq Region.hasCloser_code, hvendor, hmoved]

/-- For MySQL, a line that sets a delimiter does nothing else, and one more line undoes it. Only if the
delimiter is the beginning of the word `DELIMITER`, the second line is not read as such. -/
theorem splitPartial_delimiter_line {d : Delimiter} (hd : d.IsToken) (text : String) :
    (d.line.toList.count '\n' = 1 ∧
      splitPartial mysql (d.line ++ text) =
        ⟨(splitPartial { mysql with delimiter := d } text).script,
          (splitPartial { mysql with delimiter := d } text).failure.map (·.moved d.line.toList)⟩) ∧
    (¬ d.chars <+: "DELIMITER".toList →
      (splitPartial mysql (d.line ++ Delimiter.semicolon.line ++ text)).script =
        (splitPartial mysql text).script) := by
  have hset : ∀ text, splitPartial mysql (d.line ++ text) =
      ⟨(splitPartial { mysql with delimiter := d } text).script,
        (splitPartial { mysql with delimiter := d } text).failure.map (·.moved d.line.toList)⟩ := by
    intro text
    refine splitPartial_below_directive hd rfl rfl fun h => ?_
    rw [Delimiter.toList_line] at h
    simp [mysql, Delimiter.semicolon] at h
  refine ⟨⟨?_, hset text⟩, fun hd' => ?_⟩
  · have hcount : d.chars.count '\n' = 0 := List.count_eq_zero.2 fun h => by
      have := hd _ h
      simp [isBlank] at this
    rw [Delimiter.toList_line, List.count_append, List.count_append, hcount]
    decide
  · have hblank : ' ' ∉ d.chars := fun h => by
      have := hd _ h
      simp [isBlank] at this
    have hat : ¬ d.chars <+: Delimiter.semicolon.line.toList ++ text.toList := by
      intro h
      rw [Delimiter.toList_line] at h
      exact hd' (prefix_of_prefix_append_cons (w := "DELIMITER".toList) h hblank)
    have hback : { { mysql with delimiter := d } with delimiter := Delimiter.semicolon } = mysql := rfl
    rw [String.append_assoc, hset]
    show (splitPartial { mysql with delimiter := d } (Delimiter.semicolon.line ++ text)).script = _
    rw [splitPartial_below_directive (v := { mysql with delimiter := d }) (by decide) rfl rfl hat, hback]

/-- A script that sets the delimiter back and then fails. -/
theorem splitPartial_delimiter_line_slashes :
    let d : Delimiter := ⟨['/', '/'], by decide⟩
    let text := "SELECT 1; é//\nDELIMITER ;\n\x27b"
    d.IsToken ∧ ¬ d.chars <+: "DELIMITER".toList ∧
      splitPartial mysql (d.line ++ text) =
        ⟨[⟨.regular, "SELECT 1; é"⟩], some (.quote "\x27" ⟨40, 4, 1⟩)⟩ ∧
      (splitPartial mysql (d.line ++ Delimiter.semicolon.line ++ text)).script =
        (splitPartial mysql text).script := by
  intro d text
  have hd : d.IsToken := by decide
  have hne : ¬ d.chars <+: "DELIMITER".toList := by decide
  obtain ⟨⟨-, hset⟩, hback⟩ := splitPartial_delimiter_line hd text
  refine ⟨hd, hne, ?_, hback hne⟩
  rw [hset]
  decide +kernel

end SqlScript
