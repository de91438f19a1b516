import SqlScript.Proofs.Lexing.Scan
import SqlScript.Proofs.Lexing.Units

/-!
# Splitting is lexing and cutting

`Gathers` says what a scan holds of the unit that began with the lexemes `g`; reading one more
lexeme keeps it (`Gathers.snoc`). So a scan that goes on over the lexemes of a text comes out with
the units that the lexemes fall into (`outcome_eq`), and the splitting of a script is that of its
lexing (`splitPartial_eq_splitting_lex`).
-/

namespace SqlScript
open Text

/-- The unit holds the lexemes `g`, with `ls` and `tail` ahead. -/
structure Gathers (v : Vendor) (tail : List Char) (g ls : List Lexeme) (u : Gathered) : Prop where
  text : u.text.reverse = Lexeme.join g
  significant : u.significant = g.any (·.isSignificant)
  procedural : u.procedural = (u.significant && SourceUnit.startsProcedural v tail (g ++ ls))
  commentTail : u.commentTail = Lexeme.endInLineComment g
  unended : ∀ l ∈ g, l.ends v (SourceUnit.startsProcedural v tail (g ++ ls)) = false
  visible : u.significant → ∃ c ∈ Lexeme.join g, isBlank c = false

namespace Gathers
variable {v : Vendor} {tail : List Char} {g ls : List Lexeme} {l : Lexeme} {u : Gathered}

theorem empty (v : Vendor) (tail : List Char) (ls : List Lexeme) : Gathers v tail [] ls {} :=
  ⟨rfl, rfl, rfl, rfl, nofun, nofun⟩

/-- What ends the unit for the scan ends it among the lexemes. -/
theorem ends_eq (h : Gathers v tail g (l :: ls) u) :
    l.ends v u.procedural = l.ends v (SourceUnit.startsProcedural v tail (g ++ l :: ls)) := by
  rw [h.procedural]
  cases hs : u.significant with
  | true => rw [Bool.true_and]
  | false =>
    have hg := SourceUnit.isPadding_of_open h.unended (by rw [← h.significant, hs])
    by_cases hl : l.isPadding
    · rw [Lexeme.ends_of_isPadding hl, Lexeme.ends_of_isPadding hl]
    · rw [SourceUnit.startsProcedural_append_of_isPadding hg,
        SourceUnit.startsProcedural_cons (by simpa using hl)]
      cases hsig : l.isSignificant with
      | false => rfl
      | true =>
        simp only [Lexeme.isSignificant, Bool.and_eq_true, Bool.not_eq_true', bne_iff_ne] at hsig
        simp [Lexeme.ends, hsig.1.2]

theorem statement?_eq (h : Gathers v tail g ls u) :
    u.statement? =
      SourceUnit.statement? ⟨g, SourceUnit.startsProcedural v tail (g ++ ls)⟩ := by
  unfold Gathered.statement? SourceUnit.statement? Gathered.body
  rw [h.text, h.procedural, h.commentTail, ← h.significant]
  cases hs : u.significant with
  | false => rfl
  | true =>
    have hne : (trim (Lexeme.join g)).isEmpty = false := by
      obtain ⟨c, hc, hb⟩ := h.visible hs
      rw [List.isEmpty_eq_false_iff, Ne, trim_eq_nil_iff]
      exact fun hall => by simp [hall c hc] at hb
    simp only [hne, Bool.not_false, Bool.and_true, Bool.true_and, if_true]
    cases Lexeme.endInLineComment g <;> simp

end Gathers

namespace Scan
variable {v : Vendor} {s : Scan} {tail : List Char} {g ls : List Lexeme} {c : Char}
  {text : List Char} {l : Lexeme}

theorem startsUnit_eq (hv : v.Plain) (hd : s.delimiter = .semicolon) (hs : s.rest = c :: text)
    (hl : lexeme v s.before c text = .ok l) (hm : l.kind ≠ .markerLine) :
    s.startsUnit = (!s.unit.significant && l.isSignificant) := by
  obtain ⟨hline, hblock, hblank, hsemi⟩ := lexeme_kind hv hl hm
  have hk : (l.kind != .markerLine) = true := bne_iff_ne.2 hm
  rw [startsUnit, atComment, atLineComment, atBlank, atDelimiter_cons hd hs, hs, ← hline, ← hblock,
    ← hsemi]
  simp only [List.head?_cons, Option.map_some, Option.getD_some, ← hblank, Lexeme.isSignificant,
    Lexeme.isPadding, Lexeme.isComment, hk]
  cases l.isBlank <;> cases (l.kind == .lineComment) <;> cases (l.kind == .blockComment) <;> simp

theorem noted_eq (hv : v.Plain) (hd : s.delimiter = .semicolon) (hs : s.rest = c :: text)
    (hl : lexeme v s.before c text = .ok l) (he : l.ends v s.unit.procedural = false) :
    s.noted v =
      { s.unit with
        significant := s.unit.significant || l.isSignificant
        procedural :=
          if !s.unit.significant && l.isSignificant then v.isProceduralStart s.rest
          else s.unit.procedural
        commentTail := if l.isBlank then s.unit.commentTail else l.kind == .lineComment } := by
  have hm : l.kind ≠ .markerLine := by rintro hk; simp [Lexeme.ends, hk] at he
  obtain ⟨hline, -, hblank, hsemi⟩ := lexeme_kind hv hl hm
  have hdelim : (s.atDelimiter && s.delimiterEnds v) = false := by
    rw [atDelimiter_cons hd hs, ← hsemi]
    simpa [Lexeme.ends, hm, delimiterEnds] using he
  rw [noted, hdelim, startsUnit_eq hv hd hs hl hm, atBlank, atLineComment, hs, ← hline]
  simp only [List.head?_cons, Option.map_some, Option.getD_some, ← hblank, Bool.or_false]
  rcases s.unit with ⟨_, significant, _, _⟩
  cases significant <;> cases l.isSignificant <;> cases l.isBlank <;> rfl

/-- Reading a lexeme that does not end the unit adds it to what is gathered. -/
theorem gathers_read (hv : v.Plain) (hr : s.region = .code) (hd : s.delimiter = .semicolon)
    (hs : s.rest = c :: text) (hl : lexeme v s.before c text = .ok l)
    (hrest : s.rest = Lexeme.join (l :: ls) ++ tail) (h : Gathers v tail g (l :: ls) s.unit)
    (he : l.ends v s.unit.procedural = false) :
    Gathers v tail (g ++ [l]) ls (s.take v l.text.length .code).unit := by
  have hlen : s.rest.take l.text.length = l.text := by simp [hrest]
  have hunit : (s.take v l.text.length .code).unit =
      { s.noted v with text := l.text.reverse ++ s.unit.text } := by
    simp [take, hr, hlen, noted_eq hv hd hs hl he]
  rw [hunit, noted_eq hv hd hs hl he]
  refine ⟨?_, ?_, ?_, ?_, ?_, ?_⟩
  · simp [h.text]
  · simp [h.significant]
  · simp only [List.append_assoc, List.singleton_append]
    cases hsig : s.unit.significant with
    | true => simp [h.procedural, hsig]
    | false =>
      cases hlsig : l.isSignificant with
      | false => simp [h.procedural, hsig]
      | true =>
        have hg := SourceUnit.isPadding_of_open h.unended (by rw [← h.significant, hsig])
        rw [SourceUnit.startsProcedural_append_of_isPadding hg,
          SourceUnit.startsProcedural_cons (by simp_all [Lexeme.isSignificant]), hlsig, hrest]
        rfl
  · simp [Lexeme.endInLineComment_concat, h.commentTail]
  · intro m hm
    rw [List.append_assoc, List.singleton_append]
    rcases by simpa using hm with hm | rfl
    · exact h.unended m hm
    · rw [← h.ends_eq, he]
  · intro hsig
    simp only [Bool.or_eq_true] at hsig
    rcases hsig with hsig | hsig
    · obtain ⟨d, hd, hb⟩ := h.visible hsig
      exact ⟨d, by simp [hd], hb⟩
    · obtain ⟨more, hl', -⟩ := lexeme_text hv hl
      exact ⟨c, by simp [hl'], not_isBlank_of_isSignificant hv hl hsig⟩

/-- A scan in code comes out with the units of the lexemes ahead, those gathered before included. -/
theorem outcome_eq (hv : v.Plain) (hr : s.region = .code) (hd : s.delimiter = .semicolon)
    {L : Lexing} (hL : lex v s.before s.rest = L) (h : Gathers v L.tail g L.lexemes s.unit) :
    s.outcome v =
      ⟨s.statements.reverse ++ (Lexing.complete L.failure
        (sourceUnits v L.tail (g ++ L.lexemes))).filterMap (·.statement?), L.failure⟩ := by
  induction hb : s.before, hs : s.rest using lex_induction hv generalizing s g L with
  | nil before =>
    rw [hs, lex_nil] at hL
    subst hL
    have hstatement := h.statement?_eq
    rw [outcome_of_rest_eq_nil hs, List.append_nil, sourceUnits_of_open (by simpa using h.unended)]
    simp only [List.append_nil] at hstatement
    simp [result, unterminated?, hr, hstatement, Lexing.complete, List.filterMap_cons]
    cases SourceUnit.statement? _ <;> rfl
  | error before c text failure hl =>
    subst hb
    rw [hs, lex_cons_of_error hl] at hL
    subst hL
    rw [outcome_open hv hr hs hl, List.append_nil, sourceUnits_of_open (by simpa using h.unended)]
    simp [Lexing.complete]
  | ok before c text l rest hl hrest ih =>
    subst hb
    have hjoin := join_lex hv s.before s.rest
    rw [hs, lex_cons_of_ok hv hl hrest] at hL hjoin
    simp only [Lexing.after, List.singleton_append] at hL hjoin
    subst hL
    rw [outcome_lexeme hv hr hd hs hl]
    -- where the scan is after `l`
    have hbefore : (s.read v l).before = l.text.reverse ++ s.before := by
      rw [read_before, hs, ← hrest, List.take_left]
    have hafter : (s.read v l).rest = rest := by rw [read_rest, hs, ← hrest, List.drop_left]
    have hnext := fun {d : List Lexeme} => ih (s := s.read v l) (g := d) (read_region hr l)
      (by rw [read_delimiter, hd]) (by rw [hbefore, hafter])
    by_cases he : l.ends v s.unit.procedural
    · have hread : s.read v l = s.close.skip l.text.length := by rw [read, if_pos he]
      rw [hnext (d := []) (by rw [hread]; exact Gathers.empty ..) hbefore hafter]
      rw [sourceUnits_append h.unended (by rw [← h.ends_eq, he]), Lexing.complete_cons,
        List.filterMap_cons, ← h.statement?_eq, hread]
      cases hst : s.unit.statement? <;> simp [hst]
    · have hread : s.read v l = s.take v l.text.length .code := by rw [read, if_neg he]
      rw [hnext (d := g ++ [l]) ?_ hbefore hafter, hread]
      · simp
      · rw [hread]
        exact gathers_read hv hr hd hs hl (by rw [hs, ← hjoin]) h (by simpa using he)

end Scan

/-- Splitting a script is lexing it and cutting the lexemes into units. -/
theorem splitPartial_eq_splitting_lex {v : Vendor} (hv : v.Plain) (text : String) :
    splitPartial v text = (lex v [] text.toList).splitting v := by
  have h := Scan.outcome_eq (s := Scan.start v text.toList) (g := []) hv rfl hv.delimiter rfl
    (Gathers.empty ..)
  simpa [Scan.outcome, Scan.start, splitPartial, Lexing.splitting] using h

theorem split_eq_ok_iff {v : Vendor} {text : String} {script : Script} :
    split v text = .ok script ↔ splitPartial v text = ⟨script, none⟩ := by
  unfold split
  cases h : splitPartial v text with
  | mk s f => cases f <;> simp

/-- The one pass of a scan over a script comes to the same as lexing the whole script first and
cutting it into units then, for every built-in vendor without directives. -/
theorem splitPartial_eq_splitting_of_mem {v : Vendor} (hv : v ∈ Vendor.plainBuiltins)
    (text : String) : splitPartial v text = (lex v [] text.toList).splitting v :=
  splitPartial_eq_splitting_lex (Vendor.plain_of_mem hv) text

/-- A block of PL/SQL up to its marker line, a statement, and a comment that never closes. -/
theorem splitPartial_eq_splitting_block :
    let text := "BEGIN x; END;\n/\nSELECT 1; /* z"
    let splitting : Splitting :=
      ⟨[⟨.procedural, "BEGIN x; END;"⟩, ⟨.regular, "SELECT 1"⟩], some (.comment ⟨26, 3, 11⟩)⟩
    oracle ∈ Vendor.plainBuiltins ∧ splitPartial oracle text = splitting ∧
      (lex oracle [] text.toList).splitting oracle = splitting := by
  intro text splitting
  have hv : oracle ∈ Vendor.plainBuiltins := Vendor.mem_plainBuiltins.2 (.inl rfl)
  have hscan : splitPartial oracle text = splitting := by decide +kernel
  exact ⟨hv, hscan, (splitPartial_eq_splitting_of_mem hv text).symm.trans hscan⟩

/-- Behind `E` a backslash takes the quote along; the tag of the other literal has a name. -/
example : (lex postgresql [] "E\x27\\\x27\x27 $a$;$a$".toList).lexemes =
    [⟨.code, ['E']⟩, ⟨.literal, "\x27\\\x27\x27".toList⟩, ⟨.code, [' ']⟩, ⟨.literal, "$a$;$a$".toList⟩] := by
  decide +kernel

end SqlScript
