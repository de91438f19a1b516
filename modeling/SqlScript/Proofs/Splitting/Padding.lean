import SqlScript.Proofs.Lexing.Scan
import SqlScript.Proofs.Splitting.Ends

/-!
# Units of nothing but blanks and comments

`Padding` is a text of blanks and whole comments. As long as a unit is nothing else, a scan is in code
or in a comment (`Scan.Pads`); from its first significant character on it stays significant, and the
text from there on has decided its kind (`Scan.Begun`). One of the two holds at every place
(`Scan.sorted_next`), unless a literal opens where the delimiter begins too: such a literal comes into
the unit unnoticed. So the units that make no statement are padding (`splitPartial_drops_padding`).
-/

namespace SqlScript
open Text

/-- Blanks and comments. The last comment may go on to the end of the script, if the text does. -/
inductive Padding (atEnd : Prop) : List Char → Prop
  | nil : Padding atEnd []
  | blank {c : Char} {t : List Char} (hc : isBlank c) (ht : Padding atEnd t) : Padding atEnd (c :: t)
  | lineComment {line t : List Char} (hline : '\n' ∉ line) (ht : Padding atEnd t) :
    Padding atEnd ('-' :: '-' :: (line ++ '\n' :: t))
  | blockComment {body t : List Char} (hbody : through? ['*', '/'] body = some body) (ht : Padding atEnd t) :
    Padding atEnd ('/' :: '*' :: (body ++ t))
  | lastComment {line : List Char} (hend : atEnd) (hline : '\n' ∉ line) : Padding atEnd ('-' :: '-' :: line)

namespace Padding
variable {atEnd : Prop} {p q : List Char}

theorem append (hp : Padding False p) (hq : Padding atEnd q) : Padding atEnd (p ++ q) := by
  induction hp with
  | nil => exact hq
  | blank hc _ ih => exact .blank hc ih
  | @lineComment line t hline _ ih => simpa using Padding.lineComment hline ih
  | @blockComment body t hbody _ ih => simpa using Padding.blockComment hbody ih
  | lastComment hend => exact hend.elim

theorem mono (hp : Padding False p) : Padding atEnd p := by
  simpa using hp.append (.nil : Padding atEnd [])

/-- What padding begins with. -/
theorem cons_cases {c : Char} {w : List Char} (h : Padding atEnd (c :: w)) :
    isBlank c ∧ Padding atEnd w ∨
    (∃ line t, c = '-' ∧ '\n' ∉ line ∧ w = '-' :: (line ++ '\n' :: t) ∧ Padding atEnd t) ∨
    (∃ body t, c = '/' ∧ through? ['*', '/'] body = some body ∧ w = '*' :: (body ++ t) ∧ Padding atEnd t) ∨
    ∃ line, c = '-' ∧ '\n' ∉ line ∧ w = '-' :: line := by
  cases h with
  | blank hc ht => exact .inl ⟨hc, ht⟩
  | lineComment hline ht => exact .inr (.inl ⟨_, _, rfl, hline, rfl, ht⟩)
  | blockComment hbody ht => exact .inr (.inr (.inl ⟨_, _, rfl, hbody, rfl, ht⟩))
  | lastComment hend hline => exact .inr (.inr (.inr ⟨_, rfl, hline, rfl⟩))

/-- Padding in front does not show in whether a text is padding. -/
theorem of_append (hp : Padding False p) (h : Padding atEnd (p ++ q)) : Padding atEnd q := by
  induction hp with
  | nil => exact h
  | @blank c t hc _ ih =>
    rcases h.cons_cases with ⟨-, ht⟩ | ⟨_, _, rfl, -⟩ | ⟨_, _, rfl, -⟩ | ⟨_, rfl, -⟩
    · exact ih ht
    all_goals cases hc
  | @lineComment line t hline _ ih =>
    rcases h.cons_cases with ⟨hc, -⟩ | ⟨line', t', -, hline', heq, ht⟩ | ⟨_, _, hc, -⟩ | ⟨line', -, hline', heq⟩
    · cases hc
    · have hcut : line ++ '\n' :: (t ++ q) = line' ++ '\n' :: t' := by simpa using heq
      exact ih ((append_line_feed_inj hline hline' hcut).2 ▸ ht)
    · cases hc
    · obtain rfl : line ++ '\n' :: (t ++ q) = line' := by simpa using heq
      simp at hline'
  | @blockComment body t hbody _ ih =>
    rcases h.cons_cases with ⟨hc, -⟩ | ⟨_, _, hc, -⟩ | ⟨body', t', -, hbody', heq, ht⟩ | ⟨_, hc, -⟩
    · cases hc
    · cases hc
    · have hcut : body ++ (t ++ q) = body' ++ t' := by simpa using heq
      -- both bodies are what is read up to the first closer of the same text
      have hthrough := through?_append hbody (t ++ q)
      rw [hcut, through?_append hbody' t'] at hthrough
      obtain rfl := Option.some.inj hthrough
      exact ih (List.append_cancel_left hcut ▸ ht)
    · cases hc
  | lastComment hend => exact hend.elim

/-- What begins a unit is no padding. -/
theorem not_of_beginsUnit {d : Delimiter} {z : List Char} (hq : q ≠ []) (h : Piece.beginsUnit d (q ++ z)) :
    ¬ Padding atEnd q := by
  obtain ⟨c, w, rfl⟩ := List.exists_cons_of_ne_nil hq
  obtain ⟨hblank, hline, hblock, -⟩ := Piece.beginsUnit_cons.1 h
  intro hp
  rcases hp.cons_cases with ⟨hc, -⟩ | ⟨_, _, rfl, -, rfl, -⟩ | ⟨_, _, rfl, -, rfl, -⟩ | ⟨_, rfl, -, rfl⟩
  · rw [hc] at hblank
    cases hblank
  · exact hline ⟨_, rfl⟩
  · exact hblock ⟨_, rfl⟩
  · exact hline ⟨_, rfl⟩

/-- A comment to the end of the line, through the line feed behind it if there is one. -/
theorem of_wholeLine (t : List Char) :
    Padding (t.drop (wholeLine t).length = []) ('-' :: '-' :: wholeLine t) := by
  by_cases h : '\n' ∈ t
  · rw [wholeLine_of_mem h]
    exact .lineComment (line_feed_notMem_firstLine t) .nil
  · rw [wholeLine_eq_self h]
    exact .lastComment (List.drop_length) h

end Padding

/-- Between the marks of a literal. -/
def Region.isLiteral : Region → Bool
  | .quoted .. | .dollarQuoted _ => true
  | .code | .lineComment | .blockComment => false

namespace Scan
variable {v : Vendor} {s : Scan} {lead own : List Char}

/-- A literal opens ahead. -/
def opensLiteral (v : Vendor) (s : Scan) : Bool :=
  s.region == .code && (s.next v).region.isLiteral

/-- The unit is padding, once the comment that the scan may be in has come to its end. -/
structure Pads (s : Scan) : Prop where
  significant : s.unit.significant = false
  procedural : s.unit.procedural = false
  region : s.region.isLiteral = false
  text : ∀ body, s.region.through? s.rest = some body →
    Padding (s.rest.drop body.length = []) (s.unit.text.reverse ++ body)

/-- The unit is the padding `lead` and, from its first significant character on, `own`. -/
structure Begun (v : Vendor) (s : Scan) (lead own : List Char) : Prop where
  significant : s.unit.significant = true
  text : s.unit.text.reverse = lead ++ own
  padding : Padding False lead
  ne_nil : own ≠ []
  before : own.reverse <+: s.before
  begins : Piece.beginsUnit s.delimiter (own ++ s.rest)
  procedural : s.unit.procedural = v.isProceduralStart (own ++ s.rest)

/-- The unit is padding, or has got to its first significant character. -/
def Sorted (v : Vendor) (s : Scan) : Prop :=
  s.Pads ∨ ∃ lead own, s.Begun v lead own

theorem Pads.padding (h : s.Pads) (hr : s.region = .code) : Padding (s.rest = []) s.unit.text.reverse := by
  simpa using h.text [] (by rw [hr]; rfl)

theorem Pads.padding_of_rest_ne_nil (h : s.Pads) (hr : s.region = .code) (hs : s.rest ≠ []) :
    Padding False s.unit.text.reverse := by
  simpa [hs] using h.padding hr

theorem pads_of_unit (hr : s.region = .code) (hu : s.unit = {}) : s.Pads := by
  refine ⟨by rw [hu], by rw [hu], by rw [hr]; rfl, fun body hbody => ?_⟩
  rw [hr] at hbody
  obtain rfl := Option.some.inj hbody
  rw [hu]
  exact .nil

theorem pads_next_of_ends (hr : s.region = .code) (h : s.move v = .delimiter ∨ s.move v = .markerLine) :
    (s.next v).Pads := by
  rcases h with h | h
  · rw [next, h]
    exact pads_of_unit hr rfl
  · rw [next, h]
    exact pads_of_unit hr rfl

theorem Begun.take (h : s.Begun v lead own) (n : Nat) (r : Region) :
    (s.take v n r).Begun v lead (own ++ s.rest.take n) := by
  have hstarts : s.startsUnit = false := by rw [startsUnit_eq_beginsUnit, h.significant]; rfl
  have hahead : own ++ s.rest.take n ++ (s.take v n r).rest = own ++ s.rest := by
    rw [take_rest, List.append_assoc, List.take_append_drop]
  refine ⟨?_, ?_, h.padding, ?_, ?_, ?_, ?_⟩
  · rw [take_unit_significant, h.significant, Bool.true_or]
  · rw [take_unit_text, List.reverse_append, List.reverse_reverse, h.text, List.append_assoc]
  · simp [h.ne_nil]
  · rw [take_before, List.reverse_append]
    exact (List.prefix_append_right_inj _).2 h.before
  · rw [hahead]
    exact h.begins
  · rw [hahead, take_unit_procedural, if_neg (by simp [hstarts]), h.procedural]

/-- The first significant character comes into the unit. -/
theorem Pads.begin (h : s.Pads) (hr : s.region = .code) (hs : s.rest ≠ [])
    (hb : Piece.beginsUnit s.delimiter s.rest) {n : Nat} (hn : 0 < n) (r : Region) :
    (s.take v n r).Begun v s.unit.text.reverse (s.rest.take n) := by
  have hstarts : s.startsUnit = true := by rw [startsUnit_eq_beginsUnit, h.significant, hb]; rfl
  have hahead : s.rest.take n ++ (s.take v n r).rest = s.rest := List.take_append_drop n s.rest
  refine ⟨?_, ?_, h.padding_of_rest_ne_nil hr hs, ?_, ?_, ?_, ?_⟩
  · rw [take_unit_significant, hr, hb]
    simp
  · rw [take_unit_text, List.reverse_append, List.reverse_reverse]
  · simp [hs]
    omega
  · rw [take_before]
    exact List.prefix_append _ _
  · rw [hahead]
    exact hb
  · rw [hahead, take_unit_procedural, if_pos ⟨hr, hstarts⟩]

/-- What does not begin the unit leaves it padding. -/
theorem Pads.take (h : s.Pads) {n : Nat} {r : Region}
    (hb : s.region = .code → Piece.beginsUnit s.delimiter s.rest = false) (hr : r.isLiteral = false)
    (htext : ∀ body, r.through? (s.rest.drop n) = some body →
      Padding ((s.rest.drop n).drop body.length = []) (s.unit.text.reverse ++ (s.rest.take n ++ body))) :
    (s.take v n r).Pads := by
  refine ⟨?_, ?_, hr, fun body hbody => ?_⟩
  · rw [take_unit_significant, h.significant, Bool.false_or, Bool.and_eq_false_iff]
    by_cases hc : s.region = .code
    · exact .inr (hb hc)
    · exact .inl (by simpa using hc)
  · have hnot : ¬ (s.region = .code ∧ s.startsUnit) := by
      rintro ⟨hc, hstarts⟩
      rw [startsUnit_eq_beginsUnit, hb hc, Bool.and_false] at hstarts
      cases hstarts
    rw [take_unit_procedural, if_neg hnot, h.procedural]
  · rw [take_unit_text, List.reverse_append, List.reverse_reverse, List.append_assoc]
    exact htext body hbody

/-- A comment goes on as padding. -/
theorem Pads.next_of_comment (h : s.Pads) (hr : s.region ≠ .code) (hs : s.rest ≠ []) : (s.next v).Pads := by
  rw [next_of_region_ne_code hr]
  rcases Region.through?_advance hr hs with ⟨hcode, hth⟩ | ⟨hsame, hth⟩
  · have htext := h.text _ hth
    rw [hcode]
    refine h.take (fun hc => absurd hc hr) rfl fun body hbody => ?_
    obtain rfl := Option.some.inj hbody
    have hlength : s.rest.drop (s.rest.take (s.region.advance s.rest).1).length =
        s.rest.drop (s.region.advance s.rest).1 := by
      rw [List.length_take, ← List.drop_eq_drop_min]
    rw [hlength] at htext
    simpa using htext
  · rw [hsame]
    refine h.take (fun hc => absurd hc hr) h.region fun body hbody => ?_
    rw [hbody] at hth
    have htext := h.text _ hth
    have hdrop : s.rest.drop (s.rest.take (s.region.advance s.rest).1 ++ body).length =
        (s.rest.drop (s.region.advance s.rest).1).drop body.length := by
      rw [List.length_append, List.length_take, List.drop_drop]
      by_cases hle : (s.region.advance s.rest).1 ≤ s.rest.length
      · rw [Nat.min_eq_left hle]
      · rw [List.drop_eq_nil_of_le (by omega), List.drop_eq_nil_of_le (by omega)]
    rwa [hdrop] at htext

/-- A mark that opens a literal away from the delimiter begins a unit. -/
theorem beginsUnit_of_mark {d : Delimiter} {c : Char} {text : List Char}
    (hc : c = '\x27' ∨ c = '"' ∨ c = '$') (hd : ¬ d.chars <+: c :: text) :
    Piece.beginsUnit d (c :: text) := by
  refine Piece.beginsUnit_cons.2 ⟨?_, ?_, ?_, hd⟩
  · rcases hc with rfl | rfl | rfl <;> decide
  · rcases hc with rfl | rfl | rfl <;> simp
  · rcases hc with rfl | rfl | rfl <;> simp

/-- What opens in a unit of padding and does not begin it is a comment. -/
theorem Pads.take_opened (h : s.Pads) (hr : s.region = .code) (hs : s.rest ≠ [])
    (hb : Piece.beginsUnit s.delimiter s.rest = false) {n : Nat} {r : Region}
    (ho : Region.openedBy? v s.before s.rest = some (n, r))
    (hopen : r.isLiteral → ¬ s.delimiter.chars <+: s.rest) : (s.take v n r).Pads := by
  have hpadding := h.padding_of_rest_ne_nil hr hs
  obtain ⟨c, text, hrest⟩ := List.exists_cons_of_ne_nil hs
  have hmark : c = '\x27' ∨ c = '"' ∨ c = '$' → s.delimiter.chars <+: s.rest := by
    intro hc
    by_contra hd
    rw [hrest] at hb hd
    rw [beginsUnit_of_mark hc hd] at hb
    cases hb
  rw [hrest] at ho
  rcases Region.openedBy?_cases ho with
    ⟨rfl, rfl, u, hu⟩ | ⟨rfl, rfl, u, hu⟩ | ⟨mark, backslash, rfl, -, rfl, hc⟩ | ⟨tag, rfl, -, hc, -⟩
  · refine h.take (fun _ => hb) rfl fun body hbody => ?_
    rw [hrest, ← hu] at hbody ⊢
    obtain rfl := Option.some.inj hbody
    exact hpadding.append (Padding.of_wholeLine u)
  · refine h.take (fun _ => hb) rfl fun body hbody => ?_
    rw [hrest, ← hu] at hbody ⊢
    have hself : Padding False ('/' :: '*' :: (body ++ [])) :=
      .blockComment (through?_self (by simp) hbody) .nil
    rw [List.append_nil] at hself
    exact hpadding.append hself.mono
  · exact absurd (hmark (hc.imp_right .inl)) (hopen rfl)
  · exact absurd (hmark (.inr (.inr hc))) (hopen rfl)

/-- A character of code in a unit of padding that does not begin it and is no delimiter is a blank. -/
theorem Pads.take_char (h : s.Pads) (hr : s.region = .code) (hs : s.rest ≠ [])
    (hb : Piece.beginsUnit s.delimiter s.rest = false)
    (ho : Region.openedBy? v s.before s.rest = none) (hd : s.atDelimiter = false) :
    (s.take v 1 .code).Pads := by
  have hpadding := h.padding_of_rest_ne_nil hr hs
  obtain ⟨c, text, hrest⟩ := List.exists_cons_of_ne_nil hs
  rw [hrest] at ho
  rw [atDelimiter, ← Bool.not_eq_true, List.isPrefixOf_iff_prefix, hrest] at hd
  obtain ⟨hline, hblock, -⟩ := Region.openedBy?_eq_none_iff.1 ho
  have hblank : isBlank c := by
    by_contra hblank
    rw [hrest, Piece.beginsUnit_cons.2 ⟨by simpa using hblank, hline, hblock, hd⟩] at hb
    cases hb
  refine h.take (fun _ => hb) rfl fun body hbody => ?_
  obtain rfl := Option.some.inj hbody
  rw [hrest]
  exact hpadding.append (.blank hblank .nil)

/-- From padding a move in code leads to padding, or to the first significant character. -/
theorem Pads.sorted_next (h : s.Pads) (hr : s.region = .code) (hs : s.rest ≠ [])
    (hopen : s.opensLiteral v → s.unit.significant ∨ ¬ s.atDelimiter) : (s.next v).Sorted v := by
  have hmove : s.move v = s.moveInCode v := if_pos hr
  rcases s.moveInCode_cases v with
    ⟨-, hm⟩ | ⟨d, -, hm⟩ | ⟨n, r, ho, hm⟩ | ⟨-, -, -, hm⟩ | ⟨ho, hd, hm⟩ <;> rw [← hmove] at hm
  · exact .inl (pads_next_of_ends hr (.inr hm))
  · have hnext : s.next v = { s.skip ((firstLine s.rest).length + 1) with delimiter := d } := by
      rw [next, hm]; rfl
    rw [hnext]
    refine .inl ⟨h.significant, h.procedural, h.region, fun body hbody => ?_⟩
    have hcode : Region.through? .code (s.skip ((firstLine s.rest).length + 1)).rest = some body := by
      rw [← hr]
      exact hbody
    obtain rfl := Option.some.inj hcode
    rw [List.append_nil]
    exact (h.padding_of_rest_ne_nil hr hs).mono
  · have hnext : s.next v = s.take v n r := next_of_keep hm
    rw [hnext]
    by_cases hb : Piece.beginsUnit s.delimiter s.rest
    · exact .inr ⟨_, _, h.begin hr hs hb (Region.openedBy?_eq_some ho).1 r⟩
    refine .inl (h.take_opened hr hs (by simpa using hb) ho fun hliteral hat => ?_)
    have hliteral : s.opensLiteral v := by rw [opensLiteral, hnext, take_region, hliteral, hr]; rfl
    rw [h.significant, atDelimiter, List.isPrefixOf_iff_prefix] at hopen
    simpa [hat] using hopen hliteral
  · exact .inl (pads_next_of_ends hr (.inl hm))
  · rw [next_of_keep hm]
    by_cases hb : Piece.beginsUnit s.delimiter s.rest
    · exact .inr ⟨_, _, h.begin hr hs hb Nat.one_pos _⟩
    have hends : s.delimiterEnds v = true := by rw [delimiterEnds, h.procedural]; rfl
    rw [hends, Bool.and_true] at hd
    exact .inl (h.take_char hr hs (by simpa using hb) ho hd)

/-- A move keeps a unit sorted. -/
theorem Sorted.next (h : s.Sorted v) (hs : s.rest ≠ [])
    (hopen : s.opensLiteral v → s.unit.significant ∨ ¬ s.atDelimiter) : (s.next v).Sorted v := by
  rcases h with h | ⟨lead, own, h⟩
  · by_cases hr : s.region = .code
    · exact h.sorted_next hr hs hopen
    · exact .inl (h.next_of_comment hr hs)
  · rcases s.move_cases v with ⟨n, r, hm, -⟩ | ⟨hr, hm, -⟩ | ⟨hr, hm, -⟩ | ⟨d, -, -, hd⟩
    · rw [next_of_keep hm]
      exact .inr ⟨_, _, h.take n r⟩
    · exact .inl (pads_next_of_ends hr (.inl hm))
    · exact .inl (pads_next_of_ends hr (.inr hm))
    · -- no line sets a delimiter once the unit is significant
      have hstarts := (directive?_eq_some hd).2.1
      rw [startsUnit, h.significant] at hstarts
      cases hstarts

theorem Begun.statement?_eq (h : s.Begun v lead own) : s.unit.statement? =
    some ⟨if s.unit.procedural then .procedural else .regular, String.ofList s.unit.body⟩ := by
  obtain ⟨c, w, hown⟩ := List.exists_cons_of_ne_nil h.ne_nil
  have hbegins := h.begins
  rw [hown, List.cons_append] at hbegins
  have hmem : c ∈ s.unit.text.reverse := by rw [h.text, hown]; simp
  have hne : (trim s.unit.text.reverse).isEmpty = false := by
    rw [List.isEmpty_eq_false_iff]
    exact List.ne_nil_of_mem (mem_trim hmem (Piece.beginsUnit_cons.1 hbegins).1)
  rw [Gathered.statement?, h.significant, hne]
  rfl

theorem Pads.statement?_eq (h : s.Pads) : s.unit.statement? = none := by
  rw [Gathered.statement?, h.significant]
  rfl

end Scan

/-- Each literal of the script opens in a unit that is significant already, or away from the delimiter. -/
def NoticesLiterals (v : Vendor) (text : String) : Prop :=
  ∀ s ∈ (Scan.start v text.toList).visited v text.length, s.opensLiteral v →
    s.unit.significant ∨ ¬ s.atDelimiter

instance (v : Vendor) (text : String) : Decidable (NoticesLiterals v text) :=
  List.decidableBAll _ _

theorem NoticesLiterals.sorted {v : Vendor} {text : String} (h : NoticesLiterals v text) :
    ∀ s ∈ (Scan.start v text.toList).ends v, s.Sorted v := by
  have hlength : (Scan.start v text.toList).rest.length = text.length := String.length_toList
  refine Scan.forall_ends (fun _ hs _ hopen h => h.next hs hopen) Region.hasCloser_code
    (.inl (Scan.pads_of_unit rfl rfl)) ?_
  rw [hlength]
  exact h

/-- A unit makes a statement unless it is nothing but blanks and whole comments, as long as no literal
comes in unnoticed. -/
theorem splitPartial_drops_padding {v : Vendor} {text : String} (hopen : NoticesLiterals v text) :
    (splitPartial v text).script =
        ((Scan.start v text.toList).ends v).filterMap (·.unit.statement?) ∧
      ∀ s ∈ (Scan.start v text.toList).ends v,
        s.unit.statement? = none ↔ Padding (s.rest = []) s.unit.text.reverse := by
  refine ⟨script_splitPartial v text, fun s hs => ?_⟩
  rcases hopen.sorted s hs with h | ⟨lead, own, h⟩
  · refine iff_of_true h.statement?_eq ?_
    rcases Scan.ends_cases Region.hasCloser_code hs with ⟨hrest, hr | hr⟩ | ⟨hr, -⟩
    · exact h.padding hr
    · simpa [hrest] using h.text [] (by rw [hr, hrest]; rfl)
    · exact h.padding hr
  · refine iff_of_false (by rw [h.statement?_eq]; nofun) fun hp => ?_
    rw [h.text] at hp
    exact Padding.not_of_beginsUnit h.ne_nil h.begins (h.padding.of_append hp)

/-- A comment alone, a literal away from the delimiter, and a comment that the end of the script cuts
off. -/
theorem splitPartial_drops_padding_comments :
    let text := "DELIMITER //\n-- a\n//\x27//\x27 /* b */// --"
    let start := Scan.start mysql text.toList
    NoticesLiterals mysql text ∧
      (splitPartial mysql text).script = [⟨.regular, "\x27//\x27 /* b */"⟩] ∧
      (start.ends mysql).map (·.unit.text.reverse) =
        ["-- a\n".toList, "\x27//\x27 /* b */".toList, " --".toList] ∧
      ∀ s ∈ start.ends mysql, s.unit.statement? = none ↔ Padding (s.rest = []) s.unit.text.reverse := by
  intro text start
  have hopen : NoticesLiterals mysql text := by decide +kernel
  refine ⟨hopen, by decide +kernel, by decide +kernel, (splitPartial_drops_padding hopen).2⟩

/-- A literal that opens at the delimiter is lost if the unit holds nothing else. -/
theorem literal_at_delimiter_dropped :
    ¬ ∀ v ∈ Vendor.builtins, ∀ text : String, ∀ s ∈ (Scan.start v text.toList).ends v,
      s.unit.statement? = none → Padding (s.rest = []) s.unit.text.reverse := by
  intro hall
  let text := "DELIMITER \x27\n\x27x\x27"
  have hend : (Scan.start mysql text.toList).finish mysql ∈ (Scan.start mysql text.toList).ends mysql := by
    decide +kernel
  have hp := hall mysql (by simp [Vendor.builtins]) text _ hend (by decide +kernel)
  have htext : ((Scan.start mysql text.toList).finish mysql).unit.text.reverse = "\x27x\x27".toList := by
    decide +kernel
  rw [htext] at hp
  rcases hp.cons_cases with ⟨hc, -⟩ | ⟨_, _, hc, -⟩ | ⟨_, _, hc, -⟩ | ⟨_, hc, -⟩
  · cases hc
  · cases hc
  · cases hc
  · cases hc

end SqlScript
