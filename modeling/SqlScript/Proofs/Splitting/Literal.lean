import SqlScript.Proofs.Lexing.Scan

/-!
# Quoted literals with doubled marks

A scan that meets a doubled mark in a literal closes the literal with the first of the two and opens
another with the second (`Scan.move_reopening`). Seen as a whole, the literal goes on: `Literal.parts`
reads it up to the mark that closes it. The mark of a literal is a quote, so nothing else can happen
at the second of two marks: it starts no line, sets no delimiter and opens no comment.
-/

namespace SqlScript
open Text

/-- What opens and closes a quoted literal. -/
def Region.IsMark (mark : Char) : Prop :=
  mark = '\x27' ∨ mark = '"'

namespace Literal

/-- A part of an open literal. -/
inductive Part
  | char (c : Char)
  /-- A backslash and the character that it takes along. -/
  | escaped (c : Char)
  /-- Two marks for one. -/
  | doubled
  | close
deriving Repr, DecidableEq

/-- The parts of an open literal, up to the mark that closes it or to the end of the text. Whether a
backslash takes the next character along may change behind the first doubled mark, to `later`. -/
def parts (mark : Char) (later backslash : Bool) : List Char → List Part
  | [] => []
  | [c] => if backslash && c == '\\' then [.char c] else if c == mark then [.close] else [.char c]
  | c :: d :: rest =>
    if backslash && c == '\\' then .escaped d :: parts mark later backslash rest
    else if c == mark then
      if d == mark then .doubled :: parts mark later later rest else [.close]
    else .char c :: parts mark later backslash (d :: rest)

/-- The parts from the first doubled mark on. -/
def late (ps : List Part) : List Part :=
  ps.dropWhile (· != .doubled)

theorem late_suffix (p : Part) (ps : List Part) : late ps <:+ late (p :: ps) := by
  by_cases hp : p = .doubled
  · rw [late, late, hp]
    exact (List.dropWhile_suffix _).trans (List.suffix_cons _ ps)
  · have hsame : late (p :: ps) = late ps := by
      rw [late, late, List.dropWhile_cons, if_pos (by simpa using hp)]
    exact hsame ▸ List.suffix_rfl

variable {mark c d : Char} {later backslash : Bool} {rest : List Char}

theorem parts_escaped (d : Char) (rest : List Char) :
    parts mark later true ('\\' :: d :: rest) = .escaped d :: parts mark later true rest := by
  simp [parts]

theorem parts_backslash : parts mark later true ['\\'] = [.char '\\'] := by
  simp [parts]

theorem parts_doubled (h : (backslash && mark == '\\') = false) (rest : List Char) :
    parts mark later backslash (mark :: mark :: rest) = .doubled :: parts mark later later rest := by
  simp [parts, h]

theorem parts_char (h : (backslash && c == '\\') = false) (hc : c ≠ mark) (rest : List Char) :
    parts mark later backslash (c :: rest) = .char c :: parts mark later backslash rest := by
  cases rest <;> simp [parts, h, hc]

end Literal

namespace Region.IsMark
variable {mark : Char}

theorem ne_backslash (h : IsMark mark) : mark ≠ '\\' := by
  rcases h with rfl | rfl <;> decide

theorem not_escapes (h : IsMark mark) (backslash : Bool) : (backslash && mark == '\\') = false := by
  simp [h.ne_backslash]

theorem isBlank_eq_false (h : IsMark mark) : isBlank mark = false := by
  rcases h with rfl | rfl <;> decide

theorem ne_lineFeed (h : IsMark mark) : mark ≠ '\n' := by
  rcases h with rfl | rfl <;> decide

/-- A mark always opens a literal, and behind another mark with the escape rule of the vendor. -/
theorem openedBy?_eq (h : IsMark mark) (v : Vendor) (before rest : List Char) :
    ∃ backslash, openedBy? v before (mark :: rest) = some (1, .quoted mark backslash) ∧
      (v.backslashEscapes → backslash) := by
  rcases h with rfl | rfl
  · refine ⟨_, rfl, ?_⟩
    intro hv
    simp [hv]
  · exact ⟨_, rfl, id⟩

theorem openedBy?_behind (h : IsMark mark) (v : Vendor) (before rest : List Char) :
    openedBy? v (mark :: before) (mark :: rest) = some (1, .quoted mark v.backslashEscapes) := by
  rcases h with rfl | rfl
  · simp [openedBy?, afterEscapeMark]
  · rfl

end Region.IsMark

theorem Region.quoted_ne_code (mark : Char) (backslash : Bool) : quoted mark backslash ≠ .code := nofun

theorem Region.hasCloser_quoted (mark : Char) (backslash : Bool) : (quoted mark backslash).HasCloser :=
  nofun

/-- Reading on stays in a region or leaves it for code. -/
theorem Region.advance_snd (r : Region) (text : List Char) :
    (r.advance text).2 = r ∨ (r.advance text).2 = .code := by
  cases r with
  | code => exact .inl rfl
  | quoted mark backslash =>
    simp only [advance]
    split
    · exact .inl rfl
    · split
      · exact .inr rfl
      · exact .inl rfl
  | lineComment => simp only [advance]; split <;> simp
  | blockComment => simp only [advance]; split <;> simp
  | dollarQuoted tag => simp only [advance]; split <;> simp

theorem Region.isMark_of_openedBy? {v : Vendor} {before text : List Char} {n : Nat} {mark : Char}
    {backslash : Bool} (h : openedBy? v before text = some (n, .quoted mark backslash)) :
    IsMark mark ∧ n = 1 ∧ text.head? = some mark ∧ (v.backslashEscapes → backslash) := by
  cases text with
  | nil =>
    have := openedBy?_le h
    have := (openedBy?_eq_some h).1
    simp_all
  | cons c rest =>
    rcases openedBy?_cases h with ⟨hr, -⟩ | ⟨hr, -⟩ | ⟨_, _, hr, rfl, rfl, hmark⟩ | ⟨_, hr, -⟩
    · cases hr
    · cases hr
    · cases hr
      obtain ⟨b, hb, hle⟩ := IsMark.openedBy?_eq hmark v before rest
      rw [h] at hb
      cases hb
      exact ⟨hmark, rfl, rfl, hle⟩
    · cases hr

theorem exists_wordsFrom_cons (c : Char) (current text : List Char) :
    ∃ word more, wordsFrom (current ++ [c]) text = (c :: word) :: more := by
  induction text generalizing current with
  | nil => exact ⟨current.reverse, [], by simp [wordsFrom]⟩
  | cons d text ih =>
    simp only [wordsFrom]
    split
    · exact ⟨current.reverse, wordsFrom [] text, by simp⟩
    · exact ih (d :: current)

/-- A line that sets a delimiter does not begin with a mark. -/
theorem directiveOfLine?_mark {mark : Char} (h : Region.IsMark mark) (rest : List Char) :
    directiveOfLine? (firstLine (mark :: rest)) = none := by
  have hline : firstLine (mark :: rest) = mark :: firstLine rest := by
    simp [firstLine, h.ne_lineFeed]
  obtain ⟨word, more, hwords⟩ := exists_wordsFrom_cons mark [] (firstLine rest)
  have hkeyword : sameIgnoringCase (mark :: word) "DELIMITER".toList = false := by
    have hne : foldAscii mark ≠ foldAscii 'D' := by rcases h with rfl | rfl <;> decide
    rw [sameIgnoringCase, beq_eq_false_iff_ne]
    exact fun heq => hne (List.cons.inj heq).1
  rw [directiveOfLine?, hline, words, wordsFrom, if_neg (by simp [h.isBlank_eq_false])]
  rw [List.nil_append] at hwords
  rw [hwords]
  cases more with
  | nil => rfl
  | cons token more => exact if_neg (Bool.not_eq_true _ ▸ hkeyword)

namespace Scan
variable {v : Vendor} {s : Scan} {mark : Char} {backslash : Bool} {rest : List Char}

/-- The mark of the literal that opens here, and whether a backslash in it takes the next character
along. -/
def opens? (v : Vendor) (s : Scan) : Option (Char × Bool) :=
  match s.region, s.move v with
  | .code, .keep _ (.quoted mark backslash) => some (mark, backslash)
  | _, _ => none

theorem opens?_eq_some (h : s.opens? v = some (mark, backslash)) :
    s.region = .code ∧ s.move v = .keep 1 (.quoted mark backslash) ∧ Region.IsMark mark ∧
      s.rest.head? = some mark ∧ (v.backslashEscapes → backslash) := by
  rw [opens?] at h
  split at h
  · next n mark' backslash' hr hmove =>
    cases h
    rw [move, if_pos hr] at hmove
    rcases s.moveInCode_cases v with ⟨-, hm⟩ | ⟨d, -, hm⟩ | ⟨n', r, ho, hm⟩ | ⟨-, -, -, hm⟩ | ⟨-, -, hm⟩ <;>
      rw [hm] at hmove <;> cases hmove
    obtain ⟨hmark, rfl, hhead, hvendor⟩ := Region.isMark_of_openedBy? ho
    exact ⟨hr, by rw [move, if_pos hr, hm], hmark, hhead, hvendor⟩
  · cases h

/-- Where a literal begins, one opens. -/
theorem opens?_of_next (hr : s.region = .code) (h : (s.next v).region = .quoted mark backslash) :
    s.opens? v = some (mark, backslash) := by
  rw [next] at h
  rw [opens?, hr]
  cases hm : s.move v with
  | keep n r =>
    obtain rfl : r = .quoted mark backslash := by rwa [hm] at h
    rfl
  | delimiter => simp [hm, make, hr] at h
  | markerLine => simp [hm, make, hr] at h
  | directive d => simp [hm, make, hr] at h

section Literal
variable {own : Bool} {c : Char}

theorem next_of_char (hr : s.region = .quoted mark own) (hrest : s.rest = c :: rest) (hc : c ≠ mark)
    (hescapes : (own && c == '\\') = false) : s.next v = s.take v 1 (.quoted mark own) := by
  have hcode : s.region ≠ .code := hr ▸ Region.quoted_ne_code mark own
  rw [next_of_region_ne_code hcode, hr, hrest, Region.advance_quoted_cons]
  simp [hescapes, hc]

theorem next_of_mark (hmark : Region.IsMark mark) (hr : s.region = .quoted mark own)
    (hrest : s.rest = mark :: rest) : s.next v = s.take v 1 .code := by
  have hcode : s.region ≠ .code := hr ▸ Region.quoted_ne_code mark own
  rw [next_of_region_ne_code hcode, hr, hrest, Region.advance_quoted_cons]
  simp [hmark.not_escapes]

end Literal

/-- Behind a mark the next mark opens a literal, whatever has been gathered so far. -/
theorem move_reopening (hmark : Region.IsMark mark) (hr : s.region = .code) {before : List Char}
    (hbefore : s.before = mark :: before) (hrest : s.rest = mark :: rest) :
    s.move v = .keep 1 (.quoted mark v.backslashEscapes) := by
  have hline : s.atMarkerLine v = false := by
    unfold atMarkerLine atLineStart
    rw [hbefore]
    cases v.blockEnd <;> simp [hmark.ne_lineFeed]
  have hdirective : s.directive? v = none := by
    unfold directive?
    rw [hrest, directiveOfLine?_mark hmark, ite_self]
  rw [move, if_pos hr, moveInCode, hline, hdirective, hbefore, hrest, hmark.openedBy?_behind]
  rfl

end Scan
end SqlScript
