import SqlScript.Proofs.Splitting.Run
import SqlScript.Proofs.Text.Line
import SqlScript.Proofs.Text.Words
import SqlScript.Proofs.Vendor.Offset

/-!
# A scan by offsets

An `OffsetScan` keeps its place as a byte offset. It cuts the whole text wherever it reads, compares single
bytes inside a literal, takes the delimiter as it comes and leaves it to a classifier by offsets to find
keywords, so nothing comes of a step that cuts beyond the text or within a character, and an empty delimiter
would hold it up. At the place of a scan of the text (`Scan.atOffsets`) each of its readings finds what that scan
has ahead: `Scan.take?_atOffsets`, `Scan.line?_atOffsets` and the like, one for each function.
-/

namespace SqlScript
open Text

structure OffsetScan where
  pos : Nat
  region : Region
  /-- The offset at which the region opened. -/
  opened : Nat
  delimiter : List Char
  /-- The unit that is being gathered. -/
  unit : Gathered
  /-- The statements so far, newest first. -/
  statements : List Statement

/-- The tag that the text starts with, cut out of it. -/
def Vendor.dollarTag? (v : Vendor) (rest : List Char) : Option (Option (List Char)) :=
  if v.dollarQuoting && ['$'].isPrefixOf rest then do
    let name ← from? rest 1
    let length := (find? (!Region.isTagChar ·) name).getD (byteLength name)
    let behind ← from? name length
    if ['$'].isPrefixOf behind && !(name.head?.map Char.isDigit).getD false then
      (upTo? rest (length + 2)).map some
    else some none
  else some none

namespace OffsetScan

def start (delimiter : List Char) : OffsetScan where
  pos := 0
  region := .code
  opened := 0
  delimiter
  unit := {}
  statements := []

section
variable (v : Vendor) (classify? : List Char → Option Bool) (text : List Char) (s : OffsetScan)

def rest? : Option (List Char) :=
  from? text s.pos

def atLineStart? : Option Bool :=
  if s.pos = 0 then some true else (byte? text (s.pos - 1)).map (· == asciiByte '\n')

/-- The rest of the line, and the offset of the next one. -/
def line? : Option (List Char × Nat) := do
  let rest ← s.rest? text
  match find? (· == '\n') rest with
  | some n => (upTo? rest n).map fun line => (line, s.pos + n + 1)
  | none => some (rest, byteLength text)

/-- The next `length` bytes become part of the unit. -/
def take? (length : Nat) : Option OffsetScan := do
  let piece ← slice? text s.pos (s.pos + length)
  return { s with pos := s.pos + length, unit := { s.unit with text := piece.reverse ++ s.unit.text } }

def takeChar? : Option OffsetScan := do
  let rest ← s.rest? text
  s.take? text ((rest.head?.map Char.utf8Size).getD 1)

def enter? (region : Region) (length : Nat) : Option OffsetScan :=
  { s with region, opened := s.pos }.take? text length

def close : OffsetScan :=
  { s with unit := {}, statements := s.unit.statement?.toList ++ s.statements }

/-- What comes behind a line that ends the unit, if there is one ahead. -/
def markerLine? : Option (Option OffsetScan) := do
  if ← s.atLineStart? text then
    match v.blockEnd with
    | .activeDelimiter => return none
    | .line token =>
      let (line, next) ← s.line? text
      return if sameIgnoringCase (trim line) token.toList then some { s.close with pos := next } else none
  else return none

/-- The token behind the word `DELIMITER`. -/
def directiveToken? (line : List Char) : Option (List Char) :=
  match words line with
  | keyword :: token :: _ => if sameIgnoringCase keyword "DELIMITER".toList then some token else none
  | _ => none

/-- What comes behind a line that sets another delimiter, if there is one ahead. -/
def directive? : Option (Option OffsetScan) :=
  if v.delimiterDirective then do
    let (line, next) ← s.line? text
    return (directiveToken? line).map fun token => { s with delimiter := token, pos := next }
  else some none

/-- The delimiter is ahead and would end the unit. -/
def endsUnit (rest : List Char) : Bool :=
  s.delimiter.isPrefixOf rest && (!s.unit.procedural || v.blockEnd == .activeDelimiter)

/-- Whether a backslash escapes in a literal that a single quote opens here. -/
def escapes? : Option Bool :=
  if v.backslashEscapes then some true
  else (upTo? text s.pos).map fun before => Region.afterEscapeMark before.reverse

/-- Whether a comment to the end of the line comes last is noted, unless the text ahead does not tell. -/
def noteTail (rest : List Char) : OffsetScan :=
  if (rest.head?.map isBlank).getD false || s.endsUnit v rest then s
  else { s with unit := { s.unit with commentTail := ['-', '-'].isPrefixOf rest } }

/-- The next piece of code. -/
def readPiece? (rest : List Char) : Option OffsetScan :=
  if ['-', '-'].isPrefixOf rest then s.enter? text .lineComment 2
  else if ['/', '*'].isPrefixOf rest then s.enter? text .blockComment 2
  else if ['\x27'].isPrefixOf rest then do
    let backslash ← s.escapes? v text
    s.enter? text (.quoted '\x27' backslash) 1
  else if ['"'].isPrefixOf rest then s.enter? text (.quoted '"' v.backslashEscapes) 1
  else do
    match ← v.dollarTag? rest with
    | some tag => s.enter? text (.dollarQuoted tag) (byteLength tag)
    | none =>
      if s.endsUnit v rest then return { s with pos := s.pos + byteLength s.delimiter }.close
      else s.takeChar? text

def stepCode? : Option OffsetScan := do
  let rest ← s.rest? text
  let comment := ['-', '-'].isPrefixOf rest || ['/', '*'].isPrefixOf rest
  let blank := (rest.head?.map isBlank).getD false
  if !s.unit.significant && !comment && !blank && !s.delimiter.isPrefixOf rest then
    match ← s.directive? v text with
    | some s => return s
    | none =>
      let procedural ← classify? rest
      ({ s with unit := { s.unit with significant := true, procedural } }.noteTail v rest).readPiece? v text rest
  else (s.noteTail v rest).readPiece? v text rest

def stepQuoted? (mark : Char) (backslash : Bool) : Option OffsetScan := do
  let byte ← byte? text s.pos
  if backslash && byte == asciiByte '\\' then
    let s ← s.take? text 1
    if s.pos < byteLength text then s.takeChar? text else return s
  else if byte == asciiByte mark then (s.take? text 1).map ({ · with region := .code })
  else s.takeChar? text

def stepLineComment? : Option OffsetScan := do
  let rest ← s.rest? text
  (if ['\n'].isPrefixOf rest then { s with region := .code } else s).takeChar? text

def stepUntil? (closer : List Char) : Option OffsetScan := do
  let rest ← s.rest? text
  if closer.isPrefixOf rest then (s.take? text (byteLength closer)).map ({ · with region := .code })
  else s.takeChar? text

def step? : Option OffsetScan :=
  match s.region with
  | .code => do
    match ← s.markerLine? v text with
    | some s => return s
    | none => s.stepCode? v classify? text
  | .quoted mark backslash => s.stepQuoted? text mark backslash
  | .lineComment => s.stepLineComment? text
  | .blockComment => s.stepUntil? text ['*', '/']
  | .dollarQuoted tag => s.stepUntil? text tag

/-- The place of an offset, which counts from the last line feed before it. -/
def location? (offset : Nat) : Option Location := do
  let before ← upTo? text offset
  let line ← from? before (byteLength (before.reverse.dropWhile (· != '\n')))
  return ⟨offset, min (before.count '\n' + 1) Location.maxCount, min (line.length + 1) Location.maxCount⟩

def result? : Option Splitting :=
  match s.region with
  | .code | .lineComment => some ⟨s.close.statements.reverse, none⟩
  | .quoted mark _ => (location? text s.opened).map fun l =>
      ⟨s.statements.reverse, some (.quote (String.singleton mark) l)⟩
  | .dollarQuoted tag => (location? text s.opened).map fun l =>
      ⟨s.statements.reverse, some (.quote (String.ofList tag) l)⟩
  | .blockComment => (location? text s.opened).map fun l => ⟨s.statements.reverse, some (.comment l)⟩

end

/-- The scan after steps up to the end of the text, but `n` steps at most. -/
def iterate? (v : Vendor) (classify? : List Char → Option Bool) (text : List Char) :
    Nat → OffsetScan → Option OffsetScan
  | 0, s => some s
  | n + 1, s => if s.pos < byteLength text then
      (s.step? v classify? text).bind (iterate? v classify? text n) else some s

theorem location?_reverse_append (behind ahead : List Char) :
    location? (behind.reverse ++ ahead) (byteLength behind) = some (.after behind) := by
  have hbefore : behind.reverse =
      (behind.dropWhile (· != '\n')).reverse ++ (behind.takeWhile (· != '\n')).reverse := by
    rw [← List.reverse_append, List.takeWhile_append_dropWhile]
  have hup := upTo?_byteLength behind.reverse ahead
  rw [byteLength_reverse] at hup
  have hline := from?_byteLength (behind.dropWhile (· != '\n')).reverse (behind.takeWhile (· != '\n')).reverse
  rw [← hbefore, byteLength_reverse] at hline
  rw [location?, hup]
  show (from? behind.reverse (byteLength (behind.reverse.reverse.dropWhile (· != '\n')))).bind _ = _
  rw [List.reverse_reverse, hline, Option.bind_some, List.count_reverse, List.length_reverse]
  rfl

end OffsetScan

namespace Scan
open OffsetScan

/-- The scan with its place as an offset, and the offset at which the region opened. -/
def atOffsets (s : Scan) (opened : Nat) : OffsetScan where
  pos := byteLength s.before
  region := s.region
  opened
  delimiter := s.delimiter.chars
  unit := s.unit
  statements := s.statements

def text (s : Scan) : List Char :=
  s.before.reverse ++ s.rest

/-- The next `n` characters become part of the unit, and nothing else changes. -/
def keep (s : Scan) (n : Nat) : Scan :=
  { s.skip n with unit := { s.unit with text := (s.rest.take n).reverse ++ s.unit.text } }

section
variable {v : Vendor} {classify? : List Char → Option Bool} {s : Scan} {o : Nat}

theorem next_text (v : Vendor) (s : Scan) : (s.next v).text = s.text := by
  rw [text, next, make_before, make_rest, List.reverse_append, List.reverse_reverse, List.append_assoc,
    List.take_append_drop, text]

theorem keep_text (n : Nat) : (s.keep n).text = s.text := by
  show ((s.rest.take n).reverse ++ s.before).reverse ++ s.rest.drop n = _
  rw [List.reverse_append, List.reverse_reverse, List.append_assoc, List.take_append_drop, text]

theorem keep_keep (n m : Nat) : (s.keep n).keep m = s.keep (n + m) := by
  simp [keep, skip, List.take_add, List.drop_drop]

theorem pos_lt_iff : (s.atOffsets o).pos < byteLength s.text ↔ s.rest ≠ [] := by
  show byteLength s.before < byteLength (s.before.reverse ++ s.rest) ↔ _
  rw [byteLength_append, byteLength_reverse]
  constructor
  · intro h hs
    rw [hs] at h
    exact Nat.lt_irrefl _ h
  · intro hs
    exact Nat.lt_add_of_pos_right (byteLength_pos hs)

theorem rest?_atOffsets : (s.atOffsets o).rest? s.text = some s.rest := by
  have hpos : (s.atOffsets o).pos = byteLength s.before.reverse := (byteLength_reverse s.before).symm
  rw [rest?, hpos, text, from?_byteLength]

theorem take?_atOffsets (n : Nat) :
    (s.atOffsets o).take? s.text (byteLength (s.rest.take n)) = some ((s.keep n).atOffsets o) := by
  have hslice := slice?_byteLength s.before.reverse (s.rest.take n) (s.rest.drop n)
  rw [List.take_append_drop, byteLength_reverse] at hslice
  have hpos : byteLength s.before + byteLength (s.rest.take n) = byteLength (s.keep n).before := by
    show _ = byteLength ((s.rest.take n).reverse ++ s.before)
    rw [byteLength_append, byteLength_reverse, Nat.add_comm]
  show (slice? s.text (byteLength s.before) (byteLength s.before + byteLength (s.rest.take n))).bind _ = _
  have hkeep : (s.keep n).atOffsets o = { (s.keep n).atOffsets o with
      pos := byteLength s.before + byteLength (s.rest.take n) } := by
    rw [hpos]
    rfl
  rw [text, hslice, hkeep]
  rfl

theorem takeChar?_atOffsets (hs : s.rest ≠ []) :
    (s.atOffsets o).takeChar? s.text = some ((s.keep 1).atOffsets o) := by
  obtain ⟨c, rest, hr⟩ := List.exists_cons_of_ne_nil hs
  have hlength : (s.rest.head?.map Char.utf8Size).getD 1 = byteLength (s.rest.take 1) := by
    rw [hr]
    rfl
  rw [takeChar?, rest?_atOffsets]
  show (s.atOffsets o).take? s.text ((s.rest.head?.map Char.utf8Size).getD 1) = _
  rw [hlength, take?_atOffsets]

theorem enter?_atOffsets {k : List Char} (hk : k.isPrefixOf s.rest) (r : Region) :
    (s.atOffsets o).enter? s.text r (byteLength k) =
      some (({ s with region := r }.keep k.length).atOffsets (byteLength s.before)) := by
  have htake : byteLength k = byteLength (s.rest.take k.length) := by
    rw [← List.prefix_iff_eq_take.1 (List.isPrefixOf_iff_prefix.1 hk)]
  rw [htake]
  exact take?_atOffsets (s := { s with region := r }) k.length

theorem atLineStart?_atOffsets : (s.atOffsets o).atLineStart? s.text = some s.atLineStart := by
  show (if byteLength s.before = 0 then some true else _) = some s.atLineStart
  rw [atLineStart]
  cases hb : s.before with
  | nil => rfl
  | cons c before =>
    have hc := c.utf8Size_pos
    obtain ⟨b, hbyte, hb'⟩ := exists_byte? before.reverse s.rest (c := c) (n := c.utf8Size - 1) (by omega)
    have hpos : byteLength (c :: before) - 1 = byteLength before.reverse + (c.utf8Size - 1) := by
      rw [byteLength_cons, byteLength_reverse]
      omega
    have htext : s.text = before.reverse ++ c :: s.rest := by
      rw [text, hb, List.reverse_cons, List.append_assoc]
      rfl
    have hzero : byteLength (c :: before) ≠ 0 := by
      rw [byteLength_cons]
      omega
    show (if byteLength (c :: before) = 0 then _ else (byte? s.text (byteLength s.before - 1)).map _) = _
    rw [if_neg hzero, hb, hpos, htext, hbyte, Option.map_some]
    have hiff := hb' '\n' (by decide)
    by_cases hline : c = '\n'
    · simp [hline, hiff.2 hline]
    · simp [hline, mt hiff.1 hline]

theorem line?_atOffsets : (s.atOffsets o).line? s.text =
    some (firstLine s.rest, byteLength (s.skip ((firstLine s.rest).length + 1)).before) := by
  have hnext : byteLength (s.skip ((firstLine s.rest).length + 1)).before =
      byteLength (wholeLine s.rest) + byteLength s.before := by
    show byteLength ((wholeLine s.rest).reverse ++ s.before) = _
    rw [byteLength_append, byteLength_reverse]
  rw [line?, rest?_atOffsets, hnext]
  by_cases hline : '\n' ∈ s.rest
  · obtain ⟨u, hu⟩ := exists_eq_firstLine_append hline
    have hfind : find? (· == '\n') s.rest = some (byteLength (firstLine s.rest)) := if_pos (by simpa using hline)
    have hup : upTo? s.rest (byteLength (firstLine s.rest)) = some (firstLine s.rest) :=
      upTo?_eq_some_iff.2 ⟨_, hu, rfl⟩
    simp only [Option.bind_eq_bind, Option.bind_some, hfind, hup, Option.map_some]
    rw [wholeLine_of_mem hline, byteLength_append]
    show some (firstLine s.rest, byteLength s.before + byteLength (firstLine s.rest) + 1) =
      some (firstLine s.rest, byteLength (firstLine s.rest) + 1 + byteLength s.before)
    rw [Nat.add_comm (byteLength s.before), Nat.add_right_comm]
  · have hfind : find? (· == '\n') s.rest = none := if_neg (by simpa using hline)
    simp only [Option.bind_eq_bind, Option.bind_some, hfind]
    rw [firstLine_eq_self hline, wholeLine_eq_self hline, text, byteLength_append, byteLength_reverse,
      Nat.add_comm]

theorem markerLine?_atOffsets : (s.atOffsets o).markerLine? v s.text = some (if s.atMarkerLine v then
    some ((s.close.skip ((firstLine s.rest).length + 1)).atOffsets o) else none) := by
  rw [markerLine?, atLineStart?_atOffsets, atMarkerLine]
  cases hstart : s.atLineStart with
  | false => cases v.blockEnd <;> rfl
  | true =>
    cases v.blockEnd with
    | activeDelimiter => rfl
    | line token =>
      simp only [Option.bind_eq_bind, Option.bind_some, if_true, Bool.true_and, line?_atOffsets, Option.pure_def]
      split <;> rfl

theorem directiveToken?_eq (line : List Char) :
    directiveToken? line = (directiveOfLine? line).map Delimiter.chars := by
  rw [directiveToken?, directiveOfLine?]
  cases hwords : words line with
  | nil => rfl
  | cons keyword more =>
    cases more with
    | nil => rfl
    | cons token more =>
      have hmem : token ∈ words line := by simp [hwords]
      have hset : Delimiter.ofChars? token = some ⟨token, (mem_words hmem).1⟩ := dif_neg (mem_words hmem).1
      show (if _ then some token else none) = (if _ then Delimiter.ofChars? token else none).map _
      rw [hset]
      split <;> rfl

theorem directive?_atOffsets (hstarts : s.startsUnit) : (s.atOffsets o).directive? v s.text =
    some ((s.directive? v).map fun delimiter =>
      { s.skip ((firstLine s.rest).length + 1) with delimiter }.atOffsets o) := by
  rw [OffsetScan.directive?, Scan.directive?, hstarts, Bool.and_true]
  split
  · rw [line?_atOffsets]
    show some ((directiveToken? (firstLine s.rest)).map _) = _
    rw [directiveToken?_eq, Option.map_map]
    rfl
  · rfl

theorem escapes?_atOffsets : (s.atOffsets o).escapes? v s.text =
    some (v.backslashEscapes || Region.afterEscapeMark s.before) := by
  rw [escapes?]
  cases v.backslashEscapes with
  | true => rfl
  | false =>
    show (upTo? s.text (byteLength s.before)).map _ = some (Region.afterEscapeMark s.before)
    rw [← byteLength_reverse, text, upTo?_byteLength, Option.map_some, List.reverse_reverse]

theorem isPrefixOf_singleton {c : Char} {t : List Char} : [c].isPrefixOf t ↔ t.head? = some c := by
  cases t with
  | nil => simp
  | cons d t =>
    rw [List.isPrefixOf_iff_prefix, List.cons_prefix_cons, List.head?_cons, Option.some.injEq]
    exact ⟨fun h => h.1.symm, fun h => ⟨h.symm, List.nil_prefix⟩⟩

theorem dollarTag?_eq (v : Vendor) (rest : List Char) :
    v.dollarTag? rest = some (if v.dollarQuoting then Region.dollarTag? rest else none) := by
  rw [Vendor.dollarTag?]
  cases v.dollarQuoting with
  | false => rfl
  | true =>
    rw [Bool.true_and, if_pos rfl]
    by_cases hdollar : ['$'].isPrefixOf rest
    · obtain ⟨body, rfl⟩ := List.head?_eq_some_iff.1 (isPrefixOf_singleton.1 hdollar)
      have hbody : from? ('$' :: body) 1 = some body := from?_byteLength ['$'] body
      have hlength : (find? (!Region.isTagChar ·) body).getD (byteLength body) =
          byteLength (body.takeWhile Region.isTagChar) := by
        rw [find?_eq]
        simp only [Bool.not_not]
      have hbehind := from?_byteLength (body.takeWhile Region.isTagChar) (body.dropWhile Region.isTagChar)
      rw [List.takeWhile_append_dropWhile] at hbehind
      have htag := Region.dollarTag?_dollar body
      rw [Region.head?_takeWhile_isTagChar] at htag
      rw [if_pos hdollar, hbody, htag]
      simp only [Option.bind_eq_bind, Option.bind_some, hlength, hbehind, Bool.and_eq_true, isPrefixOf_singleton]
      cases hdigit : (body.head?.map Char.isDigit).getD false with
      | true => simp
      | false =>
        by_cases hmark : (body.dropWhile Region.isTagChar).head? = some '$'
        · have hsize : byteLength (body.takeWhile Region.isTagChar) + 2 =
              byteLength ('$' :: (body.takeWhile Region.isTagChar ++ ['$'])) := by
            rw [byteLength_cons, byteLength_append]
            show _ = 1 + (byteLength (body.takeWhile Region.isTagChar) + 1)
            omega
          rw [hdigit, if_neg Bool.false_ne_true, if_pos hmark] at htag
          have hcut := upTo?_of_isPrefix (Region.dollarTag?_isPrefix htag)
          rw [← hsize] at hcut
          simp [hmark, hcut]
        · simp [hmark]
    · rw [if_neg hdollar]
      symm
      rw [Option.some.injEq, Option.eq_none_iff_forall_ne_some]
      intro tag htag
      obtain ⟨name, behind, rfl, -⟩ := Region.dollarTag?_eq_some_iff.1 htag
      exact hdollar (isPrefixOf_singleton.2 rfl)

end
end Scan
end SqlScript
