import SqlScript.Proofs.Lexing.Reach
import SqlScript.Proofs.Splitting.Ends
import SqlScript.Proofs.Splitting.Offset

/-!
# Scans always get ahead

A scan by offsets follows the scan of the text (`Scan.Follows`): each of its steps goes where the next move
goes, and further on (`Scan.Follows.step`). The step lemma rests on `Scan.OpenedAt`, which says that the region
a scan is in is the one that code opens at the place kept for it: so its mark is a single byte, its tag is not
empty, and the place lies between two characters behind the scan (`Scan.Follows.wellPlaced`). From this a run
comes to the end of the text and to the same splitting (`Scan.Follows.iterate?`, `Scan.Follows.result?`).
-/

namespace SqlScript
open Text

namespace Scan
open OffsetScan

/-- What opens the unit is noted. -/
def begun (v : Vendor) (s : Scan) : Scan :=
  { s with unit := if s.startsUnit then
      { s.unit with significant := true, procedural := v.isProceduralStart s.rest } else s.unit }

/-- Whether a comment to the end of the line comes last is noted. -/
def marked (v : Vendor) (s : Scan) : Scan :=
  { s with unit := if s.atBlank || (s.atDelimiter && s.delimiterEnds v) then s.unit else
      { s.unit with commentTail := s.atLineComment } }

section
variable {v : Vendor} {classify? : List Char → Option Bool} {s : Scan} {o : Nat}

/-- Text that is the delimiter starts no unit. -/
theorem atDelimiter_of_startsUnit (h : s.startsUnit) : s.atDelimiter = false := by
  simp only [startsUnit, Bool.and_eq_true, Bool.not_eq_true'] at h
  exact h.2

theorem ends_begun :
    ((s.begun v).atDelimiter && (s.begun v).delimiterEnds v) = (s.atDelimiter && s.delimiterEnds v) := by
  by_cases h : s.startsUnit
  · show (s.atDelimiter && _) = _
    rw [atDelimiter_of_startsUnit h, Bool.false_and, Bool.false_and]
  · rw [begun, if_neg h]

theorem marked_delimiterEnds : (s.marked v).delimiterEnds v = s.delimiterEnds v := by
  have hprocedural : (s.marked v).unit.procedural = s.unit.procedural := by
    rw [marked]
    split <;> rfl
  rw [delimiterEnds, hprocedural, delimiterEnds]

theorem noted_of_ends (h : s.atDelimiter && s.delimiterEnds v) : s.noted v = s.unit := by
  have hstarts : ¬ s.startsUnit := by
    intro hstarts
    rw [atDelimiter_of_startsUnit hstarts, Bool.false_and] at h
    cases h
  rw [noted, h, Bool.or_true, if_pos rfl, if_neg hstarts]

theorem marked_begun : (s.begun v).marked v = { s with unit := s.noted v } := by
  have hunit : ((s.begun v).marked v).unit = s.noted v := by
    show (if s.atBlank || ((s.begun v).atDelimiter && (s.begun v).delimiterEnds v) then (s.begun v).unit
      else { (s.begun v).unit with commentTail := s.atLineComment }) = _
    rw [ends_begun]
    rfl
  show { s with unit := ((s.begun v).marked v).unit } = _
  rw [hunit]

theorem take_of_code (hcode : s.region = .code) (n : Nat) (r : Region) :
    s.take v n r = { { (s.begun v).marked v with region := r }.keep n with opened := s.before } := by
  rw [marked_begun, take, if_pos hcode, if_pos hcode]
  rfl

theorem take_of_not_code (hr : s.region ≠ .code) (n : Nat) (r : Region) :
    s.take v n r = { s.keep n with region := r } := by
  rw [take, if_neg hr, if_neg hr]
  rfl

theorem noteTail_atOffsets : (s.atOffsets o).noteTail v s.rest = (s.marked v).atOffsets o := by
  rw [noteTail, marked, atOffsets]
  show (if s.atBlank || (s.atDelimiter && s.delimiterEnds v) then _ else _) = _
  split <;> rfl

theorem readPiece?_of_opened {n : Nat} {r : Region} (h : Region.openedBy? v s.before s.rest = some (n, r)) :
    (s.atOffsets o).readPiece? v s.text s.rest =
      some (({ s with region := r }.keep n).atOffsets (byteLength s.before)) := by
  rw [Region.openedBy?_eq] at h
  rw [readPiece?, escapes?_atOffsets, dollarTag?_eq]
  by_cases hline : ['-', '-'].isPrefixOf s.rest
  · rw [if_pos hline] at h ⊢
    cases h
    exact enter?_atOffsets hline _
  rw [if_neg hline] at h ⊢
  by_cases hblock : ['/', '*'].isPrefixOf s.rest
  · rw [if_pos hblock] at h ⊢
    cases h
    exact enter?_atOffsets hblock _
  rw [if_neg hblock] at h ⊢
  by_cases hquote : ['\x27'].isPrefixOf s.rest
  · rw [if_pos hquote] at h ⊢
    cases h
    exact enter?_atOffsets hquote _
  rw [if_neg hquote] at h ⊢
  by_cases hdouble : ['"'].isPrefixOf s.rest
  · rw [if_pos hdouble] at h ⊢
    cases h
    exact enter?_atOffsets hdouble _
  rw [if_neg hdouble] at h ⊢
  by_cases hdollar : v.dollarQuoting
  · rw [if_pos hdollar] at h ⊢
    obtain ⟨tag, htag, heq⟩ := Option.map_eq_some_iff.1 h
    cases heq
    rw [htag]
    exact enter?_atOffsets (List.isPrefixOf_iff_prefix.2 (Region.dollarTag?_isPrefix htag)) _
  · rw [if_neg hdollar] at h
    cases h

theorem readPiece?_of_not_opened (hs : s.rest ≠ []) (h : Region.openedBy? v s.before s.rest = none) :
    (s.atOffsets o).readPiece? v s.text s.rest = some (if s.atDelimiter && s.delimiterEnds v then
      (s.close.skip s.delimiter.chars.length).atOffsets o else (s.keep 1).atOffsets o) := by
  obtain ⟨c, rest, hrest⟩ := List.exists_cons_of_ne_nil hs
  rw [hrest, Region.openedBy?_eq_none_iff, ← hrest] at h
  obtain ⟨hline, hblock, hquote, hdouble, hdollar⟩ := h
  have hnot : ∀ k : List Char, ¬ k <+: s.rest → ¬ k.isPrefixOf s.rest := fun k => mt List.isPrefixOf_iff_prefix.1
  have htag : (if v.dollarQuoting then Region.dollarTag? s.rest else none) = none := ite_eq_right_iff.2 hdollar
  rw [readPiece?, dollarTag?_eq, htag, if_neg (hnot _ hline), if_neg (hnot _ hblock), if_neg (hnot _ ?_),
    if_neg (hnot _ ?_)]
  · show (if s.atDelimiter && s.delimiterEnds v then
        some { s.atOffsets o with pos := byteLength s.before + byteLength s.delimiter.chars }.close
      else (s.atOffsets o).takeChar? s.text) = _
    split
    · next hends =>
      have hprefix : s.delimiter.chars <+: s.rest :=
        List.isPrefixOf_iff_prefix.1 (Bool.and_eq_true_iff.1 hends).1
      have hpos : byteLength s.before + byteLength s.delimiter.chars =
          byteLength (s.close.skip s.delimiter.chars.length).before := by
        show _ = byteLength ((s.rest.take s.delimiter.chars.length).reverse ++ s.before)
        rw [← List.prefix_iff_eq_take.1 hprefix, byteLength_append, byteLength_reverse, Nat.add_comm]
      rw [hpos]
      rfl
    · exact takeChar?_atOffsets hs
  · simpa [hrest] using hdouble.symm
  · simpa [hrest] using hquote.symm

theorem stepQuoted?_atOffsets {mark : Char} {backslash : Bool} (hmark : mark.toNat < 0x80)
    (hs : s.rest ≠ []) (hr : s.region = .quoted mark backslash) :
    (s.atOffsets o).stepQuoted? s.text mark backslash = some ((s.next v).atOffsets o) := by
  obtain ⟨c, rest, hrest⟩ := List.exists_cons_of_ne_nil hs
  have hne : s.region ≠ .code := by simp [hr]
  obtain ⟨b, hbyte, hiff⟩ := exists_byte? s.before.reverse rest c.utf8Size_pos
  rw [← hrest, byteLength_reverse, Nat.add_zero] at hbyte
  have hat : ∀ d : Char, d.toNat < 0x80 → (b == asciiByte d) = (c == d) := fun d hd => by
    rw [Bool.eq_iff_iff, beq_iff_eq, beq_iff_eq, hiff d hd]
  -- the step takes one byte of the mark and of the backslash, and each has only that one
  have htake : ∀ d : Char, d.toNat < 0x80 → c = d →
      (s.atOffsets o).take? s.text 1 = some ((s.keep 1).atOffsets o) := by
    rintro d hd rfl
    have hone : byteLength (s.rest.take 1) = 1 := by
      rw [hrest]
      exact Char.utf8Size_eq_one_iff.2 (by rw [UInt32.le_iff_toNat_le]; exact Nat.le_of_lt_succ hd)
    rw [← take?_atOffsets, hone]
  rw [next_of_region_ne_code hne, hr, hrest, Region.advance_quoted_cons]
  show (byte? s.text (byteLength s.before)).bind _ = _
  have hbyte : byte? s.text (byteLength s.before) = some b := hbyte
  rw [hbyte]
  simp only [Option.bind_some, hat _ hmark, hat '\\' (by decide)]
  by_cases hescape : (backslash && c == '\\') = true
  · have hc : c = '\\' := by
      rw [Bool.and_eq_true, beq_iff_eq] at hescape
      exact hescape.2
    rw [if_pos hescape, if_pos hescape, htake _ (by decide) hc, take_of_not_code hne, ← hr]
    show (if ((s.keep 1).atOffsets o).pos < byteLength s.text then
      ((s.keep 1).atOffsets o).takeChar? s.text else some _) = some ((s.keep 2).atOffsets o)
    rw [← keep_text 1]
    by_cases hrest' : (s.keep 1).rest = []
    · have hkeep : s.keep 2 = s.keep 1 := by
        have hnil : rest = [] := by simpa [keep, hrest] using hrest'
        simp [keep, skip, hrest, hnil]
      rw [if_neg (mt pos_lt_iff.1 (not_not_intro hrest')), hkeep]
    · rw [if_pos (pos_lt_iff.2 hrest'), takeChar?_atOffsets hrest', keep_keep]
  · rw [if_neg hescape, if_neg hescape]
    by_cases hc : (c == mark) = true
    · rw [if_pos hc, if_pos hc, htake _ hmark (beq_iff_eq.1 hc), take_of_not_code hne]
      rfl
    · rw [if_neg hc, if_neg hc, takeChar?_atOffsets hs, take_of_not_code hne, ← hr]
      rfl

theorem stepUntil?_atOffsets {closer : List Char} (hs : s.rest ≠ []) (hr : s.region ≠ .code)
    (hadvance : s.region.advance s.rest =
      if closer.isPrefixOf s.rest then (closer.length, .code) else (1, s.region)) :
    (s.atOffsets o).stepUntil? s.text closer = some ((s.next v).atOffsets o) := by
  rw [next_of_region_ne_code hr, hadvance, stepUntil?, rest?_atOffsets]
  show (if closer.isPrefixOf s.rest then ((s.atOffsets o).take? s.text (byteLength closer)).map _
    else (s.atOffsets o).takeChar? s.text) = _
  split
  · next hcloser =>
    have hlength : byteLength closer = byteLength (s.rest.take closer.length) := by
      rw [← List.prefix_iff_eq_take.1 (List.isPrefixOf_iff_prefix.1 hcloser)]
    rw [hlength, take?_atOffsets, take_of_not_code hr]
    rfl
  · rw [takeChar?_atOffsets hs, take_of_not_code hr]
    rfl

theorem stepLineComment?_atOffsets (hs : s.rest ≠ []) (hr : s.region = .lineComment) :
    (s.atOffsets o).stepLineComment? s.text = some ((s.next v).atOffsets o) := by
  have hne : s.region ≠ .code := by simp [hr]
  rw [next_of_region_ne_code hne, take_of_not_code hne, hr, Region.advance, stepLineComment?, rest?_atOffsets]
  show OffsetScan.takeChar? s.text (if ['\n'].isPrefixOf s.rest then _ else _) = _
  by_cases hhead : s.rest.head? = some '\n'
  · rw [if_pos (isPrefixOf_singleton.2 hhead), if_pos hhead]
    exact takeChar?_atOffsets (s := { s with region := .code }) hs
  · rw [if_neg (mt isPrefixOf_singleton.1 hhead), if_neg hhead, takeChar?_atOffsets hs, ← hr]
    rfl

theorem stepCode?_of_directive {d : Delimiter} (hd : s.directive? v = some d) :
    (s.atOffsets o).stepCode? v classify? s.text =
      some ({ s.skip ((firstLine s.rest).length + 1) with delimiter := d }.atOffsets o) := by
  have hstarts : s.startsUnit := (directive?_eq_some hd).2.1
  rw [stepCode?, rest?_atOffsets]
  show (if s.startsUnit then _ else _) = _
  rw [if_pos hstarts, directive?_atOffsets hstarts, hd]
  rfl

theorem stepCode?_of_no_directive (hclassify : classify? s.rest = some (v.isProceduralStart s.rest))
    (hd : s.directive? v = none) : (s.atOffsets o).stepCode? v classify? s.text =
      (((s.begun v).marked v).atOffsets o).readPiece? v s.text s.rest := by
  rw [stepCode?, rest?_atOffsets]
  show (if s.startsUnit then _ else _) = _
  by_cases hstarts : s.startsUnit
  · have hbegun : s.begun v = { s with unit :=
        { s.unit with significant := true, procedural := v.isProceduralStart s.rest } } := by
      rw [begun, if_pos hstarts]
    rw [if_pos hstarts, directive?_atOffsets hstarts, hd]
    show (classify? s.rest).bind _ = _
    rw [hclassify, Option.bind_some, ← noteTail_atOffsets, hbegun]
    rfl
  · have hbegun : s.begun v = s := by
      rw [begun, if_neg hstarts]
    rw [if_neg hstarts, hbegun, ← noteTail_atOffsets]

theorem step?_of_code (hcode : s.region = .code) : (s.atOffsets o).step? v classify? s.text =
    if s.atMarkerLine v then some ((s.close.skip ((firstLine s.rest).length + 1)).atOffsets o)
    else (s.atOffsets o).stepCode? v classify? s.text := by
  have hregion : (s.atOffsets o).region = .code := hcode
  rw [step?, hregion, markerLine?_atOffsets]
  by_cases hmarker : s.atMarkerLine v
  · rw [if_pos hmarker, if_pos hmarker]
    rfl
  · rw [if_neg hmarker, if_neg hmarker]
    rfl

theorem advance_succ_next {n : Nat} (hs : (s.advance v n).rest ≠ []) :
    s.advance v (n + 1) = (s.advance v n).next v := by
  induction n generalizing s with
  | zero => exact advance_succ hs 0
  | succ n ih =>
    have hrest : s.rest ≠ [] := by
      intro hnil
      rw [advance_of_rest_eq_nil hnil] at hs
      exact hs hnil
    rw [advance_succ hrest n] at hs
    rw [advance_succ hrest (n + 1), advance_succ hrest n, ih hs]

/-- The region opened at an offset: it is code, or what code opens there. -/
def OpenedAt (v : Vendor) (s : Scan) (o : Nat) : Prop :=
  ∃ front behind, s.before = front ++ behind ∧ byteLength behind = o ∧ (s.region ≠ .code →
    s.opened = behind ∧ ∃ n, Region.openedBy? v behind (front.reverse ++ s.rest) = some (n, s.region))

theorem OpenedAt.hasCloser (h : s.OpenedAt v o) : s.region.HasCloser := by
  obtain ⟨front, behind, -, -, hopened⟩ := h
  by_cases hcode : s.region = .code
  · rw [hcode]
    exact Region.hasCloser_code
  · obtain ⟨-, n, hn⟩ := hopened hcode
    exact (Region.openedBy?_eq_some hn).2.2

/-- A mark is a single byte. -/
theorem OpenedAt.mark_lt (h : s.OpenedAt v o) {mark : Char} {backslash : Bool}
    (hr : s.region = .quoted mark backslash) : mark.toNat < 0x80 := by
  obtain ⟨front, behind, -, -, hopened⟩ := h
  obtain ⟨-, n, hn⟩ := hopened (by simp [hr])
  rw [hr] at hn
  obtain ⟨c, rest, hrest⟩ := Region.exists_cons_of_openedBy? hn
  rw [hrest] at hn
  rcases Region.openedBy?_cases hn with ⟨h, -⟩ | ⟨h, -⟩ | ⟨_, _, h, -, rfl, hc⟩ | ⟨_, h, -⟩
  · cases h
  · cases h
  · cases h
    rcases hc with rfl | rfl <;> decide
  · cases h

theorem OpenedAt.next (h : s.OpenedAt v o) (hregion : (s.next v).region ≠ .code →
    (s.next v).region = s.region ∧ (s.next v).opened = s.opened) : (s.next v).OpenedAt v o := by
  obtain ⟨front, behind, hbefore, ho, hopened⟩ := h
  refine ⟨(s.rest.take (s.reach (s.move v))).reverse ++ front, behind, ?_, ho, fun hcode => ?_⟩
  · rw [Scan.next, make_before, hbefore, List.append_assoc]
  · obtain ⟨hr, hsame⟩ := hregion hcode
    obtain ⟨hbehind, n, hn⟩ := hopened (hr ▸ hcode)
    refine ⟨hsame.trans hbehind, n, ?_⟩
    rw [hr, List.reverse_append, List.reverse_reverse, Scan.next, make_rest, List.append_assoc,
      List.take_append_drop, hn]

theorem openedAt_next {n : Nat} (ho : Region.openedBy? v s.before s.rest = some (n, (s.next v).region))
    (hopened : (s.next v).opened = s.before) : (s.next v).OpenedAt v (byteLength s.before) := by
  refine ⟨(s.rest.take (s.reach (s.move v))).reverse, s.before, make_before _, rfl, fun _ => ⟨hopened, n, ?_⟩⟩
  rw [List.reverse_reverse]
  have hrest : (s.next v).rest = s.rest.drop (s.reach (s.move v)) := make_rest _
  rw [hrest, List.take_append_drop, ho]

/-- Only where code opens a region is there a new place where one opened. -/
theorem OpenedAt.next_of_code (h : s.OpenedAt v o) (hcode : (s.next v).region = .code) :
    (s.next v).OpenedAt v o :=
  h.next fun hne => absurd hcode hne

theorem next_of_code (hcode : s.region = .code) : s.next v = s.make v (s.moveInCode v) := by
  rw [next, move, if_pos hcode]

theorem exists_readPiece? (hs : s.rest ≠ []) (hcode : s.region = .code) (h : s.OpenedAt v o)
    (hmarker : ¬ s.atMarkerLine v) (hd : s.directive? v = none) : ∃ o',
    (((s.begun v).marked v).atOffsets o).readPiece? v s.text s.rest = some ((s.next v).atOffsets o') ∧
      (s.next v).OpenedAt v o' := by
  have hnext := next_of_code (v := v) hcode
  rw [moveInCode, if_neg hmarker, hd] at hnext
  cases ho : Region.openedBy? v s.before s.rest with
  | some opening =>
    obtain ⟨n, r⟩ := opening
    rw [ho] at hnext
    have hmove : s.next v = s.take v n r := hnext
    have hopened : (s.next v).opened = s.before := by
      rw [hmove, take, if_pos hcode]
    refine ⟨byteLength s.before, ?_, openedAt_next (n := n) (by rw [hmove, ho, take_region]) hopened⟩
    rw [hmove, take_of_code hcode]
    exact readPiece?_of_opened (s := (s.begun v).marked v) ho
  | none =>
    rw [ho] at hnext
    have hread := readPiece?_of_not_opened (s := (s.begun v).marked v) (o := o) hs ho
    have hends : (((s.begun v).marked v).atDelimiter && ((s.begun v).marked v).delimiterEnds v) =
        (s.atDelimiter && s.delimiterEnds v) := by
      rw [marked_delimiterEnds, ← ends_begun]
      rfl
    rw [hends] at hread
    by_cases hdelimiter : s.atDelimiter && s.delimiterEnds v
    · simp only [if_pos hdelimiter] at hnext
      have hmove : s.next v = s.close.skip s.delimiter.chars.length := hnext
      refine ⟨o, ?_, h.next_of_code (by rw [hmove]; exact hcode)⟩
      rw [if_pos hdelimiter, marked_begun, noted_of_ends hdelimiter] at hread
      rw [marked_begun, noted_of_ends hdelimiter, hmove]
      exact hread
    · simp only [if_neg hdelimiter] at hnext
      have hmove : s.next v = s.take v 1 .code := hnext
      refine ⟨o, ?_, h.next_of_code (by rw [hmove, take_region])⟩
      rw [if_neg hdelimiter] at hread
      rw [hmove, take_of_code hcode, ← hcode]
      exact hread

theorem exists_step?_of_code (hclassify : classify? s.rest = some (v.isProceduralStart s.rest))
    (hs : s.rest ≠ []) (hcode : s.region = .code) (h : s.OpenedAt v o) : ∃ o',
    (s.atOffsets o).step? v classify? s.text = some ((s.next v).atOffsets o') ∧ (s.next v).OpenedAt v o' := by
  have hnext := next_of_code (v := v) hcode
  rw [step?_of_code hcode]
  by_cases hmarker : s.atMarkerLine v
  · rw [moveInCode, if_pos hmarker] at hnext
    have hmove : s.next v = s.close.skip ((firstLine s.rest).length + 1) := hnext
    refine ⟨o, ?_, h.next_of_code (by rw [hmove]; exact hcode)⟩
    rw [if_pos hmarker, hmove]
  · rw [if_neg hmarker]
    cases hd : s.directive? v with
    | some d =>
      rw [moveInCode, if_neg hmarker, hd] at hnext
      have hmove : s.next v = { s.skip ((firstLine s.rest).length + 1) with delimiter := d } := hnext
      refine ⟨o, ?_, h.next_of_code (by rw [hmove]; exact hcode)⟩
      rw [stepCode?_of_directive hd, hmove]
    | none =>
      rw [stepCode?_of_no_directive hclassify hd]
      exact exists_readPiece? hs hcode h hmarker hd

theorem exists_step? (hclassify : classify? s.rest = some (v.isProceduralStart s.rest))
    (hs : s.rest ≠ []) (h : s.OpenedAt v o) : ∃ o',
    (s.atOffsets o).step? v classify? s.text = some ((s.next v).atOffsets o') ∧ (s.next v).OpenedAt v o' := by
  by_cases hcode : s.region = .code
  · exact exists_step?_of_code hclassify hs hcode h
  have hnext : (s.next v).OpenedAt v o := by
    refine h.next fun hne => ?_
    rw [next_of_region_ne_code hcode] at hne ⊢
    refine ⟨?_, take_opened hcode _ _⟩
    rcases Region.through?_advance hcode hs with ⟨h, -⟩ | ⟨h, -⟩
    · exact absurd h hne
    · exact h
  refine ⟨o, ?_, hnext⟩
  have hregion : (s.atOffsets o).region = s.region := rfl
  rw [step?, hregion]
  cases hr : s.region with
  | code => exact absurd hr hcode
  | quoted mark backslash => exact stepQuoted?_atOffsets (h.mark_lt hr) hs hr
  | lineComment => exact stepLineComment?_atOffsets hs hr
  | blockComment => exact stepUntil?_atOffsets hs hcode (by rw [hr]; rfl)
  | dollarQuoted tag => exact stepUntil?_atOffsets hs hcode (by rw [hr]; rfl)

end

/-- The scan by offsets is at the place of the scan and has gathered the same. -/
structure Follows (v : Vendor) (text : List Char) (s : Scan) (p : OffsetScan) : Prop where
  text : s.text = text
  opened : s.OpenedAt v p.opened
  same : p = s.atOffsets p.opened

namespace Follows
variable {v : Vendor} {classify? : List Char → Option Bool} {text : List Char} {s : Scan} {p : OffsetScan}

theorem start (v : Vendor) (text : List Char) :
    (Scan.start v text).Follows v text (OffsetScan.start v.delimiter.chars) where
  text := rfl
  opened := ⟨[], [], rfl, rfl, fun h => absurd rfl h⟩
  same := rfl

theorem pos_eq (h : s.Follows v text p) : p.pos = byteLength s.before := by
  rw [h.same]
  rfl

theorem pos_lt_iff (h : s.Follows v text p) : p.pos < byteLength text ↔ s.rest ≠ [] := by
  rw [h.same, ← h.text]
  exact Scan.pos_lt_iff

theorem step (hclassify : ∀ t, classify? t = some (v.isProceduralStart t)) (h : s.Follows v text p)
    (hlt : p.pos < byteLength text) :
    ∃ p', p.step? v classify? text = some p' ∧ p.pos < p'.pos ∧ (s.next v).Follows v text p' := by
  have hs : s.rest ≠ [] := h.pos_lt_iff.1 hlt
  obtain ⟨o, hstep, ho⟩ := exists_step? (hclassify s.rest) hs h.opened
  rw [← h.same, h.text] at hstep
  refine ⟨(s.next v).atOffsets o, hstep, ?_, (next_text v s).trans h.text, ho, rfl⟩
  have hreach := reach_pos (v := v) h.opened.hasCloser
  have htake : s.rest.take (s.reach (s.move v)) ≠ [] := by
    rw [Ne, List.take_eq_nil_iff]
    rintro (hzero | hnil)
    · omega
    · exact hs hnil
  show p.pos < byteLength (s.next v).before
  rw [h.pos_eq, next, make_before, byteLength_append, byteLength_reverse]
  exact Nat.lt_add_of_pos_left (byteLength_pos htake)

theorem iterate? (hclassify : ∀ t, classify? t = some (v.isProceduralStart t)) (h : s.Follows v text p)
    (n : Nat) : ∃ p', p.iterate? v classify? text n = some p' ∧ (s.advance v n).Follows v text p' := by
  induction n generalizing s p with
  | zero => exact ⟨p, rfl, h⟩
  | succ n ih =>
    rw [OffsetScan.iterate?]
    by_cases hlt : p.pos < byteLength text
    · obtain ⟨p', hstep, -, h'⟩ := h.step hclassify hlt
      obtain ⟨q, hq, hfollows⟩ := ih h'
      rw [if_pos hlt, hstep, advance_succ (h.pos_lt_iff.1 hlt)]
      exact ⟨q, hq, hfollows⟩
    · have hs : s.rest = [] := not_not.1 (mt h.pos_lt_iff.2 hlt)
      rw [if_neg hlt, advance_of_rest_eq_nil hs]
      exact ⟨p, rfl, h⟩

theorem exists_opened (h : s.Follows v text p) : ∃ behind ahead, text = behind.reverse ++ ahead ∧
    byteLength behind = p.opened ∧ p.opened ≤ p.pos ∧ (s.region ≠ .code →
      s.opened = behind ∧ ∃ n, Region.openedBy? v behind ahead = some (n, s.region)) := by
  obtain ⟨front, behind, hbefore, ho, hopened⟩ := h.opened
  refine ⟨behind, front.reverse ++ s.rest, ?_, ho, ?_, hopened⟩
  · rw [← h.text, Scan.text, hbefore, List.reverse_append, List.append_assoc]
  · rw [h.pos_eq, ← ho, hbefore, byteLength_append]
    exact Nat.le_add_left _ _

theorem result? (h : s.Follows v text p) : p.result? text = some s.result := by
  obtain ⟨behind, ahead, htext, ho, -, hopened⟩ := h.exists_opened
  have hlocation : s.region ≠ .code → location? text p.opened = some (.after s.opened) := fun hne => by
    rw [htext, ← ho, location?_reverse_append, (hopened hne).1]
  have hp : p.result? text = (s.atOffsets p.opened).result? text := congrArg _ h.same
  have hregion : (s.atOffsets p.opened).region = s.region := rfl
  rw [hp, OffsetScan.result?, hregion, result, unterminated?]
  cases hr : s.region with
  | code => rfl
  | lineComment => rfl
  | quoted mark backslash =>
    show (location? text p.opened).map _ = _
    rw [hlocation (by simp [hr])]
    rfl
  | blockComment =>
    show (location? text p.opened).map _ = _
    rw [hlocation (by simp [hr])]
    rfl
  | dollarQuoted tag =>
    show (location? text p.opened).map _ = _
    rw [hlocation (by simp [hr])]
    rfl

end Follows
end Scan

namespace OffsetScan

/-- The scans that steps lead to. -/
inductive Reachable (v : Vendor) (classify? : List Char → Option Bool) (text delimiter : List Char) :
    OffsetScan → Prop
  | start : Reachable v classify? text delimiter (start delimiter)
  | step {s s' : OffsetScan} (h : Reachable v classify? text delimiter s) (hlt : s.pos < byteLength text)
      (hstep : s.step? v classify? text = some s') : Reachable v classify? text delimiter s'

/-- The scan waits for a delimiter that is there, both its offsets lie in the text between two characters,
and the text goes on from where the region opened with what opens it. -/
structure WellPlaced (text : List Char) (s : OffsetScan) : Prop where
  delimiter_ne_nil : s.delimiter ≠ []
  opened_le_pos : s.opened ≤ s.pos
  pos_le : s.pos ≤ byteLength text
  not_splits_pos : ¬ SplitsCharacter text s.pos
  not_splits_opened : ¬ SplitsCharacter text s.opened
  opener : ∃ ahead, from? text s.opened = some ahead ∧ s.region.opener <+: ahead

variable {v : Vendor} {classify? : List Char → Option Bool} {text : List Char} {p : OffsetScan}

theorem Reachable.exists_follows (hclassify : ∀ t, classify? t = some (v.isProceduralStart t))
    (h : Reachable v classify? text v.delimiter.chars p) :
    ∃ n, ((Scan.start v text).advance v n).Follows v text p := by
  induction h with
  | start => exact ⟨0, Scan.Follows.start v text⟩
  | step _ hlt hstep ih =>
    obtain ⟨n, hs⟩ := ih
    obtain ⟨p', hp', -, hfollows⟩ := hs.step hclassify hlt
    rw [hstep, Option.some.injEq] at hp'
    rw [← hp', ← Scan.advance_succ_next (hs.pos_lt_iff.1 hlt)] at hfollows
    exact ⟨n + 1, hfollows⟩

end OffsetScan

theorem Scan.Follows.wellPlaced {v : Vendor} {text : List Char} {s : Scan} {p : OffsetScan}
    (h : s.Follows v text p) : p.WellPlaced text := by
  obtain ⟨behind, ahead, htext, ho, hle, hopened⟩ := h.exists_opened
  have hpos := h.pos_eq
  rw [← byteLength_reverse] at ho hpos
  have hregion : p.region = s.region := congrArg OffsetScan.region h.same
  constructor
  · rw [h.same]
    exact s.delimiter.ne_nil
  · exact hle
  · rw [hpos, ← h.text, Scan.text, byteLength_append]
    exact Nat.le_add_right _ _
  · rw [hpos, ← h.text]
    exact not_splitsCharacter_byteLength _ _
  · rw [← ho, htext]
    exact not_splitsCharacter_byteLength _ _
  · refine ⟨ahead, by rw [← ho, htext, from?_byteLength], ?_⟩
    rw [hregion]
    by_cases hcode : s.region = .code
    · rw [hcode]
      exact List.nil_prefix
    · obtain ⟨-, n, hn⟩ := hopened hcode
      exact Region.opener_isPrefix hn

/-- A scan by offsets is where the scan is, for every vendor and every script. It never waits for an empty
delimiter, keeps between characters and behind the place where the region opened, gets ahead with every step
and never cuts the text anywhere else; so it is over after as many steps as the text has bytes, and comes to
the same splitting. -/
theorem splitPartial_by_offsets {v : Vendor} {delimiter : List Char} {classify? : List Char → Option Bool}
    (hv : v.Known delimiter classify?) (text : String) :
    let t := text.toList
    (∀ u, classify? u = some (v.isProceduralStart u)) ∧
    (∀ s, OffsetScan.Reachable v classify? t delimiter s →
      s.WellPlaced t ∧ (∃ n, s = ((Scan.start v t).advance v n).atOffsets s.opened) ∧
      (s.pos < byteLength t → ∃ s', s.step? v classify? t = some s' ∧ s.pos < s'.pos)) ∧
    ∃ s, (OffsetScan.start delimiter).iterate? v classify? t (byteLength t) = some s ∧
      s.pos = byteLength t ∧ s.result? t = some (splitPartial v text) := by
  intro t
  have hclassify := hv.classify?_eq
  obtain rfl := hv.delimiter_eq
  refine ⟨hclassify, fun s hs => ?_, ?_⟩
  · obtain ⟨n, hfollows⟩ := hs.exists_follows hclassify
    refine ⟨hfollows.wellPlaced, ⟨n, hfollows.same⟩, fun hlt => ?_⟩
    obtain ⟨s', hstep, hpos, -⟩ := hfollows.step hclassify hlt
    exact ⟨s', hstep, hpos⟩
  · obtain ⟨s, hs, hfollows⟩ := (Scan.Follows.start v t).iterate? hclassify (byteLength t)
    rw [Scan.advance_of_length_le Region.hasCloser_code (length_le_byteLength t)] at hfollows
    have hrest : ((Scan.start v t).finish v).rest = [] := Scan.finish_rest Region.hasCloser_code
    have hpos := hfollows.text
    rw [Scan.text, hrest, List.append_nil] at hpos
    exact ⟨s, hs, by rw [hfollows.pos_eq, ← byteLength_reverse, hpos], hfollows.result?⟩

/-- Delimiters of two bytes a character, one from the entry and one from a line of the script, and a literal
that is still open at the end. -/
theorem splitPartial_by_offsets_two_bytes :
    let e : VendorEntry := {
      name := "Acme", delimiter := " § ", blockEnd := .activeDelimiter
      proceduralStarts := ["CREATE FLOW"], delimiterDirective := true }
    let text := "é § DELIMITER ¶¶\ncreate flow ü ¶¶ 'x"
    ∃ c : CustomVendor, e.build = .ok c ∧ c.toVendor.Known ['§'] (Pattern.classify? c.patterns) ∧
      (∀ s, OffsetScan.Reachable c.toVendor (Pattern.classify? c.patterns) text.toList ['§'] s →
        s.WellPlaced text.toList) ∧
      ∃ s, (OffsetScan.start ['§']).iterate? c.toVendor (Pattern.classify? c.patterns) text.toList 43 = some s ∧
        s.pos = 43 ∧ s.result? text.toList = some
          ⟨[⟨.regular, "é"⟩, ⟨.procedural, "create flow ü"⟩], some (.quote "'" ⟨41, 2, 18⟩)⟩ := by
  intro e text
  have hdelimiter : trim e.delimiter.toList = ['§'] := by decide +kernel
  have hpatterns : Pattern.parseAll e.proceduralStarts =
      .ok [⟨"CREATE FLOW", [.word ["CREATE".toList], .word ["FLOW".toList]]⟩] := rfl
  have hbuild := VendorEntry.build_eq_ok (e := e) (d := ⟨['§'], by decide⟩) (by decide +kernel)
    (by rw [hdelimiter]; rfl) rfl nofun hpatterns
  have hv := Vendor.Known.custom hbuild
  rw [hdelimiter] at hv
  obtain ⟨-, hreach, s, hs, hpos, hresult⟩ := splitPartial_by_offsets hv text
  have hlength : byteLength text.toList = 43 := by decide +kernel
  rw [hlength] at hs hpos
  refine ⟨_, hbuild, hv, fun s hs => (hreach s hs).1, s, hs, hpos, hresult.trans ?_⟩
  decide +kernel

end SqlScript
