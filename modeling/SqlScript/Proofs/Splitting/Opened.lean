import SqlScript.Proofs.Location
import SqlScript.Proofs.Splitting.Literal

/-!
# Where an unterminated literal opened

A script that ends inside a quoted literal fails with the place where the scan entered the literal. The
scan enters a literal anew at each doubled mark in it, so the place is that of the opener if no mark in
the literal is doubled, and a later one otherwise (`split_unterminated_literal`).
-/

namespace SqlScript
open Text Literal

/-- A region does not wait for a tag as short as a mark. -/
def Region.LongTag (r : Region) : Prop :=
  ∀ tag, r = .dollarQuoted tag → 2 ≤ tag.length

theorem Region.LongTag.hasCloser {r : Region} (h : r.LongTag) : r.HasCloser := by
  rintro tag hr rfl
  exact absurd (h [] hr) (by decide)

theorem Region.longTag_code : LongTag .code := nofun

theorem Region.longTag_of_openedBy? {v : Vendor} {before text : List Char} {n : Nat} {r : Region}
    (h : openedBy? v before text = some (n, r)) : r.LongTag := by
  rintro tag rfl
  unfold openedBy? at h
  split at h
  case h_5 =>
    split at h
    · obtain ⟨_, htag, heq⟩ := Option.map_eq_some_iff.1 h
      cases heq
      exact length_of_dollarTag? htag
    · cases h
  all_goals cases h

namespace Scan
variable {v : Vendor} {s : Scan} {mark : Char} {backslash : Bool} {loc : Location} {n : Nat}

theorem longTag_next (h : s.region.LongTag) : (s.next v).region.LongTag := by
  by_cases hr : s.region = .code
  · rw [next, move, if_pos hr]
    rcases s.moveInCode_cases v with ⟨-, hm⟩ | ⟨d, -, hm⟩ | ⟨n, r, ho, hm⟩ | ⟨-, -, -, hm⟩ | ⟨-, -, hm⟩ <;> rw [hm]
    · exact h
    · exact h
    · exact Region.longTag_of_openedBy? ho
    · exact h
    · exact Region.longTag_code
  · rw [next_of_region_ne_code hr, take_region]
    rcases s.region.advance_snd s.rest with hreg | hreg <;> rw [hreg]
    · exact h
    · exact Region.longTag_code

theorem visited_text (v : Vendor) {t : Scan} (ht : t ∈ s.visited v n) :
    t.before.reverse ++ t.rest = s.before.reverse ++ s.rest := by
  induction n generalizing s with
  | zero => simp [visited] at ht
  | succ n ih =>
    rw [visited] at ht
    split at ht
    · simp at ht
    · rcases List.mem_cons.1 ht with rfl | ht
      · rfl
      · rw [ih ht, next, make_before, make_rest]
        simp

/-- The scan is in a literal that is not closed before the end of the text, and fails with the given
place: where the scan entered the literal, or a later one if a mark ahead is doubled. -/
structure FailsIn (v : Vendor) (s : Scan) (mark : Char) (backslash : Bool) (loc : Location) : Prop where
  region : s.region = .quoted mark backslash
  notClosed : .close ∉ parts mark v.backslashEscapes backslash s.rest
  single : .doubled ∉ parts mark v.backslashEscapes backslash s.rest → loc = .after s.opened
  doubled : .doubled ∈ parts mark v.backslashEscapes backslash s.rest → byteLength s.before ≤ loc.offset

/-- One piece of the literal earlier. -/
theorem FailsIn.of_take {part : Part} (hr : s.region = .quoted mark backslash)
    (hpart : part ≠ .close ∧ part ≠ .doubled)
    (hparts : parts mark v.backslashEscapes backslash s.rest =
      part :: parts mark v.backslashEscapes backslash (s.rest.drop n))
    (h : (s.take v n (.quoted mark backslash)).FailsIn v mark backslash loc) :
    s.FailsIn v mark backslash loc := by
  have hcode : s.region ≠ .code := hr ▸ Region.quoted_ne_code mark backslash
  have hmem : ∀ p, p ≠ part → (p ∈ parts mark v.backslashEscapes backslash s.rest ↔
      p ∈ parts mark v.backslashEscapes backslash (s.rest.drop n)) := by
    intro p hp
    rw [hparts, List.mem_cons]
    exact or_iff_right hp
  refine ⟨hr, ?_, ?_, ?_⟩
  · rw [hmem _ hpart.1.symm]
    exact h.notClosed
  · rw [hmem _ hpart.2.symm]
    intro hdoubled
    rw [h.single hdoubled, take_opened hcode]
  · rw [hmem _ hpart.2.symm]
    intro hdoubled
    have hle := h.doubled hdoubled
    rw [take_before, byteLength_append] at hle
    omega

/-- At a doubled mark the literal is entered anew. -/
theorem FailsIn.of_reopening {rest : List Char} {own : Bool} (hmark : Region.IsMark mark)
    (hr : s.region = .quoted mark backslash) (hrest : s.rest = mark :: mark :: rest)
    (h : ((s.next v).next v).FailsIn v mark own loc) : s.FailsIn v mark backslash loc := by
  have hnext : s.next v = s.take v 1 .code := next_of_mark hmark hr hrest
  have hrest' : (s.next v).rest = mark :: rest := by rw [hnext, take_rest, hrest]; rfl
  have hbefore : (s.next v).before = mark :: s.before := by rw [hnext, take_before, hrest]; rfl
  have hcode : (s.next v).region = .code := by rw [hnext, take_region]
  have hnext' : (s.next v).next v = (s.next v).take v 1 (.quoted mark v.backslashEscapes) := by
    rw [next, move_reopening hmark hcode hbefore hrest', make]
  obtain rfl : v.backslashEscapes = own := by
    have hregion := h.region
    rw [hnext', take_region] at hregion
    cases hregion
    rfl
  have hparts : parts mark v.backslashEscapes backslash s.rest =
      .doubled :: parts mark v.backslashEscapes v.backslashEscapes rest := by
    rw [hrest]
    exact parts_doubled (hmark.not_escapes backslash) rest
  have hopened : ((s.next v).next v).opened = mark :: s.before := by
    rw [hnext']
    simp [take, hcode, hbefore]
  have hbefore' : ((s.next v).next v).before = mark :: mark :: s.before := by
    rw [hnext', take_before, hrest', hbefore]
    rfl
  have hrest'' : ((s.next v).next v).rest = rest := by
    rw [hnext', take_rest, hrest']
    rfl
  refine ⟨hr, ?_, ?_, ?_⟩
  · have hopen := h.notClosed
    rw [hrest''] at hopen
    rw [hparts, List.mem_cons]
    rintro (hclose | hclose)
    · cases hclose
    · exact hopen hclose
  · rw [hparts]
    intro hnot
    exact absurd (List.mem_cons_self ..) hnot
  · intro _
    by_cases hd : .doubled ∈ parts mark v.backslashEscapes v.backslashEscapes ((s.next v).next v).rest
    · have hle := h.doubled hd
      rw [hbefore', byteLength_cons, byteLength_cons] at hle
      omega
    · rw [h.single hd, hopened]
      simp [Location.after]

/-- A move in a literal reads a piece of it, or the mark that closes it. -/
theorem next_in_literal (hmark : Region.IsMark mark) (hr : s.region = .quoted mark backslash)
    (hs : s.rest ≠ []) (later : Bool) :
    (∃ n part, part ≠ .close ∧ part ≠ .doubled ∧ s.next v = s.take v n (.quoted mark backslash) ∧
      parts mark later backslash s.rest = part :: parts mark later backslash (s.rest.drop n)) ∨
    ∃ rest, s.rest = mark :: rest ∧ s.next v = s.take v 1 .code := by
  have hcode : s.region ≠ .code := hr ▸ Region.quoted_ne_code mark backslash
  obtain ⟨c, rest, hrest⟩ := List.exists_cons_of_ne_nil hs
  by_cases hescapes : (backslash && c == '\\') = true
  · obtain ⟨rfl, rfl⟩ : backslash = true ∧ c = '\\' := by simpa using hescapes
    have hnext : s.next v = s.take v 2 (.quoted mark true) := by
      rw [next_of_region_ne_code hcode, hr, hrest]
      rfl
    left
    cases rest with
    | nil => exact ⟨2, .char '\\', nofun, nofun, hnext, by rw [hrest, parts_backslash]; rfl⟩
    | cons d rest => exact ⟨2, .escaped d, nofun, nofun, hnext, by rw [hrest, parts_escaped]; rfl⟩
  · have hescapes : (backslash && c == '\\') = false := by simpa using hescapes
    by_cases hc : c = mark
    · right
      subst hc
      exact ⟨rest, hrest, next_of_mark hmark hr hrest⟩
    · left
      refine ⟨1, .char c, nofun, nofun, next_of_char hr hrest hc hescapes, ?_⟩
      rw [hrest, parts_char hescapes hc]
      rfl

theorem exists_failsIn_of_rest_eq_nil (hs : s.rest = []) (hlong : s.region.LongTag)
    (h : s.unterminated? = some (.quote (String.singleton mark) loc)) :
    ∃ backslash, s.FailsIn v mark backslash loc := by
  have hnil : ∀ mark later backslash, parts mark later backslash s.rest = [] := by rw [hs]; intros; rfl
  cases hr : s.region with
  | quoted mark' backslash =>
    rw [unterminated?, hr] at h
    simp only [Option.some.injEq, Unterminated.quote.injEq] at h
    obtain ⟨hsingleton, rfl⟩ := h
    have hmark : mark' = mark := by simpa using congrArg String.toList hsingleton
    subst hmark
    refine ⟨backslash, hr, ?_, fun _ => rfl, ?_⟩ <;> rw [hnil] <;> simp
  | dollarQuoted tag =>
    rw [unterminated?, hr] at h
    simp only [Option.some.injEq, Unterminated.quote.injEq] at h
    have htag : tag = [mark] := by simpa using congrArg String.toList h.1
    have hlength := hlong tag hr
    rw [htag, List.length_singleton] at hlength
    omega
  | code => simp [unterminated?, hr] at h
  | lineComment => simp [unterminated?, hr] at h
  | blockComment => simp [unterminated?, hr] at h

/-- A scan that fails in a quoted literal is in the literal already, or comes to its opener, which is
not the second of two marks. -/
theorem failsIn_or_exists_opener (hmark : Region.IsMark mark) (hlong : s.region.LongTag)
    (hn : s.rest.length ≤ n)
    (h : (s.advance v n).unterminated? = some (.quote (String.singleton mark) loc)) :
    (∃ backslash, s.FailsIn v mark backslash loc) ∨
    ∃ t ∈ s.visited v n, ∃ backslash, t.opens? v = some (mark, backslash) ∧
      (t.next v).FailsIn v mark backslash loc ∧
      (t = s ∨ ∃ p ∈ s.visited v n, p.next v = t ∧ ∀ b, p.region ≠ .quoted mark b) := by
  induction n generalizing s with
  | zero =>
    have hs : s.rest = [] := List.length_eq_zero_iff.1 (Nat.le_zero.1 hn)
    exact .inl (exists_failsIn_of_rest_eq_nil hs hlong h)
  | succ n ih =>
    by_cases hs : s.rest = []
    · rw [advance, if_pos (by rw [hs]; rfl)] at h
      exact .inl (exists_failsIn_of_rest_eq_nil hs hlong h)
    have hrest : s.rest.isEmpty = false := by simpa using hs
    have hlt := next_length_lt (v := v) hlong.hasCloser hs
    have hvisited : s.visited v (n + 1) = s :: (s.next v).visited v n := by rw [visited, hrest]; rfl
    rw [advance, hrest] at h
    rw [hvisited]
    have hlater := ih (longTag_next hlong) (by omega) h
    by_cases hr : ∃ backslash, s.region = .quoted mark backslash
    · obtain ⟨backslash, hr⟩ := hr
      rcases next_in_literal hmark hr hs v.backslashEscapes with
        ⟨k, part, hclose, hdoubled, hnext, hparts⟩ | ⟨rest, hmarked, hnext⟩
      · have hregion : (s.next v).region = .quoted mark backslash := by rw [hnext, take_region]
        rcases hlater with ⟨own, hfails⟩ | ⟨t, ht, own, hopens, hfails, hfirst⟩
        · have hown := hfails.region
          rw [hregion] at hown
          cases hown
          exact .inl ⟨backslash, FailsIn.of_take hr ⟨hclose, hdoubled⟩ hparts (hnext ▸ hfails)⟩
        · refine .inr ⟨t, List.mem_cons_of_mem _ ht, own, hopens, hfails, .inr ?_⟩
          rcases hfirst with rfl | ⟨p, hp, hpt⟩
          · exact absurd (hregion.symm.trans (opens?_eq_some hopens).1) (Region.quoted_ne_code mark backslash)
          · exact ⟨p, List.mem_cons_of_mem _ hp, hpt⟩
      · have hregion : (s.next v).region = .code := by rw [hnext, take_region]
        rcases hlater with ⟨own, hfails⟩ | ⟨t, ht, own, hopens, hfails, hfirst⟩
        · exact absurd (hfails.region.symm.trans hregion) (Region.quoted_ne_code mark own)
        · rcases hfirst with rfl | ⟨p, hp, hpt⟩
          · -- The mark is doubled: what opens next is the same literal.
            obtain ⟨-, -, -, hhead, -⟩ := opens?_eq_some hopens
            rw [hnext, take_rest, hmarked] at hhead
            obtain ⟨rest', hrest'⟩ := List.head?_eq_some_iff.1 hhead
            have hdoubled : s.rest = mark :: mark :: rest' := by rw [hmarked, ← hrest']; rfl
            exact .inl ⟨backslash, FailsIn.of_reopening hmark hr hdoubled hfails⟩
          · exact .inr ⟨t, List.mem_cons_of_mem _ ht, own, hopens, hfails,
              .inr ⟨p, List.mem_cons_of_mem _ hp, hpt⟩⟩
    · right
      rcases hlater with ⟨own, hfails⟩ | ⟨t, ht, own, hopens, hfails, hfirst⟩
      · have hcode : s.region = .code := by
          by_contra hcode
          have hregion := hfails.region
          rw [next_of_region_ne_code hcode, take_region] at hregion
          rcases s.region.advance_snd s.rest with hsame | hleft
          · exact hr ⟨own, hsame ▸ hregion⟩
          · exact Region.quoted_ne_code mark own (hregion.symm.trans hleft)
        exact ⟨s, List.mem_cons_self .., own, opens?_of_next hcode hfails.region, hfails, .inl rfl⟩
      · refine ⟨t, List.mem_cons_of_mem _ ht, own, hopens, hfails, .inr ?_⟩
        rcases hfirst with rfl | ⟨p, hp, hpt⟩
        · exact ⟨s, List.mem_cons_self .., rfl, fun b hb => hr ⟨b, hb⟩⟩
        · exact ⟨p, List.mem_cons_of_mem _ hp, hpt⟩

end Scan

theorem Scan.result_failure (s : Scan) : s.result.failure = s.unterminated? := by
  rw [result]
  cases s.unterminated? <;> rfl

theorem failure_of_split {v : Vendor} {text : String} {failure : Unterminated}
    (h : split v text = .error failure) : (splitPartial v text).failure = some failure := by
  rw [split] at h
  split at h
  · cases h
  · next heq =>
    cases h
    rw [heq]

/-- The scan of the text comes to `s`, where a quoted literal opens that no mark closes. It is a literal
of its own: what was read last did not belong to a literal with this mark. -/
def OpensUnclosed (v : Vendor) (text : String) (mark : Char) (backslash : Bool) (s : Scan) : Prop :=
  let start := Scan.start v text.toList
  s ∈ start.visited v text.length ∧ s.opens? v = some (mark, backslash) ∧
    (s = start ∨ ∃ p ∈ start.visited v text.length, p.next v = s ∧ ∀ b, p.region ≠ .quoted mark b) ∧
    .close ∉ parts mark v.backslashEscapes backslash (s.rest.drop 1)

instance (v : Vendor) (text : String) (mark : Char) (backslash : Bool) (s : Scan) :
    Decidable (OpensUnclosed v text mark backslash s) :=
  inferInstanceAs (Decidable (_ ∧ _ ∧ (_ ∨ _) ∧ _))

/-- A script that fails for a quoted literal fails with the place where the literal opened if no mark in
the literal is doubled, and only then. -/
theorem split_unterminated_literal {v : Vendor} {text : String} {mark : Char} (hmark : Region.IsMark mark)
    {loc : Location} (h : split v text = .error (.quote (String.singleton mark) loc)) :
    ∃ s backslash, OpensUnclosed v text mark backslash s ∧
      text.toList = s.before.reverse ++ mark :: s.rest.drop 1 ∧
      Location.of? text (byteLength s.before) = some (.after s.before) ∧
      (loc = .after s.before ↔ .doubled ∉ parts mark v.backslashEscapes backslash (s.rest.drop 1)) := by
  have hlength : (Scan.start v text.toList).rest.length = text.length := String.length_toList
  have hfailure : ((Scan.start v text.toList).advance v text.length).unterminated? =
      some (.quote (String.singleton mark) loc) := by
    rw [← failure_of_split h, splitPartial, Scan.result_failure, Scan.finish, hlength]
  have hlong : (Scan.start v text.toList).region.LongTag := Region.longTag_code
  rcases Scan.failsIn_or_exists_opener hmark hlong (Nat.le_of_eq hlength) hfailure with
    ⟨backslash, hfails⟩ | ⟨s, hs, backslash, hopens, hfails, hfirst⟩
  · exact absurd hfails.region.symm (Region.quoted_ne_code mark backslash)
  obtain ⟨hr, hmove, -, hhead, -⟩ := Scan.opens?_eq_some hopens
  obtain ⟨rest, hrest⟩ := List.head?_eq_some_iff.1 hhead
  have htext : text.toList = s.before.reverse ++ s.rest := (Scan.visited_text v hs).symm
  have hnext : s.next v = s.take v 1 (.quoted mark backslash) := by rw [Scan.next, hmove, Scan.make]
  have hahead : (s.next v).rest = s.rest.drop 1 := by rw [hnext, Scan.take_rest]
  have hopened : (s.next v).opened = s.before := by rw [hnext]; simp [Scan.take, hr]
  have hbefore : (s.next v).before = mark :: s.before := by rw [hnext, Scan.take_before, hrest]; rfl
  refine ⟨s, backslash, ⟨hs, hopens, hfirst, hahead ▸ hfails.notClosed⟩, ?_, Location.of?_after htext, ?_⟩
  · rw [htext, hrest]
    rfl
  constructor
  · rintro rfl hdoubled
    have hle := hfails.doubled (hahead ▸ hdoubled)
    have hpos := mark.utf8Size_pos
    rw [hbefore, byteLength_cons] at hle
    simp only [Location.after] at hle
    omega
  · intro hsingle
    rw [hfails.single (hahead ▸ hsingle), hopened]

/-- After a literal with a doubled mark, on the second line. -/
theorem split_unterminated_literal_second_line :
    let text := "SELECT \x27it\x27\x27s é\x27,\n\x27ab"
    split oracle text = .error (.quote "\x27" ⟨19, 2, 1⟩) ∧ ∃ s backslash,
      OpensUnclosed oracle text '\x27' backslash s ∧
      text.toList = s.before.reverse ++ '\x27' :: s.rest.drop 1 ∧
      Location.of? text (byteLength s.before) = some (.after s.before) ∧
      (⟨19, 2, 1⟩ = Location.after s.before ↔
        .doubled ∉ parts '\x27' oracle.backslashEscapes backslash (s.rest.drop 1)) := by
  intro text
  have hfails : split oracle text = .error (.quote "\x27" ⟨19, 2, 1⟩) := by decide +kernel
  exact ⟨hfails, split_unterminated_literal (.inl rfl) hfails⟩

/-- The place is that of the second mark of the pair. -/
theorem unterminated_literal_doubled : ¬ ∀ v ∈ Vendor.builtins, ∀ text mark loc, Region.IsMark mark →
    split v text = .error (.quote (String.singleton mark) loc) →
    ∃ s backslash, OpensUnclosed v text mark backslash s ∧ loc = .after s.before := by
  intro h
  have hfails : split oracle "\x27a\x27\x27b" = .error (.quote (String.singleton '\x27') ⟨3, 1, 4⟩) := by
    decide +kernel
  obtain ⟨s, backslash, hopens, hloc⟩ := h oracle (by simp [Vendor.builtins]) _ _ _ (.inl rfl) hfails
  have hne : ∀ s ∈ (Scan.start oracle "\x27a\x27\x27b".toList).visited oracle 5, ∀ backslash,
      OpensUnclosed oracle "\x27a\x27\x27b" '\x27' backslash s → Location.after s.before ≠ ⟨3, 1, 4⟩ := by
    decide +kernel
  exact hne s hopens.1 backslash hopens hloc.symm

end SqlScript
