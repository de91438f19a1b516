import SqlScript.Proofs.Splitting.Literal

/-!
# Literals read as wholes

`splitWhole` splits a script in which a quoted literal is one literal up to its closing mark: a
doubled mark stays inside, and whether a backslash takes the next character along is settled where the
literal opens. `splitPartial` closes the literal at the doubled mark and opens it again. The two make
the same statements (`splitPartial_eq_splitWhole`) unless opening again looks different from going on
(`Scan.Settled`): the rule for backslashes may be lost then, and the unit takes note of the second mark
as it does of any code.
-/

namespace SqlScript
open Text Literal

/-- As `advance`, with a doubled mark as a piece of the literal. -/
def Region.advanceWhole (r : Region) (text : List Char) : Nat × Region :=
  match r with
  | .quoted mark _ => if [mark, mark].isPrefixOf text then (2, r) else r.advance text
  | _ => r.advance text

theorem Region.advanceWhole_of_not_quoted {r : Region} (h : ∀ mark backslash, r ≠ .quoted mark backslash)
    (text : List Char) : r.advanceWhole text = r.advance text := by
  cases r with
  | quoted mark backslash => exact absurd rfl (h mark backslash)
  | _ => rfl

namespace Scan

def nextWhole (v : Vendor) (s : Scan) : Scan :=
  if s.region = .code then s.next v
  else
    let (length, region) := s.region.advanceWhole s.rest
    s.take v length region

def advanceWhole (v : Vendor) : Nat → Scan → Scan
  | 0, s => s
  | n + 1, s => if s.rest.isEmpty then s else advanceWhole v n (s.nextWhole v)

def visitedWhole (v : Vendor) : Nat → Scan → List Scan
  | 0, _ => []
  | n + 1, s => if s.rest.isEmpty then [] else s :: visitedWhole v n (s.nextWhole v)

end Scan

/-- The statements of a script whose literals are read as wholes. -/
def splitWhole (v : Vendor) (text : String) : Splitting :=
  ((Scan.start v text.toList).advanceWhole v text.length).result

theorem Region.advanceWhole_pos {r : Region} (h : r.HasCloser) (text : List Char) :
    0 < (r.advanceWhole text).1 := by
  cases r with
  | quoted mark backslash =>
    rw [advanceWhole]
    split
    · exact Nat.two_pos
    · exact advance_pos h text
  | _ => exact advance_pos h text

theorem Region.hasCloser_advanceWhole {r : Region} (h : r.HasCloser) (text : List Char) :
    (r.advanceWhole text).2.HasCloser := by
  cases r with
  | quoted mark backslash =>
    rw [advanceWhole]
    split
    · exact h
    · exact hasCloser_advance h text
  | _ => exact hasCloser_advance h text

/-- The same statements, and a failure in both or in neither. -/
def Splitting.Agrees (a b : Splitting) : Prop :=
  a.script = b.script ∧ a.failure.isSome = b.failure.isSome

/-- Nothing that opens a literal changes the unit but for its text. -/
def Gathered.IsSteady (u : Gathered) : Prop :=
  u.significant ∧ u.commentTail = false

namespace Scan
variable {v : Vendor} {s : Scan} {mark : Char} {rest : List Char}

/-- If a literal opens here and holds a doubled mark, it does not open at the delimiter, and no mark
behind the doubled one is escaped, unless all literals of the vendor know backslashes as this one does. -/
def Settled (v : Vendor) (s : Scan) : Prop :=
  ∀ o ∈ s.opens? v, late (parts o.1 o.2 o.2 (s.rest.drop 1)) ≠ [] →
    s.atDelimiter = false ∧ (o.2 = v.backslashEscapes ∨
      .escaped o.1 ∉ late (parts o.1 o.2 o.2 (s.rest.drop 1)))

instance (v : Vendor) (s : Scan) : Decidable (s.Settled v) :=
  inferInstanceAs (Decidable (∀ o ∈ s.opens? v, _ → _))

theorem atComment_of_mark (hmark : Region.IsMark mark) (hrest : s.rest = mark :: rest) :
    s.atLineComment = false ∧ s.atComment = false := by
  rcases hmark with rfl | rfl <;> simp [atComment, atLineComment, hrest, List.isPrefixOf]

theorem noted_of_isSteady (hmark : Region.IsMark mark) (hrest : s.rest = mark :: rest)
    (hunit : s.unit.IsSteady) : s.noted v = s.unit := by
  obtain ⟨hsignificant, htail⟩ := hunit
  have hstarts : s.startsUnit = false := by simp [startsUnit, hsignificant]
  have hsame : { s.unit with commentTail := false } = s.unit := by rw [← htail]
  simp only [noted, hstarts, (atComment_of_mark hmark hrest).1, Bool.false_eq_true, if_false, hsame, ite_self]

theorem isSteady_noted (hmark : Region.IsMark mark) (hrest : s.rest = mark :: rest)
    (hdelimiter : s.atDelimiter = false) : (s.noted v).IsSteady := by
  have hblank : s.atBlank = false := by simp [atBlank, hrest, hmark.isBlank_eq_false]
  cases hsignificant : s.unit.significant <;>
    simp [noted, startsUnit, hblank, hdelimiter, atComment_of_mark hmark hrest, Gathered.IsSteady,
      hsignificant]

theorem isSteady_take (hr : s.region ≠ .code) (n : Nat) (r : Region) :
    (s.take v n r).unit.IsSteady ↔ s.unit.IsSteady := by
  simp [take, hr, Gathered.IsSteady]

/-- The scan in another region, which opened elsewhere. -/
def inRegion (s : Scan) (region : Region) (opened : List Char) : Scan :=
  { s with region, opened }

@[simp] theorem inRegion_rest (s : Scan) (r : Region) (opened : List Char) :
    (s.inRegion r opened).rest = s.rest := rfl
@[simp] theorem inRegion_region (s : Scan) (r : Region) (opened : List Char) :
    (s.inRegion r opened).region = r := rfl

/-- The scan is in a quoted literal with the given rule for backslashes, where another scan reads the
literal by the rule `own`. Opening the literal again at a doubled mark ahead will be going on. -/
structure InLiteral (v : Vendor) (s : Scan) (mark : Char) (backslash own : Bool) : Prop where
  region : s.region = .quoted mark backslash
  isMark : Region.IsMark mark
  vendor : v.backslashEscapes → backslash
  own : own = backslash ∨
    own = v.backslashEscapes ∧ .escaped mark ∉ parts mark backslash backslash s.rest
  goesOn : late (parts mark backslash backslash s.rest) ≠ [] → s.unit.IsSteady ∧
    (backslash = v.backslashEscapes ∨ .escaped mark ∉ late (parts mark backslash backslash s.rest))

/-- The region that a scan is in otherwise, where it is in its own when literals are read as wholes.
Of a literal only the rule for backslashes may differ. -/
inductive InStep (v : Vendor) : Region → Scan → Prop
  | same {s : Scan} (h : ∀ mark backslash, s.region ≠ .quoted mark backslash) : InStep v s.region s
  | literal {s : Scan} {mark : Char} {backslash own : Bool} (h : s.InLiteral v mark backslash own) :
      InStep v (.quoted mark own) s

/-- Some moves later the scan is in step with `t`. -/
def ComesTo (v : Vendor) (s t : Scan) : Prop :=
  ∃ opened r, s.outcome v = (t.inRegion r opened).outcome v ∧ InStep v r t

theorem nextWhole_of_code (hr : s.region = .code) : s.nextWhole v = s.next v :=
  if_pos hr

theorem nextWhole_of_not_code (hr : s.region ≠ .code) :
    s.nextWhole v = s.take v (s.region.advanceWhole s.rest).1 (s.region.advanceWhole s.rest).2 :=
  if_neg hr

/-- Where a region opened shows in code only until the next one opens. -/
theorem exists_next_opened (s : Scan) (opened : List Char) :
    ∃ opened', (s.inRegion s.region opened).next v = (s.next v).inRegion (s.next v).region opened' := by
  have hmove : (s.inRegion s.region opened).move v = s.move v := rfl
  rw [next, hmove, next]
  cases s.move v with
  | keep n r => exact ⟨if s.region = .code then s.before else opened, rfl⟩
  | delimiter => exact ⟨opened, rfl⟩
  | markerLine => exact ⟨opened, rfl⟩
  | directive d => exact ⟨opened, rfl⟩

theorem inRegion_take {r : Region} (hs : s.region ≠ .code) (hr : r ≠ .code) (opened : List Char)
    (n : Nat) (r₁ r₂ : Region) :
    (s.inRegion r opened).take v n r₂ = (s.take v n r₁).inRegion r₂ opened := by
  simp [inRegion, take, skip, hs, hr]

/-- Behind what does not belong to a literal, and not at its end, nothing tells the two scans apart. -/
theorem inStep_next_of_code (hr : s.region = .code) (hsettled : s.Settled v) :
    InStep v (s.next v).region (s.next v) := by
  by_cases h : ∃ mark backslash, (s.next v).region = .quoted mark backslash
  · obtain ⟨mark, backslash, hopen⟩ := h
    have hopens := opens?_of_next hr hopen
    obtain ⟨-, hmove, hmark, hhead, hvendor⟩ := opens?_eq_some hopens
    obtain ⟨rest, hrest⟩ := List.head?_eq_some_iff.1 hhead
    have hnext : s.next v = s.take v 1 (.quoted mark backslash) := by rw [next, hmove, make]
    rw [hopen]
    refine .literal ⟨hopen, hmark, hvendor, .inl rfl, ?_⟩
    rw [hnext, take_rest]
    intro hlate
    obtain ⟨hdelimiter, hescaped⟩ := hsettled _ hopens hlate
    refine ⟨?_, hescaped⟩
    have hsteady := isSteady_noted (v := v) hmark hrest hdelimiter
    simpa [take, hr, Gathered.IsSteady] using hsteady
  · exact .same fun mark backslash hopen => h ⟨mark, backslash, hopen⟩

/-- Outside literals the two scans agree on the next move. -/
theorem comesTo_of_not_quoted (h : ∀ mark backslash, s.region ≠ .quoted mark backslash)
    (hcloser : s.region.HasCloser) (hsettled : s.Settled v) (hs : s.rest ≠ []) (opened : List Char) :
    (s.inRegion s.region opened).ComesTo v (s.nextWhole v) := by
  have hout : (s.inRegion s.region opened).outcome v = ((s.inRegion s.region opened).next v).outcome v :=
    outcome_next hcloser hs
  by_cases hr : s.region = .code
  · obtain ⟨opened', hnext⟩ := s.exists_next_opened (v := v) opened
    rw [nextWhole_of_code hr]
    exact ⟨opened', _, by rw [hout, hnext], inStep_next_of_code hr hsettled⟩
  · have hnext : (s.inRegion s.region opened).next v =
        (s.nextWhole v).inRegion (s.nextWhole v).region opened := by
      rw [nextWhole_of_not_code hr, Region.advanceWhole_of_not_quoted h, next_of_region_ne_code (by exact hr)]
      exact inRegion_take hr hr opened _ _ _
    refine ⟨opened, _, by rw [hout, hnext], .same ?_⟩
    rw [nextWhole_of_not_code hr, Region.advanceWhole_of_not_quoted h, take_region]
    rcases s.region.advance_snd s.rest with hreg | hreg <;> rw [hreg]
    · exact h
    · nofun

section Literal
variable {own : Bool} {c : Char}

/-- A backslash takes the next character along, or the next character does not need it. -/
theorem outcome_escaped (hmark : Region.IsMark mark) (hr : s.region = .quoted mark own)
    (hrest : s.rest = '\\' :: rest) (h : own ∨ rest.head? ≠ some mark) :
    s.outcome v = (s.take v 2 (.quoted mark own)).outcome v := by
  have hcode : s.region ≠ .code := hr ▸ Region.quoted_ne_code mark own
  have hcloser : s.region.HasCloser := hr ▸ Region.hasCloser_quoted mark own
  rw [outcome_next hcloser (by simp [hrest])]
  cases own with
  | true => rw [next_of_region_ne_code hcode, hr, hrest, Region.advance_quoted_cons]; rfl
  | false =>
    rw [next_of_char hr hrest (Ne.symm hmark.ne_backslash) rfl]
    cases rest with
    | nil => rw [take_congr (n := 1) (m := 2) (by simp [hrest])]
    | cons d rest =>
      have hd : d ≠ mark := by simpa using h
      have hrest' : (s.take v 1 (.quoted mark false)).rest = d :: rest := by simp [hrest]
      have hne : (s.take v 1 (.quoted mark false)).rest ≠ [] := hrest' ▸ List.cons_ne_nil d rest
      rw [outcome_next (Region.hasCloser_quoted mark false) hne, next_of_char rfl hrest' hd rfl,
        take_take (Region.quoted_ne_code mark false)]

/-- Where nothing more is to be noted, two pieces are taken as one. -/
theorem take_code_take (hr : s.region ≠ .code) {n : Nat}
    (hnoted : (s.take v n .code).noted v = (s.take v n .code).unit) (m : Nat) (r₁ r₂ : Region) :
    (s.take v n .code).take v m r₂ =
      (s.take v (n + m) r₁).inRegion r₂ ((s.rest.take n).reverse ++ s.before) := by
  rw [take, hnoted]
  simp [inRegion, take, skip, hr, List.take_add, List.drop_drop]

/-- The literal is opened again at a doubled mark. -/
theorem outcome_doubled (hmark : Region.IsMark mark) (hr : s.region = .quoted mark own)
    (hrest : s.rest = mark :: mark :: rest) (hsteady : s.unit.IsSteady) :
    s.outcome v = ((s.take v 2 (.quoted mark own)).inRegion (.quoted mark v.backslashEscapes)
      (mark :: s.before)).outcome v := by
  have hcode : s.region ≠ .code := hr ▸ Region.quoted_ne_code mark own
  have hcloser : s.region.HasCloser := hr ▸ Region.hasCloser_quoted mark own
  have hrest' : (s.take v 1 .code).rest = mark :: rest := by simp [hrest]
  have hne : (s.take v 1 .code).rest ≠ [] := hrest' ▸ List.cons_ne_nil mark rest
  have hbefore : (s.take v 1 .code).before = mark :: s.before := by simp [hrest]
  have hnoted : (s.take v 1 .code).noted v = (s.take v 1 .code).unit :=
    noted_of_isSteady hmark hrest' ((isSteady_take hcode 1 .code).2 hsteady)
  rw [outcome_next hcloser (by simp [hrest]), next_of_mark hmark hr hrest,
    outcome_next Region.hasCloser_code hne, next, move_reopening hmark rfl hbefore hrest', make,
    take_code_take hcode hnoted 1 (.quoted mark own), hrest]
  rfl

theorem nextWhole_of_doubled (hr : s.region = .quoted mark own) (hrest : s.rest = mark :: mark :: rest) :
    s.nextWhole v = s.take v 2 (.quoted mark own) := by
  have hcode : s.region ≠ .code := hr ▸ Region.quoted_ne_code mark own
  rw [nextWhole_of_not_code hcode, hr, hrest]
  simp [Region.advanceWhole]

theorem nextWhole_of_not_doubled (hr : s.region = .quoted mark own)
    (hrest : [mark, mark].isPrefixOf s.rest = false) : s.nextWhole v = s.next v := by
  have hcode : s.region ≠ .code := hr ▸ Region.quoted_ne_code mark own
  rw [nextWhole_of_not_code hcode, next_of_region_ne_code hcode, hr, Region.advanceWhole, hrest]
  rfl

namespace InLiteral
variable {backslash : Bool} {n : Nat} {part : Part}

theorem not_code (h : s.InLiteral v mark backslash own) : s.region ≠ .code :=
  h.region ▸ Region.quoted_ne_code mark backslash

theorem take (h : s.InLiteral v mark backslash own)
    (hparts : parts mark backslash backslash s.rest = part :: parts mark backslash backslash (s.rest.drop n))
    {own' : Bool} (hown : own' = backslash ∨
      own' = v.backslashEscapes ∧ .escaped mark ∉ parts mark backslash backslash (s.rest.drop n)) :
    (s.take v n (.quoted mark backslash)).InLiteral v mark backslash own' := by
  refine ⟨rfl, h.isMark, h.vendor, hown, ?_⟩
  intro hlate
  have hsuffix := late_suffix part (parts mark backslash backslash (s.rest.drop n))
  rw [← hparts] at hsuffix
  have hne : late (parts mark backslash backslash s.rest) ≠ [] := by
    intro hnil
    rw [hnil, List.suffix_nil] at hsuffix
    exact hlate hsuffix
  obtain ⟨hsteady, hescaped⟩ := h.goesOn hne
  refine ⟨(isSteady_take h.not_code n _).2 hsteady, hescaped.imp_right ?_⟩
  intro hnot hmem
  exact hnot (hsuffix.subset hmem)

/-- One piece of the literal, alike in both scans. -/
theorem comesTo_of_piece (h : s.InLiteral v mark backslash own) {opened : List Char}
    (hnext : s.nextWhole v = s.take v n (.quoted mark backslash))
    (hout : (s.inRegion (.quoted mark own) opened).outcome v =
      ((s.inRegion (.quoted mark own) opened).take v n (.quoted mark own)).outcome v)
    (hparts : parts mark backslash backslash s.rest = part :: parts mark backslash backslash (s.rest.drop n)) :
    (s.inRegion (.quoted mark own) opened).ComesTo v (s.nextWhole v) := by
  rw [inRegion_take h.not_code (Region.quoted_ne_code mark own) opened n (.quoted mark backslash)] at hout
  rw [hnext]
  refine ⟨opened, .quoted mark own, hout, .literal (h.take hparts (h.own.imp_right ?_))⟩
  rintro ⟨hvendor, hnot⟩
  refine ⟨hvendor, ?_⟩
  rw [hparts] at hnot
  exact fun hmem => hnot (List.mem_cons_of_mem _ hmem)

theorem comesTo_of_backslash (h : s.InLiteral v mark true own) (hrest : s.rest = '\\' :: rest)
    (opened : List Char) : (s.inRegion (.quoted mark own) opened).ComesTo v (s.nextWhole v) := by
  have hdoubled : [mark, mark].isPrefixOf s.rest = false := by
    simp [hrest, List.isPrefixOf, h.isMark.ne_backslash]
  have hnext : s.nextWhole v = s.take v 2 (.quoted mark true) := by
    rw [nextWhole_of_not_doubled h.region hdoubled, next_of_region_ne_code h.not_code, h.region, hrest]
    rfl
  cases rest with
  | nil =>
    have hparts : parts mark true true s.rest = .char '\\' :: parts mark true true (s.rest.drop 2) := by
      rw [hrest, parts_backslash]
      rfl
    exact h.comesTo_of_piece hnext (outcome_escaped h.isMark rfl hrest (.inr (by simp))) hparts
  | cons d rest =>
    have hparts : parts mark true true s.rest = .escaped d :: parts mark true true (s.rest.drop 2) := by
      rw [hrest, parts_escaped]
      rfl
    have htaken : own ∨ (d :: rest).head? ≠ some mark := by
      rcases h.own with rfl | ⟨-, hnot⟩
      · exact .inl rfl
      · right
        intro hd
        cases hd
        rw [hparts] at hnot
        exact hnot (List.mem_cons_self ..)
    exact h.comesTo_of_piece hnext (outcome_escaped h.isMark rfl hrest htaken) hparts

theorem comesTo_of_doubled (h : s.InLiteral v mark backslash own) (hrest : s.rest = mark :: mark :: rest)
    (opened : List Char) : (s.inRegion (.quoted mark own) opened).ComesTo v (s.nextWhole v) := by
  have hparts : parts mark backslash backslash s.rest =
      .doubled :: parts mark backslash backslash (s.rest.drop 2) := by
    rw [hrest, parts_doubled (h.isMark.not_escapes backslash)]
    rfl
  have hlate : late (parts mark backslash backslash s.rest) = parts mark backslash backslash s.rest := by
    rw [hparts]
    rfl
  obtain ⟨hsteady, hescaped⟩ := h.goesOn (by rw [hlate, hparts]; exact List.cons_ne_nil _ _)
  rw [hlate, hparts] at hescaped
  have hout : (s.inRegion (.quoted mark own) opened).outcome v = _ :=
    outcome_doubled h.isMark rfl hrest hsteady
  rw [inRegion_take h.not_code (Region.quoted_ne_code mark own) opened 2 (.quoted mark backslash)] at hout
  rw [nextWhole_of_doubled h.region hrest]
  refine ⟨_, _, hout, .literal (h.take hparts (hescaped.imp Eq.symm ?_))⟩
  intro hnot
  exact ⟨rfl, fun hmem => hnot (List.mem_cons_of_mem _ hmem)⟩

theorem comesTo_of_close (h : s.InLiteral v mark backslash own) (hrest : s.rest = mark :: rest)
    (hd : rest.head? ≠ some mark) (opened : List Char) :
    (s.inRegion (.quoted mark own) opened).ComesTo v (s.nextWhole v) := by
  have hdoubled : [mark, mark].isPrefixOf s.rest = false := by
    rw [hrest]
    cases rest with
    | nil => simp [List.isPrefixOf]
    | cons d rest =>
      have hne : mark ≠ d := fun heq => hd (heq ▸ rfl)
      simp [List.isPrefixOf, hne]
  have hsame : InStep v (s.take v 1 .code).region (s.take v 1 .code) := .same (by rw [take_region]; nofun)
  have hout : (s.inRegion (.quoted mark own) opened).outcome v = _ :=
    outcome_next (Region.hasCloser_quoted mark own) (by rw [inRegion_rest, hrest]; exact List.cons_ne_nil _ _)
  have hclosed : (s.inRegion (.quoted mark own) opened).next v = _ := next_of_mark h.isMark rfl hrest
  rw [hclosed, inRegion_take h.not_code (Region.quoted_ne_code mark own) opened 1 .code] at hout
  rw [nextWhole_of_not_doubled h.region hdoubled, next_of_mark h.isMark h.region hrest]
  exact ⟨opened, .code, hout, hsame⟩

theorem comesTo_of_char (h : s.InLiteral v mark backslash own) (hrest : s.rest = c :: rest) (hc : c ≠ mark)
    (hescapes : (backslash && c == '\\') = false) (opened : List Char) :
    (s.inRegion (.quoted mark own) opened).ComesTo v (s.nextWhole v) := by
  have hdoubled : [mark, mark].isPrefixOf s.rest = false := by
    simp [hrest, List.isPrefixOf, Ne.symm hc]
  have hnext : s.nextWhole v = s.take v 1 (.quoted mark backslash) := by
    rw [nextWhole_of_not_doubled h.region hdoubled, next_of_char h.region hrest hc hescapes]
  have hparts : parts mark backslash backslash s.rest =
      .char c :: parts mark backslash backslash (s.rest.drop 1) := by
    rw [hrest, parts_char hescapes hc]
    rfl
  have hbackslash : own → backslash := by
    rcases h.own with rfl | ⟨rfl, -⟩
    · exact id
    · exact h.vendor
  have hown : (own && c == '\\') = false := by
    cases own with
    | false => rfl
    | true => simpa [hbackslash rfl] using hescapes
  have hout : (s.inRegion (.quoted mark own) opened).outcome v = _ :=
    outcome_next (Region.hasCloser_quoted mark own) (by rw [inRegion_rest, hrest]; exact List.cons_ne_nil _ _)
  have hread : (s.inRegion (.quoted mark own) opened).next v = _ := next_of_char rfl hrest hc hown
  exact h.comesTo_of_piece hnext (hout.trans (by rw [hread])) hparts

/-- In a literal the two scans agree on the next piece, or will after the second of two marks. -/
theorem comesTo (h : s.InLiteral v mark backslash own) (hs : s.rest ≠ []) (opened : List Char) :
    (s.inRegion (.quoted mark own) opened).ComesTo v (s.nextWhole v) := by
  obtain ⟨c, rest, hrest⟩ := List.exists_cons_of_ne_nil hs
  by_cases hescapes : (backslash && c == '\\') = true
  · obtain ⟨rfl, rfl⟩ : backslash = true ∧ c = '\\' := by simpa using hescapes
    exact h.comesTo_of_backslash hrest opened
  · by_cases hc : c = mark
    · subst hc
      by_cases hd : rest.head? = some c
      · obtain ⟨rest, rfl⟩ := List.head?_eq_some_iff.1 hd
        exact h.comesTo_of_doubled hrest opened
      · exact h.comesTo_of_close hrest hd opened
    · exact h.comesTo_of_char hrest hc (by simpa using hescapes) opened

end InLiteral
end Literal

theorem hasCloser_nextWhole (h : s.region.HasCloser) : (s.nextWhole v).region.HasCloser := by
  by_cases hr : s.region = .code
  · rw [nextWhole_of_code hr]
    exact hasCloser_next h
  · rw [nextWhole_of_not_code hr, take_region]
    exact Region.hasCloser_advanceWhole h s.rest

theorem nextWhole_length_lt (h : s.region.HasCloser) (hs : s.rest ≠ []) :
    (s.nextWhole v).rest.length < s.rest.length := by
  by_cases hr : s.region = .code
  · rw [nextWhole_of_code hr]
    exact next_length_lt h hs
  · have hlength := List.length_pos_iff.2 hs
    have hpos := Region.advanceWhole_pos h s.rest
    rw [nextWhole_of_not_code hr, take_rest, List.length_drop]
    omega

theorem InStep.result_agrees {r : Region} (h : InStep v r s) (opened : List Char) :
    (s.inRegion r opened).result.Agrees s.result := by
  cases h with
  | same h =>
    cases hr : s.region <;> simp [result, unterminated?, inRegion, hr, close, Splitting.Agrees]
  | literal h =>
    simp [result, unterminated?, inRegion, h.region, Splitting.Agrees]

/-- Two scans in step end alike. -/
theorem InStep.outcome_agrees {r : Region} (h : InStep v r s) (hcloser : s.region.HasCloser) {n : Nat}
    (hn : s.rest.length ≤ n) (hsettled : ∀ t ∈ s.visitedWhole v n, t.Settled v) (opened : List Char) :
    ((s.inRegion r opened).outcome v).Agrees (s.advanceWhole v n).result := by
  induction n generalizing s r opened with
  | zero =>
    have hs : s.rest = [] := List.length_eq_zero_iff.1 (Nat.le_zero.1 hn)
    rw [outcome_of_rest_eq_nil (by exact hs)]
    exact h.result_agrees opened
  | succ n ih =>
    by_cases hs : s.rest = []
    · rw [outcome_of_rest_eq_nil (by exact hs), advanceWhole, if_pos (by rw [hs]; rfl)]
      exact h.result_agrees opened
    · have hrest : s.rest.isEmpty = false := by simpa using hs
      have hlt := nextWhole_length_lt (v := v) hcloser hs
      rw [visitedWhole, hrest] at hsettled
      obtain ⟨hhere, hlater⟩ := List.forall_mem_cons.1 hsettled
      have hstep : (s.inRegion r opened).ComesTo v (s.nextWhole v) := by
        cases h with
        | same h => exact comesTo_of_not_quoted h hcloser hhere hs opened
        | literal h => exact h.comesTo hs opened
      obtain ⟨opened', r', hout, hin⟩ := hstep
      rw [hout, advanceWhole, hrest]
      exact ih hin (hasCloser_nextWhole hcloser) (by omega) hlater opened'

end Scan

/-- A script is split as if its literals were read as wholes, as long as opening a literal again at a
doubled mark makes no difference. -/
theorem splitPartial_eq_splitWhole (v : Vendor) (text : String)
    (h : ∀ s ∈ (Scan.start v text.toList).visitedWhole v text.length, s.Settled v) :
    (splitPartial v text).script = (splitWhole v text).script ∧
      (splitPartial v text).failure.isSome = (splitWhole v text).failure.isSome := by
  have hin : Scan.InStep v (Scan.start v text.toList).region (Scan.start v text.toList) :=
    .same (by rw [show (Scan.start v text.toList).region = .code from rfl]; nofun)
  exact hin.outcome_agrees Region.hasCloser_code (Nat.le_of_eq String.length_toList) h []

/-- Marks escaped before the first doubled one, and escaped backslashes behind it. -/
theorem splitPartial_eq_splitWhole_escapes :
    let text := "SELECT E\x27it\\\x27s \x27\x27so\x27\x27 \\\\\x27, \x27it\x27\x27s\x27;SELECT 2"
    (∀ s ∈ (Scan.start postgresql text.toList).visitedWhole postgresql text.length, s.Settled postgresql) ∧
      (splitPartial postgresql text).script = (splitWhole postgresql text).script ∧
      (splitPartial postgresql text).failure.isSome = (splitWhole postgresql text).failure.isSome := by
  intro text
  have hsettled : ∀ s ∈ (Scan.start postgresql text.toList).visitedWhole postgresql text.length,
      s.Settled postgresql := by decide +kernel
  exact ⟨hsettled, splitPartial_eq_splitWhole postgresql text hsettled⟩

/-- Behind a doubled mark an escape string no longer knows backslashes. -/
theorem splitPartial_ne_splitWhole_escape : ¬ ∀ v ∈ Vendor.builtins, ∀ text,
    (splitPartial v text).script = (splitWhole v text).script ∧
      (splitPartial v text).failure.isSome = (splitWhole v text).failure.isSome := by
  intro h
  have hfails : (splitPartial postgresql "SELECT E\x27a\x27\x27\\\x27\x27;").failure.isSome = true ∧
      (splitWhole postgresql "SELECT E\x27a\x27\x27\\\x27\x27;").failure.isSome = false := by decide +kernel
  have hsame := (h postgresql (by simp [Vendor.builtins]) "SELECT E\x27a\x27\x27\\\x27\x27;").2
  rw [hfails.1, hfails.2] at hsame
  cases hsame

end SqlScript
