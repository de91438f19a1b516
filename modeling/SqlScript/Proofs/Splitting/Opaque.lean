import SqlScript.Proofs.Lexing.Enclosed
import SqlScript.Proofs.Lexing.Occurrence
import SqlScript.Proofs.Lexing.Splitting

/-!
# Literals and comments are opaque

A `Frame` is a splitting with a gap in one of its statements. Around a quoted literal, a dollar-quoted
literal or a block comment every script has one (`splitPartial_eq_fill`): whatever stands between the
opener and its end, the statements, their kinds and what stays open are the same, and the text fills the
gap. The lexemes around are the same, so it is left to see that they fall into the same units
(`SourceUnit.startsProcedural_of_areOpaque`, `Frame.exists_holds`).
-/

namespace SqlScript
open Text

/-- The text of the statement is in the given text, apart from the line feed behind a comment. -/
def Statement.Within (text : List Char) (s : Statement) : Prop :=
  ∃ t, t <:+: text ∧ (s.text = String.ofList t ∨ s.text = String.ofList (t ++ ['\n']))

/-- A splitting with a gap. -/
structure Frame where
  /-- The statements before the one with the gap. -/
  first : Script
  /-- The kind of the statement with the gap and its text on both sides, if there is such a statement. -/
  around : Option (Statement.Kind × List Char × List Char)
  last : Script
  /-- What is open at the end, and the text between the gap and its opener. -/
  failure : Option (Region × List Char)

namespace Frame

def script (f : Frame) (l : List Char) : Script :=
  f.first ++ (f.around.map fun (kind, p, q) => ⟨kind, String.ofList (p ++ (l ++ q))⟩).toList ++ f.last

/-- The splitting with `l` in the gap, which is behind the text `a` of the script. -/
def fill (f : Frame) (a l : List Char) : Splitting :=
  ⟨f.script l, f.failure.map fun (r, t) => r.failure (.after (a ++ l ++ t).reverse)⟩

/-- The frame comes from the text `a` before the gap and the text `b` behind it. There is a statement with
the gap, unless that is a comment in nothing but comments and blanks, or the script fails in the same
unit. -/
structure Fits (f : Frame) (r : Region) (a b : List Char) : Prop where
  first : ∀ s ∈ f.first, s.Within a
  around : ∀ kind p q, f.around = some (kind, p, q) →
    p <:+ a ∧ ∃ t, t <+: b ∧ (q = t ∨ q = t ++ ['\n'])
  last : ∀ s ∈ f.last, s.Within b
  failure : ∀ r' t, f.failure = some (r', t) → t <+: b
  lost : f.around = none → r = .blockComment ∨ f.failure.isSome ∧ f.last = []

end Frame

namespace Lexeme
variable {k : Kind} {c : Char} {l : Lexeme} {m m' : List Lexeme}

/-- A literal, which may have doubled quotes, or a block comment, by the character it begins with. -/
structure AreOpaque (k : Kind) (c : Char) (m : List Lexeme) : Prop where
  kind : ∀ l ∈ m, l.kind = k
  isOpaque : k = .literal ∨ k = .blockComment
  begins : ∃ t, join m = c :: t
  opening : c ∈ Region.openings
  ends : ∃ t d, join m = t ++ [d] ∧ Text.isBlank d = false

namespace AreOpaque

theorem ne_nil (hm : AreOpaque k c m) : m ≠ [] := by
  rintro rfl
  obtain ⟨t, ht⟩ := hm.begins
  cases ht

theorem isBlank_eq (hm : AreOpaque k c m) (hl : l ∈ m) : l.isBlank = false := by
  rcases hm.isOpaque with rfl | rfl <;> simp [isBlank, hm.kind l hl]

theorem isSignificant_eq (hm : AreOpaque k c m) (hl : l ∈ m) : l.isSignificant = (k == .literal) := by
  rw [isSignificant, isPadding, isBlank, isComment, isSemicolon, hm.kind l hl]
  rcases hm.isOpaque with rfl | rfl <;> rfl

theorem isPadding_eq (hm : AreOpaque k c m) (hl : l ∈ m) : l.isPadding = (k == .blockComment) := by
  rw [isPadding, isBlank, isComment, hm.kind l hl]
  rcases hm.isOpaque with rfl | rfl <;> rfl

theorem ends_eq (hm : AreOpaque k c m) (hl : l ∈ m) (v : Vendor) (p : Bool) : l.ends v p = false := by
  rcases hm.isOpaque with rfl | rfl <;> simp [Lexeme.ends, isSemicolon, hm.kind l hl]

theorem any_isSignificant (hm : AreOpaque k c m) : m.any (·.isSignificant) = (k == .literal) := by
  obtain ⟨l, more, rfl⟩ := List.exists_cons_of_ne_nil hm.ne_nil
  rw [Bool.eq_iff_iff, List.any_eq_true]
  constructor
  · rintro ⟨x, hx, hs⟩
    rwa [← hm.isSignificant_eq hx]
  · exact fun hk => ⟨l, by simp, by rwa [hm.isSignificant_eq List.mem_cons_self]⟩

/-- Texts that go on with a literal or a comment are alike to the keywords before it. -/
theorem alike (hm : AreOpaque k c m) (hm' : AreOpaque k c m') (z : List Char) :
    Keyword.Alike (join m ++ z) (join m' ++ z) := by
  obtain ⟨t, ht⟩ := hm.begins
  obtain ⟨t', ht'⟩ := hm'.begins
  have hc : (isWordChar c → c = '$') ∧ Keyword.isInitial c = false := by
    rcases Region.mem_openings_iff.1 hm.opening with rfl | rfl | rfl | rfl <;> decide
  rw [ht, ht']
  exact Keyword.alike_cons (Region.isBlank_of_mem_openings hm.opening) hc.1 hc.2 _ _

theorem endInLineComment_append (hm : AreOpaque k c m) (g h : List Lexeme) :
    endInLineComment (g ++ (m ++ h)) = endInLineComment h := by
  obtain ⟨init, l, rfl⟩ := (List.eq_nil_or_concat' m).resolve_left hm.ne_nil
  have hblank : l.isBlank = false := hm.isBlank_eq (by simp)
  have hkind : l.kind ≠ .lineComment := by
    rw [hm.kind l (by simp)]
    rcases hm.isOpaque with rfl | rfl <;> decide
  unfold endInLineComment
  simp only [List.reverse_append, List.reverse_singleton, List.append_assoc, List.dropWhile_append]
  cases hh : h.reverse.dropWhile (·.isBlank) with
  | nil => simp [hblank, hkind]
  | cons m more => rfl

end AreOpaque
end Lexeme

namespace SourceUnit
variable {v : Vendor} {tail : List Char} {k : Lexeme.Kind} {c : Char} {m m' g h : List Lexeme}

/-- What a literal or a comment holds does not show in the kind of a unit. -/
theorem startsProcedural_of_areOpaque (hv : v ∈ Vendor.plainBuiltins) (hm : Lexeme.AreOpaque k c m)
    (hm' : Lexeme.AreOpaque k c m') (g h : List Lexeme) :
    startsProcedural v tail (g ++ (m ++ h)) = startsProcedural v tail (g ++ (m' ++ h)) := by
  have halike : ∀ t, v.isProceduralStart (t ++ (Lexeme.join (m ++ h) ++ tail)) =
      v.isProceduralStart (t ++ (Lexeme.join (m' ++ h) ++ tail)) := fun t => by
    simp only [Lexeme.join_append, List.append_assoc]
    exact Vendor.isProceduralStart_alike hv (hm.alike hm' _) t
  cases hg : g.dropWhile (·.isPadding) with
  | cons l more => rw [startsProcedural_append hg, startsProcedural_append hg, halike]
  | nil =>
    have hpad := by simpa using List.dropWhile_eq_nil_iff.1 hg
    rw [startsProcedural_append_of_isPadding hpad, startsProcedural_append_of_isPadding hpad]
    rcases hm.isOpaque with rfl | rfl
    · have hcons : ∀ {m}, Lexeme.AreOpaque .literal c m →
          startsProcedural v tail (m ++ h) = v.isProceduralStart (Lexeme.join (m ++ h) ++ tail) := by
        intro m hm
        obtain ⟨l, more, rfl⟩ := List.exists_cons_of_ne_nil hm.ne_nil
        rw [List.cons_append, startsProcedural_cons (hm.isPadding_eq List.mem_cons_self),
          hm.isSignificant_eq List.mem_cons_self]
        rfl
      rw [hcons hm, hcons hm']
      exact halike []
    · have hskip : ∀ {m}, Lexeme.AreOpaque .blockComment c m →
          startsProcedural v tail (m ++ h) = startsProcedural v tail h := fun hm =>
        startsProcedural_append_of_isPadding (fun l hl => hm.isPadding_eq hl) h
      rw [hskip hm, hskip hm']

/-- The kind and the text of the statement around a literal or a comment between `g` and `h`, if these
make up a statement. -/
def around? (k : Lexeme.Kind) (g h : List Lexeme) (p : Bool) :
    Option (Statement.Kind × List Char × List Char) :=
  if g.any (·.isSignificant) || (k == .literal || h.any (·.isSignificant)) then
    some (if p then .procedural else .regular, trimStart (Lexeme.join g),
      trimEnd (Lexeme.join h) ++ if Lexeme.endInLineComment h then ['\n'] else [])
  else none

theorem statement?_of_areOpaque (hm : Lexeme.AreOpaque k c m) (g h : List Lexeme) (p : Bool) :
    statement? ⟨g ++ (m ++ h), p⟩ =
      (around? k g h p).map fun (kind, a, b) => ⟨kind, String.ofList (a ++ (Lexeme.join m ++ b))⟩ := by
  have hfirst : ∃ d t, Lexeme.join m = d :: t ∧ Text.isBlank d = false := by
    obtain ⟨t, ht⟩ := hm.begins
    exact ⟨c, t, ht, Region.isBlank_of_mem_openings hm.opening⟩
  rw [statement?, around?]
  simp only [List.any_append, hm.any_isSignificant, Lexeme.join_append, trim_append_append hfirst hm.ends,
    hm.endInLineComment_append]
  split
  · simp
  · rfl

theorem within_of_statement? {u : SourceUnit} {s : Statement} (hs : u.statement? = some s) :
    s.Within (Lexeme.join u.lexemes) := by
  unfold statement? at hs
  split at hs
  · obtain rfl := Option.some.inj hs
    refine ⟨_, trim_isInfix _, ?_⟩
    cases Lexeme.endInLineComment u.lexemes with
    | true => exact .inr rfl
    | false => exact .inl (by simp)
  · cases hs

theorem around?_eq_some {p : Bool} {kind : Statement.Kind} {a b : List Char}
    (heq : around? k g h p = some (kind, a, b)) :
    a <:+ Lexeme.join g ∧ ∃ t, t <+: Lexeme.join h ∧ (b = t ∨ b = t ++ ['\n']) := by
  unfold around? at heq
  split at heq
  · simp only [Option.some.injEq, Prod.mk.injEq] at heq
    obtain ⟨-, rfl, rfl⟩ := heq
    refine ⟨trimStart_isSuffix _, _, trimEnd_isPrefix _, ?_⟩
    cases Lexeme.endInLineComment h with
    | true => exact .inr rfl
    | false => exact .inl (by simp)
  · cases heq

theorem around?_eq_none {p : Bool} (heq : around? k g h p = none) : k ≠ .literal := by
  rintro rfl
  simp [around?] at heq

end SourceUnit

theorem Statement.Within.mono {s : Statement} {t u : List Char} (h : s.Within t) (htu : t <:+: u) :
    s.Within u := by
  obtain ⟨w, hw, hs⟩ := h
  exact ⟨w, hw.trans htu, hs⟩

/-- The statements of lexemes are in their text. -/
theorem Lexing.within_script {v : Vendor} {L : Lexing} {s : Statement} (hs : s ∈ L.script v) :
    s.Within (Lexeme.join L.lexemes) := by
  obtain ⟨u, hu, hstatement⟩ := List.mem_filterMap.1 hs
  obtain ⟨pre, post, hoccurs⟩ := exists_occurs hu
  refine (SourceUnit.within_of_statement? hstatement).mono ?_
  rw [hoccurs.lexemes, Lexeme.join_append, Lexeme.join_append, ← List.append_assoc]
  exact List.infix_append _ _ _

namespace Frame
variable {v : Vendor} {c : Char} {r : Region} {tail : List Char} {g h ls : List Lexeme} {e : Lexeme}
  {p : Bool} {f : Frame}

/-- The frame comes from the lexemes `g` and `h`, with `tail` behind them, and whatever literal or comment
is between them, the statements are those of the frame. -/
structure Holds (v : Vendor) (r : Region) (c : Char) (tail : List Char) (g h : List Lexeme) (f : Frame) :
    Prop where
  fits : f.Fits r (Lexeme.join g) (Lexeme.join h ++ tail)
  script : ∀ m, Lexeme.AreOpaque r.lexemeKind c m → ∀ o : Option Unterminated,
    o.isSome = f.failure.isSome → Lexing.script v ⟨g ++ (m ++ h), tail, o⟩ = f.script (Lexeme.join m)

theorem unended (hg : ∀ l ∈ g, l.ends v p = false) (hh : ∀ l ∈ h, l.ends v p = false) {k : Lexeme.Kind}
    {m : List Lexeme} (hm : Lexeme.AreOpaque k c m) : ∀ l ∈ g ++ (m ++ h), l.ends v p = false := by
  intro l hl
  rcases by simpa using hl with hl | hl | hl
  · exact hg l hl
  · exact hm.ends_eq hl v p
  · exact hh l hl

theorem eq_blockComment (hk : r.lexemeKind = .literal ∨ r.lexemeKind = .blockComment)
    (hne : r.lexemeKind ≠ .literal) : r = .blockComment := by
  cases r <;> simp_all [Region.lexemeKind]

/-- A script that fails in the unit with the gap has no statement with it. -/
theorem holds_of_failure (hp : ∀ m, Lexeme.AreOpaque r.lexemeKind c m →
      SourceUnit.startsProcedural v tail (g ++ (m ++ h)) = p)
    (hg : ∀ l ∈ g, l.ends v p = false) (hh : ∀ l ∈ h, l.ends v p = false) {o : Region × List Char}
    (ho : o.2 <+: Lexeme.join h ++ tail) : Holds v r c tail g h ⟨[], none, [], some o⟩ where
  fits := ⟨nofun, nofun, nofun, fun _ _ heq => by cases heq; exact ho, fun _ => .inr ⟨rfl, rfl⟩⟩
  script := fun m hm o' ho' => by
    obtain ⟨f, rfl⟩ := Option.isSome_iff_exists.1 ho'
    exact Lexing.script_of_open_failure (hp m hm) (unended hg hh hm) f

/-- The unit with the gap is the last one. -/
theorem holds_of_open (hk : r.lexemeKind = .literal ∨ r.lexemeKind = .blockComment)
    (hp : ∀ m, Lexeme.AreOpaque r.lexemeKind c m →
      SourceUnit.startsProcedural v tail (g ++ (m ++ h)) = p)
    (hg : ∀ l ∈ g, l.ends v p = false) (hh : ∀ l ∈ h, l.ends v p = false) :
    Holds v r c tail g h ⟨[], SourceUnit.around? r.lexemeKind g h p, [], none⟩ where
  fits := by
    refine ⟨nofun, fun kind a q hq => ?_, nofun, nofun,
      fun hnone => .inl (eq_blockComment hk (SourceUnit.around?_eq_none hnone))⟩
    obtain ⟨ha, t, ht, hq⟩ := SourceUnit.around?_eq_some hq
    exact ⟨ha, t, ht.trans (List.prefix_append _ _), hq⟩
  script := fun m hm o ho => by
    obtain rfl : o = none := by simpa using ho
    rw [Lexing.script_of_open (hp m hm) (unended hg hh hm), SourceUnit.statement?_of_areOpaque hm]
    simp [Frame.script]

/-- The unit with the gap ends behind it; nothing further on shows what the gap holds. -/
theorem holds_of_ends (hk : r.lexemeKind = .literal ∨ r.lexemeKind = .blockComment)
    (hp : ∀ m, Lexeme.AreOpaque r.lexemeKind c m →
      SourceUnit.startsProcedural v tail (g ++ (m ++ (h ++ e :: ls))) = p)
    (hg : ∀ l ∈ g, l.ends v p = false) (hh : ∀ l ∈ h, l.ends v p = false) (he : e.ends v p)
    {o : Option (Region × List Char)}
    (ho : ∀ r' t, o = some (r', t) → t <+: Lexeme.join (h ++ e :: ls) ++ tail) :
    Holds v r c tail g (h ++ e :: ls) ⟨[], SourceUnit.around? r.lexemeKind g h p,
      Lexing.script v ⟨ls, tail, o.map fun (r', t) => r'.failure (.after t)⟩, o⟩ where
  fits := by
    have hjoin : Lexeme.join h <+: Lexeme.join (h ++ e :: ls) ++ tail := by
      rw [Lexeme.join_append, List.append_assoc]
      exact List.prefix_append _ _
    have hjoin' : Lexeme.join ls <:+: Lexeme.join (h ++ e :: ls) ++ tail := by
      rw [Lexeme.join_append, Lexeme.join_cons, ← List.append_assoc]
      exact List.infix_append _ _ _
    refine ⟨nofun, fun kind a q hq => ?_, fun s hs => (Lexing.within_script hs).mono hjoin', ho,
      fun hnone => .inl (eq_blockComment hk (SourceUnit.around?_eq_none hnone))⟩
    obtain ⟨ha, t, ht, hq⟩ := SourceUnit.around?_eq_some hq
    exact ⟨ha, t, ht.trans hjoin, hq⟩
  script := fun m hm o' ho' => by
    have hlast : Lexing.script v ⟨ls, tail, o'⟩ =
        Lexing.script v ⟨ls, tail, o.map fun (r', t) => r'.failure (.after t)⟩ :=
      Lexing.script_congr (by simpa using ho')
    have hscript := Lexing.script_after (L := ⟨ls, tail, o'⟩) (by simpa using hp m hm)
      (unended hg hh hm) he
    rw [SourceUnit.statement?_of_areOpaque hm, hlast] at hscript
    simpa [Lexing.after, Frame.script] using hscript

/-- A unit before the one with the gap is a statement of its own. -/
theorem Holds.cons (hf : f.Holds v r c tail ls h)
    (hp : ∀ m, Lexeme.AreOpaque r.lexemeKind c m →
      SourceUnit.startsProcedural v tail (g ++ e :: ls ++ (m ++ h)) = p)
    (hg : ∀ l ∈ g, l.ends v p = false) (he : e.ends v p) :
    Holds v r c tail (g ++ e :: ls) h
      { f with first := (SourceUnit.statement? ⟨g, p⟩).toList ++ f.first } where
  fits := by
    have hjoin : Lexeme.join g <:+: Lexeme.join (g ++ e :: ls) := by
      rw [Lexeme.join_append]
      exact (List.prefix_append _ _).isInfix
    have hjoin' : Lexeme.join ls <:+ Lexeme.join (g ++ e :: ls) := by
      rw [Lexeme.join_append, Lexeme.join_cons, ← List.append_assoc]
      exact List.suffix_append _ _
    refine ⟨fun s hs => ?_, fun kind a q hq => ?_, hf.fits.last, hf.fits.failure, hf.fits.lost⟩
    · rcases List.mem_append.1 hs with hs | hs
      · exact (SourceUnit.within_of_statement? (Option.mem_toList.1 hs)).mono hjoin
      · exact (hf.fits.first s hs).mono hjoin'.isInfix
    · obtain ⟨ha, hq⟩ := hf.fits.around kind a q hq
      exact ⟨ha.trans hjoin', hq⟩
  script := fun m hm o ho => by
    have hscript := Lexing.script_after (L := ⟨ls ++ (m ++ h), tail, o⟩) (by simpa using hp m hm) hg he
    rw [hf.script m hm o ho] at hscript
    simpa [Lexing.after, Frame.script] using hscript

/-- Around a literal or a comment the lexemes fall into the same units whatever it holds. -/
theorem exists_holds (hv : v ∈ Vendor.plainBuiltins)
    (hk : r.lexemeKind = .literal ∨ r.lexemeKind = .blockComment) (hc : c ∈ Region.openings)
    {o : Option (Region × List Char)} (ho : ∀ r' t, o = some (r', t) → t <+: Lexeme.join h ++ tail)
    (g : List Lexeme) : ∃ f : Frame, f.failure = o ∧ f.Holds v r c tail g h := by
  induction hn : g.length using Nat.strongRecOn generalizing g with
  | ind n ih =>
    -- the kind of the first unit is that with the first character of the opener in the gap
    have hm₀ : Lexeme.AreOpaque r.lexemeKind c [⟨r.lexemeKind, [c]⟩] :=
      ⟨by simp, hk, ⟨[], rfl⟩, hc, [], c, rfl, Region.isBlank_of_mem_openings hc⟩
    have hp : ∀ m, Lexeme.AreOpaque r.lexemeKind c m →
        SourceUnit.startsProcedural v tail (g ++ (m ++ h)) =
          SourceUnit.startsProcedural v tail (g ++ ([⟨r.lexemeKind, [c]⟩] ++ h)) := fun m hm =>
      SourceUnit.startsProcedural_of_areOpaque hv hm hm₀ g h
    generalize SourceUnit.startsProcedural v tail (g ++ ([⟨r.lexemeKind, [c]⟩] ++ h)) = p at hp
    rcases sourceUnits_cases v p g with hg | ⟨g, e, ls, rfl, hg, he⟩
    · rcases sourceUnits_cases v p h with hh | ⟨h, e, ls, rfl, hh, he⟩
      · cases o with
        | none => exact ⟨_, rfl, holds_of_open hk hp hg hh⟩
        | some o => exact ⟨_, rfl, holds_of_failure hp hg hh (ho o.1 o.2 rfl)⟩
      · exact ⟨_, rfl, holds_of_ends hk hp hg hh he ho⟩
    · obtain ⟨f, hf, hholds⟩ := ih ls.length (by simp [← hn]; omega) ls rfl
      exact ⟨{ f with first := (SourceUnit.statement? ⟨g, p⟩).toList ++ f.first }, hf,
        hholds.cons hp hg he⟩

end Frame

/-- What is read from the opener through an end of the region is a literal or a comment that begins
alike. -/
theorem Encloses.exists_areOpaque {v : Vendor} (hv : v ∈ Vendor.plainBuiltins)
    {a opener body b : List Char} {r : Region} (h : Encloses v a opener body b r) :
    ∃ c ∈ Region.openings, (r.lexemeKind = .literal ∨ r.lexemeKind = .blockComment) ∧
      ∀ body' m, r.Closes body' → Lexeme.join m = opener ++ body' → (∀ l ∈ m, l.kind = r.lexemeKind) →
        Lexeme.AreOpaque r.lexemeKind c m := by
  obtain ⟨g, -, -, ho⟩ := h.exists_lexes hv
  obtain ⟨c, t, rfl, hc, -⟩ := Region.isOpener_of_openedBy? ho h.ne_lineComment
  obtain ⟨d, hblank, -, -, hlast⟩ := Region.exists_last ho h.ne_lineComment
  have hk : r.lexemeKind = .literal ∨ r.lexemeKind = .blockComment := by
    have hcode := h.ne_code
    have hline := h.ne_lineComment
    cases r <;> simp_all [Region.lexemeKind]
  refine ⟨c, hc, hk, fun body' m hbody hjoin hkind => ⟨hkind, hk, ⟨t ++ body', hjoin⟩, hc, ?_⟩⟩
  obtain ⟨init, hinit⟩ := hbody.exists_last hlast
  exact ⟨c :: t ++ init, d, by simp [hjoin, hinit], hblank⟩

/-- Literals and comments are opaque: whatever else than `body` the literal or the comment holds, all
statements and their kinds are the same, the text of one of them apart, which has it in its place, and so
is what stays open, but for the place. -/
theorem splitPartial_eq_fill {v : Vendor} (hv : v ∈ Vendor.plainBuiltins) {a opener body b : List Char}
    {r : Region} (h : Encloses v a opener body b r) :
    ∃ f : Frame, f.Fits r a b ∧ ∀ body', r.Closes body' →
      splitPartial v (String.ofList (a ++ (opener ++ body') ++ b)) = f.fill a (opener ++ body') := by
  obtain ⟨c, hc, hk, hbegins⟩ := h.exists_areOpaque hv
  obtain ⟨g, ls, tail, o, rfl, rfl, hlex⟩ := h.exists_lex hv
  have hbehind : ∀ r' t, o.map (fun r' => (r', Lexeme.join ls)) = some (r', t) →
      t <+: Lexeme.join ls ++ tail := by
    intro r' t heq
    obtain ⟨_, -, heq⟩ := Option.map_eq_some_iff.1 heq
    obtain ⟨-, rfl⟩ := Prod.mk.inj heq
    exact List.prefix_append _ _
  obtain ⟨f, hf, hholds⟩ := Frame.exists_holds hv hk hc hbehind g
  refine ⟨f, hholds.fits, fun body' hbody => ?_⟩
  obtain ⟨m, hjoin, hkind, heq⟩ := hlex body' hbody
  have hscript := hholds.script m (hbegins body' m hbody hjoin hkind)
  rw [splitPartial_eq_splitting_lex (Vendor.plain_of_mem hv), String.toList_ofList, heq,
    Lexing.splitting_eq, hscript _ (by simp [hf]), hjoin, Frame.fill, hf]
  simp [Function.comp_def]

/-- A literal in front of another one that never closes, and a text with ends of units and a doubled quote
in its place. -/
theorem splitPartial_eq_fill_literal :
    let a := "EXEC p; SELECT ".toList
    let b := "/2\nGO\nx; y \x27".toList
    Encloses sqlserver a ['\x27'] "1\x27".toList b (.quoted '\x27' false) ∧
      ∃ f : Frame, f.Fits (.quoted '\x27' false) a b ∧
        splitPartial sqlserver "EXEC p; SELECT \x271\x27/2\nGO\nx; y \x27" =
          f.fill a (['\x27'] ++ "1\x27".toList) ∧
        splitPartial sqlserver "EXEC p; SELECT \x27;\nGO\x27\x27/*\x27/2\nGO\nx; y \x27" =
          f.fill a (['\x27'] ++ ";\nGO\x27\x27/*\x27".toList) := by
  intro a b
  have hv : sqlserver ∈ Vendor.plainBuiltins := Vendor.mem_plainBuiltins.2 (.inr (.inr rfl))
  have hone : (Region.quoted '\x27' false).Closes "1\x27".toList := .once (by decide +kernel)
  have htwo : (Region.quoted '\x27' false).Closes (";\nGO\x27".toList ++ '\x27' :: "/*\x27".toList) :=
    .doubled (by decide +kernel) (.once (by decide +kernel))
  have h : Encloses sqlserver a ['\x27'] "1\x27".toList b (.quoted '\x27' false) :=
    ⟨⟨15, by decide +kernel⟩, nofun, nofun, hone⟩
  have htext : String.ofList (a ++ (['\x27'] ++ "1\x27".toList) ++ b) =
      "EXEC p; SELECT \x271\x27/2\nGO\nx; y \x27" := by decide +kernel
  have htext' : String.ofList (a ++ (['\x27'] ++ (";\nGO\x27".toList ++ '\x27' :: "/*\x27".toList)) ++ b) =
      "EXEC p; SELECT \x27;\nGO\x27\x27/*\x27/2\nGO\nx; y \x27" := by decide +kernel
  obtain ⟨f, hf, hfill⟩ := splitPartial_eq_fill hv h
  have hfirst := hfill _ hone
  have hsecond := hfill _ htwo
  rw [htext] at hfirst
  rw [htext'] at hsecond
  exact ⟨h, f, hf, hfirst, hsecond⟩

end SqlScript
