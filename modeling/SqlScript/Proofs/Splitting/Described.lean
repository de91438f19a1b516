import Mathlib.Data.List.Forall2
import SqlScript.Proofs.Lexing.Splitting
import SqlScript.Proofs.Vendor.Entry

/-!
# Splitting for a vendor described by data

Splitting a script looks neither at the name of a vendor nor at its port (`splitPartial_named`). Where the
delimiter ends blocks too, what starts a block shows in the kinds of statements and nowhere else: the
lexemes are the same, and so are the units they fall into (`forall₂_complete_sourceUnits`). So a vendor
built from an entry can stand for the built-in one that the entry describes (`splitPartial_entry`).
-/

namespace SqlScript
open Text

section
variable (v : Vendor) (name : String) (serverPort : Option Nat)

theorem Scan.advance_named (n : Nat) (s : Scan) :
    s.advance { v with name, serverPort } n = s.advance v n := by
  induction n generalizing s with
  | zero => rfl
  | succ n ih =>
    have hnext : s.next { v with name, serverPort } = s.next v := rfl
    rw [advance, advance, hnext, ih]

theorem splitPartial_named (text : String) :
    splitPartial { v with name, serverPort } text = splitPartial v text :=
  congrArg Scan.result (Scan.advance_named v name serverPort _ _)

end

/-- The two vendors differ in what starts a block, and there the delimiter ends it. -/
structure Vendor.SameCut (v w : Vendor) : Prop where
  left : v.Plain
  right : w.Plain
  blockEnd : v.blockEnd = .activeDelimiter
  blockEnd' : w.blockEnd = .activeDelimiter
  dollarQuoting : w.dollarQuoting = v.dollarQuoting

namespace Vendor.SameCut
variable {v w : Vendor}

theorem lexeme_eq (h : v.SameCut w) (before : List Char) (c : Char) (text : List Char) :
    lexeme w before c text = lexeme v before c text := by
  unfold lexeme Vendor.endsBlock
  rw [h.blockEnd, h.blockEnd', h.dollarQuoting]

theorem lex_eq (h : v.SameCut w) (before text : List Char) : lex w before text = lex v before text := by
  induction before, text using lex_induction h.left with
  | nil before => rw [lex_nil, lex_nil]
  | error before c text failure hl =>
    rw [lex_cons_of_error hl, lex_cons_of_error (by rw [h.lexeme_eq, hl])]
  | ok before c text l rest hl hrest ih =>
    rw [lex_cons_of_ok h.left hl hrest, lex_cons_of_ok h.right (by rw [h.lexeme_eq, hl]) hrest, ih]

theorem ends_eq (h : v.SameCut w) (p q : Bool) (l : Lexeme) : l.ends w p = l.ends v q := by
  simp [Lexeme.ends, h.blockEnd, h.blockEnd']

end Vendor.SameCut

namespace SourceUnit
variable {v w : Vendor} {tail : List Char} {g post : List Lexeme}

/-- The text of the unit from its first lexeme on that is no padding. -/
def significantText (u : SourceUnit) : List Char :=
  Lexeme.join (u.lexemes.dropWhile (·.isPadding))

/-- Two vendors that take a unit for different kinds of statement see a difference in its text. -/
theorem isProceduralStart_ne_of_startsProcedural_ne (hpost : ∀ e ∈ post.head?, ∃ p, e.ends v p)
    (h : startsProcedural w tail (g ++ post) ≠ startsProcedural v tail (g ++ post)) :
    w.isProceduralStart (Lexeme.join (g.dropWhile (·.isPadding)) ++ (Lexeme.join post ++ tail)) ≠
      v.isProceduralStart (Lexeme.join (g.dropWhile (·.isPadding)) ++ (Lexeme.join post ++ tail)) := by
  cases hg : g.dropWhile (·.isPadding) with
  | nil =>
    -- nothing but padding, and what ends the unit is not significant
    have hg := by simpa using List.dropWhile_eq_nil_iff.1 hg
    rw [startsProcedural_append_of_isPadding hg, startsProcedural_append_of_isPadding hg] at h
    cases post with
    | nil => exact absurd rfl h
    | cons e post =>
      obtain ⟨p, he⟩ := hpost e rfl
      have hpad := Lexeme.not_isPadding_of_ends he
      rw [startsProcedural_cons hpad, startsProcedural_cons hpad, Lexeme.not_isSignificant_of_ends he] at h
      exact absurd rfl h
  | cons l more =>
    rw [startsProcedural_append hg, startsProcedural_append hg] at h
    exact fun heq => h (by rw [heq])

/-- The two vendors' units of the same lexemes, in front of what ends them. -/
structure Paired (v w : Vendor) (tail : List Char) (f : Option Unterminated) (ls : List Lexeme)
    (u u' : SourceUnit) (post : List Lexeme) : Prop where
  lexemes : u'.lexemes = u.lexemes
  left : u.procedural = startsProcedural v tail (u.lexemes ++ post)
  right : u'.procedural = startsProcedural w tail (u.lexemes ++ post)
  behind : ∀ e ∈ post.head?, e ∈ ls ∧ ∃ p, e.ends v p
  closed : post = [] → f = none

end SourceUnit

section
variable {v w : Vendor} {tail : List Char} {f : Option Unterminated} {ls : List Lexeme}

theorem forall₂_complete_sourceUnits (h : v.SameCut w) :
    List.Forall₂ (fun u u' => ∃ post, SourceUnit.Paired v w tail f ls u u' post)
      (Lexing.complete f (sourceUnits v tail ls)) (Lexing.complete f (sourceUnits w tail ls)) := by
  induction hn : ls.length using Nat.strongRecOn generalizing ls with
  | ind n ih =>
    rcases sourceUnits_cases v (SourceUnit.startsProcedural v tail ls) ls with
      hopen | ⟨g, e, more, rfl, hopen, he⟩
    · have hopen' : ∀ l ∈ ls, l.ends w (SourceUnit.startsProcedural w tail ls) = false := fun l hl => by
        rw [h.ends_eq, hopen l hl]
      rw [sourceUnits_of_open hopen, sourceUnits_of_open hopen']
      cases f with
      | some f => exact .nil
      | none => exact .cons ⟨[], rfl, by simp, by simp, nofun, fun _ => rfl⟩ .nil
    · have hopen' : ∀ l ∈ g, l.ends w (SourceUnit.startsProcedural w tail (g ++ e :: more)) = false :=
        fun l hl => by rw [h.ends_eq, hopen l hl]
      rw [sourceUnits_append hopen he, sourceUnits_append hopen' (by rw [h.ends_eq, he]),
        Lexing.complete_cons, Lexing.complete_cons]
      refine .cons ⟨e :: more, rfl, rfl, rfl, ?_, nofun⟩ ?_
      · rintro _ ⟨⟩
        exact ⟨by simp, _, he⟩
      · refine (ih more.length (by simp [← hn]; omega) rfl).imp ?_
        rintro u u' ⟨post, hu⟩
        exact ⟨post, { hu with behind := fun d hd => ⟨by simp [(hu.behind d hd).1], (hu.behind d hd).2⟩ }⟩

/-- Where the delimiter ends blocks too, no line does. -/
theorem ne_markerLine_of_mem_lex (hv : v.Plain) (hblock : v.blockEnd = .activeDelimiter)
    (before text : List Char) : ∀ l ∈ (lex v before text).lexemes, l.kind ≠ .markerLine := by
  have hline : ∀ b t, ¬ v.AtMarkerLine b t := fun b t h => by
    have := h.2
    simp [Vendor.endsBlock, hblock] at this
  induction before, text using lex_induction hv with
  | nil before => simp
  | error before c text failure hl => simp [lex_cons_of_error hl]
  | ok before c text l rest hl hrest ih =>
    rw [lex_cons_of_ok hv hl hrest]
    refine List.forall_mem_cons.2 ⟨?_, ih⟩
    rcases (lexeme_eq_ok_iff hv).1 hl with ⟨hm, -⟩ | ⟨-, ⟨-, rfl⟩ | ⟨n, r, body, ho, hb, rfl⟩⟩
    · exact absurd hm (hline _ _)
    · nofun
    · cases r <;> nofun

/-- The units of a script, in the order of its text. -/
def scriptUnits (v : Vendor) (text : String) : List SourceUnit :=
  let L := lex v [] text.toList
  Lexing.complete L.failure (sourceUnits v L.tail L.lexemes)

theorem SourceUnit.statement?_rel {u u' : SourceUnit} {R : Statement → Statement → Prop}
    (hlexemes : u'.lexemes = u.lexemes)
    (hR : ∀ s s', u.statement? = some s → s'.text = s.text →
      (s'.kind ≠ s.kind → u'.procedural ≠ u.procedural) → R s s') :
    Option.Rel R u.statement? u'.statement? := by
  unfold statement? at hR ⊢
  rw [hlexemes]
  split
  · next hsig =>
    refine .some (hR _ _ (if_pos hsig) rfl fun hkind hp => hkind ?_)
    simp only [hp]
  · exact .none

end

namespace PostgreSql
variable {w : Vendor} {u u' : SourceUnit} {tail : List Char} {f : Option Unterminated}
  {ls post : List Lexeme}

/-- The patterns take a unit for another kind of statement only if its body comes next after `DO`. -/
theorem startsBody_of_paired
    (hw : w.isProceduralStart = fun text => patterns.any (·.startsWith text))
    (hpaired : u.Paired postgresql w tail f ls u' post) (hls : ∀ l ∈ ls, l.kind ≠ .markerLine)
    (htail : f = none → tail = []) (h : u'.procedural ≠ u.procedural) : StartsBody u.significantText := by
  rw [hpaired.left, hpaired.right] at h
  have hne := SourceUnit.isProceduralStart_ne_of_startsProcedural_ne (fun e he => (hpaired.behind e he).2) h
  have hseals : Keyword.Seals (Lexeme.join post ++ tail) := by
    cases post with
    | nil =>
      rw [htail (hpaired.closed rfl)]
      exact Keyword.seals_nil
    | cons e post =>
      obtain ⟨hmem, p, he⟩ := hpaired.behind e rfl
      have hsemi : e.text = [';'] := by
        simp only [Lexeme.ends, Lexeme.isSemicolon, Bool.or_eq_true, Bool.and_eq_true, beq_iff_eq] at he
        exact (he.resolve_left (hls e hmem)).1.2
      rw [Lexeme.join_cons, hsemi]
      exact Keyword.seals_semicolon _
  by_contra hbody
  refine hne ?_
  rw [hw]
  exact any_startsWith fun hstarts => hbody (hstarts.of_append hseals)

theorem forall₂_splitPartial {name : String} {serverPort : Option Nat}
    (hw : w = { postgresql with
      name, serverPort, isProceduralStart := fun text => patterns.any (·.startsWith text) })
    (text : String) :
    (splitPartial w text).failure = (splitPartial postgresql text).failure ∧
    List.Forall₂ (fun own s => s.text = own.text ∧ (s.kind ≠ own.kind →
        ∃ u ∈ scriptUnits postgresql text, u.statement? = some own ∧ StartsBody u.significantText))
      (splitPartial postgresql text).script (splitPartial w text).script := by
  have hplain : postgresql.Plain := ⟨rfl, rfl, rfl⟩
  have hsame : postgresql.SameCut w := by
    subst hw
    exact ⟨hplain, ⟨rfl, rfl, rfl⟩, rfl, rfl, rfl⟩
  rw [splitPartial_eq_splitting_lex hplain, splitPartial_eq_splitting_lex hsame.right, hsame.lex_eq]
  have hkinds := ne_markerLine_of_mem_lex hplain rfl [] text.toList
  have htail : (lex postgresql [] text.toList).failure = none → (lex postgresql [] text.toList).tail = [] :=
    lex_tail_eq_nil hplain
  refine ⟨rfl, List.rel_filterMap ?_ ((List.forall₂_and_left _ _).2
    ⟨fun _ hu => hu, forall₂_complete_sourceUnits hsame⟩)⟩
  rintro u u' ⟨hu, post, hpaired⟩
  refine SourceUnit.statement?_rel hpaired.lexemes fun own s hown hs hkind => ⟨hs, fun hne => ?_⟩
  exact ⟨u, hu, hown, startsBody_of_paired (by rw [hw]) hpaired hkinds htail (hkind hne)⟩

end PostgreSql

/-- A vendor built from the entry of a built-in one splits every script as that one does. For PostgreSQL
the kind of a statement may differ, if the body of the block comes next after `DO`. -/
theorem splitPartial_entry {name : String} (hname : normalName name ≠ "") (serverPort : Option Nat) :
    (∃ v, (Oracle.entry name serverPort).build = .ok v ∧
      ∀ text, splitPartial v.toVendor text = splitPartial oracle text) ∧
    (∃ v, (SqlServer.entry name serverPort).build = .ok v ∧
      ∀ text, splitPartial v.toVendor text = splitPartial sqlserver text) ∧
    ∃ v, (PostgreSql.entry name serverPort).build = .ok v ∧ ∀ text,
      (splitPartial v.toVendor text).failure = (splitPartial postgresql text).failure ∧
      List.Forall₂ (fun own s => s.text = own.text ∧ (s.kind ≠ own.kind →
          ∃ u ∈ scriptUnits postgresql text, u.statement? = some own ∧
            PostgreSql.StartsBody u.significantText))
        (splitPartial postgresql text).script (splitPartial v.toVendor text).script := by
  refine ⟨?_, ?_, ?_⟩
  · obtain ⟨v, hbuild, hv⟩ := Oracle.build_entry hname serverPort
    refine ⟨v, hbuild, fun text => ?_⟩
    rw [hv]
    exact splitPartial_named oracle _ _ text
  · obtain ⟨v, hbuild, hv⟩ := SqlServer.build_entry hname serverPort
    refine ⟨v, hbuild, fun text => ?_⟩
    rw [hv]
    exact splitPartial_named sqlserver _ _ text
  · obtain ⟨v, hbuild, hv⟩ := PostgreSql.build_entry hname serverPort
    exact ⟨v, hbuild, PostgreSql.forall₂_splitPartial hv⟩

/-- A block of PL/SQL, a batch of T-SQL, and a block of PostgreSQL whose kind differs. -/
theorem splitPartial_entry_warehouse :
    normalName " Warehouse" ≠ "" ∧
      (∃ v, (Oracle.entry " Warehouse" none).build = .ok v ∧
        splitPartial v.toVendor "Begin x; END;\n/\nSELECT 1" =
          ⟨[⟨.procedural, "Begin x; END;"⟩, ⟨.regular, "SELECT 1"⟩], none⟩) ∧
      (∃ v, (SqlServer.entry " Warehouse" none).build = .ok v ∧
        splitPartial v.toVendor "ALTER PROC p AS x; y\ngo" =
          ⟨[⟨.procedural, "ALTER PROC p AS x; y"⟩], none⟩) ∧
      ∃ v, (PostgreSql.entry " Warehouse" none).build = .ok v ∧
        (splitPartial v.toVendor "Do $$x;$$; $a").script.map (·.text) = ["Do $$x;$$", "$a"] := by
  have hname : normalName " Warehouse" ≠ "" := by decide
  obtain ⟨⟨v, hv, horacle⟩, ⟨w, hw, hserver⟩, x, hx, hpostgresql⟩ := splitPartial_entry hname none
  refine ⟨hname, ⟨v, hv, ?_⟩, ⟨w, hw, ?_⟩, x, hx, ?_⟩
  · rw [horacle]
    decide +kernel
  · rw [hserver]
    decide +kernel
  · have hown : (splitPartial postgresql "Do $$x;$$; $a").script =
        [⟨.procedural, "Do $$x;$$"⟩, ⟨.regular, "$a"⟩] := by decide +kernel
    have h := (hpostgresql "Do $$x;$$; $a").2
    rw [hown] at h
    generalize (splitPartial x.toVendor "Do $$x;$$; $a").script = script at h
    rcases h with _ | ⟨⟨hfirst, -⟩, _ | ⟨⟨hsecond, -⟩, _ | _⟩⟩
    simp [hfirst, hsecond]

end SqlScript
