import SqlScript.Proofs.Lexing.Reach
import SqlScript.Proofs.Vendor.Marker

/-!
# Literals and block comments in place

`Encloses` says that the scan of a script comes to a literal or a block comment and leaves it at its end.
A doubled quote closes a quoted literal and opens it again, so such a literal is several lexemes
(`Region.Closes.exists_lexes`). Whatever else stands between its opener and its end, the lexemes of the
script around it are the same (`Encloses.exists_lex`): those before it look no further than the opener
(`Lexes.congr_opener`), those behind it no further back than the last character of the closer
(`exists_lex_behind`).
-/

namespace SqlScript
open Text

/-- The text goes on from the opener of the region through its end. A quoted literal goes on behind a
doubled quote, and is no escape string there. -/
inductive Region.Closes : Region → List Char → Prop
  | once {r : Region} {body : List Char} (h : r.through? body = some body) : Closes r body
  | doubled {mark : Char} {backslash : Bool} {body more : List Char}
    (h : (quoted mark backslash).through? body = some body) (hmore : Closes (quoted mark false) more) :
    Closes (quoted mark backslash) (body ++ mark :: more)

/-- The scan of the script `a ++ opener ++ body ++ b` gets to `opener` in code, enters the region `r`
there, which is a quoted literal, a dollar-quoted literal or a block comment, and leaves it at the end
of `body`. -/
structure Encloses (v : Vendor) (a opener body b : List Char) (r : Region) : Prop where
  enters : ∃ n, let s := (Scan.start v (a ++ (opener ++ body) ++ b)).advance v n
    s.region = .code ∧ s.before = a.reverse ∧ s.move v = .keep opener.length r
  ne_code : r ≠ .code
  ne_lineComment : r ≠ .lineComment
  closes : r.Closes body

namespace Region
variable {v : Vendor} {before opener z : List Char} {r : Region}

/-- The characters that literals and block comments begin with. -/
def openings : List Char := ['\x27', '"', '/', '$']

/-- The text opens a literal or a block comment. -/
def IsOpener (opener : List Char) : Prop :=
  ∃ c t, opener = c :: t ∧ c ∈ openings ∧ (c = '/' → t = ['*'])

theorem mem_openings_iff {c : Char} : c ∈ openings ↔ c = '\x27' ∨ c = '"' ∨ c = '/' ∨ c = '$' := by
  simp [openings]

theorem isTagChar_of_mem_openings {c : Char} (hc : c ∈ openings) : isTagChar c = false := by
  rcases mem_openings_iff.1 hc with rfl | rfl | rfl | rfl <;> decide

theorem isBlank_of_mem_openings {c : Char} (hc : c ∈ openings) : isBlank c = false := by
  rcases mem_openings_iff.1 hc with rfl | rfl | rfl | rfl <;> decide

theorem isOpener_of_openedBy? (h : openedBy? v before (opener ++ z) = some (opener.length, r))
    (hr : r ≠ .lineComment) : IsOpener opener := by
  obtain ⟨c, t, rfl⟩ := List.exists_cons_of_length_pos (openedBy?_eq_some h).1
  refine ⟨c, t, rfl, ?_⟩
  rcases openedBy?_cases h with ⟨rfl, -⟩ | ⟨-, hlen, hp⟩ | ⟨mark, -, -, -, rfl, hc⟩ | ⟨tag, -, -, rfl, -⟩
  · exact absurd rfl hr
  · obtain ⟨d, rfl⟩ := List.length_eq_one_iff.1 (Nat.succ.inj hlen)
    obtain ⟨rfl, hd⟩ := List.cons_prefix_cons.1 hp
    obtain ⟨rfl, -⟩ := List.cons_prefix_cons.1 hd
    exact ⟨by decide, fun _ => rfl⟩
  · rcases hc with rfl | rfl <;> exact ⟨by decide, nofun⟩
  · exact ⟨by decide, nofun⟩

/-- A character that no tag holds ends the search for one. -/
theorem dollarTag?_append_cons {c : Char} (hc : isTagChar c = false) (t z : List Char) :
    dollarTag? ('$' :: (t ++ c :: z)) = dollarTag? ('$' :: (t ++ [c])) := by
  have htake : ∀ z, (t ++ c :: z).takeWhile isTagChar = t.takeWhile isTagChar := fun z => by
    rw [List.takeWhile_append]
    split
    · next h => simp [hc, (List.takeWhile_prefix isTagChar).eq_of_length h]
    · rfl
  have hdrop : ((t ++ c :: z).dropWhile isTagChar).head? = ((t ++ [c]).dropWhile isTagChar).head? := by
    rw [List.dropWhile_append, List.dropWhile_append]
    split
    · simp [hc]
    · next h =>
      have hne : t.dropWhile isTagChar ≠ [] := by simpa using h
      rw [List.head?_append_of_ne_nil _ hne, List.head?_append_of_ne_nil _ hne]
  rw [dollarTag?_dollar, dollarTag?_dollar, htake, htake, hdrop]

/-- What code opens before such a character does not depend on what is behind that. -/
theorem openedBy?_eq_none_append_cons {c d : Char} (hc : isTagChar c = false) {t : List Char}
    (h : openedBy? v before (d :: (t ++ c :: z)) = none) (z' : List Char) :
    openedBy? v before (d :: (t ++ c :: z')) = none := by
  rw [openedBy?_eq_none_iff] at h ⊢
  obtain ⟨hline, hblock, hquote, hdouble, htag⟩ := h
  have htwo : ∀ e f z, [e, f] <+: d :: (t ++ c :: z) ↔ e = d ∧ f = (t ++ [c]).head (by simp) := by
    intro e f z
    cases t <;> simp [List.cons_prefix_cons]
  rw [htwo] at hline hblock ⊢
  refine ⟨hline, by rwa [htwo], hquote, hdouble, fun hd => ?_⟩
  by_cases hdollar : d = '$'
  · subst hdollar
    rw [dollarTag?_append_cons hc] at htag ⊢
    exact htag hd
  · simp [dollarTag?, hdollar]

theorem afterEscapeMark_append_cons {c : Char} (hupper : c ≠ 'E') (hlower : c ≠ 'e')
    (p w w' : List Char) : afterEscapeMark (p ++ c :: w) = afterEscapeMark (p ++ c :: w') := by
  have hne : (c == 'E' || c == 'e') = false := by simp [hupper, hlower]
  match p with
  | [] => simp [afterEscapeMark, hne]
  | [_] => rfl
  | _ :: _ :: _ => rfl

end Region

section
variable {v : Vendor} {before opener body z text : List Char} {r : Region} {g : List Lexeme}

/-- A line that holds an opener ends no block. -/
theorem Vendor.endsBlock_opener (hv : v ∈ Vendor.plainBuiltins) (hop : Region.IsOpener opener)
    {t : List Char} (ht : '\n' ∉ t) (z : List Char) : v.endsBlock (firstLine (t ++ (opener ++ z))) = false := by
  obtain ⟨c, u, rfl, hc, hu⟩ := hop
  obtain ⟨d, hblank, hfold, hmem⟩ : ∃ d, isBlank d = false ∧ foldAscii d ∉ ['/', 'g', 'o'] ∧
      d ∈ firstLine (c :: u ++ z) := by
    rcases Region.mem_openings_iff.1 hc with rfl | rfl | rfl | rfl
    · exact ⟨'\x27', by decide, by decide, by simp [firstLine_cons]⟩
    · exact ⟨'"', by decide, by decide, by simp [firstLine_cons]⟩
    · rw [hu rfl]
      exact ⟨'*', by decide, by decide, by simp [firstLine_cons]⟩
    · exact ⟨'$', by decide, by decide, by simp [firstLine_cons]⟩
  by_contra hends
  refine notMem_of_endsBlock hv (by simpa using hends) hblank hfold ?_
  rw [firstLine_append_of_notMem ht]
  exact List.mem_append_right _ hmem

theorem Vendor.endsBlock_opener_congr (hv : v ∈ Vendor.plainBuiltins) (hop : Region.IsOpener opener)
    (t z z' : List Char) :
    v.endsBlock (firstLine (t ++ (opener ++ z))) = v.endsBlock (firstLine (t ++ (opener ++ z'))) := by
  by_cases ht : '\n' ∈ t
  · rw [firstLine_append_of_mem ht, firstLine_append_of_mem ht]
  · rw [Vendor.endsBlock_opener hv hop ht, Vendor.endsBlock_opener hv hop ht]

/-- Lexemes in front of an opener are read whatever is behind that. -/
theorem Lexes.congr_opener (hv : v ∈ Vendor.plainBuiltins) (hop : Region.IsOpener opener)
    (h : Lexes v (opener ++ z) before g) (z' : List Char) : Lexes v (opener ++ z') before g := by
  have hplain := Vendor.plain_of_mem hv
  induction h with
  | nil before => exact .nil _
  | @cons before l ls h _ ih =>
    refine .cons (h.congr hplain (and_congr_right fun _ => ?_) rfl (fun c _ ho => ?_) fun hk => ?_) ih
    · rw [← List.append_assoc, ← List.append_assoc l.text, Vendor.endsBlock_opener_congr hv hop _ z' z]
    · obtain ⟨d, u, rfl, hd, -⟩ := hop
      exact Region.openedBy?_eq_none_append_cons (Region.isTagChar_of_mem_openings hd) ho _
    · by_contra hline
      have := h.eq_nil_of_open hplain hk hline
      obtain ⟨d, u, rfl, -⟩ := hop
      simp at this

/-- What opens a region and the text through its end are read as one lexeme. -/
theorem reads_enclosed (hv : v ∈ Vendor.plainBuiltins)
    (ho : Region.openedBy? v before (opener ++ z) = some (opener.length, r)) (hr : r ≠ .lineComment)
    (hbody : r.through? body = some body) (z' : List Char) :
    Reads v before ⟨r.lexemeKind, opener ++ body⟩ z' := by
  have hop := Region.isOpener_of_openedBy? ho hr
  obtain ⟨-, -, hcloser⟩ := Region.openedBy?_eq_some ho
  refine (reads_iff (Vendor.plain_of_mem hv)).2
    (.inr ⟨fun hm => ?_, .inr ⟨opener.length, r, ?_, ?_, ?_, rfl⟩⟩)
  · have hends := hm.2
    rw [List.append_assoc] at hends
    simpa [hends] using Vendor.endsBlock_opener hv hop (List.not_mem_nil (a := '\n')) (body ++ z')
  · rw [List.append_assoc]
    exact Region.openedBy?_congr ho le_rfl rfl
  · simp
  · rw [List.drop_left]
    exact Region.through?_congr (z := []) hcloser (by simpa using hbody) fun h => absurd h hr

theorem Region.Closes.exists_last (hc : r.Closes body) {d : Char}
    (hlast : ∀ {body}, r.through? body = some body → ∃ init, body = init ++ [d]) :
    ∃ init, body = init ++ [d] := by
  induction hc with
  | once h => exact hlast h
  | @doubled mark backslash first more h _ ih =>
    obtain rfl : mark = d := by
      obtain ⟨init, hinit⟩ := hlast h
      obtain ⟨t, ht⟩ := throughQuote?_suffix h
      simpa using congrArg List.getLast? (ht.trans hinit)
    obtain ⟨init, hinit⟩ := ih fun h => (throughQuote?_suffix h).imp fun _ => Eq.symm
    exact ⟨first ++ mark :: init, by simp [hinit]⟩

/-- What opens a region and the text through its end are read as lexemes of one kind. -/
theorem Region.Closes.exists_lexes (hv : v ∈ Vendor.plainBuiltins) (hc : r.Closes body)
    (ho : openedBy? v before (opener ++ z) = some (opener.length, r)) (hr : r ≠ .lineComment)
    (z' : List Char) : ∃ m, Lexeme.join m = opener ++ body ∧ (∀ l ∈ m, l.kind = r.lexemeKind) ∧
      Lexes v z' before m := by
  induction hc generalizing before opener z with
  | @once r body h =>
    refine ⟨[⟨r.lexemeKind, opener ++ body⟩], by simp, by simp, .cons ?_ (.nil _)⟩
    exact reads_enclosed hv ho hr h z'
  | @doubled mark backslash first more h _ ih =>
    -- behind the first of the two quotes the second one opens the region again
    have hmark : openedBy? v ((opener ++ first).reverse ++ before) ([mark] ++ z) =
        some ([mark].length, .quoted mark false) := by
      obtain ⟨c, t, rfl⟩ := List.exists_cons_of_length_pos (openedBy?_eq_some ho).1
      obtain ⟨t, rfl⟩ := throughQuote?_suffix h
      have hplain := (Vendor.plain_of_mem hv).backslashEscapes
      rcases openedBy?_cases ho with ⟨hr, -⟩ | ⟨hr, -⟩ | ⟨mark, _, hr, -, rfl, hc⟩ | ⟨tag, hr, -⟩ <;>
        cases hr
      rcases hc with rfl | rfl <;> simp [openedBy?, hplain, afterEscapeMark]
    obtain ⟨m, hjoin, hkind, hm⟩ := ih hmark (by simp)
    refine ⟨⟨.literal, opener ++ first⟩ :: m, by simp [hjoin], List.forall_mem_cons.2 ⟨rfl, hkind⟩, ?_⟩
    exact .cons (reads_enclosed hv ho hr h _) hm

end

/-- The lexing of a text looks back no further than to the character `d`, if that is no escape mark. -/
theorem exists_lex_behind {v : Vendor} (hv : v.Plain) {d : Char} (hupper : d ≠ 'E') (hlower : d ≠ 'e')
    (p text : List Char) : ∃ ls tail, ∃ o : Option Region, Lexeme.join ls ++ tail = text ∧
      ∀ w, lex v (p ++ d :: w) text =
        ⟨ls, tail, o.map (·.failure (.after ((Lexeme.join ls).reverse ++ (p ++ d :: w))))⟩ := by
  have hstart : ∀ p w, startsLine (p ++ d :: w) = startsLine (p ++ [d]) := fun p w => by cases p <;> rfl
  have hmark : ∀ p w, Region.afterEscapeMark (p ++ d :: w) = Region.afterEscapeMark (p ++ [d]) :=
    fun p w => Region.afterEscapeMark_append_cons hupper hlower p w []
  induction hb : p ++ [d], text using lex_induction hv generalizing p with
  | nil before => exact ⟨[], [], none, rfl, fun w => by simp⟩
  | error before c text failure h =>
    subst hb
    rcases lexeme_cases hv (p ++ [d]) c text with ⟨l, hl⟩ | ⟨r, hr⟩
    · rw [hl _ rfl rfl] at h
      cases h
    · exact ⟨[], c :: text, some r, rfl, fun w => lex_cons_of_error (hr _ (hstart p w) (hmark p w))⟩
  | ok before c text l rest h hrest ih =>
    subst hb
    obtain ⟨ls, tail, o, hjoin, hlex⟩ := ih (l.text.reverse ++ p) (by simp)
    refine ⟨l :: ls, tail, o, by rw [Lexeme.join_cons, List.append_assoc, hjoin, hrest], fun w => ?_⟩
    rcases lexeme_cases hv (p ++ [d]) c text with ⟨l', hl⟩ | ⟨r, hr⟩
    · obtain rfl : l' = l := Except.ok.inj ((hl _ rfl rfl).symm.trans h)
      have hbehind := hlex w
      rw [List.append_assoc] at hbehind
      rw [lex_cons_of_ok hv (hl _ (hstart p w) (hmark p w)) hrest, hbehind]
      simp [Lexing.after]
    · rw [hr _ rfl rfl] at h
      cases h

/-- A scan that enters a region from code is at what opens it. -/
theorem Scan.openedBy?_of_move {v : Vendor} {s : Scan} {n : Nat} {r : Region} (hs : s.region = .code)
    (hmove : s.move v = .keep n r) (hr : r ≠ .code) :
    Region.openedBy? v s.before s.rest = some (n, r) := by
  rw [move, if_pos hs] at hmove
  rcases s.moveInCode_cases v with ⟨-, h⟩ | ⟨d, -, h⟩ | ⟨k, r', ho, h⟩ | ⟨-, -, -, h⟩ | ⟨-, -, h⟩
  · rw [h] at hmove; cases hmove
  · rw [h] at hmove; cases hmove
  · rw [h] at hmove; cases hmove; exact ho
  · rw [h] at hmove; cases hmove
  · rw [h] at hmove; cases hmove; exact absurd rfl hr

namespace Encloses
variable {v : Vendor} {a opener body b : List Char} {r : Region}

/-- The text before is lexemes, and the opener is read behind them. -/
theorem exists_lexes (hv : v ∈ Vendor.plainBuiltins) (h : Encloses v a opener body b r) :
    ∃ g, Lexeme.join g = a ∧ Lexes v (opener ++ (body ++ b)) [] g ∧
      Region.openedBy? v a.reverse (opener ++ (body ++ b)) = some (opener.length, r) := by
  have hplain := Vendor.plain_of_mem hv
  obtain ⟨n, hregion, hbefore, hmove⟩ := h.enters
  obtain ⟨g, hrest, hbehind, hg⟩ := Scan.exists_lexes hplain rfl hplain.delimiter hregion
  obtain rfl : Lexeme.join g = a := by
    rw [hbefore] at hbehind
    simpa [Scan.start] using hbehind.symm
  have hahead : opener ++ (body ++ b) =
      ((Scan.start v (Lexeme.join g ++ (opener ++ body) ++ b)).advance v n).rest := by
    simpa [Scan.start] using hrest
  have ho := Scan.openedBy?_of_move hregion hmove h.ne_code
  rw [hbefore, ← hahead] at ho
  rw [← hahead] at hg
  exact ⟨g, rfl, hg, ho⟩

/-- Whatever is between the opener and its end, the lexemes of the script around are the same, and so is
what stays open. -/
theorem exists_lex (hv : v ∈ Vendor.plainBuiltins) (h : Encloses v a opener body b r) :
    ∃ g ls tail, ∃ o : Option Region, Lexeme.join g = a ∧ Lexeme.join ls ++ tail = b ∧
      ∀ body', r.Closes body' → ∃ m, Lexeme.join m = opener ++ body' ∧ (∀ l ∈ m, l.kind = r.lexemeKind) ∧
        lex v [] (a ++ (opener ++ body') ++ b) = ⟨g ++ (m ++ ls), tail,
          o.map (·.failure (.after (a ++ (opener ++ body') ++ Lexeme.join ls).reverse))⟩ := by
  have hplain := Vendor.plain_of_mem hv
  obtain ⟨g, rfl, hg, ho⟩ := h.exists_lexes hv
  have hop := Region.isOpener_of_openedBy? ho h.ne_lineComment
  obtain ⟨d, -, hupper, hlower, hlast⟩ := Region.exists_last ho h.ne_lineComment
  obtain ⟨ls, tail, o, hjoin, hbehind⟩ := exists_lex_behind hplain hupper hlower [] b
  refine ⟨g, ls, tail, o, rfl, hjoin, fun body' hbody => ?_⟩
  obtain ⟨m, hm, hkind, hlexes⟩ := hbody.exists_lexes hv ho h.ne_lineComment b
  refine ⟨m, hm, hkind, ?_⟩
  have hlexes : Lexes v b [] (g ++ m) := by
    refine lexes_append.2 ⟨?_, by simpa using hlexes⟩
    rw [hm, List.append_assoc]
    exact hg.congr_opener hv hop (body' ++ b)
  have heq := hlexes.lex_eq hplain
  obtain ⟨init, hinit⟩ := hbody.exists_last hlast
  -- the text up to the end of the region, seen from there
  have hreverse : (Lexeme.join (g ++ m)).reverse ++ [] =
      [] ++ d :: (init.reverse ++ (opener.reverse ++ (Lexeme.join g).reverse)) := by
    simp [hm, hinit]
  rw [hreverse, hbehind, Lexeme.join_append, hm] at heq
  rw [heq]
  simp [Lexing.after, hinit]

end Encloses
end SqlScript
