import SqlScript.Proofs.Lexing.Reads

/-!
# Lexemes in another context

`Lexes` says that several lexemes are read one after the other in front of a text. They are read in
another context too (`Lexes.congr`) if the lines they start are marker lines in both or in neither,
no word comes in directly before them, and the text behind opens nothing together with them
(`Follows`).
-/

namespace SqlScript
open Text

namespace Region
variable {v : Vendor} {before before' z z' : List Char}

theorem openedBy?_congr {t : List Char} {n : Nat} {r : Region}
    (h : openedBy? v before (t ++ z) = some (n, r)) (hn : n ≤ t.length)
    (he : afterEscapeMark before' = afterEscapeMark before) :
    openedBy? v before' (t ++ z') = some (n, r) := by
  obtain ⟨hpos, -⟩ := openedBy?_eq_some h
  obtain ⟨c, t, rfl⟩ := List.exists_cons_of_ne_nil (List.ne_nil_of_length_pos (by omega) : t ≠ [])
  rcases openedBy?_cases h with
    ⟨rfl, rfl, hp⟩ | ⟨rfl, rfl, hp⟩ | ⟨mark, backslash, rfl, rfl, rfl, hc⟩ | ⟨tag, rfl, rfl, rfl, hd, htag⟩
  · obtain ⟨w, hw⟩ := List.prefix_of_prefix_length_le hp (List.prefix_append (c :: t) z) hn
    rw [← hw]; rfl
  · obtain ⟨w, hw⟩ := List.prefix_of_prefix_length_le hp (List.prefix_append (c :: t) z) hn
    rw [← hw]; rfl
  · rcases hc with rfl | rfl
    · simpa [openedBy?, he] using h
    · simpa [openedBy?] using h
  · obtain ⟨w, hw⟩ := List.prefix_of_prefix_length_le (dollarTag?_isPrefix htag)
      (List.prefix_append ('$' :: t) z) hn
    have htag' : dollarTag? ('$' :: t) = some tag := by
      obtain ⟨name, rest, hrest, rfl, hname, hdigit⟩ := dollarTag?_eq_some_iff.1 htag
      exact dollarTag?_eq_some_iff.2 ⟨name, w, by simp [← hw], rfl, hname, hdigit⟩
    have := dollarTag?_append htag' z'
    simp_all [openedBy?]

theorem through?_congr {r : Region} (hr : r.HasCloser) {body : List Char}
    (h : r.through? (body ++ z) = some body) (hline : r = .lineComment → '\n' ∈ body) :
    r.through? (body ++ z') = some body := by
  cases r with
  | code => exact h
  | quoted mark backslash => exact throughQuote?_append (throughQuote?_self h) z'
  | lineComment =>
    simp only [through?, Option.some.injEq] at h ⊢
    rw [wholeLine_append_of_mem (hline rfl)] at h ⊢
    exact h
  | blockComment => exact Text.through?_append (Text.through?_self (by simp) h) z'
  | dollarQuoted tag => exact Text.through?_append (Text.through?_self (hr tag rfl) h) z'

end Region

/-- Behind code, `z'` opens nothing that `z` does not. -/
structure Follows (z z' : List Char) : Prop where
  dash : z'.head? = some '-' → z.head? = some '-'
  star : z'.head? = some '*' → z.head? = some '*'
  word : EndsWord z
  word' : EndsWord z'

theorem follows_line_feed (z : List Char) : Follows [] ('\n' :: z) :=
  ⟨nofun, nofun, endsWord_nil, endsWord_of_isBlank (by decide) z⟩

/-- The lexemes are read one after the other in front of `z`. -/
inductive Lexes (v : Vendor) (z : List Char) : List Char → List Lexeme → Prop
  | nil (before : List Char) : Lexes v z before []
  | cons {before : List Char} {l : Lexeme} {ls : List Lexeme} (h : Reads v before l (Lexeme.join ls ++ z))
      (hls : Lexes v z (l.text.reverse ++ before) ls) : Lexes v z before (l :: ls)

section
variable {v : Vendor} {before before' z z' : List Char} {l : Lexeme} {ls g : List Lexeme}

/-- A lexeme is read in another context if the line is a marker line in both or in neither, the same
comes in before a quote, and the text behind opens nothing together with a character of code. -/
theorem Reads.congr (hv : v.Plain) (h : Reads v before l z)
    (hm : v.AtMarkerLine before' (l.text ++ z') ↔ v.AtMarkerLine before (l.text ++ z))
    (he : Region.afterEscapeMark before' = Region.afterEscapeMark before)
    (hcode : ∀ c, l = ⟨.code, [c]⟩ → Region.openedBy? v before (c :: z) = none →
      Region.openedBy? v before' (c :: z') = none)
    (hline : l.kind = .lineComment ∨ l.kind = .markerLine → '\n' ∈ l.text) :
    Reads v before' l z' := by
  rw [reads_iff hv] at h ⊢
  rcases h with ⟨hmark, hk, hne, hl⟩ | ⟨hmark, ⟨c, rfl, ho⟩ | ⟨n, r, ho, hn, hb, hk⟩⟩
  · refine .inl ⟨hm.2 hmark, hk, hne, ?_⟩
    rw [wholeLine_append_of_mem (hline (.inr hk))] at hl ⊢
    exact hl
  · exact .inr ⟨fun h => hmark (hm.1 h), .inl ⟨c, rfl, hcode c rfl ho⟩⟩
  · obtain ⟨-, -, hcloser⟩ := Region.openedBy?_eq_some ho
    refine .inr ⟨fun h => hmark (hm.1 h), .inr ⟨n, r, Region.openedBy?_congr ho hn he, hn,
      Region.through?_congr hcloser hb fun hr => ?_, hk⟩⟩
    -- the opener of a comment holds no line feed
    subst hr
    obtain ⟨c, t, hct⟩ := List.exists_cons_of_ne_nil
      (List.ne_nil_of_mem (hline (.inl hk)))
    have hmem := hline (.inl hk)
    rw [← List.take_append_drop n l.text, List.mem_append] at hmem
    refine hmem.resolve_left fun hmem => ?_
    rw [hct, List.cons_append] at ho
    rcases Region.openedBy?_cases ho with ⟨-, rfl, hp⟩ | ⟨h, -⟩ | ⟨_, _, h, -⟩ | ⟨_, h, -⟩
    · rw [← List.cons_append, ← hct, List.prefix_iff_eq_take] at hp
      have htake : l.text.take 2 = ['-', '-'] := (List.take_append_of_le_length hn).symm.trans hp.symm
      simp [htake] at hmem
    all_goals cases h

theorem Follows.openedBy?_eq_none (h : Follows z z') {c : Char} (t : List Char)
    (ho : Region.openedBy? v before (c :: (t ++ z)) = none) :
    Region.openedBy? v before' (c :: (t ++ z')) = none := by
  rw [Region.openedBy?_eq_none_iff] at ho ⊢
  obtain ⟨hline, hblock, hquote, hdouble, htag⟩ := ho
  refine ⟨?_, ?_, hquote, hdouble, fun hd => ?_⟩
  · cases t with
    | cons d t => simpa using hline
    | nil =>
      simp only [List.nil_append, List.cons_prefix_cons, not_and] at hline ⊢
      intro hc hp
      obtain ⟨w, hw⟩ := hp
      obtain ⟨w', hw'⟩ := List.head?_eq_some_iff.1 (h.dash (by simp [← hw]))
      exact hline hc ⟨w', hw'.symm⟩
  · cases t with
    | cons d t => simpa using hblock
    | nil =>
      simp only [List.nil_append, List.cons_prefix_cons, not_and] at hblock ⊢
      intro hc hp
      obtain ⟨w, hw⟩ := hp
      obtain ⟨w', hw'⟩ := List.head?_eq_some_iff.1 (h.star (by simp [← hw]))
      exact hblock hc ⟨w', hw'.symm⟩
  · rw [← List.cons_append, Region.dollarTag?_append_of_endsWord h.word'] 
    rw [← List.cons_append, Region.dollarTag?_append_of_endsWord h.word] at htag
    exact htag hd

/-- Lexemes are read in another context if a word neither comes in before them nor goes on behind,
and the same of them start at a marker line. -/
theorem Lexes.congr (hv : v.Plain) {p : List Char} (h : Lexes v z (p ++ before) ls)
    (hb : EndsWord before) (hb' : EndsWord before') (hz : Follows z z')
    (hm : ∀ xs l ys, ls = xs ++ l :: ys →
      (v.AtMarkerLine ((Lexeme.join xs).reverse ++ (p ++ before')) (l.text ++ (Lexeme.join ys ++ z')) ↔
        v.AtMarkerLine ((Lexeme.join xs).reverse ++ (p ++ before)) (l.text ++ (Lexeme.join ys ++ z))))
    (hline : ∀ l ∈ ls, l.kind = .lineComment ∨ l.kind = .markerLine → '\n' ∈ l.text) :
    Lexes v z' (p ++ before') ls := by
  induction ls generalizing p with
  | nil => exact .nil _
  | cons l ls ih =>
    cases h with
    | cons h hls =>
      refine .cons (h.congr hv (hm [] l ls rfl) ?_ ?_ (hline l (by simp))) ?_
      · rw [Region.afterEscapeMark_append hb, Region.afterEscapeMark_append hb']
      · exact fun c _ ho => hz.openedBy?_eq_none _ ho
      · rw [← List.append_assoc] at hls ⊢
        refine ih hls (fun xs m ys heq => ?_) fun m hm' => hline m (by simp [hm'])
        simpa using hm (l :: xs) m ys (by rw [heq]; rfl)

theorem lexes_append : Lexes v z before (g ++ ls) ↔
    Lexes v (Lexeme.join ls ++ z) before g ∧ Lexes v z ((Lexeme.join g).reverse ++ before) ls := by
  induction g generalizing before with
  | nil => simpa using fun _ => Lexes.nil before
  | cons l g ih =>
    constructor
    · rintro (_ | ⟨h, hls⟩)
      obtain ⟨hg, hls⟩ := ih.1 hls
      exact ⟨.cons (by simpa using h) hg, by simpa using hls⟩
    · rintro ⟨_ | ⟨h, hg⟩, hls⟩
      exact .cons (by simpa using h) (ih.2 ⟨hg, by simpa using hls⟩)

theorem Lexes.reads (ls : List Lexeme) {ys : List Lexeme} (h : Lexes v z before (ls ++ l :: ys)) :
    Reads v ((Lexeme.join ls).reverse ++ before) l (Lexeme.join ys ++ z) := by
  obtain ⟨-, _ | ⟨h, -⟩⟩ := lexes_append.1 h
  exact h

theorem Lexes.text_ne_nil (hv : v.Plain) (h : Lexes v z before ls) : ∀ l ∈ ls, l.text ≠ [] := by
  induction h with
  | nil => nofun
  | cons h _ ih => exact List.forall_mem_cons.2 ⟨h.text_ne_nil hv, ih⟩

/-- Lexemes without a marker line are read in another context, if they begin no marker line there and
the text behind does not make one of their last line. -/
theorem Lexes.congr_of_code (hv : v.Plain) (h : Lexes v z before ls) (hb : EndsWord before)
    (hb' : EndsWord before') (hz : Follows z z') (hkind : ∀ l ∈ ls, l.kind ≠ .markerLine)
    (hline : ∀ l ∈ ls, l.kind = .lineComment → '\n' ∈ l.text)
    (hseam : ∀ t, v.endsBlock (t ++ firstLine z') → v.endsBlock (t ++ firstLine z))
    (hfirst : startsLine before' → v.endsBlock (firstLine (Lexeme.join ls ++ z')) = false) :
    Lexes v z' before' ls := by
  refine Lexes.congr (p := []) hv h hb hb' hz (fun xs l ys heq => ?_) fun l hl hk =>
    hline l hl (hk.resolve_right (hkind l hl))
  have hl : l.kind ≠ .markerLine := hkind l (by simp [heq])
  subst heq
  have hold := mt ((h.reads xs).atMarkerLine_iff hv).1 hl
  refine iff_of_false (fun ⟨hstart, hends⟩ => ?_) hold
  simp only [List.nil_append] at hstart
  by_cases hxs : Lexeme.join xs = []
  · rw [hxs] at hstart
    have := hfirst hstart
    simp only [Lexeme.join_append, Lexeme.join_cons, hxs, List.nil_append, List.append_assoc] at this
    rw [this] at hends
    cases hends
  · refine hold ⟨?_, ?_⟩
    · have hne : (Lexeme.join xs).reverse ≠ [] := by simpa using hxs
      rw [startsLine, List.head?_append_of_ne_nil _ hne] at hstart ⊢
      exact hstart
    · rw [← List.append_assoc] at hends ⊢
      by_cases hmem : '\n' ∈ l.text ++ Lexeme.join ys
      · rw [firstLine_append_of_mem hmem] at hends ⊢
        exact hends
      · rw [firstLine_append_of_notMem hmem] at hends ⊢
        exact hseam _ hends

theorem lexes_lex (hv : v.Plain) (before text : List Char) :
    Lexes v (lex v before text).tail before (lex v before text).lexemes := by
  induction before, text using lex_induction hv with
  | nil before => simpa using Lexes.nil before
  | error before c text failure h => simpa [lex_cons_of_error h] using Lexes.nil before
  | ok before c text l rest h hrest ih =>
    have hjoin := join_lex hv (l.text.reverse ++ before) rest
    rw [lex_cons_of_ok hv h hrest]
    exact .cons ⟨c, text, (congrArg (l.text ++ ·) hjoin).trans hrest, h⟩ ih

theorem Lexes.lex_eq (hv : v.Plain) (h : Lexes v z before ls) :
    lex v before (Lexeme.join ls ++ z) = (lex v ((Lexeme.join ls).reverse ++ before) z).after ls := by
  induction h with
  | nil before => rfl
  | @cons before l ls h hls ih =>
    obtain ⟨c, t, heq, hl⟩ := h
    rw [Lexeme.join_cons, List.append_assoc, heq, lex_cons_of_ok hv hl heq, ih]
    simp [Lexing.after]

end
end SqlScript
