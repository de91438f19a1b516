import SqlScript.Proofs.Lexing.Units

/-!
# Lexemes in place

`Reads` says that a lexeme is read in front of a given text, by what opens it and what closes it
(`reads_iff`). From that comes what a lexeme of each kind begins and ends with.
-/

namespace SqlScript
open Text

/-- The lexeme is read in front of `z`. -/
def Reads (v : Vendor) (before : List Char) (l : Lexeme) (z : List Char) : Prop :=
  ∃ c t, l.text ++ z = c :: t ∧ lexeme v before c t = .ok l

section
variable {v : Vendor} {before z : List Char} {l : Lexeme}

theorem reads_iff (hv : v.Plain) :
    Reads v before l z ↔
      v.AtMarkerLine before (l.text ++ z) ∧ l.kind = .markerLine ∧ l.text ≠ [] ∧
        l.text = wholeLine (l.text ++ z) ∨
      ¬ v.AtMarkerLine before (l.text ++ z) ∧
        ((∃ c, l = ⟨.code, [c]⟩ ∧ Region.openedBy? v before (c :: z) = none) ∨
        ∃ n r, Region.openedBy? v before (l.text ++ z) = some (n, r) ∧ n ≤ l.text.length ∧
          r.through? (l.text.drop n ++ z) = some (l.text.drop n) ∧ l.kind = r.lexemeKind) := by
  constructor
  · rintro ⟨c, t, heq, h⟩
    rw [heq]
    rcases (lexeme_eq_ok_iff hv).1 h with ⟨hm, hl⟩ | ⟨hm, ⟨ho, hl⟩ | ⟨n, r, body, ho, hb, hl⟩⟩
    · exact .inl ⟨hm, by rw [hl], by rw [hl]; exact wholeLine_ne_nil c t, by rw [hl]⟩
    · refine .inr ⟨hm, .inl ⟨c, hl, ?_⟩⟩
      rw [hl] at heq
      rwa [show c :: z = c :: t from heq]
    · have htake : ((c :: t).take n).length = n :=
        List.length_take_of_le (Region.openedBy?_le ho)
      have htext : l.text = (c :: t).take n ++ body := by rw [hl]
      have hdrop : l.text.drop n = body := by rw [htext, List.drop_left' htake]
      have hrest : body ++ z = (c :: t).drop n := by
        rw [← heq, htext, List.append_assoc, List.drop_left' htake]
      refine .inr ⟨hm, .inr ⟨n, r, ho, ?_, ?_, by rw [hl]⟩⟩
      · rw [htext, List.length_append, htake]; omega
      · rw [hdrop, hrest, hb]
  · rintro (⟨hm, hk, hne, hl⟩ | ⟨hm, ⟨c, rfl, ho⟩ | ⟨n, r, ho, hn, hb, hk⟩⟩)
    · obtain ⟨c, t, hct⟩ := List.exists_cons_of_ne_nil hne
      refine ⟨c, t ++ z, by rw [hct]; rfl, (lexeme_eq_ok_iff hv).2 (.inl ⟨?_, ?_⟩)⟩
      · rwa [hct] at hm
      · obtain ⟨k, text⟩ := l
        rw [Lexeme.mk.injEq]
        exact ⟨hk, hl.trans (by rw [hct]; rfl)⟩
    · exact ⟨c, z, rfl, (lexeme_eq_ok_iff hv).2 (.inr ⟨hm, .inl ⟨ho, rfl⟩⟩)⟩
    · have hpos := (Region.openedBy?_eq_some ho).1
      obtain ⟨c, t, hct⟩ := List.exists_cons_of_ne_nil
        (List.ne_nil_of_length_pos (by omega) : l.text ≠ [])
      have heq : l.text ++ z = c :: (t ++ z) := by rw [hct]; rfl
      refine ⟨c, t ++ z, heq, (lexeme_eq_ok_iff hv).2 (.inr ⟨?_, .inr ⟨n, r, l.text.drop n, ?_, ?_, ?_⟩⟩)⟩
      · rwa [← heq]
      · rwa [← heq]
      · rw [← heq, List.drop_append_of_le_length hn, hb]
      · rw [← heq, List.take_append_of_le_length hn, List.take_append_drop, ← hk]

theorem Reads.text_ne_nil (hv : v.Plain) {l : Lexeme} (h : Reads v before l z) : l.text ≠ [] := by
  obtain ⟨c, t, -, h⟩ := h
  obtain ⟨more, hl, -⟩ := lexeme_text hv h
  simp [hl]

theorem Reads.eq_nil_of_open (hv : v.Plain) (h : Reads v before l z)
    (hk : l.kind = .lineComment ∨ l.kind = .markerLine) (hl : '\n' ∉ l.text) : z = [] := by
  have hnil : wholeLine z = [] → z = [] := fun hz => by
    cases z with
    | nil => rfl
    | cons c z => exact absurd hz (wholeLine_ne_nil c z)
  rcases (reads_iff hv).1 h with ⟨-, -, -, heq⟩ | ⟨-, ⟨c, rfl, -⟩ | ⟨n, r, -, hn, hb, hkind⟩⟩
  · rw [wholeLine_append_of_notMem hl] at heq
    exact hnil (by simpa using heq)
  · simp at hk
  · have hr : r = .lineComment := by cases r <;> simp_all [Region.lexemeKind]
    subst hr
    rw [Region.through?, wholeLine_append_of_notMem fun h => hl (List.mem_of_mem_drop h)] at hb
    exact hnil (by simpa using hb)

theorem Reads.atMarkerLine_iff (hv : v.Plain) (h : Reads v before l z) :
    v.AtMarkerLine before (l.text ++ z) ↔ l.kind = .markerLine := by
  rcases (reads_iff hv).1 h with ⟨hm, hk, -⟩ | ⟨hm, ⟨c, rfl, -⟩ | ⟨n, r, -, -, -, hk⟩⟩
  · simp [hm, hk]
  · exact iff_of_false hm nofun
  · cases r <;> simp [hm, hk, Region.lexemeKind]

theorem Reads.eq_wholeLine (hv : v.Plain) (h : Reads v before l z) (hk : l.kind = .markerLine) :
    l.text = wholeLine (l.text ++ z) := by
  rcases (reads_iff hv).1 h with ⟨-, -, -, heq⟩ | ⟨hm, -⟩
  · exact heq
  · exact absurd ((h.atMarkerLine_iff hv).2 hk) hm

/-- A comment to the end of the line is its two dashes and the line behind them. -/
theorem Reads.lineComment_eq (hv : v.Plain) (h : Reads v before l z) (hk : l.kind = .lineComment) :
    ∃ t, l.text = '-' :: '-' :: t ∧ t = wholeLine (t ++ z) := by
  rcases (reads_iff hv).1 h with ⟨-, hk', -⟩ | ⟨-, ⟨c, rfl, -⟩ | ⟨n, r, ho, hn, hthrough, hkind⟩⟩
  · rw [hk] at hk'; cases hk'
  · cases hk
  · have hr : r = .lineComment := by
      obtain ⟨-, hcode, -⟩ := Region.openedBy?_eq_some ho
      cases r <;> simp_all [Region.lexemeKind]
    subst hr
    obtain ⟨c, t, hct⟩ := List.exists_cons_of_ne_nil (h.text_ne_nil hv)
    rw [hct, List.cons_append] at ho
    rcases Region.openedBy?_cases ho with ⟨-, rfl, hp⟩ | ⟨hr, -⟩ | ⟨_, _, hr, -⟩ | ⟨_, hr, -⟩
    · rw [← List.cons_append, ← hct] at hp
      obtain ⟨t, ht⟩ := List.prefix_of_prefix_length_le hp (List.prefix_append l.text z) hn
      rw [← ht] at hthrough
      exact ⟨t, ht.symm, (Option.some.inj hthrough).symm⟩
    all_goals cases hr

/-- What a lexeme begins with says whether it is a blank or a block comment, marker lines apart. -/
theorem Reads.begins (hv : v.Plain) (h : Reads v before l z) (hm : l.kind ≠ .markerLine) :
    ∃ c t, l.text = c :: t ∧ l.isBlank = isBlank c ∧
      (l.kind = .blockComment → c = '/' ∧ t.head? = some '*') := by
  obtain ⟨c, t, heq, hl⟩ := h
  obtain ⟨more, hmore, -⟩ := lexeme_text hv hl
  refine ⟨c, more, hmore, (lexeme_kind hv hl hm).2.2.1, ?_⟩
  rcases (lexeme_eq_ok_iff hv).1 hl with ⟨-, rfl⟩ | ⟨-, ⟨-, rfl⟩ | ⟨n, r, body, ho, -, rfl⟩⟩
  · exact absurd rfl hm
  · nofun
  · rcases Region.openedBy?_cases ho with ⟨rfl, -⟩ | ⟨rfl, rfl, u, hu⟩ | ⟨_, _, rfl, -⟩ | ⟨_, rfl, -⟩
    · nofun
    · obtain ⟨rfl, rfl⟩ := List.cons.inj hu
      rintro -
      simp only [List.append_eq, List.take_succ_cons, List.take_zero, List.cons_append,
        List.nil_append, List.cons.injEq, true_and] at hmore
      simp [← hmore]
    · nofun
    · nofun

/-- A literal or a block comment ends in the last character of what closes it, which is no blank. -/
theorem Region.exists_last {text : List Char} {n : Nat} {r : Region}
    (ho : openedBy? v before text = some (n, r)) (hline : r ≠ .lineComment) :
    ∃ c, isBlank c = false ∧ c ≠ 'E' ∧ c ≠ 'e' ∧
      ∀ {t body}, r.through? t = some body → ∃ init, body = init ++ [c] := by
  have hne : text ≠ [] := fun hnil => by
    have hle := openedBy?_le ho
    have hpos := (openedBy?_eq_some ho).1
    rw [hnil, List.length_nil] at hle
    omega
  obtain ⟨c, text, rfl⟩ := List.exists_cons_of_ne_nil hne
  rcases openedBy?_cases ho with
    ⟨rfl, -⟩ | ⟨rfl, -⟩ | ⟨mark, backslash, rfl, -, rfl, hmark⟩ | ⟨tag, rfl, -, -, -, htag⟩
  · exact absurd rfl hline
  · refine ⟨'/', by decide, by decide, by decide, fun hthrough => ?_⟩
    obtain ⟨t, ht⟩ := through?_suffix hthrough
    exact ⟨t ++ ['*'], by simp [← ht]⟩
  · refine ⟨c, ?_, ?_, ?_, fun hthrough => ?_⟩
    · rcases hmark with rfl | rfl <;> decide
    · rcases hmark with rfl | rfl <;> decide
    · rcases hmark with rfl | rfl <;> decide
    · obtain ⟨t, ht⟩ := throughQuote?_suffix hthrough
      exact ⟨t, ht.symm⟩
  · refine ⟨'$', by decide, by decide, by decide, fun hthrough => ?_⟩
    obtain ⟨t, ht⟩ := through?_suffix hthrough
    obtain ⟨name, rest, -, rfl, -⟩ := dollarTag?_eq_some_iff.1 htag
    exact ⟨t ++ '$' :: name, by simp [← ht]⟩

/-- A lexeme that may not go on to the end of the line ends in what closes it, which is no blank. -/
theorem Reads.ends (hv : v.Plain) (h : Reads v before l z) (hm : l.kind ≠ .markerLine)
    (hc : l.kind ≠ .lineComment) (hb : l.isBlank = false) :
    ∃ t c, l.text = t ++ [c] ∧ isBlank c = false := by
  rcases (reads_iff hv).1 h with ⟨-, hk, -⟩ | ⟨-, ⟨c, rfl, -⟩ | ⟨n, r, ho, hn, hthrough, hk⟩⟩
  · exact absurd hk hm
  · exact ⟨[], c, rfl, by simpa [Lexeme.isBlank] using hb⟩
  · obtain ⟨c, hblank, -, -, hlast⟩ := Region.exists_last ho fun hr => hc (by rw [hk, hr]; rfl)
    obtain ⟨t, ht⟩ := hlast hthrough
    exact ⟨l.text.take n ++ t, c, by rw [List.append_assoc, ← ht, List.take_append_drop], hblank⟩

end
end SqlScript
