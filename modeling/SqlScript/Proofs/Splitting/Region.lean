import Mathlib.Data.List.Basic
import SqlScript.Proofs.Text.Character
import SqlScript.Splitting.Region

/-!
# What regions open and close with

`dollarTag?_eq_some_iff` reads a tag off the text by its parts. `HasCloser` says that a region does
not wait for an empty tag; whatever code opens has a closer (`openedBy?_eq_some`), and reading on in
a region keeps it (`hasCloser_advance`). The text begins with what it opens a region with
(`opener_isPrefix`).
-/

namespace SqlScript
open Text

namespace Region

/-- A character that the name of a tag may hold. -/
def isTagChar (c : Char) : Bool :=
  isAlphanumeric c || c == '_'

theorem isTagChar_dollar : isTagChar '$' = false := by decide

theorem isTagChar_of_isDigit {c : Char} (h : c.isDigit) : isTagChar c := by
  have hcode : c.toNat < 0x80 := by
    have hc : c.toNat = c.val.toNat := rfl
    simp only [Char.isDigit, ge_iff_le, Bool.and_eq_true, decide_eq_true_eq, UInt32.le_iff_toNat_le] at h
    have hnine : ('9'.val).toNat = 57 := rfl
    omega
  rw [isTagChar, isAlphanumeric_of_ascii hcode, Char.isAlphanum, h, Bool.or_true, Bool.true_or]

theorem head?_takeWhile_isTagChar (text : List Char) :
    ((text.takeWhile isTagChar).head?.map Char.isDigit).getD false =
      (text.head?.map Char.isDigit).getD false := by
  cases text with
  | nil => rfl
  | cons c text =>
    rw [List.takeWhile_cons]
    split
    · rfl
    · next hc =>
      have hdigit : c.isDigit = false := by
        by_contra h
        exact hc (isTagChar_of_isDigit (Bool.not_eq_false _ ▸ h))
      exact hdigit.symm

theorem drop_length_takeWhile (p : Char → Bool) (text : List Char) :
    text.drop (text.takeWhile p).length = text.dropWhile p := by
  induction text with
  | nil => rfl
  | cons c text ih => by_cases h : p c <;> simp [h, ih]

theorem dollarTag?_dollar (text : List Char) :
    dollarTag? ('$' :: text) =
      if ((text.takeWhile isTagChar).head?.map Char.isDigit).getD false then none
      else if (text.dropWhile isTagChar).head? = some '$' then
        some ('$' :: (text.takeWhile isTagChar ++ ['$']))
      else none := by
  rw [← drop_length_takeWhile]; rfl

theorem dollarTag?_eq_some_iff {text tag : List Char} :
    dollarTag? text = some tag ↔
      ∃ name rest, text = '$' :: (name ++ '$' :: rest) ∧ tag = '$' :: (name ++ ['$']) ∧
        (∀ c ∈ name, isTagChar c) ∧ (name.head?.map Char.isDigit).getD false = false := by
  constructor
  · intro h
    have hd : ∃ body, text = '$' :: body := by
      unfold dollarTag? at h; split at h
      · exact ⟨_, rfl⟩
      · cases h
    obtain ⟨body, rfl⟩ := hd
    rw [dollarTag?_dollar] at h
    split at h
    · cases h
    · next hdigit =>
      split at h
      · next hmark =>
        cases h
        obtain ⟨rest, hrest⟩ := List.head?_eq_some_iff.1 hmark
        refine ⟨body.takeWhile isTagChar, rest, ?_, rfl, fun c hc => ?_, by simpa using hdigit⟩
        · rw [← hrest, List.takeWhile_append_dropWhile]
        · exact List.all_eq_true.1 List.all_takeWhile c hc
      · cases h
  · rintro ⟨name, rest, rfl, rfl, hname, hdigit⟩
    have htake : (name ++ '$' :: rest).takeWhile isTagChar = name := by
      rw [List.takeWhile_append_of_pos hname, List.takeWhile_cons, isTagChar_dollar]; simp
    have hdrop : (name ++ '$' :: rest).dropWhile isTagChar = '$' :: rest := by
      rw [List.dropWhile_append_of_pos hname, List.dropWhile_cons, isTagChar_dollar]; rfl
    rw [dollarTag?_dollar, htake, hdrop]
    simp [hdigit]

theorem length_of_dollarTag? {text tag : List Char} (h : dollarTag? text = some tag) :
    2 ≤ tag.length := by
  obtain ⟨name, rest, -, rfl, -⟩ := dollarTag?_eq_some_iff.1 h
  simp

theorem dollarTag?_isPrefix {text tag : List Char} (h : dollarTag? text = some tag) : tag <+: text := by
  obtain ⟨name, rest, rfl, rfl, -⟩ := dollarTag?_eq_some_iff.1 h
  exact ⟨rest, by simp⟩

theorem isWordChar_of_isTagChar {c : Char} (h : isTagChar c) : isWordChar c := by
  simp only [isTagChar, Bool.or_eq_true] at h
  simp only [isWordChar, Bool.or_eq_true]
  tauto

theorem dollarTag?_append {t tag : List Char} (h : dollarTag? t = some tag) (z : List Char) :
    dollarTag? (t ++ z) = some tag := by
  obtain ⟨name, rest, rfl, rfl, hname, hdigit⟩ := dollarTag?_eq_some_iff.1 h
  exact dollarTag?_eq_some_iff.2 ⟨name, rest ++ z, by simp, rfl, hname, hdigit⟩

theorem dollarTag?_append_of_endsWord {z : List Char} (hz : EndsWord z) (t : List Char) :
    dollarTag? (t ++ z) = dollarTag? t := by
  cases h : dollarTag? t with
  | some tag => exact dollarTag?_append h z
  | none =>
    rw [Option.eq_none_iff_forall_ne_some]
    intro tag htag
    obtain ⟨name, rest, heq, rfl, hname, hdigit⟩ := dollarTag?_eq_some_iff.1 htag
    -- a part of the tag would lie in `z`, and its first character there is one of the tag
    have hlen : name.length + 2 ≤ t.length := by
      by_contra hlt
      have hsplit : ∃ u, '$' :: (name ++ ['$']) = t ++ u ∧ u <+: z ∧ u ≠ [] := by
        have hp : '$' :: (name ++ ['$']) <+: t ++ z := ⟨rest, by simp [heq]⟩
        obtain ⟨u, hu⟩ := List.prefix_of_prefix_length_le (List.prefix_append t z) hp (by simp; omega)
        refine ⟨u, hu.symm, ?_, ?_⟩
        · rwa [← hu, List.prefix_append_right_inj] at hp
        · rintro rfl
          have := congrArg List.length hu
          simp at this; omega
      obtain ⟨u, hu, huz, hne⟩ := hsplit
      obtain ⟨c, u, rfl⟩ := List.exists_cons_of_ne_nil hne
      have hc := hz c (by obtain ⟨w, hw⟩ := huz; simp [← hw])
      have hmem : c ∈ '$' :: (name ++ ['$']) := by simp [hu]
      simp only [List.mem_cons, List.mem_append, List.not_mem_nil, or_false] at hmem
      rcases hmem with rfl | hmem | rfl
      · cases hc
      · simp [isWordChar_of_isTagChar (hname c hmem)] at hc
      · cases hc
    have ht : '$' :: (name ++ ['$']) <+: t :=
      List.prefix_of_prefix_length_le ⟨rest, by simp [heq]⟩ (List.prefix_append t z) (by simp; omega)
    obtain ⟨w, rfl⟩ := ht
    rw [dollarTag?_eq_some_iff.2 ⟨name, w, by simp, rfl, hname, hdigit⟩] at h
    cases h

theorem afterEscapeMark_append {before : List Char} (hb : EndsWord before) (p : List Char) :
    afterEscapeMark (p ++ before) = afterEscapeMark p := by
  have hword : ∀ c ∈ before.head?, (isAlphanumeric c || c == '_' || c == '$') = false := by
    intro c hc
    have := hb c hc
    simp_all [isWordChar]
  cases before with
  | nil => rw [List.append_nil]
  | cons d before =>
    have hd := hword d rfl
    match p with
    | [] =>
      have hne : (d == 'E' || d == 'e') = false := by
        by_contra h
        simp only [Bool.not_eq_false, Bool.or_eq_true, beq_iff_eq] at h
        rcases h with rfl | rfl <;> exact absurd hd (by decide)
      simp [afterEscapeMark, hne]
    | [c] => simp [afterEscapeMark, hd]
    | _ :: _ :: _ => rfl

theorem openedBy?_congr_before {v : Vendor} {before before' text : List Char}
    (h : afterEscapeMark before = afterEscapeMark before') :
    openedBy? v before text = openedBy? v before' text := by
  unfold openedBy?
  rw [h]

/-- What code opens, asked one after the other. -/
theorem openedBy?_eq (v : Vendor) (before text : List Char) :
    openedBy? v before text =
      if ['-', '-'].isPrefixOf text then some (2, .lineComment)
      else if ['/', '*'].isPrefixOf text then some (2, .blockComment)
      else if ['\x27'].isPrefixOf text then
        some (1, .quoted '\x27' (v.backslashEscapes || afterEscapeMark before))
      else if ['"'].isPrefixOf text then some (1, .quoted '"' v.backslashEscapes)
      else if v.dollarQuoting then (dollarTag? text).map fun tag => (tag.length, .dollarQuoted tag)
      else none := by
  unfold openedBy?
  split
  · rfl
  · rfl
  · rfl
  · rfl
  · next hline hblock hquote hdouble =>
    have hnot : ∀ {k : List Char}, (∀ rest, text = k ++ rest → False) → k.isPrefixOf text = false := by
      intro k hk
      by_contra hp
      obtain ⟨rest, hrest⟩ := List.isPrefixOf_iff_prefix.1 (Bool.not_eq_false _ ▸ hp)
      exact hk rest hrest.symm
    rw [hnot hline, hnot hblock, hnot hquote, hnot hdouble]
    rfl

/-- What closes the region is not empty. -/
def HasCloser (r : Region) : Prop := ∀ tag, r = .dollarQuoted tag → tag ≠ []

theorem hasCloser_code : HasCloser .code := nofun

theorem openedBy?_eq_some {v : Vendor} {before text : List Char} {n : Nat} {r : Region}
    (h : openedBy? v before text = some (n, r)) : 0 < n ∧ r ≠ .code ∧ r.HasCloser := by
  unfold openedBy? at h
  split at h
  case h_5 =>
    split at h
    · obtain ⟨tag, htag, heq⟩ := Option.map_eq_some_iff.1 h
      cases heq
      have := length_of_dollarTag? htag
      refine ⟨by omega, nofun, fun tag' h' => ?_⟩
      cases h'
      exact List.ne_nil_of_length_pos (by omega)
    · cases h
  all_goals cases h; exact ⟨by decide, nofun, nofun⟩

/-- What code opens, by what it starts with. -/
theorem openedBy?_cases {v : Vendor} {before text : List Char} {c : Char} {n : Nat} {r : Region}
    (h : openedBy? v before (c :: text) = some (n, r)) :
    r = .lineComment ∧ n = 2 ∧ ['-', '-'] <+: c :: text ∨
    r = .blockComment ∧ n = 2 ∧ ['/', '*'] <+: c :: text ∨
    (∃ mark backslash, r = .quoted mark backslash ∧ n = 1 ∧ c = mark ∧ (c = '\x27' ∨ c = '"')) ∨
    ∃ tag, r = .dollarQuoted tag ∧ n = tag.length ∧ c = '$' ∧ v.dollarQuoting ∧
      dollarTag? (c :: text) = some tag := by
  unfold openedBy? at h
  split at h
  · next heq => cases heq; cases h; simp
  · next heq => cases heq; cases h; simp
  · next heq => cases heq; cases h; simp
  · next heq => cases heq; cases h; simp
  · split at h
    · next hd =>
      obtain ⟨tag, htag, heq⟩ := Option.map_eq_some_iff.1 h
      cases heq
      have hc : c = '$' := by
        obtain ⟨name, rest, ht, -⟩ := dollarTag?_eq_some_iff.1 htag
        exact (List.cons.inj ht).1
      exact .inr (.inr (.inr ⟨tag, rfl, rfl, hc, hd, htag⟩))
    · cases h

theorem openedBy?_le {v : Vendor} {before text : List Char} {n : Nat} {r : Region}
    (h : openedBy? v before text = some (n, r)) : n ≤ text.length := by
  cases text with
  | nil => cases hd : v.dollarQuoting <;> simp [openedBy?, hd, dollarTag?] at h
  | cons c text =>
    rcases openedBy?_cases h with
      ⟨-, rfl, hp⟩ | ⟨-, rfl, hp⟩ | ⟨-, -, -, rfl, -⟩ | ⟨tag, -, rfl, -, -, htag⟩
    · exact hp.length_le
    · exact hp.length_le
    · simp
    · exact (dollarTag?_isPrefix htag).length_le

/-- What opens a region in code. -/
def opener : Region → List Char
  | .code => []
  | .quoted mark _ => [mark]
  | .lineComment => ['-', '-']
  | .blockComment => ['/', '*']
  | .dollarQuoted tag => tag

theorem exists_cons_of_openedBy? {v : Vendor} {before text : List Char} {n : Nat} {r : Region}
    (h : openedBy? v before text = some (n, r)) : ∃ c rest, text = c :: rest := by
  cases text with
  | nil => exact absurd (openedBy?_le h) (Nat.not_le_of_lt (openedBy?_eq_some h).1)
  | cons c rest => exact ⟨c, rest, rfl⟩

theorem opener_isPrefix {v : Vendor} {before text : List Char} {n : Nat} {r : Region}
    (h : openedBy? v before text = some (n, r)) : r.opener <+: text := by
  obtain ⟨c, rest, rfl⟩ := exists_cons_of_openedBy? h
  rcases openedBy?_cases h with
    ⟨rfl, -, hp⟩ | ⟨rfl, -, hp⟩ | ⟨mark, backslash, rfl, -, rfl, -⟩ | ⟨tag, rfl, -, -, -, htag⟩
  · exact hp
  · exact hp
  · exact ⟨rest, rfl⟩
  · exact dollarTag?_isPrefix htag

theorem openedBy?_eq_none_iff {v : Vendor} {before text : List Char} {c : Char} :
    openedBy? v before (c :: text) = none ↔
      ¬ ['-', '-'] <+: c :: text ∧ ¬ ['/', '*'] <+: c :: text ∧ c ≠ '\x27' ∧ c ≠ '"' ∧
        (v.dollarQuoting → dollarTag? (c :: text) = none) := by
  constructor
  · intro h
    unfold openedBy? at h
    split at h
    case h_5 =>
      refine ⟨?_, ?_, ?_, ?_, fun hd => by simpa [hd] using h⟩
      · rintro ⟨rest, hrest⟩; cases hrest; simp_all
      · rintro ⟨rest, hrest⟩; cases hrest; simp_all
      · rintro rfl; simp_all
      · rintro rfl; simp_all
    all_goals cases h
  · rintro ⟨hline, hblock, hquote, hdouble, hd⟩
    unfold openedBy?
    split
    · next heq => cases heq; exact absurd (by simp) hline
    · next heq => cases heq; exact absurd (by simp) hblock
    · next heq => cases heq; exact absurd rfl hquote
    · next heq => cases heq; exact absurd rfl hdouble
    · split
      · next h => rw [hd h]; rfl
      · rfl

theorem advance_pos {r : Region} (h : r.HasCloser) (text : List Char) : 0 < (r.advance text).1 := by
  cases r with
  | code => exact Nat.one_pos
  | quoted mark backslash =>
    simp only [advance]; split
    · exact Nat.two_pos
    · split <;> exact Nat.one_pos
  | lineComment => simp only [advance]; split <;> exact Nat.one_pos
  | blockComment => simp only [advance]; split <;> decide
  | dollarQuoted tag =>
    have := List.length_pos_iff.2 (h tag rfl)
    simp only [advance]; split
    · exact this
    · exact Nat.one_pos

theorem hasCloser_advance {r : Region} (h : r.HasCloser) (text : List Char) :
    (r.advance text).2.HasCloser := by
  cases r <;> simp only [advance] <;> repeat' split
  all_goals first | exact h | exact hasCloser_code

end Region
end SqlScript
