import Mathlib.Data.List.Basic
import SqlScript.Text.Blank

/-!
# Searching for what closes

`through?` and `throughQuote?` give the text through the first closer. What they find is there
(`through?_isPrefix`), it is found in itself (`through?_self`), and text behind it does not change it
(`through?_append`).
-/

namespace SqlScript.Text

/-- The text through the first `closer`. -/
def through? (closer : List Char) : List Char → Option (List Char)
  | [] => none
  | c :: text =>
    if closer.isPrefixOf (c :: text) then some closer else (through? closer text).map (c :: ·)

/-- The text through the next `mark`; with `backslash`, a backslash takes the character after it
along. -/
def throughQuote? (mark : Char) (backslash : Bool) : List Char → Option (List Char)
  | [] => none
  | c :: text =>
    if backslash && c == '\\' then
      match text with
      | [] => none
      | d :: text => (throughQuote? mark backslash text).map (c :: d :: ·)
    else if c == mark then some [c]
    else (throughQuote? mark backslash text).map (c :: ·)

theorem through?_cons_eq_some {closer t body : List Char} {c : Char} :
    through? closer (c :: t) = some body ↔
      closer <+: c :: t ∧ body = closer ∨
      ¬ closer <+: c :: t ∧ ∃ more, through? closer t = some more ∧ body = c :: more := by
  rw [through?]
  by_cases h : closer <+: c :: t
  · rw [if_pos (List.isPrefixOf_iff_prefix.2 h)]; simp [h, eq_comm]
  · rw [if_neg (by rwa [List.isPrefixOf_iff_prefix]), Option.map_eq_some_iff]
    simp [h, eq_comm (a := body)]

theorem through?_isPrefix {closer t body : List Char} (h : through? closer t = some body) :
    body <+: t := by
  induction t generalizing body with
  | nil => cases h
  | cons c t ih =>
    rcases through?_cons_eq_some.1 h with ⟨hc, rfl⟩ | ⟨-, more, hm, rfl⟩
    · exact hc
    · exact (List.prefix_cons_inj c).2 (ih hm)

theorem through?_suffix {closer t body : List Char} (h : through? closer t = some body) :
    closer <:+ body := by
  induction t generalizing body with
  | nil => cases h
  | cons c t ih =>
    rcases through?_cons_eq_some.1 h with ⟨hc, rfl⟩ | ⟨-, more, hm, rfl⟩
    · exact List.suffix_refl _
    · exact (ih hm).trans (List.suffix_cons c more)

theorem through?_append {closer t body : List Char} (h : through? closer t = some body)
    (u : List Char) : through? closer (t ++ u) = some body := by
  induction t generalizing body with
  | nil => cases h
  | cons c t ih =>
    rw [List.cons_append, through?_cons_eq_some]
    rcases through?_cons_eq_some.1 h with ⟨hc, rfl⟩ | ⟨hc, more, hm, rfl⟩
    · exact .inl ⟨hc.trans (List.prefix_append (c :: t) u), rfl⟩
    · refine .inr ⟨fun hp => hc ?_, more, ih hm, rfl⟩
      -- the closer is found further on, so there is room for it within `t`
      have hlen := Nat.le_trans (through?_suffix hm).length_le (through?_isPrefix hm).length_le
      exact List.prefix_of_prefix_length_le hp (List.prefix_append (c :: t) u) (Nat.le_succ_of_le hlen)

theorem through?_self {closer t body : List Char} (hne : closer ≠ [])
    (h : through? closer t = some body) : through? closer body = some body := by
  induction t generalizing body with
  | nil => cases h
  | cons c t ih =>
    rcases through?_cons_eq_some.1 h with ⟨hc, rfl⟩ | ⟨hc, more, hm, rfl⟩
    · obtain ⟨d, rest, hd⟩ := List.exists_cons_of_ne_nil hne
      rw [hd]
      exact through?_cons_eq_some.2 (.inl ⟨List.prefix_refl _, rfl⟩)
    · have hp := (List.prefix_cons_inj c).2 (through?_isPrefix hm)
      exact through?_cons_eq_some.2 (.inr ⟨fun hp' => hc (hp'.trans hp), more, ih hm, rfl⟩)

theorem throughQuote?_cons (mark : Char) (backslash : Bool) (c : Char) (t : List Char) :
    throughQuote? mark backslash (c :: t) =
      if backslash && c == '\\' then
        match t with
        | [] => none
        | d :: t => (throughQuote? mark backslash t).map (c :: d :: ·)
      else if c == mark then some [c]
      else (throughQuote? mark backslash t).map (c :: ·) := by
  cases t <;> rfl

theorem throughQuote?_isPrefix {mark : Char} {backslash : Bool} {t body : List Char}
    (h : throughQuote? mark backslash t = some body) : body <+: t := by
  fun_induction throughQuote? mark backslash t generalizing body with
  | case1 => cases h
  | case2 => cases h
  | case3 c hc d t ih =>
    obtain ⟨more, hm, rfl⟩ := Option.map_eq_some_iff.1 h
    simpa using ih hm
  | case4 c t hc hmark => cases h; simp
  | case5 c t hc hmark ih =>
    obtain ⟨more, hm, rfl⟩ := Option.map_eq_some_iff.1 h
    simpa using ih hm

theorem throughQuote?_suffix {mark : Char} {backslash : Bool} {t body : List Char}
    (h : throughQuote? mark backslash t = some body) : [mark] <:+ body := by
  fun_induction throughQuote? mark backslash t generalizing body with
  | case1 => cases h
  | case2 => cases h
  | case3 c hc d t ih =>
    obtain ⟨more, hm, rfl⟩ := Option.map_eq_some_iff.1 h
    exact (ih hm).trans (List.suffix_append [c, d] more)
  | case4 c t hc hmark => cases h; simp [eq_of_beq hmark]
  | case5 c t hc hmark ih =>
    obtain ⟨more, hm, rfl⟩ := Option.map_eq_some_iff.1 h
    exact (ih hm).trans (List.suffix_cons c more)

theorem throughQuote?_self {mark : Char} {backslash : Bool} {t body : List Char}
    (h : throughQuote? mark backslash t = some body) :
    throughQuote? mark backslash body = some body := by
  fun_induction throughQuote? mark backslash t generalizing body with
  | case1 => cases h
  | case2 => cases h
  | case3 c hc d t ih =>
    obtain ⟨more, hm, rfl⟩ := Option.map_eq_some_iff.1 h
    simp [throughQuote?_cons, hc, ih hm]
  | case4 c t hc hmark => cases h; simp [throughQuote?_cons, hc, hmark]
  | case5 c t hc hmark ih =>
    obtain ⟨more, hm, rfl⟩ := Option.map_eq_some_iff.1 h
    simp [throughQuote?_cons, hc, hmark, ih hm]

theorem throughQuote?_append {mark : Char} {backslash : Bool} {t body : List Char}
    (h : throughQuote? mark backslash t = some body) (u : List Char) :
    throughQuote? mark backslash (t ++ u) = some body := by
  fun_induction throughQuote? mark backslash t generalizing body with
  | case1 => cases h
  | case2 => cases h
  | case3 c hc d t ih =>
    obtain ⟨more, hm, rfl⟩ := Option.map_eq_some_iff.1 h
    simp [throughQuote?_cons, hc, ih hm]
  | case4 c t hc hmark => cases h; simp [throughQuote?_cons, hc, hmark]
  | case5 c t hc hmark ih =>
    obtain ⟨more, hm, rfl⟩ := Option.map_eq_some_iff.1 h
    simp [throughQuote?_cons, hc, hmark, ih hm]

end SqlScript.Text
