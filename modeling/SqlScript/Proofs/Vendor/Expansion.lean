import Mathlib.Data.List.Forall2
import SqlScript.Proofs.Text.Case
import SqlScript.Proofs.Vendor.Opening
import SqlScript.Proofs.Vendor.Writing

/-!
# Expansions of patterns

A pattern stands for the rows of words that come from it by keeping or leaving out each group and choosing a
spelling for each word (`Pattern.Expansion`). Where `Pattern.startsWith` finds a pattern, the text starts
with an expansion of it (`Pattern.exists_expansion`). The other way round a group may be taken that should
have been left out, since nothing is tried again; this cannot happen if the words of the pattern are whole
words and the first word of a group is none that can come next without it (`Pattern.IsDeterministic`,
`Pattern.isSome_afterItems?`): at one place there is only one whole word (`Keyword.Begins.unique`).
-/

namespace SqlScript
open Text

namespace Keyword
variable {k k' text rest rest' : List Char}

/-- The text begins with the word, perhaps after blanks and in another case, and goes on with `rest`. A
word character at its end has no other behind it. -/
structure Begins (k text rest : List Char) : Prop where
  exists_word : ∃ gap word, text = gap ++ (word ++ rest) ∧ (∀ c ∈ gap, isBlank c) ∧ sameIgnoringCase word k
  endsWord : ∀ c ∈ k.getLast?, isWordChar c → EndsWord rest

/-- A word of word characters only. -/
structure IsWhole (k : List Char) : Prop where
  ne_nil : k ≠ []
  isWordChar : ∀ c ∈ k, isWordChar c

theorem begins_of_after? (h : after? k text = some rest) : Begins k text rest := by
  obtain ⟨⟨word, htext, hword⟩, hends⟩ := after?_eq_some.1 h
  refine ⟨⟨text.takeWhile isBlank, word, ?_, fun c hc => List.mem_takeWhile_imp hc, hword⟩, ?_⟩
  · rw [← htext]
    exact List.takeWhile_append_dropWhile.symm
  · intro c hc hwordChar
    refine (endsHere_iff ?_).1 hends
    rw [Option.mem_def.1 hc]
    exact hwordChar

namespace Begins

/-- A whole word is all of the word that the text begins with. -/
theorem of_isWhole (h : Begins k text rest) (hk : IsWhole k) :
    ∃ word, trimStart text = word ++ rest ∧ sameIgnoringCase word k ∧ (∀ c ∈ word, isWordChar c) ∧
      EndsWord rest := by
  obtain ⟨⟨gap, word, rfl, hgap, hword⟩, hends⟩ := h
  have hchars : ∀ c ∈ word, isWordChar c := forall_of_sameIgnoringCase isWordChar_foldAscii hword hk.isWordChar
  refine ⟨word, ?_, hword, hchars, ?_⟩
  · rw [trimStart_append_of_blank hgap]
    cases word with
    | nil =>
      have hlen := length_of_sameIgnoringCase hword
      exact absurd (List.eq_nil_of_length_eq_zero hlen.symm) hk.ne_nil
    | cons c word => simp [trimStart, not_isBlank_of_isWordChar (hchars c List.mem_cons_self)]
  · have hlast := List.getLast?_eq_some_getLast hk.ne_nil
    exact hends _ hlast (hk.isWordChar _ (List.getLast_mem hk.ne_nil))

/-- There is only one whole word where a text begins. -/
theorem unique (h : Begins k text rest) (h' : Begins k' text rest') (hk : IsWhole k) (hk' : IsWhole k') :
    sameIgnoringCase k k' ∧ rest = rest' := by
  obtain ⟨word, htext, hword, hchars, hends⟩ := h.of_isWhole hk
  obtain ⟨word', htext', hword', hchars', hends'⟩ := h'.of_isWhole hk'
  -- both are all the word characters in front
  rw [htext] at htext'
  have htake := congrArg (List.takeWhile isWordChar) htext'
  have hdrop := congrArg (List.dropWhile isWordChar) htext'
  rw [List.takeWhile_append_of_pos hchars, List.takeWhile_append_of_pos hchars', hends.takeWhile_eq_nil,
    hends'.takeWhile_eq_nil, List.append_nil, List.append_nil] at htake
  rw [List.dropWhile_append_of_pos hchars, List.dropWhile_append_of_pos hchars', hends.dropWhile_eq_self,
    hends'.dropWhile_eq_self] at hdrop
  subst htake
  refine ⟨sameIgnoringCase_iff.2 ?_, hdrop⟩
  exact (sameIgnoringCase_iff.1 hword).symm.trans (sameIgnoringCase_iff.1 hword')

theorem after?_eq (h : Begins k text rest) (hk : IsWhole k) : after? k text = some rest := by
  obtain ⟨word, htext, hword, -, hends⟩ := h.of_isWhole hk
  have hlast : (k.getLast?.map isWordChar).getD false = true := by
    rw [List.getLast?_eq_some_getLast hk.ne_nil]
    exact hk.isWordChar _ (List.getLast_mem hk.ne_nil)
  exact (after?_eq_some_iff hlast).2 ⟨word, htext, hword, hends⟩

end Begins

variable {w : Alternatives}

theorem exists_begins_of_afterAny? (h : afterAny? w text = some rest) : ∃ k ∈ w, Begins k text rest := by
  obtain ⟨k, hk, hafter⟩ := List.exists_of_findSome?_eq_some h
  exact ⟨k, hk, begins_of_after? hafter⟩

theorem afterAny?_of_begins (hw : ∀ k ∈ w, IsWhole k) (hk : k ∈ w) (h : Begins k text rest) :
    afterAny? w text = some rest := by
  cases hany : afterAny? w text with
  | none =>
    have hafter := List.findSome?_eq_none_iff.1 hany k hk
    rw [h.after?_eq (hw k hk)] at hafter
    cases hafter
  | some rest' =>
    obtain ⟨k', hk', h'⟩ := exists_begins_of_afterAny? hany
    rw [(h'.unique h (hw k' hk') (hw k hk)).2]

/-- The text begins with the words, one after the other, and goes on with `rest`. -/
inductive BeginsAll : List (List Char) → List Char → List Char → Prop
  | nil (text : List Char) : BeginsAll [] text text
  | cons {k : List Char} {ks : List (List Char)} {text mid rest : List Char} :
    Begins k text mid → BeginsAll ks mid rest → BeginsAll (k :: ks) text rest

theorem beginsAll_append {ks ks' : List (List Char)} :
    BeginsAll (ks ++ ks') text rest ↔ ∃ mid, BeginsAll ks text mid ∧ BeginsAll ks' mid rest := by
  constructor
  · intro h
    induction ks generalizing text with
    | nil => exact ⟨text, .nil text, h⟩
    | cons k ks ih =>
      obtain _ | ⟨hk, hks⟩ := h
      obtain ⟨mid, hmid, hrest⟩ := ih hks
      exact ⟨mid, .cons hk hmid, hrest⟩
  · rintro ⟨mid, hmid, hrest⟩
    induction hmid with
    | nil => exact hrest
    | cons hk _ ih => exact .cons hk (ih hrest)

end Keyword

namespace PatternItem

/-- All spellings of the words of an item. -/
def spellings : PatternItem → List (List Char)
  | word alternatives => alternatives
  | optional ws => ws.flatten

end PatternItem

namespace Pattern
open Keyword
variable {ws : List Alternatives} {items : List PatternItem} {ks : List (List Char)}
  {text rest : List Char}

/-- The rows of words that the items stand for: each group is kept or left out, and each word has one of
its spellings. -/
inductive Expansion : List PatternItem → List (List Char) → Prop
  | nil : Expansion [] []
  | word {alternatives : Alternatives} {items : List PatternItem} {k : List Char} {ks : List (List Char)} :
    k ∈ alternatives → Expansion items ks → Expansion (.word alternatives :: items) (k :: ks)
  | kept {ws : List Alternatives} {items : List PatternItem} {ks ks' : List (List Char)} :
    List.Forall₂ (· ∈ ·) ks ws → Expansion items ks' → Expansion (.optional ws :: items) (ks ++ ks')
  | leftOut {ws : List Alternatives} {items : List PatternItem} {ks : List (List Char)} :
    Expansion items ks → Expansion (.optional ws :: items) ks

/-- The words that can come first. -/
def firstWords : List PatternItem → List Alternatives
  | [] => []
  | .word alternatives :: _ => [alternatives]
  | .optional ws :: items => ws.head?.toList ++ firstWords items

/-- The first word of a group is none that can come next without the group. -/
def IsDeterministic : List PatternItem → Prop
  | [] => True
  | .word _ :: items => IsDeterministic items
  | .optional ws :: items =>
    (∀ w ∈ ws.head?, ∀ k ∈ w, ∀ next ∈ firstWords items, ∀ k' ∈ next, sameIgnoringCase k k' = false) ∧
      IsDeterministic items

instance decidableIsDeterministic : (items : List PatternItem) → Decidable (IsDeterministic items)
  | [] => inferInstanceAs (Decidable True)
  | .word _ :: items => decidableIsDeterministic items
  | .optional ws :: items =>
    have := decidableIsDeterministic items
    inferInstanceAs (Decidable
      ((∀ w ∈ ws.head?, ∀ k ∈ w, ∀ next ∈ firstWords items, ∀ k' ∈ next, sameIgnoringCase k k' = false) ∧
        IsDeterministic items))

theorem exists_beginsAll_of_afterWords? (h : afterWords? ws text = some rest) :
    ∃ ks, List.Forall₂ (· ∈ ·) ks ws ∧ BeginsAll ks text rest := by
  induction ws generalizing text with
  | nil =>
    cases h
    exact ⟨[], .nil, .nil _⟩
  | cons w ws ih =>
    obtain ⟨mid, hmid, hrest⟩ := Option.bind_eq_some_iff.1 h
    obtain ⟨k, hk, hbegins⟩ := exists_begins_of_afterAny? hmid
    obtain ⟨ks, hks, hall⟩ := ih hrest
    exact ⟨k :: ks, .cons hk hks, .cons hbegins hall⟩

theorem afterWords?_of_beginsAll (hws : ∀ w ∈ ws, ∀ k ∈ w, IsWhole k) (hks : List.Forall₂ (· ∈ ·) ks ws)
    (h : BeginsAll ks text rest) : afterWords? ws text = some rest := by
  induction hks generalizing text with
  | nil =>
    cases h
    rfl
  | cons hk _ ih =>
    obtain _ | ⟨hbegins, hall⟩ := h
    rw [List.forall_mem_cons] at hws
    rw [afterWords?, afterAny?_of_begins hws.1 hk hbegins, Option.bind_some, ih hws.2 hall]

/-- Where the items are found, the text begins with an expansion of them. -/
theorem exists_expansion (h : afterItems? items text = some rest) :
    ∃ ks, Expansion items ks ∧ BeginsAll ks text rest := by
  induction items generalizing text with
  | nil =>
    cases h
    exact ⟨[], .nil, .nil _⟩
  | cons i items ih =>
    cases i with
    | word alternatives =>
      obtain ⟨mid, hmid, hrest⟩ := Option.bind_eq_some_iff.1 h
      obtain ⟨k, hk, hbegins⟩ := exists_begins_of_afterAny? hmid
      obtain ⟨ks, hks, hall⟩ := ih hrest
      exact ⟨k :: ks, .word hk hks, .cons hbegins hall⟩
    | optional ws =>
      rw [afterItems?] at h
      cases hgroup : afterWords? ws text with
      | none =>
        rw [hgroup] at h
        obtain ⟨ks, hks, hall⟩ := ih h
        exact ⟨ks, .leftOut hks, hall⟩
      | some mid =>
        rw [hgroup] at h
        obtain ⟨ks, hks, hbegins⟩ := exists_beginsAll_of_afterWords? hgroup
        obtain ⟨ks', hks', hall⟩ := ih h
        exact ⟨ks ++ ks', .kept hks hks', beginsAll_append.2 ⟨mid, hbegins, hall⟩⟩

/-- The first word of an expansion is one that can come first. -/
theorem Expansion.exists_mem_firstWords {k : List Char} (h : Expansion items (k :: ks)) :
    ∃ w ∈ firstWords items, k ∈ w := by
  generalize hrow : k :: ks = row at h
  induction h with
  | nil => cases hrow
  | word hk =>
    obtain ⟨rfl, rfl⟩ := List.cons.inj hrow
    exact ⟨_, List.mem_singleton_self _, hk⟩
  | leftOut _ ih =>
    obtain ⟨w, hw, hk⟩ := ih hrow
    exact ⟨w, List.mem_append_right _ hw, hk⟩
  | @kept ws _ ks' _ hks _ ih =>
    cases hks with
    | nil =>
      obtain ⟨w, hw, hk⟩ := ih hrow
      exact ⟨w, List.mem_append_right _ hw, hk⟩
    | cons hk _ =>
      obtain ⟨rfl, -⟩ := List.cons.inj hrow
      exact ⟨_, List.mem_append_left _ (by simp), hk⟩

/-- Items that can all be left out are found everywhere. -/
theorem Expansion.isSome_of_nil (h : Expansion items []) (text : List Char) :
    (afterItems? items text).isSome := by
  generalize hrow : [] = row at h
  induction h generalizing text with
  | nil => rfl
  | word _ => cases hrow
  | leftOut _ ih => exact ih _ hrow
  | kept _ _ ih => exact ih _ (List.append_eq_nil_iff.1 hrow.symm).2.symm

/-- A group that is left out of an expansion at the beginning of the text is not found there, or what
follows is found in any case. -/
theorem isSome_of_leftOut (hws : ∀ w ∈ ws.head?, ∀ k ∈ w, IsWhole k)
    (hfirst : ∀ w ∈ firstWords items, ∀ k ∈ w, IsWhole k)
    (hdet : ∀ w ∈ ws.head?, ∀ k ∈ w, ∀ next ∈ firstWords items, ∀ k' ∈ next, sameIgnoringCase k k' = false)
    (h : Expansion items ks) (hall : BeginsAll ks text rest) (ih : (afterItems? items text).isSome) :
    (afterItems? (.optional ws :: items) text).isSome := by
  rw [afterItems?]
  cases hgroup : afterWords? ws text with
  | none => exact ih
  | some mid =>
    cases ks with
    | nil => exact h.isSome_of_nil mid
    | cons k' ks =>
      obtain ⟨next, hnext, hk'⟩ := h.exists_mem_firstWords
      obtain _ | ⟨hbegins', -⟩ := hall
      cases ws with
      | nil =>
        cases hgroup
        exact ih
      | cons w ws =>
        -- the group begins with a word that the expansion has next
        obtain ⟨mid', hmid', -⟩ := Option.bind_eq_some_iff.1 hgroup
        obtain ⟨k, hk, hbegins⟩ := exists_begins_of_afterAny? hmid'
        have hsame := (hbegins.unique hbegins' (hws w rfl k hk) (hfirst next hnext k' hk')).1
        rw [hdet w rfl k hk next hnext k' hk'] at hsame
        cases hsame

theorem mem_spellings_of_mem_firstWords {w : Alternatives} {k : List Char} (hw : w ∈ firstWords items)
    (hk : k ∈ w) : ∃ i ∈ items, k ∈ i.spellings := by
  induction items with
  | nil => cases hw
  | cons i items ih =>
    cases i with
    | word alternatives =>
      rw [List.mem_singleton.1 hw] at hk
      exact ⟨_, List.mem_cons_self, hk⟩
    | optional ws =>
      rcases List.mem_append.1 hw with hw | hw
      · have hmem : w ∈ ws := List.mem_of_mem_head? (Option.mem_toList.1 hw)
        exact ⟨_, List.mem_cons_self, List.mem_flatten.2 ⟨w, hmem, hk⟩⟩
      · obtain ⟨i, hi, hk⟩ := ih hw
        exact ⟨i, List.mem_cons_of_mem _ hi, hk⟩

/-- Deterministic items of whole words are found wherever a text begins with an expansion of them. -/
theorem isSome_afterItems? (hwhole : ∀ i ∈ items, ∀ k ∈ i.spellings, IsWhole k)
    (hdet : IsDeterministic items) (h : Expansion items ks) (hall : BeginsAll ks text rest) :
    (afterItems? items text).isSome := by
  induction h generalizing text with
  | nil => rfl
  | @word alternatives _ _ _ hk _ ih =>
    obtain _ | ⟨hbegins, hall⟩ := hall
    rw [List.forall_mem_cons] at hwhole
    have hany := afterAny?_of_begins (w := alternatives) hwhole.1 hk hbegins
    rw [afterItems?, hany]
    exact ih hwhole.2 hdet hall
  | kept hks _ ih =>
    obtain ⟨mid, hgroup, hall⟩ := beginsAll_append.1 hall
    rw [List.forall_mem_cons] at hwhole
    have hws := afterWords?_of_beginsAll
      (fun w hw k hk => hwhole.1 k (List.mem_flatten.2 ⟨w, hw, hk⟩)) hks hgroup
    rw [afterItems?, hws]
    exact ih hwhole.2 hdet.2 hall
  | leftOut h ih =>
    rw [List.forall_mem_cons] at hwhole
    refine isSome_of_leftOut (fun w hw k hk => hwhole.1 k ?_) (fun w hw k hk => ?_) hdet.1 h hall
      (ih hwhole.2 hdet.2 hall)
    · exact List.mem_flatten.2 ⟨w, List.mem_of_mem_head? hw, hk⟩
    · obtain ⟨i, hi, hk⟩ := mem_spellings_of_mem_firstWords hw hk
      exact hwhole.2 i hi k hk

theorem isWhole_of_isSpelled {i : PatternItem} (hi : i.IsSpelled)
    (hchars : ∀ k ∈ i.spellings, ∀ c ∈ k, isWordChar c) : ∀ k ∈ i.spellings, IsWhole k := by
  intro k hk
  refine ⟨?_, hchars k hk⟩
  cases i with
  | word alternatives =>
    have hi : SqlScript.IsSpelled alternatives := hi
    exact (hi.part k hk).1
  | optional ws =>
    obtain ⟨w, hw, hk⟩ := List.mem_flatten.1 hk
    exact ((hi.2 w hw).part k hk).1

/-- A pattern is found only where the text starts with an expansion of it. If its spellings are whole words
and it is deterministic, it is found wherever the text does. -/
theorem startsWith_expansion {source : String} {p : Pattern} (hp : parse source = .ok p)
    (text : List Char) :
    (p.startsWith text → ∃ ks rest, Expansion p.items ks ∧ BeginsAll ks text rest) ∧
    ((∀ i ∈ p.items, ∀ k ∈ i.spellings, ∀ c ∈ k, isWordChar c) → IsDeterministic p.items →
      ∀ ks rest, Expansion p.items ks → BeginsAll ks text rest → p.startsWith text) := by
  constructor
  · intro h
    obtain ⟨rest, hrest⟩ := Option.isSome_iff_exists.1 h
    obtain ⟨ks, hks, hall⟩ := exists_expansion hrest
    exact ⟨ks, rest, hks, hall⟩
  · intro hchars hdet ks rest hks hall
    have hspelled := isSpelled_of_parse hp
    exact isSome_afterItems? (fun i hi => isWhole_of_isSpelled (hspelled i hi) (hchars i hi)) hdet hks hall

/-- One group is kept and the other one left out. -/
theorem startsWith_expansion_procedure :
    let p : Pattern := ⟨"CREATE [OR REPLACE] [TEMPORARY] FUNCTION|PROCEDURE", [.word ["CREATE".toList],
      .optional [["OR".toList], ["REPLACE".toList]], .optional [["TEMPORARY".toList]],
      .word ["FUNCTION".toList, "PROCEDURE".toList]]⟩
    let text := " create or Replace\nPROCEDURE p".toList
    parse p.source = .ok p ∧ p.startsWith text ∧
      ∃ ks rest, Expansion p.items ks ∧ BeginsAll ks text rest := by
  intro p text
  have hp : parse p.source = .ok p := by decide +kernel
  obtain ⟨hsound, hcomplete⟩ := startsWith_expansion hp text
  have hks : Expansion p.items ["CREATE".toList, "OR".toList, "REPLACE".toList, "PROCEDURE".toList] := by
    have hgroup : List.Forall₂ (· ∈ ·) ["OR".toList, "REPLACE".toList] [["OR".toList], ["REPLACE".toList]] :=
      .cons List.mem_cons_self (.cons List.mem_cons_self .nil)
    exact .word List.mem_cons_self (.kept hgroup (.leftOut (.word (by simp) .nil)))
  have hcreate : Begins "CREATE".toList text " or Replace\nPROCEDURE p".toList :=
    begins_of_after? (by decide +kernel)
  have hor : Begins "OR".toList " or Replace\nPROCEDURE p".toList " Replace\nPROCEDURE p".toList :=
    begins_of_after? (by decide +kernel)
  have hreplace : Begins "REPLACE".toList " Replace\nPROCEDURE p".toList "\nPROCEDURE p".toList :=
    begins_of_after? (by decide +kernel)
  have hprocedure : Begins "PROCEDURE".toList "\nPROCEDURE p".toList " p".toList :=
    begins_of_after? (by decide +kernel)
  have hall := BeginsAll.cons hcreate (.cons hor (.cons hreplace (.cons hprocedure (.nil _))))
  have hwordChars : (p.items.flatMap (·.spellings)).flatten.all isWordChar := by decide +kernel
  have hchars : ∀ i ∈ p.items, ∀ k ∈ i.spellings, ∀ c ∈ k, isWordChar c := fun i hi k hk c hc =>
    List.all_eq_true.1 hwordChars c (List.mem_flatten.2 ⟨k, List.mem_flatMap.2 ⟨i, hi, hk⟩, hc⟩)
  have hfound : p.startsWith text := hcomplete hchars (by decide +kernel) _ _ hks hall
  exact ⟨hp, hfound, hsound hfound⟩

/-- Without a choice between them the group takes the only word, and nothing is tried again. -/
example : ¬ IsDeterministic [.optional [["A".toList]], .word ["A".toList]] ∧
    afterItems? [.optional [["A".toList]], .word ["A".toList]] "A".toList = none := by
  decide +kernel

end Pattern
end SqlScript
