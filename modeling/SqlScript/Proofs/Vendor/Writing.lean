import SqlScript.Proofs.Vendor.Grammar

/-!
# Writing patterns

The items of a pattern that has been read can be written again: the spellings of a word with bars between,
groups in brackets, one blank between words (`Pattern.written`). Written so they are read as they were
(`Pattern.parse_written`), since no spelling holds a blank, a bar or a bracket (`Pattern.isSpelled_of_parse`).
-/

namespace SqlScript
open Text

/-- Spellings that a word can have: none is empty, and what sets them off from the rest of a pattern is
in none of them. -/
structure IsSpelled (alternatives : Alternatives) : Prop where
  ne_nil : alternatives ≠ []
  part : ∀ a ∈ alternatives, a ≠ [] ∧ ∀ c ∈ a, isBlank c = false ∧ c ∉ ['|', '[', ']']

namespace PatternItem

def IsSpelled : PatternItem → Prop
  | word alternatives => SqlScript.IsSpelled alternatives
  | optional ws => ws ≠ [] ∧ ∀ w ∈ ws, SqlScript.IsSpelled w

/-- The spellings with bars between. -/
def barred (alternatives : Alternatives) : List Char :=
  ['|'].intercalate alternatives

/-- The item as a pattern has it. -/
def written : PatternItem → List Char
  | word alternatives => barred alternatives
  | optional ws => '[' :: ([' '].intercalate (ws.map barred) ++ [']'])

def sourceItem : PatternItem → SourceItem
  | word alternatives => .word (barred alternatives)
  | optional ws => .group (ws.map barred)

end PatternItem

/-- The items with a blank between two of them. -/
def Pattern.written (items : List PatternItem) : String :=
  String.ofList ([' '].intercalate (items.map (·.written)))

namespace IsSpelled
open PatternItem
variable {alternatives : Alternatives}

theorem spellings_barred (h : IsSpelled alternatives) : spellings (barred alternatives) = alternatives := by
  have hbar : ∀ a ∈ alternatives, '|' ∉ a := fun a ha hmem => ((h.part a ha).2 _ hmem).2 (by simp)
  rw [spellings, barred, List.splitOn_intercalate '|' hbar h.ne_nil, List.filter_eq_self]
  intro a ha
  simpa using (h.part a ha).1

theorem of_mem_barred (h : IsSpelled alternatives) {c : Char} (hc : c ∈ barred alternatives) :
    isBlank c = false ∧ c ≠ '[' ∧ c ≠ ']' := by
  rcases mem_intercalate hc with hbar | ⟨a, ha, hc⟩
  · rw [List.mem_singleton] at hbar
    subst hbar
    decide
  · have hpart := (h.part a ha).2 c hc
    exact ⟨hpart.1, fun hc => hpart.2 (by simp [hc]), fun hc => hpart.2 (by simp [hc])⟩

theorem isBareWord_barred (h : IsSpelled alternatives) : IsBareWord (barred alternatives) where
  opening hc := (h.of_mem_barred hc).2.1 rfl
  closing hc := (h.of_mem_barred hc).2.2 rfl
  spellings := by rw [h.spellings_barred]; exact h.ne_nil

end IsSpelled

namespace Pattern
open PatternItem

theorem words_closedGroup {bares : List (List Char)} (hne : bares ≠ [])
    (hbares : ∀ w ∈ bares, w ≠ [] ∧ ∀ c ∈ w, isBlank c = false) :
    words ([' '].intercalate bares ++ [']']) = closedGroup bares := by
  induction bares with
  | nil => exact absurd rfl hne
  | cons w bares ih =>
    obtain ⟨hw, hbares⟩ := List.forall_mem_cons.1 hbares
    cases bares with
    | nil =>
      rw [List.intercalate_singleton]
      refine words_eq_singleton (by simp) fun c hc => ?_
      rcases List.mem_append.1 hc with hc | hc
      · exact hw.2 c hc
      · rw [List.mem_singleton.1 hc]; decide
    | cons w' bares =>
      rw [List.intercalate_cons_cons, List.append_assoc, List.append_assoc, List.singleton_append,
        words_append_cons (c := ' ') (by decide), ih (List.cons_ne_nil _ _) hbares,
        words_eq_singleton hw.1 hw.2]
      rfl

theorem words_bracketedGroup {bares : List (List Char)} (hne : bares ≠ [])
    (hbares : ∀ w ∈ bares, w ≠ [] ∧ ∀ c ∈ w, isBlank c = false) :
    words ('[' :: ([' '].intercalate bares ++ [']'])) = bracketedGroup bares := by
  obtain ⟨w, bares, rfl⟩ := List.exists_cons_of_ne_nil hne
  obtain ⟨hw, hbares⟩ := List.forall_mem_cons.1 hbares
  have hopened : ∀ u ∈ ('[' :: w) :: bares, u ≠ [] ∧ ∀ c ∈ u, isBlank c = false :=
    List.forall_mem_cons.2 ⟨⟨List.cons_ne_nil _ _, List.forall_mem_cons.2 ⟨by decide, hw.2⟩⟩, hbares⟩
  have hgroup := words_closedGroup (List.cons_ne_nil _ _) hopened
  cases bares <;> exact hgroup

end Pattern

namespace PatternItem
variable {i : PatternItem}

theorem IsSpelled.words_written (h : i.IsSpelled) : words i.written = i.sourceItem.words := by
  cases i with
  | word alternatives =>
    have h : SqlScript.IsSpelled alternatives := h
    exact words_eq_singleton h.isBareWord_barred.ne_nil fun c hc => (h.of_mem_barred hc).1
  | optional ws =>
    refine Pattern.words_bracketedGroup (by simpa using h.1) ?_
    rw [List.forall_mem_map]
    exact fun w hw => ⟨(h.2 w hw).isBareWord_barred.ne_nil, fun c hc => ((h.2 w hw).of_mem_barred hc).1⟩

theorem IsSpelled.isFormed_sourceItem (h : i.IsSpelled) : i.sourceItem.IsFormed := by
  cases i with
  | word alternatives => exact SqlScript.IsSpelled.isBareWord_barred h
  | optional ws =>
    refine ⟨by simpa using h.1, ?_⟩
    rw [List.forall_mem_map]
    exact fun w hw => (h.2 w hw).isBareWord_barred

theorem IsSpelled.item_sourceItem (h : i.IsSpelled) : i.sourceItem.item = i := by
  cases i with
  | word alternatives => exact congrArg word (SqlScript.IsSpelled.spellings_barred h)
  | optional ws =>
    refine congrArg optional ?_
    rw [List.map_map]
    exact (List.map_congr_left fun w hw => (h.2 w hw).spellings_barred).trans (List.map_id ws)

end PatternItem

theorem IsBareWord.isSpelled {w : List Char} (hw : IsBareWord w) (hblank : ∀ c ∈ w, isBlank c = false) :
    IsSpelled (SqlScript.spellings w) where
  ne_nil := hw.spellings
  part a ha := by
    obtain ⟨hmem, hne⟩ := List.mem_filter.1 ha
    rw [List.splitOn_eq_splitOnP] at hmem
    obtain ⟨hsub, hbar⟩ := mem_splitOnP hmem
    refine ⟨by simpa using hne, fun c hc => ⟨hblank c (hsub hc), ?_⟩⟩
    have hopen : c ≠ '[' := fun h => hw.opening (h ▸ hsub hc)
    have hclose : c ≠ ']' := fun h => hw.closing (h ▸ hsub hc)
    simpa [hopen, hclose] using hbar c hc

namespace Pattern
variable {source : String} {p : Pattern} {items : List PatternItem}

theorem Row.isSpelled {raws : List (List Char)} {row : List SourceItem} (h : Row raws items row)
    (hraws : ∀ raw ∈ raws, ∀ c ∈ raw, isBlank c = false) : ∀ i ∈ items, i.IsSpelled := by
  obtain ⟨hformed, rfl, rfl⟩ := h
  rw [List.forall_mem_map]
  intro i hi
  have hwords : ∀ raw ∈ i.words, ∀ c ∈ raw, isBlank c = false := fun raw hraw =>
    hraws raw (List.mem_flatMap.2 ⟨i, hi, hraw⟩)
  cases i with
  | word w => exact (hformed _ hi).isSpelled (hwords w (List.mem_singleton_self w))
  | group ws =>
    obtain ⟨hne, hbares⟩ := hformed _ hi
    refine ⟨by simpa using hne, ?_⟩
    rw [List.forall_mem_map]
    intro w hw
    obtain ⟨raw, hraw, hsub⟩ := mem_bracketedGroup hw
    exact (hbares w hw).isSpelled fun c hc => hwords raw hraw c (hsub hc)

theorem isSpelled_of_parse (h : parse source = .ok p) : ∀ i ∈ p.items, i.IsSpelled := by
  obtain ⟨-, row, hrow, -⟩ := parse_eq_ok_iff.1 h
  exact hrow.isSpelled fun raw hraw => (mem_words hraw).2.2

/-- Items that can be written are read from there. -/
theorem parse_written (hitems : ∀ i ∈ items, i.IsSpelled) (hword : items.any (·.isWord)) :
    parse (written items) = .ok ⟨written items, items⟩ := by
  have hrow : Row (words (written items).toList) items (items.map (·.sourceItem)) := by
    refine ⟨?_, ?_, ?_⟩
    · rw [List.forall_mem_map]
      exact fun i hi => (hitems i hi).isFormed_sourceItem
    · rw [written, String.toList_ofList, words_intercalate, List.flatMap_map, List.flatMap_map]
      rw [List.flatMap_def, List.flatMap_def, List.map_congr_left fun i hi => (hitems i hi).words_written]
    · rw [List.map_map]
      exact ((List.map_congr_left fun i hi => (hitems i hi).item_sourceItem).trans (List.map_id items)).symm
  exact parse_eq_ok_iff.2 ⟨rfl, _, hrow, hrow.any_isWord.1 hword⟩

/-- A pattern is read exactly where its words are a row of items with a word among them. The items read
are these without the empty spellings, and writing them gives a pattern with the same items. -/
theorem parse_accepts_rows (source : String) :
    (∀ p, parse source = .ok p ↔ p.source = source ∧
      ∃ row, Row (words source.toList) p.items row ∧ ∃ w, SourceItem.word w ∈ row) ∧
    ∀ p, parse source = .ok p → parse (written p.items) = .ok ⟨written p.items, p.items⟩ := by
  refine ⟨fun p => parse_eq_ok_iff, fun p h => ?_⟩
  obtain ⟨-, row, hrow, hw⟩ := parse_eq_ok_iff.1 h
  exact parse_written (isSpelled_of_parse h) (hrow.any_isWord.2 hw)

/-- Empty spellings at both ends of a word, and a group of one word. -/
theorem parse_accepts_rows_trigger :
    let p : Pattern := ⟨"CREATE  [|OR||] TRIGGER|VIEW|", [.word ["CREATE".toList], .optional [["OR".toList]],
      .word ["TRIGGER".toList, "VIEW".toList]]⟩
    parse p.source = .ok p ∧ Row (words p.source.toList) p.items
        [.word "CREATE".toList, .group ["|OR||".toList], .word "TRIGGER|VIEW|".toList] ∧
      parse "CREATE [OR] TRIGGER|VIEW" = .ok ⟨"CREATE [OR] TRIGGER|VIEW", p.items⟩ := by
  intro p
  obtain ⟨hread, hwritten⟩ := parse_accepts_rows p.source
  have hrow : Row (words p.source.toList) p.items
      [.word "CREATE".toList, .group ["|OR||".toList], .word "TRIGGER|VIEW|".toList] := by
    refine ⟨?_, by decide +kernel, by decide +kernel⟩
    have hgroup : ∀ w ∈ ["|OR||".toList], IsBareWord w := List.forall_mem_singleton.2 (by decide)
    simp only [List.forall_mem_cons]
    exact ⟨(by decide : IsBareWord _), ⟨List.cons_ne_nil _ _, hgroup⟩, (by decide : IsBareWord _), nofun⟩
  have hp : parse p.source = .ok p := (hread p).2 ⟨rfl, _, hrow, "CREATE".toList, by simp⟩
  exact ⟨hp, hrow, hwritten p hp⟩

end Pattern
end SqlScript
