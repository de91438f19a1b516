import SqlScript.Proofs.Text.Words
import SqlScript.Vendor.Pattern

/-!
# The grammar of keyword patterns

A pattern is written as a row of items, each a word or a group of words with a bracket glued to its first
and one to its last word. `Pattern.readItems` reads exactly such rows (`Pattern.readItems_eq_ok_iff`), so
`Pattern.parse` accepts exactly the rows with a word among the items (`Pattern.parse_eq_ok_iff`).
-/

namespace SqlScript
open Text

/-- The parts of a word between bars, the empty ones left out. -/
def spellings (word : List Char) : Alternatives :=
  (word.splitOn '|').filter (!·.isEmpty)

/-- A word without brackets that has a spelling. -/
structure IsBareWord (word : List Char) : Prop where
  opening : '[' ∉ word
  closing : ']' ∉ word
  spellings : spellings word ≠ []

instance (word : List Char) : Decidable (IsBareWord word) :=
  decidable_of_iff ('[' ∉ word ∧ ']' ∉ word ∧ spellings word ≠ [])
    ⟨fun h => ⟨h.1, h.2.1, h.2.2⟩, fun h => ⟨h.opening, h.closing, h.spellings⟩⟩

/-- The words with a bracket at the end of the last one. -/
def closedGroup : List (List Char) → List (List Char)
  | [] => []
  | [w] => [w ++ [']']]
  | w :: w' :: ws => w :: closedGroup (w' :: ws)

/-- The words with a bracket in front of the first and one at the end of the last one. -/
def bracketedGroup (ws : List (List Char)) : List (List Char) :=
  (closedGroup ws).modifyHead ('[' :: ·)

/-- An item of a pattern as its source has it, the brackets apart. -/
inductive SourceItem
  | word (bare : List Char)
  | group (bares : List (List Char))

namespace SourceItem

def IsFormed : SourceItem → Prop
  | word w => IsBareWord w
  | group ws => ws ≠ [] ∧ ∀ w ∈ ws, IsBareWord w

/-- The words of the source that the item takes up. -/
def words : SourceItem → List (List Char)
  | word w => [w]
  | group ws => bracketedGroup ws

def item : SourceItem → PatternItem
  | word w => .word (spellings w)
  | group ws => .optional (ws.map spellings)

end SourceItem

namespace Pattern

theorem barParts_eq (word : List Char) : barParts word = spellings word := by
  rw [barParts, cutFrom_eq (f := barPartsFrom) (p := (· == '|')) (fun _ => rfl)
    (fun _ _ _ => by rw [barPartsFrom]; simp only [beq_iff_eq]), spellings, List.splitOn_eq_splitOnP]
  cases word.splitOnP (· == '|') <;> rfl

end Pattern

theorem mem_closedGroup {ws : List (List Char)} {w : List Char} (hw : w ∈ ws) :
    ∃ raw ∈ closedGroup ws, w ⊆ raw := by
  induction ws with
  | nil => cases hw
  | cons v ws ih =>
    cases ws with
    | nil =>
      rw [List.mem_singleton.1 hw]
      exact ⟨_, List.mem_singleton_self _, List.subset_append_left v _⟩
    | cons v' ws =>
      rcases List.mem_cons.1 hw with rfl | hw
      · exact ⟨w, List.mem_cons_self, List.Subset.refl w⟩
      · obtain ⟨raw, hraw, hsub⟩ := ih hw
        exact ⟨raw, List.mem_cons_of_mem v hraw, hsub⟩

theorem mem_bracketedGroup {ws : List (List Char)} {w : List Char} (hw : w ∈ ws) :
    ∃ raw ∈ bracketedGroup ws, w ⊆ raw := by
  obtain ⟨raw, hraw, hsub⟩ := mem_closedGroup hw
  rw [bracketedGroup]
  cases hgroup : closedGroup ws with
  | nil =>
    rw [hgroup] at hraw
    cases hraw
  | cons first more =>
    rw [hgroup] at hraw
    rcases List.mem_cons.1 hraw with rfl | hraw
    · exact ⟨_, List.mem_cons_self, List.subset_cons_of_subset '[' hsub⟩
    · exact ⟨raw, List.mem_cons_of_mem _ hraw, hsub⟩

namespace IsBareWord
variable {w : List Char}

theorem ne_nil (h : IsBareWord w) : w ≠ [] := by
  rintro rfl
  exact h.spellings rfl

theorem head?_ne (h : IsBareWord w) : w.head? ≠ some '[' :=
  fun hw => h.opening (List.mem_of_mem_head? hw)

theorem getLast?_ne (h : IsBareWord w) : w.getLast? ≠ some ']' :=
  fun hw => h.closing (List.mem_of_mem_getLast? hw)

end IsBareWord

namespace Pattern
variable {w raw : List Char} {grouped : Bool} {raws : List (List Char)} {items : List PatternItem}

/-- The word with the brackets that a word of the source has at its ends. -/
def glued (opens closes : Bool) (w : List Char) : List Char :=
  (if opens then '[' :: w else w) ++ if closes then [']'] else []

theorem glued_bare (w : List Char) : glued false false w = w :=
  List.append_nil w

theorem glued_open (closes : Bool) (w : List Char) : glued true closes w = '[' :: glued false closes w :=
  rfl

theorem head?_glued (hw : IsBareWord w) (opens closes : Bool) :
    (glued opens closes w).head? = some '[' ↔ opens = true := by
  obtain ⟨c, more, rfl⟩ := List.exists_cons_of_ne_nil hw.ne_nil
  have hc := hw.head?_ne
  cases opens <;> simp_all [glued]

theorem getLast?_glued (hw : IsBareWord w) (closes : Bool) :
    (glued false closes w).getLast? = some ']' ↔ closes = true := by
  have hlast := hw.getLast?_ne
  cases closes <;> simp_all [glued]

theorem read_glued (hw : IsBareWord w) (grouped opens closes : Bool) (hopens : opens → grouped = false) :
    SourceWord.read grouped (glued opens closes w) = .ok ⟨opens, closes, spellings w⟩ := by
  have htail : (if opens then (glued opens closes w).tail else glued opens closes w) =
      glued false closes w := by
    cases opens <;> simp [glued]
  have hinner : (if closes then (glued false closes w).dropLast else glued false closes w) = w := by
    cases closes <;> simp [glued]
  have hgrouped : (opens && grouped) = false := by
    cases opens
    · rfl
    · exact hopens rfl
  unfold SourceWord.read
  simp only [head?_glued hw, htail, getLast?_glued hw, hinner, Bool.decide_eq_true, hgrouped]
  simp [hw.opening, hw.closing, barParts_eq, hw.spellings]

theorem eq_glued (raw : List Char) : ∃ w, raw = glued false (raw.getLast? = some ']') w ∧
    (if raw.getLast? = some ']' then raw.dropLast else raw) = w := by
  refine ⟨_, ?_, rfl⟩
  by_cases hlast : raw.getLast? = some ']'
  · obtain ⟨init, rfl⟩ := List.getLast?_eq_some_iff.1 hlast
    simp [glued]
  · simp [glued, hlast]

theorem exists_glued_of_read {sw : SourceWord} (h : SourceWord.read grouped raw = .ok sw) :
    ∃ w, IsBareWord w ∧ raw = glued sw.opens sw.closes w ∧ sw.alternatives = spellings w ∧
      (sw.opens → grouped = false) := by
  simp only [SourceWord.read] at h
  generalize hinner : (if raw.head? = some '[' then raw.tail else raw) = inner at h
  obtain ⟨w, hglued, hw⟩ := eq_glued inner
  simp only [hw] at h
  split at h
  · cases h
  split at h
  · cases h
  split at h
  · cases h
  next hgrouped hbare hspell =>
  cases h
  simp only [List.contains_eq_mem, Bool.or_eq_true, decide_eq_true_eq, not_or] at hbare
  refine ⟨w, ⟨hbare.1, hbare.2, ?_⟩, ?_, barParts_eq w, ?_⟩
  · rwa [barParts_eq, List.isEmpty_iff] at hspell
  · by_cases hopens : raw.head? = some '['
    · obtain ⟨rest, rfl⟩ := List.head?_eq_some_iff.1 hopens
      obtain rfl : rest = inner := hinner
      simp only [hopens, decide_true]
      exact congrArg ('[' :: ·) hglued
    · rw [if_neg hopens] at hinner
      subst hinner
      simpa only [hopens, decide_false] using hglued
  · intro hopens
    simp only [decide_eq_true_eq] at hopens
    simpa [hopens] using hgrouped

theorem readItems_cons (group : Option (List Alternatives)) {sw : SourceWord}
    (h : SourceWord.read group.isSome raw = .ok sw) :
    readItems group (raw :: raws) =
      (if sw.opens then some [] else group).elim
        (if sw.closes then .error .unmatchedClose
          else (readItems none raws).map (.word sw.alternatives :: ·))
        fun ws =>
          if sw.closes then (readItems none raws).map (.optional (sw.alternatives :: ws).reverse :: ·)
          else readItems (some (sw.alternatives :: ws)) raws := by
  rw [readItems, h]
  cases hgroup : if sw.opens then some [] else group <;> simp only [hgroup, Option.elim]

section
variable {group : Option (List Alternatives)} (raws : List (List Char))

/-- A word that can be read has a bracket in front only outside groups, and one at the end only where it
closes a group. -/
theorem exists_glued_of_readItems (h : readItems group (raw :: raws) = .ok items) :
    ∃ w opens closes, IsBareWord w ∧ raw = glued opens closes w ∧ (opens → group = none) ∧
      (closes → opens ∨ group ≠ none) := by
  cases hread : SourceWord.read group.isSome raw with
  | error e =>
    rw [readItems, hread] at h
    cases h
  | ok sw =>
    obtain ⟨w, hw, hraw, -, hopens⟩ := exists_glued_of_read hread
    rw [readItems_cons group hread] at h
    refine ⟨w, sw.opens, sw.closes, hw, hraw, fun ho => by simpa using hopens ho, fun hc => ?_⟩
    cases hopens' : sw.opens with
    | true => exact .inl rfl
    | false =>
      refine .inr fun hnone => ?_
      rw [hopens', hnone, hc] at h
      cases h

theorem readItems_word (hw : IsBareWord w) :
    readItems none (w :: raws) = (readItems none raws).map (.word (spellings w) :: ·) := by
  have hread := read_glued hw false false false nofun
  rw [glued_bare] at hread
  exact readItems_cons none hread

/-- A bracket in front of a word opens a group of which nothing has been read yet. -/
theorem readItems_open (hw : IsBareWord w) (closes : Bool) :
    readItems none (glued true closes w :: raws) = readItems (some []) (glued false closes w :: raws) := by
  rw [readItems_cons none (read_glued hw false true closes fun _ => rfl),
    readItems_cons (some []) (read_glued hw true false closes nofun)]
  rfl

theorem readItems_some (hw : IsBareWord w) (ws : List Alternatives) :
    readItems (some ws) (w :: raws) = readItems (some (spellings w :: ws)) raws := by
  have hread := read_glued hw true false false nofun
  rw [glued_bare] at hread
  exact readItems_cons (some ws) hread

theorem readItems_close (hw : IsBareWord w) (ws : List Alternatives) :
    readItems (some ws) ((w ++ [']']) :: raws) =
      (readItems none raws).map (.optional (ws.reverse ++ [spellings w]) :: ·) := by
  have hread := read_glued hw true false true nofun
  rw [← List.reverse_cons]
  exact readItems_cons (some ws) hread

end

theorem closedGroup_cons {bares : List (List Char)} (hne : bares ≠ []) (w : List Char) :
    closedGroup (w :: bares) = w :: closedGroup bares := by
  obtain ⟨w', bares, rfl⟩ := List.exists_cons_of_ne_nil hne
  rfl

/-- Where a group is open, the rest of its words comes first, through the one that closes it. -/
theorem readItems_closedGroup {bares : List (List Char)} (hne : bares ≠ [])
    (hbares : ∀ w ∈ bares, IsBareWord w) (ws : List Alternatives) (raws : List (List Char)) :
    readItems (some ws) (closedGroup bares ++ raws) =
      (readItems none raws).map (.optional (ws.reverse ++ bares.map spellings) :: ·) := by
  induction bares generalizing ws with
  | nil => exact absurd rfl hne
  | cons w bares ih =>
    rw [List.forall_mem_cons] at hbares
    by_cases hlast : bares = []
    · subst hlast
      exact readItems_close raws hbares.1 ws
    · rw [closedGroup_cons hlast, List.cons_append, readItems_some _ hbares.1, ih hlast hbares.2]
      simp

theorem closedGroup_ne_nil {bares : List (List Char)} (hne : bares ≠ []) : closedGroup bares ≠ [] := by
  obtain ⟨w, bares, rfl⟩ := List.exists_cons_of_ne_nil hne
  cases bares <;> exact List.cons_ne_nil _ _

theorem bracketedGroup_append {bares : List (List Char)} (hne : bares ≠ []) (raws : List (List Char)) :
    bracketedGroup bares ++ raws = (closedGroup bares ++ raws).modifyHead ('[' :: ·) := by
  obtain ⟨w, ws, hws⟩ := List.exists_cons_of_ne_nil (closedGroup_ne_nil hne)
  rw [bracketedGroup, hws]
  rfl

theorem exists_closedGroup_append {bares : List (List Char)} (hne : bares ≠ [])
    (hbares : ∀ w ∈ bares, IsBareWord w) (raws : List (List Char)) :
    ∃ closes w raws', IsBareWord w ∧ closedGroup bares ++ raws = glued false closes w :: raws' := by
  obtain ⟨w, bares, rfl⟩ := List.exists_cons_of_ne_nil hne
  have hw := hbares w List.mem_cons_self
  cases bares with
  | nil => exact ⟨true, w, raws, hw, rfl⟩
  | cons w' bares => exact ⟨false, w, closedGroup (w' :: bares) ++ raws, hw, by rw [glued_bare]; rfl⟩

theorem readItems_bracketedGroup {bares : List (List Char)} (hne : bares ≠ [])
    (hbares : ∀ w ∈ bares, IsBareWord w) (raws : List (List Char)) :
    readItems none (bracketedGroup bares ++ raws) =
      (readItems none raws).map (.optional (bares.map spellings) :: ·) := by
  obtain ⟨closes, w, raws', hw, hraws⟩ := exists_closedGroup_append hne hbares raws
  have hgroup := readItems_closedGroup hne hbares [] raws
  rw [hraws, ← readItems_open raws' hw] at hgroup
  rw [bracketedGroup_append hne, hraws]
  exact hgroup

/-- The items as the source has them take up the words of the source and are the items read. -/
structure Row (raws : List (List Char)) (items : List PatternItem) (source : List SourceItem) : Prop where
  formed : ∀ i ∈ source, i.IsFormed
  words : raws = source.flatMap (·.words)
  items : items = source.map (·.item)

theorem Row.cons {source : List SourceItem} (h : Row raws items source) {i : SourceItem} (hi : i.IsFormed) :
    Row (i.words ++ raws) (i.item :: items) (i :: source) where
  formed := List.forall_mem_cons.2 ⟨hi, h.formed⟩
  words := by rw [h.words, List.flatMap_cons]
  items := by rw [h.items, List.map_cons]

theorem Row.readItems {source : List SourceItem} (h : Row raws items source) :
    readItems none raws = .ok items := by
  obtain ⟨hformed, rfl, rfl⟩ := h
  induction source with
  | nil => rfl
  | cons i source ih =>
    obtain ⟨hi, hsource⟩ := List.forall_mem_cons.1 hformed
    rw [List.flatMap_cons, List.map_cons]
    cases i with
    | word w =>
      rw [SourceItem.words, List.singleton_append, readItems_word _ hi, ih hsource]
      rfl
    | group ws =>
      rw [SourceItem.words, readItems_bracketedGroup hi.1 hi.2, ih hsource]
      rfl

theorem exists_of_map_eq_ok {ε α β : Type} {x : Except ε α} {f : α → β} {y : β} (h : x.map f = .ok y) :
    ∃ z, x = .ok z ∧ f z = y := by
  cases x with
  | error e => cases h
  | ok z => exact ⟨z, rfl, Except.ok.inj h⟩

/-- What is read where a group is open is the rest of the group and a row of items behind it. -/
theorem exists_closedGroup_of_readItems {raws : List (List Char)}
    (ih : ∀ raws', raws'.length < raws.length → ∀ {items}, readItems none raws' = .ok items →
      ∃ source, Row raws' items source) {ws : List Alternatives}
    (h : readItems (some ws) raws = .ok items) : ∃ bares raws' items' source,
      bares ≠ [] ∧ (∀ w ∈ bares, IsBareWord w) ∧ raws = closedGroup bares ++ raws' ∧
      items = .optional (ws.reverse ++ bares.map spellings) :: items' ∧ Row raws' items' source := by
  induction raws generalizing ws with
  | nil => cases h
  | cons raw raws ihGroup =>
    obtain ⟨w, opens, closes, hw, rfl, hopens, -⟩ := exists_glued_of_readItems raws h
    obtain rfl : opens = false := by
      cases opens with
      | false => rfl
      | true => exact absurd (hopens rfl) nofun
    cases closes with
    | true =>
      obtain ⟨items, hitems, rfl⟩ := exists_of_map_eq_ok ((readItems_close raws hw ws).symm.trans h)
      obtain ⟨source, hrow⟩ := ih raws (Nat.lt_succ_self _) hitems
      exact ⟨[w], raws, items, source, List.cons_ne_nil w [], List.forall_mem_singleton.2 hw, rfl, rfl, hrow⟩
    | false =>
      rw [glued_bare] at h ⊢
      rw [readItems_some raws hw] at h
      obtain ⟨bares, raws', items', source, hne, hbares, rfl, rfl, hrow⟩ :=
        ihGroup (fun raws' hlt => ih raws' (Nat.lt_succ_of_lt hlt)) h
      refine ⟨w :: bares, raws', items', source, List.cons_ne_nil w bares,
        List.forall_mem_cons.2 ⟨hw, hbares⟩, ?_, by simp, hrow⟩
      rw [closedGroup_cons hne]
      rfl

theorem exists_row_of_readItems {raws : List (List Char)} {items : List PatternItem}
    (h : readItems none raws = .ok items) : ∃ source, Row raws items source := by
  induction hn : raws.length using Nat.strongRecOn generalizing raws items with
  | ind n ih =>
    subst hn
    cases raws with
    | nil =>
      cases h
      exact ⟨[], List.forall_mem_nil _, rfl, rfl⟩
    | cons raw raws =>
      obtain ⟨w, opens, closes, hw, rfl, -, hcloses⟩ := exists_glued_of_readItems raws h
      cases opens with
      | true =>
        rw [readItems_open raws hw] at h
        obtain ⟨bares, raws', items', source, hne, hbares, hraws, rfl, hrow⟩ :=
          exists_closedGroup_of_readItems (fun raws' hlt _ h => ih _ (by simpa using hlt) h rfl) h
        have hwords : glued true closes w :: raws = bracketedGroup bares ++ raws' := by
          rw [bracketedGroup_append hne, ← hraws]
          rfl
        rw [hwords]
        exact ⟨_, hrow.cons (i := .group bares) ⟨hne, hbares⟩⟩
      | false =>
        obtain rfl : closes = false := by
          cases closes with
          | false => rfl
          | true => exact absurd (hcloses rfl) (by simp)
        rw [glued_bare] at h ⊢
        rw [readItems_word raws hw] at h
        obtain ⟨items, hitems, rfl⟩ := exists_of_map_eq_ok h
        obtain ⟨source, hrow⟩ := ih _ (Nat.lt_succ_self _) hitems rfl
        exact ⟨_, hrow.cons (i := .word w) hw⟩

theorem readItems_eq_ok_iff {raws : List (List Char)} :
    readItems none raws = .ok items ↔ ∃ source, Row raws items source :=
  ⟨exists_row_of_readItems, fun ⟨_, h⟩ => h.readItems⟩

theorem Row.any_isWord {source : List SourceItem} (h : Row raws items source) :
    items.any (·.isWord) ↔ ∃ w, SourceItem.word w ∈ source := by
  rw [h.items, List.any_map, List.any_eq_true]
  constructor
  · rintro ⟨i, hi, hword⟩
    cases i with
    | word w => exact ⟨w, hi⟩
    | group ws => cases hword
  · rintro ⟨w, hw⟩
    exact ⟨_, hw, rfl⟩

theorem parse_eq_ok {source : String} {p : Pattern} : parse source = .ok p ↔
    p.source = source ∧ readItems none (words source.toList) = .ok p.items ∧ p.items.any (·.isWord) := by
  rw [parse]
  cases hread : readItems none (words source.toList) with
  | error fault => simp
  | ok items =>
    by_cases hword : items.any (·.isWord)
    · simp only [hword, if_true, Except.ok.injEq]
      constructor
      · rintro rfl
        exact ⟨rfl, rfl, hword⟩
      · rintro ⟨rfl, rfl, -⟩
        rfl
    · simp only [hword, Except.ok.injEq]
      refine ⟨nofun, ?_⟩
      rintro ⟨-, rfl, hword'⟩
      exact absurd hword' hword

/-- A pattern is read exactly where its words are a row of items with a word among them. -/
theorem parse_eq_ok_iff {source : String} {p : Pattern} : parse source = .ok p ↔
    p.source = source ∧ ∃ row, Row (words source.toList) p.items row ∧ ∃ w, SourceItem.word w ∈ row := by
  rw [parse_eq_ok, readItems_eq_ok_iff]
  refine and_congr_right fun _ => ⟨?_, ?_⟩
  · rintro ⟨⟨row, hrow⟩, hword⟩
    exact ⟨row, hrow, hrow.any_isWord.1 hword⟩
  · rintro ⟨row, hrow, hword⟩
    exact ⟨⟨row, hrow⟩, hrow.any_isWord.2 hword⟩

end Pattern
end SqlScript
