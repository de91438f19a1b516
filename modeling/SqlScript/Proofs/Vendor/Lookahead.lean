import SqlScript.Proofs.Lexing.Basic
import SqlScript.Proofs.Text.Blank
import SqlScript.Proofs.Text.Character

/-!
# How far a classification looks

Whether a statement starts a procedural block is read off keywords. Two texts are alike to what stands
before them if no keyword can reach into them or begin in them, and the same words end before them
(`Keyword.Alike`): the classification of a text is then the same before both
(`Vendor.isProceduralStart_alike`). So a text that seals (`Keyword.Seals`) does not show at all
(`Vendor.isProceduralStart_append`). What ends a unit seals, and behind the first character of a literal
or a comment all texts are alike (`Keyword.alike_cons`).
-/

namespace SqlScript
open Text

namespace Keyword

/-- Some keyword of a built-in vendor begins with the letter, in either case. -/
def isInitial (c : Char) : Bool :=
  "abcdeflnoprt".toList.contains (foldAscii c)

/-- A whole word that begins with one of those letters. -/
structure IsKeyword (keyword : List Char) : Prop where
  word : ∀ c ∈ keyword, isWordChar c ∧ c ≠ '$'
  initial : ∃ c ∈ keyword.head?, isInitial c

instance (keyword : List Char) : Decidable (IsKeyword keyword) :=
  decidable_of_iff (keyword.all (fun c => isWordChar c && c != '$') ∧ keyword.head?.any isInitial)
    ⟨fun h => ⟨by simpa using h.1, by simpa [Option.any_eq_true] using h.2⟩,
      fun h => ⟨by simpa using h.word, by simpa [Option.any_eq_true] using h.initial⟩⟩

/-- No keyword reaches into the text or begins in it, nor does a dollar-quoted literal. -/
structure Seals (z : List Char) : Prop where
  word : EndsWord z
  visible : ∀ c ∈ (trimStart z).head?, isInitial c = false ∧ c ≠ '$'

/-- No keyword goes on in the text or begins in it. -/
structure Silent (z : List Char) : Prop where
  head : ∀ c ∈ z.head?, isWordChar c → c = '$'
  visible : ∀ c ∈ (trimStart z).head?, isInitial c = false

/-- No keyword before the two texts tells them apart. -/
structure Alike (z z' : List Char) : Prop where
  left : Silent z
  right : Silent z'
  word : z.head? = some '$' ↔ z'.head? = some '$'
  dollar : (trimStart z).head? = some '$' ↔ (trimStart z').head? = some '$'

theorem dropIgnoringCase_append {z : List Char} (hz : Silent z)
    {k : List Char} (hk : ∀ c ∈ k, isWordChar c ∧ c ≠ '$') (t : List Char) :
    dropIgnoringCase k (t ++ z) = (dropIgnoringCase k t).map (· ++ z) := by
  induction k generalizing t with
  | nil => rfl
  | cons a k ih =>
    simp only [List.forall_mem_cons] at hk
    cases t with
    | cons c t =>
      simp only [List.cons_append, dropIgnoringCase]
      split
      · exact ih hk.2 t
      · rfl
    | nil =>
      cases z with
      | nil => rfl
      | cons c z =>
        have hc : foldAscii a ≠ foldAscii c := fun h => by
          have hword : isWordChar c := by
            rw [← isWordChar_foldAscii, ← h, isWordChar_foldAscii]
            exact hk.1.1
          have hdollar : (foldAscii a == '$') = (a == '$') := of_foldAscii (p := (· == '$')) (by decide) a
          rw [h, hz.head c rfl hword] at hdollar
          exact hk.1.2 (eq_of_beq hdollar.symm)
        simp [dropIgnoringCase, hc]

theorem Silent.isWordChar_head {z : List Char} (hz : Silent z) :
    (z.head?.map isWordChar).getD false = decide (z.head? = some '$') := by
  cases z with
  | nil => rfl
  | cons c z =>
    by_cases hc : c = '$'
    · subst hc; rfl
    · simpa [hc] using mt (hz.head c rfl) hc

theorem dropIgnoringCase_eq_none {k t : List Char} (hk : IsKeyword k)
    (ht : ∀ c ∈ t.head?, isInitial c = false) : dropIgnoringCase k t = none := by
  obtain ⟨a, ha, hi⟩ := hk.initial
  obtain ⟨k, rfl⟩ := List.head?_eq_some_iff.1 ha
  cases t with
  | nil => rfl
  | cons c t =>
    have hc : foldAscii a ≠ foldAscii c := fun h => by
      have := ht c rfl
      rw [isInitial, ← h, ← isInitial, hi] at this
      cases this
    simp [dropIgnoringCase, hc]

theorem after?_eq_none {k t : List Char} (hk : IsKeyword k)
    (ht : ∀ c ∈ (trimStart t).head?, isInitial c = false) : after? k t = none := by
  rw [after?, dropIgnoringCase_eq_none hk ht]

theorem afterAny?_eq_none {ks : List (List Char)} {t : List Char} (hk : ∀ k ∈ ks, IsKeyword k)
    (ht : ∀ c ∈ (trimStart t).head?, isInitial c = false) : afterAny? ks t = none :=
  List.findSome?_eq_none_iff.2 fun k hks => after?_eq_none (hk k hks) ht

variable {z z' : List Char}

namespace Alike

theorem endsHere_eq (h : Alike z z') (k t : List Char) : endsHere k (t ++ z) = endsHere k (t ++ z') := by
  cases t with
  | cons c t => rfl
  | nil =>
    simp only [endsHere, List.nil_append, h.left.isWordChar_head, h.right.isWordChar_head]
    rw [decide_eq_decide.2 h.word]

/-- What is left after a keyword is the same up to the two texts. -/
theorem after?_eq (h : Alike z z') {k : List Char} (hk : IsKeyword k) (t : List Char) :
    ∃ o : Option (List Char), after? k (t ++ z) = o.map (· ++ z) ∧ after? k (t ++ z') = o.map (· ++ z') := by
  by_cases ht : trimStart t = []
  · have hb := trimStart_eq_nil_iff.1 ht
    refine ⟨none, after?_eq_none hk ?_, after?_eq_none hk ?_⟩
    · rw [trimStart_append_of_blank hb]; exact h.left.visible
    · rw [trimStart_append_of_blank hb]; exact h.right.visible
  · rw [after?, after?, trimStart_append_of_ne ht, trimStart_append_of_ne ht,
      dropIgnoringCase_append h.left hk.word, dropIgnoringCase_append h.right hk.word]
    cases dropIgnoringCase k (trimStart t) with
    | none => exact ⟨none, rfl, rfl⟩
    | some rest =>
      simp only [Option.map_some, h.endsHere_eq k rest]
      by_cases hends : endsHere k (rest ++ z')
      · exact ⟨some rest, if_pos hends, if_pos hends⟩
      · exact ⟨none, if_neg hends, if_neg hends⟩

theorem afterAny?_eq (h : Alike z z') {ks : List (List Char)} (hk : ∀ k ∈ ks, IsKeyword k) (t : List Char) :
    ∃ o : Option (List Char), afterAny? ks (t ++ z) = o.map (· ++ z) ∧
      afterAny? ks (t ++ z') = o.map (· ++ z') := by
  induction ks with
  | nil => exact ⟨none, rfl, rfl⟩
  | cons k ks ih =>
    simp only [List.forall_mem_cons] at hk
    obtain ⟨o, ho, ho'⟩ := h.after?_eq hk.1 t
    simp only [afterAny?, List.findSome?_cons, ho, ho'] at ih ⊢
    cases o with
    | none => exact ih hk.2
    | some rest => exact ⟨some rest, rfl, rfl⟩

theorem afterAll?_eq (h : Alike z z') {ks : List (List Char)} (hk : ∀ k ∈ ks, IsKeyword k) (t : List Char) :
    ∃ o : Option (List Char), afterAll? ks (t ++ z) = o.map (· ++ z) ∧
      afterAll? ks (t ++ z') = o.map (· ++ z') := by
  induction ks generalizing t with
  | nil => exact ⟨some t, rfl, rfl⟩
  | cons k ks ih =>
    simp only [List.forall_mem_cons] at hk
    obtain ⟨o, ho, ho'⟩ := h.after?_eq hk.1 t
    simp only [afterAll?, ho, ho']
    cases o with
    | none => exact ⟨none, rfl, rfl⟩
    | some rest => exact ih hk.2 rest

theorem skip_eq (h : Alike z z') (ks : List (List Char)) (hk : ∀ k ∈ ks, IsKeyword k) (t : List Char) :
    ∃ rest, skip ks (t ++ z) = rest ++ z ∧ skip ks (t ++ z') = rest ++ z' := by
  obtain ⟨o, ho, ho'⟩ := h.afterAll?_eq hk t
  refine ⟨o.getD t, ?_, ?_⟩
  · rw [skip, ho]; cases o <;> rfl
  · rw [skip, ho']; cases o <;> rfl

theorem isSome_after?_eq (h : Alike z z') {k : List Char} (hk : IsKeyword k) (t : List Char) :
    (after? k (t ++ z)).isSome = (after? k (t ++ z')).isSome := by
  obtain ⟨o, ho, ho'⟩ := h.after?_eq hk t
  rw [ho, ho', Option.isSome_map, Option.isSome_map]

theorem isSome_afterAny?_eq (h : Alike z z') {ks : List (List Char)} (hk : ∀ k ∈ ks, IsKeyword k)
    (t : List Char) : (afterAny? ks (t ++ z)).isSome = (afterAny? ks (t ++ z')).isSome := by
  obtain ⟨o, ho, ho'⟩ := h.afterAny?_eq hk t
  rw [ho, ho', Option.isSome_map, Option.isSome_map]

theorem next?_eq_dollar (h : Alike z z') (t : List Char) :
    (next? (t ++ z) == some '$') = (next? (t ++ z') == some '$') := by
  by_cases ht : trimStart t = []
  · have hb := trimStart_eq_nil_iff.1 ht
    rw [next?, next?, trimStart_append_of_blank hb, trimStart_append_of_blank hb, Bool.eq_iff_iff,
      beq_iff_eq, beq_iff_eq, h.dollar]
  · rw [next?, next?, trimStart_append_of_ne ht, trimStart_append_of_ne ht,
      List.head?_append_of_ne_nil _ ht, List.head?_append_of_ne_nil _ ht]

end Alike

/-- Behind a visible character that goes on no keyword and begins none, all texts are alike. -/
theorem alike_cons {c : Char} (hblank : isBlank c = false) (hword : isWordChar c → c = '$')
    (hinitial : isInitial c = false) (z z' : List Char) : Alike (c :: z) (c :: z') := by
  have htrim : ∀ z, trimStart (c :: z) = c :: z := fun z => by simp [trimStart, hblank]
  have hsilent : ∀ z, Silent (c :: z) := fun z =>
    ⟨by simpa using hword, by rw [htrim]; simpa using hinitial⟩
  exact ⟨hsilent z, hsilent z', by simp, by rw [htrim, htrim]; simp⟩

theorem Seals.alike_nil (hz : Seals z) : Alike z [] where
  left := ⟨fun c hc hword => by simp [hz.word c hc] at hword, fun c hc => (hz.visible c hc).1⟩
  right := ⟨nofun, nofun⟩
  word := iff_of_false (fun h => absurd (hz.word '$' h) (by decide)) nofun
  dollar := iff_of_false (fun h => (hz.visible '$' h).2 rfl) nofun

theorem seals_nil : Seals [] := ⟨endsWord_nil, nofun⟩

/-- A visible character seals that belongs to no word and begins no literal. -/
theorem seals_cons {c : Char} (hblank : isBlank c = false) (hword : isWordChar c = false)
    (hinitial : isInitial c = false) (hc : c ≠ '$') (z : List Char) : Seals (c :: z) :=
  ⟨endsWord_cons hword z, by
    have htrim : trimStart (c :: z) = c :: z := by simp [trimStart, hblank]
    rw [htrim]
    simpa using ⟨hinitial, hc⟩⟩

theorem seals_semicolon (z : List Char) : Seals (';' :: z) :=
  seals_cons (by decide) (by decide) (by decide) (by decide) z

theorem seals_blank_append {b z : List Char} (hb : ∀ c ∈ b, isBlank c) (hne : b ≠ [])
    (hz : ∀ c ∈ (trimStart z).head?, isInitial c = false ∧ c ≠ '$') : Seals (b ++ z) := by
  obtain ⟨c, b, rfl⟩ := List.exists_cons_of_ne_nil hne
  exact ⟨endsWord_of_isBlank (hb c (by simp)) _, by rwa [trimStart_append_of_blank hb]⟩

theorem Seals.blank_append {b z : List Char} (hz : Seals z) (hb : ∀ c ∈ b, isBlank c) : Seals (b ++ z) := by
  by_cases hne : b = []
  · rwa [hne, List.nil_append]
  · exact seals_blank_append hb hne hz.visible

end Keyword

section
open Keyword
variable {z z' : List Char}

theorem Oracle.isProceduralStart_alike (h : Alike z z') (t : List Char) :
    Oracle.isProceduralStart (t ++ z) = Oracle.isProceduralStart (t ++ z') := by
  unfold Oracle.isProceduralStart
  obtain ⟨o, ho, ho'⟩ := h.after?_eq (k := "CREATE".toList) (by decide) t
  rw [h.isSome_afterAny?_eq (by decide) t, ho, ho']
  cases o with
  | none => rfl
  | some rest =>
    obtain ⟨rest₁, h₁, h₁'⟩ := h.skip_eq ["OR".toList, "REPLACE".toList] (by decide) rest
    obtain ⟨rest₂, h₂, h₂'⟩ := h.skip_eq ["EDITIONABLE".toList] (by decide) rest₁
    obtain ⟨rest₃, h₃, h₃'⟩ := h.skip_eq ["NONEDITIONABLE".toList] (by decide) rest₂
    simp only [Option.map_some, h₁, h₁', h₂, h₂', h₃, h₃']
    rw [h.isSome_afterAny?_eq (by decide) rest₃]

theorem PostgreSql.isProceduralStart_alike (h : Alike z z') (t : List Char) :
    PostgreSql.isProceduralStart (t ++ z) = PostgreSql.isProceduralStart (t ++ z') := by
  unfold PostgreSql.isProceduralStart
  obtain ⟨o, ho, ho'⟩ := h.after?_eq (k := "DO".toList) (by decide) t
  obtain ⟨p, hp, hp'⟩ := h.after?_eq (k := "CREATE".toList) (by decide) t
  rw [ho, ho', hp, hp']
  cases o with
  | some rest =>
    simp only [Option.map_some]
    rw [h.next?_eq_dollar rest, h.isSome_after?_eq (by decide) rest]
  | none =>
    cases p with
    | none => rfl
    | some rest =>
      obtain ⟨rest₁, h₁, h₁'⟩ := h.skip_eq ["OR".toList, "REPLACE".toList] (by decide) rest
      obtain ⟨rest₂, h₂, h₂'⟩ := h.skip_eq ["CONSTRAINT".toList] (by decide) rest₁
      simp only [Option.map_none, Option.map_some, h₁, h₁', h₂, h₂']
      rw [h.isSome_afterAny?_eq (by decide) rest₂]

theorem SqlServer.isProceduralStart_alike (h : Alike z z') (t : List Char) :
    SqlServer.isProceduralStart (t ++ z) = SqlServer.isProceduralStart (t ++ z') := by
  unfold SqlServer.isProceduralStart
  obtain ⟨o, ho, ho'⟩ := h.after?_eq (k := "CREATE".toList) (by decide) t
  obtain ⟨p, hp, hp'⟩ := h.after?_eq (k := "ALTER".toList) (by decide) t
  rw [ho, ho', hp, hp']
  cases o with
  | some rest =>
    obtain ⟨rest₁, h₁, h₁'⟩ := h.skip_eq ["OR".toList, "ALTER".toList] (by decide) rest
    simp only [Option.map_some, h₁, h₁']
    rw [h.isSome_afterAny?_eq (by decide) rest₁]
  | none =>
    cases p with
    | none => rfl
    | some rest =>
      simp only [Option.map_none, Option.map_some]
      rw [h.isSome_afterAny?_eq (by decide) rest]

/-- Texts that are alike to keywords do not show in the classification of what stands before them. -/
theorem Vendor.isProceduralStart_alike {v : Vendor} (hv : v ∈ Vendor.plainBuiltins) (h : Alike z z')
    (t : List Char) : v.isProceduralStart (t ++ z) = v.isProceduralStart (t ++ z') := by
  rcases Vendor.mem_plainBuiltins.1 hv with rfl | rfl | rfl
  · exact Oracle.isProceduralStart_alike h t
  · exact PostgreSql.isProceduralStart_alike h t
  · exact SqlServer.isProceduralStart_alike h t

/-- A text that seals does not show in the classification of what stands before it. -/
theorem Vendor.isProceduralStart_append {v : Vendor} (hv : v ∈ Vendor.plainBuiltins) (hz : Seals z)
    (t : List Char) : v.isProceduralStart (t ++ z) = v.isProceduralStart t := by
  rw [Vendor.isProceduralStart_alike hv hz.alike_nil, List.append_nil]

/-- A text without the initial of a keyword in front starts no procedural block. -/
theorem Vendor.isProceduralStart_eq_false {v : Vendor} (hv : v ∈ Vendor.plainBuiltins) {t : List Char}
    (ht : ∀ c ∈ (trimStart t).head?, isInitial c = false) : v.isProceduralStart t = false := by
  rcases Vendor.mem_plainBuiltins.1 hv with rfl | rfl | rfl
  · simp only [oracle, Oracle.isProceduralStart]
    rw [afterAny?_eq_none (by decide) ht, after?_eq_none (by decide) ht]; rfl
  · simp only [postgresql, PostgreSql.isProceduralStart]
    rw [after?_eq_none (by decide) ht, after?_eq_none (by decide) ht]
  · simp only [sqlserver, SqlServer.isProceduralStart]
    rw [after?_eq_none (by decide) ht, after?_eq_none (by decide) ht]

end
end SqlScript
