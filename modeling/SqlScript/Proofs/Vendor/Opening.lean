import SqlScript.Proofs.Vendor.Entry

/-!
# Openings of stored programs

A text is read keyword by keyword. Where a keyword cannot go on behind the text, it is found with more
text behind if it is found without, and the other way round (`Keyword.after?_append_cases`); a user name
goes on up to the next blank, whatever it runs over. So the text of a unit and the one character behind
it tell whether the opening `CREATE [DEFINER = user] PROCEDURE` of MySQL may reach beyond the unit
(`MySql.openingGoesOn`). If it may not, nothing that follows shows in the classification, and if it may,
something does (`MySql.openingGoesOn_iff`).
-/

namespace SqlScript
open Text

namespace Keyword
variable {k t r : List Char} {c : Char}

/-- The keyword is being spelled: blanks aside, the text and the character behind it begin it. -/
def goesOn (keyword text : List Char) (c : Char) : Bool :=
  (dropIgnoringCase (trimStart (text ++ [c])) keyword).isSome

theorem afterWord?_eq_some :
    afterWord? t = some r ↔ trimStart t ≠ [] ∧ r = (trimStart t).dropWhile (!isBlank ·) := by
  unfold afterWord?
  split
  · next h => simp [h]
  · next hne =>
    rw [Option.some.injEq]
    exact ⟨fun heq => ⟨hne, heq.symm⟩, fun heq => heq.2.symm⟩

theorem length_of_sameIgnoringCase {word : List Char} (h : sameIgnoringCase word k) :
    word.length = k.length := by
  simpa using congrArg List.length (eq_of_beq h)

theorem goesOn_of_isPrefix {word : List Char} (h : trimStart (t ++ [c]) <+: word) (hword : sameIgnoringCase word k) :
    goesOn k t c := by
  obtain ⟨more, rfl⟩ := h
  rw [sameIgnoringCase, beq_iff_eq, List.map_append] at hword
  obtain ⟨first, last, rfl, hfirst, -⟩ := List.map_eq_append_iff.1 hword.symm
  rw [goesOn, Option.isSome_iff_exists]
  exact ⟨last, dropIgnoringCase_eq_some_iff.2 ⟨first, rfl, by rw [sameIgnoringCase, hfirst, beq_self_eq_true]⟩⟩

/-- A keyword that is found in a text is spelled there with more text behind too. -/
theorem dropIgnoringCase_append_of_after? (hk : k ≠ []) (h : after? k t = some r) (z : List Char) :
    dropIgnoringCase k (trimStart (t ++ z)) = some (r ++ z) := by
  obtain ⟨⟨word, ht, hword⟩, -⟩ := after?_eq_some.1 h
  have hne : trimStart t ≠ [] := by
    intro hnil
    rw [hnil, eq_comm, List.append_eq_nil_iff] at ht
    have hlen := length_of_sameIgnoringCase hword
    rw [ht.1] at hlen
    exact hk (List.eq_nil_of_length_eq_zero hlen.symm)
  exact dropIgnoringCase_eq_some_iff.2
    ⟨word, by rw [trimStart_append_of_ne hne, ht, List.append_assoc], hword⟩

/-- A keyword that is found with more text behind, and does not go on there, is found without. -/
theorem exists_after?_of_append (hk : k ≠ []) (hc : goesOn k t c = false) {z : List Char}
    (h : after? k (t ++ c :: z) = some r) : ∃ r', after? k t = some r' := by
  obtain ⟨⟨word, htext, hword⟩, hends⟩ := after?_eq_some.1 h
  have hne : trimStart (t ++ [c]) ≠ [] := by
    intro hnil
    rw [goesOn, hnil] at hc
    cases hc
  have hsplit : t ++ c :: z = t ++ [c] ++ z := by simp
  rw [hsplit, trimStart_append_of_ne hne] at htext
  -- the keyword is over before `c`, or `c` would go on with it
  rcases List.append_eq_append_iff.1 htext with ⟨more, rfl, -⟩ | ⟨last, htrim, rfl⟩
  · rw [goesOn_of_isPrefix (List.prefix_append _ more) hword] at hc
    cases hc
  have hlast : last ≠ [] := by
    rintro rfl
    rw [List.append_nil] at htrim
    rw [goesOn_of_isPrefix (htrim ▸ List.prefix_refl _) hword] at hc
    cases hc
  have hword' : word ≠ [] := by
    rintro rfl
    exact hk (List.eq_nil_of_length_eq_zero (length_of_sameIgnoringCase hword).symm)
  obtain ⟨r', d, rfl⟩ : ∃ r' d, last = r' ++ [d] := ⟨_, _, (List.dropLast_append_getLast hlast).symm⟩
  have ht : trimStart t ≠ [] := by
    intro hnil
    rw [trimStart_append_of_blank (trimStart_eq_nil_iff.1 hnil)] at htrim
    have hlen := congrArg List.length htrim
    have hle := (trimStart_isSuffix [c]).length_le
    have hpos := List.length_pos_iff.2 hword'
    simp only [List.length_append, List.length_singleton] at hlen hle
    omega
  rw [trimStart_append_of_ne ht, ← List.append_assoc] at htrim
  refine ⟨r', after?_eq_some.2 ⟨⟨word, (List.append_inj' htrim rfl).1, hword⟩, ?_⟩⟩
  cases r' with
  | nil => simp [endsHere]
  | cons e r' => exact hends

/-- A keyword that is found is found with more text behind too, unless a word goes on there. -/
theorem after?_append (hk : k ≠ []) (h : after? k t = some r) {z : List Char} (hends : endsHere k (r ++ c :: z)) :
    after? k (t ++ c :: z) = some (r ++ c :: z) := by
  rw [after?, dropIgnoringCase_append_of_after? hk h]
  exact if_pos hends

theorem endsHere_append (h : after? k t = some r) (hr : r = [] → isWordChar c = false) (z : List Char) :
    endsHere k (r ++ c :: z) := by
  cases r with
  | nil => simp [endsHere, hr rfl]
  | cons d r => exact (after?_eq_some.1 h).2

/-- Where a word goes on, a keyword that ends like a word is not found any more. -/
theorem after?_append_eq_none (hk : (k.getLast?.map isWordChar).getD false) (h : after? k t = some [])
    (hc : isWordChar c) (z : List Char) : after? k (t ++ c :: z) = none := by
  have hne : k ≠ [] := by rintro rfl; cases hk
  rw [after?, dropIgnoringCase_append_of_after? hne h]
  exact if_neg (by simp [endsHere, hk, hc])

/-- A keyword that does not go on is found alike with more text behind, but that a word may go on where
the text ends with the keyword. -/
theorem after?_append_cases (hk : k ≠ []) (hc : goesOn k t c = false) (z : List Char) :
    after? k (t ++ c :: z) = (after? k t).map (· ++ c :: z) ∨
      after? k t = some [] ∧ after? k (t ++ c :: z) = none ∧ isWordChar c := by
  cases hfound : after? k t with
  | none =>
    left
    by_contra hne
    obtain ⟨r, hr⟩ := Option.ne_none_iff_exists'.1 hne
    obtain ⟨r', hr'⟩ := exists_after?_of_append hk hc hr
    rw [hfound] at hr'
    cases hr'
  | some r =>
    by_cases hends : endsHere k (r ++ c :: z)
    · exact .inl (after?_append hk hfound hends)
    · right
      cases r with
      | nil =>
        refine ⟨rfl, ?_, ?_⟩
        · rw [after?, dropIgnoringCase_append_of_after? hk hfound]
          exact if_neg hends
        · rw [endsHere] at hends
          simp at hends
          exact hends.2
      | cons d r => exact absurd (after?_eq_some.1 hfound).2 hends

/-- Where a keyword is being spelled, neither it is found nor another one that it does not begin with. -/
theorem after?_eq_none_of_goesOn {k' : List Char} (hk' : k' ≠ [])
    (hne : k'.length < k.length → dropIgnoringCase k' k = none) (h : goesOn k t c) : after? k' t = none := by
  rw [Option.eq_none_iff_forall_ne_some]
  intro r hr
  obtain ⟨word, ht, hword⟩ := dropIgnoringCase_eq_some_iff.1 (dropIgnoringCase_of_after? hr)
  have hlength := length_of_sameIgnoringCase hword
  have htrim : trimStart t ≠ [] := by
    rw [ht]
    intro hnil
    rw [(List.append_eq_nil_iff.1 hnil).1] at hlength
    exact hk' (List.eq_nil_of_length_eq_zero hlength.symm)
  obtain ⟨last, hlast⟩ := Option.isSome_iff_exists.1 h
  obtain ⟨first, rfl, hsame⟩ := dropIgnoringCase_eq_some_iff.1 hlast
  rw [trimStart_append_of_ne htrim, ht, sameIgnoringCase, beq_iff_eq, List.append_assoc, List.map_append] at hsame
  obtain ⟨front, back, rfl, hfront, hback⟩ := List.map_eq_append_iff.1 hsame
  have hlt : k'.length < (front ++ back ++ last).length := by
    have hfront' := congrArg List.length hfront
    have hback' := congrArg List.length hback
    simp only [List.length_map, List.length_append, List.length_singleton] at hfront' hback' ⊢
    omega
  have hfound : dropIgnoringCase k' (front ++ back ++ last) = some (back ++ last) := by
    refine dropIgnoringCase_eq_some_iff.2 ⟨front, List.append_assoc front back last, ?_⟩
    rw [sameIgnoringCase, hfront]
    exact hword
  rw [hne hlt] at hfound
  cases hfound

/-- A keyword that is being spelled is found with the right text behind, and not without. -/
theorem after?_of_goesOn (hfirst : k.head?.any (!isBlank ·)) (h : goesOn k t c) {more : List Char}
    (hmore : endsHere k more) : after? k t = none ∧ ∃ z, after? k (t ++ c :: z) = some more := by
  have hnone : after? k t = none := by
    refine after?_eq_none_of_goesOn ?_ (fun hlt => absurd hlt (Nat.lt_irrefl _)) h
    rintro rfl
    cases hfirst
  obtain ⟨last, hlast⟩ := Option.isSome_iff_exists.1 h
  obtain ⟨first, rfl, hsame⟩ := dropIgnoringCase_eq_some_iff.1 hlast
  have htext : t ++ c :: (last ++ more) = t ++ [c] ++ (last ++ more) := by simp
  have hfold : first.map foldAscii = (trimStart (t ++ [c])).map foldAscii := eq_of_beq hsame
  refine ⟨hnone, last ++ more, after?_eq_some.2 ⟨⟨trimStart (t ++ [c]) ++ last, ?_, ?_⟩, hmore⟩⟩
  · rw [htext]
    by_cases hnil : trimStart (t ++ [c]) = []
    · -- nothing of the keyword has been spelled yet
      rw [hnil, List.map_nil, List.map_eq_nil_iff] at hfold
      subst hfold
      obtain ⟨a, ha, hblank⟩ := Option.any_eq_true _ _ |>.1 hfirst
      obtain ⟨k, hk⟩ := List.head?_eq_some_iff.1 ha
      rw [List.nil_append] at hk
      subst hk
      rw [trimStart_append_of_blank (trimStart_eq_nil_iff.1 hnil), hnil]
      simp_all [trimStart]
    · rw [trimStart_append_of_ne hnil, List.append_assoc]
  · rw [sameIgnoringCase, List.map_append, List.map_append, hfold, beq_self_eq_true]

/-- At a keyword there is none with another letter in front. -/
theorem after?_eq_none_of_head?_ne {k' : List Char} (hk : k ≠ []) (hk' : k' ≠ [])
    (hne : k.head?.map foldAscii ≠ k'.head?.map foldAscii) (h : dropIgnoringCase k (trimStart t) = some r) :
    after? k' t = none := by
  obtain ⟨a, k, rfl⟩ := List.exists_cons_of_ne_nil hk
  obtain ⟨b, k', rfl⟩ := List.exists_cons_of_ne_nil hk'
  exact after?_eq_none_of_dropIgnoringCase (by simpa using hne) h

theorem afterWord?_eq_none : afterWord? t = none ↔ trimStart t = [] := by
  unfold afterWord?
  split
  · next h => simp [h]
  · next hne => exact iff_of_false nofun hne

/-- A word that is over is the same with more text behind. -/
theorem afterWord?_append (h : afterWord? t = some r) (hr : r = [] → isBlank c) (z : List Char) :
    afterWord? (t ++ c :: z) = some (r ++ c :: z) := by
  obtain ⟨ht, rfl⟩ := afterWord?_eq_some.1 h
  refine afterWord?_eq_some.2 ⟨by simp [trimStart_append_of_ne ht, ht], ?_⟩
  rw [trimStart_append_of_ne ht, List.dropWhile_append]
  split
  · next hnil =>
    have hc := hr (by simpa using hnil)
    rw [List.dropWhile_cons_of_neg (by simp [hc])]
    simpa using hnil
  · rfl

end Keyword

namespace MySql
open Keyword
variable {t : List Char} {c : Char}

/-- What kinds of stored programs there are. -/
def programs : List (List Char) :=
  ["PROCEDURE".toList, "FUNCTION".toList, "TRIGGER".toList]

/-- A program is named where the text begins. -/
def startsProgram (text : List Char) : Bool :=
  (afterAny? programs text).isSome

/-- The same of a text behind the keyword `DEFINER`. -/
def startsBehindDefiner (text : List Char) : Bool :=
  ((after? "=".toList text).bind afterWord?).any startsProgram

/-- The same of a text behind the keyword `CREATE`. -/
def startsBehindCreate (text : List Char) : Bool :=
  match after? "DEFINER".toList text with
  | none => startsProgram text
  | some rest => startsBehindDefiner rest

theorem isProceduralStart_eq (text : List Char) :
    isProceduralStart text = (after? "CREATE".toList text).any startsBehindCreate := by
  unfold isProceduralStart
  cases after? "CREATE".toList text with
  | none => rfl
  | some rest =>
    simp only [Option.any_some, startsBehindCreate, startsBehindDefiner]
    cases after? "DEFINER".toList rest with
    | none => rfl
    | some more =>
      simp only []
      cases (after? "=".toList more).bind afterWord? <;> rfl

/-- A program is being named: with `c` one of the keywords goes on, or a word that begins like it. -/
def programGoesOn (text : List Char) (c : Char) : Bool :=
  programs.any fun k => goesOn k text c || after? k text == some [] && isWordChar c

/-- The user name is still to come or goes on with `c`, or the program behind it does. -/
def userGoesOn (text : List Char) (c : Char) : Bool :=
  match afterWord? text with
  | none => true
  | some rest => rest.isEmpty && !isBlank c || programGoesOn rest c

/-- The same behind the keyword `DEFINER`. -/
def definerGoesOn (text : List Char) (c : Char) : Bool :=
  goesOn "=".toList text c || (after? "=".toList text).any (userGoesOn · c)

/-- The same behind the keyword `CREATE`. -/
def createGoesOn (text : List Char) (c : Char) : Bool :=
  programGoesOn text c || goesOn "DEFINER".toList text c || (after? "DEFINER".toList text).any (definerGoesOn · c)

/-- The text is cut off in the middle of the opening of a stored program, and the opening may go on with
the character `c`. Behind the whole keyword `CREATE` a letter makes another word of it. -/
def openingGoesOn (text : List Char) (c : Char) : Bool :=
  goesOn "CREATE".toList text c ||
    (after? "CREATE".toList text).any fun rest => !(rest.isEmpty && isWordChar c) && createGoesOn rest c

theorem startsProgram_append (h : programGoesOn t c = false) (z : List Char) :
    startsProgram (t ++ c :: z) = startsProgram t := by
  have hne : ∀ k ∈ programs, k ≠ [] := by decide
  rw [startsProgram, startsProgram, isSome_afterAny?, isSome_afterAny?, Bool.eq_iff_iff, List.any_eq_true,
    List.any_eq_true]
  refine exists_congr fun k => and_congr_right fun hk => ?_
  have hk' := List.any_eq_false.1 h k hk
  simp only [Bool.or_eq_true, Bool.and_eq_true, beq_iff_eq, not_or, not_and] at hk'
  rcases after?_append_cases (hne k hk) (by simpa using hk'.1) z with hkeep | ⟨hnil, -, hc⟩
  · rw [hkeep, Option.isSome_map]
  · exact absurd hc (hk'.2 hnil)

/-- Where a definer comes next, no program does. -/
theorem startsProgram_eq_false {rest : List Char} (h : after? "DEFINER".toList t = some rest) :
    startsProgram t = false := by
  rw [startsProgram, isSome_afterAny?, List.any_eq_false]
  intro k hk
  have hnone : after? k t = none := by
    simp only [programs, List.mem_cons, List.not_mem_nil, or_false] at hk
    rcases hk with rfl | rfl | rfl
    · exact after?_eq_none_of_after? (by decide) h
    · exact after?_eq_none_of_after? (by decide) h
    · exact after?_eq_none_of_after? (by decide) h
  rw [hnone]
  decide

/-- The user name is over, so the same name is found with more text behind. -/
theorem any_startsProgram_append (h : userGoesOn t c = false) (z : List Char) :
    (afterWord? (t ++ c :: z)).any startsProgram = (afterWord? t).any startsProgram := by
  rw [userGoesOn] at h
  cases hfound : afterWord? t with
  | none =>
    rw [hfound] at h
    cases h
  | some rest =>
    simp only [hfound, Bool.or_eq_false_iff, Bool.and_eq_false_iff] at h
    obtain ⟨hend, hprogram⟩ := h
    have hover : rest = [] → isBlank c := by
      rintro rfl
      simpa using hend
    rw [afterWord?_append hfound hover, Option.any_some, Option.any_some, startsProgram_append hprogram]

theorem startsBehindDefiner_append (h : definerGoesOn t c = false) (z : List Char) :
    startsBehindDefiner (t ++ c :: z) = startsBehindDefiner t := by
  rw [definerGoesOn, Bool.or_eq_false_iff] at h
  obtain ⟨hsign, huser⟩ := h
  rw [startsBehindDefiner, startsBehindDefiner]
  rcases after?_append_cases (by decide) hsign z with hkeep | ⟨hnil, hnone, -⟩
  · rw [hkeep]
    cases hfound : after? "=".toList t with
    | none => rfl
    | some rest =>
      rw [hfound, Option.any_some] at huser
      exact any_startsProgram_append huser z
  · rw [hnil, hnone]
    rfl

theorem startsBehindCreate_append (h : createGoesOn t c = false) (z : List Char) :
    startsBehindCreate (t ++ c :: z) = startsBehindCreate t := by
  rw [createGoesOn, Bool.or_eq_false_iff, Bool.or_eq_false_iff] at h
  obtain ⟨⟨hprogram, hkeyword⟩, hdefiner⟩ := h
  rw [startsBehindCreate, startsBehindCreate]
  rcases after?_append_cases (by decide) hkeyword z with hkeep | ⟨hnil, hnone, -⟩
  · rw [hkeep]
    cases hfound : after? "DEFINER".toList t with
    | none => exact startsProgram_append hprogram z
    | some rest =>
      rw [hfound, Option.any_some] at hdefiner
      exact startsBehindDefiner_append hdefiner z
  · rw [hnil, hnone]
    show startsProgram (t ++ c :: z) = startsBehindDefiner []
    rw [startsProgram_append hprogram, startsProgram_eq_false hnil]
    rfl

/-- What follows a text in which no opening goes on does not show in its classification. -/
theorem isProceduralStart_append (h : openingGoesOn t c = false) (z : List Char) :
    isProceduralStart (t ++ c :: z) = isProceduralStart t := by
  rw [openingGoesOn, Bool.or_eq_false_iff] at h
  obtain ⟨hcreate, hbehind⟩ := h
  rw [isProceduralStart_eq, isProceduralStart_eq]
  have hnil : startsBehindCreate [] = false := by decide
  cases hfound : after? "CREATE".toList t with
  | none =>
    rcases after?_append_cases (by decide) hcreate z with hkeep | ⟨hsome, -⟩
    · rw [hkeep, hfound]
      rfl
    · rw [hfound] at hsome
      cases hsome
  | some rest =>
    rw [hfound, Option.any_some, Bool.and_eq_false_iff] at hbehind
    rcases hbehind with hword | hrest
    · obtain ⟨hempty, hc⟩ : rest.isEmpty ∧ isWordChar c := by simpa using hword
      rw [List.isEmpty_iff] at hempty
      subst hempty
      rw [after?_append_eq_none (by decide) hfound hc, Option.any_some, hnil]
      rfl
    · rcases after?_append_cases (by decide) hcreate z with hkeep | ⟨hsome, hnone, -⟩
      · rw [hkeep, hfound, Option.map_some, Option.any_some, Option.any_some, startsBehindCreate_append hrest]
      · rw [hfound, Option.some.injEq] at hsome
        rw [hnone, hsome, Option.any_some, hnil]
        rfl

/-! ### What goes on shows -/

theorem startsProgram_eq_true {k : List Char} (hk : k ∈ programs) {rest : List Char} (h : after? k t = some rest) :
    startsProgram t = true := by
  rw [startsProgram, isSome_afterAny?, List.any_eq_true]
  exact ⟨k, hk, by rw [h]; rfl⟩

theorem startsProgram_eq_false_iff : startsProgram t = false ↔ ∀ k ∈ programs, after? k t = none := by
  rw [startsProgram, isSome_afterAny?, List.any_eq_false]
  simp

/-- Where a program is named, no definer comes next. -/
theorem after?_definer_eq_none (h : startsProgram t = true) : after? "DEFINER".toList t = none := by
  rw [Option.eq_none_iff_forall_ne_some]
  intro rest hrest
  rw [startsProgram_eq_false hrest] at h
  cases h

/-- A program that is being named is named with the right text behind, and not without. -/
theorem startsProgram_of_goesOn {k : List Char} (hk : k ∈ programs) (h : goesOn k t c) :
    (∀ k' ∈ "DEFINER".toList :: programs, after? k' t = none) ∧ ∃ z, startsProgram (t ++ c :: z) := by
  have hshort : ∀ k ∈ programs, ∀ k' ∈ "DEFINER".toList :: programs,
      k' ≠ [] ∧ (k'.length < k.length → dropIgnoringCase k' k = none) := by decide
  have hfirst : ∀ k ∈ programs, k.head?.any (!isBlank ·) := by decide
  have hends : endsHere k [] := by simp [endsHere]
  obtain ⟨-, z, hz⟩ := after?_of_goesOn (hfirst k hk) h hends
  refine ⟨fun k' hk' => ?_, z, startsProgram_eq_true hk hz⟩
  exact after?_eq_none_of_goesOn (hshort k hk k' hk').1 (hshort k hk k' hk').2 h

/-- The word that names a program names none if it goes on. -/
theorem after?_eq_none_of_program {k : List Char} (hk : k ∈ programs) (h : after? k t = some []) (hc : isWordChar c) :
    ∀ k' ∈ "DEFINER".toList :: programs, after? k' (t ++ [c]) = none := by
  have hword : ∀ k ∈ programs, (k.getLast?.map isWordChar).getD false := by decide
  have hhead : ∀ k ∈ programs, ∀ k' ∈ "DEFINER".toList :: programs, k' = k ∨
      k ≠ [] ∧ k' ≠ [] ∧ k.head?.map foldAscii ≠ k'.head?.map foldAscii := by decide
  intro k' hk'
  rcases hhead k hk k' hk' with rfl | ⟨hne, hne', hhead⟩
  · exact after?_append_eq_none (hword k' hk) h hc []
  · exact after?_eq_none_of_head?_ne hne hne' hhead (dropIgnoringCase_append_of_after? hne h [c])

theorem exists_startsProgram_ne (h : programGoesOn t c) : ∃ z, startsProgram (t ++ c :: z) ≠ startsProgram t ∧
    after? "DEFINER".toList t = none ∧ after? "DEFINER".toList (t ++ c :: z) = none := by
  have hnot : ∀ u, (∀ k ∈ "DEFINER".toList :: programs, after? k u = none) → startsProgram u = false :=
    fun u hu => startsProgram_eq_false_iff.2 fun k hk => hu k (List.mem_cons_of_mem _ hk)
  obtain ⟨k, hk, h⟩ := List.any_eq_true.1 h
  rw [Bool.or_eq_true, Bool.and_eq_true, beq_iff_eq] at h
  rcases h with hgoesOn | ⟨hfound, hc⟩
  · obtain ⟨hnone, z, hz⟩ := startsProgram_of_goesOn hk hgoesOn
    exact ⟨z, by rw [hz, hnot t hnone]; decide, hnone _ List.mem_cons_self, after?_definer_eq_none hz⟩
  · have hnone := after?_eq_none_of_program hk hfound hc
    have hstarts := startsProgram_eq_true hk hfound
    exact ⟨[], by rw [hstarts, hnot _ hnone]; decide, after?_definer_eq_none hstarts, hnone _ List.mem_cons_self⟩

/-- A user name that is to come or goes on is over before a program that is named behind it. -/
theorem any_startsProgram_user (h : ∀ rest, afterWord? t = some rest → rest = [] ∧ isBlank c = false) :
    (afterWord? t).any startsProgram = false ∧
      (afterWord? (t ++ c :: "u PROCEDURE".toList)).any startsProgram = true := by
  have hprogram : startsProgram " PROCEDURE".toList = true := by decide
  have huser : "u PROCEDURE".toList.dropWhile (!isBlank ·) = " PROCEDURE".toList := by decide
  have hfalse : (afterWord? t).any startsProgram = false := by
    cases hfound : afterWord? t with
    | none => rfl
    | some rest =>
      rw [(h rest hfound).1]
      decide
  have hword : afterWord? (t ++ c :: "u PROCEDURE".toList) = some " PROCEDURE".toList := by
    rw [afterWord?_eq_some]
    cases hfound : afterWord? t with
    | none =>
      rw [trimStart_append_of_blank (trimStart_eq_nil_iff.1 (afterWord?_eq_none.1 hfound))]
      cases hc : isBlank c with
      | true => exact ⟨by simp [trimStart, hc]; decide, by simp [trimStart, hc]; decide⟩
      | false => exact ⟨by simp [trimStart, hc], by simp [trimStart, hc]; decide⟩
    | some rest =>
      obtain ⟨ht, hrest⟩ := afterWord?_eq_some.1 hfound
      obtain ⟨hnil, hc⟩ := h rest hfound
      rw [hnil] at hrest
      rw [trimStart_append_of_ne ht, List.dropWhile_append, ← hrest, List.isEmpty_nil, if_pos rfl,
        List.dropWhile_cons_of_pos (by simp [hc]), huser]
      exact ⟨by simp [ht], rfl⟩
  rw [hword, Option.any_some, hprogram]
  exact ⟨hfalse, rfl⟩

theorem exists_startsBehindDefiner_ne (h : definerGoesOn t c) :
    ∃ z, startsBehindDefiner (t ++ c :: z) ≠ startsBehindDefiner t := by
  have hends : ∀ z, endsHere "=".toList z := fun z => by simp [endsHere]; left; decide
  rw [definerGoesOn, Bool.or_eq_true] at h
  rcases h with hsign | huser
  · obtain ⟨hnone, z, hz⟩ := after?_of_goesOn (by decide) hsign (hends "u PROCEDURE".toList)
    refine ⟨z, ?_⟩
    rw [startsBehindDefiner, startsBehindDefiner, hz, hnone]
    decide
  · obtain ⟨name, hname, huser⟩ := (Option.any_eq_true _ _).1 huser
    have hkeep : ∀ z, after? "=".toList (t ++ c :: z) = some (name ++ c :: z) := fun z =>
      after?_append (by decide) hname (hends _)
    have hbehind : ∀ z, startsBehindDefiner (t ++ c :: z) = (afterWord? (name ++ c :: z)).any startsProgram :=
      fun z => by rw [startsBehindDefiner, hkeep, Option.bind_some]
    have hhere : startsBehindDefiner t = (afterWord? name).any startsProgram := by
      rw [startsBehindDefiner, hname, Option.bind_some]
    by_cases hopen : ∀ rest, afterWord? name = some rest → rest = [] ∧ isBlank c = false
    · obtain ⟨hfalse, htrue⟩ := any_startsProgram_user hopen
      exact ⟨_, by rw [hbehind, hhere, hfalse, htrue]; decide⟩
    · push Not at hopen
      obtain ⟨rest, hrest, hover⟩ := hopen
      have hblank : rest = [] → isBlank c := fun hnil => by simpa using hover hnil
      have hprogram : programGoesOn rest c := by
        simp only [userGoesOn, hrest, Bool.or_eq_true, Bool.and_eq_true, List.isEmpty_iff] at huser
        exact huser.resolve_left fun hword => by simp [hblank hword.1] at hword
      obtain ⟨z, hz, -⟩ := exists_startsProgram_ne hprogram
      refine ⟨z, ?_⟩
      rwa [hbehind, hhere, afterWord?_append hrest hblank, hrest, Option.any_some, Option.any_some]

/-- Right behind the keyword `DEFINER` only an equals sign goes on, perhaps behind blanks. -/
theorem not_isWordChar_of_definerGoesOn (h : definerGoesOn [] c) : isWordChar c = false := by
  have hnone : after? "=".toList [] = none := by decide
  rw [definerGoesOn, hnone, Option.any_none, Bool.or_false] at h
  cases hc : isBlank c with
  | true => exact isWordChar_of_isBlank hc
  | false =>
    have htrim : trimStart [c] = [c] := by simp [trimStart, hc]
    have hfold : foldAscii c = foldAscii '=' := by
      by_contra hne
      simp [goesOn, htrim, dropIgnoringCase, hne] at h
    rw [← isWordChar_foldAscii, hfold]
    decide

theorem exists_startsBehindCreate_ne (h : createGoesOn t c) :
    ∃ z, startsBehindCreate (t ++ c :: z) ≠ startsBehindCreate t := by
  rw [createGoesOn, Bool.or_eq_true, Bool.or_eq_true] at h
  rcases h with (hprogram | hkeyword) | hdefiner
  · obtain ⟨z, hz, hnone, hnone'⟩ := exists_startsProgram_ne hprogram
    refine ⟨z, ?_⟩
    rwa [startsBehindCreate, startsBehindCreate, hnone, hnone']
  · have hends : endsHere "DEFINER".toList "=u PROCEDURE".toList := by decide
    obtain ⟨hnone, z, hz⟩ := after?_of_goesOn (by decide) hkeyword hends
    have hshort : ∀ k ∈ programs, k ≠ [] ∧
        (k.length < "DEFINER".toList.length → dropIgnoringCase k "DEFINER".toList = none) := by decide
    have hfalse : startsProgram t = false := startsProgram_eq_false_iff.2 fun k hk =>
      after?_eq_none_of_goesOn (hshort k hk).1 (hshort k hk).2 hkeyword
    have htrue : startsBehindDefiner "=u PROCEDURE".toList = true := by decide
    refine ⟨z, ?_⟩
    rw [startsBehindCreate, startsBehindCreate, hz, hnone]
    simp only [htrue, hfalse]
    decide
  · obtain ⟨rest, hrest, hdefiner⟩ := (Option.any_eq_true _ _).1 hdefiner
    obtain ⟨z, hz⟩ := exists_startsBehindDefiner_ne hdefiner
    have hends : endsHere "DEFINER".toList (rest ++ c :: z) := by
      refine endsHere_append hrest (fun hnil => ?_) z
      rw [hnil] at hdefiner
      exact not_isWordChar_of_definerGoesOn hdefiner
    refine ⟨z, ?_⟩
    rwa [startsBehindCreate, startsBehindCreate, after?_append (by decide) hrest hends, hrest]

/-- Exactly where the opening goes on, something that follows shows in the classification. -/
theorem openingGoesOn_iff : openingGoesOn t c ↔ ∃ z, isProceduralStart (t ++ c :: z) ≠ isProceduralStart t := by
  constructor
  · intro h
    rw [openingGoesOn, Bool.or_eq_true] at h
    rcases h with hcreate | hbehind
    · have hends : endsHere "CREATE".toList " PROCEDURE".toList := by decide
      obtain ⟨hnone, z, hz⟩ := after?_of_goesOn (by decide) hcreate hends
      have htrue : startsBehindCreate " PROCEDURE".toList = true := by decide
      refine ⟨z, ?_⟩
      rw [isProceduralStart_eq, isProceduralStart_eq, hz, hnone, Option.any_some, htrue]
      decide
    · obtain ⟨rest, hrest, hbehind⟩ := (Option.any_eq_true _ _).1 hbehind
      rw [Bool.and_eq_true] at hbehind
      obtain ⟨z, hz⟩ := exists_startsBehindCreate_ne hbehind.2
      have hends : endsHere "CREATE".toList (rest ++ c :: z) := by
        refine endsHere_append hrest (fun hnil => ?_) z
        simpa [hnil] using hbehind.1
      refine ⟨z, ?_⟩
      rwa [isProceduralStart_eq, isProceduralStart_eq, after?_append (by decide) hrest hends, hrest,
        Option.any_some, Option.any_some]
  · rintro ⟨z, hz⟩
    by_contra h
    exact hz (isProceduralStart_append (by simpa using h) z)

example : openingGoesOn "CREATE DEFINER=".toList ';' = true := by decide

example : openingGoesOn "CREATE DEFINER=root PROCEDURE p".toList '$' = false := by decide

end MySql
end SqlScript
