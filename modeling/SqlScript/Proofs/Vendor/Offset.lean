import SqlScript.Proofs.Text.Case
import SqlScript.Proofs.Text.Offset
import SqlScript.Proofs.Vendor.Entry

/-!
# Classifying a statement by offsets

Here keywords are looked for by cutting the text at byte offsets, and nothing comes of a cut beyond the text or
within a character. There is no such cut: by offsets a keyword is found where it is found character by character
(`Keyword.seek?_eq`), so every classifier comes to an answer, and to the same one (`Oracle.classify?_eq` and so
on, `Pattern.classify?_eq`). `Vendor.Known` gathers the vendors there are, each with the delimiter that its
scripts start with as plain text; none of these is empty (`Vendor.Known.delimiter_eq`).
-/

namespace SqlScript
open Text

namespace Keyword
variable {keyword text word rest : List Char}

/-- The text after a keyword, if it is there. -/
def seek? (keyword text : List Char) : Option (Option (List Char)) :=
  let visible := trimStart text
  match upTo? visible (byteLength keyword) with
  | none => some none
  | some word =>
    if sameIgnoringCase word keyword then do
      let rest ← from? visible (byteLength keyword)
      return if endsHere keyword rest then some rest else none
    else some none

/-- The text after the first of several keywords that is there. -/
def seekAny? : List (List Char) → List Char → Option (Option (List Char))
  | [], _ => some none
  | keyword :: more, text => do
    match ← seek? keyword text with
    | some rest => return some rest
    | none => seekAny? more text

/-- The text after several keywords in a row. -/
def seekAll? : List (List Char) → List Char → Option (Option (List Char))
  | [], text => some (some text)
  | keyword :: more, text => do
    match ← seek? keyword text with
    | some rest => seekAll? more rest
    | none => return none

/-- The text after several keywords in a row, or the whole text if they are not all there. -/
def seekSkip? (keywords : List (List Char)) (text : List Char) : Option (List Char) := do
  return (← seekAll? keywords text).getD text

/-- The text after the next run of characters that are not blank. -/
def seekWord? (text : List Char) : Option (Option (List Char)) :=
  let visible := trimStart text
  let length := (find? isBlank visible).getD (byteLength visible)
  if length = 0 then some none else (from? visible length).map some

theorem upTo?_of_sameIgnoringCase (h : sameIgnoringCase word keyword) (rest : List Char) :
    upTo? (word ++ rest) (byteLength keyword) = some word := by
  have hlength : byteLength word = byteLength keyword := by
    rw [← byteLength_map_foldAscii word, sameIgnoringCase_iff.1 h, byteLength_map_foldAscii]
  rw [← hlength, upTo?_byteLength]

/-- Where a cut would fall within a character there is another word than the keyword. -/
theorem seek?_eq (keyword text : List Char) : seek? keyword text = some (after? keyword text) := by
  have hnone : (∀ word, upTo? (trimStart text) (byteLength keyword) = some word →
      sameIgnoringCase word keyword = false) → dropIgnoringCase keyword (trimStart text) = none := by
    intro hall
    rw [Option.eq_none_iff_forall_ne_some]
    intro rest h
    obtain ⟨word, htext, hword⟩ := dropIgnoringCase_eq_some_iff.1 h
    have := hall word (htext ▸ upTo?_of_sameIgnoringCase hword rest)
    rw [hword] at this
    cases this
  simp only [seek?, after?]
  cases hup : upTo? (trimStart text) (byteLength keyword) with
  | none => rw [hnone (by simp [hup])]
  | some word =>
    by_cases hword : sameIgnoringCase word keyword
    · obtain ⟨rest, htext, hlength⟩ := upTo?_eq_some_iff.1 hup
      have hdrop : dropIgnoringCase keyword (trimStart text) = some rest :=
        dropIgnoringCase_eq_some_iff.2 ⟨word, htext, hword⟩
      have hfrom : from? (trimStart text) (byteLength keyword) = some rest := by
        rw [htext, ← hlength, from?_byteLength]
      rw [hdrop]
      simp only [if_pos hword, hfrom]
      rfl
    · have hother : sameIgnoringCase word keyword = false := by simpa using hword
      rw [hnone (by rintro _ h; rwa [← Option.some.inj (hup.symm.trans h)])]
      simp [hother]

theorem seekAny?_eq (ks : List (List Char)) (text : List Char) : seekAny? ks text = some (afterAny? ks text) := by
  induction ks with
  | nil => rfl
  | cons k ks ih =>
    rw [seekAny?, seek?_eq, afterAny?, List.findSome?_cons]
    cases after? k text with
    | none => exact ih
    | some rest => rfl

theorem seekAll?_eq (ks : List (List Char)) (text : List Char) : seekAll? ks text = some (afterAll? ks text) := by
  induction ks generalizing text with
  | nil => rfl
  | cons k ks ih =>
    rw [seekAll?, seek?_eq, afterAll?]
    cases after? k text with
    | none => rfl
    | some rest => exact ih rest

theorem seekSkip?_eq (ks : List (List Char)) (text : List Char) : seekSkip? ks text = some (skip ks text) := by
  rw [seekSkip?, seekAll?_eq, skip]
  rfl

theorem seekWord?_eq (text : List Char) : seekWord? text = some (afterWord? text) := by
  simp only [seekWord?, afterWord?, find?_eq]
  cases hvisible : trimStart text with
  | nil => rfl
  | cons c t =>
    have hword : (c :: t).takeWhile (!isBlank ·) = c :: t.takeWhile (!isBlank ·) := by
      rw [List.takeWhile_cons, not_isBlank_of_trimStart hvisible]
      rfl
    have hpos : byteLength ((c :: t).takeWhile (!isBlank ·)) ≠ 0 := by
      have := c.utf8Size_pos
      rw [hword, byteLength_cons]
      omega
    have hfrom := from?_byteLength ((c :: t).takeWhile (!isBlank ·)) ((c :: t).dropWhile (!isBlank ·))
    rw [List.takeWhile_append_dropWhile] at hfrom
    rw [if_neg hpos, hfrom]
    rfl

end Keyword

open Keyword

namespace Oracle

def classify? (text : List Char) : Option Bool := do
  if (← seekAny? ["DECLARE".toList, "BEGIN".toList] text).isSome then return true
  match ← seek? "CREATE".toList text with
  | none => return false
  | some rest =>
    let rest ← seekSkip? ["OR".toList, "REPLACE".toList] rest
    let rest ← seekSkip? ["EDITIONABLE".toList] rest
    let rest ← seekSkip? ["NONEDITIONABLE".toList] rest
    return (← seekAny?
      ["FUNCTION".toList, "PROCEDURE".toList, "PACKAGE".toList, "TRIGGER".toList] rest).isSome

theorem classify?_eq (text : List Char) : classify? text = some (isProceduralStart text) := by
  simp only [classify?, isProceduralStart, seekAny?_eq, seek?_eq, seekSkip?_eq, Option.bind_eq_bind,
    Option.bind_some, Option.pure_def]
  split
  · next h => rw [h, Bool.true_or]
  · next h =>
    rw [Bool.not_eq_true] at h
    rw [h, Bool.false_or]
    cases after? "CREATE".toList text <;> rfl

end Oracle

namespace PostgreSql

def classify? (text : List Char) : Option Bool := do
  match ← seek? "DO".toList text with
  | some rest =>
    if next? rest == some '$' then return true
    return (← seek? "LANGUAGE".toList rest).isSome
  | none =>
    match ← seek? "CREATE".toList text with
    | none => return false
    | some rest =>
      let rest ← seekSkip? ["OR".toList, "REPLACE".toList] rest
      let rest ← seekSkip? ["CONSTRAINT".toList] rest
      return (← seekAny? ["FUNCTION".toList, "PROCEDURE".toList, "TRIGGER".toList] rest).isSome

theorem classify?_eq (text : List Char) : classify? text = some (isProceduralStart text) := by
  simp only [classify?, isProceduralStart, seekAny?_eq, seek?_eq, seekSkip?_eq, Option.bind_eq_bind,
    Option.bind_some, Option.pure_def]
  cases after? "DO".toList text with
  | some rest =>
    simp only
    cases next? rest == some '$' <;> rfl
  | none =>
    simp only
    cases after? "CREATE".toList text <;> rfl

end PostgreSql

namespace MySql

def classify? (text : List Char) : Option Bool := do
  match ← seek? "CREATE".toList text with
  | none => return false
  | some rest =>
    match ← seek? "DEFINER".toList rest with
    | none => program? rest
    | some rest =>
      match ← seek? "=".toList rest with
      | none => return false
      | some rest =>
        match ← seekWord? rest with
        | none => return false
        | some rest => program? rest
where
  program? (rest : List Char) : Option Bool := do
    return (← seekAny? ["PROCEDURE".toList, "FUNCTION".toList, "TRIGGER".toList] rest).isSome

theorem classify?_eq (text : List Char) : classify? text = some (isProceduralStart text) := by
  simp only [classify?, classify?.program?, isProceduralStart, seekAny?_eq, seek?_eq, seekWord?_eq,
    Option.bind_eq_bind, Option.bind_some, Option.pure_def]
  cases after? "CREATE".toList text with
  | none => rfl
  | some rest =>
    simp only
    cases after? "DEFINER".toList rest with
    | none => rfl
    | some rest =>
      simp only
      cases after? "=".toList rest with
      | none => rfl
      | some rest =>
        simp only [Option.bind_some]
        cases afterWord? rest <;> rfl

end MySql

namespace SqlServer

def classify? (text : List Char) : Option Bool := do
  match ← seek? "CREATE".toList text with
  | some rest => unit? (← seekSkip? ["OR".toList, "ALTER".toList] rest)
  | none =>
    match ← seek? "ALTER".toList text with
    | none => return false
    | some rest => unit? rest
where
  unit? (rest : List Char) : Option Bool := do
    return (← seekAny?
      ["PROCEDURE".toList, "PROC".toList, "TRIGGER".toList, "FUNCTION".toList] rest).isSome

theorem classify?_eq (text : List Char) : classify? text = some (isProceduralStart text) := by
  simp only [classify?, classify?.unit?, isProceduralStart, seekAny?_eq, seek?_eq, seekSkip?_eq,
    Option.bind_eq_bind, Option.bind_some, Option.pure_def]
  cases after? "CREATE".toList text with
  | some rest => rfl
  | none => cases after? "ALTER".toList text <;> rfl

end SqlServer

namespace Pattern

def seekWords? : List Alternatives → List Char → Option (Option (List Char))
  | [], text => some (some text)
  | w :: more, text => do
    match ← seekAny? w text with
    | some rest => seekWords? more rest
    | none => return none

def seekItems? : List PatternItem → List Char → Option (Option (List Char))
  | [], text => some (some text)
  | .word w :: more, text => do
    match ← seekAny? w text with
    | some rest => seekItems? more rest
    | none => return none
  | .optional ws :: more, text => do
    seekItems? more ((← seekWords? ws text).getD text)

/-- Whether a statement starts with one of several patterns. -/
def classify? : List Pattern → List Char → Option Bool
  | [], _ => some false
  | p :: more, text => do
    if (← seekItems? p.items text).isSome then return true
    classify? more text

theorem seekWords?_eq (ws : List Alternatives) (text : List Char) :
    seekWords? ws text = some (afterWords? ws text) := by
  induction ws generalizing text with
  | nil => rfl
  | cons w ws ih =>
    rw [seekWords?, seekAny?_eq, afterWords?]
    cases afterAny? w text with
    | none => rfl
    | some rest => exact ih rest

theorem seekItems?_eq (items : List PatternItem) (text : List Char) :
    seekItems? items text = some (afterItems? items text) := by
  induction items generalizing text with
  | nil => rfl
  | cons item items ih =>
    cases item with
    | word w =>
      rw [seekItems?, seekAny?_eq, afterItems?]
      cases afterAny? w text with
      | none => rfl
      | some rest => exact ih rest
    | optional ws =>
      rw [seekItems?, seekWords?_eq, afterItems?]
      exact ih _

theorem classify?_eq (patterns : List Pattern) (text : List Char) :
    classify? patterns text = some (patterns.any (·.startsWith text)) := by
  induction patterns with
  | nil => rfl
  | cons p patterns ih =>
    rw [classify?, seekItems?_eq, ih, List.any_cons, startsWith]
    cases afterItems? p.items text <;> rfl

end Pattern

/-- The vendors that are always there and those made from an entry, each with its delimiter as it is written
and its classifier by offsets. -/
inductive Vendor.Known : Vendor → List Char → (List Char → Option Bool) → Prop
  | oracle : Known oracle [';'] Oracle.classify?
  | postgresql : Known postgresql [';'] PostgreSql.classify?
  | mysql : Known mysql [';'] MySql.classify?
  | sqlserver : Known sqlserver [';'] SqlServer.classify?
  | custom {e : VendorEntry} {c : CustomVendor} (h : e.build = .ok c) :
    Known c.toVendor (trim e.delimiter.toList) (Pattern.classify? c.patterns)

theorem Delimiter.chars_of_ofChars? {chars : List Char} {d : Delimiter} (h : ofChars? chars = some d) :
    d.chars = chars := by
  rw [ofChars?] at h
  split at h
  · cases h
  · cases h
    rfl

theorem VendorEntry.eq_of_build {e : VendorEntry} {c : CustomVendor} (h : e.build = .ok c) :
    c.delimiter.chars = trim e.delimiter.toList ∧
      ∀ t, c.isProceduralStart t = c.patterns.any (·.startsWith t) := by
  simp only [build] at h
  repeat' split at h
  all_goals cases h
  next hdelimiter _ _ _ _ => exact ⟨Delimiter.chars_of_ofChars? hdelimiter, fun _ => rfl⟩

namespace Vendor.Known
variable {v : Vendor} {delimiter : List Char} {classify? : List Char → Option Bool}

theorem delimiter_eq (h : v.Known delimiter classify?) : delimiter = v.delimiter.chars := by
  cases h with
  | custom h => exact (VendorEntry.eq_of_build h).1.symm
  | _ => rfl

theorem classify?_eq (h : v.Known delimiter classify?) (t : List Char) :
    classify? t = some (v.isProceduralStart t) := by
  cases h with
  | oracle => exact Oracle.classify?_eq t
  | postgresql => exact PostgreSql.classify?_eq t
  | mysql => exact MySql.classify?_eq t
  | sqlserver => exact SqlServer.classify?_eq t
  | custom h => rw [Pattern.classify?_eq, (VendorEntry.eq_of_build h).2]

end Vendor.Known

end SqlScript
