import SqlScript.Proofs.Text.Case
import SqlScript.Vendor.Builtin

/-!
# Vendors that ignore case

A keyword is found in a folded text where it is found in the text (`Keyword.after?_map_foldAscii`), so
Oracle and SQL Server classify a statement as they classify it folded. Whatever else they tell apart in
code is no letter (`Vendor.IgnoresCase`): a delimiter from a directive or the tag of a literal could be one.
-/

namespace SqlScript
open Text

namespace Keyword

theorem endsHere_map_foldAscii (k rest : List Char) : endsHere k (rest.map foldAscii) = endsHere k rest := by
  rw [endsHere, List.head?_map, Option.map_map, show isWordChar ∘ foldAscii = isWordChar from
    funext isWordChar_foldAscii, endsHere]

theorem after?_map_foldAscii (k text : List Char) :
    after? k (text.map foldAscii) = (after? k text).map (·.map foldAscii) := by
  rw [after?, trimStart_map_foldAscii, dropIgnoringCase_map_foldAscii, after?]
  cases dropIgnoringCase k (trimStart text) with
  | none => rfl
  | some rest =>
    simp only [Option.map_some, endsHere_map_foldAscii]
    split <;> rfl

theorem afterAny?_map_foldAscii (ks : List (List Char)) (text : List Char) :
    afterAny? ks (text.map foldAscii) = (afterAny? ks text).map (·.map foldAscii) := by
  rw [afterAny?, afterAny?, List.map_findSome?]
  exact congrArg (List.findSome? · ks) (funext fun k => after?_map_foldAscii k text)

theorem isSome_afterAny?_map_foldAscii (ks : List (List Char)) (text : List Char) :
    (afterAny? ks (text.map foldAscii)).isSome = (afterAny? ks text).isSome := by
  rw [afterAny?_map_foldAscii, Option.isSome_map]

theorem afterAll?_map_foldAscii (ks : List (List Char)) (text : List Char) :
    afterAll? ks (text.map foldAscii) = (afterAll? ks text).map (·.map foldAscii) := by
  induction ks generalizing text with
  | nil => rfl
  | cons k ks ih =>
    rw [afterAll?, after?_map_foldAscii, afterAll?]
    cases after? k text with
    | none => rfl
    | some rest => exact ih rest

theorem skip_map_foldAscii (ks : List (List Char)) (text : List Char) :
    skip ks (text.map foldAscii) = (skip ks text).map foldAscii := by
  rw [skip, afterAll?_map_foldAscii, Option.getD_map, skip]

end Keyword

open Keyword

theorem Oracle.isProceduralStart_map_foldAscii (text : List Char) :
    isProceduralStart (text.map foldAscii) = isProceduralStart text := by
  rw [isProceduralStart, isSome_afterAny?_map_foldAscii, after?_map_foldAscii, isProceduralStart]
  cases after? "CREATE".toList text with
  | none => rfl
  | some rest => simp only [Option.map_some, skip_map_foldAscii, isSome_afterAny?_map_foldAscii]

theorem SqlServer.isProceduralStart_map_foldAscii (text : List Char) :
    isProceduralStart (text.map foldAscii) = isProceduralStart text := by
  rw [isProceduralStart, after?_map_foldAscii, after?_map_foldAscii, isProceduralStart]
  cases after? "CREATE".toList text with
  | some rest => simp only [Option.map_some, skip_map_foldAscii, isSome_afterAny?_map_foldAscii]
  | none =>
    cases after? "ALTER".toList text with
    | none => rfl
    | some rest => simp only [Option.map_none, Option.map_some, isSome_afterAny?_map_foldAscii]

namespace Vendor

/-- The case of a letter shows nowhere in how scripts of the vendor are split. -/
structure IgnoresCase (v : Vendor) : Prop where
  isProceduralStart : ∀ text, v.isProceduralStart (text.map foldAscii) = v.isProceduralStart text
  delimiter : v.delimiter.chars.all (!·.isAlpha)
  delimiterDirective : v.delimiterDirective = false
  dollarQuoting : v.dollarQuoting = false

theorem ignoresCase_oracle : oracle.IgnoresCase where
  isProceduralStart := Oracle.isProceduralStart_map_foldAscii
  delimiter := by decide
  delimiterDirective := rfl
  dollarQuoting := rfl

theorem ignoresCase_sqlserver : sqlserver.IgnoresCase where
  isProceduralStart := SqlServer.isProceduralStart_map_foldAscii
  delimiter := by decide
  delimiterDirective := rfl
  dollarQuoting := rfl

end Vendor
end SqlScript
