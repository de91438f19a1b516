import SqlScript.Proofs.Vendor.Lookahead
import SqlScript.Vendor.Entry

/-!
# Built-in vendors described by data

`Oracle.entry`, `SqlServer.entry` and `PostgreSql.entry` describe three of the built-in vendors by the
patterns of their procedural starts. Each pattern starts over at the beginning of the statement, where a
built-in vendor goes on from one keyword to the next; both find the same
(`Oracle.any_startsWith`, `SqlServer.any_startsWith`). No pattern looks for a dollar sign, so the ones for
PostgreSQL leave out a block whose body comes next after `DO` (`PostgreSql.any_startsWith`).
-/

namespace SqlScript
open Text

namespace Keyword
variable {k text rest : List Char}

theorem afterAny?_singleton (k text : List Char) : afterAny? [k] text = after? k text := by
  rw [afterAny?, List.findSome?_cons]
  cases after? k text <;> rfl

theorem isSome_afterAny? (ks : List (List Char)) (text : List Char) :
    (afterAny? ks text).isSome = ks.any fun k => (after? k text).isSome :=
  List.isSome_findSome?

/-- At one place there is no keyword with another letter in front. -/
theorem after?_eq_none_of_dropIgnoringCase {a b : Char} {k k' : List Char} (hne : foldAscii a ≠ foldAscii b)
    (h : dropIgnoringCase (a :: k) (trimStart text) = some rest) : after? (b :: k') text = none := by
  unfold after?
  cases htext : trimStart text with
  | nil => rfl
  | cons c t =>
    rw [htext] at h
    have hac : foldAscii a = foldAscii c := by
      by_contra hac
      simp [dropIgnoringCase, hac] at h
    have hbc : foldAscii b ≠ foldAscii c := fun hbc => hne (hac.trans hbc.symm)
    simp [dropIgnoringCase, hbc]

theorem dropIgnoringCase_of_after? (h : after? k text = some rest) :
    dropIgnoringCase k (trimStart text) = some rest := by
  unfold after? at h
  split at h
  · next hdrop =>
    split at h
    · rw [hdrop, h]
    · cases h
  · cases h

theorem after?_eq_none_of_after? {a b : Char} {k k' : List Char} (hne : foldAscii a ≠ foldAscii b)
    (h : after? (a :: k) text = some rest) : after? (b :: k') text = none :=
  after?_eq_none_of_dropIgnoringCase hne (dropIgnoringCase_of_after? h)

theorem dropIgnoringCase_eq_some_iff {t : List Char} :
    dropIgnoringCase k t = some rest ↔ ∃ word, t = word ++ rest ∧ sameIgnoringCase word k := by
  induction k generalizing t with
  | nil =>
    constructor
    · intro h
      cases h
      exact ⟨[], rfl, rfl⟩
    · rintro ⟨word, rfl, hword⟩
      have hnil : word = [] := by simpa [sameIgnoringCase] using hword
      rw [hnil]
      rfl
  | cons a k ih =>
    cases t with
    | nil =>
      refine ⟨nofun, ?_⟩
      rintro ⟨word, hword, hsame⟩
      rw [(List.append_eq_nil_iff.1 hword.symm).1] at hsame
      cases hsame
    | cons c t =>
      rw [dropIgnoringCase]
      constructor
      · intro h
        split at h
        · next hac =>
          obtain ⟨word, rfl, hword⟩ := ih.1 h
          refine ⟨c :: word, rfl, ?_⟩
          simp only [sameIgnoringCase, List.map_cons, beq_iff_eq, List.cons.injEq] at hac hword ⊢
          exact ⟨hac.symm, hword⟩
        · cases h
      · rintro ⟨word, hword, hsame⟩
        cases word with
        | nil => cases hsame
        | cons d word =>
          obtain ⟨rfl, rfl⟩ := List.cons.inj hword
          simp only [sameIgnoringCase, List.map_cons, beq_iff_eq, List.cons.injEq] at hsame
          rw [if_pos (by simp [hsame.1])]
          exact ih.2 ⟨word, rfl, by simpa [sameIgnoringCase] using hsame.2⟩

theorem endsHere_iff (hk : (k.getLast?.map isWordChar).getD false) : endsHere k rest ↔ EndsWord rest := by
  rw [endsHere, hk, Bool.true_and]
  cases rest <;> simp [EndsWord]

theorem after?_eq_some : after? k text = some rest ↔
    (∃ word, trimStart text = word ++ rest ∧ sameIgnoringCase word k) ∧ endsHere k rest := by
  rw [← dropIgnoringCase_eq_some_iff, after?]
  cases dropIgnoringCase k (trimStart text) with
  | none => simp
  | some rest' =>
    simp only [Option.ite_none_right_eq_some, Option.some.injEq]
    constructor
    · rintro ⟨h, rfl⟩
      exact ⟨rfl, h⟩
    · rintro ⟨rfl, h⟩
      exact ⟨h, rfl⟩

theorem after?_eq_some_iff (hk : (k.getLast?.map isWordChar).getD false) :
    after? k text = some rest ↔
      ∃ word, trimStart text = word ++ rest ∧ sameIgnoringCase word k ∧ EndsWord rest := by
  rw [after?_eq_some, endsHere_iff hk]
  constructor
  · rintro ⟨⟨word, htext, hword⟩, hends⟩
    exact ⟨word, htext, hword, hends⟩
  · rintro ⟨word, htext, hword, hends⟩
    exact ⟨⟨word, htext, hword⟩, hends⟩

theorem next?_eq_some_iff {c : Char} (hc : isBlank c = false) :
    next? text = some c ↔ ∃ gap rest, text = gap ++ c :: rest ∧ ∀ d ∈ gap, isBlank d := by
  rw [next?]
  constructor
  · intro h
    obtain ⟨rest, hrest⟩ := List.head?_eq_some_iff.1 h
    refine ⟨text.takeWhile isBlank, rest, ?_, fun d hd => List.mem_takeWhile_imp hd⟩
    rw [← hrest]
    exact List.takeWhile_append_dropWhile.symm
  · rintro ⟨gap, rest, rfl, hgap⟩
    rw [trimStart_append_of_blank hgap]
    simp [trimStart, hc]

end Keyword

/-- A keyword of one spelling. -/
def PatternItem.keyword (k : List Char) : PatternItem := .word [k]

/-- Keywords of one spelling each that are there together or not at all. -/
def PatternItem.run (ks : List (List Char)) : PatternItem := .optional (ks.map ([·]))

namespace Pattern
open Keyword

theorem afterWords?_singletons (ks : List (List Char)) (text : List Char) :
    afterWords? (ks.map ([·])) text = afterAll? ks text := by
  induction ks generalizing text with
  | nil => rfl
  | cons k ks ih =>
    rw [List.map_cons, afterWords?, afterAll?, afterAny?_singleton]
    exact congrArg _ (funext fun rest => ih rest)

section
variable (k : List Char) (ks : List (List Char)) (more : List PatternItem) (source : String)
  (text : List Char)

theorem afterItems?_keyword :
    afterItems? (.keyword k :: more) text = (after? k text).bind (afterItems? more) := by
  rw [PatternItem.keyword, afterItems?, afterAny?_singleton]

theorem afterItems?_run : afterItems? (.run ks :: more) text = afterItems? more (skip ks text) := by
  rw [PatternItem.run, afterItems?, afterWords?_singletons, skip]

theorem isSome_afterItems?_word :
    (afterItems? [.word ks] text).isSome = (afterAny? ks text).isSome := by
  rw [afterItems?]
  cases afterAny? ks text <;> rfl

theorem isSome_afterItems?_nil : (afterItems? [] text).isSome := rfl

theorem startsWith_keyword : startsWith ⟨source, .keyword k :: more⟩ text =
    (after? k text).any fun rest => (afterItems? more rest).isSome := by
  rw [startsWith, afterItems?_keyword]
  cases after? k text <;> rfl

end
end Pattern

theorem Delimiter.ofChars?_semicolon : ofChars? (trim ";".toList) = some semicolon := rfl

/-- An entry that is in order makes the vendor that it describes. -/
theorem VendorEntry.build_eq_ok {e : VendorEntry} {d : Delimiter} {b : BlockEnd} {patterns : List Pattern}
    (hname : normalName e.name ≠ "") (hdelimiter : Delimiter.ofChars? (trim e.delimiter.toList) = some d)
    (hblock : e.blockEnd.blockEnd = b) (hline : b ≠ .line "")
    (hpatterns : Pattern.parseAll e.proceduralStarts = .ok patterns) :
    e.build = .ok {
      name := normalName e.name, delimiter := d, patterns
      isProceduralStart := fun text => patterns.any (·.startsWith text)
      blockEnd := b
      delimiterDirective := e.delimiterDirective
      dollarQuoting := e.dollarQuoting
      backslashEscapes := e.backslashEscapes
      serverPort := e.serverPort } := by
  have hempty : ¬ (normalName e.name).isEmpty := by rwa [String.isEmpty_iff]
  subst hblock
  unfold build
  rw [if_neg hempty, hdelimiter]
  simp only [if_neg hline, hpatterns]

namespace Oracle
open Keyword Pattern

def units : List (List Char) :=
  ["FUNCTION".toList, "PROCEDURE".toList, "PACKAGE".toList, "TRIGGER".toList]

def entry (name : String) (serverPort : Option Nat) : VendorEntry where
  name := name
  delimiter := ";"
  blockEnd := .slash
  proceduralStarts := ["DECLARE", "BEGIN",
    "CREATE [OR REPLACE] [EDITIONABLE] [NONEDITIONABLE] FUNCTION|PROCEDURE|PACKAGE|TRIGGER"]
  serverPort := serverPort

def patterns : List Pattern := [
  ⟨"DECLARE", [.keyword "DECLARE".toList]⟩,
  ⟨"BEGIN", [.keyword "BEGIN".toList]⟩,
  ⟨"CREATE [OR REPLACE] [EDITIONABLE] [NONEDITIONABLE] FUNCTION|PROCEDURE|PACKAGE|TRIGGER",
    [.keyword "CREATE".toList, .run ["OR".toList, "REPLACE".toList], .run ["EDITIONABLE".toList],
      .run ["NONEDITIONABLE".toList], .word units]⟩]

theorem parseAll_proceduralStarts (name : String) (serverPort : Option Nat) :
    Pattern.parseAll (entry name serverPort).proceduralStarts = .ok patterns := by
  rfl

theorem any_startsWith (text : List Char) :
    patterns.any (·.startsWith text) = isProceduralStart text := by
  have hblock : (afterAny? ["DECLARE".toList, "BEGIN".toList] text).isSome =
      ((after? "DECLARE".toList text).isSome || (after? "BEGIN".toList text).isSome) := by
    simp [isSome_afterAny?]
  simp only [patterns, List.any_cons, List.any_nil, Bool.or_false, startsWith_keyword, afterItems?_run,
    isSome_afterItems?_word, isSome_afterItems?_nil, Option.any_true]
  rw [isProceduralStart, hblock, Bool.or_assoc]
  cases after? "CREATE".toList text <;> rfl

theorem build_entry {name : String} (hname : normalName name ≠ "") (serverPort : Option Nat) :
    ∃ v, (entry name serverPort).build = .ok v ∧
      v.toVendor = { oracle with name := normalName name, serverPort } := by
  have hbuild := VendorEntry.build_eq_ok (e := entry name serverPort) (b := .line "/") hname
    Delimiter.ofChars?_semicolon rfl (by decide) (parseAll_proceduralStarts name serverPort)
  refine ⟨_, hbuild, ?_⟩
  rw [funext any_startsWith]
  rfl

end Oracle

namespace SqlServer
open Keyword Pattern

def entry (name : String) (serverPort : Option Nat) : VendorEntry where
  name := name
  delimiter := ";"
  blockEnd := .line "GO"
  proceduralStarts := ["CREATE [OR ALTER] PROCEDURE|PROC|TRIGGER|FUNCTION",
    "ALTER PROCEDURE|PROC|TRIGGER|FUNCTION"]
  serverPort := serverPort

def units : List (List Char) :=
  ["PROCEDURE".toList, "PROC".toList, "TRIGGER".toList, "FUNCTION".toList]

def patterns : List Pattern := [
  ⟨"CREATE [OR ALTER] PROCEDURE|PROC|TRIGGER|FUNCTION",
    [.keyword "CREATE".toList, .run ["OR".toList, "ALTER".toList], .word units]⟩,
  ⟨"ALTER PROCEDURE|PROC|TRIGGER|FUNCTION", [.keyword "ALTER".toList, .word units]⟩]

theorem parseAll_proceduralStarts (name : String) (serverPort : Option Nat) :
    Pattern.parseAll (entry name serverPort).proceduralStarts = .ok patterns := by
  rfl

theorem any_startsWith (text : List Char) :
    patterns.any (·.startsWith text) = isProceduralStart text := by
  simp only [patterns, List.any_cons, List.any_nil, Bool.or_false, startsWith_keyword, afterItems?_run,
    isSome_afterItems?_word]
  rw [isProceduralStart]
  cases hcreate : after? "CREATE".toList text with
  | none => cases after? "ALTER".toList text <;> rfl
  | some rest =>
    have halter : after? "ALTER".toList text = none := after?_eq_none_of_after? (by decide) hcreate
    rw [halter]
    exact Bool.or_false _

theorem build_entry {name : String} (hname : normalName name ≠ "") (serverPort : Option Nat) :
    ∃ v, (entry name serverPort).build = .ok v ∧
      v.toVendor = { sqlserver with name := normalName name, serverPort } := by
  have hbuild := VendorEntry.build_eq_ok (e := entry name serverPort) (b := .line "GO") hname
    Delimiter.ofChars?_semicolon rfl (by decide) (parseAll_proceduralStarts name serverPort)
  refine ⟨_, hbuild, ?_⟩
  rw [funext any_startsWith]
  rfl

end SqlServer

namespace PostgreSql
open Keyword Pattern

def entry (name : String) (serverPort : Option Nat) : VendorEntry where
  name := name
  delimiter := ";"
  blockEnd := .activeDelimiter
  proceduralStarts := ["DO LANGUAGE", "CREATE [OR REPLACE] [CONSTRAINT] FUNCTION|PROCEDURE|TRIGGER"]
  dollarQuoting := true
  serverPort := serverPort

def patterns : List Pattern := [
  ⟨"DO LANGUAGE", [.keyword "DO".toList, .keyword "LANGUAGE".toList]⟩,
  ⟨"CREATE [OR REPLACE] [CONSTRAINT] FUNCTION|PROCEDURE|TRIGGER",
    [.keyword "CREATE".toList, .run ["OR".toList, "REPLACE".toList], .run ["CONSTRAINT".toList],
      .word ["FUNCTION".toList, "PROCEDURE".toList, "TRIGGER".toList]]⟩]

theorem parseAll_proceduralStarts (name : String) (serverPort : Option Nat) :
    Pattern.parseAll (entry name serverPort).proceduralStarts = .ok patterns := by
  rfl

/-- An anonymous block whose body comes next: the whole word `DO` in any case, and a dollar sign behind
blanks. -/
def StartsBody (text : List Char) : Prop :=
  ∃ word gap rest, trimStart text = word ++ (gap ++ '$' :: rest) ∧ sameIgnoringCase word "DO".toList ∧
    (∀ c ∈ gap, isBlank c) ∧ EndsWord (gap ++ '$' :: rest)

theorem startsBody_iff {text : List Char} :
    StartsBody text ↔ ∃ rest, after? "DO".toList text = some rest ∧ next? rest = some '$' := by
  constructor
  · rintro ⟨word, gap, rest, htext, hword, hgap, hends⟩
    exact ⟨_, (after?_eq_some_iff rfl).2 ⟨word, htext, hword, hends⟩,
      (next?_eq_some_iff (by decide)).2 ⟨gap, rest, rfl, hgap⟩⟩
  · rintro ⟨_, hdo, hnext⟩
    obtain ⟨gap, rest, rfl, hgap⟩ := (next?_eq_some_iff (by decide)).1 hnext
    obtain ⟨word, htext, hword, hends⟩ := (after?_eq_some_iff rfl).1 hdo
    exact ⟨word, gap, rest, htext, hword, hgap, hends⟩

/-- The patterns and the vendor tell the same statements apart, but for a block whose body comes next
after `DO`. -/
theorem any_startsWith {text : List Char} (h : ¬ StartsBody text) :
    patterns.any (·.startsWith text) = isProceduralStart text := by
  rw [startsBody_iff] at h
  simp only [patterns, List.any_cons, List.any_nil, Bool.or_false, startsWith_keyword, afterItems?_run,
    afterItems?_keyword, isSome_afterItems?_word]
  rw [isProceduralStart]
  cases hdo : after? "DO".toList text with
  | none => cases after? "CREATE".toList text <;> rfl
  | some rest =>
    have hcreate : after? "CREATE".toList text = none := after?_eq_none_of_after? (by decide) hdo
    have hnext : next? rest ≠ some '$' := fun hnext => h ⟨rest, hdo, hnext⟩
    rw [hcreate]
    simp only [Option.any_some, Option.any_none, Bool.or_false, beq_eq_false_iff_ne.2 hnext, Bool.false_or]
    cases after? "LANGUAGE".toList rest <;> rfl

theorem build_entry {name : String} (hname : normalName name ≠ "") (serverPort : Option Nat) :
    ∃ v, (entry name serverPort).build = .ok v ∧ v.toVendor = { postgresql with
      name := normalName name, serverPort
      isProceduralStart := fun text => patterns.any (·.startsWith text) } := by
  have hbuild := VendorEntry.build_eq_ok (e := entry name serverPort) (b := .activeDelimiter) hname
    Delimiter.ofChars?_semicolon rfl (by decide) (parseAll_proceduralStarts name serverPort)
  exact ⟨_, hbuild, rfl⟩

/-- What seals a statement off does not show in whether it is a block whose body comes next. -/
theorem StartsBody.of_append {text z : List Char} (hz : Seals z) (h : StartsBody (text ++ z)) :
    StartsBody text := by
  rw [startsBody_iff] at h ⊢
  obtain ⟨_, hdo, hnext⟩ := h
  obtain ⟨o, ho, ho'⟩ := hz.alike_nil.after?_eq (k := "DO".toList) (by decide) text
  rw [ho] at hdo
  obtain ⟨rest, rfl, rfl⟩ := Option.map_eq_some_iff.1 hdo
  have heq := hz.alike_nil.next?_eq_dollar rest
  simp only [List.append_nil, Option.map_some] at ho' heq
  exact ⟨rest, ho', by rwa [hnext, beq_self_eq_true, eq_comm, beq_iff_eq] at heq⟩

end PostgreSql
end SqlScript
