import SqlScript.Proofs.Lexing.Basic
import SqlScript.Proofs.Splitting.Region
import SqlScript.Proofs.Text.Blank

/-!
# Reading one lexeme

The lexer has rules of its own for what makes backslashes count and for the tag of a dollar-quoted
literal; the scan finds the same (`Lexeme.behindE_eq`, `Lexeme.tag?_eq`). So `lexeme_eq` says what a
lexeme is in terms of the region that code opens: what opens it and the text through what closes it. Of
the text behind, it shows no more than `lexeme_cases` says.
-/

namespace SqlScript
open Text

namespace Region

/-- The text through what ends the region. -/
def through? : Region → List Char → Option (List Char)
  | .code, _ => some []
  | .quoted mark backslash, text => throughQuote? mark backslash text
  | .lineComment, text => some (wholeLine text)
  | .blockComment, text => Text.through? ['*', '/'] text
  | .dollarQuoted tag, text => Text.through? tag text

def lexemeKind : Region → Lexeme.Kind
  | .code => .code
  | .quoted .. | .dollarQuoted _ => .literal
  | .lineComment => .lineComment
  | .blockComment => .blockComment

def failure (here : Location) : Region → Unterminated
  | .quoted mark _ => .quote (String.singleton mark) here
  | .dollarQuoted tag => .quote (String.ofList tag) here
  | _ => .comment here

theorem through?_isPrefix {r : Region} {t body : List Char} (h : r.through? t = some body) :
    body <+: t := by
  cases r with
  | code => cases h; exact List.nil_prefix
  | quoted => exact throughQuote?_isPrefix h
  | lineComment => cases h; exact wholeLine_isPrefix t
  | blockComment => exact Text.through?_isPrefix h
  | dollarQuoted => exact Text.through?_isPrefix h

end Region

namespace Lexeme

/-- The scan asks the same of the characters before a quote. -/
theorem behindE_eq (before : List Char) : behindE before = Region.afterEscapeMark before := by
  cases before with
  | nil => rfl
  | cons c before =>
    have hword : (before.head?.all fun c => !isAlphanumeric c && c != '_' && c != '$') =
        !((before.head?.map fun c => isAlphanumeric c || c == '_' || c == '$').getD false) := by
      cases before <;> simp [bne]
    by_cases hupper : c = 'E'
    · subst hupper
      simpa [behindE, Region.afterEscapeMark] using hword
    by_cases hlower : c = 'e'
    · subst hlower
      simpa [behindE, Region.afterEscapeMark] using hword
    · simp [behindE, Region.afterEscapeMark, hupper, hlower]

theorem tagEnd?_eq_some_iff {text t : List Char} :
    tagEnd? text = some t ↔
      ∃ name rest, text = name ++ '$' :: rest ∧ t = name ++ ['$'] ∧ ∀ c ∈ name, Region.isTagChar c := by
  constructor
  · intro h
    fun_induction tagEnd? text generalizing t with
    | case1 => cases h
    | case2 text => cases h; exact ⟨[], text, rfl, rfl, nofun⟩
    | case3 c text hdollar hc ih =>
      obtain ⟨t', ht', rfl⟩ := Option.map_eq_some_iff.1 h
      obtain ⟨name, rest, rfl, rfl, hname⟩ := ih ht'
      exact ⟨c :: name, rest, rfl, rfl, List.forall_mem_cons.2 ⟨hc, hname⟩⟩
    | case4 => cases h
  · rintro ⟨name, rest, rfl, rfl, hname⟩
    induction name with
    | nil => simp [tagEnd?]
    | cons c name ih =>
      obtain ⟨hc, hname⟩ := List.forall_mem_cons.1 hname
      have hdollar : c ≠ '$' := by rintro rfl; simp [Region.isTagChar_dollar] at hc
      have hchar : (isAlphanumeric c || c == '_') = true := hc
      rw [List.cons_append, tagEnd?, if_neg hdollar, if_pos hchar, ih hname]
      rfl

/-- The scan finds the same tag. -/
theorem tag?_eq (text : List Char) : tag? text = Region.dollarTag? text := by
  have hhead : ∀ name rest : List Char,
      (name ++ '$' :: rest).head?.any Char.isDigit = (name.head?.map Char.isDigit).getD false := by
    intro name rest
    cases name with
    | nil => rfl
    | cons c name => simp
  refine Option.ext fun tag => ?_
  rw [Region.dollarTag?_eq_some_iff]
  constructor
  · intro h
    unfold tag? at h
    split at h
    · split at h
      · cases h
      · next text hdigit =>
        obtain ⟨t, ht, rfl⟩ := Option.map_eq_some_iff.1 h
        obtain ⟨name, rest, rfl, rfl, hname⟩ := tagEnd?_eq_some_iff.1 ht
        exact ⟨name, rest, rfl, rfl, hname, by rwa [hhead, Bool.not_eq_true] at hdigit⟩
    · cases h
  · rintro ⟨name, rest, rfl, rfl, hname, hdigit⟩
    have hnot : ¬ (name ++ '$' :: rest).head?.any Char.isDigit := by rw [hhead, hdigit]; nofun
    rw [tag?, if_neg hnot, tagEnd?_eq_some_iff.2 ⟨name, rest, rfl, rfl, hname⟩]
    rfl

end Lexeme

theorem lexeme_eq {v : Vendor} (hv : v.Plain) (before : List Char) (c : Char)
    (text : List Char) :
    lexeme v before c text =
      if startsLine before && v.endsBlock (firstLine (c :: text)) then
        .ok ⟨.markerLine, wholeLine (c :: text)⟩
      else match Region.openedBy? v before (c :: text) with
        | none => .ok ⟨.code, [c]⟩
        | some (n, r) =>
          Lexeme.enclosed r.lexemeKind ((c :: text).take n) (r.through? ((c :: text).drop n))
            (r.failure (.after before)) := by
  unfold lexeme
  split
  · rfl
  · split
    · simp [Region.openedBy?, Lexeme.enclosed, Region.through?, wholeLine_cons, Region.lexemeKind]
    · rfl
    · simp [Region.openedBy?, Region.through?, Region.lexemeKind, hv.backslashEscapes, Lexeme.behindE_eq]
      rfl
    · simp [Region.openedBy?, Region.through?, Region.lexemeKind, hv.backslashEscapes]; rfl
    · have hopen : Region.openedBy? v before (c :: text) =
          if v.dollarQuoting then
            (Region.dollarTag? (c :: text)).map fun tag => (tag.length, .dollarQuoted tag)
          else none := by
        unfold Region.openedBy?
        split
        all_goals try simp_all
      rw [hopen, Lexeme.tag?_eq]
      cases hd : v.dollarQuoting with
      | false => rfl
      | true =>
        cases htag : Region.dollarTag? (c :: text) with
        | none => simp
        | some tag =>
          have htake := List.prefix_iff_eq_take.1 (Region.dollarTag?_isPrefix htag)
          simp [← htake, Region.through?, Region.lexemeKind, Region.failure]

section
variable {v : Vendor} {before text : List Char} {c : Char} {l : Lexeme}

def Vendor.AtMarkerLine (v : Vendor) (before text : List Char) : Prop :=
  startsLine before ∧ v.endsBlock (firstLine text)

/-- What a lexeme can be: a marker line, a character of code or what a region makes up. -/
theorem lexeme_eq_ok_iff (hv : v.Plain) :
    lexeme v before c text = .ok l ↔
      v.AtMarkerLine before (c :: text) ∧ l = ⟨.markerLine, wholeLine (c :: text)⟩ ∨
      ¬ v.AtMarkerLine before (c :: text) ∧
        (Region.openedBy? v before (c :: text) = none ∧ l = ⟨.code, [c]⟩ ∨
        ∃ n r body, Region.openedBy? v before (c :: text) = some (n, r) ∧
          r.through? ((c :: text).drop n) = some body ∧
          l = ⟨r.lexemeKind, (c :: text).take n ++ body⟩) := by
  rw [lexeme_eq hv]
  by_cases hm : v.AtMarkerLine before (c :: text)
  · rw [if_pos (by simpa [Vendor.AtMarkerLine] using hm)]
    simp [hm, eq_comm]
  · rw [if_neg (by simpa [Vendor.AtMarkerLine] using hm)]
    simp only [hm, false_and, not_false_eq_true, true_and, false_or]
    cases ho : Region.openedBy? v before (c :: text) with
    | none => simp [eq_comm]
    | some p =>
      obtain ⟨n, r⟩ := p
      cases hb : r.through? ((c :: text).drop n) with
      | none => simp +contextual [Lexeme.enclosed, hb]
      | some body =>
        simp only [Lexeme.enclosed, hb, Except.ok.injEq, reduceCtorEq, false_and, false_or]
        exact ⟨fun h => ⟨n, r, body, rfl, hb, h.symm⟩, fun ⟨_, _, _, ho', hb', h'⟩ => by
          cases ho'; cases hb.symm.trans hb'; exact h'.symm⟩

theorem lexeme_eq_error_iff (hv : v.Plain) {f : Unterminated} :
    lexeme v before c text = .error f ↔
      ¬ v.AtMarkerLine before (c :: text) ∧ ∃ n r,
        Region.openedBy? v before (c :: text) = some (n, r) ∧
        r.through? ((c :: text).drop n) = none ∧ f = r.failure (.after before) := by
  rw [lexeme_eq hv]
  by_cases hm : v.AtMarkerLine before (c :: text)
  · rw [if_pos (by simpa [Vendor.AtMarkerLine] using hm)]
    simp [hm]
  · rw [if_neg (by simpa [Vendor.AtMarkerLine] using hm)]
    simp only [hm, not_false_eq_true, true_and]
    cases ho : Region.openedBy? v before (c :: text) with
    | none => simp
    | some p =>
      obtain ⟨n, r⟩ := p
      cases hb : r.through? ((c :: text).drop n) with
      | none =>
        simp only [Lexeme.enclosed, hb, Except.error.injEq]
        exact ⟨fun h => ⟨n, r, rfl, hb, h.symm⟩, fun ⟨_, _, ho', _, h'⟩ => by cases ho'; exact h'.symm⟩
      | some body => simp +contextual [Lexeme.enclosed, hb]

/-- What a text starts with does not show what is before it, the start of a line and an escape mark
apart. Only the place of a failure tells more. -/
theorem lexeme_cases (hv : v.Plain) (before : List Char) (c : Char) (text : List Char) :
    (∃ l, ∀ before', startsLine before' = startsLine before →
      Region.afterEscapeMark before' = Region.afterEscapeMark before → lexeme v before' c text = .ok l) ∨
    ∃ r : Region, ∀ before', startsLine before' = startsLine before →
      Region.afterEscapeMark before' = Region.afterEscapeMark before →
        lexeme v before' c text = .error (r.failure (.after before')) := by
  have hm : ∀ before', startsLine before' = startsLine before →
      (v.AtMarkerLine before' (c :: text) ↔ v.AtMarkerLine before (c :: text)) := fun before' hs => by
    rw [Vendor.AtMarkerLine, Vendor.AtMarkerLine, hs]
  cases h : lexeme v before c text with
  | ok l =>
    refine .inl ⟨l, fun before' hs he => ?_⟩
    rwa [lexeme_eq_ok_iff hv, hm before' hs, Region.openedBy?_congr_before he, ← lexeme_eq_ok_iff hv]
  | error f =>
    obtain ⟨hm', n, r, ho, hthrough, -⟩ := (lexeme_eq_error_iff hv).1 h
    refine .inr ⟨r, fun before' hs he => (lexeme_eq_error_iff hv).2 ⟨?_, n, r, ?_, hthrough, rfl⟩⟩
    · rwa [hm before' hs]
    · rwa [Region.openedBy?_congr_before he]

theorem lexeme_text (hv : v.Plain) (h : lexeme v before c text = .ok l) :
    ∃ more, l.text = c :: more ∧ more <+: text := by
  have hp : l.text <+: c :: text ∧ l.text ≠ [] := by
    rcases (lexeme_eq_ok_iff hv).1 h with ⟨-, rfl⟩ | ⟨-, ⟨-, rfl⟩ | ⟨n, r, body, ho, hb, rfl⟩⟩
    · exact ⟨wholeLine_isPrefix _, wholeLine_ne_nil c text⟩
    · exact ⟨by simp, by simp⟩
    · refine ⟨?_, ?_⟩
      · conv_rhs => rw [← List.take_append_drop n (c :: text)]
        exact (List.prefix_append_right_inj _).2 (Region.through?_isPrefix hb)
      · have := (Region.openedBy?_eq_some ho).1
        simp; omega
  obtain ⟨more, hmore⟩ := List.exists_cons_of_ne_nil hp.2
  obtain ⟨rest, hl⟩ := hmore
  rw [hl, List.cons_prefix_cons] at hp
  exact ⟨rest, by rw [hl, hp.1.1], hp.1.2⟩

/-- What a lexeme is shows in what it starts with, marker lines apart. -/
theorem lexeme_kind (hv : v.Plain) (h : lexeme v before c text = .ok l) (hm : l.kind ≠ .markerLine) :
    (l.kind == .lineComment) = ['-', '-'].isPrefixOf (c :: text) ∧
    (l.kind == .blockComment) = ['/', '*'].isPrefixOf (c :: text) ∧
    l.isBlank = isBlank c ∧ l.isSemicolon = (c == ';') := by
  simp only [Bool.eq_iff_iff (b := List.isPrefixOf _ _), List.isPrefixOf_iff_prefix]
  rcases (lexeme_eq_ok_iff hv).1 h with ⟨-, rfl⟩ | ⟨-, ⟨ho, rfl⟩ | ⟨n, r, body, ho, hb, rfl⟩⟩
  · exact absurd rfl hm
  · obtain ⟨hline, hblock, -⟩ := Region.openedBy?_eq_none_iff.1 ho
    simp [hline, hblock, Lexeme.isBlank, Lexeme.isSemicolon]
  · rcases Region.openedBy?_cases ho with
      ⟨rfl, rfl, hp⟩ | ⟨rfl, rfl, hp⟩ | ⟨mark, backslash, rfl, rfl, rfl, hc⟩ | ⟨tag, rfl, rfl, rfl, -⟩
    · obtain ⟨rest, hrest⟩ := hp
      cases hrest
      simp [Region.lexemeKind, Lexeme.isBlank, Lexeme.isSemicolon]; rfl
    · obtain ⟨rest, hrest⟩ := hp
      cases hrest
      simp [Region.lexemeKind, Lexeme.isBlank, Lexeme.isSemicolon]; rfl
    · rcases hc with rfl | rfl <;>
      · simp [Region.lexemeKind, Lexeme.isBlank, Lexeme.isSemicolon]; rfl
    · simp [Region.lexemeKind, Lexeme.isBlank, Lexeme.isSemicolon]; rfl

theorem not_isBlank_of_isSignificant (hv : v.Plain) (h : lexeme v before c text = .ok l)
    (hl : l.isSignificant) : Text.isBlank c = false := by
  have hm : l.kind ≠ .markerLine := by
    simp only [Lexeme.isSignificant, Bool.and_eq_true, bne_iff_ne] at hl
    exact hl.2
  rw [← (lexeme_kind hv h hm).2.2.1]
  simp_all [Lexeme.isSignificant, Lexeme.isPadding]

end

end SqlScript
