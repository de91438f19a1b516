import SqlScript.Proofs.Lexing.Occurrence
import SqlScript.Proofs.Lexing.Separator
import SqlScript.Proofs.Lexing.Splitting

/-!
# Statements on their own

The text of a statement that is split off a script is the text of lexemes again (`Statement.Body`):
where it stands in front of what ends it, those are what is read, unless its first line is taken for a
marker line, and they are the unit of that statement. `Vendor.Emits.exists_body` finds them in the
unit that the statement comes from, less the blanks at its ends.
-/

namespace SqlScript
open Text
open Keyword (Seals)

/-- Some script has the statement. -/
def Vendor.Emits (v : Vendor) (s : Statement) : Prop :=
  ∃ text, s ∈ (splitPartial v text).script

namespace Statement

/-- The text may begin with what ends the statement: a semicolon, or the line feed before a marker line. -/
inductive EndsBefore (v : Vendor) (s : Statement) : List Char → Prop
  | semicolon (z : List Char) : EndsBefore v s (';' :: z)
  | lineFeed {token : String} (hv : v.blockEnd = .line token) (hs : s.isProcedural) (z : List Char) :
    EndsBefore v s ('\n' :: z)

/-- The lexemes of a statement on its own. -/
structure Body (v : Vendor) (s : Statement) (core : List Lexeme) : Prop where
  text : Lexeme.join core = s.text.toList
  statement : SourceUnit.statement? ⟨core, s.isProcedural⟩ = some s
  unended : ∀ l ∈ core, l.ends v s.isProcedural = false
  kind : ∀ tail ls, Seals (Lexeme.join ls ++ tail) →
    SourceUnit.startsProcedural v tail (core ++ ls) = s.isProcedural
  first : ∀ c ∈ s.text.toList.head?, isBlank c = false
  lexes : ∀ before z, EndsWord before → s.EndsBefore v z →
    (startsLine before → v.endsBlock (firstLine (Lexeme.join core ++ z)) = false) → Lexes v z before core

end Statement

section
variable {v : Vendor} {f : Option Unterminated} {L : Lexing} {u : SourceUnit} {s : Statement}

theorem SourceUnit.isProcedural_of_statement? (h : u.statement? = some s) :
    s.isProcedural = u.procedural := by
  unfold statement? at h
  split at h
  · cases h
    cases u.procedural <;> rfl
  · cases h

theorem SourceUnit.text_of_statement? (h : u.statement? = some s) : s.text.toList =
    trim (Lexeme.join u.lexemes) ++ if Lexeme.endInLineComment u.lexemes then ['\n'] else [] := by
  unfold statement? at h
  split at h
  · cases h; simp
  · cases h

theorem SourceUnit.exists_isSignificant (h : u.statement? = some s) :
    ∃ l ∈ u.lexemes, l.isSignificant := by
  unfold statement? at h
  split at h
  · next hany => simpa using hany
  · cases h

theorem Vendor.Emits.exists_unit (hv : v.Plain) (h : v.Emits s) :
    ∃ ls tail open? u pre post, Lexes v tail [] ls ∧ (open? = false → tail = []) ∧
      SourceUnit.Occurs v tail open? ls u pre post ∧ u.statement? = some s := by
  obtain ⟨text, h⟩ := h
  rw [splitPartial_eq_splitting_lex hv, Lexing.splitting_eq, Lexing.script, List.mem_filterMap] at h
  obtain ⟨u, hu, hs⟩ := h
  obtain ⟨pre, post, ho⟩ := exists_occurs hu
  refine ⟨_, _, _, u, pre, post, lexes_lex hv [] text.toList, fun hopen => ?_, ho, hs⟩
  exact lex_tail_eq_nil hv (by simpa using hopen)

/-- Where lexemes stand in front of `z`, they can stand in front of `z'`. -/
structure Seam (v : Vendor) (z z' : List Char) : Prop where
  follows : Follows z z'
  seals : Seals z
  line : ∀ t, v.endsBlock (t ++ firstLine z') → v.endsBlock (t ++ firstLine z)

/-- A comment to the end of the line may be another one. -/
theorem seam_comment (hv : v ∈ Vendor.plainBuiltins) (t t' : List Char) :
    Seam v ('-' :: '-' :: t) ('-' :: '-' :: t') where
  follows := ⟨fun _ => rfl, nofun, endsWord_cons (by decide) _, endsWord_cons (by decide) _⟩
  seals := Keyword.seals_cons (by decide) (by decide) (by decide) (by decide) _
  line w hw := by
    have hmem : '-' ∈ w ++ firstLine ('-' :: '-' :: t') := by simp [firstLine_cons]
    exact absurd hmem (Vendor.notMem_of_endsBlock hv hw (by decide) (by decide))

theorem seam_endsBefore (hv : v ∈ Vendor.plainBuiltins) {z z' : List Char} (hz : Seals z)
    (hblank : ∀ token, v.blockEnd = .line token → s.isProcedural → ∀ c ∈ firstLine z, isBlank c)
    (h : s.EndsBefore v z') : Seam v z z' := by
  rcases h with z' | ⟨hblock, hs, z'⟩
  · refine ⟨⟨nofun, nofun, hz.word, endsWord_cons (by decide) _⟩, hz, fun w hw => ?_⟩
    have hmem : ';' ∈ w ++ firstLine (';' :: z') := by simp [firstLine_cons]
    exact absurd hmem (Vendor.notMem_of_endsBlock hv hw (by decide) (by decide))
  · refine ⟨⟨nofun, nofun, hz.word, endsWord_cons (by decide) _⟩, hz, fun w hw => ?_⟩
    rw [Vendor.endsBlock_append_blank (hblank _ hblock hs)]
    simpa using hw

/-- A comment to the end of the line is read where no line ends a block. -/
theorem reads_comment (hv : v ∈ Vendor.plainBuiltins) {t : List Char} (ht : '\n' ∉ t)
    (before z : List Char) : Reads v before ⟨.lineComment, '-' :: '-' :: t ++ ['\n']⟩ z := by
  refine (reads_iff (Vendor.plain_of_mem hv)).2 (.inr ⟨fun hm => ?_, .inr ⟨2, .lineComment, rfl, ?_, ?_, rfl⟩⟩)
  · have hmem : '-' ∈ firstLine ('-' :: '-' :: t ++ ['\n'] ++ z) := by simp [firstLine_cons]
    exact Vendor.notMem_of_endsBlock hv hm.2 (by decide) (by decide) hmem
  · simp
  · have heq : t ++ ['\n'] ++ z = t ++ '\n' :: z := by simp
    simp only [List.cons_append, List.drop_succ_cons, List.drop_zero, Region.through?, heq,
      wholeLine_append_of_notMem ht, wholeLine_line_feed]

end

section
variable {v : Vendor} {tail : List Char} {open? : Bool} {ls pre post lead mid y y' trail : List Lexeme}
  {u : SourceUnit} {s : Statement}

/-- What comes last and what is left of it, each with what is behind it. -/
theorem Lexeme.Parts.seam (hv : v ∈ Vendor.plainBuiltins) (hls : Lexes v tail [] ls)
    (htail : open? = false → tail = []) (ho : u.Occurs v tail open? ls pre post)
    (h : Lexeme.Parts u.lexemes lead mid y y' trail) (hmid : mid ≠ [])
    (hkind : ∀ l ∈ u.lexemes, l.kind ≠ .markerLine) (hs : s.isProcedural = u.procedural)
    {z : List Char} (hz : s.EndsBefore v z) :
    Seam v (Lexeme.join y ++ (Lexeme.join trail ++ (Lexeme.join post ++ tail))) (Lexeme.join y' ++ z) := by
  have hplain := Vendor.plain_of_mem hv
  rcases h.closing with _ | t
  · rw [Lexeme.join_nil, List.nil_append, List.nil_append]
    refine seam_endsBefore hv (ho.seals_behind hv hls htail h hmid hkind) (fun token hblock hp => ?_) hz
    exact ho.blank_behind hplain hls htail h hmid hkind hblock (by rw [← hs, hp])
  · have hu : Lexes v (Lexeme.join post ++ tail) ((Lexeme.join pre).reverse ++ []) u.lexemes := by
      rw [ho.lexemes] at hls
      exact (lexes_append.1 (lexes_append.1 hls).2).1
    obtain ⟨t, w, rfl, htrim, -⟩ := h.comment_eq hplain hu
    have := seam_comment hv (t ++ (Lexeme.join trail ++ (Lexeme.join post ++ tail))) (w ++ '\n' :: z)
    simpa [htrim] using this

/-- What is more than padding decides of what kind a unit is, whatever seals it. -/
theorem SourceUnit.startsProcedural_congr (hv : v ∈ Vendor.plainBuiltins) {l : Lexeme}
    (hl : l ∈ mid) (hsig : l.isSignificant) {tail' : List Char} {ls' : List Lexeme}
    (hz : Seals (Lexeme.join ls ++ tail)) (hz' : Seals (Lexeme.join ls' ++ tail')) :
    startsProcedural v tail (mid ++ ls) = startsProcedural v tail' (mid ++ ls') := by
  cases hdrop : mid.dropWhile (·.isPadding) with
  | nil =>
    have := List.dropWhile_eq_nil_iff.1 hdrop l hl
    rw [Lexeme.not_isSignificant_of_isPadding (by simpa using this)] at hsig
    cases hsig
  | cons m more =>
    rw [startsProcedural_append hdrop, startsProcedural_append hdrop,
      Vendor.isProceduralStart_append hv hz, Vendor.isProceduralStart_append hv hz']

theorem Lexeme.Parts.seals (hv : v.Plain) {z w : List Char} {before : List Char} {us : List Lexeme}
    (h : Lexeme.Parts us lead mid y y' trail) (hus : Lexes v z before us) (hw : Seals w) :
    Seals (Lexeme.join y' ++ w) := by
  rcases h.closing with _ | t
  · exact hw
  · obtain ⟨-, u, -, htrim, -⟩ := h.comment_eq hv hus
    simp only [Lexeme.join_cons, htrim, List.cons_append]
    exact Keyword.seals_cons (by decide) (by decide) (by decide) (by decide) _

theorem Lexeme.Parts.lexes (hv : v ∈ Vendor.plainBuiltins) {z before : List Char} {us : List Lexeme}
    (h : Lexeme.Parts us lead mid y y' trail) (hus : Lexes v z before us) (before' z' : List Char) :
    Lexes v z' before' y' := by
  rcases h.closing with _ | t
  · exact .nil _
  · obtain ⟨-, u, -, htrim, hu⟩ := h.comment_eq (Vendor.plain_of_mem hv) hus
    rw [htrim]
    exact .cons (reads_comment hv hu _ _) (.nil _)

/-- A statement that is split off a script is read as itself where it stands alone. -/
theorem Vendor.Emits.exists_body (hv : v ∈ Vendor.plainBuiltins) (h : v.Emits s) :
    ∃ core, s.Body v core := by
  have hplain := Vendor.plain_of_mem hv
  obtain ⟨ls, tail, open?, u, pre, post, hls, htail, ho, hu⟩ := h.exists_unit hplain
  obtain ⟨lead, mid, y, y', trail, hparts⟩ := Lexeme.exists_parts u.lexemes
  obtain ⟨l, hl, hsig⟩ := SourceUnit.exists_isSignificant hu
  have hlmid := hparts.mem_mid hl hsig
  have hmid : mid ≠ [] := List.ne_nil_of_mem hlmid
  have hs := SourceUnit.isProcedural_of_statement? hu
  have hkind : ∀ l ∈ u.lexemes, l.kind ≠ .markerLine := fun l hl hk => by
    have := ho.unended l hl
    simp [Lexeme.ends, hk] at this
  have hsub : ∀ l ∈ mid, l ∈ u.lexemes := fun l hl => by simp [hparts.eq, hl]
  have hunit : Lexes v (Lexeme.join post ++ tail) (Lexeme.join pre).reverse u.lexemes := by
    have := hls
    rw [ho.lexemes] at this
    simpa using (lexes_append.1 (lexes_append.1 this).2).1
  have hseam := fun {z} => hparts.seam (z := z) hv hls htail ho hmid hkind hs
  have hstatement : SourceUnit.statement? ⟨mid ++ y', s.isProcedural⟩ = some s := by
    rw [← hparts.statement?_eq, hs, hu]
  have htext : Lexeme.join (mid ++ y') = s.text.toList := by
    rw [SourceUnit.text_of_statement? hstatement, hparts.text_eq hplain hunit hkind]
  refine ⟨mid ++ y', htext, hstatement, ?_, ?_, ?_, ?_⟩
  · intro l hl
    rcases List.mem_append.1 hl with hl | hl
    · rw [hs]
      exact ho.unended l (hsub l hl)
    · rcases hparts.closing with _ | t
      · cases hl
      · obtain rfl := List.mem_singleton.1 hl
        rfl
  · intro tail' ls' hz
    rw [hs, ho.procedural, hparts.eq, List.append_assoc lead,
      SourceUnit.startsProcedural_append_of_isPadding fun l hl => Lexeme.isPadding_of_isBlank (hparts.lead l hl),
      List.append_assoc, List.append_assoc]
    refine SourceUnit.startsProcedural_congr hv hlmid hsig ?_ ?_
    · simpa using hparts.seals hplain hunit hz
    · simpa using (hseam (.semicolon [])).seals
  · rw [← htext]
    exact hparts.not_isBlank_head hplain hunit hkind
  · intro before z hbefore' hz hfirst
    refine lexes_append.2 ⟨?_, hparts.lexes hv hunit _ _⟩
    have hne : Lexeme.join u.lexemes ≠ [] := fun hnil =>
      hunit.text_ne_nil hplain l hl (List.flatMap_eq_nil_iff.1 hnil l hl)
    have hbefore := (ho.endsWord hplain hls hne).reverse_append (Lexeme.isBlank_of_mem_join hparts.lead)
    have hold : Lexes v (Lexeme.join y ++ (Lexeme.join trail ++ (Lexeme.join post ++ tail)))
        ((Lexeme.join lead).reverse ++ (Lexeme.join pre).reverse) mid := by
      rw [hparts.eq] at hunit
      simpa using (lexes_append.1 (lexes_append.1 hunit).2).1
    refine hold.congr_of_code hplain hbefore hbefore' (hseam hz).follows
      (fun l hl => hkind l (hsub l hl)) (fun l hl hk => hparts.line_feed_mem hplain hunit hl hk)
      (hseam hz).line fun hstart => by simpa using hfirst hstart

end
end SqlScript
