import SqlScript.Proofs.Splitting.Body

/-!
# Rendering scripts

`Script.rendered` writes each statement with what ends it, on lines of its own. Splitting the rendering
of statements that come from any scripts gives them back (`split_rendered`), unless one of them hides a
marker line: text whose first line would end a block if it stood at the start of a line.
-/

namespace SqlScript
open Text
open Keyword (Seals)

/-- The text of the statement with what ends it. -/
def Statement.rendered (v : Vendor) (s : Statement) : String :=
  match s.kind, v.blockEnd with
  | .procedural, .line token => s.text ++ "\n" ++ token ++ "\n"
  | _, _ => s.text ++ v.delimiter.text ++ "\n"

/-- The texts of the statements, each with what ends it. -/
def Script.rendered (v : Vendor) : Script → String
  | [] => ""
  | s :: script => s.rendered v ++ Script.rendered v script

/-- The first line of the text, if it is not all of it, is a marker line where a line starts. -/
def Statement.HidesMarker (v : Vendor) (s : Statement) : Prop :=
  '\n' ∈ s.text.toList ∧ v.endsBlock (firstLine s.text.toList)

instance (v : Vendor) (s : Statement) : Decidable (s.HidesMarker v) :=
  inferInstanceAs (Decidable (_ ∧ _))

theorem Text.endsWord_of_startsLine {before : List Char} (h : startsLine before) : EndsWord before := by
  cases before with
  | nil => exact endsWord_nil
  | cons c before =>
    obtain rfl : c = '\n' := by simpa [startsLine] using h
    exact endsWord_of_isBlank (by decide) before

/-- The first lexing has the statement, and behind it what the second one has. -/
structure Lexing.Leads (v : Vendor) (s : Statement) (L M : Lexing) : Prop where
  script : L.script v = s :: M.script v
  failure : L.failure = M.failure

namespace Statement.Body
variable {v : Vendor} {s : Statement} {core : List Lexeme} {before z : List Char}

theorem isProcedural_eq_false (hv : v ∈ Vendor.plainBuiltins) (h : s.Body v core)
    (hm : v.endsBlock (firstLine s.text.toList)) : s.isProcedural = false := by
  have hplain := Vendor.plain_of_mem hv
  have hlexes := h.lexes [' '] [';'] (endsWord_of_isBlank (by decide) _) (.semicolon []) nofun
  cases core with
  | nil =>
    rw [← h.text] at hm
    simp [Vendor.endsBlock_nil hv] at hm
  | cons l more =>
    have hr := hlexes.reads []
    have hkind : l.kind ≠ .markerLine := fun hk => by
      have := h.unended l (by simp)
      simp [Lexeme.ends, hk] at this
    have hdash : '-' ∉ firstLine s.text.toList := Vendor.notMem_of_endsBlock hv hm (by decide) (by decide)
    have hstar : '*' ∉ firstLine s.text.toList := Vendor.notMem_of_endsBlock hv hm (by decide) (by decide)
    have hpad : l.isPadding = false := by
      obtain ⟨c, t, ht, hblank, hblock⟩ := hr.begins hplain hkind
      have hfirst := h.first c (by rw [← h.text, Lexeme.join_cons, ht]; rfl)
      rw [← h.text, Lexeme.join_cons] at hdash hstar
      by_contra hpad
      simp only [Lexeme.isPadding, Lexeme.isComment, hblank, hfirst, Bool.false_or, Bool.not_eq_false,
        Bool.or_eq_true, beq_iff_eq] at hpad
      rcases hpad with hk | hk
      · obtain ⟨u, hu, -⟩ := hr.lineComment_eq hplain hk
        exact hdash (by simp [hu, firstLine_cons])
      · obtain ⟨rfl, hnext⟩ := hblock hk
        obtain ⟨u, rfl⟩ := List.head?_eq_some_iff.1 hnext
        exact hstar (by simp [ht, firstLine_cons])
    have hkind' := h.kind [] [] Keyword.seals_nil
    rw [List.append_nil, SourceUnit.startsProcedural_cons hpad, h.text, List.append_nil,
      Vendor.isProceduralStart_eq_false hv fun c hc => (Keyword.visible_of_endsBlock hv hm c hc).1,
      Bool.and_false] at hkind'
    exact hkind'.symm

/-- Unless it hides a marker line, the text begins no marker line in front of what ends it. -/
theorem endsBlock_firstLine (hv : v ∈ Vendor.plainBuiltins) (h : s.Body v core) (hs : ¬ s.HidesMarker v)
    (hz : s.EndsBefore v z) : v.endsBlock (firstLine (Lexeme.join core ++ z)) = false := by
  rw [h.text]
  by_cases hmem : '\n' ∈ s.text.toList
  · rw [firstLine_append_of_mem hmem]
    by_contra hm
    exact hs ⟨hmem, by simpa using hm⟩
  · rw [firstLine_append_of_notMem hmem]
    rcases hz with z | ⟨hblock, hp, z⟩
    · have hsemi : ';' ∈ s.text.toList ++ firstLine (';' :: z) := by simp [firstLine_cons]
      by_contra hm
      exact Vendor.notMem_of_endsBlock hv (by simpa using hm) (by decide) (by decide) hsemi
    · rw [firstLine_line_feed, List.append_nil]
      by_contra hm
      have := h.isProcedural_eq_false hv (by rw [firstLine_eq_self hmem]; simpa using hm)
      rw [hp] at this
      cases this

theorem lex_semicolon (hv : v ∈ Vendor.plainBuiltins) (h : s.Body v core) (hs : ¬ s.HidesMarker v)
    (hends : s.isProcedural → v.blockEnd = .activeDelimiter) (hstart : startsLine before) (z : List Char)
    {t : List Char} (ht : t = s.text.toList ++ [';']) :
    Lexing.Leads v s (lex v before (t ++ z)) (lex v (t.reverse ++ before) z) := by
  have hplain := Vendor.plain_of_mem hv
  have hz := EndsBefore.semicolon (v := v) (s := s) z
  have hcore := h.lexes before _ (endsWord_of_startsLine hstart) hz fun _ => h.endsBlock_firstLine hv hs hz
  have hall : Lexes v z before (core ++ [⟨.code, [';']⟩]) :=
    lexes_append.2 ⟨by simpa using hcore, .cons (reads_semicolon hv _ _) (.nil _)⟩
  have hlex := hall.lex_eq hplain
  rw [show Lexeme.join (core ++ [⟨.code, [';']⟩]) = t by simp [ht, h.text]] at hlex
  rw [hlex]
  generalize lex v (t.reverse ++ before) z = M
  have hsemi : Lexeme.ends v s.isProcedural ⟨.code, [';']⟩ := by
    cases hp : s.isProcedural with
    | false => rfl
    | true => simp [Lexeme.ends, Lexeme.isSemicolon, hends hp]
  have hkind := h.kind M.tail (⟨.code, [';']⟩ :: M.lexemes) (Keyword.seals_semicolon _)
  refine ⟨?_, rfl⟩
  rw [Lexing.script_after hkind h.unended hsemi, h.statement]
  rfl

theorem lex_markerLine (hv : v ∈ Vendor.plainBuiltins) (h : s.Body v core) (hs : ¬ s.HidesMarker v)
    {token : String} (hblock : v.blockEnd = .line token) (hp : s.isProcedural) (hstart : startsLine before)
    (z : List Char) {t : List Char} (ht : t = s.text.toList ++ '\n' :: (token.toList ++ ['\n'])) :
    Lexing.Leads v s (lex v before (t ++ z)) (lex v (t.reverse ++ before) z) := by
  have hplain := Vendor.plain_of_mem hv
  have hz := EndsBefore.lineFeed hblock hp (token.toList ++ '\n' :: z)
  have hcore := h.lexes before _ (endsWord_of_startsLine hstart) hz fun _ => h.endsBlock_firstLine hv hs hz
  have hmarker := lexes_blockEnd hv (s.text.toList.reverse ++ before) z
  simp only [Vendor.blockEndLexeme, Vendor.blockEndGap, hblock] at hmarker
  have hall : Lexes v z before (core ++ [⟨.code, ['\n']⟩] ++ [⟨.markerLine, token.toList ++ ['\n']⟩]) := by
    rw [List.append_assoc]
    exact lexes_append.2
      ⟨by simpa using hcore, .cons (reads_line_feed hv _ _) (by simpa [h.text] using hmarker)⟩
  have hlex := hall.lex_eq hplain
  rw [show Lexeme.join (core ++ [⟨.code, ['\n']⟩] ++ [⟨.markerLine, token.toList ++ ['\n']⟩]) = t by
    simp [ht, h.text]] at hlex
  rw [hlex]
  generalize lex v (t.reverse ++ before) z = M
  have hnl : Lexeme.isBlank ⟨.code, ['\n']⟩ := rfl
  have hopen : ∀ l ∈ core ++ [⟨.code, ['\n']⟩], l.ends v s.isProcedural = false := by
    simpa [or_imp, forall_and, Lexeme.ends_of_isPadding (Lexeme.isPadding_of_isBlank hnl)] using h.unended
  have hkind := h.kind M.tail (⟨.code, ['\n']⟩ :: ⟨.markerLine, token.toList ++ ['\n']⟩ :: M.lexemes) (by
    have := Vendor.seals_blockEndText hv ('\n' :: (Lexeme.join M.lexemes ++ M.tail))
    simpa [Vendor.blockEndText, hblock] using this)
  refine ⟨?_, rfl⟩
  rw [Lexing.script_after (by simpa using hkind) hopen rfl, SourceUnit.statement?_concat_blank hnl,
    h.statement]
  rfl

end Statement.Body

section
variable {v : Vendor} {s : Statement} {script : Script} {before : List Char}

/-- The rendering of a statement is that statement, whatever comes behind. -/
theorem Vendor.Emits.lex_rendered (hv : v ∈ Vendor.plainBuiltins) (h : v.Emits s) (hs : ¬ s.HidesMarker v)
    (hstart : startsLine before) (z : List Char) :
    ∃ before', startsLine before' ∧
      Lexing.Leads v s (lex v before ((s.rendered v).toList ++ z)) (lex v before' z) := by
  have hplain := Vendor.plain_of_mem hv
  obtain ⟨core, hbody⟩ := h.exists_body hv
  by_cases hend : s.isProcedural ∧ ∃ token, v.blockEnd = .line token
  · obtain ⟨hp, token, hblock⟩ := hend
    have hlex := hbody.lex_markerLine hv hs hblock hp hstart z rfl
    have hrendered : (s.rendered v).toList = s.text.toList ++ '\n' :: (token.toList ++ ['\n']) := by
      have hk : s.kind = .procedural := eq_of_beq hp
      simp [Statement.rendered, hk, hblock]
    rw [hrendered]
    exact ⟨_, by simp [startsLine], hlex⟩
  · have hends : s.isProcedural → v.blockEnd = .activeDelimiter := fun hp => by
      cases hblock : v.blockEnd with
      | line token => exact absurd ⟨hp, token, hblock⟩ hend
      | activeDelimiter => rfl
    have hrendered : (s.rendered v).toList = s.text.toList ++ [';'] ++ ['\n'] := by
      unfold Statement.rendered
      split
      · next hk hblock =>
        rw [hends (by simp [Statement.isProcedural, hk])] at hblock
        cases hblock
      · simp [hplain.delimiter, Delimiter.semicolon, Delimiter.text]
    -- the line feed behind the semicolon is a blank in front of what follows
    obtain ⟨hscript, hfailure⟩ := hbody.lex_semicolon hv hs hends hstart ('\n' :: z) rfl
    have hnl : Lexes v z ((s.text.toList ++ [';']).reverse ++ before) [⟨.code, ['\n']⟩] :=
      .cons (reads_line_feed hv _ _) (.nil _)
    have hlex := hnl.lex_eq hplain
    simp only [Lexeme.join_cons, Lexeme.join_nil, List.append_nil, List.singleton_append,
      List.reverse_singleton] at hlex
    rw [hlex, Lexing.script_after_blank rfl] at hscript
    rw [hlex] at hfailure
    exact ⟨_, rfl, by rwa [hrendered, List.append_assoc], by rwa [hrendered, List.append_assoc]⟩

theorem lex_rendered (hv : v ∈ Vendor.plainBuiltins) (h : ∀ s ∈ script, v.Emits s)
    (hs : ∀ s ∈ script, ¬ s.HidesMarker v) (hstart : startsLine before) :
    (lex v before (script.rendered v).toList).splitting v = ⟨script, none⟩ := by
  induction script generalizing before with
  | nil => simp [Script.rendered, Lexing.splitting_eq, Lexing.script, sourceUnits, Lexing.complete]; rfl
  | cons s script ih =>
    simp only [List.forall_mem_cons] at h hs
    obtain ⟨before', hstart', hlex⟩ := h.1.lex_rendered hv hs.1 hstart (Script.rendered v script).toList
    have hmore := ih h.2 hs.2 hstart'
    rw [Lexing.splitting_eq, Splitting.mk.injEq] at hmore ⊢
    rw [Script.rendered, String.toList_append, hlex.script, hlex.failure, hmore.1, hmore.2]
    exact ⟨rfl, rfl⟩

/-- A statement has no visible text that is not in the script. -/
theorem visible_sublist (hv : v.Plain) (before : List Char) {t : List Char}
    (h : s ∈ (lex v before t).script v) : (visible s.text.toList).Sublist (visible t) := by
  obtain ⟨u, hu, hs⟩ := List.mem_filterMap.1 h
  obtain ⟨pre, post, ho⟩ := exists_occurs hu
  have htext : visible s.text.toList = visible (Lexeme.join u.lexemes) := by
    have hend : visible (if Lexeme.endInLineComment u.lexemes then ['\n'] else []) = [] := by
      split <;> rfl
    rw [SourceUnit.text_of_statement? hs, visible_append, visible_trim, hend, List.append_nil]
  have hjoin := join_lex hv before t
  rw [ho.lexemes, Lexeme.join_append, Lexeme.join_append] at hjoin
  rw [htext, ← hjoin]
  simp only [visible_append]
  exact ((List.sublist_append_left _ _).trans (List.sublist_append_right _ _)).trans
    (List.sublist_append_left _ _)

theorem script_markerLine (hv : v.Plain) {line : List Char} (hline : '\n' ∉ line)
    (hm : v.endsBlock line) (t : List Char) :
    (lex v [] (line ++ ['\n'] ++ t)).script v = (lex v (line ++ ['\n']).reverse t).script v := by
  have hmarker : Lexes v t [] [⟨.markerLine, line ++ ['\n']⟩] :=
    .cons (reads_markerLine hv hline hm rfl _) (.nil _)
  have hlex := hmarker.lex_eq hv
  simp only [Lexeme.join_cons, Lexeme.join_nil, List.append_nil] at hlex
  rw [hlex]
  exact Lexing.script_after (g := []) rfl (List.forall_mem_nil _) rfl

/-- A statement that hides a marker line is not what its rendering is split into: the marker line is
left out of it, and a semicolon does not make up for that. -/
theorem split_rendered_of_hidesMarker (hv : v ∈ Vendor.plainBuiltins) (h : v.Emits s) (hs : s.HidesMarker v) :
    split v (Script.rendered v [s]) ≠ .ok [s] := by
  have hplain := Vendor.plain_of_mem hv
  obtain ⟨core, hbody⟩ := h.exists_body hv
  obtain ⟨hmem, hm⟩ := hs
  have hp := hbody.isProcedural_eq_false hv hm
  obtain ⟨more, hmore⟩ := exists_eq_firstLine_append hmem
  have hline := line_feed_notMem_firstLine s.text.toList
  generalize firstLine s.text.toList = line at hm hmore hline
  have hrendered : (Script.rendered v [s]).toList = line ++ ['\n'] ++ (more ++ [';', '\n']) := by
    have hk : s.kind = .regular := by
      cases hk : s.kind with
      | regular => rfl
      | procedural => simp [Statement.isProcedural, hk] at hp
    simp [Script.rendered, Statement.rendered, hk, hplain.delimiter, Delimiter.semicolon, Delimiter.text, hmore]
  rw [Ne, split_eq_ok_iff, splitPartial_eq_splitting_lex hplain, Lexing.splitting_eq, hrendered]
  intro heq
  have hsub : (visible s.text.toList).Sublist (visible (more ++ [';', '\n'])) := by
    refine visible_sublist hplain (line ++ ['\n']).reverse ?_
    rw [← script_markerLine hplain hline hm, (Splitting.mk.inj heq).1]
    exact List.mem_singleton_self s
  -- as many visible characters on both sides, one semicolon more on the right
  have hleft : visible s.text.toList = visible line ++ visible more := by
    rw [hmore, ← List.singleton_append, visible_append, visible_append]
    rfl
  have hright : visible (more ++ [';', '\n']) = visible more ++ [';'] := visible_append more _
  have hsemi : ';' ∉ visible line := fun hc =>
    Vendor.notMem_of_endsBlock hv hm (by decide) (by decide) (List.mem_filter.1 hc).1
  rw [hleft, hright] at hsub
  have hlen := List.length_pos_iff.2 (Vendor.visible_ne_nil_of_endsBlock hv hm)
  have heq' := hsub.eq_of_length_le (by simp; omega)
  have hcount := congrArg (List.count ';') heq'
  rw [List.count_append, List.count_append, List.count_eq_zero_of_not_mem hsemi] at hcount
  simp at hcount

/-- Splitting the rendering of statements that are split off any scripts gives them back, if none of
them hides a marker line; a single statement that does is not given back. A plain statement needs no
more than the delimiter behind it. -/
theorem split_rendered (hv : v ∈ Vendor.plainBuiltins) :
    (∀ script : Script, (∀ s ∈ script, v.Emits s ∧ ¬ s.HidesMarker v) →
      split v (script.rendered v) = .ok script) ∧
    (∀ s, v.Emits s → s.HidesMarker v → split v (Script.rendered v [s]) ≠ .ok [s]) ∧
    (∀ s, v.Emits s → ¬ s.HidesMarker v → s.kind = .regular →
      split v (s.text ++ v.delimiter.text) = .ok [s]) := by
  have hplain := Vendor.plain_of_mem hv
  refine ⟨fun script h => ?_, fun s => split_rendered_of_hidesMarker hv, fun s h hs hk => ?_⟩
  · rw [split_eq_ok_iff, splitPartial_eq_splitting_lex hplain]
    exact lex_rendered hv (fun s hs => (h s hs).1) (fun s hs => (h s hs).2) rfl
  · obtain ⟨core, hbody⟩ := h.exists_body hv
    have hends : s.isProcedural → v.blockEnd = .activeDelimiter := fun hp => by
      simp [Statement.isProcedural, hk] at hp
    obtain ⟨hscript, hfailure⟩ := hbody.lex_semicolon hv hs hends (show startsLine [] from rfl) [] rfl
    have hnil : Lexing.script v ⟨[], [], none⟩ = [] := Lexing.script_of_open (g := []) rfl nofun
    rw [lex_nil, List.append_nil] at hscript hfailure
    rw [hnil] at hscript
    have htext : (s.text ++ v.delimiter.text).toList = s.text.toList ++ [';'] := by
      simp [hplain.delimiter, Delimiter.semicolon, Delimiter.text]
    rw [split_eq_ok_iff, splitPartial_eq_splitting_lex hplain, htext, Lexing.splitting_eq, hscript, hfailure]

/-- A statement that ends in a comment, and one that hides a marker line. -/
theorem split_rendered_comment :
    let plain : Statement := ⟨.regular, "SELECT 1 -- a\n"⟩
    let hides : Statement := ⟨.regular, "/\n+ 2"⟩
    oracle ∈ Vendor.plainBuiltins ∧ (oracle.Emits plain ∧ ¬ plain.HidesMarker oracle) ∧
      (oracle.Emits hides ∧ hides.HidesMarker oracle) ∧
      split oracle (Script.rendered oracle [plain, plain]) = .ok [plain, plain] ∧
      split oracle (Script.rendered oracle [hides]) ≠ .ok [hides] ∧
      split oracle ("SELECT 1 -- a\n" ++ oracle.delimiter.text) = .ok [plain] := by
  have hv : oracle ∈ Vendor.plainBuiltins := Vendor.mem_plainBuiltins.2 (.inl rfl)
  have hplain : oracle.Emits ⟨.regular, "SELECT 1 -- a\n"⟩ := ⟨"SELECT 1 -- a ", by decide⟩
  have hhides : oracle.Emits ⟨.regular, "/\n+ 2"⟩ := ⟨"x; /\n+ 2", by decide⟩
  have hnot : ¬ Statement.HidesMarker oracle ⟨.regular, "SELECT 1 -- a\n"⟩ := by decide
  have hm : Statement.HidesMarker oracle ⟨.regular, "/\n+ 2"⟩ := by decide
  obtain ⟨hall, hhidden, hone⟩ := split_rendered hv
  exact ⟨hv, ⟨hplain, hnot⟩, ⟨hhides, hm⟩, hall _ (by simp [hplain, hnot]), hhidden _ hhides hm,
    hone _ hplain hnot rfl⟩

end
end SqlScript
