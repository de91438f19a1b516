import SqlScript.Proofs.Lexing.Context
import SqlScript.Proofs.Vendor.Marker

/-!
# What stands between scripts

A `Vendor.separator` is the end of a block on a line of its own. Its lexemes are the same wherever it
stands (`lexes_blockEnd`), and the line feed in front of it closes the line that the text before may
have left open (`Lexes.line_feed`).
-/

namespace SqlScript
open Text

namespace Vendor

/-- What ends a block: the token of a line, or the delimiter. -/
def blockEndText (v : Vendor) : String :=
  match v.blockEnd with
  | .line token => token
  | .activeDelimiter => v.delimiter.text

/-- What ends a block on a line of its own. -/
def separator (v : Vendor) : String :=
  "\n" ++ v.blockEndText ++ "\n"

example : plainBuiltins.map separator = ["\n/\n", "\n;\n", "\nGO\n"] := by decide

/-- The lexeme that ends a block, on a line of its own. -/
def blockEndLexeme (v : Vendor) : Lexeme :=
  match v.blockEnd with
  | .line token => ⟨.markerLine, token.toList ++ ['\n']⟩
  | .activeDelimiter => ⟨.code, v.delimiter.chars⟩

/-- What is left of the line behind it. -/
def blockEndGap (v : Vendor) : List Lexeme :=
  match v.blockEnd with
  | .line _ => []
  | .activeDelimiter => [⟨.code, ['\n']⟩]

theorem join_blockEnd (v : Vendor) :
    Lexeme.join (v.blockEndLexeme :: v.blockEndGap) = v.blockEndText.toList ++ ['\n'] := by
  unfold blockEndLexeme blockEndGap blockEndText
  cases v.blockEnd <;> simp [Delimiter.text]

theorem ends_blockEndLexeme {v : Vendor} (hv : v.Plain) (p : Bool) : v.blockEndLexeme.ends v p := by
  unfold blockEndLexeme Lexeme.ends Lexeme.isSemicolon
  cases v.blockEnd <;> simp [hv.delimiter, Delimiter.semicolon]

theorem isBlank_blockEndGap (v : Vendor) : ∀ l ∈ v.blockEndGap, l.isBlank := by
  unfold blockEndGap
  cases v.blockEnd <;> simp [Lexeme.isBlank]; decide

theorem seals_blockEndText {v : Vendor} (hv : v ∈ plainBuiltins) (z : List Char) :
    Keyword.Seals ('\n' :: (v.blockEndText.toList ++ z)) := by
  refine Keyword.seals_blank_append blank_lineFeed (List.cons_ne_nil _ _) ?_
  rcases mem_plainBuiltins.1 hv with rfl | rfl | rfl
  · exact fun c hc => by cases hc; decide
  · exact fun c hc => by cases hc; decide
  · exact fun c hc => by cases hc; decide

end Vendor

/-- What a line feed behind a text makes of the end `x` of its lexemes: it is a lexeme, or closes the
line that is open. -/
inductive Lexeme.LineFeed : (x x' : List Lexeme) → Prop
  | blank : LineFeed [] [⟨.code, ['\n']⟩]
  | line {k : Kind} (text : List Char) (hk : k = .lineComment ∨ k = .markerLine) :
    LineFeed [⟨k, text⟩] [⟨k, text ++ ['\n']⟩]

theorem Lexeme.LineFeed.join_eq {x x' : List Lexeme} (h : LineFeed x x') : join x' = join x ++ ['\n'] := by
  cases h <;> simp

section
variable {v : Vendor} {before z : List Char} {ls : List Lexeme}

theorem reads_line_feed (hv : v ∈ Vendor.plainBuiltins) (before z : List Char) :
    Reads v before ⟨.code, ['\n']⟩ z := by
  refine (reads_iff (Vendor.plain_of_mem hv)).2 (.inr ⟨fun hm => ?_, .inl ⟨'\n', rfl, ?_⟩⟩)
  · have := hm.2
    simp [Vendor.endsBlock_nil hv] at this
  · simp [Region.openedBy?_eq_none_iff, Region.dollarTag?]

theorem reads_semicolon (hv : v ∈ Vendor.plainBuiltins) (before z : List Char) :
    Reads v before ⟨.code, [';']⟩ z := by
  refine (reads_iff (Vendor.plain_of_mem hv)).2 (.inr ⟨fun hm => ?_, .inl ⟨';', rfl, ?_⟩⟩)
  · have hmem : ';' ∈ firstLine (';' :: z) := by simp [firstLine_cons]
    exact Vendor.notMem_of_endsBlock hv hm.2 (by decide) (by decide) hmem
  · simp [Region.openedBy?_eq_none_iff, Region.dollarTag?]

theorem reads_markerLine (hv : v.Plain) {line : List Char} (hline : '\n' ∉ line) (h : v.endsBlock line)
    (hstart : startsLine before) (z : List Char) : Reads v before ⟨.markerLine, line ++ ['\n']⟩ z := by
  have heq : line ++ ['\n'] ++ z = line ++ '\n' :: z := by simp
  refine (reads_iff hv).2 (.inl ⟨⟨hstart, ?_⟩, rfl, by simp, ?_⟩)
  · rwa [heq, firstLine_append_line_feed, firstLine_eq_self hline]
  · rw [heq, wholeLine_append_of_notMem hline, wholeLine_line_feed]

/-- The end of a block is read as such behind a line feed. -/
theorem lexes_blockEnd (hv : v ∈ Vendor.plainBuiltins) (before z : List Char) :
    Lexes v z ('\n' :: before) (v.blockEndLexeme :: v.blockEndGap) := by
  rcases Vendor.mem_plainBuiltins.1 hv with rfl | rfl | rfl
  · exact .cons (reads_markerLine (Vendor.plain_of_mem hv) (by decide) (by decide) rfl _) (.nil _)
  · exact .cons (reads_semicolon hv _ _) (.cons (reads_line_feed hv _ _) (.nil _))
  · exact .cons (reads_markerLine (Vendor.plain_of_mem hv) (by decide) (by decide) rfl _) (.nil _)

theorem Reads.line_feed (hv : v.Plain) {k : Lexeme.Kind} {text : List Char}
    (h : Reads v before ⟨k, text⟩ []) (hk : k = .lineComment ∨ k = .markerLine) (ht : '\n' ∉ text) :
    Reads v before ⟨k, text ++ ['\n']⟩ z := by
  have heq : text ++ ['\n'] ++ z = text ++ '\n' :: z := by simp
  have hm : v.AtMarkerLine before (text ++ '\n' :: z) ↔ v.AtMarkerLine before (text ++ []) := by
    rw [Vendor.AtMarkerLine, Vendor.AtMarkerLine, firstLine_append_line_feed, List.append_nil]
  rw [reads_iff hv] at h ⊢
  simp only [heq, hm]
  rcases h with ⟨hmark, hk', -⟩ | ⟨hmark, ⟨c, hc, -⟩ | ⟨n, r, ho, hn, -, hkind⟩⟩
  · refine .inl ⟨hmark, hk', by simp, ?_⟩
    rw [wholeLine_append_of_notMem ht, wholeLine_line_feed]
  · cases hc; simp at hk
  · have hr : r = .lineComment := by
      obtain ⟨-, hcode, -⟩ := Region.openedBy?_eq_some ho
      simp only at hkind
      cases r <;> simp_all [Region.lexemeKind]
    subst hr
    refine .inr ⟨hmark, .inr ⟨n, .lineComment, Region.openedBy?_congr ho hn rfl, by simp at hn ⊢; omega, ?_, hkind⟩⟩
    have hdrop : (text ++ ['\n']).drop n = text.drop n ++ ['\n'] := List.drop_append_of_le_length hn
    rw [hdrop, Region.through?, List.append_assoc,
      wholeLine_append_of_notMem fun h => ht (List.mem_of_mem_drop h)]
    rfl

theorem Lexes.line_feed (hv : v ∈ Vendor.plainBuiltins) (h : Lexes v [] before ls) (z : List Char) :
    ∃ g x x', ls = g ++ x ∧ Lexeme.LineFeed x x' ∧ Lexes v z before (g ++ x') := by
  have hplain := Vendor.plain_of_mem hv
  induction h with
  | nil before => exact ⟨[], [], _, rfl, .blank, .cons (reads_line_feed hv _ _) (.nil _)⟩
  | @cons before l ls h hls ih =>
    by_cases hopen : (l.kind = .lineComment ∨ l.kind = .markerLine) ∧ '\n' ∉ l.text
    · -- the line goes on to the end of the text, so nothing is behind it
      obtain ⟨k, text⟩ := l
      have hjoin : Lexeme.join ls = [] := by simpa using h.eq_nil_of_open hplain hopen.1 hopen.2
      cases hls with
      | nil => exact ⟨[], _, _, rfl, .line text hopen.1, .cons (h.line_feed hplain hopen.1 hopen.2) (.nil _)⟩
      | cons h' _ => simp [h'.text_ne_nil hplain] at hjoin
    · obtain ⟨g, x, x', rfl, hx, hg⟩ := ih
      refine ⟨l :: g, x, x', rfl, hx, .cons ?_ hg⟩
      have hjoin : Lexeme.join (g ++ x') ++ z = Lexeme.join (g ++ x) ++ '\n' :: z := by
        simp [hx.join_eq]
      show Reads v before l (Lexeme.join (g ++ x') ++ z)
      rw [hjoin]
      refine h.congr hplain ?_ rfl (fun c _ ho => ?_) fun hk => by_contra fun hl => hopen ⟨hk, hl⟩
      · rw [Vendor.AtMarkerLine, Vendor.AtMarkerLine, ← List.append_assoc, firstLine_append_line_feed,
          List.append_nil]
      · exact (follows_line_feed z).openedBy?_eq_none _ ho

end
end SqlScript
