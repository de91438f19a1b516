import SqlScript.Proofs.Lexing.Context
import SqlScript.Proofs.Lexing.Scan

/-!
# How far a scan has got

A scan that is in code has nothing but whole lexemes behind it (`Scan.exists_lexes`): from code it
goes over one lexeme at a time (`Scan.exists_read`), and a region that it enters on the way it leaves
where that ends (`Scan.exists_take`).
-/

namespace SqlScript
open Text

namespace Scan
variable {v : Vendor} {s : Scan} {n : Nat}

theorem advance_succ (hs : s.rest ≠ []) (n : Nat) : s.advance v (n + 1) = (s.next v).advance v n := by
  simp [advance, hs]

theorem advance_of_rest_eq_nil (hs : s.rest = []) (n : Nat) : s.advance v n = s := by
  cases n with
  | zero => rfl
  | succ n => simp [advance, hs]

/-- A scan that comes from a region to code has read the text through the end of the region. -/
theorem exists_take (hr : s.region ≠ .code) (hn : (s.advance v n).region = .code) :
    ∃ body m, m ≤ n ∧ s.region.through? s.rest = some body ∧
      s.advance v n = (s.take v body.length .code).advance v m := by
  induction n generalizing s with
  | zero => exact absurd hn hr
  | succ n ih =>
    by_cases hs : s.rest = []
    · rw [advance_of_rest_eq_nil hs] at hn
      exact absurd hn hr
    · rw [advance_succ hs] at hn ⊢
      have hnext := next_of_region_ne_code (v := v) hr
      rcases Region.through?_advance hr hs with ⟨hcode, hth⟩ | ⟨hsame, hth⟩
      · refine ⟨_, n, Nat.le_succ n, hth, ?_⟩
        rw [hnext, hcode]
        exact congrArg (advance v n) (take_congr (by simp) _)
      · rw [hsame] at hnext
        obtain ⟨body, m, hm, hbody, heq⟩ := ih (s := s.next v) (by simpa [hnext] using hr) hn
        rw [hnext] at hbody heq
        simp only [take_region, take_rest] at hbody
        rw [hbody, Option.map_some] at hth
        refine ⟨_, m, Nat.le_succ_of_le hm, hth, ?_⟩
        rw [hnext, heq, take_take hr]
        have hle := (Region.through?_isPrefix hbody).length_le
        refine congrArg (advance v m) (take_congr ?_ _)
        simp only [List.length_append, List.length_take, List.length_drop] at hle ⊢
        omega

/-- A scan that comes from code to code has gone over a lexeme first. -/
theorem exists_read (hv : v.Plain) (hr : s.region = .code) (hd : s.delimiter = .semicolon) {c : Char}
    {text : List Char} (hs : s.rest = c :: text) (hn : (s.advance v (n + 1)).region = .code) :
    ∃ l m, m ≤ n ∧ lexeme v s.before c text = .ok l ∧
      s.advance v (n + 1) = (s.read v l).advance v m := by
  rw [advance_succ (by simp [hs])] at hn ⊢
  by_cases hm : s.atMarkerLine v
  · refine ⟨⟨.markerLine, wholeLine s.rest⟩, n, le_rfl, (lexeme_eq_ok_iff hv).2 (.inl ⟨?_, ?_⟩), ?_⟩
    · rw [← hs]; exact atMarkerLine_iff.1 hm
    · rw [hs]
    · rw [next_of_atMarkerLine hr hm, read, if_pos (by simp [Lexeme.ends])]
  have hm' : ¬ v.AtMarkerLine s.before (c :: text) := by rwa [← hs, ← atMarkerLine_iff]
  cases ho : Region.openedBy? v s.before s.rest with
  | none =>
    refine ⟨⟨.code, [c]⟩, n, le_rfl, (lexeme_eq_ok_iff hv).2 (.inr ⟨hm', .inl ⟨?_, rfl⟩⟩), ?_⟩
    · rw [← hs, ho]
    · rw [next_of_openedBy?_eq_none hv hr hd hm hs ho]
  | some p =>
    obtain ⟨k, r⟩ := p
    obtain ⟨-, hcode, -⟩ := Region.openedBy?_eq_some ho
    have hnext := next_of_openedBy? hv hr hm ho
    rw [hnext] at hn ⊢
    obtain ⟨body, m, hle, hbody, heq⟩ := exists_take (by simpa using hcode) hn
    refine ⟨⟨r.lexemeKind, s.rest.take k ++ body⟩, m, hle,
      (lexeme_eq_ok_iff hv).2 (.inr ⟨hm', .inr ⟨k, r, body, ?_, ?_, ?_⟩⟩), ?_⟩
    · rw [← hs, ho]
    · rw [← hs]; exact hbody
    · rw [hs]
    · rw [heq, take_take_eq_read ho hbody]

/-- What a scan in code has read is whole lexemes, in front of the text that is ahead of it. -/
theorem exists_lexes (hv : v.Plain) (hr : s.region = .code) (hd : s.delimiter = .semicolon)
    (hn : (s.advance v n).region = .code) : ∃ g, s.rest = Lexeme.join g ++ (s.advance v n).rest ∧
      (s.advance v n).before = (Lexeme.join g).reverse ++ s.before ∧
      Lexes v (s.advance v n).rest s.before g := by
  induction n using Nat.strongRecOn generalizing s with
  | ind n ih =>
    cases n with
    | zero => exact ⟨[], rfl, rfl, .nil _⟩
    | succ n =>
      cases hs : s.rest with
      | nil =>
        rw [advance_of_rest_eq_nil hs]
        exact ⟨[], by simp [hs], rfl, .nil _⟩
      | cons c text =>
        obtain ⟨l, m, hm, hl, heq⟩ := exists_read hv hr hd hs hn
        rw [heq] at hn ⊢
        obtain ⟨g, hrest, hbefore, hg⟩ := ih m (by omega) (s := s.read v l) (read_region hr l)
          (by rw [read_delimiter, hd]) hn
        obtain ⟨more, hmore, rest, htext⟩ := lexeme_text hv hl
        have hsplit : s.rest = l.text ++ rest := by rw [hs, hmore, ← htext, List.cons_append]
        rw [read_rest, hsplit, List.drop_left] at hrest
        rw [read_before, hsplit, List.take_left] at hbefore hg
        refine ⟨l :: g, ?_, by simp [hbefore], .cons ⟨c, text, ?_, hl⟩ hg⟩
        · rw [← hs, hsplit, hrest, Lexeme.join_cons, List.append_assoc]
        · rw [← hrest, ← hsplit, hs]

end Scan
end SqlScript
