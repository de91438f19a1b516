import SqlScript.Proofs.Lexing.Units
import SqlScript.Proofs.Location

/-!
# Lexing further down

A text behind a line feed is lexed as it is at the start of a script (`lex_append_line_feed`). Only
the place of a failure is another one: it lies below all that comes before (`Location.moved`).
-/

namespace SqlScript
open Text

/-- The place in a text, seen from the start of `above` and that text. -/
def Location.moved (above : List Char) (l : Location) : Location where
  offset := l.offset + byteLength above
  line := min (l.line + above.count '\n') maxCount
  column := l.column

def Unterminated.moved (above : List Char) : Unterminated → Unterminated
  | .quote opener l => .quote opener (l.moved above)
  | .comment l => .comment (l.moved above)

theorem Unterminated.moved_reverse (above : List Char) (f : Unterminated) :
    f.moved above.reverse = f.moved above := by
  cases f <;> simp [moved, Location.moved, byteLength_reverse]

def Lexing.moved (above : List Char) (l : Lexing) : Lexing :=
  { l with failure := l.failure.map (·.moved above) }

/-- Below a line feed the columns count from one again. -/
theorem Location.after_append_line_feed (before above : List Char) :
    after (before ++ '\n' :: above) = (after before).moved ('\n' :: above) := by
  have hcolumn : (before ++ '\n' :: above).takeWhile (· != '\n') = before.takeWhile (· != '\n') := by
    exact firstLine_append_line_feed before above
  have hline : min (min (before.count '\n' + 1) maxCount + ('\n' :: above).count '\n') maxCount =
      min (before.count '\n' + 1 + ('\n' :: above).count '\n') maxCount := by omega
  simp only [after, moved, hcolumn, byteLength_append, List.count_append, hline, mk.injEq, and_true,
    true_and]
  congr 1
  omega

section
variable {v : Vendor} {before above text : List Char}

theorem startsLine_append_line_feed (before above : List Char) :
    startsLine (before ++ '\n' :: above) = startsLine before := by
  cases before <;> rfl

theorem Region.failure_moved (above : List Char) (here : Location) (r : Region) :
    r.failure (here.moved above) = (r.failure here).moved above := by
  cases r <;> rfl

theorem lexeme_append_line_feed (hv : v.Plain) (before above : List Char) (c : Char) (text : List Char) :
    lexeme v (before ++ '\n' :: above) c text =
      (lexeme v before c text).mapError (·.moved ('\n' :: above)) := by
  have hs := startsLine_append_line_feed before above
  have he := Region.afterEscapeMark_append (endsWord_of_isBlank (c := '\n') (by decide) above) before
  rcases lexeme_cases hv before c text with ⟨l, hl⟩ | ⟨r, hr⟩
  · rw [hl _ hs he, hl _ rfl rfl]
    rfl
  · rw [hr _ hs he, hr _ rfl rfl, Location.after_append_line_feed, Region.failure_moved]
    rfl

theorem lex_append_line_feed (hv : v.Plain) (before above text : List Char) :
    lex v (before ++ '\n' :: above) text = (lex v before text).moved ('\n' :: above) := by
  induction before, text using lex_induction hv with
  | nil before => simp [Lexing.moved]
  | error before c text failure h =>
    have hl := lexeme_append_line_feed hv before above c text
    rw [h] at hl
    rw [lex_cons_of_error h, lex_cons_of_error hl]
    rfl
  | ok before c text l rest h hrest ih =>
    have hl := lexeme_append_line_feed hv before above c text
    rw [h] at hl
    rw [lex_cons_of_ok hv h hrest, lex_cons_of_ok hv hl hrest, ← List.append_assoc, ih]
    rfl

theorem Lexing.script_moved (above : List Char) (L : Lexing) : (L.moved above).script v = L.script v := by
  simp [script, moved, complete]

theorem Lexing.moved_reverse (above : List Char) (L : Lexing) :
    L.moved above.reverse = L.moved above := by
  have hmoved : Unterminated.moved above.reverse = Unterminated.moved above := by
    funext f
    exact f.moved_reverse above
  rw [moved, moved, hmoved]

end
end SqlScript
