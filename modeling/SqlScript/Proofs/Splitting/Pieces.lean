import Mathlib.Data.List.Forall2
import SqlScript.Proofs.Splitting.Run
import SqlScript.Proofs.Text.Blank
import SqlScript.Proofs.Text.Line
import SqlScript.Vendor.Builtin

/-!
# Where the text of a script goes

Every move of a scan reads one `Piece` of the text: it becomes part of a unit, or it is a delimiter, a
marker line or a line that sets another delimiter. `Scan.pieces` are the pieces of a whole scan. They
are the text ahead and nothing else (`Scan.join_pieces`), each is what its kind says where it stands, and
code is kept only where nothing cuts (`Scan.cut_pieces`); the kept ones between two ends of units are the
text of a statement (`Scan.makes_pieces`). This holds of every vendor, whatever its delimiter and its
lexical extras are.
-/

namespace SqlScript
open Text

/-- How far the text goes on as one piece in the region, and the region behind it. -/
def Region.read (v : Vendor) (before : List Char) (r : Region) (text : List Char) : Nat × Region :=
  if r = .code then (openedBy? v before text).getD (1, .code) else r.advance text

/-- A stretch of a script, by what becomes of it. -/
inductive Piece
  /-- It was read in the region and becomes part of the unit. -/
  | kept (region : Region) (text : List Char)
  | delimiter (text : List Char)
  | markerLine (text : List Char)
  | directive (text : List Char)
deriving DecidableEq

namespace Piece

def text : Piece → List Char
  | kept _ t | delimiter t | markerLine t | directive t => t

def join (ps : List Piece) : List Char :=
  ps.flatMap text

/-- The delimiter in force behind a piece, if `d` is before it. -/
def delimiterAfter (d : Delimiter) : Piece → Delimiter
  | directive t => (directiveOfLine? (firstLine t)).getD d
  | _ => d

/-- The region behind a piece between the texts `before`, newest character first, and `behind`. -/
def regionAfter (v : Vendor) (before behind : List Char) : Piece → Region
  | kept r t => (r.read v before (t ++ behind)).2
  | _ => .code

/-- A text that begins with no blank, no comment and no delimiter. -/
def beginsUnit (d : Delimiter) (text : List Char) : Bool :=
  !(text.head?.map isBlank).getD false && !(['-', '-'].isPrefixOf text) && !(['/', '*'].isPrefixOf text) &&
    !d.chars.isPrefixOf text

/-- The kept pieces between two ends of units. -/
structure Group where
  text : List Char := []
  /-- One of its pieces is code and no blank, comment or delimiter. -/
  significant : Bool := false
  /-- The vendor takes the text from the first such piece on for a procedural block. -/
  procedural : Bool := false

/-- The group with one more piece, which was read in the region `r`. -/
def Group.keep (v : Vendor) (d : Delimiter) (g : Group) (r : Region) (t behind : List Char) : Group :=
  let begins := r == .code && beginsUnit d (t ++ behind)
  { text := g.text ++ t
    significant := g.significant || begins
    procedural := if !g.significant && begins then v.isProceduralStart (t ++ behind) else g.procedural }

/-- The group that is kept behind a piece. -/
def groupAfter (v : Vendor) (d : Delimiter) (g : Group) (behind : List Char) : Piece → Group
  | kept r t => g.keep v d r t behind
  | directive _ => g
  | delimiter _ | markerLine _ => {}

/-- The rest of the line holds nothing but the token that ends a block. -/
def EndsBlock (v : Vendor) (before text : List Char) : Prop :=
  startsLine before ∧
    ∃ token, v.blockEnd = .line token ∧ sameIgnoringCase (trim (firstLine text)) token.toList

/-- A unit would begin here, with a line that sets another delimiter. -/
def SetsDelimiter (v : Vendor) (d : Delimiter) (g : Group) (text : List Char) : Prop :=
  v.delimiterDirective ∧ g.significant = false ∧ beginsUnit d text ∧
    (directiveOfLine? (firstLine text)).isSome

/-- The delimiter ends a unit, one apart that is a block with an end of its own. -/
def Group.EndsAtDelimiter (v : Vendor) (g : Group) : Prop :=
  g.procedural = false ∨ v.blockEnd = .activeDelimiter

/-- The code ahead is not kept, where the delimiter `d` is in force and `g` has been kept: such a line
begins here, or the delimiter stands here, ends the unit and is not the opener of something. -/
def Cuts (v : Vendor) (d : Delimiter) (g : Group) (before text : List Char) : Prop :=
  EndsBlock v before text ∨ SetsDelimiter v d g text ∨
    d.chars <+: text ∧ g.EndsAtDelimiter v ∧ Region.openedBy? v before text = none

/-- The piece is what its kind says, where the delimiter `d` is in force, the region is `r` and `g` has been
kept. -/
def Fits (v : Vendor) (d : Delimiter) (r : Region) (g : Group) (before behind : List Char) : Piece → Prop
  | kept r' t => r' = r ∧ t = (t ++ behind).take (r.read v before (t ++ behind)).1 ∧
      (r = .code → ¬ Cuts v d g before (t ++ behind))
  | delimiter t => r = .code ∧ t = d.chars ∧ g.EndsAtDelimiter v
  | markerLine t => r = .code ∧ t = wholeLine (t ++ behind) ∧ EndsBlock v before t
  | directive t => r = .code ∧ t = wholeLine (t ++ behind) ∧ SetsDelimiter v d g (t ++ behind) ∧
      (directiveOfLine? (firstLine t)).isSome

/-- Each of the pieces is what its kind says where it stands. -/
def Cut (v : Vendor) (d : Delimiter) (r : Region) (g : Group) (before : List Char) : List Piece → Prop
  | [] => True
  | p :: ps => p.Fits v d r g before (join ps) ∧
      Cut v (p.delimiterAfter d) (p.regionAfter v before (join ps)) (p.groupAfter v d g (join ps))
        (p.text.reverse ++ before) ps

/-- The groups of the pieces, where `d` is in force and `g` has been kept before them. -/
def groups (v : Vendor) (d : Delimiter) (g : Group) : List Piece → List Group
  | [] => [g]
  | kept r t :: ps => groups v d (g.keep v d r t (join ps)) ps
  | directive t :: ps => groups v ((directive t).delimiterAfter d) g ps
  | delimiter _ :: ps | markerLine _ :: ps => g :: groups v d {} ps

/-- The groups that are complete: what is open at the end of the script takes the last one with it. -/
def complete (failure : Option Unterminated) (gs : List Group) : List Group :=
  if failure.isSome then gs.dropLast else gs

/-- The statement is the trimmed text of the group, perhaps with a line feed, and of its kind. -/
def Group.Makes (g : Group) (s : Statement) : Prop :=
  (s.text.toList = trim g.text ∨ s.text.toList = trim g.text ++ ['\n']) ∧ s.isProcedural = g.procedural

@[simp] theorem join_nil : join [] = [] := rfl
@[simp] theorem join_cons (p : Piece) (ps : List Piece) : join (p :: ps) = p.text ++ join ps := rfl

theorem beginsUnit_cons {d : Delimiter} {c : Char} {text : List Char} :
    beginsUnit d (c :: text) ↔ isBlank c = false ∧ ¬ ['-', '-'] <+: c :: text ∧
      ¬ ['/', '*'] <+: c :: text ∧ ¬ d.chars <+: c :: text := by
  simp only [← List.isPrefixOf_iff_prefix, Bool.not_eq_true]
  simp [beginsUnit, and_assoc]

theorem groups_ne_nil (v : Vendor) (d : Delimiter) (g : Group) (ps : List Piece) : groups v d g ps ≠ [] := by
  induction ps generalizing d g with
  | nil => exact List.cons_ne_nil g []
  | cons p ps ih =>
    cases p with
    | kept r t => exact ih _ _
    | directive t => exact ih _ _
    | delimiter t => exact List.cons_ne_nil g _
    | markerLine t => exact List.cons_ne_nil g _

theorem complete_cons (f : Option Unterminated) (g : Group) {gs : List Group} (h : gs ≠ []) :
    complete f (g :: gs) = g :: complete f gs := by
  unfold complete
  split
  · exact List.dropLast_cons_of_ne_nil h
  · rfl

end Piece

namespace Scan
variable {v : Vendor} {s : Scan}

def piece (v : Vendor) (s : Scan) : Piece :=
  let text := s.rest.take (s.reach (s.move v))
  match s.move v with
  | .keep .. => .kept s.region text
  | .delimiter => .delimiter text
  | .markerLine => .markerLine text
  | .directive _ => .directive text

/-- What the moves up to the end of the text read. -/
def pieces (v : Vendor) (s : Scan) : List Piece :=
  (s.visited v s.rest.length).map (piece v)

theorem text_piece : (s.piece v).text = s.rest.take (s.reach (s.move v)) := by
  unfold piece
  split <;> rfl

theorem visited_of_length_le (h : s.region.HasCloser) {n : Nat} (hn : s.rest.length ≤ n) :
    s.visited v n = s.visited v s.rest.length := by
  induction n using Nat.strongRecOn generalizing s with
  | ind n ih =>
    cases hr : s.rest with
    | nil => cases n <;> simp [visited, hr]
    | cons c rest =>
      have hlt := next_length_lt (v := v) h (by simp [hr])
      have hlen : s.rest.length = rest.length + 1 := by simp [hr]
      cases n with
      | zero => omega
      | succ n =>
        have hn' := ih n (by omega) (s := s.next v) (hasCloser_next h) (by omega)
        have hr' := ih rest.length (by omega) (s := s.next v) (hasCloser_next h) (by omega)
        simp only [List.length_cons, visited, hr, List.isEmpty_cons, Bool.false_eq_true, if_false]
        rw [hn', hr']

theorem pieces_of_rest_eq_nil (hs : s.rest = []) : s.pieces v = [] := by
  simp [pieces, hs, visited]

theorem visited_next (h : s.region.HasCloser) (hs : s.rest ≠ []) :
    s.visited v s.rest.length = s :: (s.next v).visited v (s.next v).rest.length := by
  rcases List.exists_cons_of_ne_nil hs with ⟨c, rest, hr⟩
  have hlt := next_length_lt (v := v) h hs
  have hlen : s.rest.length = rest.length + 1 := by simp [hr]
  have hvisited := visited_of_length_le (s := s.next v) (v := v) (hasCloser_next h) (n := rest.length) (by omega)
  rw [← hvisited, hlen, visited, hr]
  rfl

theorem pieces_next (h : s.region.HasCloser) (hs : s.rest ≠ []) :
    s.pieces v = s.piece v :: (s.next v).pieces v := by
  rw [pieces, visited_next h hs]
  rfl

theorem join_pieces (h : s.region.HasCloser) : Piece.join (s.pieces v) = s.rest := by
  refine run_induction (P := fun s => Piece.join (s.pieces v) = s.rest) v (fun s hs => ?_)
    (fun s h hs ih => ?_) s h
  · rw [pieces_of_rest_eq_nil hs, hs]
    rfl
  · rw [pieces_next h hs, Piece.join_cons, ih, text_piece, next, make_rest, List.take_append_drop]

theorem atMarkerLine_iff_endsBlock : s.atMarkerLine v ↔ Piece.EndsBlock v s.before s.rest := by
  unfold atMarkerLine Piece.EndsBlock
  cases v.blockEnd with
  | line token => simp [startsLine, atLineStart]
  | activeDelimiter => simp

theorem directive?_eq_some {d : Delimiter} (h : s.directive? v = some d) :
    v.delimiterDirective ∧ s.startsUnit ∧ directiveOfLine? (firstLine s.rest) = some d := by
  unfold directive? at h
  split at h
  · next hd =>
    rw [Bool.and_eq_true] at hd
    exact ⟨hd.1, hd.2, h⟩
  · cases h

def group (s : Scan) : Piece.Group :=
  ⟨s.unit.text.reverse, s.unit.significant, s.unit.procedural⟩

theorem startsUnit_eq_beginsUnit (s : Scan) :
    s.startsUnit = (!s.unit.significant && Piece.beginsUnit s.delimiter s.rest) := by
  simp only [startsUnit, atComment, atLineComment, atBlank, atDelimiter, Piece.beginsUnit, Bool.not_or]
  ac_rfl

theorem isSome_directive?_iff :
    (s.directive? v).isSome ↔ Piece.SetsDelimiter v s.delimiter s.group s.rest := by
  unfold directive? Piece.SetsDelimiter
  rw [startsUnit_eq_beginsUnit]
  cases v.delimiterDirective <;> cases hs : s.unit.significant <;>
    cases Piece.beginsUnit s.delimiter s.rest <;> simp [group, hs]

theorem endsAtDelimiter_group_iff : s.group.EndsAtDelimiter v ↔ s.delimiterEnds v := by
  simp [Piece.Group.EndsAtDelimiter, group, delimiterEnds]

/-- Code is kept only where nothing cuts. -/
theorem not_cuts_of_keep (hc : s.region = .code) {n : Nat} {r : Region} (h : s.move v = .keep n r) :
    ¬ Piece.Cuts v s.delimiter s.group s.before s.rest := by
  have hmove : s.moveInCode v = .keep n r := by rw [← h, move, if_pos hc]
  unfold moveInCode at hmove
  split at hmove
  · cases hmove
  next hmarker =>
  split at hmove
  · cases hmove
  next hdirective =>
  rintro (hm | hd | ⟨hat, hends, ho⟩)
  · exact hmarker (atMarkerLine_iff_endsBlock.2 hm)
  · have hsome := isSome_directive?_iff.2 hd
    rw [hdirective] at hsome
    cases hsome
  · have hat' : s.atDelimiter := List.isPrefixOf_iff_prefix.2 hat
    rw [ho, hat', endsAtDelimiter_group_iff.1 hends] at hmove
    cases hmove

theorem move_cases (v : Vendor) (s : Scan) :
    (∃ n r, s.move v = .keep n r ∧ s.region.read v s.before s.rest = (n, r)) ∨
    (s.region = .code ∧ s.move v = .delimiter ∧ s.atDelimiter ∧ s.delimiterEnds v) ∨
    (s.region = .code ∧ s.move v = .markerLine ∧ s.atMarkerLine v) ∨
    (∃ d, s.region = .code ∧ s.move v = .directive d ∧ s.directive? v = some d) := by
  by_cases hc : s.region = .code
  · have hmove : s.move v = s.moveInCode v := if_pos hc
    rw [hmove, Region.read, if_pos hc]
    rcases s.moveInCode_cases v with
      ⟨hm, h⟩ | ⟨d, hd, h⟩ | ⟨n, r, ho, h⟩ | ⟨-, hd, hends, h⟩ | ⟨ho, -, h⟩
    · exact .inr (.inr (.inl ⟨hc, h, hm⟩))
    · exact .inr (.inr (.inr ⟨d, hc, h, hd⟩))
    · exact .inl ⟨n, r, h, by rw [ho]; rfl⟩
    · exact .inr (.inl ⟨hc, h, hd, hends⟩)
    · exact .inl ⟨1, .code, h, by rw [ho]; rfl⟩
  · rw [move, if_neg hc, Region.read, if_neg hc]
    exact .inl ⟨_, _, rfl, rfl⟩

/-- The piece is what its kind says where the scan stands. -/
theorem fits_piece (v : Vendor) (s : Scan) :
    (s.piece v).Fits v s.delimiter s.region s.group s.before (s.next v).rest := by
  have htext : ∀ n, s.rest.take n ++ s.rest.drop n = s.rest := fun n => List.take_append_drop n s.rest
  have hline : s.rest.take ((firstLine s.rest).length + 1) = wholeLine s.rest := rfl
  have hbehind := htext ((firstLine s.rest).length + 1)
  rcases s.move_cases v with ⟨n, r, h, hread⟩ | ⟨hc, h, hd, hends⟩ | ⟨hc, h, hm⟩ | ⟨d, hc, h, hd⟩
  · have hkeep : s.region = .code → ¬ Piece.Cuts v s.delimiter s.group s.before s.rest :=
      fun hc => not_cuts_of_keep hc h
    rw [piece, next, h]
    simpa [Piece.Fits, make, reach, hread] using hkeep
  · have hprefix := List.prefix_iff_eq_take.1 (List.isPrefixOf_iff_prefix.1 hd)
    rw [piece, next, h]
    exact ⟨hc, hprefix.symm, endsAtDelimiter_group_iff.2 hends⟩
  · have hends := atMarkerLine_iff_endsBlock.1 hm
    rw [piece, next, h]
    simp only [Piece.Fits, Piece.EndsBlock, make, reach, skip_rest, close_rest, hbehind]
    rw [hline, firstLine_wholeLine]
    exact ⟨hc, rfl, hends⟩
  · have hsets := isSome_directive?_iff.1 (Option.isSome_of_eq_some hd)
    rw [piece, next, h]
    simp only [Piece.Fits, make, reach, skip_rest, hbehind]
    rw [hline, firstLine_wholeLine]
    exact ⟨hc, rfl, hsets, hsets.2.2.2⟩

theorem delimiter_next (v : Vendor) (s : Scan) :
    (s.next v).delimiter = (s.piece v).delimiterAfter s.delimiter := by
  rcases s.move_cases v with ⟨n, r, h, -⟩ | ⟨-, h, -⟩ | ⟨-, h, -⟩ | ⟨d, -, h, hd⟩
  · rw [piece, next, h]; rfl
  · rw [piece, next, h]; rfl
  · rw [piece, next, h]; rfl
  · have hline : s.rest.take ((firstLine s.rest).length + 1) = wholeLine s.rest := rfl
    rw [piece, next, h]
    simp only [Piece.delimiterAfter, make, reach]
    rw [hline, firstLine_wholeLine, (directive?_eq_some hd).2.2]
    rfl

theorem region_next (v : Vendor) (s : Scan) :
    (s.next v).region = (s.piece v).regionAfter v s.before (s.next v).rest := by
  rcases s.move_cases v with ⟨n, r, h, hread⟩ | ⟨hc, h, -⟩ | ⟨hc, h, -⟩ | ⟨d, hc, h, -⟩
  · rw [piece, next, h]
    simp [Piece.regionAfter, make, reach, hread]
  · rw [piece, next, h]; exact hc
  · rw [piece, next, h]; exact hc
  · rw [piece, next, h]; exact hc

theorem noted_significant (v : Vendor) (s : Scan) :
    (s.noted v).significant = (s.unit.significant || Piece.beginsUnit s.delimiter s.rest) := by
  have hnoted : (s.noted v).significant = (s.unit.significant || s.startsUnit) := by
    unfold noted
    cases s.startsUnit <;> simp <;> split <;> simp_all
  rw [hnoted, s.startsUnit_eq_beginsUnit]
  cases s.unit.significant <;> simp

theorem noted_procedural (v : Vendor) (s : Scan) : (s.noted v).procedural =
    if s.startsUnit then v.isProceduralStart s.rest else s.unit.procedural := by
  unfold noted
  cases s.startsUnit <;> simp only [] <;> split <;> simp

theorem noted_text (v : Vendor) (s : Scan) : (s.noted v).text = s.unit.text := by
  unfold noted
  cases s.startsUnit <;> simp only [] <;> split <;> rfl

theorem take_unit_text (n : Nat) (r : Region) :
    (s.take v n r).unit.text = (s.rest.take n).reverse ++ s.unit.text := by
  by_cases hc : s.region = .code
  · simp [take, hc, noted_text]
  · simp [take, hc]

theorem take_unit_significant (n : Nat) (r : Region) : (s.take v n r).unit.significant =
    (s.unit.significant || s.region == .code && Piece.beginsUnit s.delimiter s.rest) := by
  by_cases hc : s.region = .code
  · simp [take, hc, noted_significant]
  · simp [take, hc]

theorem take_unit_procedural (n : Nat) (r : Region) : (s.take v n r).unit.procedural =
    if s.region = .code ∧ s.startsUnit then v.isProceduralStart s.rest else s.unit.procedural := by
  by_cases hc : s.region = .code
  · simp [take, hc, noted_procedural]
  · simp [take, hc]

theorem group_take (n : Nat) (r : Region) : (s.take v n r).group =
    s.group.keep v s.delimiter s.region (s.rest.take n) (s.rest.drop n) := by
  have hbegins : (s.region = .code ∧ s.startsUnit) ↔
      (!s.unit.significant && (s.region == .code && Piece.beginsUnit s.delimiter s.rest)) = true := by
    rw [startsUnit_eq_beginsUnit]
    simp only [Bool.and_eq_true, beq_iff_eq]
    exact and_left_comm
  rw [group, take_unit_text, take_unit_significant, take_unit_procedural, Piece.Group.keep,
    List.take_append_drop, List.reverse_append, List.reverse_reverse, if_congr hbegins rfl rfl]
  rfl

theorem group_next (v : Vendor) (s : Scan) :
    (s.next v).group = (s.piece v).groupAfter v s.delimiter s.group (s.next v).rest := by
  rcases s.move_cases v with ⟨n, r, h, -⟩ | ⟨-, h, -⟩ | ⟨-, h, -⟩ | ⟨d, -, h, -⟩
  · rw [piece, next, h]
    exact group_take n r
  · rw [piece, next, h]; rfl
  · rw [piece, next, h]; rfl
  · rw [piece, next, h]; rfl

theorem cut_pieces (h : s.region.HasCloser) :
    Piece.Cut v s.delimiter s.region s.group s.before (s.pieces v) := by
  refine run_induction (P := fun s => Piece.Cut v s.delimiter s.region s.group s.before (s.pieces v)) v
    (fun s hs => ?_) (fun s h hs ih => ?_) s h
  · rw [pieces_of_rest_eq_nil hs]
    trivial
  · rw [pieces_next h hs]
    refine ⟨?_, ?_⟩
    · rw [join_pieces (hasCloser_next h)]
      exact s.fits_piece v
    · rw [join_pieces (hasCloser_next h), ← delimiter_next, ← region_next, ← group_next, text_piece,
        ← make_before]
      exact ih

/-- A significant unit shows. -/
def Shows (s : Scan) : Prop :=
  s.unit.significant → ∃ c ∈ s.unit.text, isBlank c = false

/-- The statement of the unit is what its group makes, if it makes one. -/
theorem makes_group (h : s.Shows) :
    List.Forall₂ Piece.Group.Makes ([s.group].filter (·.significant)) s.unit.statement?.toList := by
  unfold group Gathered.statement?
  cases hs : s.unit.significant with
  | false => simp
  | true =>
    obtain ⟨c, hc, hblank⟩ := h hs
    have hne : (trim s.unit.text.reverse).isEmpty = false := by
      rw [List.isEmpty_eq_false_iff]
      exact List.ne_nil_of_mem (mem_trim (List.mem_reverse.2 hc) hblank)
    rw [hne]
    refine .cons ⟨?_, ?_⟩ .nil
    · unfold Gathered.body
      cases s.unit.commentTail
      · left; simp
      · right; simp
    · cases s.unit.procedural <;> rfl

theorem shows_next (h : s.region.HasCloser) (hrest : s.rest ≠ []) (hs : s.Shows) : (s.next v).Shows := by
  have hpos := reach_pos (v := v) h
  rcases s.move_cases v with ⟨n, r, hm, -⟩ | ⟨-, hm, -⟩ | ⟨-, hm, -⟩ | ⟨d, -, hm, -⟩ <;> rw [next, hm]
  · intro hsig
    rw [make, take_unit_significant, Bool.or_eq_true] at hsig
    rw [make, take_unit_text]
    rcases hsig with hsig | hsig
    · obtain ⟨c, hc, hblank⟩ := hs hsig
      exact ⟨c, List.mem_append_right _ hc, hblank⟩
    · -- the first character of what is read
      obtain ⟨c, rest, hr⟩ := List.exists_cons_of_ne_nil hrest
      rw [hm, reach] at hpos
      obtain ⟨n, rfl⟩ := Nat.exists_eq_succ_of_ne_zero (Nat.pos_iff_ne_zero.1 hpos)
      rw [hr, Bool.and_eq_true] at hsig
      exact ⟨c, by simp [hr], (Piece.beginsUnit_cons.1 hsig.2).1⟩
  · intro hsig; cases hsig
  · intro hsig; cases hsig
  · exact hs

/-- What the groups of the pieces ahead make comes out of the scan behind the statements it has. -/
def Makes (v : Vendor) (s : Scan) : Prop :=
  ∃ script, (s.outcome v).script = s.statements.reverse ++ script ∧
    List.Forall₂ Piece.Group.Makes
      ((Piece.complete (s.outcome v).failure
        (Piece.groups v s.delimiter s.group (s.pieces v))).filter (·.significant)) script

theorem makes_of_rest_eq_nil (hrest : s.rest = []) (hs : s.Shows) : s.Makes v := by
  rw [Makes, pieces_of_rest_eq_nil hrest, outcome_of_rest_eq_nil hrest, result]
  cases s.unterminated? with
  | none =>
    refine ⟨s.unit.statement?.toList, ?_, makes_group hs⟩
    rw [close_statements, List.reverse_append]
    cases s.unit.statement? <;> rfl
  | some f => exact ⟨[], by simp, .nil⟩

theorem Makes.of_keep (ho : s.outcome v = (s.next v).outcome v)
    (hstatements : (s.next v).statements = s.statements)
    (hg : Piece.groups v s.delimiter s.group (s.pieces v) =
      Piece.groups v (s.next v).delimiter (s.next v).group ((s.next v).pieces v))
    (hm : (s.next v).Makes v) : s.Makes v := by
  rw [Makes, ho, hg, ← hstatements]
  exact hm

theorem Makes.of_close (hs : s.Shows) (ho : s.outcome v = (s.next v).outcome v)
    (hstatements : (s.next v).statements = s.unit.statement?.toList ++ s.statements)
    (hg : Piece.groups v s.delimiter s.group (s.pieces v) =
      s.group :: Piece.groups v (s.next v).delimiter (s.next v).group ((s.next v).pieces v))
    (hm : (s.next v).Makes v) : s.Makes v := by
  obtain ⟨script, hscript, hmakes⟩ := hm
  refine ⟨s.unit.statement?.toList ++ script, ?_, ?_⟩
  · have hreverse : s.unit.statement?.toList.reverse = s.unit.statement?.toList := by
      cases s.unit.statement? <;> rfl
    rw [ho, hscript, hstatements, List.reverse_append, hreverse, List.append_assoc]
  · rw [ho, hg, Piece.complete_cons _ _ (Piece.groups_ne_nil _ _ _ _), ← List.singleton_append, List.filter_append]
    exact List.rel_append (makes_group hs) hmakes

theorem makes_pieces (h : s.region.HasCloser) : s.Shows → s.Makes v := by
  refine run_induction (P := fun s => s.Shows → s.Makes v) v (fun s => makes_of_rest_eq_nil)
    (fun s h hrest ih hs => ?_) s h
  have hm := ih (shows_next h hrest hs)
  have ho := outcome_next (v := v) h hrest
  have hjoin := join_pieces (v := v) (hasCloser_next (v := v) h)
  rcases s.move_cases v with ⟨n, r, hmove, -⟩ | ⟨-, hmove, -⟩ | ⟨-, hmove, -⟩ | ⟨d, -, hmove, hd⟩
  · have hnext : s.next v = s.take v n r := next_of_keep hmove
    have hpiece : s.piece v = .kept s.region (s.rest.take n) := by rw [piece, hmove]; rfl
    refine Makes.of_keep ho (by rw [hnext]; rfl) ?_ hm
    rw [pieces_next h hrest, hpiece, Piece.groups, hjoin, hnext, group_take, take_rest]
    rfl
  · have hnext : s.next v = s.close.skip s.delimiter.chars.length := by rw [next, hmove]; rfl
    refine Makes.of_close hs ho (by rw [hnext]; rfl) ?_ hm
    rw [pieces_next h hrest, piece, hmove, Piece.groups, hnext]
    rfl
  · have hnext : s.next v = s.close.skip ((firstLine s.rest).length + 1) := by rw [next, hmove]; rfl
    refine Makes.of_close hs ho (by rw [hnext]; rfl) ?_ hm
    rw [pieces_next h hrest, piece, hmove, Piece.groups, hnext]
    rfl
  · refine Makes.of_keep ho (by rw [next, hmove]; rfl) ?_ hm
    have hgroup : (s.next v).group = s.group := by rw [next, hmove]; rfl
    rw [pieces_next h hrest, delimiter_next, hgroup, piece, hmove, Piece.groups]

end Scan

/-- The pieces of a script are its text. Each is what its kind says, and code in which a delimiter or a line
ends a unit is not kept. The kept ones between two ends of units are, if they are more than blanks and
comments, one statement after the other. -/
theorem splitPartial_makes_pieces (v : Vendor) (text : String) :
    let pieces := (Scan.start v text.toList).pieces v
    Piece.join pieces = text.toList ∧
      Piece.Cut v v.delimiter .code {} [] pieces ∧
      List.Forall₂ Piece.Group.Makes
        ((Piece.complete (splitPartial v text).failure (Piece.groups v v.delimiter {} pieces)).filter
          (·.significant))
        (splitPartial v text).script := by
  have hstart : (Scan.start v text.toList).region.HasCloser := Region.hasCloser_code
  refine ⟨Scan.join_pieces hstart, Scan.cut_pieces hstart, ?_⟩
  obtain ⟨script, hscript, hmakes⟩ := Scan.makes_pieces (v := v) hstart nofun
  have heq : (splitPartial v text).script = script := hscript
  rw [heq]
  exact hmakes

/-- The semicolon is no delimiter any more. -/
example : (Scan.start mysql "DELIMITER //\n1;// \x27/\x27".toList).pieces mysql =
    [.directive "DELIMITER //\n".toList, .kept .code ['1'], .kept .code [';'], .delimiter ['/', '/'],
      .kept .code [' '], .kept .code ['\x27'], .kept (.quoted '\x27' true) ['/'],
      .kept (.quoted '\x27' true) ['\x27']] := by
  decide +kernel

/-- In a block that only a line ends, it is kept. -/
example : (Scan.start oracle "BEGIN;\n/\n1;".toList).pieces oracle =
    "BEGIN;\n".toList.map (fun c => .kept .code [c]) ++
      [.markerLine ['/', '\n'], .kept .code ['1'], .delimiter [';']] := by
  decide +kernel

end SqlScript
