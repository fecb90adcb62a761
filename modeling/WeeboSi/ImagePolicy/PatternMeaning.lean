import WeeboSi.ImagePolicy.PatternShape
import WeeboSi.ImagePolicy.ReferenceFixpoint

/-!
# What a pattern means

Source: crates/weebo-si-image-policy/src/pattern.rs:181-270 and 632-728. The meaning of
a pattern is stated by splitting: path components into blocks, components and tags into
runs. Both loops of the source are runs of the greedy matcher, so they decide it.
-/
namespace WeeboSi.ImagePolicy
open WeeboSi.Lib

/-! ## The meaning -/

def PieceRun (values : VariableValues) : GlobPiece → Text → Prop
  | .literal text, run => run = text
  | .star, _ => True
  | .var name, run => ∃ value, values.get name = some value ∧ run = value.text

/-- `text` is a concatenation of what the pieces stand for. -/
def Concatenation (values : VariableValues) (pieces : List GlobPiece) (text : Text) : Prop :=
  ∃ runs, List.Forall₂ (PieceRun values) pieces runs ∧ text = runs.flatten

/-- `**` gets one or more whole components, any other segment exactly one. -/
def SegmentBlock (values : VariableValues) : PathSegment → List Text → Prop
  | .doubleStar, block => 1 ≤ block.length
  | .glob pieces, block => ∃ component, block = [component] ∧ Concatenation values pieces component

def PathMeaning (values : VariableValues) (path : List PathSegment) (components : List Text) : Prop :=
  ∃ blocks, List.Forall₂ (SegmentBlock values) path blocks ∧ components = blocks.flatten

def LabelMeaning (values : VariableValues) : GlobPiece → Text → Prop
  | .literal text, label => label = text
  | .star, _ => False
  | .var name, label => ∃ value, values.get name = some value ∧ label = value.text

/-- A suffix pattern asks for at least one label in front of it, port included in the
comparison; a label pattern asks for the same port and the same labels one by one. -/
def HostMeaning (values : VariableValues) : HostPattern → Text → Prop
  | .suffix suffix, host => ∃ front, front ≠ [] ∧ host = front ++ '.' :: suffix
  | .labels labels port, host => ∃ name, ':' ∉ name ∧ host = joinPort name port ∧
      List.Forall₂ (LabelMeaning values) labels (name.splitOn '.')

/-- No constraint, or the tag is a concatenation, or there is no tag to constrain and the
pattern text ends in `@*`. -/
def TagMeaning (values : VariableValues) (patternText : Text) (constraint : Option (List GlobPiece))
    (tag : Option Text) : Prop :=
  constraint = none ∨ (∃ pieces text, constraint = some pieces ∧ tag = some text ∧
      Concatenation values pieces text) ∨
    (tag = none ∧ ∃ body, patternText = body ++ anyDigestSuffix)

/-! ## The piece loop is the greedy matcher -/

def pieceItem : GlobPiece → Item Char
  | .literal text => .block ⟨text.length, fun run => run == text⟩
  | .star => .star
  | .var _ => .block ⟨1, fun _ => false⟩

theorem consume_literal (text input : Text) :
    (Block.consume ⟨text.length, fun run => run == text⟩ input) =
      if text.isPrefixOf input then some (input.drop text.length) else none := by
  split
  · rename_i isPrefix
    obtain ⟨rest, rfl⟩ := List.isPrefixOf_iff_prefix.mp isPrefix
    refine (Block.consume_eq_some _ _ _).mpr ⟨text, by simp, rfl, by simp⟩
  · rename_i other
    rw [Option.eq_none_iff_forall_ne_some]
    intro rest taken
    obtain ⟨run, rfl, -, same⟩ := (Block.consume_eq_some _ _ _).mp taken
    simp only [beq_iff_eq] at same
    subst same
    exact other (List.isPrefixOf_iff_prefix.mpr ⟨rest, rfl⟩)

theorem leftover_pieces (pieces : List GlobPiece) :
    leftover 0 (pieces.map pieceItem) = decide (pieces.dropWhile (· = .star) = []) := by
  induction pieces with
  | nil => rfl
  | cons piece rest ih =>
    cases piece with
    | literal text => simp [pieceItem, leftover]
    | star => simpa [pieceItem, leftover] using ih
    | var name => simp [pieceItem, leftover]

/-- What the marked star of the loop holds, as the greedy matcher keeps it. -/
def globMark (resolved : List GlobPiece) (input : Text) (star : Option Nat) (starInput : Nat) :
    Option (List (Item Char) × Text) :=
  star.map fun star => ((resolved.drop (star + 1)).map pieceItem, input.drop starInput)

theorem matchesGlobLoop_eq_greedy (resolved : List GlobPiece) (input : Text) (fuel p i : Nat)
    (star : Option Nat) (starInput : Nat) :
    matchesGlobLoop resolved input fuel p i star starInput =
      greedy 0 fuel ((resolved.drop p).map pieceItem) (input.drop i)
        (globMark resolved input star starInput) := by
  induction fuel generalizing p i star starInput with
  | zero => rfl
  | succ fuel ih =>
    have retry : backtrack (matchesGlobLoop resolved input fuel) star starInput =
        extend (greedy 0 fuel) (globMark resolved input star starInput) := by
      cases star with
      | none => rfl
      | some star =>
        simp only [backtrack, ih]
        simp [globMark, extend]
    unfold matchesGlobLoop
    simp only [retry]
    by_cases inside : i < input.length
    · obtain ⟨x, xs, hx⟩ := List.exists_cons_of_ne_nil
        (fun empty => by simp at empty; omega : input.drop i ≠ [])
      rw [if_pos inside]
      cases at_ : resolved[p]? with
      | none =>
        have past : resolved.drop p = [] := List.drop_eq_nil_of_le (List.getElem?_eq_none_iff.mp at_)
        simp [past, hx, greedy]
      | some piece =>
        obtain ⟨bound, rfl⟩ := List.getElem?_eq_some_iff.mp at_
        have next : resolved.drop p = resolved[p] :: resolved.drop (p + 1) :=
          List.drop_eq_getElem_cons bound
        rw [next, List.map_cons]
        generalize hrest : resolved.drop (p + 1) = rest
        cases kind : resolved[p] with
        | literal text =>
          simp only [pieceItem, hx, greedy, consume_literal]
          split
          · rw [ih, hrest, ← List.drop_drop, hx]
          · rfl
        | star =>
          simp only [pieceItem, hx, greedy, List.drop_zero]
          rw [ih, hrest, hx]
          simp only [globMark, Option.map_some, hx, hrest]
        | var name =>
          have refuse : Block.consume ⟨1, fun _ => false⟩ (x :: xs) = none := by simp [Block.consume]
          simp only [pieceItem, hx, greedy, refuse]
    · have past : input.drop i = [] := List.drop_eq_nil_of_le (by omega)
      rw [if_neg inside, past]
      simp only [greedy, leftover_pieces]

/-! ## Pieces -/

theorem pieceRun_iff_takes (values : VariableValues) (pieces resolved : List GlobPiece)
    (runs : List Text) (h : resolvePieces pieces values = some resolved) :
    List.Forall₂ (PieceRun values) pieces runs ↔
      List.Forall₂ (Item.Takes 0) (resolved.map pieceItem) runs := by
  have pairs := (mapM_eq_some _ _ _).mp h
  clear h
  induction pairs generalizing runs with
  | nil => simp
  | @cons piece out pieces resolved one _ ih =>
    cases runs with
    | nil => simp
    | cons run runs =>
      simp only [List.map_cons, List.forall₂_cons, ih]
      refine and_congr_left fun _ => ?_
      cases piece with
      | literal text =>
        cases one
        simp only [PieceRun, pieceItem, Item.Takes, beq_iff_eq]
        constructor
        · rintro rfl
          exact ⟨rfl, rfl⟩
        · exact fun h => h.2
      | star =>
        cases one
        simp [PieceRun, pieceItem, Item.Takes]
      | var name =>
        obtain ⟨value, bound, rfl⟩ := Option.map_eq_some_iff.mp one
        simp only [PieceRun, bound, Option.some.injEq, exists_eq_left', pieceItem, Item.Takes,
          beq_iff_eq]
        constructor
        · rintro rfl
          exact ⟨rfl, rfl⟩
        · exact fun h => h.2

theorem pieceRun_resolves (values : VariableValues) (pieces : List GlobPiece) (runs : List Text)
    (h : List.Forall₂ (PieceRun values) pieces runs) :
    ∃ resolved, resolvePieces pieces values = some resolved := by
  induction h with
  | nil => exact ⟨[], rfl⟩
  | @cons piece run pieces runs one _ ih =>
    obtain ⟨resolved, hresolved⟩ := ih
    have rest := (mapM_eq_some _ _ _).mp hresolved
    cases piece with
    | literal text => exact ⟨.literal text :: resolved, (mapM_eq_some _ _ _).mpr (.cons rfl rest)⟩
    | star => exact ⟨.star :: resolved, (mapM_eq_some _ _ _).mpr (.cons rfl rest)⟩
    | var name =>
      obtain ⟨value, bound, -⟩ := one
      exact ⟨.literal value.text :: resolved,
        (mapM_eq_some _ _ _).mpr (.cons (by simp [bound]) rest)⟩

theorem resolved_positive (values : VariableValues) (pieces resolved : List GlobPiece)
    (solid : Solid pieces) (h : resolvePieces pieces values = some resolved) :
    Positive (resolved.map pieceItem) := by
  have pairs := (mapM_eq_some _ _ _).mp h
  clear h
  induction pairs with
  | nil => simp [Positive]
  | @cons piece out pieces resolved one _ ih =>
    have rest := ih (fun text member => solid text (by simp [member]))
    intro b member
    simp only [List.map_cons, List.mem_cons] at member
    rcases member with first | member
    · cases piece with
      | literal text =>
        cases one
        cases first
        exact List.length_pos_of_ne_nil (solid text (by simp))
      | star =>
        cases one
        cases first
      | var name =>
        obtain ⟨value, -, rfl⟩ := Option.map_eq_some_iff.mp one
        cases first
        exact List.length_pos_of_ne_nil value.ne_nil
    · exact rest b member

/-- The piece loop decides concatenation. -/
theorem matchesGlob_iff (pieces : List GlobPiece) (input : Text) (values : VariableValues)
    (solid : Solid pieces) :
    matchesGlob pieces input values = true ↔ Concatenation values pieces input := by
  unfold matchesGlob
  cases h : resolvePieces pieces values with
  | none =>
    simp only [Bool.false_eq_true, false_iff]
    rintro ⟨runs, taken, -⟩
    obtain ⟨resolved, some⟩ := pieceRun_resolves values pieces runs taken
    rw [h] at some
    cases some
  | some resolved =>
    have loop := greedy_iff 0 (by decide) (resolved.map pieceItem) input
      (resolved_positive values pieces resolved solid h)
    simp only [decide_eq_true_eq]
    rw [matchesGlobLoop_eq_greedy]
    simp only [List.length_map, List.drop_zero, globMark, Option.map_none] at loop ⊢
    rw [loop, splits_iff_runs]
    simp only [Concatenation, pieceRun_iff_takes values pieces resolved _ h]

/-! ## Segments -/

def segmentItem (values : VariableValues) : PathSegment → Item Text
  | .doubleStar => .star
  | .glob pieces => .block ⟨1, fun run => run.any fun segment => matchesSegment pieces segment values⟩

def pathMark (values : VariableValues) (pattern : List PathSegment) (input : List Text)
    (star : Option Nat) (starInput : Nat) : Option (List (Item Text) × List Text) :=
  star.map fun star => ((pattern.drop (star + 1)).map (segmentItem values), input.drop starInput)

theorem leftover_segments (values : VariableValues) (pattern : List PathSegment) :
    leftover 1 (pattern.map (segmentItem values)) = decide (pattern = []) := by
  cases pattern with
  | nil => rfl
  | cons segment rest =>
    cases segment with
    | glob pieces => simp [segmentItem, leftover]
    | doubleStar => simp [segmentItem, leftover]

theorem consume_segment (test : Text → Bool) (segment : Text) (rest : List Text) :
    Block.consume ⟨1, fun run => run.any test⟩ (segment :: rest) =
      if test segment then some rest else none := by
  simp [Block.consume]

theorem matchesPathLoop_eq_greedy (values : VariableValues) (pattern : List PathSegment)
    (input : List Text) (fuel p i : Nat) (star : Option Nat) (starInput : Nat)
    (within : p ≤ pattern.length) (starWithin : ∀ s ∈ star, s < pattern.length) :
    matchesPathLoop pattern input values fuel p i star starInput =
      greedy 1 fuel ((pattern.drop p).map (segmentItem values)) (input.drop i)
        (pathMark values pattern input star starInput) := by
  induction fuel generalizing p i star starInput with
  | zero => rfl
  | succ fuel ih =>
    have retry : backtrack (matchesPathLoop pattern input values fuel) star starInput =
        extend (greedy 1 fuel) (pathMark values pattern input star starInput) := by
      cases star with
      | none => rfl
      | some star =>
        have bound := starWithin star rfl
        simp only [backtrack]
        rw [ih _ _ _ _ (by omega) starWithin]
        simp [pathMark, extend]
    unfold matchesPathLoop
    simp only [retry]
    cases here : input[i]? with
    | none =>
      have past : input.drop i = [] := List.drop_eq_nil_of_le (List.getElem?_eq_none_iff.mp here)
      simp only [past, greedy, leftover_segments, List.drop_eq_nil_iff]
      congr 1
      simp only [decide_eq_decide]
      omega
    | some segment =>
      obtain ⟨inside, rfl⟩ := List.getElem?_eq_some_iff.mp here
      have hx : input.drop i = input[i] :: input.drop (i + 1) := List.drop_eq_getElem_cons inside
      cases at_ : pattern[p]? with
      | none =>
        have past : pattern.drop p = [] := List.drop_eq_nil_of_le (List.getElem?_eq_none_iff.mp at_)
        simp only [past, hx, List.map_nil, greedy]
      | some piece =>
        obtain ⟨bound, rfl⟩ := List.getElem?_eq_some_iff.mp at_
        have next : pattern.drop p = pattern[p] :: pattern.drop (p + 1) :=
          List.drop_eq_getElem_cons bound
        rw [next, List.map_cons, hx]
        cases kind : pattern[p] with
        | doubleStar =>
          simp only [segmentItem, greedy, List.drop_succ_cons, List.drop_zero]
          rw [ih _ _ _ _ bound (by rintro _ ⟨⟩; exact bound)]
          rfl
        | glob pieces =>
          simp only [segmentItem, greedy, consume_segment]
          split
          · rw [ih _ _ _ _ bound starWithin]
          · rfl

theorem segmentBlock_iff_takes (values : VariableValues) (segment : PathSegment)
    (block : List Text) (solid : SolidSegment segment) :
    Item.Takes 1 (segmentItem values segment) block ↔ SegmentBlock values segment block := by
  cases segment with
  | doubleStar => rfl
  | glob pieces =>
    simp only [segmentItem, Item.Takes, SegmentBlock, List.any_eq_true, matchesSegment]
    constructor
    · rintro ⟨one, component, member, matched⟩
      obtain ⟨only, rfl⟩ := List.length_eq_one_iff.mp one
      obtain rfl : component = only := by simpa using member
      exact ⟨component, rfl, (matchesGlob_iff pieces component values solid).mp matched⟩
    · rintro ⟨component, rfl, meaning⟩
      exact ⟨rfl, component, by simp, (matchesGlob_iff pieces component values solid).mpr meaning⟩

theorem forall₂_segments (values : VariableValues) (path : List PathSegment)
    (blocks : List (List Text)) (solid : ∀ segment ∈ path, SolidSegment segment) :
    List.Forall₂ (Item.Takes 1) (path.map (segmentItem values)) blocks ↔
      List.Forall₂ (SegmentBlock values) path blocks := by
  induction path generalizing blocks with
  | nil => simp
  | cons segment path ih =>
    cases blocks with
    | nil => simp
    | cons block blocks =>
      have rest := ih blocks (fun s member => solid s (by simp [member]))
      simp only [List.map_cons, List.forall₂_cons, rest,
        segmentBlock_iff_takes values segment block (solid segment (by simp))]

/-- The segment loop decides the split into blocks. -/
theorem matchesPath_iff (path : List PathSegment) (r : ImageReference) (values : VariableValues)
    (solid : ∀ segment ∈ path, SolidSegment segment) :
    matchesPath path r values = true ↔ PathMeaning values path r.pathComponents := by
  have positive : Positive (path.map (segmentItem values)) := by
    intro b member
    obtain ⟨segment, -, hb⟩ := List.mem_map.mp member
    cases segment with
    | doubleStar => cases hb
    | glob pieces =>
      cases hb
      exact Nat.one_pos
  have loop := greedy_iff 1 (by decide) (path.map (segmentItem values)) r.pathComponents positive
  unfold matchesPath
  simp only [decide_eq_true_eq]
  rw [matchesPathLoop_eq_greedy values path _ _ 0 0 none 0 (Nat.zero_le _) (by simp)]
  simp only [List.length_map, List.drop_zero, pathMark, Option.map_none] at loop ⊢
  rw [loop, splits_iff_runs]
  simp only [PathMeaning, forall₂_segments values path _ solid]

/-! ## Both loops answer -/

theorem matchesGlobLoop_answers (resolved : List GlobPiece) (input : Text) :
    ∃ answer, matchesGlobLoop resolved input (greedyFuel resolved.length input.length) 0 0 none 0 =
      some answer := by
  rw [matchesGlobLoop_eq_greedy]
  simpa [globMark] using greedy_answers 0 (resolved.map pieceItem) input

theorem matchesPathLoop_answers (values : VariableValues) (pattern : List PathSegment)
    (input : List Text) :
    ∃ answer, matchesPathLoop pattern input values (greedyFuel pattern.length input.length)
      0 0 none 0 = some answer := by
  rw [matchesPathLoop_eq_greedy values pattern input _ 0 0 none 0 (Nat.zero_le _) (by simp)]
  simpa [pathMark] using greedy_answers 1 (pattern.map (segmentItem values)) input

/-! ## Hosts -/

theorem joinPort_inj (name name' : Text) (port port' : Option Text) (h : ':' ∉ name)
    (h' : ':' ∉ name') (same : joinPort name port = joinPort name' port') :
    name = name' ∧ port = port' := by
  cases port with
  | none =>
    cases port' with
    | none => exact ⟨same, rfl⟩
    | some p' =>
      simp only [joinPort] at same
      rw [same] at h
      simp at h
  | some p =>
    cases port' with
    | none =>
      simp only [joinPort] at same
      rw [← same] at h'
      simp at h'
    | some p' =>
      simp only [joinPort] at same
      have cut := splitOnce_append ':' name p h
      rw [same, splitOnce_append ':' name' p' h'] at cut
      cases cut
      exact ⟨rfl, rfl⟩

theorem HostName.no_colon (name : Text) (labels : HostName name) : ':' ∉ name := by
  intro colon
  rcases HostName.chars name labels _ colon with label | dot
  · exact absurd label (by decide)
  · exact absurd dot (by decide)

/-- A normalised host does not start with a dot. -/
theorem HostShape.head (host rest : Text) (shape : HostShape host) : host ≠ '.' :: rest := by
  obtain ⟨name, port, rfl, labels, -⟩ := shape
  intro same
  have dotted : ∃ more, name = '.' :: more := by
    cases name with
    | nil => exact absurd rfl (HostName.ne_nil [] labels)
    | cons c more =>
      cases port with
      | none => exact ⟨more, by simp only [joinPort, List.cons.injEq] at same; rw [same.1]⟩
      | some p => exact ⟨more, by simp only [joinPort, List.cons_append, List.cons.injEq] at same; rw [same.1]⟩
  obtain ⟨more, rfl⟩ := dotted
  have leading : [] ∈ ('.' :: more).splitOn '.' := by
    rw [show '.' :: more = [] ++ '.' :: more from rfl, splitOn_append _ _ _ (by simp)]
    simp
  have empty := labels [] leading
  simp [edged] at empty

theorem matchesLabel_iff (values : VariableValues) (piece : GlobPiece) (label : Text) :
    matchesLabel values piece label = true ↔ LabelMeaning values piece label := by
  cases piece with
  | literal text =>
    simp only [matchesLabel, LabelMeaning, beq_iff_eq]
    exact eq_comm
  | star => simp [matchesLabel, LabelMeaning]
  | var name =>
    simp only [matchesLabel, LabelMeaning, Option.any_eq_true, beq_iff_eq]
    exact exists_congr fun value => and_congr_right fun _ => eq_comm

theorem matchesHost_iff (p : Pattern) (host : Text) (values : VariableValues)
    (shape : HostShape host) :
    p.matchesHost host values = true ↔ HostMeaning values p.host host := by
  unfold Pattern.matchesHost
  cases p.host with
  | suffix suffix =>
    simp only [List.isSuffixOf_iff_suffix, HostMeaning]
    constructor
    · rintro ⟨front, rfl⟩
      refine ⟨front, ?_, rfl⟩
      rintro rfl
      exact HostShape.head _ suffix shape rfl
    · rintro ⟨front, -, rfl⟩
      exact ⟨front, rfl⟩
  | labels labels port =>
    obtain ⟨name, actual, rfl, hlabels, hport⟩ := shape
    have noColon := HostName.no_colon name hlabels
    have cut : cutPort (joinPort name actual) = (name, actual) := by
      refine (cutPort_eq _ _ _).mpr ⟨rfl, ?_, fun _ => noColon⟩
      intro q hq colon
      exact absurd ((hport q hq).2 _ colon) (by decide)
    simp only [cut, HostMeaning]
    have paired : ((labels.zip (name.splitOn '.')).all fun pair =>
        matchesLabel values pair.1 pair.2) = true ↔
        ∀ piece label, (piece, label) ∈ labels.zip (name.splitOn '.') →
          LabelMeaning values piece label := by
      simp [List.all_eq_true, matchesLabel_iff]
    constructor
    · intro h
      split at h
      · cases h
      · rename_i samePort
        split at h
        · cases h
        · rename_i sameLength
          simp only [ne_eq, not_not] at samePort sameLength
          refine ⟨name, noColon, by rw [samePort], List.forall₂_iff_zip.mpr ⟨sameLength.symm, ?_⟩⟩
          exact fun {piece label} member => paired.mp h piece label member
    · rintro ⟨name', noColon', same, meaning⟩
      obtain ⟨rfl, rfl⟩ := joinPort_inj name name' actual port noColon noColon' same
      obtain ⟨sameLength, zipped⟩ := List.forall₂_iff_zip.mp meaning
      rw [if_neg (by simp), if_neg (by simp [sameLength])]
      exact paired.mpr fun piece label member => zipped member

/-! ## Whole patterns -/

theorem mem_seeVariable (out : List VariableName) (piece : GlobPiece) (name : VariableName) :
    name ∈ Pattern.seeVariable out piece ↔ name ∈ out ∨ .var name = piece := by
  cases piece with
  | literal text => simp [Pattern.seeVariable]
  | star => simp [Pattern.seeVariable]
  | var other =>
    simp only [Pattern.seeVariable, GlobPiece.var.injEq]
    split
    · rename_i seen
      constructor
      · exact Or.inl
      · rintro (h | rfl)
        · exact h
        · simpa using seen
    · simp

theorem mem_variableNames (p : Pattern) (name : VariableName) :
    name ∈ p.variableNames ↔ .var name ∈ p.pieces := by
  have run : ∀ (pieces : List GlobPiece) (out : List VariableName),
      name ∈ pieces.foldl Pattern.seeVariable out ↔ name ∈ out ∨ .var name ∈ pieces := by
    intro pieces
    induction pieces with
    | nil => simp
    | cons piece rest ih =>
      intro out
      rw [List.foldl_cons, ih, mem_seeVariable, List.mem_cons, or_assoc]
  rw [Pattern.variableNames, run]
  simp

theorem matchesTag_iff (patternText : Text) (p : Pattern) (tag : Option Text)
    (values : VariableValues) (parsed : Pattern.parse patternText = .ok p) :
    p.matchesTag tag values = true ↔ TagMeaning values patternText p.tag tag := by
  obtain ⟨-, -, body, name, tagText, host, path, cut, -, -, -, -, -, -, -, -, -, htag, -⟩ :=
    (patternParse_eq_ok _ _).mp parsed
  have any : p.anyDigest = true ↔ ∃ body, patternText = body ++ anyDigestSuffix := by
    rcases (cutAnyDigest_eq _ _ _).mp cut with ⟨yes, whole⟩ | ⟨no, -, absent⟩
    · simp only [yes, true_iff]
      exact ⟨body, whole⟩
    · simp only [no, Bool.false_eq_true, false_iff]
      exact absent
  unfold Pattern.matchesTag TagMeaning
  rcases (parseTag_eq_ok _ _).mp htag with ⟨-, none⟩ | ⟨text, pieces, -, some, hpieces⟩
  · simp [none]
  · have solid := parseGlob_solid _ _ _ hpieces
    cases tag with
    | none => simp [some, any]
    | some tag => simp [some, matchesGlob_iff pieces tag values solid]

/-- A pattern matches a reference exactly when it means it. -/
theorem matchesReference_iff (patternText raw : Text) (p : Pattern) (r : ImageReference)
    (values : VariableValues) (pattern : Pattern.parse patternText = .ok p)
    (reference : ImageReference.parse raw = .ok r) :
    p.matchesReference r values = true ↔
      (∀ name, .var name ∈ p.pieces → ∃ value, values.get name = some value) ∧
      HostMeaning values p.host r.host ∧ PathMeaning values p.path r.pathComponents ∧
      TagMeaning values patternText p.tag r.tag := by
  obtain ⟨-, -, body, name, tagText, host, path, -, -, -, -, -, -, -, -, -, hpath, -⟩ :=
    (patternParse_eq_ok _ _).mp pattern
  have normal := parse_normal raw r reference
  have bound : (p.variableNames.any fun name => (values.get name).isNone) = true ↔
      ¬ ∀ name, .var name ∈ p.pieces → ∃ value, values.get name = some value := by
    simp only [List.any_eq_true, mem_variableNames, Option.isNone_iff_eq_none, not_forall]
    constructor
    · rintro ⟨name, member, unbound⟩
      exact ⟨name, member, by simp [unbound]⟩
    · rintro ⟨name, member, unbound⟩
      refine ⟨name, member, ?_⟩
      rw [Option.eq_none_iff_forall_ne_some]
      exact fun value h => unbound ⟨value, h⟩
  unfold Pattern.matchesReference
  by_cases all : ∀ name, .var name ∈ p.pieces → ∃ value, values.get name = some value
  · rw [if_neg (fun h => bound.mp h all)]
    simp only [Bool.and_eq_true, matchesHost_iff p r.host values normal.host,
      matchesPath_iff p.path r values (parsePath_solid _ _ _ hpath),
      matchesTag_iff patternText p r.tag values pattern, and_assoc]
    exact ⟨fun h => ⟨all, h⟩, fun h => h.2⟩
  · rw [if_pos (bound.mpr all)]
    simp only [Bool.false_eq_true, false_iff, not_and]
    exact fun h => absurd h all

theorem matchesReference_iff_nginx :
    ∃ p r, Pattern.parse "docker.io/**/ng*:1.*".toList = .ok p ∧
      ImageReference.parse "nginx:1.27".toList = .ok r ∧
      HostMeaning .new p.host r.host ∧ PathMeaning .new p.path r.pathComponents ∧
      TagMeaning .new "docker.io/**/ng*:1.*".toList p.tag r.tag := by
  have pattern : Pattern.parse "docker.io/**/ng*:1.*".toList = .ok
      ⟨"docker.io/**/ng*:1.*".toList, .labels [.literal "docker".toList, .literal "io".toList] none,
        [.doubleStar, .glob [.literal "ng".toList, .star]], some [.literal "1.".toList, .star],
        false⟩ := by decide
  have reference : ImageReference.parse "nginx:1.27".toList =
      .ok ⟨"docker.io".toList, "library/nginx".toList, some "1.27".toList, none⟩ := by decide
  exact ⟨_, _, pattern, reference,
    ((matchesReference_iff _ _ _ _ .new pattern reference).mp (by decide)).2⟩

/-! ## Team isolation -/

/-- Before the first `**` each segment has its own component, so what stands at a position
of the pattern stands at that position of the path. -/
theorem pathMeaning_at (values : VariableValues) (before after : List PathSegment)
    (pieces : List GlobPiece) (components : List Text) (fixed : .doubleStar ∉ before)
    (meaning : PathMeaning values (before ++ .glob pieces :: after) components) :
    ∃ component, components[before.length]? = some component ∧ Concatenation values pieces component := by
  induction before generalizing components with
  | nil =>
    obtain ⟨blocks, parts, rfl⟩ := meaning
    cases parts with
    | cons here rest =>
      obtain ⟨component, rfl, spelt⟩ := here
      exact ⟨component, by simp, spelt⟩
  | cons segment before ih =>
    simp only [List.mem_cons, not_or] at fixed
    obtain ⟨blocks, parts, rfl⟩ := meaning
    cases parts with
    | cons here rest =>
      cases segment with
      | doubleStar => exact absurd rfl fixed.1
      | glob others =>
        obtain ⟨component, rfl, -⟩ := here
        obtain ⟨found, position, spelt⟩ := ih _ fixed.2 ⟨_, rest, rfl⟩
        exact ⟨found, by simpa using position, spelt⟩

theorem concatenation_var (values : VariableValues) (name : VariableName) (text : Text)
    (spelt : Concatenation values [.var name] text) :
    ∃ value, values.get name = some value ∧ text = value.text := by
  obtain ⟨runs, parts, rfl⟩ := spelt
  cases parts with
  | cons here rest =>
    cases rest
    obtain ⟨value, bound, rfl⟩ := here
    exact ⟨value, bound, by simp⟩

/-- A pattern that asks for the team's name at a fixed place of the path matches no
reference for two teams, and none at all for a namespace without a team. Nothing is special
about `TEAM_NAME`: it is so for every variable `team`. -/
theorem team_isolation (patternText : Text) (p : Pattern) (before after : List PathSegment)
    (team : VariableName) (parsed : Pattern.parse patternText = .ok p)
    (path : p.path = before ++ .glob [.var team] :: after) (fixed : .doubleStar ∉ before) :
    (∀ (one other : VariableValues) (a b : PathComponent), one.get team = some a →
      other.get team = some b → a ≠ b → ∀ raw r, ImageReference.parse raw = .ok r →
      ¬ (p.matchesReference r one = true ∧ p.matchesReference r other = true)) ∧
    ∀ values : VariableValues, values.get team = none → ∀ r, p.matchesReference r values = false := by
  constructor
  · intro one other a b boundOne boundOther different raw r reference both
    have located : ∀ (values : VariableValues) (value : PathComponent), values.get team = some value →
        p.matchesReference r values = true → r.pathComponents[before.length]? = some value.text := by
      intro values value bound matched
      have meaning := ((matchesReference_iff patternText raw p r values parsed reference).mp matched).2.2.1
      rw [path] at meaning
      obtain ⟨component, position, spelt⟩ := pathMeaning_at values before after _ _ fixed meaning
      obtain ⟨value', bound', rfl⟩ := concatenation_var values team component spelt
      obtain rfl := Option.some.inj (bound.symm.trans bound')
      exact position
    have same := (located one a boundOne both.1).symm.trans (located other b boundOther both.2)
    apply different
    cases a
    cases b
    simpa using same
  · intro values unbound r
    have used : team ∈ p.variableNames := by
      rw [mem_variableNames, Pattern.pieces, path]
      simp
    unfold Pattern.matchesReference
    rw [if_pos]
    exact List.any_eq_true.mpr ⟨team, used, by rw [unbound]; rfl⟩

theorem team_isolation_teams :
    ∃ p, Pattern.parse "registry.internal/teams/\x7bTEAM_NAME\x7d/**".toList = .ok p ∧
      ∀ raw r, ImageReference.parse raw = .ok r →
        ¬ (p.matchesReference r (.fromPairs [(⟨teamNameVariable, by decide⟩, ⟨"a".toList, by decide⟩)]) = true ∧
          p.matchesReference r
            (.fromPairs [(⟨teamNameVariable, by decide⟩, ⟨"b".toList, by decide⟩)]) = true) := by
  have parsed : Pattern.parse "registry.internal/teams/\x7bTEAM_NAME\x7d/**".toList = .ok
      ⟨"registry.internal/teams/\x7bTEAM_NAME\x7d/**".toList,
        .labels [.literal "registry".toList, .literal "internal".toList] none,
        [.glob [.literal "teams".toList], .glob [.var ⟨teamNameVariable, by decide⟩], .doubleStar],
        none, false⟩ := by decide
  refine ⟨_, parsed, ?_⟩
  exact (team_isolation _ _ [.glob [.literal "teams".toList]] [.doubleStar] _ parsed rfl (by decide)).1
    (.fromPairs [(⟨teamNameVariable, by decide⟩, ⟨"a".toList, by decide⟩)])
    (.fromPairs [(⟨teamNameVariable, by decide⟩, ⟨"b".toList, by decide⟩)])
    ⟨"a".toList, by decide⟩ ⟨"b".toList, by decide⟩ (by decide) (by decide) (by decide)

end WeeboSi.ImagePolicy
