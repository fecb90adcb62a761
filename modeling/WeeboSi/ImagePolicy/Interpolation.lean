import WeeboSi.Lib.Wildcard
import WeeboSi.ImagePolicy.PatternReach

/-!
# Interpolated patterns

Source: crates/weebo-si-image-policy/src/pattern.rs:195-226, 730-740. What `images check`
prints: every variable replaced by its value, as text. Each run that is printed stands for
what the run of the pattern stands for under the same values, and reads back as a run of
its field; only a tag can fail to, by its length.
-/
namespace WeeboSi.ImagePolicy
open WeeboSi.Lib

/-! ## Rendering -/

def renderPiece (values : VariableValues) : GlobPiece → Option Text
  | .literal literal => some literal
  | .star => some ['*']
  | .var name => (values.get name).map PathComponent.text

/-- `none` when a variable is unbound. -/
def renderPieces (pieces : List GlobPiece) (values : VariableValues) (join : Text) : Option Text :=
  (pieces.mapM (renderPiece values)).map join.intercalate

def renderHost (values : VariableValues) : HostPattern → Option Text
  | .suffix suffix => some ('*' :: '.' :: suffix)
  | .labels labels port => do
    let rendered ← renderPieces labels values ['.']
    match port with
    | some port => some (rendered ++ ':' :: port)
    | none => some rendered

def renderSegment (values : VariableValues) : PathSegment → Option Text
  | .doubleStar => some ['*', '*']
  | .glob pieces => renderPieces pieces values []

def renderTag (values : VariableValues) : Option (List GlobPiece) → Option (Option Text)
  | some pieces => (renderPieces pieces values []).map some
  | none => some none

/-- The pattern with every variable substituted, as text. -/
def Pattern.interpolated (p : Pattern) (values : VariableValues) : Option Text := do
  let host ← renderHost values p.host
  let path ← p.path.mapM (renderSegment values)
  let tag ← renderTag values p.tag
  let out := host ++ '/' :: ['/'].intercalate path ++ tagText tag
  some (if p.anyDigest then out ++ anyDigestSuffix else out)

/-! ## What a rendered run stands for -/

/-- The texts the pieces are rendered to, one by one. -/
def Rendered (values : VariableValues) : List GlobPiece → List Text → Prop :=
  List.Forall₂ fun piece text => renderPiece values piece = some text

theorem rendered_ne_nil (values : VariableValues) (pieces : List GlobPiece) (texts : List Text)
    (rendered : Rendered values pieces texts) (some_ : pieces ≠ []) : texts ≠ [] := by
  cases rendered with
  | nil => exact absurd rfl some_
  | cons _ _ => simp

theorem intercalate_nil_eq_flatten (texts : List Text) : [].intercalate texts = texts.flatten := by
  induction texts with
  | nil => rfl
  | cons text texts ih =>
    cases texts with
    | nil => simp
    | cons next texts =>
      rw [List.intercalate_cons_cons, ih]
      simp

theorem renderPieces_eq_some (pieces : List GlobPiece) (values : VariableValues) (join text : Text) :
    renderPieces pieces values join = some text ↔
      ∃ texts, Rendered values pieces texts ∧ text = join.intercalate texts := by
  simp only [renderPieces, Option.map_eq_some_iff, mapM_eq_some, Rendered]
  exact exists_congr fun texts => and_congr_right fun _ => eq_comm

theorem renderRun_eq_some (pieces : List GlobPiece) (values : VariableValues) (text : Text) :
    renderPieces pieces values [] = some text ↔
      ∃ texts, Rendered values pieces texts ∧ text = texts.flatten := by
  simp only [renderPieces_eq_some, intercalate_nil_eq_flatten]

/-- A value is a run of either field. -/
theorem PathComponent.isRun (field : GlobField) (value : PathComponent) :
    ∀ c ∈ value.text, isRunChar field c = true := by
  intro c member
  have component : isComponentChar c = true := ((edged_iff _ _ _).mp value.legal).2.2 c member
  cases field with
  | pathSegment => exact component
  | tag =>
    simp only [isComponentChar, Bool.or_eq_true, List.contains_eq_mem, List.mem_cons,
      List.not_mem_nil, or_false, decide_eq_true_eq] at component
    rcases component with (lower | digit) | rfl | rfl | rfl
    · simp [isRunChar, isTagChar, Char.isAlphanum, isAlpha_iff, lower]
    · simp [isRunChar, isTagChar, Char.isAlphanum, digit]
    · decide
    · decide
    · decide

theorem isRunChar_ne_star (field : GlobField) (c : Char) (run : isRunChar field c = true) : c ≠ '*' := by
  rintro rfl
  cases field with
  | pathSegment => exact absurd run (by decide)
  | tag => exact absurd run (by decide)

/-- A rendered piece is a star, or a non-empty run of its field. -/
theorem renderPiece_cases (field : GlobField) (values : VariableValues) (piece : GlobPiece) (text : Text)
    (good : GoodPiece field piece) (rendered : renderPiece values piece = some text) :
    (piece = .star ∧ text = ['*']) ∨
      (piece ≠ .star ∧ text ≠ [] ∧ (∀ c ∈ text, isRunChar field c = true) ∧
        ∀ run, PieceRun values piece run ↔ run = text) := by
  cases piece with
  | literal literal =>
    cases rendered
    exact Or.inr ⟨by simp, good.1, good.2, fun run => Iff.rfl⟩
  | star =>
    cases rendered
    exact Or.inl ⟨rfl, rfl⟩
  | var name =>
    obtain ⟨value, bound, rfl⟩ := Option.map_eq_some_iff.mp rendered
    refine Or.inr ⟨by simp, value.ne_nil, value.isRun field, ?_⟩
    intro run
    simp [PieceRun, bound]

theorem concatenation_cons_iff (values : VariableValues) (piece : GlobPiece) (rest : List GlobPiece)
    (text : Text) : Concatenation values (piece :: rest) text ↔
      ∃ run more, PieceRun values piece run ∧ text = run ++ more ∧ Concatenation values rest more := by
  constructor
  · intro given
    obtain ⟨runs, parts, whole⟩ := given
    cases parts with
    | @cons _ run _ runs one more => exact ⟨run, runs.flatten, one, whole, runs, more, rfl⟩
  · intro given
    obtain ⟨run, more, one, whole, meaning⟩ := given
    rw [whole]
    exact concatenation_cons values piece rest run more one meaning

/-- The rendered text, its stars read as wildcards, is the meaning of the run. -/
theorem concatenation_iff_wild (field : GlobField) (values : VariableValues) (pieces : List GlobPiece)
    (texts : List Text) (good : ∀ piece ∈ pieces, GoodPiece field piece)
    (rendered : Rendered values pieces texts) (text : Text) :
    Concatenation values pieces text ↔ Wild '*' texts.flatten text := by
  induction rendered generalizing text with
  | nil =>
    constructor
    · intro given
      obtain ⟨runs, parts, whole⟩ := given
      cases parts
      exact whole
    · intro whole
      rw [(wild_nil '*' text).mp whole]
      exact concatenation_nil values
  | @cons piece run pieces texts one _ ih =>
    have rest := fun more => ih (fun other member => good other (by simp [member])) more
    rw [concatenation_cons_iff, List.flatten_cons]
    rcases renderPiece_cases field values piece run (good piece (by simp)) one with
      ⟨rfl, rfl⟩ | ⟨-, -, plain, meaning⟩
    · simp only [PieceRun, true_and, rest]
      exact (wild_star '*' _ _).symm
    · have fixed : '*' ∉ run := fun member => isRunChar_ne_star field '*' (plain _ member) rfl
      rw [wild_run '*' run _ _ fixed]
      simp only [meaning, rest]
      constructor
      · rintro ⟨_, more, rfl, whole, taken⟩
        exact ⟨more, whole, taken⟩
      · intro given
        obtain ⟨more, whole, taken⟩ := given
        exact ⟨run, more, rfl, whole, taken⟩

/-! ## The shape of a rendered run -/

/-- No two stars side by side. -/
def StarsApart (pieces : List GlobPiece) : Prop :=
  pieces.IsChain fun a b => ¬ (a = .star ∧ b = .star)

theorem StarsApart.push (pieces : List GlobPiece) (piece : GlobPiece) (apart : StarsApart pieces)
    (alone : piece = .star → pieces.getLast? ≠ some .star) : StarsApart (pieces ++ [piece]) := by
  refine List.isChain_append.mpr ⟨apart, by simp, ?_⟩
  intro last isLast first isFirst
  simp only [List.head?_cons, Option.mem_def, Option.some.injEq] at isFirst
  subst isFirst
  intro given
  obtain ⟨one, two⟩ := given
  apply alone two
  rw [← one]
  exact isLast

theorem flush_apart (literal : Text) (pieces out : List GlobPiece) (field : GlobField)
    (h : flush literal pieces field = .ok out) (apart : StarsApart pieces) :
    StarsApart out ∧ (out.getLast? = some .star → literal = [] ∧ out = pieces) := by
  unfold flush at h
  split at h
  · rename_i empty
    cases h
    exact ⟨apart, fun _ => ⟨empty, rfl⟩⟩
  · rw [check_eq_ok] at h
    obtain ⟨-, rfl⟩ := h
    exact ⟨StarsApart.push pieces _ apart (by simp), by simp⟩

/-- Loop invariant: a star that was pushed last is not followed by another. -/
theorem parseGlobLoop_apart (field : GlobField) (skip : Nat) (rest literal : Text)
    (pieces out : List GlobPiece) (h : parseGlobLoop field skip rest literal pieces = .ok out)
    (apart : StarsApart pieces)
    (alone : literal = [] → pieces.getLast? = some .star → (rest.drop skip).head? ≠ some '*') :
    StarsApart out := by
  induction rest generalizing skip literal pieces with
  | nil => exact (flush_apart literal pieces out field (by simpa [parseGlobLoop] using h) apart).1
  | cons c after ih =>
    cases skip with
    | succ skip => exact ih skip literal pieces h apart alone
    | zero =>
      simp only [parseGlobLoop] at h
      split at h
      · rename_i star
        simp only [guard_eq_ok, bind_eq_ok] at h
        obtain ⟨single, flushed, hflush, hloop⟩ := h
        obtain ⟨flushedApart, last⟩ := flush_apart literal pieces flushed field hflush apart
        apply ih 0 [] _ hloop
        · apply StarsApart.push flushed .star flushedApart
          intro _ closed
          obtain ⟨empty, rfl⟩ := last closed
          exact alone empty closed (by simp [star])
        · intro _ _
          exact single
      · split at h
        · split at h
          · cases h
          · rename_i name remainder cut
            rw [guard_eq_ok] at h
            obtain ⟨-, h⟩ := h
            split at h
            · cases h
            · rename_i var hvar
              obtain ⟨flushed, hflush, hloop⟩ := (bind_eq_ok _ _ _).mp h
              obtain ⟨flushedApart, -⟩ := flush_apart literal pieces flushed field hflush apart
              exact ih _ [] _ hloop (StarsApart.push flushed (.var var) flushedApart (by simp)) (by simp)
        · rw [guard_eq_ok] at h
          exact ih 0 _ pieces h.2 apart (by simp)

theorem parseGlob_apart (text : Text) (field : GlobField) (pieces : List GlobPiece)
    (h : parseGlob text field = .ok pieces) : StarsApart pieces := by
  unfold parseGlob at h
  rw [guard_eq_ok, bind_eq_ok] at h
  obtain ⟨-, out, hloop, h⟩ := h
  rw [guard_eq_ok, bind_eq_ok] at h
  obtain ⟨-, _, -, h⟩ := h
  cases h
  exact parseGlobLoop_apart field 0 text [] [] pieces hloop (by simp [StarsApart]) (by simp)

/-- A character that may open or close a written run of the field. -/
def isRunEdge (field : GlobField) (c : Char) : Bool :=
  match field with
  | .pathSegment => isComponentEdge c
  | .tag => isTagEdge c

/-- What the rendered text of a run looks like. A tag may close with any of its characters. -/
structure WrittenRun (field : GlobField) (text : Text) : Prop where
  nonempty : text ≠ []
  chars : ∀ c ∈ text, isRunChar field c = true ∨ c = '*'
  isolated : Isolated '*' text
  opens : text.head?.any (fun c => isRunEdge field c || c == '*') = true
  closes : field = .pathSegment → text.getLast?.any (fun c => isRunEdge field c || c == '*') = true

theorem PathComponent.opens (field : GlobField) (value : PathComponent) :
    value.text.head?.any (isRunEdge field) = true := by
  obtain ⟨⟨c, first, lower⟩, -⟩ := (edged_iff _ _ _).mp value.legal
  have edge : isRunEdge field c = true := by
    cases field with
    | pathSegment => exact lower
    | tag =>
      simp only [isComponentEdge, Bool.or_eq_true] at lower
      rcases lower with lower | digit
      · simp [isRunEdge, isTagEdge, Char.isAlphanum, isAlpha_iff, lower]
      · simp [isRunEdge, isTagEdge, Char.isAlphanum, digit]
  simp [first, edge]

theorem validateBoundaries_opens (field : GlobField) (pieces : List GlobPiece)
    (h : validateBoundaries pieces field = .ok ()) :
    ∀ text, pieces.head? = some (.literal text) → text.head?.any (isRunEdge field) = true := by
  cases field with
  | pathSegment => exact (validateBoundaries_segment pieces h).1
  | tag => exact validateBoundaries_tag pieces h

theorem any_or_left (first : Option Char) (edge other : Char → Bool) (h : first.any edge = true) :
    first.any (fun c => edge c || other c) = true := by
  cases first with
  | none => cases h
  | some c => simpa using Or.inl h

section Written
variable (field : GlobField) (values : VariableValues) (pieces : List GlobPiece) (texts : List Text)
  (good : ∀ piece ∈ pieces, GoodPiece field piece) (rendered : Rendered values pieces texts)
include good rendered

theorem written_chars : ∀ c ∈ texts.flatten, isRunChar field c = true ∨ c = '*' := by
  induction rendered with
  | nil => simp
  | @cons piece text pieces texts one _ ih =>
    intro c member
    rw [List.flatten_cons, List.mem_append] at member
    rcases member with here | there
    · rcases renderPiece_cases field values piece text (good piece (by simp)) one with
        ⟨-, rfl⟩ | ⟨-, -, plain, -⟩
      · exact Or.inr (List.mem_singleton.mp here)
      · exact Or.inl (plain c here)
    · exact ih (fun other inside => good other (by simp [inside])) c there

/-- The text opens as its first piece does. -/
theorem written_head (piece : GlobPiece) (first : pieces.head? = some piece) :
    ∃ text, renderPiece values piece = some text ∧ texts.flatten.head? = text.head? := by
  cases rendered with
  | nil => cases first
  | @cons head text pieces texts one more =>
    cases first
    refine ⟨text, one, ?_⟩
    have nonempty : text ≠ [] := by
      rcases renderPiece_cases field values piece text (good piece (by simp)) one with
        ⟨-, rfl⟩ | ⟨-, nonempty, -⟩
      · simp
      · exact nonempty
    rw [List.flatten_cons, List.head?_append_of_ne_nil _ nonempty]

theorem written_last (piece : GlobPiece) (last : pieces.getLast? = some piece) :
    ∃ text, renderPiece values piece = some text ∧ texts.flatten.getLast? = text.getLast? := by
  induction rendered with
  | nil => cases last
  | @cons head text pieces texts one more ih =>
    have rest := fun other inside => good other (List.mem_cons_of_mem head inside)
    cases pieces with
    | nil =>
      cases more
      obtain rfl : head = piece := by simpa using last
      exact ⟨text, one, by simp⟩
    | cons next pieces =>
      obtain ⟨closing, hclosing, same⟩ := ih rest (by simpa using last)
      refine ⟨closing, hclosing, ?_⟩
      have some_ : texts.flatten ≠ [] := by
        obtain ⟨_, rendering, opening⟩ := written_head field values (next :: pieces) texts rest more next rfl
        rcases renderPiece_cases field values next _ (rest next (by simp)) rendering with
          ⟨-, rfl⟩ | ⟨-, nonempty, -⟩
        · intro empty
          simp [empty] at opening
        · intro empty
          rw [empty] at opening
          exact nonempty (List.head?_eq_none_iff.mp opening.symm)
      rw [List.flatten_cons, List.getLast?_append_of_ne_nil _ some_, same]

theorem written_isolated (apart : StarsApart pieces) : Isolated '*' texts.flatten := by
  induction rendered with
  | nil => simp [Isolated]
  | @cons piece text pieces texts one more ih =>
    have rest := fun other inside => good other (List.mem_cons_of_mem piece inside)
    obtain ⟨next, behind⟩ := List.isChain_cons.mp apart
    have inside := ih rest behind
    rcases renderPiece_cases field values piece text (good piece (by simp)) one with
      ⟨rfl, rfl⟩ | ⟨-, -, plain, -⟩
    · refine List.isChain_cons.mpr ⟨?_, inside⟩
      intro first isFirst pair
      -- what follows a star opens with the piece after it, which is none
      cases following : pieces.head? with
      | none =>
        rw [List.head?_eq_none_iff.mp following] at more
        cases more
        cases isFirst
      | some piece =>
        obtain ⟨text, rendering, opening⟩ := written_head field values pieces texts rest more piece following
        have isStar : text.head? = some '*' := by
          rw [← opening, ← pair.2]
          exact isFirst
        rcases renderPiece_cases field values piece text (rest piece (List.mem_of_head? following))
          rendering with ⟨rfl, -⟩ | ⟨-, -, plain, -⟩
        · exact next .star following ⟨rfl, rfl⟩
        · exact isRunChar_ne_star field '*' (plain _ (List.mem_of_head? isStar)) rfl
    · have fixed : '*' ∉ text := fun member => isRunChar_ne_star field '*' (plain _ member) rfl
      refine List.isChain_append.mpr ⟨isolated_of_absent '*' text fixed, inside, ?_⟩
      intro last isLast _ _ pair
      rw [pair.1] at isLast
      exact fixed (List.mem_of_getLast? isLast)

end Written

theorem writtenRun (field : GlobField) (values : VariableValues) (source text : Text)
    (pieces : List GlobPiece) (parsed : parseGlob source field = .ok pieces)
    (rendered : renderPieces pieces values [] = some text) : WrittenRun field text := by
  obtain ⟨nonempty, good, -, boundaries⟩ := parseGlob_spec source field pieces parsed
  obtain ⟨texts, parts, rfl⟩ := (renderRun_eq_some _ _ _).mp rendered
  have opening := validateBoundaries_opens field pieces boundaries
  have head : texts.flatten.head?.any (fun c => isRunEdge field c || c == '*') = true := by
    obtain ⟨piece, rest, rfl⟩ := List.exists_cons_of_ne_nil nonempty
    obtain ⟨text, one, same⟩ := written_head field values _ texts good parts piece rfl
    rw [same]
    cases piece with
    | literal literal =>
      cases one
      exact any_or_left _ _ _ (opening _ rfl)
    | star =>
      cases one
      simp
    | var name =>
      obtain ⟨value, -, rfl⟩ := Option.map_eq_some_iff.mp one
      exact any_or_left _ _ _ (value.opens field)
  refine ⟨?_, written_chars field values pieces texts good parts,
    written_isolated field values pieces texts good parts (parseGlob_apart _ _ _ parsed), head, ?_⟩
  · intro empty
    rw [empty] at head
    cases head
  · rintro rfl
    obtain ⟨front, piece, whole⟩ := (List.eq_nil_or_concat pieces).resolve_left nonempty
    rw [List.concat_eq_append] at whole
    have last : pieces.getLast? = some piece := by simp [whole]
    obtain ⟨text, one, same⟩ := written_last .pathSegment values pieces texts good parts piece last
    rw [same]
    cases piece with
    | literal literal =>
      cases one
      exact any_or_left _ _ _ ((validateBoundaries_segment pieces boundaries).2 _ last)
    | star =>
      cases one
      simp
    | var name =>
      obtain ⟨value, -, rfl⟩ := Option.map_eq_some_iff.mp one
      obtain ⟨-, ⟨c, closing, edge⟩, -⟩ := (edged_iff _ _ _).mp value.legal
      exact any_or_left _ _ _ (by simp [closing, isRunEdge, edge])

/-! ## Reading a rendered run back -/

theorem flush_run (field : GlobField) (literal : Text) (pieces : List GlobPiece)
    (run : ∀ c ∈ literal, isRunChar field c = true) :
    flush literal pieces field = .ok (if literal = [] then pieces else pieces ++ [.literal literal]) := by
  unfold flush
  split
  · rfl
  · rw [if_pos (List.all_eq_true.mpr run)]

theorem isRunChar_ne_brace (field : GlobField) (c : Char) (run : isRunChar field c = true) :
    c ≠ '\x7b' ∧ c ≠ '\x7d' := by
  constructor
  all_goals
    rintro rfl
    cases field with
    | pathSegment => exact absurd run (by decide)
    | tag => exact absurd run (by decide)

/-- One character of a literal run. -/
theorem parseGlobLoop_char (field : GlobField) (c : Char) (after literal : Text) (pieces : List GlobPiece)
    (run : isRunChar field c = true) :
    parseGlobLoop field 0 (c :: after) literal pieces =
      parseGlobLoop field 0 after (literal ++ [c]) pieces := by
  obtain ⟨opening, closing⟩ := isRunChar_ne_brace field c run
  rw [parseGlobLoop, if_neg (isRunChar_ne_star field c run), if_neg opening, if_neg closing]

theorem parseGlobLoop_run (field : GlobField) (text literal : Text) (pieces : List GlobPiece)
    (run : ∀ c ∈ text, isRunChar field c = true) :
    parseGlobLoop field 0 text literal pieces = flush (literal ++ text) pieces field := by
  induction text generalizing literal with
  | nil => simp [parseGlobLoop]
  | cons c after ih =>
    rw [parseGlobLoop_char field c after literal pieces (run c (by simp)),
      ih (literal ++ [c]) (fun d member => run d (by simp [member]))]
    simp

/-- The loop reads every written run. -/
theorem parseGlobLoop_reads (field : GlobField) (text literal : Text) (pieces : List GlobPiece)
    (chars : ∀ c ∈ text, isRunChar field c = true ∨ c = '*') (isolated : Isolated '*' text)
    (run : ∀ c ∈ literal, isRunChar field c = true) :
    ∃ out, parseGlobLoop field 0 text literal pieces = .ok out := by
  induction text generalizing literal pieces with
  | nil => exact ⟨_, by rw [parseGlobLoop, flush_run field literal pieces run]⟩
  | cons c after ih =>
    obtain ⟨alone, behind⟩ := List.isChain_cons.mp isolated
    have rest := fun d member => chars d (List.mem_cons_of_mem c member)
    by_cases star : c = '*'
    · have single : ¬ after.head? = some '*' := fun next => alone '*' next ⟨star, rfl⟩
      rw [parseGlobLoop, if_pos star, if_neg single, flush_run field literal pieces run]
      exact ih [] _ rest behind (by simp)
    · have here : isRunChar field c = true := (chars c (by simp)).resolve_right star
      rw [parseGlobLoop_char field c after literal pieces here]
      apply ih (literal ++ [c]) pieces rest behind
      intro d member
      simp only [List.mem_append, List.mem_singleton] at member
      rcases member with inside | rfl
      · exact run d inside
      · exact here

/-- No variable is read from a written run. -/
theorem parseGlob_closed (field : GlobField) (text : Text) (pieces : List GlobPiece)
    (written : WrittenRun field text) (parsed : parseGlob text field = .ok pieces) :
    ∀ name, .var name ∉ pieces := by
  obtain ⟨-, -, spelled, -⟩ := parseGlob_spec text field pieces parsed
  intro name member
  have brace : '\x7b' ∈ text := by
    rw [← spelled]
    exact List.mem_flatMap.mpr ⟨_, member, by simp [pieceText]⟩
  rcases written.chars _ brace with run | star
  · exact (isRunChar_ne_brace field _ run).1 rfl
  · exact absurd star (by decide)

/-- A run that is not one literal passes with legal edges. -/
theorem validateBoundaries_of_edges (field : GlobField) (pieces : List GlobPiece)
    (several : ∀ only, pieces ≠ [.literal only])
    (first : ∀ text, pieces.head? = some (.literal text) → text.head?.any (isRunEdge field) = true)
    (last : ∀ text, field = .pathSegment → pieces.getLast? = some (.literal text) →
      text.getLast?.any isComponentEdge = true) :
    validateBoundaries pieces field = .ok () := by
  have opening : ∀ text, pieces.head? = some (.literal text) → edgeIsLegal field true text = true := by
    intro text isFirst
    have legal := first text isFirst
    cases field with
    | pathSegment => exact legal
    | tag => exact legal
  have closing : ∀ text, pieces.getLast? = some (.literal text) → edgeIsLegal field false text = true := by
    intro text isLast
    cases field with
    | pathSegment => exact last text rfl isLast
    | tag => rfl
  unfold validateBoundaries
  split
  · exact absurd rfl (several _)
  · exact absurd rfl (several _)
  · rw [guard_eq_ok, Bool.or_eq_true, not_or]
    refine ⟨⟨?_, ?_⟩, rfl⟩
    · cases outer : pieces.head? with
      | none => simp
      | some piece =>
        cases piece with
        | literal text => simp [opening text outer]
        | star => simp
        | var name => simp
    · cases outer : pieces.getLast? with
      | none => simp
      | some piece =>
        cases piece with
        | literal text => simp [closing text outer]
        | star => simp
        | var name => simp

/-- Without a star the run is one literal. -/
theorem parseGlob_run (field : GlobField) (text : Text) (nonempty : text ≠ [])
    (run : ∀ c ∈ text, isRunChar field c = true) (pieces : List GlobPiece) :
    parseGlob text field = .ok pieces ↔
      pieces = [.literal text] ∧ validateBoundaries [.literal text] field = .ok () := by
  unfold parseGlob
  rw [if_neg nonempty, parseGlobLoop_run field text [] [] run, List.nil_append, flush_run field text [] run,
    if_neg nonempty]
  simp only [bind_eq_ok, Except.ok.injEq, List.nil_append, exists_eq_left', guard_eq_ok, List.cons_ne_self,
    not_false_eq_true, true_and, exists_and_right]
  constructor
  · intro given
    obtain ⟨⟨_, boundaries⟩, same⟩ := given
    exact ⟨same.symm, boundaries⟩
  · intro given
    obtain ⟨same, boundaries⟩ := given
    exact ⟨⟨(), boundaries⟩, same.symm⟩

/-- The outer characters of a written text, where they are no stars. -/
theorem any_edge_of_ne_star (outer : Option Char) (edge : Char → Bool)
    (legal : outer.any (fun c => edge c || c == '*') = true) (noStar : outer ≠ some '*') :
    outer.any edge = true := by
  cases outer with
  | none => cases legal
  | some c =>
    have other : (c == '*') = false := beq_false_of_ne (fun star => noStar (by rw [star]))
    simpa [other] using legal

/-- A run with stars in it reads back with legal edges. -/
theorem written_boundaries (field : GlobField) (text : Text) (written : WrittenRun field text)
    (star : '*' ∈ text) (pieces : List GlobPiece) (good : ∀ piece ∈ pieces, GoodPiece field piece)
    (spelled : pieces.flatMap pieceText = text) : validateBoundaries pieces field = .ok () := by
  have noStar : ∀ literal, .literal literal ∈ pieces → '*' ∉ literal := fun literal member inside =>
    isRunChar_ne_star field '*' ((good _ member).2 _ inside) rfl
  apply validateBoundaries_of_edges
  · rintro only rfl
    simp only [List.flatMap_singleton, pieceText] at spelled
    rw [← spelled] at star
    exact noStar only (by simp) star
  · intro literal first
    obtain ⟨rest, rfl⟩ : ∃ rest, pieces = .literal literal :: rest := by
      cases pieces with
      | nil => cases first
      | cons piece rest =>
        cases first
        exact ⟨rest, rfl⟩
    have same : text.head? = literal.head? := by
      rw [← spelled, List.flatMap_cons]
      exact List.head?_append_of_ne_nil _ (good (.literal literal) (by simp)).1
    have opens := written.opens
    rw [same] at opens
    exact any_edge_of_ne_star _ _ opens fun isStar =>
      noStar literal (by simp) (List.mem_of_head? isStar)
  · rintro literal rfl last
    have member := List.mem_of_getLast? last
    obtain ⟨front, whole⟩ := List.getLast?_eq_some_iff.mp last
    have same : text.getLast? = literal.getLast? := by
      rw [← spelled, whole, List.flatMap_append, List.flatMap_singleton]
      exact List.getLast?_append_of_ne_nil _ (good _ member).1
    have closes := written.closes rfl
    rw [same] at closes
    exact any_edge_of_ne_star _ _ closes fun isStar =>
      noStar literal member (List.mem_of_getLast? isStar)

theorem isTag_iff_short (text : Text) (written : WrittenRun .tag text) (noStar : '*' ∉ text) :
    isTag text = true ↔ byteLen text ≤ 128 := by
  obtain ⟨c, rest, rfl⟩ := List.exists_cons_of_ne_nil written.nonempty
  have opens := written.opens
  simp only [List.mem_cons, not_or] at noStar
  have plainHead : (c == '*') = false := beq_false_of_ne (Ne.symm noStar.1)
  simp only [List.head?_cons, Option.any_some, plainHead, Bool.or_false] at opens
  have edge : isTagEdge c = true := opens
  have plain : ∀ d ∈ rest, isTagChar d = true := by
    intro d member
    rcases written.chars d (by simp [member]) with run | star
    · exact run
    · rw [star] at member
      exact absurd member noStar.2
  simp only [isTag, edge, Bool.true_and, Bool.and_eq_true, decide_eq_true_eq, List.all_eq_true]
  exact ⟨fun h => h.1, fun h => ⟨h, plain⟩⟩

/-- A written segment reads back. A written tag does exactly if it keeps a star or is no
longer than a tag may be. -/
theorem parseGlob_written (field : GlobField) (text : Text) (written : WrittenRun field text) :
    (∃ pieces, parseGlob text field = .ok pieces) ↔
      (field = .tag → '*' ∈ text ∨ byteLen text ≤ 128) := by
  by_cases star : '*' ∈ text
  · simp only [star, true_or, implies_true, iff_true]
    obtain ⟨pieces, loop⟩ := parseGlobLoop_reads field text [] [] written.chars written.isolated
      (by simp)
    obtain ⟨good, spelled⟩ := parseGlobLoop_spec field 0 text [] [] pieces loop (by simp)
    simp only [List.flatMap_nil, List.nil_append, List.drop_zero] at spelled
    have nonempty : pieces ≠ [] := by
      rintro rfl
      exact written.nonempty spelled.symm
    have boundaries := written_boundaries field text written star pieces good spelled
    refine ⟨pieces, ?_⟩
    unfold parseGlob
    rw [if_neg written.nonempty, loop]
    simp only [bind, Except.bind, if_neg nonempty, boundaries]
  · have run : ∀ c ∈ text, isRunChar field c = true := by
      intro c member
      rcases written.chars c member with run | rfl
      · exact run
      · exact absurd member star
    have whole : (∃ pieces, parseGlob text field = .ok pieces) ↔
        validateBoundaries [.literal text] field = .ok () := by
      simp only [parseGlob_run field text written.nonempty run, exists_eq_left]
    rw [whole]
    cases field with
    | pathSegment =>
      have opens := any_edge_of_ne_star _ _ written.opens fun isStar => star (List.mem_of_head? isStar)
      have closes := any_edge_of_ne_star _ _ (written.closes rfl) fun isStar =>
        star (List.mem_of_getLast? isStar)
      have legal : edged isComponentEdge isComponentChar text = true := by
        simp only [edged, Bool.and_eq_true, List.all_eq_true]
        exact ⟨⟨opens, closes⟩, run⟩
      simp [validateBoundaries, validatePathComponent, legal]
    | tag => simp [validateBoundaries, isTag_iff_short text written star, star]

/-- What was read back from a written run means what its stars mean, whatever the values. -/
theorem parseGlob_wild (field : GlobField) (text : Text) (pieces : List GlobPiece)
    (written : WrittenRun field text) (parsed : parseGlob text field = .ok pieces)
    (values : VariableValues) (instance_ : Text) :
    Concatenation values pieces instance_ ↔ Wild '*' text instance_ := by
  have closed := parseGlob_closed field text pieces written parsed
  obtain ⟨-, good, spelled, -⟩ := parseGlob_spec text field pieces parsed
  have rendered : Rendered values pieces (pieces.map pieceText) := by
    refine List.forall₂_map_right_iff.mpr (List.forall₂_same.mpr ?_)
    intro piece member
    cases piece with
    | literal literal => rfl
    | star => rfl
    | var name => exact absurd member (closed name)
  rw [concatenation_iff_wild field values pieces _ good rendered]
  rw [← spelled, List.flatMap_def]

theorem rendered_wild (field : GlobField) (source text : Text) (pieces : List GlobPiece)
    (values : VariableValues) (parsed : parseGlob source field = .ok pieces)
    (rendered : renderPieces pieces values [] = some text) (instance_ : Text) :
    Concatenation values pieces instance_ ↔ Wild '*' text instance_ := by
  obtain ⟨-, good, -⟩ := parseGlob_spec source field pieces parsed
  obtain ⟨texts, parts, rfl⟩ := (renderRun_eq_some _ _ _).mp rendered
  exact concatenation_iff_wild field values pieces texts good parts instance_

end WeeboSi.ImagePolicy
