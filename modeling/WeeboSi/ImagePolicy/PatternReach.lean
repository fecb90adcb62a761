import WeeboSi.ImagePolicy.PatternMeaning

/-!
# The shortest text a pattern accepts

Every accepted path segment can be filled with a legal component, and a tag constraint
with a legal tag unless its shortest filling is longer than a tag may be (128 bytes,
pattern.rs and reference.rs). Variables are filled with `a`, stars with `a` or nothing.
-/
namespace WeeboSi.ImagePolicy
open WeeboSi.Lib

def fillPiece (star : Text) : GlobPiece → Text
  | .literal text => text
  | .star => star
  | .var _ => ['a']

def fill (star : Text) (pieces : List GlobPiece) : Text := pieces.flatMap (fillPiece star)

def letterA : PathComponent := ⟨['a'], by decide⟩

/-- All these variables are bound to `a`. -/
def BindsA (values : VariableValues) (pieces : List GlobPiece) : Prop :=
  ∀ name, .var name ∈ pieces → values.get name = some letterA

@[simp] theorem fill_nil (star : Text) : fill star [] = [] := rfl

@[simp] theorem fill_cons (star : Text) (piece : GlobPiece) (rest : List GlobPiece) :
    fill star (piece :: rest) = fillPiece star piece ++ fill star rest := by
  simp [fill]

theorem concatenation_nil (values : VariableValues) : Concatenation values [] [] :=
  ⟨[], .nil, rfl⟩

theorem concatenation_cons (values : VariableValues) (piece : GlobPiece) (rest : List GlobPiece)
    (run text : Text) (one : PieceRun values piece run) (more : Concatenation values rest text) :
    Concatenation values (piece :: rest) (run ++ text) := by
  obtain ⟨runs, taken, rfl⟩ := more
  exact ⟨run :: runs, .cons one taken, rfl⟩

theorem concatenation_fill (values : VariableValues) (star : Text) (pieces : List GlobPiece)
    (bound : BindsA values pieces) : Concatenation values pieces (fill star pieces) := by
  induction pieces with
  | nil => exact concatenation_nil values
  | cons piece rest ih =>
    have more := ih (fun name member => bound name (by simp [member]))
    rw [fill_cons]
    apply concatenation_cons values piece rest _ _ _ more
    cases piece with
    | literal text => rfl
    | star => trivial
    | var name => exact ⟨letterA, bound name (by simp), rfl⟩

/-! ## Characters of a filling -/

theorem isRunChar_ascii (field : GlobField) (c : Char) (h : isRunChar field c = true) :
    c.utf8Size = 1 := by
  have alnum : c.isAlphanum = true ∨ c = '.' ∨ c = '_' ∨ c = '-' := by
    cases field with
    | pathSegment =>
      simp only [isRunChar, isComponentChar, Bool.or_eq_true, List.contains_eq_mem, List.mem_cons,
        List.not_mem_nil, or_false, decide_eq_true_eq] at h
      rcases h with (lower | digit) | separator
      · exact Or.inl (by simp [Char.isAlphanum, isAlpha_iff, lower])
      · exact Or.inl (by simp [Char.isAlphanum, digit])
      · exact Or.inr separator
    | tag =>
      simp only [isRunChar, isTagChar, Bool.or_eq_true, List.contains_eq_mem, List.mem_cons,
        List.not_mem_nil, or_false, decide_eq_true_eq] at h
      rcases h with alnum | rfl | rfl | rfl
      · exact Or.inl alnum
      · simp
      · simp
      · simp
  rcases alnum with alnum | rfl | rfl | rfl
  · exact isAlphanum_ascii c alnum
  · rfl
  · rfl
  · rfl

theorem fill_chars (field : GlobField) (star : Text) (pieces : List GlobPiece)
    (good : ∀ piece ∈ pieces, GoodPiece field piece) (hstar : ∀ c ∈ star, c = 'a') :
    ∀ c ∈ fill star pieces, isRunChar field c = true := by
  have letter : isRunChar field 'a' = true := by cases field <;> decide
  intro c member
  obtain ⟨piece, hpiece, hc⟩ := List.mem_flatMap.mp member
  cases piece with
  | literal text => exact (good _ hpiece).2 c hc
  | star =>
    rw [hstar c hc]
    exact letter
  | var name =>
    rw [List.mem_singleton.mp hc]
    exact letter

/-- A filling is no longer than the text the pieces were read from. -/
theorem fill_length (star : Text) (pieces : List GlobPiece) (short : star.length ≤ 1) :
    (fill star pieces).length ≤ (pieces.flatMap pieceText).length := by
  induction pieces with
  | nil => simp
  | cons piece rest ih =>
    simp only [fill_cons, List.flatMap_cons, List.length_append]
    have one : (fillPiece star piece).length ≤ (pieceText piece).length := by
      cases piece with
      | literal text => exact Nat.le_refl _
      | star => simpa [fillPiece, pieceText] using short
      | var name => simp [fillPiece, pieceText]
    omega

/-! ## Components -/

theorem validateBoundaries_segment (pieces : List GlobPiece)
    (h : validateBoundaries pieces .pathSegment = .ok ()) :
    (∀ text, pieces.head? = some (.literal text) → text.head?.any isComponentEdge = true) ∧
      ∀ text, pieces.getLast? = some (.literal text) → text.getLast?.any isComponentEdge = true := by
  unfold validateBoundaries at h
  split at h
  · rename_i only _
    have legal : edged isComponentEdge isComponentChar only = true := by
      simpa [validatePathComponent] using h
    simp only [edged, Bool.and_eq_true] at legal
    refine ⟨?_, ?_⟩
    · rintro text ⟨⟩
      exact legal.1.1
    · rintro text ⟨⟩
      exact legal.1.2
  · cases ‹GlobField.pathSegment = _›
  · simp only [guard_eq_ok, Bool.or_eq_true, not_or] at h
    refine ⟨?_, ?_⟩
    · intro text first
      have := h.1.1
      simpa [first, edgeIsLegal] using this
    · intro text last
      have := h.1.2
      simpa [last, edgeIsLegal] using this

theorem fill_head (pieces : List GlobPiece) (nonempty : pieces ≠ [])
    (solid : Solid pieces) (edge : Char → Bool) (letter : edge 'a' = true)
    (first : ∀ text, pieces.head? = some (.literal text) → text.head?.any edge = true) :
    (fill ['a'] pieces).head?.any edge = true := by
  obtain ⟨piece, rest, rfl⟩ := List.exists_cons_of_ne_nil nonempty
  cases piece with
  | literal text =>
    obtain ⟨c, more, rfl⟩ := List.exists_cons_of_ne_nil (solid text (by simp))
    simpa [fillPiece] using first _ rfl
  | star => simpa [fillPiece] using letter
  | var name => simpa [fillPiece] using letter

theorem fill_last (pieces : List GlobPiece) (nonempty : pieces ≠ [])
    (solid : Solid pieces) (edge : Char → Bool) (letter : edge 'a' = true)
    (last : ∀ text, pieces.getLast? = some (.literal text) → text.getLast?.any edge = true) :
    (fill ['a'] pieces).getLast?.any edge = true := by
  obtain ⟨front, piece, rfl⟩ := List.eq_nil_or_concat pieces |>.resolve_left nonempty
  rw [List.concat_eq_append] at solid last ⊢
  have split : fill ['a'] (front ++ [piece]) = fill ['a'] front ++ fillPiece ['a'] piece := by
    simp [fill]
  rw [split]
  cases piece with
  | literal text =>
    have hne := solid text (by simp)
    rw [List.getLast?_append_of_ne_nil _ (by simpa [fillPiece] using hne)]
    exact last text (by simp)
  | star => simpa [fillPiece] using letter
  | var name => simpa [fillPiece] using letter

/-- What a path segment is filled with. -/
def fillSegment : PathSegment → Text
  | .doubleStar => ['a']
  | .glob pieces => fill ['a'] pieces

theorem fillSegment_legal (text : Text) (segment : PathSegment)
    (h : parseSegment text = .ok segment) :
    edged isComponentEdge isComponentChar (fillSegment segment) = true ∧
      (fillSegment segment).length ≤ text.length := by
  rcases (parseSegment_eq_ok _ _).mp h with ⟨rfl, rfl⟩ | ⟨-, pieces, hpieces, rfl⟩
  · exact ⟨by decide, by decide⟩
  · obtain ⟨nonempty, good, rfl, boundaries⟩ := parseGlob_spec _ _ _ hpieces
    have solid := parseGlob_solid _ _ _ hpieces
    obtain ⟨first, last⟩ := validateBoundaries_segment pieces boundaries
    refine ⟨?_, fill_length ['a'] pieces (by decide)⟩
    simp only [fillSegment, edged, Bool.and_eq_true, List.all_eq_true]
    refine ⟨⟨?_, ?_⟩, ?_⟩
    · exact fill_head pieces nonempty solid _ (by decide) first
    · exact fill_last pieces nonempty solid _ (by decide) last
    · exact fill_chars .pathSegment ['a'] pieces good (by simp)

/-! ## Paths -/

/-- Parts replaced by parts no longer than they were make no longer text. -/
theorem intercalate_length_le (sep : Text) (texts others : List Text)
    (shorter : List.Forall₂ (fun text other => other.length ≤ text.length) texts others) :
    (sep.intercalate others).length ≤ (sep.intercalate texts).length := by
  induction shorter with
  | nil => simp
  | cons short more ih =>
    cases more with
    | nil => simpa using short
    | cons two rest =>
      simp only [List.intercalate_cons_cons, List.length_append] at ih ⊢
      omega

/-- The path whose components fill the segments one by one. -/
def fillPath (segments : List PathSegment) : Text := ['/'].intercalate (segments.map fillSegment)

section FillPath
variable (texts : List Text) (segments : List PathSegment)
  (parsed : List.Forall₂ (fun text segment => parseSegment text = .ok segment) texts segments)
include parsed

theorem fillSegments_legal : ∀ segment ∈ segments,
    edged isComponentEdge isComponentChar (fillSegment segment) = true := by
  induction parsed with
  | nil => simp
  | cons one _ ih =>
    simp only [List.mem_cons, forall_eq_or_imp]
    exact ⟨(fillSegment_legal _ _ one).1, ih⟩

theorem fillPath_splitOn (nonempty : segments ≠ []) :
    (fillPath segments).splitOn '/' = segments.map fillSegment := by
  apply List.splitOn_intercalate
  · intro component member slash
    obtain ⟨segment, hsegment, rfl⟩ := List.mem_map.mp member
    have legal := fillSegments_legal texts segments parsed segment hsegment
    exact absurd (((edged_iff _ _ _).mp legal).2.2 _ slash) (by decide)
  · simpa using nonempty

theorem fillPath_shape (nonempty : segments ≠ []) : PathShape (fillPath segments) := by
  unfold PathShape
  rw [fillPath_splitOn texts segments parsed nonempty]
  intro component member
  obtain ⟨segment, hsegment, rfl⟩ := List.mem_map.mp member
  exact fillSegments_legal texts segments parsed segment hsegment

theorem fillPath_length : (fillPath segments).length ≤ (['/'].intercalate texts).length := by
  apply intercalate_length_le
  rw [List.forall₂_map_right_iff]
  exact parsed.imp fun text segment one => (fillSegment_legal text segment one).2

theorem fillPath_bytes (nonempty : segments ≠ []) :
    byteLen (fillPath segments) ≤ (['/'].intercalate texts).length := by
  have shape := fillPath_shape texts segments parsed nonempty
  rw [byteLen_of_ascii]
  · exact fillPath_length texts segments parsed
  · intro c member
    rcases PathShape.chars _ shape c member with component | rfl
    · exact isRunChar_ascii .pathSegment c component
    · rfl

end FillPath

theorem fillPath_slash (first second : PathSegment) (rest : List PathSegment) :
    '/' ∈ fillPath (first :: second :: rest) := by
  simp [fillPath, List.intercalate_cons_cons]

theorem pathMeaning_fill (values : VariableValues) (segments : List PathSegment)
    (bound : ∀ pieces, .glob pieces ∈ segments → BindsA values pieces) :
    PathMeaning values segments (segments.map fillSegment) := by
  induction segments with
  | nil => exact ⟨[], .nil, rfl⟩
  | cons segment rest ih =>
    obtain ⟨blocks, taken, components⟩ := ih (fun pieces member => bound pieces (by simp [member]))
    refine ⟨[fillSegment segment] :: blocks, .cons ?_ taken, by simp [components]⟩
    cases segment with
    | doubleStar => exact Nat.le_refl _
    | glob pieces => exact ⟨_, rfl, concatenation_fill values ['a'] pieces (bound pieces (by simp))⟩

/-! ## Tags -/

/-- Characters the rest of a tag text cannot do without: one for each variable, none for
a star. The flag says that the scan stands inside a variable's braces. -/
def tagWidth : Bool → Text → Nat
  | _, [] => 0
  | true, c :: rest => if c = '\x7d' then 1 + tagWidth false rest else tagWidth true rest
  | false, c :: rest =>
    if c = '\x7b' then tagWidth true rest
    else if c = '*' then tagWidth false rest
    else 1 + tagWidth false rest

/-- A tag opens with a letter, a digit or `_`, so a star in front of `.` or `-`, or a
star alone, stands for at least one character. -/
def tagLead (text : Text) : Nat :=
  match text.dropWhile (· = '*') with
  | [] => 1
  | c :: _ => if c = '.' ∨ c = '-' then 1 else 0

/-- The length of the shortest tag a tag constraint can be filled to. -/
def shortestTag (text : Text) : Nat := tagWidth false text + tagLead text

def needsLead : List GlobPiece → Bool
  | [] => true
  | .star :: rest => needsLead rest
  | .literal text :: _ => text.head?.any fun c => c = '.' ∨ c = '-'
  | .var _ :: _ => false

/-- The shortest filling: nothing for a star, but for one that has to open the tag. -/
def fillTag (pieces : List GlobPiece) : Text :=
  (if needsLead pieces then ['a'] else []) ++ fill [] pieces

theorem tagWidth_run (run rest : Text) (plain : ∀ c ∈ run, isTagChar c = true) :
    tagWidth false (run ++ rest) = run.length + tagWidth false rest := by
  induction run with
  | nil => simp
  | cons c run ih =>
    have hc := plain c (by simp)
    have open_ : c ≠ '\x7b' := by
      rintro rfl
      exact absurd hc (by decide)
    have star : c ≠ '*' := by
      rintro rfl
      exact absurd hc (by decide)
    rw [List.cons_append, tagWidth, if_neg open_, if_neg star,
      ih (fun d member => plain d (by simp [member])), List.length_cons]
    omega

theorem tagWidth_name (name rest : Text) (legal : ∀ c ∈ name, c ≠ '\x7d') :
    tagWidth true (name ++ '\x7d' :: rest) = 1 + tagWidth false rest := by
  induction name with
  | nil => simp [tagWidth]
  | cons c name ih =>
    rw [List.cons_append, tagWidth, if_neg (legal c (by simp)),
      ih (fun d member => legal d (by simp [member]))]

theorem VariableName.chars (name : VariableName) : ∀ c ∈ name.text, c ≠ '\x7d' := by
  intro c member
  have legal := name.legal
  cases text : name.text with
  | nil =>
    rw [text] at member
    cases member
  | cons first rest =>
    simp only [text, isLegalVariableName, Bool.and_eq_true, List.all_eq_true] at legal
    rw [text, List.mem_cons] at member
    rintro rfl
    rcases member with rfl | member
    · exact absurd legal.1 (by decide)
    · exact absurd (legal.2 _ member) (by decide)

theorem tagWidth_pieces (pieces : List GlobPiece) (good : ∀ piece ∈ pieces, GoodPiece .tag piece) :
    tagWidth false (pieces.flatMap pieceText) = (fill [] pieces).length := by
  induction pieces with
  | nil => rfl
  | cons piece rest ih =>
    have more := ih (fun other member => good other (by simp [member]))
    simp only [List.flatMap_cons, fill_cons, List.length_append]
    cases piece with
    | literal text =>
      rw [pieceText, tagWidth_run text _ (good (.literal text) (by simp)).2, more]
      rfl
    | star => simpa [pieceText, tagWidth, fillPiece] using more
    | var name =>
      have named := tagWidth_name name.text (rest.flatMap pieceText) name.chars
      simp only [pieceText, List.cons_append, List.append_assoc, List.nil_append, tagWidth,
        if_true, named, more]
      rfl

theorem tagLead_pieces (pieces : List GlobPiece) (good : ∀ piece ∈ pieces, GoodPiece .tag piece) :
    tagLead (pieces.flatMap pieceText) = if needsLead pieces then 1 else 0 := by
  induction pieces with
  | nil => rfl
  | cons piece rest ih =>
    have more := ih (fun other member => good other (by simp [member]))
    cases piece with
    | star =>
      have same : tagLead ((GlobPiece.star :: rest).flatMap pieceText) =
          tagLead (rest.flatMap pieceText) := by simp [tagLead, pieceText]
      rw [same, more]
      rfl
    | var name => simp [tagLead, pieceText, needsLead]
    | literal text =>
      obtain ⟨nonempty, plain⟩ := good (.literal text) (by simp)
      obtain ⟨c, text, rfl⟩ := List.exists_cons_of_ne_nil nonempty
      have star : c ≠ '*' := by
        rintro rfl
        exact absurd (plain '*' (by simp)) (by decide)
      simp [tagLead, pieceText, needsLead, star]

/-- The length of the shortest filling, read off the text. -/
theorem shortestTag_eq (pieces : List GlobPiece) (good : ∀ piece ∈ pieces, GoodPiece .tag piece) :
    shortestTag (pieces.flatMap pieceText) = (fillTag pieces).length := by
  rw [shortestTag, tagWidth_pieces pieces good, tagLead_pieces pieces good, fillTag,
    List.length_append]
  split <;> simp [Nat.add_comm]

/-! ### No tag is shorter -/

theorem fill_le_runs (values : VariableValues) (pieces : List GlobPiece) (runs : List Text)
    (taken : List.Forall₂ (PieceRun values) pieces runs) :
    (fill [] pieces).length ≤ runs.flatten.length := by
  induction taken with
  | nil => simp
  | @cons piece run pieces runs one _ ih =>
    have short : (fillPiece [] piece).length ≤ run.length := by
      cases piece with
      | literal text =>
        cases one
        exact Nat.le_refl _
      | star => simp [fillPiece]
      | var name =>
        obtain ⟨value, -, rfl⟩ := one
        exact List.length_pos_of_ne_nil value.ne_nil
    simp only [fill_cons, List.flatten_cons, List.length_append]
    omega

theorem fillTag_shortest (values : VariableValues) (pieces : List GlobPiece) (runs : List Text)
    (solid : Solid pieces) (taken : List.Forall₂ (PieceRun values) pieces runs)
    (first : runs.flatten.head?.any isTagEdge = true) :
    (fillTag pieces).length ≤ runs.flatten.length := by
  induction taken with
  | nil => simp at first
  | @cons piece run pieces runs one more ih =>
    have rest := fill_le_runs values pieces runs more
    have all := fill_le_runs values (piece :: pieces) (run :: runs) (.cons one more)
    have closed : needsLead (piece :: pieces) = false →
        (fillTag (piece :: pieces)).length ≤ (run :: runs).flatten.length := by
      intro no
      simpa [fillTag, no] using all
    cases piece with
    | star =>
      cases run with
      | nil =>
        have shorter := ih (fun text member => solid text (by simp [member])) (by simpa using first)
        exact shorter
      | cons c run =>
        simp only [fillTag, fill_cons, fillPiece, List.nil_append, List.length_append,
          List.flatten_cons, List.length_cons]
        split
        · simp only [List.length_singleton]
          omega
        · simp only [List.length_nil]
          omega
    | var name => exact closed rfl
    | literal text =>
      apply closed
      cases one
      obtain ⟨c, text, rfl⟩ := List.exists_cons_of_ne_nil (solid run (by simp))
      simp only [List.flatten_cons, List.cons_append, List.head?_cons, Option.any_some] at first
      simp only [needsLead, List.head?_cons, Option.any_some, decide_eq_false_iff_not, not_or]
      refine ⟨?_, ?_⟩
      · rintro rfl
        exact absurd first (by decide)
      · rintro rfl
        exact absurd first (by decide)

/-- A tag that meets a constraint is no shorter than its shortest filling. -/
theorem shortestTag_le (values : VariableValues) (text tag : Text) (pieces : List GlobPiece)
    (parsed : parseGlob text .tag = .ok pieces) (valid : isTag tag = true)
    (meets : Concatenation values pieces tag) : shortestTag text ≤ tag.length := by
  obtain ⟨-, good, rfl, -⟩ := parseGlob_spec _ _ _ parsed
  rw [shortestTag_eq pieces good]
  obtain ⟨runs, taken, rfl⟩ := meets
  have edge : runs.flatten.head?.any isTagEdge = true := by
    unfold isTag at valid
    cases whole : runs.flatten with
    | nil => simp [whole] at valid
    | cons c rest =>
      simp only [whole, Bool.and_eq_true, decide_eq_true_eq] at valid
      exact valid.2.1
  exact fillTag_shortest values pieces runs (parseGlob_solid _ _ _ parsed) taken edge

/-- A tag constraint whose shortest filling is too long accepts no tag. -/
theorem no_tag_of_long (values : VariableValues) (text tag : Text) (pieces : List GlobPiece)
    (parsed : parseGlob text .tag = .ok pieces) (long : 128 < shortestTag text)
    (valid : isTag tag = true) : ¬ Concatenation values pieces tag := by
  intro meets
  have short := shortestTag_le values text tag pieces parsed valid meets
  have bytes := length_le_byteLen tag
  have within : byteLen tag ≤ 128 := by
    simp only [isTag, Bool.and_eq_true, decide_eq_true_eq] at valid
    exact valid.1
  omega

/-! ### The shortest filling is a tag -/

theorem validateBoundaries_tag (pieces : List GlobPiece)
    (h : validateBoundaries pieces .tag = .ok ()) :
    ∀ text, pieces.head? = some (.literal text) → text.head?.any isTagEdge = true := by
  unfold validateBoundaries at h
  split at h
  · cases ‹GlobField.tag = _›
  · rename_i only _
    have valid : isTag only = true := by simpa using h
    intro text first
    obtain rfl : only = text := by simpa using first
    unfold isTag at valid
    cases only with
    | nil => simp at valid
    | cons c rest =>
      simp only [Bool.and_eq_true] at valid
      exact valid.2.1
  · simp only [guard_eq_ok, Bool.or_eq_true, not_or] at h
    intro text first
    have := h.1.1
    simpa [first, edgeIsLegal] using this

theorem fill_head_tag (pieces : List GlobPiece) (good : ∀ piece ∈ pieces, GoodPiece .tag piece)
    (no : needsLead pieces = false) : (fill [] pieces).head?.any isTagEdge = true := by
  induction pieces with
  | nil => cases no
  | cons piece rest ih =>
    cases piece with
    | star => simpa [fillPiece] using ih (fun other member => good other (by simp [member])) no
    | var name => rfl
    | literal text =>
      obtain ⟨nonempty, plain⟩ := good (.literal text) (by simp)
      obtain ⟨c, text, rfl⟩ := List.exists_cons_of_ne_nil nonempty
      have hc := plain c (by simp)
      simp only [needsLead, List.head?_cons, Option.any_some, decide_eq_false_iff_not, not_or] at no
      simp only [isRunChar, isTagChar, Bool.or_eq_true, List.contains_eq_mem, List.mem_cons,
        List.not_mem_nil, or_false, decide_eq_true_eq, no.1, no.2] at hc
      simp only [fill_cons, fillPiece, List.cons_append, List.head?_cons, Option.any_some, isTagEdge,
        Bool.or_eq_true, beq_iff_eq]
      exact hc

theorem fillTag_valid (text : Text) (pieces : List GlobPiece)
    (parsed : parseGlob text .tag = .ok pieces) (short : shortestTag text ≤ 128) :
    isTag (fillTag pieces) = true := by
  obtain ⟨-, good, rfl, -⟩ := parseGlob_spec _ _ _ parsed
  rw [shortestTag_eq pieces good] at short
  have chars : ∀ c ∈ fillTag pieces, isTagChar c = true := by
    intro c member
    simp only [fillTag, List.mem_append] at member
    rcases member with lead | member
    · split at lead
      · rw [List.mem_singleton.mp lead]
        decide
      · cases lead
    · exact fill_chars .tag [] pieces good (by simp) c member
  have bytes : byteLen (fillTag pieces) = (fillTag pieces).length :=
    byteLen_of_ascii _ fun c member => isRunChar_ascii .tag c (chars c member)
  have head : (fillTag pieces).head?.any isTagEdge = true := by
    unfold fillTag
    cases lead : needsLead pieces with
    | true => rfl
    | false => simpa using fill_head_tag pieces good lead
  unfold isTag
  cases whole : fillTag pieces with
  | nil => simp [whole] at head
  | cons c rest =>
    rw [whole] at bytes short chars head
    simp only [Bool.and_eq_true, decide_eq_true_eq, List.all_eq_true]
    exact ⟨by omega, head, fun d member => chars d (by simp [member])⟩

/-- Only a star opens a constraint that needs a leading character: a literal that did
would have been refused at the boundary. -/
theorem lead_is_star (pieces : List GlobPiece) (nonempty : pieces ≠ [])
    (boundaries : validateBoundaries pieces .tag = .ok ()) (lead : needsLead pieces = true) :
    ∃ rest, pieces = .star :: rest := by
  obtain ⟨piece, rest, rfl⟩ := List.exists_cons_of_ne_nil nonempty
  cases piece with
  | star => exact ⟨rest, rfl⟩
  | var name => cases lead
  | literal text =>
    have edge := validateBoundaries_tag _ boundaries text rfl
    simp only [needsLead] at lead
    cases first : text.head? with
    | none => simp [first] at edge
    | some c =>
      simp only [first, Option.any_some, decide_eq_true_eq] at lead edge
      rcases lead with rfl | rfl
      · exact absurd edge (by decide)
      · exact absurd edge (by decide)

theorem concatenation_fillTag (values : VariableValues) (text : Text) (pieces : List GlobPiece)
    (parsed : parseGlob text .tag = .ok pieces) (bound : BindsA values pieces) :
    Concatenation values pieces (fillTag pieces) := by
  obtain ⟨nonempty, -, -, boundaries⟩ := parseGlob_spec _ _ _ parsed
  have filled := concatenation_fill values [] pieces bound
  unfold fillTag
  cases lead : needsLead pieces with
  | false => simpa using filled
  | true =>
    obtain ⟨rest, rfl⟩ := lead_is_star pieces nonempty boundaries lead
    have more := concatenation_fill values [] rest (fun name member => bound name (by simp [member]))
    simpa [fillPiece] using concatenation_cons values .star rest ['a'] _ trivial more

theorem fillTag_length (text : Text) (pieces : List GlobPiece)
    (parsed : parseGlob text .tag = .ok pieces) : (fillTag pieces).length ≤ text.length := by
  obtain ⟨nonempty, -, rfl, boundaries⟩ := parseGlob_spec _ _ _ parsed
  have filled := fill_length [] pieces (by decide)
  unfold fillTag
  cases lead : needsLead pieces with
  | false => simpa using filled
  | true =>
    obtain ⟨rest, rfl⟩ := lead_is_star pieces nonempty boundaries lead
    have more := fill_length [] rest (by decide)
    simp only [if_true, fill_cons, fillPiece, List.nil_append, List.length_append,
      List.length_singleton, List.flatMap_cons, pieceText]
    omega

end WeeboSi.ImagePolicy
