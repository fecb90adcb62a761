import WeeboSi.ImagePolicy.Pattern

/-!
# What the pattern parser accepts

One characterisation for each parsing function of pattern.rs. `parseGlob_spec` is what
the later modules need of the piece loop: the pieces read back as the text, and every
literal is a non-empty run of the field's characters.
-/
namespace WeeboSi.ImagePolicy
open WeeboSi.Lib

/-! ## Pieces -/

/-- A piece as it is written. -/
def pieceText : GlobPiece → Text
  | .literal text => text
  | .star => ['*']
  | .var name => '\x7b' :: name.text ++ ['\x7d']

def GoodPiece (field : GlobField) : GlobPiece → Prop
  | .literal text => text ≠ [] ∧ ∀ c ∈ text, isRunChar field c = true
  | .star => True
  | .var _ => True

theorem VariableName.new_eq_some (text : Text) (name : VariableName) :
    VariableName.new text = some name ↔ name.text = text := by
  unfold VariableName.new
  split
  · rename_i legal
    simp only [Option.some.injEq]
    constructor
    · rintro rfl
      rfl
    · rintro rfl
      rfl
  · rename_i illegal
    simp only [reduceCtorEq, false_iff]
    rintro rfl
    exact illegal name.legal

theorem flush_eq_ok (literal : Text) (pieces out : List GlobPiece) (field : GlobField)
    (h : flush literal pieces field = .ok out) (good : ∀ piece ∈ pieces, GoodPiece field piece) :
    (∀ piece ∈ out, GoodPiece field piece) ∧
      out.flatMap pieceText = pieces.flatMap pieceText ++ literal := by
  unfold flush at h
  split at h
  · rename_i empty
    cases h
    exact ⟨good, by simp [empty]⟩
  · rename_i nonempty
    simp only [check_eq_ok, List.all_eq_true] at h
    obtain ⟨legal, rfl⟩ := h
    refine ⟨?_, by simp [pieceText]⟩
    intro piece member
    simp only [List.mem_append, List.mem_singleton] at member
    rcases member with member | rfl
    · exact good piece member
    · exact ⟨nonempty, legal⟩

/-- Loop invariant: what was pushed, the open literal and what is left spell the text. -/
theorem parseGlobLoop_spec (field : GlobField) (skip : Nat) (rest literal : Text)
    (pieces out : List GlobPiece) (h : parseGlobLoop field skip rest literal pieces = .ok out)
    (good : ∀ piece ∈ pieces, GoodPiece field piece) :
    (∀ piece ∈ out, GoodPiece field piece) ∧
      out.flatMap pieceText = pieces.flatMap pieceText ++ literal ++ rest.drop skip := by
  induction rest generalizing skip literal pieces with
  | nil =>
    simp only [parseGlobLoop] at h
    simpa using flush_eq_ok literal pieces out field h good
  | cons c after ih =>
    cases skip with
    | succ skip => simpa using ih skip literal pieces h good
    | zero =>
      simp only [parseGlobLoop] at h
      have push : ∀ (piece : GlobPiece) (skip : Nat) (flushed : List GlobPiece),
          GoodPiece field piece → flush literal pieces field = .ok flushed →
          parseGlobLoop field skip after [] (flushed ++ [piece]) = .ok out →
          (∀ piece ∈ out, GoodPiece field piece) ∧ out.flatMap pieceText =
            pieces.flatMap pieceText ++ literal ++ (pieceText piece ++ after.drop skip) := by
        intro piece skip flushed hpiece hflush hloop
        obtain ⟨goodFlushed, text⟩ := flush_eq_ok literal pieces flushed field hflush good
        have step := ih skip [] (flushed ++ [piece]) hloop (by
          intro other member
          simp only [List.mem_append, List.mem_singleton] at member
          rcases member with member | rfl
          · exact goodFlushed other member
          · exact hpiece)
        refine ⟨step.1, ?_⟩
        rw [step.2]
        simp [text]
      split at h
      · rename_i star
        simp only [guard_eq_ok, bind_eq_ok] at h
        obtain ⟨-, flushed, hflush, hloop⟩ := h
        simpa [star, pieceText] using push .star 0 flushed trivial hflush hloop
      · split at h
        · rename_i brace
          split at h
          · cases h
          · rename_i name remainder cut
            obtain ⟨rfl, -⟩ := (splitOnce_eq_some _ _ _ _).mp cut
            rw [guard_eq_ok] at h
            obtain ⟨-, h⟩ := h
            split at h
            · cases h
            · rename_i var hvar
              obtain ⟨flushed, hflush, hloop⟩ := (bind_eq_ok _ _ _).mp h
              have step := push (.var var) (name.length + 1) flushed trivial hflush hloop
              have skipped : (name ++ '\x7d' :: remainder).drop (name.length + 1) = remainder := by
                rw [← List.drop_drop]
                simp
              rw [skipped] at step
              simpa [brace, pieceText, (VariableName.new_eq_some _ _).mp hvar] using step
        · rw [guard_eq_ok] at h
          have step := ih 0 (literal ++ [c]) pieces h.2 good
          simpa using step

theorem parseGlob_spec (text : Text) (field : GlobField) (pieces : List GlobPiece)
    (h : parseGlob text field = .ok pieces) :
    pieces ≠ [] ∧ (∀ piece ∈ pieces, GoodPiece field piece) ∧ pieces.flatMap pieceText = text ∧
      validateBoundaries pieces field = .ok () := by
  unfold parseGlob at h
  rw [guard_eq_ok, bind_eq_ok] at h
  obtain ⟨-, out, hloop, h⟩ := h
  rw [guard_eq_ok, bind_eq_ok] at h
  obtain ⟨nonempty, _, boundaries, h⟩ := h
  cases h
  obtain ⟨good, spelled⟩ := parseGlobLoop_spec field 0 text [] [] pieces hloop (by simp)
  exact ⟨nonempty, good, by simpa using spelled, boundaries⟩

/-! ## Segments and tags -/

/-- No literal is empty: what the matching loops need to make progress. -/
def Solid (pieces : List GlobPiece) : Prop := ∀ text, .literal text ∈ pieces → text ≠ []

def SolidSegment : PathSegment → Prop
  | .glob pieces => Solid pieces
  | .doubleStar => True

theorem parseGlob_solid (text : Text) (field : GlobField) (pieces : List GlobPiece)
    (h : parseGlob text field = .ok pieces) : Solid pieces := by
  obtain ⟨-, good, -⟩ := parseGlob_spec text field pieces h
  exact fun literal member => (good _ member).1

theorem parseSegment_eq_ok (text : Text) (segment : PathSegment) :
    parseSegment text = .ok segment ↔
      (text = ['*', '*'] ∧ segment = .doubleStar) ∨
      (text ≠ ['*', '*'] ∧ ∃ pieces, parseGlob text .pathSegment = .ok pieces ∧
        segment = .glob pieces) := by
  unfold parseSegment
  by_cases double : text = ['*', '*']
  · simp [double, eq_comm]
  · rw [if_neg double, bind_eq_ok]
    simp only [Except.ok.injEq, double, false_and, false_or, not_false_eq_true, true_and, ne_eq]
    constructor
    · rintro ⟨pieces, hpieces, rfl⟩
      exact ⟨pieces, hpieces, rfl⟩
    · rintro ⟨pieces, hpieces, rfl⟩
      exact ⟨pieces, hpieces, rfl⟩

theorem parsePath_eq_ok (host : HostPattern) (path : Text) (segments : List PathSegment) :
    parsePath host path = .ok segments ↔
      path ≠ [] ∧ List.Forall₂ (fun text segment => parseSegment text = .ok segment)
        ((if host = .labels [.literal defaultHost] none ∧ '/' ∉ path then
          defaultNamespace ++ '/' :: path else path).splitOn '/') segments := by
  unfold parsePath
  simp [guard_eq_ok, mapM_eq_ok]

theorem parsedSegments_solid (texts : List Text) (segments : List PathSegment)
    (parsed : List.Forall₂ (fun text segment => parseSegment text = .ok segment) texts segments) :
    ∀ segment ∈ segments, SolidSegment segment := by
  induction parsed with
  | nil => simp
  | @cons text segment _ _ one _ ih =>
    simp only [List.mem_cons, forall_eq_or_imp]
    refine ⟨?_, ih⟩
    rcases (parseSegment_eq_ok _ _).mp one with ⟨-, rfl⟩ | ⟨-, pieces, hpieces, rfl⟩
    · trivial
    · exact parseGlob_solid _ _ _ hpieces

theorem parsePath_solid (host : HostPattern) (path : Text) (segments : List PathSegment)
    (h : parsePath host path = .ok segments) : ∀ segment ∈ segments, SolidSegment segment := by
  obtain ⟨-, parsed⟩ := (parsePath_eq_ok host path segments).mp h
  exact parsedSegments_solid _ segments parsed

theorem parseTag_eq_ok (tag : Option Text) (constraint : Option (List GlobPiece)) :
    parseTag tag = .ok constraint ↔
      (tag = none ∧ constraint = none) ∨
      ∃ text pieces, tag = some text ∧ constraint = some pieces ∧
        parseGlob text .tag = .ok pieces := by
  unfold parseTag
  cases tag with
  | none => simp [eq_comm]
  | some text =>
    cases h : parseGlob text .tag with
    | error e => simp [Except.map, h]
    | ok pieces => simp [Except.map, h, eq_comm]

/-! ## The whole parser -/

theorem cutAnyDigest_eq (raw body : Text) (anyDigest : Bool) :
    cutAnyDigest raw = (body, anyDigest) ↔
      (anyDigest = true ∧ raw = body ++ anyDigestSuffix) ∨
        (anyDigest = false ∧ raw = body ∧ ¬ ∃ front, raw = front ++ anyDigestSuffix) := by
  unfold cutAnyDigest
  have spec : ∀ front, raw.dropSuffix? anyDigestSuffix = some front ↔ raw = front ++ anyDigestSuffix := by
    intro front
    simp [List.dropSuffix?_eq_some_iff]
  cases cut : raw.dropSuffix? anyDigestSuffix with
  | none =>
    have absent : ¬ ∃ front, raw = front ++ anyDigestSuffix := by
      rintro ⟨front, h⟩
      rw [(spec front).mpr h] at cut
      cases cut
    simp only [Prod.mk.injEq]
    constructor
    · rintro ⟨rfl, rfl⟩
      exact Or.inr ⟨rfl, rfl, absent⟩
    · rintro (⟨-, h⟩ | ⟨rfl, rfl, -⟩)
      · exact absurd ⟨body, h⟩ absent
      · exact ⟨rfl, rfl⟩
  | some front =>
    have whole := (spec front).mp cut
    simp only [Prod.mk.injEq]
    constructor
    · rintro ⟨rfl, rfl⟩
      exact Or.inl ⟨rfl, whole⟩
    · rintro (⟨rfl, h⟩ | ⟨-, -, absent⟩)
      · exact ⟨List.append_cancel_right (whole.symm.trans h), rfl⟩
      · exact absurd ⟨front, whole⟩ absent

theorem patternParse_eq_ok (text : Text) (p : Pattern) :
    Pattern.parse text = .ok p ↔
      text ≠ [] ∧ byteLen text ≤ maxReferenceLen ∧ ∃ body name tag host path,
        cutAnyDigest text = (body, p.anyDigest) ∧ '@' ∉ body ∧ body ≠ [] ∧
        (∀ c ∈ body, isLegalPatternChar c = true) ∧ body ≠ ['*'] ∧ body ≠ ['*', '*'] ∧
        splitTag body = .ok (name, tag) ∧ splitPatternHost name = .ok (host, path) ∧
        parseHost host = .ok p.host ∧ parsePath p.host path = .ok p.path ∧
        parseTag tag = .ok p.tag ∧ p.raw = text := by
  unfold Pattern.parse splitPatternTag
  simp only [guard_eq_ok, Nat.not_lt, gt_iff_lt, List.contains_eq_mem, decide_eq_true_eq]
  refine and_congr_right fun _ => and_congr_right fun _ => ?_
  cases cut : cutAnyDigest text with
  | mk body anyDigest =>
  have legal : body.find? (fun c => !isLegalPatternChar c) = none ↔
      ∀ c ∈ body, isLegalPatternChar c = true := by simp
  simp only [Prod.mk.injEq]
  cases found : body.find? (fun c => !isLegalPatternChar c) with
  | some c =>
    constructor
    · rintro ⟨-, -, h⟩
      cases h
    · rintro ⟨body', _, _, _, _, ⟨rfl, -⟩, -, -, all, -⟩
      rw [legal.mpr all] at found
      cases found
  | none =>
    simp only [guard_eq_ok, not_or, bind_eq_ok, Prod.exists]
    constructor
    · rintro ⟨at_, nonempty, ⟨one, two⟩, name, tag, ht, host, path, hh, hp, hhost, segments, hpath,
        pieces, htag, hr⟩
      cases hr
      exact ⟨body, name, tag, host, path, ⟨rfl, rfl⟩, at_, nonempty, legal.mp found, one, two, ht, hh,
        hhost, hpath, htag, rfl⟩
    · rintro ⟨body', name, tag, host, path, ⟨rfl, hany⟩, at_, nonempty, -, one, two, ht, hh, hhost,
        hpath, htag, hraw⟩
      refine ⟨at_, nonempty, ⟨one, two⟩, name, tag, ht, host, path, hh, p.host, hhost, p.path, hpath,
        p.tag, htag, ?_⟩
      cases p
      simp only at hraw hany
      rw [hraw, hany]

end WeeboSi.ImagePolicy
