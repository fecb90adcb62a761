import WeeboSi.ImagePolicy.Interpolation
import WeeboSi.ImagePolicy.Shorthand

/-!
# Reading a printed pattern back

Source: crates/weebo-si-image-policy/src/pattern.rs:121-172, 195-226, 341-456. The printed
text is cut where it was joined. Path segments read back with the meaning they had, a tag
does if its length allows, and a host of labels reads back as the labels it shows: not
those of the pattern where a value holds a dot.
-/
namespace WeeboSi.ImagePolicy
open WeeboSi.Lib

/-! ## What is printed -/

/-- The printed parts of a pattern. -/
structure PrintedParts (values : VariableValues) (p : Pattern) (host : Text) (segments : List Text)
    (tag : Option Text) : Prop where
  host : renderHost values p.host = some host
  path : List.Forall₂ (fun segment text => renderSegment values segment = some text) p.path segments
  tag : renderTag values p.tag = some tag

theorem interpolated_eq_some (p : Pattern) (values : VariableValues) (text : Text) :
    p.interpolated values = some text ↔ ∃ host segments tag, PrintedParts values p host segments tag ∧
      text = host ++ '/' :: ['/'].intercalate segments ++ tagText tag ++ optInText p.anyDigest := by
  have version : ∀ out : Text, (if p.anyDigest then out ++ anyDigestSuffix else out) =
      out ++ optInText p.anyDigest := by
    intro out
    cases p.anyDigest with
    | true => rfl
    | false => simp [optInText]
  unfold Pattern.interpolated
  simp only [Option.bind_eq_bind, Option.bind_eq_some_iff, mapM_eq_some, Option.some.injEq, version]
  constructor
  · intro given
    obtain ⟨host, hhost, segments, hpath, tag, htag, whole⟩ := given
    exact ⟨host, segments, tag, ⟨hhost, hpath, htag⟩, whole.symm⟩
  · intro given
    obtain ⟨host, segments, tag, parts, whole⟩ := given
    exact ⟨host, parts.host, segments, parts.path, tag, parts.tag, whole.symm⟩

/-! ## Path and tag -/

/-- A segment read back from print: no variable is left, and it takes the same components. -/
structure ReadBack (values : VariableValues) (segment back : PathSegment) : Prop where
  closed : ∀ pieces name, back = .glob pieces → .var name ∉ pieces
  same : ∀ block, SegmentBlock values segment block ↔ SegmentBlock .new back block

theorem renderSegment_chars (values : VariableValues) (source text : Text) (segment : PathSegment)
    (parsed : parseSegment source = .ok segment) (rendered : renderSegment values segment = some text) :
    text ≠ [] ∧ ∀ c ∈ text, isComponentChar c = true ∨ c = '*' := by
  rcases (parseSegment_eq_ok _ _).mp parsed with ⟨-, rfl⟩ | ⟨-, pieces, hpieces, rfl⟩
  · cases rendered
    simp
  · have written := writtenRun .pathSegment values source text pieces hpieces rendered
    exact ⟨written.nonempty, written.chars⟩

/-- A printed segment reads back. -/
theorem segment_reads_back (values : VariableValues) (source text : Text) (segment : PathSegment)
    (parsed : parseSegment source = .ok segment) (rendered : renderSegment values segment = some text) :
    ∃ back, parseSegment text = .ok back ∧ ReadBack values segment back := by
  rcases (parseSegment_eq_ok _ _).mp parsed with ⟨-, rfl⟩ | ⟨-, pieces, hpieces, rfl⟩
  · cases rendered
    exact ⟨.doubleStar, by decide, by simp, fun block => Iff.rfl⟩
  · have written := writtenRun .pathSegment values source text pieces hpieces rendered
    obtain ⟨back, hback⟩ := (parseGlob_written .pathSegment text written).mpr (by simp)
    have glob : text ≠ ['*', '*'] := by
      rintro rfl
      exact (List.isChain_cons.mp written.isolated).1 '*' rfl ⟨rfl, rfl⟩
    refine ⟨.glob back, (parseSegment_eq_ok _ _).mpr (Or.inr ⟨glob, back, hback, rfl⟩), ?_, ?_⟩
    · rintro _ name ⟨⟩
      exact parseGlob_closed .pathSegment text back written hback name
    · intro block
      simp only [SegmentBlock, rendered_wild .pathSegment source text pieces values hpieces rendered,
        parseGlob_wild .pathSegment text back written hback]

theorem path_reads_back (values : VariableValues) (sources : List Text) (path : List PathSegment)
    (texts : List Text)
    (parsed : List.Forall₂ (fun text segment => parseSegment text = .ok segment) sources path)
    (rendered : List.Forall₂ (fun segment text => renderSegment values segment = some text) path texts) :
    ∃ backs, List.Forall₂ (fun text segment => parseSegment text = .ok segment) texts backs ∧
      List.Forall₂ (ReadBack values) path backs := by
  induction parsed generalizing texts with
  | nil =>
    cases rendered
    exact ⟨[], .nil, .nil⟩
  | cons one _ ih =>
    cases rendered with
    | cons here there =>
      obtain ⟨back, hback, same⟩ := segment_reads_back values _ _ _ one here
      obtain ⟨backs, hbacks, sames⟩ := ih _ there
      exact ⟨back :: backs, .cons hback hbacks, .cons same sames⟩

theorem pathMeaning_reads_back (values : VariableValues) (path backs : List PathSegment)
    (components : List Text) (same : List.Forall₂ (ReadBack values) path backs) :
    PathMeaning values path components ↔ PathMeaning .new backs components := by
  have blocks : ∀ blocks, List.Forall₂ (SegmentBlock values) path blocks ↔
      List.Forall₂ (SegmentBlock .new) backs blocks := by
    induction same with
    | nil => simp
    | cons one _ ih =>
      intro blocks
      cases blocks with
      | nil => simp
      | cons block blocks => rw [List.forall₂_cons, List.forall₂_cons, one.same block, ih blocks]
  simp only [PathMeaning, blocks]

section PrintedTag
variable (values : VariableValues) (source tag : Option Text) (constraint : Option (List GlobPiece))
  (parsed : parseTag source = .ok constraint) (rendered : renderTag values constraint = some tag)
include parsed rendered

/-- A printed constraint is a written run. -/
theorem renderTag_written (text : Text) (printed : tag = some text) :
    WrittenRun .tag text ∧ ∃ source pieces, constraint = some pieces ∧
      parseGlob source .tag = .ok pieces ∧ renderPieces pieces values [] = some text := by
  subst printed
  rcases (parseTag_eq_ok _ _).mp parsed with ⟨-, rfl⟩ | ⟨source, pieces, -, rfl, hpieces⟩
  · cases rendered
  · obtain ⟨_, htext, same⟩ := Option.map_eq_some_iff.mp rendered
    cases same
    exact ⟨writtenRun .tag values source text pieces hpieces htext, source, pieces, rfl, hpieces, htext⟩

/-- A printed tag reads back exactly if it keeps a star or is no longer than a tag may be. -/
theorem tag_reads_back_iff :
    (∃ back, parseTag tag = .ok back) ↔ ∀ text ∈ tag, '*' ∈ text ∨ byteLen text ≤ 128 := by
  cases tag with
  | none =>
    simp only [Option.mem_def, reduceCtorEq, IsEmpty.forall_iff, implies_true, iff_true]
    exact ⟨none, rfl⟩
  | some text =>
    obtain ⟨written, -⟩ := renderTag_written values source (some text) constraint parsed rendered text rfl
    have reads := parseGlob_written .tag text written
    simp only [forall_const] at reads
    simp only [Option.mem_def, Option.some.injEq, forall_eq', ← reads, parseTag_eq_ok]
    constructor
    · rintro ⟨_, ⟨no, -⟩ | ⟨_, pieces, same, -, hpieces⟩⟩
      · cases no
      · cases same
        exact ⟨pieces, hpieces⟩
    · intro given
      obtain ⟨pieces, hpieces⟩ := given
      exact ⟨some pieces, Or.inr ⟨text, pieces, rfl, rfl, hpieces⟩⟩

theorem tag_back_closed (back : Option (List GlobPiece)) (reads : parseTag tag = .ok back) :
    ∀ name, .var name ∉ back.getD [] := by
  rcases (parseTag_eq_ok _ _).mp reads with ⟨-, rfl⟩ | ⟨text, pieces, printed, rfl, hpieces⟩
  · simp
  · obtain ⟨written, -⟩ := renderTag_written values source tag constraint parsed rendered text printed
    exact parseGlob_closed .tag text pieces written hpieces

end PrintedTag

/-- A tag constraint read back from print accepts the same tags. -/
theorem matchesTag_reads_back (values : VariableValues) (source tag actual : Option Text) (p q : Pattern)
    (parsed : parseTag source = .ok p.tag) (rendered : renderTag values p.tag = some tag)
    (back : parseTag tag = .ok q.tag) (any : q.anyDigest = p.anyDigest) :
    q.matchesTag actual .new = p.matchesTag actual values := by
  unfold Pattern.matchesTag
  rcases (parseTag_eq_ok _ _).mp back with ⟨none, hback⟩ | ⟨text, pieces', printed, hback, hpieces'⟩
  · rcases (parseTag_eq_ok _ _).mp parsed with ⟨-, constraint⟩ | ⟨_, pieces, -, constraint, -⟩
    · rw [constraint, hback]
    · rw [constraint, none] at rendered
      obtain ⟨_, -, no⟩ := Option.map_eq_some_iff.mp rendered
      cases no
  · obtain ⟨written, source, pieces, constraint, hpieces, htext⟩ :=
      renderTag_written values source tag p.tag parsed rendered text printed
    rw [constraint, hback, any]
    cases actual with
    | none => rfl
    | some actual =>
      apply Bool.eq_iff_iff.mpr
      rw [matchesGlob_iff _ _ _ (parseGlob_solid _ _ _ hpieces),
        matchesGlob_iff _ _ _ (parseGlob_solid _ _ _ hpieces'),
        rendered_wild .tag source text pieces values hpieces htext,
        parseGlob_wild .tag text pieces' written hpieces']

/-! ## Host labels -/

/-- What a label of a parsed host can be. The default host of a pattern without one is a
single label that holds a dot. -/
def LabelPiece : GlobPiece → Prop
  | .literal text => edged isComponentEdge isComponentChar text = true
  | .star => False
  | .var _ => True

theorem isHostLabelChar_component (c : Char) (h : isHostLabelChar c = true) :
    isComponentChar c = true ∧ (c.isAlphanum = true → isComponentEdge c = true) := by
  simp only [isHostLabelChar, Bool.or_eq_true, beq_iff_eq] at h
  rcases h with (lower | digit) | rfl
  · simp [isComponentChar, isComponentEdge, lower]
  · simp [isComponentChar, isComponentEdge, digit]
  · exact ⟨by decide, fun alnum => absurd alnum (by decide)⟩

theorem component_of_hostLabel (label : Text) (h : edged Char.isAlphanum isHostLabelChar label = true) :
    edged isComponentEdge isComponentChar label = true := by
  obtain ⟨⟨c, first, firstEdge⟩, ⟨d, last, lastEdge⟩, inner⟩ := (edged_iff _ _ _).mp h
  refine (edged_iff _ _ _).mpr ⟨⟨c, first, ?_⟩, ⟨d, last, ?_⟩, ?_⟩
  · exact (isHostLabelChar_component c (inner c (List.mem_of_head? first))).2 firstEdge
  · exact (isHostLabelChar_component d (inner d (List.mem_of_getLast? last))).2 lastEdge
  · exact fun e member => (isHostLabelChar_component e (inner e member)).1

/-- A component is a host label unless it holds a dot or an underscore. -/
theorem hostLabel_iff (text : Text) (component : edged isComponentEdge isComponentChar text = true) :
    edged Char.isAlphanum isHostLabelChar text = true ↔ '.' ∉ text ∧ '_' ∉ text := by
  obtain ⟨⟨c, first, firstEdge⟩, ⟨d, last, lastEdge⟩, inner⟩ := (edged_iff _ _ _).mp component
  have alnum : ∀ e, isComponentEdge e = true → e.isAlphanum = true := by
    intro e edge
    simp only [isComponentEdge, Bool.or_eq_true] at edge
    rcases edge with lower | digit
    · simp [Char.isAlphanum, isAlpha_iff, lower]
    · simp [Char.isAlphanum, digit]
  constructor
  · intro label
    have chars := ((edged_iff _ _ _).mp label).2.2
    exact ⟨fun dot => absurd (chars _ dot) (by decide), fun line => absurd (chars _ line) (by decide)⟩
  · intro given
    obtain ⟨noDot, noLine⟩ := given
    refine (edged_iff _ _ _).mpr ⟨⟨c, first, alnum c firstEdge⟩, ⟨d, last, alnum d lastEdge⟩, ?_⟩
    intro e member
    have char := inner e member
    simp only [isComponentChar, Bool.or_eq_true, List.contains_eq_mem, List.mem_cons, List.not_mem_nil,
      or_false, decide_eq_true_eq] at char
    rcases char with plain | rfl | rfl | rfl
    · simp only [isHostLabelChar, Bool.or_eq_true, plain, true_or]
    · exact absurd member noDot
    · exact absurd member noLine
    · decide

theorem parseHostLabel_piece (label : Text) (piece : GlobPiece) (h : parseHostLabel label = .ok piece) :
    LabelPiece piece := by
  unfold parseHostLabel at h
  split at h
  · split at h
    · cases h
    · rw [check_eq_ok] at h
      obtain ⟨-, rfl⟩ := h
      trivial
  · obtain ⟨_, valid, h⟩ := (bind_eq_ok _ _ _).mp h
    cases h
    rw [validateHostLiteralLabel, check_eq_ok] at valid
    exact component_of_hostLabel label valid.1

theorem parsedLabels_ne_nil (name : Text) (labels : List GlobPiece)
    (parts : List.Forall₂ (fun label piece => parseHostLabel label = .ok piece) (name.splitOn '.') labels) :
    labels ≠ [] := by
  rintro rfl
  cases whole : name.splitOn '.' with
  | nil => exact List.splitOn_ne_nil _ _ whole
  | cons part rest =>
    rw [whole] at parts
    cases parts

/-- A written host is a validated suffix, or labels and a numeric port, read from its text. -/
theorem parseHost_some (host : Text) (pattern : HostPattern) (h : parseHost (some host) = .ok pattern) :
    (∃ suffix, host = '*' :: '.' :: suffix ∧ HostName (stripLast '.' (suffix.map Char.toLower)) ∧
        pattern = .suffix (stripLast '.' (suffix.map Char.toLower))) ∨
      ∃ name port labels, cutPort (host.map Char.toLower) = (name, port) ∧ Port port ∧
        pattern = .labels labels port ∧
        List.Forall₂ (fun label piece => parseHostLabel label = .ok piece)
          ((stripLast '.' name).splitOn '.') labels := by
  simp only [parseHost, guard_eq_ok] at h
  obtain ⟨-, h⟩ := h
  split at h
  · rename_i suffix cut
    rw [guard_eq_ok, bind_eq_ok] at h
    obtain ⟨-, _, valid, h⟩ := h
    cases h
    obtain ⟨front, spelt, same⟩ := List.dropPrefix?_eq_some_iff.mp cut
    rw [beq_iff_eq.mp same] at spelt
    refine Or.inl ⟨suffix, spelt, ?_, rfl⟩
    intro label member
    have one := (forEach_eq_ok _ _ _).mp valid label member
    rw [validateHostLiteralLabel, check_eq_ok] at one
    exact one.1
  · cases cut : cutPort (host.map Char.toLower) with
    | mk name port =>
    simp only [cut, guard_eq_ok, bind_eq_ok, mapM_eq_ok] at h
    obtain ⟨hport, -, labels, parts, h⟩ := h
    cases h
    refine Or.inr ⟨name, port, labels, rfl, ?_, rfl, parts⟩
    rintro digits ⟨⟩
    simpa using hport

/-- What a parsed host is: a validated suffix, or labels and a numeric port. -/
theorem parseHost_cases (host : Option Text) (pattern : HostPattern) (h : parseHost host = .ok pattern) :
    (∃ suffix, pattern = .suffix suffix ∧ HostName suffix) ∨
      ∃ labels port, pattern = .labels labels port ∧ labels ≠ [] ∧ Port port ∧
        ∀ piece ∈ labels, LabelPiece piece := by
  cases host with
  | none =>
    cases h
    refine Or.inr ⟨_, _, rfl, by simp, by simp [Port], ?_⟩
    intro piece member
    rw [List.mem_singleton.mp member]
    exact (by decide : edged isComponentEdge isComponentChar defaultHost = true)
  | some host =>
    rcases parseHost_some host pattern h with ⟨suffix, -, valid, rfl⟩ | ⟨name, port, labels, -, hport, rfl, parts⟩
    · exact Or.inl ⟨_, rfl, valid⟩
    · refine Or.inr ⟨labels, port, rfl, parsedLabels_ne_nil _ labels parts, hport, ?_⟩
      intro piece member
      obtain ⟨label, -, one⟩ := forall₂_mem_right _ _ _ parts piece member
      exact parseHostLabel_piece label piece one

theorem renderHost_labels (values : VariableValues) (labels : List GlobPiece) (port : Option Text)
    (host : Text) : renderHost values (.labels labels port) = some host ↔
      ∃ texts, Rendered values labels texts ∧ host = joinPort (['.'].intercalate texts) port := by
  simp only [renderHost, Option.bind_eq_bind, Option.bind_eq_some_iff, renderPieces_eq_some]
  constructor
  · rintro ⟨_, ⟨texts, rendered, rfl⟩, whole⟩
    refine ⟨texts, rendered, ?_⟩
    cases port with
    | none => exact (Option.some.inj whole).symm
    | some port => exact (Option.some.inj whole).symm
  · intro given
    obtain ⟨texts, rendered, whole⟩ := given
    refine ⟨_, ⟨texts, rendered, rfl⟩, ?_⟩
    rw [whole]
    cases port with
    | none => rfl
    | some port => rfl

theorem rendered_label (values : VariableValues) (piece : GlobPiece) (text : Text)
    (label : LabelPiece piece) (rendered : renderPiece values piece = some text) :
    edged isComponentEdge isComponentChar text = true ∧
      ∀ actual, LabelMeaning values piece actual ↔ actual = text := by
  cases piece with
  | literal literal =>
    cases rendered
    exact ⟨label, fun actual => Iff.rfl⟩
  | star => exact absurd label id
  | var name =>
    obtain ⟨value, bound, rfl⟩ := Option.map_eq_some_iff.mp rendered
    refine ⟨value.legal, ?_⟩
    intro actual
    simp [LabelMeaning, bound]

section PrintedLabels
variable (values : VariableValues) (labels : List GlobPiece) (texts : List Text)
  (pieces : ∀ piece ∈ labels, LabelPiece piece) (rendered : Rendered values labels texts)
include pieces rendered

theorem rendered_labels : ∀ text ∈ texts, edged isComponentEdge isComponentChar text = true := by
  intro text member
  obtain ⟨piece, inside, one⟩ := forall₂_mem_right _ _ _ rendered text member
  exact (rendered_label values piece text (pieces piece inside) one).1

/-- The labels of the pattern ask for the printed labels. -/
theorem labelMeaning_iff (actual : List Text) :
    List.Forall₂ (LabelMeaning values) labels actual ↔ actual = texts := by
  induction rendered generalizing actual with
  | nil => simp
  | @cons piece text labels texts one _ ih =>
    have rest := ih (fun other inside => pieces other (by simp [inside]))
    cases actual with
    | nil => simp
    | cons first actual =>
      rw [List.forall₂_cons, rest, (rendered_label values piece text (pieces piece (by simp)) one).2,
        List.cons.injEq]

end PrintedLabels

section PrintedName
variable (texts : List Text) (nonempty : texts ≠ [])
  (components : ∀ text ∈ texts, edged isComponentEdge isComponentChar text = true)
include components

theorem printedName_chars : ∀ c ∈ ['.'].intercalate texts, isComponentChar c = true := by
  induction texts with
  | nil => simp
  | cons text texts ih =>
    have here := ((edged_iff _ _ _).mp (components text (by simp))).2.2
    cases texts with
    | nil => simpa using here
    | cons next texts =>
      have there := ih (fun other inside => components other (by simp [inside]))
      intro c member
      rw [List.intercalate_cons_cons, List.append_assoc, List.mem_append, List.mem_append,
        List.mem_singleton] at member
      rcases member with inside | rfl | inside
      · exact here c inside
      · decide
      · exact there c inside

include nonempty

theorem printedName_last : (['.'].intercalate texts).getLast?.any isComponentEdge = true := by
  induction texts with
  | nil => exact absurd rfl nonempty
  | cons text texts ih =>
    cases texts with
    | nil =>
      obtain ⟨-, ⟨c, last, edge⟩, -⟩ := (edged_iff _ _ _).mp (components text (by simp))
      simpa [last] using edge
    | cons next texts =>
      have there := ih (by simp) (fun other inside => components other (by simp [inside]))
      have some_ : ['.'].intercalate (next :: texts) ≠ [] := by
        intro empty
        simp [empty] at there
      rw [List.intercalate_cons_cons, List.append_assoc, List.getLast?_append_of_ne_nil _ (by simp),
        List.getLast?_append_of_ne_nil _ some_]
      exact there

end PrintedName

theorem isComponentChar_lower (c : Char) (h : isComponentChar c = true) : c.toLower = c := by
  simp only [isComponentChar, Bool.or_eq_true, List.contains_eq_mem, List.mem_cons, List.not_mem_nil,
    or_false, decide_eq_true_eq] at h
  rcases h with (lower | digit) | rfl | rfl | rfl
  · exact toLower_of_isLower c lower
  · exact toLower_of_isDigit c digit
  · rfl
  · rfl
  · rfl

/-- A label without braces is a literal, if it is a label at all. -/
theorem parseHostLabel_plain (label : Text) (piece : GlobPiece)
    (chars : ∀ c ∈ label, isComponentChar c = true) :
    parseHostLabel label = .ok piece ↔
      edged Char.isAlphanum isHostLabelChar label = true ∧ piece = .literal label := by
  have plain : bracedLabel label = none := by
    cases label with
    | nil => rfl
    | cons c rest =>
      have other : c ≠ '\x7b' := by
        rintro rfl
        exact absurd (chars '\x7b' (by simp)) (by decide)
      simp [bracedLabel, List.dropPrefix?, other]
  unfold parseHostLabel
  rw [plain]
  simp only [bind_eq_ok, validateHostLiteralLabel, check_eq_ok, Except.ok.injEq]
  constructor
  · intro given
    obtain ⟨_, ⟨valid, -⟩, same⟩ := given
    exact ⟨valid, same.symm⟩
  · intro given
    obtain ⟨valid, same⟩ := given
    exact ⟨(), ⟨valid, trivial⟩, same.symm⟩

theorem parseHostLabels_plain (parts : List Text) (pieces : List GlobPiece)
    (chars : ∀ label ∈ parts, ∀ c ∈ label, isComponentChar c = true) :
    List.Forall₂ (fun label piece => parseHostLabel label = .ok piece) parts pieces ↔
      (∀ label ∈ parts, edged Char.isAlphanum isHostLabelChar label = true) ∧
        pieces = parts.map .literal := by
  induction parts generalizing pieces with
  | nil => simp
  | cons label parts ih =>
    cases pieces with
    | nil => simp
    | cons piece pieces =>
      rw [List.forall₂_cons, parseHostLabel_plain label piece (chars label (by simp)),
        ih pieces (fun other member => chars other (by simp [member]))]
      simp only [List.mem_cons, forall_eq_or_imp, List.map_cons, List.cons.injEq]
      tauto

/-- A printed host of labels reads back exactly if every label it shows is one. -/
theorem parseHost_printed (name : Text) (port : Option Text) (pattern : HostPattern)
    (chars : ∀ c ∈ name, isComponentChar c = true) (last : name.getLast?.any isComponentEdge = true)
    (numeric : Port port) :
    parseHost (some (joinPort name port)) = .ok pattern ↔
      HostName name ∧ pattern = .labels ((name.splitOn '.').map .literal) port := by
  have absent : ∀ c, isComponentChar c = false → c ∉ name := by
    intro c other member
    rw [chars c member] at other
    cases other
  obtain ⟨c, rest, whole⟩ : ∃ c rest, name = c :: rest := by
    cases name with
    | nil => cases last
    | cons c rest => exact ⟨c, rest, rfl⟩
  have noStar : c ≠ '*' := by
    rintro rfl
    exact absent '*' (by decide) (by simp [whole])
  have opened : ∃ more, joinPort name port = c :: more := by
    rw [whole]
    cases port with
    | none => exact ⟨rest, rfl⟩
    | some port => exact ⟨rest ++ ':' :: port, rfl⟩
  have lowered : (joinPort name port).map Char.toLower = joinPort name port := by
    apply map_toLower_of_fixed
    intro d member
    have inName : d ∈ name → d.toLower = d := fun inside => isComponentChar_lower d (chars d inside)
    cases port with
    | none => exact inName member
    | some port =>
      simp only [joinPort, List.mem_append, List.mem_cons] at member
      rcases member with inside | rfl | inside
      · exact inName inside
      · rfl
      · exact toLower_of_isDigit d ((numeric port rfl).2 d inside)
  have cut : cutPort (joinPort name port) = (name, port) := by
    refine (cutPort_eq _ _ _).mpr ⟨rfl, ?_, fun _ => absent ':' (by decide)⟩
    intro digits isPort colon
    exact absurd ((numeric digits isPort).2 _ colon) (by decide)
  have digits : port.any (fun port => port = [] || !port.all Char.isDigit) = false := by
    cases port with
    | none => rfl
    | some port =>
      obtain ⟨some_, digits⟩ := numeric port rfl
      simpa [some_] using digits
  have stripped : stripLast '.' name = name := by
    apply stripLast_absent
    intro dot
    rw [dot] at last
    exact absurd last (by decide)
  have noSuffix : (joinPort name port).dropPrefix? ['*', '.'] = none := by
    obtain ⟨more, start⟩ := opened
    simp [start, List.dropPrefix?, noStar]
  unfold parseHost
  have notStar : joinPort name port ≠ ['*'] := by
    obtain ⟨more, start⟩ := opened
    rw [start]
    intro same
    exact noStar (List.cons.inj same).1
  have some_ : name ≠ [] := by simp [whole]
  simp only [if_neg notStar, noSuffix, lowered, cut, digits, Bool.false_eq_true, if_false, stripped,
    if_neg some_, bind_eq_ok, mapM_eq_ok, Except.ok.injEq]
  have parts : ∀ pieces, List.Forall₂ (fun label piece => parseHostLabel label = .ok piece)
      (name.splitOn '.') pieces ↔ HostName name ∧ pieces = (name.splitOn '.').map .literal := by
    intro pieces
    have inside : ∀ label ∈ name.splitOn '.', ∀ c ∈ label, isComponentChar c = true := by
      intro label member d isIn
      exact chars d ((mem_splitOn '.' d name).mp ⟨label, member, isIn⟩).1
    exact parseHostLabels_plain (name.splitOn '.') pieces inside
  simp only [parts]
  constructor
  · rintro ⟨_, ⟨valid, rfl⟩, same⟩
    exact ⟨valid, same.symm⟩
  · intro given
    obtain ⟨valid, same⟩ := given
    exact ⟨_, ⟨valid, rfl⟩, same.symm⟩

/-- Labels read from a text hold no dot, unlike the default host of a pattern without one. -/
theorem literal_labels_ne_default (name : Text) (port : Option Text) :
    HostPattern.labels ((name.splitOn '.').map .literal) port ≠ .labels [.literal defaultHost] none := by
  intro same
  have labels : (name.splitOn '.').map GlobPiece.literal = [.literal defaultHost] :=
    (HostPattern.labels.inj same).1
  have member : GlobPiece.literal defaultHost ∈ (name.splitOn '.').map GlobPiece.literal := by
    rw [labels]
    simp
  obtain ⟨label, inside, isHub⟩ := List.mem_map.mp member
  cases isHub
  exact ((mem_splitOn '.' '.' name).mp ⟨defaultHost, inside, by decide⟩).2 rfl

theorem parseHost_suffix (suffix : Text) (valid : HostName suffix) :
    parseHost (some ('*' :: '.' :: suffix)) = .ok (.suffix suffix) := by
  have chars := HostName.chars suffix valid
  have absent : '*' ∉ suffix ∧ '\x7b' ∉ suffix := by
    constructor
    all_goals
      intro member
      rcases chars _ member with label | dot
      · exact absurd label (by decide)
      · exact absurd dot (by decide)
  have lowered : suffix.map Char.toLower = suffix := by
    apply map_toLower_of_fixed
    intro c member
    rcases chars c member with label | rfl
    · exact isHostLabelChar_lower c label
    · rfl
  have labels : forEach validateHostLiteralLabel (suffix.splitOn '.') = .ok () := by
    refine (forEach_eq_ok _ _ _).mpr ?_
    intro label member
    simp [validateHostLiteralLabel, valid label member]
  have some_ := HostName.ne_nil suffix valid
  have cut : ('*' :: '.' :: suffix).dropPrefix? ['*', '.'] = some suffix := by simp [List.dropPrefix?]
  unfold parseHost
  simp only [cut, lowered, HostName.stripLast suffix valid, labels]
  simp [some_, absent.1, absent.2, bind, Except.bind]

/-! ## Cutting the printed text -/

/-- What is known of the parts of a parsed pattern. -/
structure ParsedParts (p : Pattern) : Prop where
  host : ∃ text, parseHost text = .ok p.host
  path : ∃ texts, texts ≠ [] ∧
    List.Forall₂ (fun text segment => parseSegment text = .ok segment) texts p.path
  tag : ∃ text, parseTag text = .ok p.tag

theorem parsedParts (source : Text) (p : Pattern) (parsed : Pattern.parse source = .ok p) :
    ParsedParts p := by
  obtain ⟨-, -, name, tag, host, path, -, -, -, -, -, hhost, hpath, htag⟩ :=
    (patternParse_iff_cut _ _).mp parsed
  obtain ⟨-, parts⟩ := (parsePath_eq_ok _ _ _).mp hpath
  exact ⟨⟨host, hhost⟩, ⟨_, List.splitOn_ne_nil _ _, parts⟩, ⟨tag, htag⟩⟩

theorem ParsedParts.labels (p : Pattern) (known : ParsedParts p) (labels : List GlobPiece)
    (port : Option Text) (host : p.host = .labels labels port) :
    labels ≠ [] ∧ Port port ∧ ∀ piece ∈ labels, LabelPiece piece := by
  obtain ⟨source, parsed⟩ := known.host
  rw [host] at parsed
  rcases parseHost_cases source _ parsed with ⟨_, no, -⟩ | ⟨_, _, same, rest⟩
  · cases no
  · cases same
    exact rest

/-- A cut is the only one. -/
theorem parse_cut_iff (text name : Text) (tag : Option Text) (anyDigest : Bool) (q : Pattern)
    (cut : PatternCut text name tag anyDigest) (slash : '/' ∈ name)
    (fits : byteLen text ≤ maxReferenceLen) :
    Pattern.parse text = .ok q ↔ q.raw = text ∧ q.anyDigest = anyDigest ∧ ∃ host path,
      splitPatternHost name = .ok (host, path) ∧ parseHost host = .ok q.host ∧
      parsePath q.host path = .ok q.path ∧ parseTag tag = .ok q.tag := by
  have nonempty : name ≠ [] := by
    rintro rfl
    cases slash
  have body := PatternCut.cutAnyDigest _ _ _ _ cut
  have split := PatternCut.splitTag _ _ _ _ cut nonempty
  rw [patternParse_iff_cut]
  constructor
  · intro given
    obtain ⟨-, raw, name', tag', host, path, cut', nonempty', -, -, hsplit, hhost, hpath, htag⟩ := given
    have body' := PatternCut.cutAnyDigest _ _ _ _ cut'
    have split' := PatternCut.splitTag _ _ _ _ cut' nonempty'
    rw [body, Prod.mk.injEq] at body'
    rw [← body'.1, split] at split'
    cases split'
    exact ⟨raw, body'.2.symm, host, path, hsplit, hhost, hpath, htag⟩
  · rintro ⟨raw, rfl, host, path, hsplit, hhost, hpath, htag⟩
    have slashed : '/' ∈ name ++ tagText tag := by simp [slash]
    refine ⟨fits, raw, name, tag, host, path, cut, nonempty, ?_, ?_, hsplit, hhost, hpath, htag⟩
    · intro star
      rw [star] at slashed
      exact absurd slashed (by decide)
    · intro star
      rw [star] at slashed
      exact absurd slashed (by decide)

/-- The characters of a printed host. -/
theorem renderHost_chars (values : VariableValues) (source : Option Text) (pattern : HostPattern)
    (host : Text) (parsed : parseHost source = .ok pattern)
    (rendered : renderHost values pattern = some host) :
    host ≠ [] ∧ ∀ c ∈ host, isComponentChar c = true ∨ c = '*' ∨ c = ':' := by
  rcases parseHost_cases source pattern parsed with ⟨suffix, rfl, valid⟩ |
    ⟨labels, port, rfl, some_, numeric, pieces⟩
  · cases rendered
    refine ⟨by simp, ?_⟩
    intro c member
    simp only [List.mem_cons] at member
    rcases member with rfl | rfl | inside
    · simp
    · exact Or.inl (by decide)
    · rcases HostName.chars suffix valid c inside with label | rfl
      · exact Or.inl (isHostLabelChar_component c label).1
      · exact Or.inl (by decide)
  · obtain ⟨texts, parts, rfl⟩ := (renderHost_labels _ _ _ _).mp rendered
    have components := rendered_labels values labels texts pieces parts
    have chars := printedName_chars texts components
    have last := printedName_last texts (rendered_ne_nil values labels texts parts some_) components
    constructor
    · intro empty
      have name : ['.'].intercalate texts = [] := by
        cases port with
        | none => exact empty
        | some port => simp [joinPort] at empty
      simp [name] at last
    · intro c member
      cases port with
      | none => exact Or.inl (chars c member)
      | some port =>
        simp only [joinPort, List.mem_append, List.mem_cons] at member
        rcases member with inside | rfl | inside
        · exact Or.inl (chars c inside)
        · simp
        · refine Or.inl ?_
          simp [isComponentChar, (numeric port rfl).2 c inside]

theorem isLegalPatternChar_of_component (c : Char) (h : isComponentChar c = true) :
    isLegalPatternChar c = true := by
  simp only [isComponentChar, Bool.or_eq_true, List.contains_eq_mem, List.mem_cons, List.not_mem_nil,
    or_false, decide_eq_true_eq] at h
  rcases h with (lower | digit) | rfl | rfl | rfl
  · simp [isLegalPatternChar, Char.isAlphanum, isAlpha_iff, lower]
  · simp [isLegalPatternChar, Char.isAlphanum, digit]
  · decide
  · decide
  · decide

theorem isLegalPatternChar_of_tag (c : Char) (h : isTagChar c = true) : isLegalPatternChar c = true := by
  simp only [isTagChar, Bool.or_eq_true, List.contains_eq_mem, List.mem_cons, List.not_mem_nil,
    or_false, decide_eq_true_eq] at h
  rcases h with alnum | rfl | rfl | rfl
  · simp [isLegalPatternChar, alnum]
  · decide
  · decide
  · decide

/-- The characters of printed segments, joined. -/
theorem printedPath_chars (segments : List Text)
    (chars : ∀ text ∈ segments, ∀ c ∈ text, isComponentChar c = true ∨ c = '*') :
    ∀ c ∈ ['/'].intercalate segments, isComponentChar c = true ∨ c = '*' ∨ c = '/' := by
  induction segments with
  | nil => simp
  | cons text segments ih =>
    have here : ∀ c ∈ text, isComponentChar c = true ∨ c = '*' ∨ c = '/' := by
      intro c member
      rcases chars text (by simp) c member with component | star
      · exact Or.inl component
      · exact Or.inr (Or.inl star)
    cases segments with
    | nil => simpa using here
    | cons next segments =>
      have there := ih (fun other inside => chars other (by simp [inside]))
      intro c member
      rw [List.intercalate_cons_cons, List.append_assoc, List.mem_append, List.mem_append,
        List.mem_singleton] at member
      rcases member with inside | rfl | inside
      · exact here c inside
      · simp
      · exact there c inside

section PrintedText
variable (values : VariableValues) (p : Pattern) (host : Text) (segments : List Text) (tag : Option Text)
  (known : ParsedParts p) (parts : PrintedParts values p host segments tag)
include known parts

theorem printedSegments_chars : ∀ text ∈ segments,
    text ≠ [] ∧ ∀ c ∈ text, isComponentChar c = true ∨ c = '*' := by
  obtain ⟨sources, -, parsed⟩ := known.path
  intro text member
  obtain ⟨segment, inside, rendered⟩ := forall₂_mem_right _ _ _ parts.path text member
  obtain ⟨source, -, one⟩ := forall₂_mem_right _ _ _ parsed segment inside
  exact renderSegment_chars values source text segment one rendered

theorem printedSegments_ne_nil : segments ≠ [] := by
  obtain ⟨sources, some_, parsed⟩ := known.path
  intro empty
  have rendered := parts.path.length_eq
  have sized := parsed.length_eq
  rw [empty] at rendered
  have := List.length_pos_of_ne_nil some_
  simp only [List.length_nil] at rendered
  omega

/-- Splitting the printed path gives the printed segments. -/
theorem printedPath_splitOn : (['/'].intercalate segments).splitOn '/' = segments := by
  apply List.splitOn_intercalate
  · intro text member slash
    rcases (printedSegments_chars values p host segments tag known parts text member).2 _ slash with
      component | star
    · exact absurd component (by decide)
    · exact absurd star (by decide)
  · exact printedSegments_ne_nil values p host segments tag known parts

theorem printedPath_ne_nil : ['/'].intercalate segments ≠ [] := by
  intro empty
  have split := printedPath_splitOn values p host segments tag known parts
  rw [empty] at split
  have nonempty := (printedSegments_chars values p host segments tag known parts [] (by
    rw [← split]
    simp)).1
  exact nonempty rfl

theorem printedTag_chars : ∀ text ∈ tag, text ≠ [] ∧ ∀ c ∈ text, isTagChar c = true ∨ c = '*' := by
  obtain ⟨source, parsed⟩ := known.tag
  intro text member
  obtain ⟨written, -⟩ := renderTag_written values source tag p.tag parsed parts.tag text member
  exact ⟨written.nonempty, written.chars⟩

theorem printedHost_chars : host ≠ [] ∧ ∀ c ∈ host, isComponentChar c = true ∨ c = '*' ∨ c = ':' := by
  obtain ⟨source, parsed⟩ := known.host
  exact renderHost_chars values source p.host host parsed parts.host

theorem printedHost_absent : '/' ∉ host ∧ '@' ∉ host := by
  have chars := (printedHost_chars values p host segments tag known parts).2
  constructor
  all_goals
    intro member
    rcases chars _ member with component | star | colon
    · exact absurd component (by decide)
    · exact absurd star (by decide)
    · exact absurd colon (by decide)

theorem printed_cut (text : Text) (whole : text =
      host ++ '/' :: ['/'].intercalate segments ++ tagText tag ++ optInText p.anyDigest) :
    PatternCut text (host ++ '/' :: ['/'].intercalate segments) tag p.anyDigest := by
  have hostChars := (printedHost_chars values p host segments tag known parts).2
  have pathChars := printedPath_chars segments fun segment member =>
    (printedSegments_chars values p host segments tag known parts segment member).2
  have tagChars := printedTag_chars values p host segments tag known parts
  have chars : ∀ c ∈ host ++ '/' :: ['/'].intercalate segments ++ tagText tag,
      (isComponentChar c = true ∨ isTagChar c = true) ∨ c = '*' ∨ c = ':' ∨ c = '/' := by
    intro c member
    simp only [List.mem_append, List.mem_cons] at member
    rcases member with (inHost | rfl | inPath) | inTag
    · rcases hostChars c inHost with component | star | colon
      · exact Or.inl (Or.inl component)
      · exact Or.inr (Or.inl star)
      · exact Or.inr (Or.inr (Or.inl colon))
    · simp
    · rcases pathChars c inPath with component | star | slash
      · exact Or.inl (Or.inl component)
      · exact Or.inr (Or.inl star)
      · exact Or.inr (Or.inr (Or.inr slash))
    · cases tag with
      | none => cases inTag
      | some tag =>
        rcases List.mem_cons.mp inTag with rfl | inside
        · simp
        · rcases (tagChars tag rfl).2 c inside with run | star
          · exact Or.inl (Or.inr run)
          · exact Or.inr (Or.inl star)
  refine ⟨whole, ?_, ?_, ?_, ?_⟩
  · intro member
    rcases chars _ member with (component | run) | star | colon | slash
    · exact absurd component (by decide)
    · exact absurd run (by decide)
    · exact absurd star (by decide)
    · exact absurd colon (by decide)
    · exact absurd slash (by decide)
  · intro c member
    rcases chars c member with (component | run) | rfl | rfl | rfl
    · exact isLegalPatternChar_of_component c component
    · exact isLegalPatternChar_of_tag c run
    · decide
    · decide
    · decide
  · intro _ colon
    rw [finalSegment_after] at colon
    rcases pathChars _ (finalSegment_mem _ _ colon) with component | star | slash
    · exact absurd component (by decide)
    · exact absurd star (by decide)
    · exact absurd slash (by decide)
  · intro version member
    obtain ⟨some_, inside⟩ := tagChars version member
    refine ⟨?_, ?_, some_⟩
    all_goals
      intro isIn
      rcases inside _ isIn with run | star
      · exact absurd run (by decide)
      · exact absurd star (by decide)

/-- A host that looks like one is read as the host, any other as a path component. -/
theorem printed_splitPatternHost :
    splitPatternHost (host ++ '/' :: ['/'].intercalate segments) =
      if isPatternHost host then .ok (some host, ['/'].intercalate segments)
      else .ok (none, host ++ '/' :: ['/'].intercalate segments) := by
  have noSlash := (printedHost_absent values p host segments tag known parts).1
  have some_ := (printedHost_chars values p host segments tag known parts).1
  have path := printedPath_ne_nil values p host segments tag known parts
  unfold splitPatternHost
  rw [splitOnce_append _ _ _ noSlash]
  simp [some_, path]

/-- The printed text with a host that looks like one, read back part by part. -/
theorem printed_parse_hosted (text : Text) (whole : text =
      host ++ '/' :: ['/'].intercalate segments ++ tagText tag ++ optInText p.anyDigest)
    (fits : byteLen text ≤ maxReferenceLen) (explicit : isPatternHost host = true)
    (apart : parseHost (some host) ≠ .ok (.labels [.literal defaultHost] none)) (q : Pattern) :
    Pattern.parse text = .ok q ↔ q.raw = text ∧ q.anyDigest = p.anyDigest ∧
      parseHost (some host) = .ok q.host ∧
      List.Forall₂ (fun text segment => parseSegment text = .ok segment) segments q.path ∧
      parseTag tag = .ok q.tag := by
  rw [parse_cut_iff text _ tag p.anyDigest q
    (printed_cut values p host segments tag known parts text whole) (by simp) fits,
    printed_splitPatternHost values p host segments tag known parts, if_pos explicit]
  have split := printedPath_splitOn values p host segments tag known parts
  have some_ := printedPath_ne_nil values p host segments tag known parts
  have path : parseHost (some host) = .ok q.host →
      (parsePath q.host (['/'].intercalate segments) = .ok q.path ↔
        List.Forall₂ (fun text segment => parseSegment text = .ok segment) segments q.path) := by
    intro hhost
    have other : q.host ≠ .labels [.literal defaultHost] none := by
      intro same
      rw [same] at hhost
      exact apart hhost
    rw [parsePath_eq_ok, if_neg (fun both => other both.1), split]
    exact ⟨fun h => h.2, fun h => ⟨some_, h⟩⟩
  constructor
  · rintro ⟨raw, any, _, _, ⟨⟩, hhost, hpath, htag⟩
    exact ⟨raw, any, hhost, (path hhost).mp hpath, htag⟩
  · intro given
    obtain ⟨raw, any, hhost, hpath, htag⟩ := given
    exact ⟨raw, any, _, _, rfl, hhost, (path hhost).mpr hpath, htag⟩

/-- The printed text with a host that looks like none: its host is one more segment. -/
theorem printed_parse_bare (text : Text) (whole : text =
      host ++ '/' :: ['/'].intercalate segments ++ tagText tag ++ optInText p.anyDigest)
    (fits : byteLen text ≤ maxReferenceLen) (bare : isPatternHost host = false) (q : Pattern) :
    Pattern.parse text = .ok q ↔ q.raw = text ∧ q.anyDigest = p.anyDigest ∧
      q.host = .labels [.literal defaultHost] none ∧
      List.Forall₂ (fun text segment => parseSegment text = .ok segment) (host :: segments) q.path ∧
      parseTag tag = .ok q.tag := by
  rw [parse_cut_iff text _ tag p.anyDigest q
    (printed_cut values p host segments tag known parts text whole) (by simp) fits,
    printed_splitPatternHost values p host segments tag known parts, bare]
  simp only [Bool.false_eq_true, if_false]
  have noSlash := (printedHost_absent values p host segments tag known parts).1
  have split : (host ++ '/' :: ['/'].intercalate segments).splitOn '/' = host :: segments := by
    rw [splitOn_append _ _ _ noSlash, printedPath_splitOn values p host segments tag known parts]
  have path : parsePath q.host (host ++ '/' :: ['/'].intercalate segments) = .ok q.path ↔
      List.Forall₂ (fun text segment => parseSegment text = .ok segment) (host :: segments) q.path := by
    rw [parsePath_eq_ok, if_neg (fun both => both.2 (by simp)), split]
    exact ⟨fun h => h.2, fun h => ⟨by simp, h⟩⟩
  constructor
  · rintro ⟨raw, any, _, _, ⟨⟩, hhost, hpath, htag⟩
    exact ⟨raw, any, (Except.ok.inj hhost).symm, path.mp hpath, htag⟩
  · intro given
    obtain ⟨raw, any, hhost, hpath, htag⟩ := given
    exact ⟨raw, any, _, _, rfl, by rw [hhost]; rfl, path.mpr hpath, htag⟩

end PrintedText

end WeeboSi.ImagePolicy
