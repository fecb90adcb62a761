import WeeboSi.ImagePolicy.Enforced

/-!
# Printed patterns against enforced ones

Source: crates/weebo-si-image-policy/src/pattern.rs:195-255, reference.rs:372-391. A host
of one label is enforced on references that write it with a trailing dot, but printed
without it, so the printed text is read as a Docker Hub path. How short such a reference
can be decides whether the pattern matches any. The main result says exactly when what is
printed is what is enforced.
-/
namespace WeeboSi.ImagePolicy
open WeeboSi.Lib

/-! ## The shortest reference on a one-label host -/

/-- The shortest path that meets the printed segments, each component with its slash. -/
def shortestPath (segments : List Text) : Nat :=
  (segments.map fun text => 1 + shortest '*' isComponentEdge text).sum

/-- The shortest version that is accepted, without digests: none where the default tag is
accepted, or a tag with its colon. -/
def shortestVersion (values : VariableValues) (p : Pattern) (tag : Option Text) : Nat :=
  if p.matchesTag (some defaultTag) values then 0 else 1 + shortestTag (tag.getD [])

/-- Every reference text that would match on the host `label` is too long to be one. -/
def NoRoom (values : VariableValues) (p : Pattern) (label : Text) : Prop :=
  p.anyDigest = false ∧ ∃ segments tag,
    List.Forall₂ (fun segment text => renderSegment values segment = some text) p.path segments ∧
    renderTag values p.tag = some tag ∧
    maxReferenceLen < label.length + 1 + shortestPath segments + shortestVersion values p tag

theorem intercalate_length (components : List Text) (some_ : components ≠ []) :
    1 + (['/'].intercalate components).length = (components.map fun text => 1 + text.length).sum := by
  induction components with
  | nil => exact absurd rfl some_
  | cons text components ih =>
    cases components with
    | nil => simp
    | cons next components =>
      have rest := ih (by simp)
      rw [List.intercalate_cons_cons, List.map_cons, List.sum_cons, ← rest]
      simp only [List.length_append, List.length_singleton]
      omega

/-- What a printed segment asks for is no shorter than its shortest instance. -/
theorem shortest_le_block (values : VariableValues) (source text : Text) (segment : PathSegment)
    (block : List Text) (parsed : parseSegment source = .ok segment)
    (rendered : renderSegment values segment = some text)
    (legal : ∀ component ∈ block, edged isComponentEdge isComponentChar component = true)
    (meaning : SegmentBlock values segment block) :
    1 + shortest '*' isComponentEdge text ≤ (block.map fun text => 1 + text.length).sum := by
  rcases (parseSegment_eq_ok _ _).mp parsed with ⟨-, rfl⟩ | ⟨-, pieces, hpieces, rfl⟩
  · cases rendered
    cases block with
    | nil => cases meaning
    | cons component block =>
      have one : shortest '*' isComponentEdge ['*', '*'] = 1 := by decide
      have size := List.length_pos_of_ne_nil (edged_ne_nil _ _ _ (legal component (by simp)))
      rw [one, List.map_cons, List.sum_cons]
      omega
  · obtain ⟨component, rfl, spelt⟩ := meaning
    rw [rendered_wild .pathSegment source text pieces values hpieces rendered] at spelt
    obtain ⟨⟨c, first, firstEdge⟩, ⟨d, last, lastEdge⟩, -⟩ :=
      (edged_iff _ _ _).mp (legal component (by simp))
    have bound := shortest_le '*' isComponentEdge text component spelt (by simpa [first] using firstEdge)
      (by simpa [last] using lastEdge)
    simp only [List.map_cons, List.map_nil, List.sum_cons, List.sum_nil]
    omega

theorem shortestPath_le (values : VariableValues) (sources : List Text) (path : List PathSegment)
    (segments components : List Text)
    (parsed : List.Forall₂ (fun text segment => parseSegment text = .ok segment) sources path)
    (rendered : List.Forall₂ (fun segment text => renderSegment values segment = some text) path segments)
    (legal : ∀ component ∈ components, edged isComponentEdge isComponentChar component = true)
    (meaning : PathMeaning values path components) :
    shortestPath segments ≤ (components.map fun text => 1 + text.length).sum := by
  obtain ⟨blocks, taken, rfl⟩ := meaning
  induction parsed generalizing segments blocks with
  | nil =>
    cases rendered
    simp [shortestPath]
  | cons one _ ih =>
    cases rendered with
    | cons here there =>
      cases taken with
      | @cons _ block _ blocks first rest =>
        rw [List.flatten_cons] at legal
        have bound := shortest_le_block values _ _ _ block one here
          (fun component member => legal component (List.mem_append_left _ member)) first
        have more := ih _ there blocks rest
          (fun component member => legal component (List.mem_append_right _ member))
        simp only [shortestPath, List.map_cons, List.sum_cons, List.flatten_cons, List.map_append,
          List.sum_append] at more ⊢
        omega

/-- The path of shortest components. -/
def shortestComponents (segments : List Text) : List Text :=
  segments.map (shortestText '*' isComponentEdge 'a')

theorem shortestComponents_length (segments : List Text) :
    ((shortestComponents segments).map fun text => 1 + text.length).sum = shortestPath segments := by
  simp [shortestComponents, shortestPath, Function.comp_def, shortestText_length]

section ShortestSegment
variable (values : VariableValues) (source text : Text) (segment : PathSegment)
  (parsed : parseSegment source = .ok segment) (rendered : renderSegment values segment = some text)
include parsed rendered

theorem shortestText_legal :
    edged isComponentEdge isComponentChar (shortestText '*' isComponentEdge 'a' text) = true := by
  have chars := (renderSegment_chars values source text segment parsed rendered).2
  simp only [edged, Bool.and_eq_true, List.all_eq_true]
  refine ⟨⟨shortestText_head '*' _ 'a' (by decide) text, shortestText_last '*' _ 'a' (by decide) text⟩, ?_⟩
  intro c member
  rcases shortestText_mem '*' isComponentEdge 'a' text c member with rfl | ⟨inside, noStar⟩
  · decide
  · exact (chars c inside).resolve_right noStar

theorem shortestText_block : SegmentBlock values segment [shortestText '*' isComponentEdge 'a' text] := by
  rcases (parseSegment_eq_ok _ _).mp parsed with ⟨-, rfl⟩ | ⟨-, pieces, hpieces, rfl⟩
  · exact Nat.le_refl 1
  · refine ⟨_, rfl, ?_⟩
    have written := writtenRun .pathSegment values source text pieces hpieces rendered
    rw [rendered_wild .pathSegment source text pieces values hpieces rendered]
    exact shortestText_wild '*' isComponentEdge 'a' text written.nonempty written.opens (written.closes rfl)

theorem shortest_le_text : shortest '*' isComponentEdge text ≤ text.length := by
  rcases (parseSegment_eq_ok _ _).mp parsed with ⟨-, rfl⟩ | ⟨-, pieces, hpieces, rfl⟩
  · cases rendered
    decide
  · have written := writtenRun .pathSegment values source text pieces hpieces rendered
    exact shortest_le_length '*' isComponentEdge 'a' (by decide) text written.opens (written.closes rfl)

end ShortestSegment

section ShortestPath
variable (values : VariableValues) (sources : List Text) (path : List PathSegment) (segments : List Text)
  (parsed : List.Forall₂ (fun text segment => parseSegment text = .ok segment) sources path)
  (rendered : List.Forall₂ (fun segment text => renderSegment values segment = some text) path segments)
include parsed rendered

theorem shortestComponents_legal : ∀ component ∈ shortestComponents segments,
    edged isComponentEdge isComponentChar component = true := by
  intro component member
  obtain ⟨text, inside, rfl⟩ := List.mem_map.mp member
  obtain ⟨segment, isIn, one⟩ := forall₂_mem_right _ _ _ rendered text inside
  obtain ⟨source, -, read⟩ := forall₂_mem_right _ _ _ parsed segment isIn
  exact shortestText_legal values source text segment read one

theorem shortestComponents_meaning : PathMeaning values path (shortestComponents segments) := by
  induction parsed generalizing segments with
  | nil =>
    cases rendered
    exact ⟨[], .nil, rfl⟩
  | cons one _ ih =>
    cases rendered with
    | cons here there =>
      obtain ⟨blocks, taken, components⟩ := ih _ there
      have first := shortestText_block values _ _ _ one here
      exact ⟨_ :: blocks, .cons first taken, by rw [List.flatten_cons, ← components]; rfl⟩

theorem shortestPath_le_printed :
    shortestPath segments ≤ (segments.map fun text => 1 + text.length).sum := by
  apply List.sum_le_sum
  intro text member
  obtain ⟨segment, isIn, one⟩ := forall₂_mem_right _ _ _ rendered text member
  obtain ⟨source, -, read⟩ := forall₂_mem_right _ _ _ parsed segment isIn
  have bound := shortest_le_text values source text segment read one
  omega

theorem shortestComponents_split (some_ : shortestComponents segments ≠ []) :
    (['/'].intercalate (shortestComponents segments)).splitOn '/' = shortestComponents segments := by
  have components := shortestComponents_legal values sources path segments parsed rendered
  apply List.splitOn_intercalate _ _ some_
  intro component member slash
  exact absurd (((edged_iff _ _ _).mp (components component member)).2.2 _ slash) (by decide)

theorem shortestComponents_shape (some_ : shortestComponents segments ≠ []) :
    PathShape (['/'].intercalate (shortestComponents segments)) := by
  unfold PathShape
  rw [shortestComponents_split values sources path segments parsed rendered some_]
  exact shortestComponents_legal values sources path segments parsed rendered

end ShortestPath

/-! ## References on a one-label host -/

theorem normalizeHost_trailing_dot (label normal : Text) (noColon : ':' ∉ label) :
    normalizeHost (some (label ++ ['.'])) = .ok normal ↔
      HostName (label.map Char.toLower) ∧ normal = label.map Char.toLower := by
  have lowered : (label ++ ['.']).map Char.toLower = label.map Char.toLower ++ ['.'] := by simp
  have cut : cutPort ((label ++ ['.']).map Char.toLower) = (label.map Char.toLower ++ ['.'], none) := by
    refine (cutPort_eq _ _ _).mpr ⟨by rw [lowered]; rfl, by simp, ?_⟩
    intro _ colon
    rw [← lowered, mem_map_toLower _ _ (by decide)] at colon
    simp [noColon] at colon
  rw [normalizeHost_eq_ok, cut]
  constructor
  · rintro ⟨name, port, same, valid, -, rfl⟩
    cases same
    rw [stripLast_append] at valid ⊢
    exact ⟨valid, rfl⟩
  · intro given
    obtain ⟨valid, whole⟩ := given
    exact ⟨_, none, rfl, by rwa [stripLast_append], by simp [Port], by rw [stripLast_append]; exact whole⟩

/-- How long a reference text with a one-label host is at least. -/
theorem bare_reference_length (raw : Text) (r : ImageReference)
    (reference : ImageReference.parse raw = .ok r) (bare : isHostComponent r.host = false) :
    r.host.length + 2 + r.path.length ≤ raw.length ∧
      (r.tag = none ∨ r.tag = some defaultTag ∨
        ∃ t, r.tag = some t ∧ r.host.length + 2 + r.path.length + (1 + t.length) ≤ raw.length) := by
  obtain ⟨-, -, -, nameAndTag, name, tag, host, path, hdigest, htag, hsplit, hhost, hpath, -, kept⟩ :=
    (parse_eq_ok raw r).mp reference
  have offHub : r.host ≠ defaultHost := by
    intro onHub
    rw [onHub] at bare
    exact absurd bare (by decide)
  have named : name.length = r.host.length + 2 + r.path.length := by
    rcases (splitHost_eq_ok _ _ _).mp hsplit with ⟨none, -, -⟩ | ⟨first, rest, whole, -, -, -, kind⟩
    · rw [none] at hhost
      exact absurd (normalizeHost_hub _ hhost) offHub
    · rcases kind with ⟨explicit, some_, samePath⟩ | ⟨-, none, -⟩
      · rw [some_] at hhost
        obtain ⟨label, dotted, -, noColon, -⟩ := (normalizeHost_bare_iff first r.host hhost explicit).mp bare
        rw [dotted] at hhost
        obtain ⟨-, lower⟩ := (normalizeHost_trailing_dot label r.host noColon).mp hhost
        obtain ⟨-, normal⟩ := (normalizePath_eq_ok _ _ _).mp hpath
        rw [if_neg (fun both => offHub both.1)] at normal
        rw [whole, dotted, lower, normal, samePath]
        simp only [List.length_append, List.length_cons, List.length_nil, List.length_map]
        omega
      · rw [none] at hhost
        exact absurd (normalizeHost_hub _ hhost) offHub
  have tagged : ∃ version, nameAndTag = name ++ version ∧ (tag = none ∨ ∃ t, tag = some t ∧
      version.length = 1 + t.length) := by
    rcases (splitTag_eq_ok _ _ _).mp htag with ⟨none, same, -⟩ | ⟨t, some_, whole, -⟩
    · exact ⟨[], by simp [same], Or.inl none⟩
    · exact ⟨':' :: t, whole, Or.inr ⟨t, some_, by simp [Nat.add_comm]⟩⟩
  obtain ⟨version, rfl, versioned⟩ := tagged
  rcases (splitDigest_eq_ok _ _ _).mp hdigest with ⟨none, same, -⟩ | ⟨d, some_, whole, -⟩
  · rw [← same, List.length_append, named]
    refine ⟨by omega, Or.inr ?_⟩
    rw [kept, none]
    rcases versioned with none | ⟨t, some_, size⟩
    · exact Or.inl (by simp [keptTag, none])
    · exact Or.inr ⟨t, by simp [keptTag, some_], by omega⟩
  · rw [whole, List.length_append, List.length_append, named]
    refine ⟨by omega, Or.inl ?_⟩
    rw [kept, some_]
    rfl

section Version
variable (values : VariableValues) (p q : Pattern) (tag : Option Text)
  (same : ∀ actual, q.matchesTag actual .new = p.matchesTag actual values)
  (back : parseTag tag = .ok q.tag)
include same back

/-- A pattern that refuses the default tag has a constraint, which was printed. -/
theorem constraint_of_refused (refused : p.matchesTag (some defaultTag) values = false) :
    ∃ text pieces, tag = some text ∧ q.tag = some pieces ∧ parseGlob text .tag = .ok pieces := by
  rcases (parseTag_eq_ok _ _).mp back with ⟨-, none⟩ | ⟨text, pieces, printed, some_, hpieces⟩
  · rw [← same] at refused
    simp [Pattern.matchesTag, none] at refused
  · exact ⟨text, pieces, printed, some_, hpieces⟩

theorem shortestVersion_le (actual : Text) (valid : isTag actual = true)
    (accepted : p.matchesTag (some actual) values = true) :
    shortestVersion values p tag ≤ 1 + actual.length := by
  unfold shortestVersion
  split
  · omega
  · rename_i refused
    obtain ⟨text, pieces, rfl, some_, hpieces⟩ :=
      constraint_of_refused values p q tag same back (by simpa using refused)
    rw [← same, Pattern.matchesTag, some_] at accepted
    have meets := (matchesGlob_iff _ _ _ (parseGlob_solid _ _ _ hpieces)).mp accepted
    have short := shortestTag_le .new text actual pieces hpieces valid meets
    simp only [Option.getD_some]
    omega

/-- A version within reach that is as short as any, or at least no longer than the printed
constraint where digests are opted in. -/
theorem shortest_version (any : q.anyDigest = p.anyDigest)
    (closed : ∀ name, .var name ∉ q.tag.getD [])
    (rendered : renderTag values p.tag = some tag) (reach : ¬ TagUnreachable values p) :
    ∃ tag' digest, (∀ t ∈ tag', isTag t = true) ∧ (∀ d ∈ digest, validateDigest d = .ok ()) ∧
      p.matchesTag (keptTag digest tag') values = true ∧
      (p.anyDigest = false →
        (tagText tag' ++ digestText digest).length = shortestVersion values p tag) ∧
      (tagText tag' ++ digestText digest).length ≤ (tagText tag).length := by
  cases accepted : p.matchesTag (some defaultTag) values with
  | true =>
    refine ⟨none, none, by simp, by simp, accepted, ?_, by simp [tagText, digestText]⟩
    intro _
    simp [shortestVersion, accepted, tagText, digestText]
  | false =>
    obtain ⟨text, pieces, rfl, some_, hpieces⟩ := constraint_of_refused values p q tag same back accepted
    have filled : (fillTag pieces).length = shortestTag text := by
      obtain ⟨-, good, rfl, -⟩ := parseGlob_spec _ _ _ hpieces
      exact (shortestTag_eq pieces good).symm
    have shorter := fillTag_length text pieces hpieces
    by_cases short : shortestTag text ≤ 128
    · refine ⟨some (fillTag pieces), none, ?_, by simp, ?_, ?_, ?_⟩
      · rintro _ ⟨⟩
        exact fillTag_valid text pieces hpieces short
      · rw [← same, keptTag, Option.getD_some, Pattern.matchesTag, some_]
        refine (matchesGlob_iff _ _ _ (parseGlob_solid _ _ _ hpieces)).mpr ?_
        apply concatenation_fillTag .new text pieces hpieces
        intro name member
        rw [some_] at closed
        exact absurd member (closed name)
      · intro _
        simp [shortestVersion, accepted, tagText, digestText, filled, Nat.add_comm]
      · simp only [tagText, digestText, List.append_nil, List.length_cons]
        omega
    · -- no tag will do, so the pattern opted into digests
      have opted : p.anyDigest = true := by
        by_contra no
        apply reach
        exact ⟨by simpa using no, text, rendered, by omega⟩
      refine ⟨none, some someDigest, by simp, ?_, ?_, ?_, ?_⟩
      · rintro _ ⟨⟩
        decide
      · rw [← same, keptTag, Pattern.matchesTag, some_, any]
        exact opted
      · intro no
        rw [opted] at no
        cases no
      · have digest : (tagText none ++ digestText (some someDigest)).length = 35 := by decide
        rw [digest]
        simp only [tagText, List.length_cons]
        omega

end Version

/-- A legal label is a host, and is read from itself with a trailing dot. -/
theorem label_dotted (label : Text) (noDot : '.' ∉ label) (noColon : ':' ∉ label)
    (legal : edged Char.isAlphanum isHostLabelChar label = true) :
    HostShape label ∧ normalizeHost (some (label ++ ['.'])) = .ok label := by
  have single : HostName label := by
    intro part member
    rw [List.splitOn_eq_singleton noDot, List.mem_singleton] at member
    rw [member]
    exact legal
  have lowered : label.map Char.toLower = label :=
    map_toLower_of_fixed label fun c member =>
      isHostLabelChar_lower c (((edged_iff _ _ _).mp legal).2.2 c member)
  refine ⟨⟨label, none, rfl, single, by simp [Port]⟩, ?_⟩
  rw [normalizeHost_trailing_dot label label noColon, lowered]
  exact ⟨single, rfl⟩

section Bare
variable (values : VariableValues) (p q : Pattern) (label : Text) (labels : List GlobPiece)
  (segments : List Text) (tag : Option Text) (known : ParsedParts p)
  (parts : PrintedParts values p label segments tag) (host : p.host = .labels labels none)
  (rendered : Rendered values labels [label]) (bare : isHostComponent label = false)
include known host rendered bare

theorem bare_matchesHost (actual : Text) (shape : HostShape actual) :
    p.matchesHost actual values = true ↔ actual = label := by
  obtain ⟨noDot, noColon, -⟩ := (isHostComponent_eq_false label).mp bare
  obtain ⟨-, -, pieces⟩ := ParsedParts.labels p known labels none host
  rw [matchesHost_iff _ _ _ shape, host]
  constructor
  · intro given
    obtain ⟨name, -, whole, asked⟩ := given
    rw [labelMeaning_iff values labels [label] pieces rendered] at asked
    have joined : ['.'].intercalate (name.splitOn '.') = name := List.intercalate_splitOn '.'
    rw [asked] at joined
    rw [whole, joinPort, ← joined]
    simp
  · rintro rfl
    refine ⟨actual, noColon, rfl, ?_⟩
    rw [labelMeaning_iff values labels [actual] pieces rendered]
    exact List.splitOn_eq_singleton noDot

include parts

/-- Without room for a reference the pattern matches none. -/
theorem noRoom_matches_nothing (same : SameParts values p q) (back : parseTag tag = .ok q.tag)
    (room : NoRoom values p label) (raw : Text) (r : ImageReference)
    (reference : ImageReference.parse raw = .ok r) : p.matchesReference r values = false := by
  obtain ⟨no, segments', tag', hpath, htag, long⟩ := room
  have samePath : segments' = segments := by
    have one := (mapM_eq_some (renderSegment values) p.path segments').mpr hpath
    have other := (mapM_eq_some (renderSegment values) p.path segments).mpr parts.path
    rw [one] at other
    exact Option.some.inj other
  rw [parts.tag, Option.some.injEq] at htag
  subst samePath htag
  obtain ⟨sources, -, parsed⟩ := known.path
  have normal := parse_normal raw r reference
  rw [← Bool.not_eq_true, matchesReference_of_bound p r values
    (printed_bound values p label segments' tag parts)]
  simp only [Bool.and_eq_true, not_and]
  intro given accepted
  obtain ⟨hhost, matchedPath⟩ := given
  have onLabel := (bare_matchesHost values p label labels known host rendered bare r.host normal.host).mp hhost
  obtain ⟨least, version⟩ := bare_reference_length raw r reference (by rw [onLabel]; exact bare)
  have meaning := (matchesPath_iff _ _ _ (parsedSegments_solid _ _ parsed)).mp matchedPath
  have bound := shortestPath_le values sources p.path segments' r.pathComponents parsed parts.path
    normal.path meaning
  have joined : ['/'].intercalate r.pathComponents = r.path := List.intercalate_splitOn '/'
  have some_ : r.pathComponents ≠ [] := List.splitOn_ne_nil _ _
  rw [← intercalate_length _ some_, joined] at bound
  have bytes := length_le_byteLen raw
  have fits := ((parse_eq_ok raw r).mp reference).2.1
  rw [onLabel] at least version
  have free : p.matchesTag (some defaultTag) values = true → False := by
    intro default
    rw [shortestVersion, if_pos default] at long
    omega
  rcases version with none | default | ⟨actual, some_, most⟩
  · -- only a pattern without a constraint accepts a digest it did not opt into
    apply free
    rw [none] at accepted
    cases constraint : p.tag with
    | none => simp [Pattern.matchesTag, constraint]
    | some pieces => simp [Pattern.matchesTag, constraint, no] at accepted
  · rw [default] at accepted
    exact free accepted
  · rw [some_] at accepted
    have short := shortestVersion_le values p q tag same.tag back actual
      (Normal.tagged r normal actual some_) accepted
    omega

/-- With room, a legal label and a version within reach, the pattern matches a reference
that writes its host with a trailing dot. -/
theorem bare_reaches (text : Text) (whole : text =
      label ++ '/' :: ['/'].intercalate segments ++ tagText tag ++ optInText p.anyDigest)
    (fits : byteLen text ≤ maxReferenceLen) (any : q.anyDigest = p.anyDigest)
    (same : SameParts values p q) (back : parseTag tag = .ok q.tag)
    (legal : edged Char.isAlphanum isHostLabelChar label = true)
    (reach : ¬ TagUnreachable values p) (room : ¬ NoRoom values p label) :
    ∃ raw r, ImageReference.parse raw = .ok r ∧ p.matchesReference r values = true := by
  obtain ⟨sources, -, parsed⟩ := known.path
  obtain ⟨noDot, noColon, -⟩ := (isHostComponent_eq_false label).mp bare
  obtain ⟨tag', digest, tagged, pinned, accepted, exact_, shorter⟩ :=
    shortest_version values p q tag same.tag back any same.closedTag parts.tag reach
  obtain ⟨shape, hhost⟩ := label_dotted label noDot noColon legal
  have some_ : shortestComponents segments ≠ [] := by
    have := printedSegments_ne_nil values p label segments tag known parts
    simpa [shortestComponents] using this
  have split := shortestComponents_split values sources p.path segments parsed parts.path some_
  have pathShape := shortestComponents_shape values sources p.path segments parsed parts.path some_
  have hpath : normalizePath label (['/'].intercalate (shortestComponents segments)) =
      .ok (['/'].intercalate (shortestComponents segments)) := by
    apply normalizePath_fixed _ _ pathShape
    rintro rfl
    exact absurd bare (by decide)
  have free : '/' ∉ label ++ ['.'] ∧ '@' ∉ label ++ ['.'] := by
    obtain ⟨noSlash, noAt⟩ := assemble_host_absent label shape
    simp [noSlash, noAt]
  have legalHost : ∀ c ∈ label ++ ['.'], isLegalReferenceChar c = true := by
    intro c member
    simp only [List.mem_append, List.mem_singleton] at member
    rcases member with inside | rfl
    · exact host_legal label shape c inside
    · decide
  have room_ : byteLen (assemble (label ++ ['.']) (['/'].intercalate (shortestComponents segments)) tag'
      digest) ≤ maxReferenceLen := by
    rw [byteLen_of_ascii _ fun c member => isLegalReferenceChar_ascii c
      (assemble_legal _ _ tag' digest pathShape tagged pinned legalHost c member)]
    simp only [assemble, List.append_assoc, List.length_append, List.length_cons, List.length_nil,
      List.cons_append] at shorter exact_ ⊢
    have path := intercalate_length (shortestComponents segments) some_
    rw [shortestComponents_length] at path
    cases opted : p.anyDigest with
    | false =>
      have version := exact_ opted
      by_contra long
      exact room ⟨opted, segments, tag, parts.path, parts.tag, by omega⟩
    | true =>
      -- the opt-in that was printed leaves room for the dot
      have bytes := length_le_byteLen text
      have printed := shortestPath_le_printed values sources p.path segments parsed parts.path
      rw [← intercalate_length segments (printedSegments_ne_nil values p label segments tag known parts)]
        at printed
      have two : (optInText true).length = 2 := rfl
      have size := congrArg List.length whole
      simp only [opted, List.append_assoc, List.length_append, List.length_cons, List.cons_append] at size
      omega
  have reference := parse_joined (label ++ ['.']) _ tag' digest free pathShape tagged pinned legalHost
    (by simp [isHostComponent]) label _ hhost hpath room_
  refine ⟨_, _, reference, ?_⟩
  rw [matchesReference_of_bound p _ values (printed_bound values p label segments tag parts)]
  simp only [Bool.and_eq_true]
  refine ⟨⟨?_, ?_⟩, accepted⟩
  · exact (bare_matchesHost values p label labels known host rendered bare label shape).mpr rfl
  · rw [matchesPath_iff _ _ _ (parsedSegments_solid _ _ parsed), ImageReference.pathComponents, split]
    exact shortestComponents_meaning values sources p.path segments parsed parts.path

end Bare

/-! ## When what is printed is what is enforced -/

/-- Every label is printed as one label, and together they look like a host. -/
def HostReadsBack (values : VariableValues) : HostPattern → Prop
  | .suffix _ => True
  | .labels labels port => ∃ texts, Rendered values labels texts ∧
      (∀ text ∈ texts, edged Char.isAlphanum isHostLabelChar text = true) ∧
      isPatternHost (joinPort (['.'].intercalate texts) port) = true

/-- The printed host reads back as other labels, on which nothing can be matched: the tag
constraint is out of reach, or a single component is asked for on Docker Hub. -/
def UnmatchedHosted (values : VariableValues) (p : Pattern) (name : Text) (port : Option Text) : Prop :=
  isPatternHost (joinPort name port) = true ∧ HostName name ∧
    (TagUnreachable values p ∨ (joinPort name port = defaultHost ∧ ∃ pieces, p.path = [.glob pieces]))

/-- The printed host is read as a path component, and no reference can match on it: the tag
constraint is out of reach, the label is none, or a matching text would be too long. -/
def UnmatchedBare (values : VariableValues) (p : Pattern) (label : Text) : Prop :=
  isPatternHost label = false ∧ (TagUnreachable values p ∨ '_' ∈ label ∨ NoRoom values p label)

/-- Neither the pattern nor what is read back from its text can match a reference. -/
def NeitherMatches (values : VariableValues) (p : Pattern) : Prop :=
  ∃ labels port texts, p.host = .labels labels port ∧ Rendered values labels texts ∧
    (UnmatchedHosted values p (['.'].intercalate texts) port ∨
      UnmatchedBare values p (joinPort (['.'].intercalate texts) port))

theorem rendered_unique (values : VariableValues) (pieces : List GlobPiece) (texts others : List Text)
    (one : Rendered values pieces texts) (other : Rendered values pieces others) : texts = others := by
  have first := (mapM_eq_some (renderPiece values) pieces texts).mpr one
  have second := (mapM_eq_some (renderPiece values) pieces others).mpr other
  rw [first] at second
  exact Option.some.inj second

section Labelled
variable (values : VariableValues) (p : Pattern) (labels : List GlobPiece) (port : Option Text)
  (texts : List Text) (rendered : Rendered values labels texts)
include rendered

theorem hostReadsBack_iff : HostReadsBack values (.labels labels port) ↔
    (∀ text ∈ texts, edged Char.isAlphanum isHostLabelChar text = true) ∧
      isPatternHost (joinPort (['.'].intercalate texts) port) = true := by
  constructor
  · intro given
    obtain ⟨others, again, both⟩ := given
    rw [rendered_unique values labels texts others rendered again]
    exact both
  · intro both
    exact ⟨texts, rendered, both⟩

theorem neitherMatches_iff (labelled : p.host = .labels labels port) : NeitherMatches values p ↔
    UnmatchedHosted values p (['.'].intercalate texts) port ∨
      UnmatchedBare values p (joinPort (['.'].intercalate texts) port) := by
  constructor
  · intro given
    obtain ⟨labels', port', others, labelled', again, either⟩ := given
    rw [labelled] at labelled'
    cases labelled'
    rw [rendered_unique values labels texts others rendered again]
    exact either
  · intro either
    exact ⟨labels, port, texts, labelled, rendered, either⟩

/-- Labels that are printed as labels ask for the same hosts when read back. -/
theorem hostMeaning_reads_back (pieces : ∀ piece ∈ labels, LabelPiece piece)
    (legal : ∀ text ∈ texts, edged Char.isAlphanum isHostLabelChar text = true) (host : Text) :
    HostMeaning .new (.labels (texts.map .literal) port) host ↔
      HostMeaning values (.labels labels port) host := by
  have literals : ∀ piece ∈ texts.map GlobPiece.literal, LabelPiece piece := by
    intro piece member
    obtain ⟨text, inside, rfl⟩ := List.mem_map.mp member
    exact component_of_hostLabel text (legal text inside)
  have again : Rendered .new (texts.map GlobPiece.literal) texts :=
    List.forall₂_map_left_iff.mpr (List.forall₂_same.mpr fun _ _ => rfl)
  simp only [HostMeaning, labelMeaning_iff .new _ texts literals again,
    labelMeaning_iff values labels texts pieces rendered]

end Labelled

/-- `**` stays `**`, and a glob stays a glob. -/
theorem ReadBack.glob_iff (values : VariableValues) (segment back : PathSegment)
    (same : ReadBack values segment back) :
    (∃ pieces, segment = .glob pieces) ↔ ∃ pieces, back = .glob pieces := by
  have two := same.same [[], []]
  cases segment with
  | doubleStar =>
    cases back with
    | doubleStar => simp
    | glob pieces => simp [SegmentBlock] at two
  | glob pieces =>
    cases back with
    | doubleStar => simp [SegmentBlock] at two
    | glob pieces => simp

theorem single_glob_iff (values : VariableValues) (p q : Pattern) (same : SameParts values p q) :
    (∃ pieces, p.path = [.glob pieces]) ↔ ∃ pieces, q.path = [.glob pieces] := by
  have paths := same.path
  constructor
  · intro given
    obtain ⟨pieces, single⟩ := given
    rw [single] at paths
    cases path : q.path with
    | nil =>
      rw [path] at paths
      cases paths
    | cons back rest =>
      rw [path] at paths
      cases paths with
      | cons one done =>
        cases done
        obtain ⟨others, rfl⟩ := (ReadBack.glob_iff values _ _ one).mp ⟨pieces, rfl⟩
        exact ⟨others, rfl⟩
  · intro given
    obtain ⟨pieces, single⟩ := given
    rw [single] at paths
    cases path : p.path with
    | nil =>
      rw [path] at paths
      cases paths
    | cons segment rest =>
      rw [path] at paths
      cases paths with
      | cons one done =>
        cases done
        obtain ⟨others, rfl⟩ := (ReadBack.glob_iff values _ _ one).mpr ⟨pieces, rfl⟩
        exact ⟨others, rfl⟩

theorem printedName_absent (name : Text) (chars : ∀ c ∈ name, isComponentChar c = true)
    (port : Option Text) (numeric : Port port) : ':' ∉ name ∧ '*' ∉ joinPort name port := by
  have absent : ∀ c, isComponentChar c = false → c ∉ name := by
    intro c other member
    rw [chars c member] at other
    cases other
  refine ⟨absent ':' (by decide), ?_⟩
  cases port with
  | none => exact absent '*' (by decide)
  | some port =>
    simp only [joinPort, List.mem_append, List.mem_cons, not_or]
    refine ⟨absent '*' (by decide), by decide, ?_⟩
    intro star
    exact absurd ((numeric port rfl).2 _ star) (by decide)

/-- The labels of Docker Hub, read from its name. -/
theorem literal_labels_hub (name : Text) (port : Option Text) (noColon : ':' ∉ name)
    (onHub : joinPort name port = defaultHost) :
    HostPattern.labels ((name.splitOn '.').map .literal) port = hubLabels := by
  obtain ⟨rfl, rfl⟩ := joinPort_inj name defaultHost port none noColon (by decide) onHub
  decide

/-- A host that does not look like one is a single label without a port. -/
theorem bare_single (texts : List Text) (port : Option Text) (some_ : texts ≠ [])
    (bare : isPatternHost (joinPort (['.'].intercalate texts) port) = false) :
    port = none ∧ ∃ label, texts = [label] := by
  simp only [isPatternHost, Bool.or_eq_false_iff, List.contains_eq_mem, decide_eq_false_iff_not] at bare
  obtain ⟨⟨⟨⟨noDot, noColon⟩, -⟩, -⟩, -⟩ := bare
  cases port with
  | some port => simp [joinPort] at noColon
  | none =>
    refine ⟨rfl, ?_⟩
    cases texts with
    | nil => exact absurd rfl some_
    | cons label rest =>
      cases rest with
      | nil => exact ⟨label, rfl⟩
      | cons second rest => simp [joinPort, List.intercalate_cons_cons] at noDot

/-- A component reads as a segment that is one literal. -/
theorem parseSegment_component (label : Text)
    (component : edged isComponentEdge isComponentChar label = true) :
    parseSegment label = .ok (.glob [.literal label]) := by
  have chars : ∀ c ∈ label, isRunChar .pathSegment c = true := ((edged_iff _ _ _).mp component).2.2
  have glob : label ≠ ['*', '*'] := by
    rintro rfl
    exact absurd component (by decide)
  refine (parseSegment_eq_ok _ _).mpr (Or.inr ⟨glob, _, ?_, rfl⟩)
  refine (parseGlob_run .pathSegment label (edged_ne_nil _ _ _ component) chars _).mpr ⟨rfl, ?_⟩
  simp [validateBoundaries, validatePathComponent, component]

section Enforced
variable (values : VariableValues) (p : Pattern) (host : Text) (segments : List Text) (tag : Option Text)
  (known : ParsedParts p) (parts : PrintedParts values p host segments tag) (text : Text)
  (whole : text = host ++ '/' :: ['/'].intercalate segments ++ tagText tag ++ optInText p.anyDigest)
  (fits : byteLen text ≤ maxReferenceLen)
include known parts whole fits

omit whole fits in
/-- What is read back is settled by its host and its tag. -/
theorem reading_exists (pattern : HostPattern) (constraint : Option (List GlobPiece)) :
    ∃ q : Pattern, q.raw = text ∧ q.anyDigest = p.anyDigest ∧ q.host = pattern ∧ q.tag = constraint ∧
      List.Forall₂ (fun text segment => parseSegment text = .ok segment) segments q.path := by
  obtain ⟨sources, -, read⟩ := known.path
  obtain ⟨backs, hbacks, -⟩ := path_reads_back values sources p.path segments read parts.path
  exact ⟨⟨text, pattern, backs, constraint, p.anyDigest⟩, rfl, rfl, rfl, rfl, hbacks⟩

/-- A host that reads back with its meaning: only the tag can get in the way. -/
theorem hosted_enforced_iff (pattern : HostPattern) (explicit : isPatternHost host = true)
    (back : parseHost (some host) = .ok pattern) (other : pattern ≠ .labels [.literal defaultHost] none)
    (closed : ∀ name, .var name ∉ hostPieces pattern)
    (hosts : ∀ host, HostShape host → (HostMeaning .new pattern host ↔ HostMeaning values p.host host)) :
    (∃ q, Pattern.parse text = .ok q ∧ ∀ raw r, ImageReference.parse raw = .ok r →
      q.matchesReference r .new = p.matchesReference r values) ↔ TagReadsBack values p := by
  have apart : parseHost (some host) ≠ .ok (.labels [.literal defaultHost] none) := by
    rw [back]
    intro same
    exact other (Except.ok.inj same)
  have parses := printed_parse_hosted values p host segments tag known parts text whole fits explicit apart
  rw [tagReadsBack_iff values p host segments tag known parts]
  constructor
  · intro given
    obtain ⟨q, parsed, -⟩ := given
    exact ⟨q.tag, ((parses q).mp parsed).2.2.2.2⟩
  · intro given
    obtain ⟨constraint, hback⟩ := given
    obtain ⟨q, raw, any, rfl, rfl, hpath⟩ :=
      reading_exists values p host segments tag known parts text pattern constraint
    have parsed := (parses q).mpr ⟨raw, any, back, hpath, hback⟩
    have same := sameParts values p host segments tag known parts q any hpath hback
    exact ⟨q, parsed, enforced_of_host values p q known (parsedParts text q parsed) same
      (printed_bound values p host segments tag parts) closed hosts⟩

/-- Labels that are printed as labels and look like a host. -/
theorem labelled_enforced_iff (labels : List GlobPiece) (port : Option Text) (texts : List Text)
    (labelled : p.host = .labels labels port) (rendered : Rendered values labels texts)
    (spelt : host = joinPort (['.'].intercalate texts) port)
    (explicit : isPatternHost host = true)
    (legal : ∀ text ∈ texts, edged Char.isAlphanum isHostLabelChar text = true) :
    (∃ q, Pattern.parse text = .ok q ∧ ∀ raw r, ImageReference.parse raw = .ok r →
      q.matchesReference r .new = p.matchesReference r values) ↔ TagReadsBack values p := by
  obtain ⟨some_, numeric, pieces⟩ := ParsedParts.labels p known labels port labelled
  have components := rendered_labels values labels texts pieces rendered
  have texts_ := rendered_ne_nil values labels texts rendered some_
  have split : (['.'].intercalate texts).splitOn '.' = texts := by
    apply List.splitOn_intercalate _ _ texts_
    intro label member dot
    exact absurd (((edged_iff _ _ _).mp (legal label member)).2.2 _ dot) (by decide)
  have valid : HostName (['.'].intercalate texts) := by
    unfold HostName
    rw [split]
    exact legal
  have reads := (parseHost_printed (['.'].intercalate texts) port (.labels (texts.map .literal) port)
    (printedName_chars texts components) (printedName_last texts texts_ components) numeric).mpr
    ⟨valid, by rw [split]⟩
  rw [← spelt] at reads
  have other := literal_labels_ne_default (['.'].intercalate texts) port
  rw [split] at other
  apply hosted_enforced_iff values p host segments tag known parts text whole fits _ explicit reads other
  · intro name member
    simp [hostPieces] at member
  · intro host _
    rw [labelled]
    exact hostMeaning_reads_back values labels port texts rendered pieces legal host

/-- A host that reads back as other labels: the pattern matches nothing, so what is read
back must not either. -/
theorem relabelled_enforced_iff (labels : List GlobPiece) (port : Option Text) (texts : List Text)
    (labelled : p.host = .labels labels port) (rendered : Rendered values labels texts)
    (spelt : host = joinPort (['.'].intercalate texts) port)
    (explicit : isPatternHost host = true)
    (illegal : ∃ text ∈ texts, ¬ edged Char.isAlphanum isHostLabelChar text = true) :
    (∃ q, Pattern.parse text = .ok q ∧ ∀ raw r, ImageReference.parse raw = .ok r →
      q.matchesReference r .new = p.matchesReference r values) ↔
      TagReadsBack values p ∧ UnmatchedHosted values p (['.'].intercalate texts) port := by
  obtain ⟨some_, numeric, pieces⟩ := ParsedParts.labels p known labels port labelled
  have components := rendered_labels values labels texts pieces rendered
  have texts_ := rendered_ne_nil values labels texts rendered some_
  have chars := printedName_chars texts components
  have reads := fun pattern => parseHost_printed (['.'].intercalate texts) port pattern chars
    (printedName_last texts texts_ components) numeric
  rw [← spelt] at reads
  unfold UnmatchedHosted
  rw [← spelt]
  generalize ['.'].intercalate texts = name at *
  obtain ⟨noColon, noStar⟩ := printedName_absent name chars port numeric
  rw [← spelt] at noStar
  have apart : parseHost (some host) ≠ .ok (.labels [.literal defaultHost] none) := by
    intro default
    exact literal_labels_ne_default name port ((reads _).mp default).2.symm
  have parses := printed_parse_hosted values p host segments tag known parts text whole fits explicit apart
  have nothing := unlabelled_matches_nothing values p labels port texts known labelled rendered illegal
  rw [tagReadsBack_iff values p host segments tag known parts]
  constructor
  · intro given
    obtain ⟨q, parsed, agree⟩ := given
    obtain ⟨raw, any, hhost, hpath, hback⟩ := (parses q).mp parsed
    obtain ⟨valid, hosted⟩ := (reads q.host).mp hhost
    have same := sameParts values p host segments tag known parts q any hpath hback
    refine ⟨⟨q.tag, hback⟩, explicit, valid, ?_⟩
    by_contra reachable
    rw [not_or] at reachable
    have path_ : q.path ≠ [] := by
      intro empty
      rw [empty] at hpath
      cases hpath
      exact printedSegments_ne_nil values p host [] tag known parts rfl
    have cut := printed_cut values p host segments tag known parts text whole
    rw [← any, spelt] at cut
    obtain ⟨reference, r, read, matched⟩ := hosted_reaches text name port segments tag q cut parsed valid
      numeric (by rw [← spelt]; exact isHostComponent_of_pattern host noStar explicit) hosted hpath path_
      same.closedPath hback same.closedTag
      (fun out => reachable.1 ((tagUnreachable_iff values p host segments tag parts text whole known).mp out))
      (by rw [← spelt, ← single_glob_iff values p q same]; exact reachable.2)
    rw [agree reference r read, nothing reference r read] at matched
    cases matched
  · intro given
    obtain ⟨⟨constraint, hback⟩, -, valid, closed⟩ := given
    obtain ⟨q, raw, any, hosted, rfl, hpath⟩ := reading_exists values p host segments tag known parts text
      (.labels ((name.splitOn '.').map .literal) port) constraint
    have parsed := (parses q).mpr ⟨raw, any, (reads q.host).mpr ⟨valid, hosted⟩, hpath, hback⟩
    have same := sameParts values p host segments tag known parts q any hpath hback
    refine ⟨q, parsed, ?_⟩
    intro raw r reference
    rw [nothing raw r reference]
    rcases closed with out | ⟨onHub, single⟩
    · exact (unreachable_refuses values p host segments tag parts q same any hback out raw r reference).1
    · obtain ⟨pieces', single'⟩ := (single_glob_iff values p q same).mp single
      rw [spelt] at onHub
      exact hubGlob_matches_nothing text q pieces' parsed
        (hosted.trans (literal_labels_hub name port noColon onHub)) single' raw r .new reference

/-- A host that is read as a path component: what is read back matches nothing, so the
pattern must not either. -/
theorem bare_enforced_iff (labels : List GlobPiece) (port : Option Text) (texts : List Text)
    (labelled : p.host = .labels labels port) (rendered : Rendered values labels texts)
    (spelt : host = joinPort (['.'].intercalate texts) port)
    (bare : isPatternHost host = false) :
    (∃ q, Pattern.parse text = .ok q ∧ ∀ raw r, ImageReference.parse raw = .ok r →
      q.matchesReference r .new = p.matchesReference r values) ↔
      TagReadsBack values p ∧ UnmatchedBare values p host := by
  obtain ⟨some_, -, pieces⟩ := ParsedParts.labels p known labels port labelled
  have texts_ := rendered_ne_nil values labels texts rendered some_
  obtain ⟨rfl, label, rfl⟩ := bare_single texts port texts_ (by rw [← spelt]; exact bare)
  obtain rfl : host = label := by simpa [joinPort] using spelt
  have component := rendered_labels values labels [host] pieces rendered host (by simp)
  have bareHost : isHostComponent host = false := by
    simp only [isPatternHost, Bool.or_eq_false_iff] at bare
    obtain ⟨⟨⟨⟨noDot, noColon⟩, notLocal⟩, -⟩, -⟩ := bare
    rw [isHostComponent, noDot, noColon, notLocal]
    rfl
  have parses := printed_parse_bare values p host segments tag known parts text whole fits bare
  have nothing : ∀ q, Pattern.parse text = .ok q → MatchesNothing q := fun q parsed =>
    hostless_matches_nothing text q parsed ((parses q).mp parsed).2.2.1
  rw [tagReadsBack_iff values p host segments tag known parts]
  constructor
  · intro given
    obtain ⟨q, parsed, agree⟩ := given
    have hback := ((parses q).mp parsed).2.2.2.2
    refine ⟨⟨q.tag, hback⟩, bare, ?_⟩
    by_contra reachable
    simp only [not_or] at reachable
    obtain ⟨inReach, noLine, room⟩ := reachable
    obtain ⟨back, -, any, -, tagged, hpath⟩ :=
      reading_exists values p host segments tag known parts text q.host q.tag
    rw [← tagged] at hback
    have same := sameParts values p host segments tag known parts back any hpath hback
    have legal := (hostLabel_iff host component).mpr ⟨((isHostComponent_eq_false host).mp bareHost).1, noLine⟩
    obtain ⟨raw, r, reference, matched⟩ := bare_reaches values p back host labels segments tag known parts
      labelled rendered bareHost text whole fits any same hback legal inReach room
    rw [← agree raw r reference, nothing q parsed raw r .new reference] at matched
    cases matched
  · intro given
    obtain ⟨⟨constraint, hback⟩, -, unmatched⟩ := given
    obtain ⟨back, raw, any, hosted, rfl, hpath⟩ := reading_exists values p host segments tag known parts text
      (.labels [.literal defaultHost] none) constraint
    have same := sameParts values p host segments tag known parts back any hpath hback
    have parsed := (parses { back with path := .glob [.literal host] :: back.path }).mpr
      ⟨raw, any, hosted, .cons (parseSegment_component host component) hpath, hback⟩
    refine ⟨_, parsed, ?_⟩
    intro raw r reference
    rw [nothing _ parsed raw r .new reference]
    symm
    rcases unmatched with out | line | room
    · exact (unreachable_refuses values p host segments tag parts back same any hback out raw r reference).2
    · refine unlabelled_matches_nothing values p labels none [host] known labelled rendered
        ⟨host, by simp, ?_⟩ raw r reference
      intro legal
      exact ((hostLabel_iff host component).mp legal).2 line
    · exact noRoom_matches_nothing values p back host labels segments tag known parts labelled rendered
        bareHost same hback room raw r reference

end Enforced

/-- What is printed is what is enforced exactly when the printed tag reads back and the
printed host does, or neither pattern can match any reference. -/
theorem printed_enforced_iff (source text : Text) (p : Pattern) (values : VariableValues)
    (parsed : Pattern.parse source = .ok p) (printed : p.interpolated values = some text)
    (fits : byteLen text ≤ maxReferenceLen) :
    (∃ q, Pattern.parse text = .ok q ∧ ∀ raw r, ImageReference.parse raw = .ok r →
      q.matchesReference r .new = p.matchesReference r values) ↔
      TagReadsBack values p ∧ (HostReadsBack values p.host ∨ NeitherMatches values p) := by
  obtain ⟨host, segments, tag, parts, whole⟩ := (interpolated_eq_some p values text).mp printed
  have known := parsedParts source p parsed
  cases labelled : p.host with
  | suffix suffix =>
    have rendered := parts.host
    rw [labelled] at rendered
    cases rendered
    obtain ⟨source, hsource⟩ := known.host
    rw [labelled] at hsource
    obtain ⟨_, same, valid⟩ | ⟨_, _, no, -⟩ := parseHost_cases source _ hsource
    · cases same
      simp only [HostReadsBack, true_or, and_true]
      exact hosted_enforced_iff values p _ segments tag known parts text whole fits (.suffix suffix)
        (by simp [isPatternHost]) (parseHost_suffix suffix valid) (by simp) (by simp [hostPieces])
        (by rw [labelled]; exact fun host _ => Iff.rfl)
    · cases no
  | labels labels port =>
    have printedHost := parts.host
    rw [labelled] at printedHost
    obtain ⟨texts, rendered, spelt⟩ := (renderHost_labels _ _ _ _).mp printedHost
    rw [hostReadsBack_iff values labels port texts rendered,
      neitherMatches_iff values p labels port texts rendered labelled, ← spelt]
    cases explicit : isPatternHost host with
    | false =>
      rw [bare_enforced_iff values p host segments tag known parts text whole fits labels port texts labelled
        rendered spelt explicit]
      simp [UnmatchedHosted, ← spelt, explicit]
    | true =>
      by_cases legal : ∀ text ∈ texts, edged Char.isAlphanum isHostLabelChar text = true
      · rw [labelled_enforced_iff values p host segments tag known parts text whole fits labels port texts
          labelled rendered spelt explicit legal]
        exact ⟨fun reads => ⟨reads, Or.inl ⟨legal, rfl⟩⟩, fun both => both.1⟩
      · rw [relabelled_enforced_iff values p host segments tag known parts text whole fits labels port texts
          labelled rendered spelt explicit (by simpa using legal)]
        simp [UnmatchedBare, explicit, legal]

/-- A team's registry, printed for the team `a`. -/
theorem printed_enforced_iff_team :
    ∃ p, Pattern.parse "\x7bTEAM_NAME\x7d.internal/x*".toList = .ok p ∧
      p.interpolated (.fromPairs [(⟨teamNameVariable, by decide⟩, letterA)]) =
        some "a.internal/x*".toList ∧
      ∃ q, Pattern.parse "a.internal/x*".toList = .ok q ∧ ∀ raw r, ImageReference.parse raw = .ok r →
        q.matchesReference r .new =
          p.matchesReference r (.fromPairs [(⟨teamNameVariable, by decide⟩, letterA)]) := by
  have parsed : Pattern.parse "\x7bTEAM_NAME\x7d.internal/x*".toList = .ok
      ⟨"\x7bTEAM_NAME\x7d.internal/x*".toList,
        .labels [.var ⟨teamNameVariable, by decide⟩, .literal "internal".toList] none,
        [.glob [.literal "x".toList, .star]], none, false⟩ := by decide
  have printed : Pattern.interpolated ⟨"\x7bTEAM_NAME\x7d.internal/x*".toList,
      .labels [.var ⟨teamNameVariable, by decide⟩, .literal "internal".toList] none,
      [.glob [.literal "x".toList, .star]], none, false⟩
      (.fromPairs [(⟨teamNameVariable, by decide⟩, letterA)]) = some "a.internal/x*".toList := by decide
  refine ⟨_, parsed, printed, (printed_enforced_iff _ _ _ _ parsed printed (by decide)).mpr ⟨?_, Or.inl ?_⟩⟩
  · intro text rendered
    cases rendered
  · refine ⟨["a".toList, "internal".toList], .cons rfl (.cons rfl .nil), ?_, by decide⟩
    simp only [List.mem_cons, List.not_mem_nil, or_false, forall_eq_or_imp, forall_eq]
    exact ⟨by decide, by decide⟩

/-- `nginx` is printed as `docker.io/library/nginx`, which matches the reference `nginx`. -/
theorem printed_differs :
    ¬ ∀ source text p values, Pattern.parse source = .ok p → p.interpolated values = some text →
      byteLen text ≤ maxReferenceLen →
      ∃ q, Pattern.parse text = .ok q ∧ ∀ raw r, ImageReference.parse raw = .ok r →
        q.matchesReference r .new = p.matchesReference r values := by
  intro enforced
  have parsed : Pattern.parse "nginx".toList = .ok ⟨"nginx".toList,
      .labels [.literal defaultHost] none,
      [.glob [.literal "library".toList], .glob [.literal "nginx".toList]], none, false⟩ := by decide
  obtain ⟨q, hq, agree⟩ := enforced _ "docker.io/library/nginx".toList _ .new parsed (by decide) (by decide)
  have back : Pattern.parse "docker.io/library/nginx".toList = .ok
      ⟨"docker.io/library/nginx".toList, hubLabels,
        [.glob [.literal "library".toList], .glob [.literal "nginx".toList]], none, false⟩ := by decide
  have reference : ImageReference.parse "nginx".toList =
      .ok ⟨"docker.io".toList, "library/nginx".toList, some "latest".toList, none⟩ := by decide
  rw [back] at hq
  cases hq
  exact absurd (agree _ _ reference) (by decide)

end WeeboSi.ImagePolicy
