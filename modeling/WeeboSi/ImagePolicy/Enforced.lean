import WeeboSi.ImagePolicy.ReadBack

/-!
# What a pattern read back from print matches

Source: crates/weebo-si-image-policy/src/pattern.rs:174-255. The pattern read back from a
printed text is compared with the printed one under the values it was printed with: where
the host reads back they match the same references, a label that is none makes the printed
pattern match nothing, and a spelled host is reached unless the version is out of reach.
-/
namespace WeeboSi.ImagePolicy
open WeeboSi.Lib

/-- The printed tag keeps a star or is no longer than a tag may be. -/
def TagReadsBack (values : VariableValues) (p : Pattern) : Prop :=
  ∀ text, renderTag values p.tag = some (some text) → '*' ∈ text ∨ byteLen text ≤ 128

/-- No tag meets the printed constraint, and digests are not opted in. -/
def TagUnreachable (values : VariableValues) (p : Pattern) : Prop :=
  p.anyDigest = false ∧ ∃ text, renderTag values p.tag = some (some text) ∧ 128 < shortestTag text

/-! ## Matching under bound values -/

theorem matchesReference_of_bound (p : Pattern) (r : ImageReference) (values : VariableValues)
    (bound : ∀ name, .var name ∈ p.pieces → ∃ value, values.get name = some value) :
    p.matchesReference r values =
      (p.matchesHost r.host values && matchesPath p.path r values && p.matchesTag r.tag values) := by
  unfold Pattern.matchesReference
  rw [if_neg]
  simp only [List.any_eq_true, Option.isNone_iff_eq_none, not_exists, not_and]
  intro name member unbound
  obtain ⟨value, some_⟩ := bound name ((mem_variableNames p name).mp member)
  rw [unbound] at some_
  cases some_

/-- A run that was printed has its variables bound. -/
theorem rendered_bound (values : VariableValues) (pieces : List GlobPiece) (texts : List Text)
    (rendered : Rendered values pieces texts) (name : VariableName) (member : .var name ∈ pieces) :
    ∃ value, values.get name = some value := by
  induction rendered with
  | nil => cases member
  | cons one _ ih =>
    rcases List.mem_cons.mp member with rfl | inside
    · obtain ⟨value, bound, -⟩ := Option.map_eq_some_iff.mp one
      exact ⟨value, bound⟩
    · exact ih inside

section Printed
variable (values : VariableValues) (p : Pattern) (host : Text) (segments : List Text) (tag : Option Text)
  (known : ParsedParts p) (parts : PrintedParts values p host segments tag)
include parts

theorem printed_bound (name : VariableName) (member : .var name ∈ p.pieces) :
    ∃ value, values.get name = some value := by
  simp only [Pattern.pieces, List.mem_append] at member
  rcases member with (inHost | inPath) | inTag
  · cases pattern : p.host with
    | suffix suffix => simp [pattern] at inHost
    | labels labels port =>
      have rendered := parts.host
      rw [pattern] at rendered inHost
      obtain ⟨texts, hlabels, -⟩ := (renderHost_labels _ _ _ _).mp rendered
      exact rendered_bound values labels texts hlabels name inHost
  · obtain ⟨segment, hsegment, inside⟩ := List.mem_flatMap.mp inPath
    obtain ⟨text, -, rendered⟩ := forall₂_mem_right _ _ _ parts.path.flip segment hsegment
    cases segment with
    | doubleStar => cases inside
    | glob pieces =>
      obtain ⟨texts, hpieces, -⟩ := (renderRun_eq_some _ _ _).mp rendered
      exact rendered_bound values pieces texts hpieces name inside
  · have rendered := parts.tag
    cases constraint : p.tag with
    | none => simp [constraint] at inTag
    | some pieces =>
      rw [constraint] at rendered inTag
      obtain ⟨text, htext, -⟩ := Option.map_eq_some_iff.mp rendered
      obtain ⟨texts, hpieces, -⟩ := (renderRun_eq_some _ _ _).mp htext
      exact rendered_bound values pieces texts hpieces name inTag

include known

theorem tagReadsBack_iff : TagReadsBack values p ↔ ∃ back, parseTag tag = .ok back := by
  obtain ⟨source, parsed⟩ := known.tag
  rw [tag_reads_back_iff values source tag p.tag parsed parts.tag, TagReadsBack, parts.tag]
  simp only [Option.some.injEq, Option.mem_def]

/-- What a pattern read back from the printed text shares with the printed one. -/
structure SameParts (values : VariableValues) (p q : Pattern) : Prop where
  path : List.Forall₂ (ReadBack values) p.path q.path
  tag : ∀ actual, q.matchesTag actual .new = p.matchesTag actual values
  closedPath : ∀ pieces name, .glob pieces ∈ q.path → .var name ∉ pieces
  closedTag : ∀ name, .var name ∉ q.tag.getD []

theorem sameParts (q : Pattern) (any : q.anyDigest = p.anyDigest)
    (hpath : List.Forall₂ (fun text segment => parseSegment text = .ok segment) segments q.path)
    (htag : parseTag tag = .ok q.tag) : SameParts values p q := by
  obtain ⟨sources, -, parsed⟩ := known.path
  obtain ⟨source, parsedTag⟩ := known.tag
  obtain ⟨backs, hbacks, same⟩ := path_reads_back values sources p.path segments parsed parts.path
  have unique : backs = q.path := by
    have one := (mapM_eq_ok parseSegment segments backs).mpr hbacks
    have other := (mapM_eq_ok parseSegment segments q.path).mpr hpath
    rw [one] at other
    exact Except.ok.inj other
  subst unique
  refine ⟨same, ?_, ?_, tag_back_closed values source tag p.tag parsedTag parts.tag q.tag htag⟩
  · intro actual
    exact matchesTag_reads_back values source tag actual p q parsedTag parts.tag htag any
  · intro pieces name member
    obtain ⟨segment, -, back⟩ := forall₂_mem_right _ _ _ same _ member
    exact back.closed pieces name rfl

end Printed

/-- The pieces a host pattern holds. -/
def hostPieces : HostPattern → List GlobPiece
  | .labels labels _ => labels
  | .suffix _ => []

theorem closed_bound (q : Pattern) (values : VariableValues)
    (closedHost : ∀ name, .var name ∉ hostPieces q.host)
    (closedPath : ∀ pieces name, .glob pieces ∈ q.path → .var name ∉ pieces)
    (closedTag : ∀ name, .var name ∉ q.tag.getD []) (name : VariableName)
    (member : .var name ∈ q.pieces) : ∃ value, values.get name = some value := by
  simp only [Pattern.pieces, List.mem_append] at member
  rcases member with (inHost | inPath) | inTag
  · cases pattern : q.host with
    | suffix suffix => simp [pattern] at inHost
    | labels labels port =>
      rw [pattern] at inHost closedHost
      exact absurd inHost (closedHost name)
  · obtain ⟨segment, hsegment, inside⟩ := List.mem_flatMap.mp inPath
    cases segment with
    | doubleStar => cases inside
    | glob pieces => exact absurd inside (closedPath pieces name hsegment)
  · exact absurd inTag (closedTag name)

/-- With the host read back, the whole pattern is. -/
theorem enforced_of_host (values : VariableValues) (p q : Pattern) (known : ParsedParts p)
    (knownBack : ParsedParts q) (same : SameParts values p q)
    (bound : ∀ name, .var name ∈ p.pieces → ∃ value, values.get name = some value)
    (closedHost : ∀ name, .var name ∉ hostPieces q.host)
    (hosts : ∀ host, HostShape host → (HostMeaning .new q.host host ↔ HostMeaning values p.host host))
    (raw : Text) (r : ImageReference) (reference : ImageReference.parse raw = .ok r) :
    q.matchesReference r .new = p.matchesReference r values := by
  obtain ⟨_, -, path⟩ := known.path
  obtain ⟨_, -, pathBack⟩ := knownBack.path
  have shape := (parse_normal raw r reference).host
  have host : q.matchesHost r.host .new = p.matchesHost r.host values := by
    apply Bool.eq_iff_iff.mpr
    rw [matchesHost_iff _ _ _ shape, matchesHost_iff _ _ _ shape]
    exact hosts r.host shape
  have components : matchesPath q.path r .new = matchesPath p.path r values := by
    apply Bool.eq_iff_iff.mpr
    rw [matchesPath_iff _ _ _ (parsedSegments_solid _ _ pathBack),
      matchesPath_iff _ _ _ (parsedSegments_solid _ _ path)]
    exact (pathMeaning_reads_back values p.path q.path _ same.path).symm
  rw [matchesReference_of_bound p r values bound, matchesReference_of_bound q r .new
    (closed_bound q .new closedHost same.closedPath same.closedTag), host, components, same.tag r.tag]

/-! ## Patterns that match nothing -/

/-- A printed label that is no label stands for no label of any host. -/
theorem unlabelled_matches_nothing (values : VariableValues) (p : Pattern) (labels : List GlobPiece)
    (port : Option Text) (texts : List Text) (known : ParsedParts p) (host : p.host = .labels labels port)
    (rendered : Rendered values labels texts)
    (illegal : ∃ text ∈ texts, ¬ edged Char.isAlphanum isHostLabelChar text = true) (raw : Text)
    (r : ImageReference) (reference : ImageReference.parse raw = .ok r) :
    p.matchesReference r values = false := by
  obtain ⟨-, -, pieces⟩ := ParsedParts.labels p known labels port host
  have shape := (parse_normal raw r reference).host
  rw [← Bool.not_eq_true]
  intro matched
  have inHost : p.matchesHost r.host values = true := by
    unfold Pattern.matchesReference at matched
    split at matched
    · cases matched
    · simp only [Bool.and_eq_true] at matched
      exact matched.1.1
  rw [matchesHost_iff _ _ _ shape, host] at inHost
  obtain ⟨name, noColon, whole, asked⟩ := inHost
  obtain ⟨name', port', whole', valid, -⟩ := shape
  obtain ⟨rfl, -⟩ := joinPort_inj name name' port port' noColon (HostName.no_colon name' valid)
    (whole.symm.trans whole')
  rw [labelMeaning_iff values labels texts pieces rendered] at asked
  obtain ⟨text, member, notLabel⟩ := illegal
  rw [← asked] at member
  exact notLabel (valid text member)

section Printed
variable (values : VariableValues) (p : Pattern) (host : Text) (segments : List Text) (tag : Option Text)
  (known : ParsedParts p) (parts : PrintedParts values p host segments tag)
include parts

theorem tagUnreachable_iff (text : Text) (whole : text =
      host ++ '/' :: ['/'].intercalate segments ++ tagText tag ++ optInText p.anyDigest)
    (known : ParsedParts p) : TagOutOfReach text ↔ TagUnreachable values p := by
  rw [tagOutOfReach_iff _ _ _ _ (printed_cut values p host segments tag known parts text whole) (by simp),
    TagUnreachable, parts.tag]
  simp only [Option.some.injEq]

/-- Neither the pattern nor what is read back from its text accepts any version. -/
theorem unreachable_refuses (q : Pattern) (same : SameParts values p q) (any : q.anyDigest = p.anyDigest)
    (htag : parseTag tag = .ok q.tag) (out : TagUnreachable values p) (raw : Text) (r : ImageReference)
    (reference : ImageReference.parse raw = .ok r) :
    q.matchesReference r .new = false ∧ p.matchesReference r values = false := by
  obtain ⟨no, text, rendered, long⟩ := out
  rw [parts.tag, Option.some.injEq] at rendered
  subst rendered
  rcases (parseTag_eq_ok _ _).mp htag with ⟨none, -⟩ | ⟨_, pieces, printed, hback, hpieces⟩
  · cases none
  · cases printed
    have refused := longTag_refuses text q pieces hback (any.trans no) hpieces long raw r .new reference
    have refusedHere := (same.tag r.tag).symm.trans refused
    constructor
    · unfold Pattern.matchesReference
      rw [refused]
      simp
    · unfold Pattern.matchesReference
      rw [refusedHere]
      simp

end Printed

/-! ## Reaching a reference through the printed text -/

theorem isHostComponent_of_pattern (host : Text) (noStar : '*' ∉ host)
    (explicit : isPatternHost host = true) : isHostComponent host = true := by
  have first : ['*', '.'].isPrefixOf host = false := by
    rw [← Bool.not_eq_true, List.isPrefixOf_iff_prefix]
    rintro ⟨rest, rfl⟩
    simp at noStar
  have whole : (host == ['*']) = false := by
    apply beq_false_of_ne
    rintro rfl
    simp at noStar
  simpa [isPatternHost, isHostComponent, first, whole] using explicit

theorem literal_labels_meaning (values : VariableValues) (name : Text) (port : Option Text)
    (noColon : ':' ∉ name) :
    HostMeaning values (.labels ((name.splitOn '.').map .literal) port) (joinPort name port) := by
  refine ⟨name, noColon, rfl, ?_⟩
  exact List.forall₂_map_left_iff.mpr (List.forall₂_same.mpr fun label _ => rfl)

/-- A pattern with a spelled host and no variables matches some reference, unless its tag
constraint is out of reach or it asks for a single component on Docker Hub. -/
theorem hosted_reaches (text name : Text) (port : Option Text) (segments : List Text)
    (tag : Option Text) (q : Pattern)
    (cut : PatternCut text (joinPort name port ++ '/' :: ['/'].intercalate segments) tag q.anyDigest)
    (parsed : Pattern.parse text = .ok q) (valid : HostName name) (numeric : Port port)
    (explicit : isHostComponent (joinPort name port) = true)
    (host : q.host = .labels ((name.splitOn '.').map .literal) port)
    (path : List.Forall₂ (fun text segment => parseSegment text = .ok segment) segments q.path)
    (some_ : q.path ≠ []) (closedPath : ∀ pieces name, .glob pieces ∈ q.path → .var name ∉ pieces)
    (parsedTag : parseTag tag = .ok q.tag) (closedTag : ∀ name, .var name ∉ q.tag.getD [])
    (reach : ¬ TagOutOfReach text)
    (notGlob : ¬ (joinPort name port = defaultHost ∧ ∃ pieces, q.path = [.glob pieces])) :
    ∃ raw r, ImageReference.parse raw = .ok r ∧ q.matchesReference r .new = true := by
  have shape : HostShape (joinPort name port) := ⟨name, port, rfl, valid, numeric⟩
  have closed : BindsA .new q.pieces := by
    intro name' member
    obtain ⟨value, no⟩ := closed_bound q .new (by simp [host, hostPieces]) closedPath closedTag name' member
    cases no
  refine pattern_reaches text (joinPort name port) (joinPort name port) (joinPort name port) segments tag q
    .new parsed cut path some_ parsedTag closed (assemble_host_absent _ shape) (host_legal _ shape) explicit
    (normalizeHost_fixed _ shape) (Nat.le_refl _) ?_ reach notGlob
  rw [host]
  exact literal_labels_meaning .new name port (HostName.no_colon name valid)

end WeeboSi.ImagePolicy
