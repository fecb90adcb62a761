import Mathlib.Data.Bool.AllAny
import WeeboSi.ImagePolicy.PatternReach

/-!
# Docker Hub shorthand in patterns

Source: crates/weebo-si-image-policy/src/pattern.rs:341-456. A pattern without a host is
given the default host as one label, `docker.io`, while a reference's host is compared
label by label: such a pattern matches nothing. A pattern that spells the host has two
labels and is not given the `library/` prefix, so with a one-segment path it matches
nothing either, or with `**` all of Docker Hub. Either way it differs from the spelled-out
pattern as soon as that one can match a reference at all.
-/
namespace WeeboSi.ImagePolicy
open WeeboSi.Lib

/-! ## Cutting a pattern text -/

def optInText (anyDigest : Bool) : Text := if anyDigest then anyDigestSuffix else []

/-- A pattern text as name, tag constraint and digest opt-in. -/
structure PatternCut (text name : Text) (tag : Option Text) (anyDigest : Bool) : Prop where
  whole : text = name ++ tagText tag ++ optInText anyDigest
  noAt : '@' ∉ name ++ tagText tag
  legal : ∀ c ∈ name ++ tagText tag, isLegalPatternChar c = true
  untagged : tag = none → ':' ∉ (finalSegment name).2
  tagged : ∀ t ∈ tag, ':' ∉ t ∧ '/' ∉ t ∧ t ≠ []

theorem PatternCut.splitTag (text name : Text) (tag : Option Text) (anyDigest : Bool)
    (cut : PatternCut text name tag anyDigest) (nonempty : name ≠ []) :
    splitTag (name ++ tagText tag) = .ok (name, tag) := by
  refine (splitTag_eq_ok _ _ _).mpr ?_
  cases tag with
  | none => exact Or.inl ⟨rfl, by simp [tagText], by simpa [tagText] using cut.untagged rfl⟩
  | some t =>
    obtain ⟨colon, slash, ht⟩ := cut.tagged t rfl
    exact Or.inr ⟨t, rfl, rfl, colon, slash, nonempty, ht⟩

theorem PatternCut.cutAnyDigest (text name : Text) (tag : Option Text) (anyDigest : Bool)
    (cut : PatternCut text name tag anyDigest) :
    cutAnyDigest text = (name ++ tagText tag, anyDigest) := by
  refine (cutAnyDigest_eq _ _ _).mpr ?_
  have whole := cut.whole
  cases anyDigest with
  | true => exact Or.inl ⟨rfl, whole⟩
  | false =>
    simp only [optInText, Bool.false_eq_true, if_false, List.append_nil] at whole
    refine Or.inr ⟨rfl, whole, ?_⟩
    rintro ⟨front, same⟩
    have noAt := cut.noAt
    rw [← whole, same] at noAt
    simp [anyDigestSuffix] at noAt

/-- Parsing a pattern is cutting it and parsing the parts. -/
theorem patternParse_iff_cut (text : Text) (p : Pattern) :
    Pattern.parse text = .ok p ↔
      byteLen text ≤ maxReferenceLen ∧ p.raw = text ∧ ∃ name tag host path,
        PatternCut text name tag p.anyDigest ∧ name ≠ [] ∧
        name ++ tagText tag ≠ ['*'] ∧ name ++ tagText tag ≠ ['*', '*'] ∧
        splitPatternHost name = .ok (host, path) ∧ parseHost host = .ok p.host ∧
        parsePath p.host path = .ok p.path ∧ parseTag tag = .ok p.tag := by
  rw [patternParse_eq_ok]
  constructor
  · rintro ⟨-, fits, body, name, tag, host, path, any, noAt, nonempty, legal, one, two, htag, hhost,
      hp, hpath, hpieces, raw⟩
    have spelled : body = name ++ tagText tag ∧ name ≠ [] ∧
        (tag = none → ':' ∉ (finalSegment name).2) ∧ ∀ t ∈ tag, ':' ∉ t ∧ '/' ∉ t ∧ t ≠ [] := by
      rcases (splitTag_eq_ok _ _ _).mp htag with ⟨rfl, rfl, colon⟩ | ⟨t, rfl, rfl, colon, slash, hn, ht⟩
      · exact ⟨by simp [tagText], nonempty, fun _ => colon, by simp⟩
      · refine ⟨rfl, hn, by simp, ?_⟩
        rintro _ ⟨⟩
        exact ⟨colon, slash, ht⟩
    obtain ⟨rfl, hn, untagged, tagged⟩ := spelled
    refine ⟨fits, raw, name, tag, host, path, ⟨?_, noAt, legal, untagged, tagged⟩, hn, one, two, hhost,
      hp, hpath, hpieces⟩
    rcases (cutAnyDigest_eq _ _ _).mp any with ⟨yes, whole⟩ | ⟨no, whole, -⟩
    · simpa [optInText, yes] using whole
    · simpa [optInText, no] using whole
  · rintro ⟨fits, raw, name, tag, host, path, cut, hn, one, two, hhost, hp, hpath, hpieces⟩
    refine ⟨?_, fits, name ++ tagText tag, name, tag, host, path, PatternCut.cutAnyDigest _ _ _ _ cut,
      cut.noAt, by simp [hn], cut.legal, one, two, PatternCut.splitTag _ _ _ _ cut hn, hhost, hp, hpath,
      hpieces, raw⟩
    rw [cut.whole]
    simp [hn]

/-- A text in front, closed by `/`, joins the name. -/
theorem PatternCut.behind (front text name : Text) (tag : Option Text) (anyDigest : Bool)
    (noAt : '@' ∉ front) (legal : ∀ c ∈ front, isLegalPatternChar c = true)
    (cut : PatternCut text name tag anyDigest) :
    PatternCut (front ++ '/' :: text) (front ++ '/' :: name) tag anyDigest := by
  refine ⟨?_, ?_, ?_, ?_, cut.tagged⟩
  · rw [cut.whole]
    simp
  · have := cut.noAt
    simp only [List.append_assoc, List.cons_append, List.mem_append, List.mem_cons, not_or] at this ⊢
    exact ⟨noAt, by decide, this⟩
  · intro c member
    simp only [List.append_assoc, List.cons_append, List.mem_append, List.mem_cons] at member
    rcases member with inFront | rfl | inside
    · exact legal c inFront
    · decide
    · exact cut.legal c (by simpa using inside)
  · intro none
    rw [finalSegment_after]
    exact cut.untagged none

theorem PatternCut.version_slash (text name : Text) (tag : Option Text) (anyDigest : Bool)
    (cut : PatternCut text name tag anyDigest) : '/' ∉ tagText tag ++ optInText anyDigest := by
  have opt : '/' ∉ optInText anyDigest := by cases anyDigest <;> decide
  cases tag with
  | none => simpa [tagText] using opt
  | some t => simpa [tagText, opt] using (cut.tagged t rfl).2.1

/-- A text in front of a `/`-free rest is in front of the name. -/
theorem PatternCut.inside (front text name : Text) (tag : Option Text) (anyDigest : Bool)
    (slashFree : '/' ∉ text) (cut : PatternCut (front ++ '/' :: text) name tag anyDigest) :
    ∃ rest, name = front ++ '/' :: rest ∧ '/' ∉ rest ∧ PatternCut text rest tag anyDigest := by
  have noSlash := PatternCut.version_slash _ _ _ _ cut
  have whole := cut.whole
  rw [List.append_assoc] at whole
  have last := congrArg (rsplitOnce '/') whole
  rw [rsplitOnce_append _ _ _ slashFree] at last
  obtain ⟨before, rest, rfl, hrest⟩ : ∃ before rest, name = before ++ '/' :: rest ∧ '/' ∉ rest := by
    cases split : rsplitOnce '/' name with
    | none =>
      have absent := (rsplitOnce_eq_none _ _).mp split
      rw [rsplitOnce_absent _ _ (by simp [absent] at noSlash ⊢; exact noSlash)] at last
      cases last
    | some pair =>
      obtain ⟨h1, h2⟩ := (rsplitOnce_eq_some _ _ _ _).mp split
      exact ⟨pair.1, pair.2, h1, h2⟩
  have restFree : '/' ∉ rest ++ (tagText tag ++ optInText anyDigest) := by
    simp only [List.mem_append, not_or] at noSlash ⊢
    exact ⟨hrest, noSlash⟩
  rw [List.append_assoc, List.cons_append, rsplitOnce_append _ _ _ restFree] at last
  cases last
  refine ⟨rest, rfl, hrest, ⟨by simp, ?_, ?_, ?_, cut.tagged⟩⟩
  · have := cut.noAt
    simp only [List.append_assoc, List.cons_append, List.mem_append, List.mem_cons, not_or] at this ⊢
    exact this.2.2
  · intro c member
    apply cut.legal c
    simp only [List.append_assoc, List.cons_append, List.mem_append, List.mem_cons] at member ⊢
    exact Or.inr (Or.inr member)
  · intro none
    have := cut.untagged none
    rwa [finalSegment_after] at this

/-! ## The two spellings -/

/-- No component of the text is read as a host. -/
def Hostless (text : Text) : Prop :=
  ∀ first rest, text = first ++ '/' :: rest → '/' ∉ first → isPatternHost first = false

/-- A shorthand pattern text and the text it stands for. -/
inductive Shorthand : Text → Text → Prop where
  | single (s : Text) (one : '/' ∉ s) : Shorthand s (defaultHost ++ '/' :: defaultNamespace ++ '/' :: s)
  | several (s : Text) (more : '/' ∈ s) (hostless : Hostless s) : Shorthand s (defaultHost ++ '/' :: s)
  | hub (x : Text) (one : '/' ∉ x) :
      Shorthand (defaultHost ++ '/' :: x) (defaultHost ++ '/' :: defaultNamespace ++ '/' :: x)

/-- Both patterns match the same references under the same values. -/
def SameAllowList (p q : Pattern) : Prop :=
  ∀ raw r values, ImageReference.parse raw = .ok r →
    p.matchesReference r values = q.matchesReference r values

/-- The tag constraint can be met by no tag, and digests are not opted in. -/
def TagOutOfReach (text : Text) : Prop :=
  (¬ ∃ body, text = body ++ anyDigestSuffix) ∧
    ∃ name tag, splitTag text = .ok (name, some tag) ∧ 128 < shortestTag tag

def MatchesNothing (p : Pattern) : Prop :=
  ∀ raw r values, ImageReference.parse raw = .ok r → p.matchesReference r values = false

theorem tagOutOfReach_iff (text name : Text) (tag : Option Text) (anyDigest : Bool)
    (cut : PatternCut text name tag anyDigest) (nonempty : name ≠ []) :
    TagOutOfReach text ↔ anyDigest = false ∧ ∃ t, tag = some t ∧ 128 < shortestTag t := by
  have body := PatternCut.cutAnyDigest _ _ _ _ cut
  have split := PatternCut.splitTag _ _ _ _ cut nonempty
  unfold TagOutOfReach
  rcases (cutAnyDigest_eq _ _ _).mp body with ⟨rfl, whole⟩ | ⟨rfl, whole, absent⟩
  · constructor
    · rintro ⟨no, -⟩
      exact absurd ⟨_, whole⟩ no
    · rintro ⟨no, -⟩
      cases no
  · rw [← whole] at split
    constructor
    · rintro ⟨-, name', t, split', long⟩
      rw [split] at split'
      cases split'
      exact ⟨rfl, t, rfl, long⟩
    · rintro ⟨-, t, rfl, long⟩
      exact ⟨absent, name, t, split, long⟩

/-! ## Patterns that match nothing -/

/-- One label holding a dot is no label of any host. -/
theorem hostless_matches_nothing (text : Text) (p : Pattern) (parsed : Pattern.parse text = .ok p)
    (host : p.host = .labels [.literal defaultHost] none) : MatchesNothing p := by
  intro raw r values reference
  by_contra matched
  simp only [Bool.not_eq_false] at matched
  obtain ⟨-, meaning, -⟩ := (matchesReference_iff _ _ _ _ _ parsed reference).mp matched
  rw [host] at meaning
  obtain ⟨name, -, -, labels⟩ := meaning
  have member : defaultHost ∈ name.splitOn '.' := by
    cases parts : name.splitOn '.' with
    | nil => exact absurd parts (List.splitOn_ne_nil _ _)
    | cons label more =>
      rw [parts] at labels
      cases labels with
      | cons one rest =>
        cases one
        simp
  have dot := (mem_splitOn '.' '.' name).mp ⟨defaultHost, member, by decide⟩
  exact dot.2 rfl

section LongTag
variable (t : Text) (p : Pattern) (pieces : List GlobPiece) (htag : p.tag = some pieces)
  (no : p.anyDigest = false) (hpieces : parseGlob t .tag = .ok pieces) (long : 128 < shortestTag t)
include htag no hpieces long

theorem longTag_refuses (raw : Text) (r : ImageReference) (values : VariableValues)
    (reference : ImageReference.parse raw = .ok r) : p.matchesTag r.tag values = false := by
  unfold Pattern.matchesTag
  rw [htag, no]
  cases tag : r.tag with
  | none => rfl
  | some tag' =>
    have valid := Normal.tagged r (parse_normal raw r reference) tag' tag
    rw [← Bool.not_eq_true]
    intro matched
    exact no_tag_of_long values t tag' pieces hpieces long valid
      ((matchesGlob_iff _ _ _ (parseGlob_solid _ _ _ hpieces)).mp matched)

theorem longTag_matches_nothing : MatchesNothing p := by
  intro raw r values reference
  have refused := longTag_refuses t p pieces htag no hpieces long raw r values reference
  unfold Pattern.matchesReference
  rw [refused]
  simp

end LongTag

def hubLabels : HostPattern := .labels [.literal "docker".toList, .literal "io".toList] none

theorem hubLabels_host (values : VariableValues) (host : Text)
    (meaning : HostMeaning values hubLabels host) : host = defaultHost := by
  obtain ⟨name, -, same, labels⟩ := meaning
  have parts : name.splitOn '.' = ["docker".toList, "io".toList] := by
    generalize name.splitOn '.' = texts at labels
    cases labels with
    | cons first rest =>
      cases rest with
      | cons second done =>
        cases done
        rw [first, second]
  have whole : ['.'].intercalate (name.splitOn '.') = name := List.intercalate_splitOn '.'
  rw [parts] at whole
  rw [same, joinPort, ← whole]
  decide

/-- References on Docker Hub have two components or more. -/
theorem hubGlob_matches_nothing (text : Text) (p : Pattern) (pieces : List GlobPiece)
    (parsed : Pattern.parse text = .ok p) (host : p.host = hubLabels)
    (path : p.path = [.glob pieces]) : MatchesNothing p := by
  intro raw r values reference
  by_contra matched
  simp only [Bool.not_eq_false] at matched
  obtain ⟨-, onHub, meaning, -⟩ := (matchesReference_iff _ _ _ _ _ parsed reference).mp matched
  rw [host] at onHub
  have slash := (parse_normal raw r reference).hub (hubLabels_host values r.host onHub)
  rw [path] at meaning
  obtain ⟨blocks, taken, components⟩ := meaning
  cases taken with
  | cons one rest =>
    cases rest
    obtain ⟨component, rfl, -⟩ := one
    rcases splitOn_cases '/' r.path with ⟨absent, -⟩ | ⟨a, b, -, -, parts⟩
    · exact absent slash
    · simp only [ImageReference.pathComponents, parts, List.flatten_cons, List.flatten_nil,
        List.append_nil, List.cons.injEq] at components
      exact List.splitOn_ne_nil _ _ components.2

/-! ## Reaching a reference -/

/-- A digest of the least length the reference grammar asks for. -/
def someDigest : Text := 'a' :: ':' :: List.replicate 32 'a'

/-- A constraint in reach is met by some tag or digest, no longer than its own text. -/
theorem version_in_reach (text name : Text) (tag : Option Text) (anyDigest : Bool)
    (constraint : Option (List GlobPiece)) (values : VariableValues)
    (cut : PatternCut text name tag anyDigest) (nonempty : name ≠ [])
    (parsed : parseTag tag = .ok constraint) (reach : ¬ TagOutOfReach text)
    (bound : BindsA values (constraint.getD [])) :
    ∃ tag' digest, (∀ t ∈ tag', isTag t = true) ∧ (∀ d ∈ digest, validateDigest d = .ok ()) ∧
      TagMeaning values text constraint (keptTag digest tag') ∧
      byteLen (tagText tag' ++ digestText digest) ≤ byteLen (tagText tag ++ optInText anyDigest) := by
  rcases (parseTag_eq_ok _ _).mp parsed with ⟨rfl, rfl⟩ | ⟨t, pieces, rfl, rfl, hpieces⟩
  · exact ⟨none, none, by simp, by simp, Or.inl rfl, by simp [tagText, digestText]⟩
  · by_cases short : shortestTag t ≤ 128
    · have valid := fillTag_valid t pieces hpieces short
      refine ⟨some (fillTag pieces), none, ?_, by simp, ?_, ?_⟩
      · rintro _ ⟨⟩
        exact valid
      · exact Or.inr (Or.inl ⟨pieces, fillTag pieces, rfl, rfl,
          concatenation_fillTag values t pieces hpieces bound⟩)
      · have ascii : byteLen (fillTag pieces) = (fillTag pieces).length :=
          byteLen_of_ascii _ fun c member => isRunChar_ascii .tag c (isTag_chars _ valid c member)
        have shorter := fillTag_length t pieces hpieces
        have bytes := length_le_byteLen t
        simp only [tagText, digestText, List.append_nil, byteLen_cons, byteLen_append]
        omega
    · -- no tag will do, so the pattern opted into digests
      have opted : anyDigest = true := by
        by_contra no
        apply reach
        rw [tagOutOfReach_iff text name (some t) anyDigest cut nonempty]
        exact ⟨by simpa using no, t, rfl, by omega⟩
      subst opted
      refine ⟨none, some someDigest, by simp, ?_, ?_, ?_⟩
      · rintro _ ⟨⟩
        decide
      · exact Or.inr (Or.inr ⟨rfl, _, cut.whole⟩)
      · have shorter : shortestTag t ≤ t.length + 1 := by
          obtain ⟨-, good, rfl, -⟩ := parseGlob_spec _ _ _ hpieces
          rw [shortestTag_eq pieces good]
          exact Nat.le_succ_of_le (fillTag_length _ pieces hpieces)
        have bytes := length_le_byteLen t
        have digest : byteLen (tagText none ++ digestText (some someDigest)) = 35 := by decide
        rw [digest]
        simp only [tagText, byteLen_append, byteLen_cons]
        omega

/-- On any host and path there is a reference whose version meets a constraint in reach. -/
theorem hosted_reference (text name host normalHost path normal : Text) (tag : Option Text)
    (anyDigest : Bool) (constraint : Option (List GlobPiece)) (values : VariableValues)
    (cut : PatternCut text name tag anyDigest) (nonempty : name ≠ [])
    (parsed : parseTag tag = .ok constraint) (reach : ¬ TagOutOfReach text)
    (bound : BindsA values (constraint.getD [])) (free : '/' ∉ host ∧ '@' ∉ host)
    (legal : ∀ c ∈ host, isLegalReferenceChar c = true) (explicit : isHostComponent host = true)
    (hhost : normalizeHost (some host) = .ok normalHost) (shape : PathShape path)
    (hpath : normalizePath normalHost path = .ok normal)
    (fits : byteLen (host ++ '/' :: path) + byteLen (tagText tag ++ optInText anyDigest) ≤
      maxReferenceLen) :
    ∃ raw r, ImageReference.parse raw = .ok r ∧ r.host = normalHost ∧ r.path = normal ∧
      TagMeaning values text constraint r.tag := by
  obtain ⟨tag', digest, tagged, pinned, meaning, shorter⟩ :=
    version_in_reach text name tag anyDigest constraint values cut nonempty parsed reach bound
  have bytes : byteLen (assemble host path tag' digest) =
      byteLen (host ++ '/' :: path) + byteLen (tagText tag' ++ digestText digest) := by
    simp [assemble, Nat.add_assoc]
  exact ⟨_, _, parse_joined host path tag' digest free shape tagged pinned legal explicit normalHost normal
    hhost hpath (by omega), rfl, rfl, meaning⟩

theorem defaultHost_legal : ∀ c ∈ defaultHost, isLegalReferenceChar c = true :=
  List.all_eq_true.mp (by decide)

theorem hub_reference (text name path : Text) (tag : Option Text) (anyDigest : Bool)
    (constraint : Option (List GlobPiece)) (values : VariableValues)
    (cut : PatternCut text name tag anyDigest) (nonempty : name ≠ [])
    (parsed : parseTag tag = .ok constraint) (reach : ¬ TagOutOfReach text)
    (bound : BindsA values (constraint.getD [])) (shape : PathShape path) (slash : '/' ∈ path)
    (fits : byteLen (defaultHost ++ '/' :: path) + byteLen (tagText tag ++ optInText anyDigest) ≤
      maxReferenceLen) :
    ∃ raw r, ImageReference.parse raw = .ok r ∧ r.host = defaultHost ∧ r.path = path ∧
      TagMeaning values text constraint r.tag :=
  hosted_reference text name defaultHost defaultHost path path tag anyDigest constraint values cut nonempty
    parsed reach bound (by decide) defaultHost_legal (by decide) (by decide) shape
    (normalizePath_fixed _ _ shape (fun _ => slash)) fits

theorem hubLabels_meaning (values : VariableValues) : HostMeaning values hubLabels defaultHost := by
  have parts : defaultHost.splitOn '.' = ["docker".toList, "io".toList] := by decide
  refine ⟨defaultHost, by decide, rfl, ?_⟩
  rw [parts]
  exact .cons rfl (.cons rfl .nil)

/-- All variables of a pattern bound to `a`. -/
def allA (p : Pattern) : VariableValues := .fromPairs (p.variableNames.map (·, letterA))

theorem allA_binds (p : Pattern) (pieces : List GlobPiece)
    (part : ∀ name, .var name ∈ pieces → .var name ∈ p.pieces) : BindsA (allA p) pieces := by
  intro name member
  exact VariableValues.get_fromPairs _ _ _ ((mem_variableNames p name).mpr (part name member))

theorem allA_tag (p : Pattern) : BindsA (allA p) (p.tag.getD []) := by
  apply allA_binds
  intro name member
  simp only [Pattern.pieces, List.mem_append]
  exact Or.inr member

theorem allA_bound (p : Pattern) :
    ∀ name, .var name ∈ p.pieces → ∃ value, (allA p).get name = some value :=
  fun name member => ⟨letterA, allA_binds p p.pieces (fun _ h => h) name member⟩

/-- On any host but Docker Hub the filling of a path is its normal form; there it grows a
component where it has only one, which `**` takes too. -/
theorem normalized_fill (host : Text) (values : VariableValues) (segments : List Text)
    (path : List PathSegment)
    (parsed : List.Forall₂ (fun text segment => parseSegment text = .ok segment) segments path)
    (some_ : path ≠ []) (bound : ∀ pieces, .glob pieces ∈ path → BindsA values pieces)
    (notGlob : ¬ (host = defaultHost ∧ ∃ pieces, path = [.glob pieces])) :
    ∃ normal, normalizePath host (fillPath path) = .ok normal ∧
      PathMeaning values path (normal.splitOn '/') := by
  have shape := fillPath_shape segments path parsed some_
  by_cases prefixed : host = defaultHost ∧ '/' ∉ fillPath path
  · obtain ⟨onHub, single⟩ := prefixed
    have double : path = [.doubleStar] := by
      cases path with
      | nil => exact absurd rfl some_
      | cons first rest =>
        cases rest with
        | cons second rest => exact absurd (fillPath_slash first second rest) single
        | nil =>
          cases first with
          | doubleStar => rfl
          | glob pieces => exact absurd ⟨onHub, pieces, rfl⟩ notGlob
    refine ⟨defaultNamespace ++ '/' :: fillPath path,
      (normalizePath_eq_ok _ _ _).mpr ⟨shape, by rw [if_pos ⟨onHub, single⟩]⟩, ?_⟩
    rw [splitOn_append _ _ _ (by decide), List.splitOn_eq_singleton single, double]
    refine ⟨[[defaultNamespace, fillPath [.doubleStar]]], .cons ?_ .nil, by simp⟩
    exact (by decide : 1 ≤ 2)
  · refine ⟨fillPath path, (normalizePath_eq_ok _ _ _).mpr ⟨shape, by rw [if_neg prefixed]⟩, ?_⟩
    rw [fillPath_splitOn segments path parsed some_]
    exact pathMeaning_fill values path bound

/-- A pattern whose host a reference can write matches some reference, unless its tag
constraint is out of reach or it asks for a single component on Docker Hub. -/
theorem pattern_reaches (text front host normalHost : Text) (segments : List Text) (tag : Option Text)
    (p : Pattern) (values : VariableValues) (parsed : Pattern.parse text = .ok p)
    (cut : PatternCut text (front ++ '/' :: ['/'].intercalate segments) tag p.anyDigest)
    (path : List.Forall₂ (fun text segment => parseSegment text = .ok segment) segments p.path)
    (some_ : p.path ≠ []) (parsedTag : parseTag tag = .ok p.tag) (bound : BindsA values p.pieces)
    (free : '/' ∉ host ∧ '@' ∉ host) (legal : ∀ c ∈ host, isLegalReferenceChar c = true)
    (explicit : isHostComponent host = true) (hhost : normalizeHost (some host) = .ok normalHost)
    (shorter : byteLen host ≤ byteLen front) (meaning : HostMeaning values p.host normalHost)
    (reach : ¬ TagOutOfReach text)
    (notGlob : ¬ (normalHost = defaultHost ∧ ∃ pieces, p.path = [.glob pieces])) :
    ∃ raw r, ImageReference.parse raw = .ok r ∧ p.matchesReference r values = true := by
  have fits := ((patternParse_iff_cut _ _).mp parsed).1
  have boundTag : BindsA values (p.tag.getD []) := by
    intro name member
    exact bound name (by simp [Pattern.pieces, member])
  have boundPath : ∀ pieces, .glob pieces ∈ p.path → BindsA values pieces := by
    intro pieces inside name member
    apply bound name
    simp only [Pattern.pieces, List.mem_append, List.mem_flatMap]
    exact Or.inl (Or.inr ⟨.glob pieces, inside, member⟩)
  obtain ⟨normal, hnormal, pathMeaning⟩ :=
    normalized_fill normalHost values segments p.path path some_ boundPath notGlob
  have bytes := fillPath_bytes segments p.path path some_
  have joined := length_le_byteLen (['/'].intercalate segments)
  have size := congrArg byteLen cut.whole
  simp only [List.append_assoc, byteLen_append, List.cons_append, byteLen_cons] at size
  obtain ⟨raw, r, reference, rhost, rpath, version⟩ := hosted_reference text _ host normalHost
    (fillPath p.path) normal tag p.anyDigest p.tag values cut (by simp) parsedTag reach boundTag free legal
    explicit hhost (fillPath_shape segments p.path path some_) hnormal
    (by simp only [byteLen_append, byteLen_cons]; omega)
  refine ⟨raw, r, reference, ?_⟩
  refine (matchesReference_iff text raw p r values parsed reference).mpr ⟨?_, ?_, ?_, version⟩
  · exact fun name member => ⟨letterA, bound name member⟩
  · rw [rhost]
    exact meaning
  · rw [ImageReference.pathComponents, rpath]
    exact pathMeaning

/-! ## Patterns that spell the host -/

section Spelled
variable (text name : Text) (tag : Option Text) (anyDigest : Bool) (segments : List PathSegment)
  (constraint : Option (List GlobPiece))
  (cut : PatternCut text (defaultHost ++ '/' :: name) tag anyDigest) (nonempty : name ≠ [])
  (fits : byteLen text ≤ maxReferenceLen)
  (path : List.Forall₂ (fun text segment => parseSegment text = .ok segment) (name.splitOn '/') segments)
  (parsedTag : parseTag tag = .ok constraint)
include cut nonempty fits path parsedTag

theorem spelled_parse :
    Pattern.parse text = .ok ⟨text, hubLabels, segments, constraint, anyDigest⟩ := by
  have split : splitPatternHost (defaultHost ++ '/' :: name) = .ok (some defaultHost, name) := by
    unfold splitPatternHost
    rw [splitOnce_append _ _ _ (by decide)]
    simp only [nonempty, or_false]
    rfl
  have host : parseHost (some defaultHost) = .ok hubLabels := by decide
  have twoLabels : hubLabels ≠ .labels [.literal defaultHost] none := by decide
  have slashed : '/' ∈ defaultHost ++ '/' :: name ++ tagText tag := by simp
  refine (patternParse_iff_cut _ _).mpr ⟨fits, rfl, _, tag, some defaultHost, name, cut, by simp, ?_, ?_,
    split, host, (parsePath_eq_ok _ _ _).mpr ⟨nonempty, ?_⟩, parsedTag⟩
  · intro star
    rw [star] at slashed
    exact absurd slashed (by decide)
  · intro star
    rw [star] at slashed
    exact absurd slashed (by decide)
  · rwa [if_neg (fun h => twoLabels h.1)]

/-- A spelled-out pattern of two segments or more matches some reference, unless its tag
constraint is out of reach. -/
theorem spelled_reaches (two : 2 ≤ segments.length) (reach : ¬ TagOutOfReach text) :
    ∃ raw r values, ImageReference.parse raw = .ok r ∧
      Pattern.matchesReference ⟨text, hubLabels, segments, constraint, anyDigest⟩ r values = true := by
  have parsed := spelled_parse text name tag anyDigest segments constraint cut nonempty fits path parsedTag
  have some_ : segments ≠ [] := by
    rintro rfl
    simp at two
  have spelled : ['/'].intercalate (name.splitOn '/') = name := List.intercalate_splitOn '/'
  rw [← spelled] at cut
  have notGlob : ¬ (defaultHost = defaultHost ∧ ∃ pieces, segments = [.glob pieces]) := by
    rintro ⟨-, pieces, rfl⟩
    simp at two
  obtain ⟨raw, r, reference, matched⟩ := pattern_reaches text defaultHost defaultHost defaultHost
    (name.splitOn '/') tag _ (allA ⟨text, hubLabels, segments, constraint, anyDigest⟩) parsed cut path some_
    parsedTag (allA_binds _ _ fun _ member => member) (by decide) defaultHost_legal (by decide) (by decide)
    (Nat.le_refl _) (hubLabels_meaning _) reach notGlob
  exact ⟨raw, r, _, reference, matched⟩

end Spelled

/-- Against a pattern that matches nothing, a pattern is the same exactly when it can
match nothing either. -/
theorem same_iff_of_nothing (p q : Pattern) (out : Prop) (nothing : MatchesNothing p)
    (closed : out → MatchesNothing q)
    (reaches : ¬ out → ∃ raw r values, ImageReference.parse raw = .ok r ∧
      q.matchesReference r values = true) : SameAllowList p q ↔ out := by
  constructor
  · intro same
    by_contra inReach
    obtain ⟨raw, r, values, reference, matched⟩ := reaches inReach
    rw [← same raw r values reference, nothing raw r values reference] at matched
    cases matched
  · intro hout raw r values reference
    rw [nothing raw r values reference, closed hout raw r values reference]

/-! ## Shorthand and spelled-out patterns compared -/

theorem outOfReach_matches_nothing (text name : Text) (tag : Option Text) (p : Pattern)
    (cut : PatternCut text name tag p.anyDigest) (nonempty : name ≠ [])
    (parsedTag : parseTag tag = .ok p.tag) (out : TagOutOfReach text) : MatchesNothing p := by
  obtain ⟨no, t, rfl, long⟩ := (tagOutOfReach_iff _ _ _ _ cut nonempty).mp out
  rcases (parseTag_eq_ok _ _).mp parsedTag with ⟨none, -⟩ | ⟨t', pieces, same, htag, hpieces⟩
  · cases none
  · cases same
    exact longTag_matches_nothing t p pieces htag no hpieces long

/-- A pattern given the default host as one label, against its spelled-out form. -/
theorem hostless_same_iff (short name front : Text) (tag : Option Text) (p : Pattern)
    (parsed : Pattern.parse short = .ok p) (cut : PatternCut short name tag p.anyDigest)
    (nonempty : name ≠ []) (host : p.host = .labels [.literal defaultHost] none)
    (front_ : front = defaultHost ∨ front = defaultHost ++ '/' :: defaultNamespace)
    (path : List.Forall₂ (fun text segment => parseSegment text = .ok segment)
      ((front ++ '/' :: name).splitOn '/').tail p.path) (two : 2 ≤ p.path.length)
    (parsedTag : parseTag tag = .ok p.tag) (fits : byteLen (front ++ '/' :: short) ≤ maxReferenceLen) :
    (∃ q, Pattern.parse (front ++ '/' :: short) = .ok q ∧ SameAllowList p q) ↔ TagOutOfReach short := by
  have longCut : PatternCut (front ++ '/' :: short) (front ++ '/' :: name) tag p.anyDigest := by
    apply PatternCut.behind _ _ _ _ _ _ _ cut
    · rcases front_ with rfl | rfl <;> decide
    · rcases front_ with rfl | rfl
      · exact List.all_iff_forall_prop.mp (by decide)
      · exact List.all_iff_forall_prop.mp (by decide)
  obtain ⟨inner, hinner, innerNonempty⟩ :
      ∃ inner, front ++ '/' :: name = defaultHost ++ '/' :: inner ∧ inner ≠ [] := by
    rcases front_ with rfl | rfl
    · exact ⟨name, rfl, nonempty⟩
    · exact ⟨defaultNamespace ++ '/' :: name, by simp, by simp⟩
  rw [hinner, splitOn_append _ _ _ (by decide), List.tail_cons] at path
  have sameReach : TagOutOfReach (front ++ '/' :: short) ↔ TagOutOfReach short := by
    rw [tagOutOfReach_iff _ _ _ _ longCut (by simp), tagOutOfReach_iff _ _ _ _ cut nonempty]
  rw [hinner] at longCut
  have long := spelled_parse _ inner tag p.anyDigest p.path p.tag longCut innerNonempty fits path parsedTag
  have compare := same_iff_of_nothing p _ (TagOutOfReach short)
    (hostless_matches_nothing short p parsed host)
    (fun out => outOfReach_matches_nothing _ _ tag ⟨_, hubLabels, p.path, p.tag, p.anyDigest⟩
      longCut (by simp) parsedTag (sameReach.mpr out))
    (fun reach => spelled_reaches _ inner tag p.anyDigest p.path p.tag longCut innerNonempty fits path
      parsedTag two (fun out => reach (sameReach.mp out)))
  constructor
  · rintro ⟨q, hq, same⟩
    rw [long] at hq
    cases hq
    exact compare.mp same
  · intro out
    exact ⟨_, long, compare.mpr out⟩

/-- `docker.io/**` takes `a/a`, which `docker.io/library/**` does not. -/
theorem doubleStar_differs (short long : Text) (tag : Option Text) (anyDigest : Bool)
    (constraint : Option (List GlobPiece))
    (cut : PatternCut short (defaultHost ++ '/' :: ['*', '*']) tag anyDigest)
    (parsedTag : parseTag tag = .ok constraint)
    (parsed : Pattern.parse short = .ok ⟨short, hubLabels, [.doubleStar], constraint, anyDigest⟩)
    (q : Pattern) (parsedLong : Pattern.parse long = .ok q)
    (path : q.path = [.glob [.literal defaultNamespace], .doubleStar])
    (fits : byteLen (defaultHost ++ "/a/a".toList) + byteLen (tagText tag ++ optInText anyDigest) ≤
      maxReferenceLen) (reach : ¬ TagOutOfReach short) :
    ¬ SameAllowList ⟨short, hubLabels, [.doubleStar], constraint, anyDigest⟩ q := by
  intro same
  generalize hp : (⟨short, hubLabels, [.doubleStar], constraint, anyDigest⟩ : Pattern) = p at parsed same
  obtain ⟨raw, r, reference, host, hpath, version⟩ := hub_reference short _ "a/a".toList tag anyDigest
    constraint (allA p) cut (by simp) parsedTag reach
    (by have := allA_tag p; rwa [← hp] at this ⊢) (by unfold PathShape; decide) (by decide) fits
  have components : r.pathComponents = [['a'], ['a']] := by
    rw [ImageReference.pathComponents, hpath]
    decide
  have matched : p.matchesReference r (allA p) = true := by
    refine (matchesReference_iff _ _ _ _ _ parsed reference).mpr ⟨allA_bound p, ?_, ?_, ?_⟩
    · rw [host, ← hp]
      exact hubLabels_meaning _
    · rw [components, ← hp]
      exact ⟨[[['a'], ['a']]], .cons (by decide : 1 ≤ 2) .nil, rfl⟩
    · rwa [← hp] at version ⊢
  rw [same raw r _ reference] at matched
  obtain ⟨-, -, ⟨blocks, taken, flat⟩, -⟩ :=
    (matchesReference_iff _ _ _ _ _ parsedLong reference).mp matched
  rw [path] at taken
  cases taken with
  | cons one _ =>
    obtain ⟨component, rfl, runs, pieces, rfl⟩ := one
    cases pieces with
    | cons literal done =>
      cases done
      rw [components] at flat
      simp only [List.flatten_cons, List.flatten_nil, List.append_nil, List.cons_append,
        List.cons.injEq] at flat
      rw [← flat.1] at literal
      have named : ['a'] = defaultNamespace := literal
      exact absurd named (by decide)

/-- What a parsed shorthand of the hub is made of: one segment and a tag. -/
theorem hub_parts (x : Text) (p : Pattern) (one : '/' ∉ x)
    (parsed : Pattern.parse (defaultHost ++ '/' :: x) = .ok p) :
    ∃ tag path segment,
      PatternCut (defaultHost ++ '/' :: x) (defaultHost ++ '/' :: path) tag p.anyDigest ∧
      PatternCut x path tag p.anyDigest ∧ '/' ∉ path ∧ parseTag tag = .ok p.tag ∧
      p.host = hubLabels ∧ parseSegment path = .ok segment ∧ p.path = [segment] := by
  obtain ⟨-, -, name, tag, host, path, cut, -, -, -, split, hhost, hpath, parsedTag⟩ :=
    (patternParse_iff_cut _ _).mp parsed
  obtain ⟨inner, rfl, noSlash, innerCut⟩ := PatternCut.inside _ _ _ _ _ one cut
  have hosted : host = some defaultHost ∧ path = inner ∧ inner ≠ [] := by
    unfold splitPatternHost at split
    rw [splitOnce_append _ _ _ (by decide)] at split
    simp only [guard_eq_ok, not_or] at split
    obtain ⟨⟨-, hinner⟩, split⟩ := split
    rw [if_pos (by decide)] at split
    cases split
    exact ⟨rfl, rfl, hinner⟩
  obtain ⟨rfl, rfl, nonempty⟩ := hosted
  have labels : p.host = hubLabels := by
    have spelled : parseHost (some defaultHost) = .ok hubLabels := by decide
    rw [spelled] at hhost
    exact (Except.ok.inj hhost).symm
  rw [labels, parsePath_eq_ok, if_neg (fun h => absurd h.1 (by decide)),
    List.splitOn_eq_singleton noSlash] at hpath
  obtain ⟨-, parts⟩ := hpath
  cases whole : p.path with
  | nil =>
    rw [whole] at parts
    cases parts
  | cons segment rest =>
    rw [whole] at parts
    cases parts with
    | cons first done =>
      cases done
      exact ⟨tag, path, segment, cut, innerCut, noSlash, parsedTag, labels, first, rfl⟩

theorem hub_same_iff (x : Text) (p : Pattern) (one : '/' ∉ x)
    (parsed : Pattern.parse (defaultHost ++ '/' :: x) = .ok p)
    (fits : byteLen (defaultHost ++ '/' :: defaultNamespace ++ '/' :: x) ≤ maxReferenceLen) :
    (∃ q, Pattern.parse (defaultHost ++ '/' :: defaultNamespace ++ '/' :: x) = .ok q ∧
      SameAllowList p q) ↔ TagOutOfReach (defaultHost ++ '/' :: x) := by
  obtain ⟨tag, path, segment, cut, innerCut, noSlash, parsedTag, labels, hsegment, hpaths⟩ :=
    hub_parts x p one parsed
  have longCut : PatternCut (defaultHost ++ '/' :: defaultNamespace ++ '/' :: x)
      (defaultHost ++ '/' :: (defaultNamespace ++ '/' :: path)) tag p.anyDigest := by
    have behind := PatternCut.behind (defaultHost ++ '/' :: defaultNamespace) x path tag p.anyDigest
      (by decide) (List.all_iff_forall_prop.mp (by decide)) innerCut
    simpa using behind
  have longPath : List.Forall₂ (fun text segment => parseSegment text = .ok segment)
      ((defaultNamespace ++ '/' :: path).splitOn '/') [.glob [.literal defaultNamespace], segment] := by
    rw [splitOn_append _ _ _ (by decide), List.splitOn_eq_singleton noSlash]
    exact .cons (by decide) (.cons hsegment .nil)
  have sameReach : TagOutOfReach (defaultHost ++ '/' :: defaultNamespace ++ '/' :: x) ↔
      TagOutOfReach (defaultHost ++ '/' :: x) := by
    rw [tagOutOfReach_iff _ _ _ _ longCut (by simp), tagOutOfReach_iff _ _ _ _ cut (by simp)]
  have long := spelled_parse _ _ tag p.anyDigest _ p.tag longCut (by simp) fits longPath parsedTag
  generalize hq : (⟨defaultHost ++ '/' :: defaultNamespace ++ '/' :: x, hubLabels,
    [.glob [.literal defaultNamespace], segment], p.tag, p.anyDigest⟩ : Pattern) = q at long
  have closed : TagOutOfReach (defaultHost ++ '/' :: x) → MatchesNothing q := by
    intro out
    rw [← hq]
    exact outOfReach_matches_nothing _ _ tag _ longCut (by simp) parsedTag (sameReach.mpr out)
  have compare : SameAllowList p q ↔ TagOutOfReach (defaultHost ++ '/' :: x) := by
    cases segment with
    | glob pieces =>
      refine same_iff_of_nothing p q _ (hubGlob_matches_nothing _ p pieces parsed labels hpaths) closed ?_
      intro reach
      rw [← hq]
      exact spelled_reaches _ _ tag p.anyDigest _ p.tag longCut (by simp) fits longPath parsedTag
        (Nat.le_refl 2) (fun out => reach (sameReach.mp out))
    | doubleStar =>
      constructor
      · intro same
        by_contra reach
        obtain ⟨rfl, -⟩ | ⟨-, pieces, -, no⟩ := (parseSegment_eq_ok _ _).mp hsegment
        · have written : p = ⟨defaultHost ++ '/' :: x, hubLabels, [.doubleStar], p.tag, p.anyDigest⟩ := by
            have raw : p.raw = defaultHost ++ '/' :: x := ((patternParse_iff_cut _ _).mp parsed).2.1
            rw [← labels, ← hpaths, ← raw]
          rw [written] at parsed same
          refine doubleStar_differs _ _ tag p.anyDigest p.tag cut parsedTag parsed q long (by rw [← hq]) ?_
            reach same
          have whole := congrArg byteLen longCut.whole
          have prefixed : byteLen (defaultHost ++ "/a/a".toList) ≤
              byteLen (defaultHost ++ '/' :: (defaultNamespace ++ '/' :: ['*', '*'])) := by decide
          rw [List.append_assoc _ (tagText tag), byteLen_append _ (tagText tag ++ _)] at whole
          omega
        · cases no
      · intro out raw r values reference
        rw [closed out raw r values reference, outOfReach_matches_nothing _ _ tag p cut (by simp)
          parsedTag out raw r values reference]
  constructor
  · rintro ⟨q', hq', same⟩
    rw [long] at hq'
    cases hq'
    exact compare.mp same
  · intro out
    exact ⟨q, long, compare.mpr out⟩

/-- Without a host component the whole name is the path. -/
theorem splitPatternHost_hostless (name path : Text) (host : Option Text)
    (hostless : Hostless name) (h : splitPatternHost name = .ok (host, path)) :
    host = none ∧ path = name := by
  unfold splitPatternHost at h
  split at h
  · cases h
    exact ⟨rfl, rfl⟩
  · rename_i first rest cut
    obtain ⟨whole, absent⟩ := (splitOnce_eq_some _ _ _ _).mp cut
    rw [guard_eq_ok, hostless first rest whole absent] at h
    cases h.2
    exact ⟨rfl, rfl⟩

/-- The pieces of a hostless pattern: the one-label host, and the path as it was cut. -/
theorem hostless_cut (short : Text) (p : Pattern) (hostless : Hostless short)
    (parsed : Pattern.parse short = .ok p) :
    ∃ name tag, PatternCut short name tag p.anyDigest ∧ name ≠ [] ∧
      p.host = .labels [.literal defaultHost] none ∧ parsePath p.host name = .ok p.path ∧
      parseTag tag = .ok p.tag := by
  obtain ⟨-, -, name, tag, host, path, cut, nonempty, -, -, split, hhost, hpath, parsedTag⟩ :=
    (patternParse_iff_cut _ _).mp parsed
  have nameHostless : Hostless name := by
    intro first rest whole absent
    refine hostless first (rest ++ (tagText tag ++ optInText p.anyDigest)) ?_ absent
    rw [cut.whole, whole]
    simp
  obtain ⟨rfl, rfl⟩ := splitPatternHost_hostless name path host nameHostless split
  exact ⟨path, tag, cut, nonempty, (Except.ok.inj hhost).symm, hpath, parsedTag⟩

/-- A shorthand pattern is its spelled-out form exactly when neither can match: its tag
constraint is met by no tag and it does not end in `@*`. -/
theorem shorthand_same_iff (short long : Text) (p : Pattern) (shorthand : Shorthand short long)
    (parsed : Pattern.parse short = .ok p) (fits : byteLen long ≤ maxReferenceLen) :
    (∃ q, Pattern.parse long = .ok q ∧ SameAllowList p q) ↔ TagOutOfReach short := by
  cases shorthand with
  | single s one =>
    have hostless : Hostless short := by
      rintro first rest rfl -
      simp at one
    obtain ⟨name, tag, cut, nonempty, host, hpath, parsedTag⟩ := hostless_cut short p hostless parsed
    have noSlash : '/' ∉ name := by
      intro slash
      rw [cut.whole] at one
      simp [slash] at one
    obtain ⟨-, path⟩ := (parsePath_eq_ok _ _ _).mp hpath
    rw [if_pos ⟨host, noSlash⟩] at path
    have two : 2 ≤ p.path.length := by
      rw [← path.length_eq, splitOn_append _ _ _ (by decide), List.splitOn_eq_singleton noSlash]
      simp
    refine hostless_same_iff short name _ tag p parsed cut nonempty host (Or.inr rfl) ?_ two parsedTag fits
    rw [List.append_assoc, List.cons_append, splitOn_append _ _ _ (by decide), List.tail_cons]
    exact path
  | several s more hostless =>
    obtain ⟨name, tag, cut, nonempty, host, hpath, parsedTag⟩ := hostless_cut short p hostless parsed
    have slash : '/' ∈ name := by
      have absent := PatternCut.version_slash _ _ _ _ cut
      rw [cut.whole, List.append_assoc] at more
      rcases List.mem_append.mp more with inName | inVersion
      · exact inName
      · exact absurd inVersion absent
    obtain ⟨-, path⟩ := (parsePath_eq_ok _ _ _).mp hpath
    rw [if_neg (fun h => h.2 slash)] at path
    have two : 2 ≤ p.path.length := by
      rw [← path.length_eq]
      rcases splitOn_cases '/' name with ⟨absent, -⟩ | ⟨a, b, -, -, parts⟩
      · exact absurd slash absent
      · have := List.length_pos_of_ne_nil (List.splitOn_ne_nil '/' b)
        rw [parts, List.length_cons]
        omega
    refine hostless_same_iff short name _ tag p parsed cut nonempty host (Or.inl rfl) ?_ two parsedTag fits
    rw [splitOn_append _ _ _ (by decide), List.tail_cons]
    exact path
  | hub x one => exact hub_same_iff x p one parsed fits

theorem shorthand_same_iff_nginx :
    ∃ p, Pattern.parse "nginx".toList = .ok p ∧
      ((∃ q, Pattern.parse "docker.io/library/nginx".toList = .ok q ∧ SameAllowList p q) ↔
        TagOutOfReach "nginx".toList) := by
  have parsed : Pattern.parse "nginx".toList = .ok ⟨"nginx".toList,
      .labels [.literal defaultHost] none,
      [.glob [.literal "library".toList], .glob [.literal "nginx".toList]], none, false⟩ := by decide
  exact ⟨_, parsed, shorthand_same_iff _ _ _ (.single "nginx".toList (by decide)) parsed (by decide)⟩

/-- The reference `nginx` matches `docker.io/library/nginx` and does not match `nginx`. -/
theorem shorthand_differs :
    ¬ ∀ short long p, Shorthand short long → Pattern.parse short = .ok p →
      byteLen long ≤ maxReferenceLen →
      ∃ q, Pattern.parse long = .ok q ∧ SameAllowList p q := by
  intro same
  have parsed : Pattern.parse "nginx".toList = .ok ⟨"nginx".toList,
      .labels [.literal defaultHost] none,
      [.glob [.literal "library".toList], .glob [.literal "nginx".toList]], none, false⟩ := by decide
  obtain ⟨q, hq, both⟩ := same _ _ _ (.single "nginx".toList (by decide)) parsed (by decide)
  have long : Pattern.parse "docker.io/library/nginx".toList = .ok
      ⟨"docker.io/library/nginx".toList, hubLabels,
        [.glob [.literal "library".toList], .glob [.literal "nginx".toList]], none, false⟩ := by decide
  have reference : ImageReference.parse "nginx".toList =
      .ok ⟨"docker.io".toList, "library/nginx".toList, some "latest".toList, none⟩ := by decide
  have spelled : Pattern.parse "docker.io/library/nginx".toList = .ok q := hq
  rw [long] at spelled
  cases spelled
  exact absurd (both _ _ .new reference) (by decide)

end WeeboSi.ImagePolicy
