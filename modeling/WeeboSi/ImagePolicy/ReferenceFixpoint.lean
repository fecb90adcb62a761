import WeeboSi.ImagePolicy.ReferenceShape

/-!
# Normalisation and the display form

Source: crates/weebo-si-image-policy/src/reference.rs:138-193. Parsing the display
form of a parsed reference gives the reference back, with one exception: a host
written as one label and a trailing dot (`foo./x`) loses the dot that made it a
host, so its display form `foo/x:latest` is read as a Docker Hub path.
-/
namespace WeeboSi.ImagePolicy
open WeeboSi.Lib

/-- What parsing produces, whatever the text was. -/
structure Normal (r : ImageReference) : Prop where
  host : HostShape r.host
  path : PathShape r.path
  hub : r.host = defaultHost → '/' ∈ r.path
  version : (∃ tag, r.tag = some tag ∧ r.digest = none ∧ isTag tag = true) ∨
    ∃ digest, r.tag = none ∧ r.digest = some digest ∧ validateDigest digest = .ok ()

theorem parse_normal (raw : Text) (r : ImageReference) (h : ImageReference.parse raw = .ok r) :
    Normal r := by
  obtain ⟨-, -, -, nameAndTag, name, tag, host, path, hdigest, -, -, hhost, hpath, htag, kept⟩ :=
    (parse_eq_ok raw r).mp h
  obtain ⟨shape, hub⟩ := normalizePath_shape _ _ _ hpath
  refine ⟨normalizeHost_shape host _ hhost, shape, hub, ?_⟩
  rcases (splitDigest_eq_ok _ _ _).mp hdigest with ⟨none, -, -⟩ | ⟨d, some, -, -, -, -, valid⟩
  · rw [none] at kept
    refine Or.inl ⟨_, kept, none, ?_⟩
    cases tag with
    | none => decide
    | some t => exact htag t rfl
  · rw [some] at kept
    exact Or.inr ⟨d, kept, some, valid⟩

/-! ## Cutting what was joined -/

def tagText (tag : Option Text) : Text :=
  match tag with
  | some tag => ':' :: tag
  | none => []

def digestText (digest : Option Text) : Text :=
  match digest with
  | some digest => '@' :: digest
  | none => []

/-- A reference text with all its parts written out. -/
def assemble (host path : Text) (tag digest : Option Text) : Text :=
  host ++ '/' :: path ++ tagText tag ++ digestText digest

theorem display_eq (r : ImageReference) : r.display = assemble r.host r.path r.tag r.digest := rfl

section Assemble
variable (host path : Text) (tag digest : Option Text) (hostShape : HostShape host)
  (free : '/' ∉ host ∧ '@' ∉ host) (pathShape : PathShape path) (tagged : ∀ t ∈ tag, isTag t = true)
  (pinned : ∀ d ∈ digest, validateDigest d = .ok ())

include hostShape in
theorem assemble_host_absent : '/' ∉ host ∧ '@' ∉ host := by
  refine ⟨?_, ?_⟩
  all_goals
    intro member
    rcases HostShape.chars _ hostShape _ member with label | dot | colon
    · exact absurd label (by decide)
    · exact absurd dot (by decide)
    · exact absurd colon (by decide)

include pathShape in
theorem assemble_path_absent : ':' ∉ path ∧ '@' ∉ path := by
  refine ⟨?_, ?_⟩
  all_goals
    intro member
    rcases PathShape.chars _ pathShape _ member with component | slash
    · exact absurd component (by decide)
    · exact absurd slash (by decide)

include pinned in
theorem digest_absent (d : Text) (member : d ∈ digest) : '@' ∉ d ∧ '/' ∉ d := by
  refine ⟨?_, ?_⟩
  all_goals
    intro inside
    rcases validateDigest_chars d (pinned d member) _ inside with encoded | plus | dot | colon
    · exact absurd encoded (by decide)
    · exact absurd plus (by decide)
    · exact absurd dot (by decide)
    · exact absurd colon (by decide)

include hostShape in
theorem host_legal : ∀ c ∈ host, isLegalReferenceChar c = true := by
  intro c member
  rcases HostShape.chars _ hostShape c member with label | rfl | rfl
  · simp only [isHostLabelChar, Bool.or_eq_true, beq_iff_eq] at label
    rcases label with (lower | digit) | rfl
    · simp [isLegalReferenceChar, Char.isAlphanum, isAlpha_iff, lower]
    · simp [isLegalReferenceChar, Char.isAlphanum, digit]
    · decide
  · decide
  · decide

include pathShape in
theorem path_legal : ∀ c ∈ path, isLegalReferenceChar c = true := by
  intro c member
  rcases PathShape.chars _ pathShape c member with component | rfl
  · simp only [isComponentChar, Bool.or_eq_true, List.contains_eq_mem, List.mem_cons,
      List.not_mem_nil, or_false, decide_eq_true_eq] at component
    rcases component with (lower | digit) | rfl | rfl | rfl
    · simp [isLegalReferenceChar, Char.isAlphanum, isAlpha_iff, lower]
    · simp [isLegalReferenceChar, Char.isAlphanum, digit]
    · decide
    · decide
    · decide
  · decide

include tagged in
theorem tagText_legal : ∀ c ∈ tagText tag, isLegalReferenceChar c = true := by
  cases tag with
  | none => simp [tagText]
  | some tag =>
    simp only [tagText, List.mem_cons, forall_eq_or_imp]
    refine ⟨by decide, ?_⟩
    intro c member
    have inTag := isTag_chars tag (tagged tag rfl) c member
    simp only [isTagChar, Bool.or_eq_true, List.contains_eq_mem, List.mem_cons, List.not_mem_nil,
      or_false, decide_eq_true_eq] at inTag
    rcases inTag with alnum | rfl | rfl | rfl
    · simp [isLegalReferenceChar, alnum]
    · decide
    · decide
    · decide

include pinned in
theorem digestText_legal : ∀ c ∈ digestText digest, isLegalReferenceChar c = true := by
  cases digest with
  | none => simp [digestText]
  | some digest =>
    simp only [digestText, List.mem_cons, forall_eq_or_imp]
    refine ⟨by decide, ?_⟩
    intro c member
    rcases validateDigest_chars digest (pinned digest rfl) c member with encoded | rfl | rfl | rfl
    · simp only [isEncodedChar, Bool.or_eq_true, List.contains_eq_mem, List.mem_cons,
        List.not_mem_nil, or_false, decide_eq_true_eq] at encoded
      rcases encoded with alnum | rfl | rfl | rfl
      · simp [isLegalReferenceChar, alnum]
      · decide
      · decide
      · decide
    · decide
    · decide
    · decide

include tagged pinned in
/-- The parser cuts digest and tag where they were joined to a name. -/
theorem cuts_of_name (name : Text) (nonempty : name ≠ []) (noAt : '@' ∉ name)
    (noColon : ':' ∉ (finalSegment name).2) :
    splitDigest (name ++ tagText tag ++ digestText digest) = .ok (name ++ tagText tag, digest) ∧
      splitTag (name ++ tagText tag) = .ok (name, tag) := by
  have tagChar : ∀ t ∈ tag, ∀ c ∈ t, isTagChar c = true := fun t member =>
    isTag_chars t (tagged t member)
  have nameAt : '@' ∉ name ++ tagText tag := by
    simp only [List.mem_append, not_or]
    refine ⟨noAt, ?_⟩
    cases tag with
    | none => simp [tagText]
    | some t =>
      simp only [tagText, List.mem_cons, not_or]
      exact ⟨by decide, fun member => absurd (tagChar t rfl _ member) (by decide)⟩
  refine ⟨?_, ?_⟩
  · refine (splitDigest_eq_ok _ _ _).mpr ?_
    cases digest with
    | none => exact Or.inl ⟨rfl, by simp [digestText], by simpa [digestText] using nameAt⟩
    | some d =>
      exact Or.inr ⟨d, rfl, rfl, nameAt, (digest_absent _ pinned d rfl).1, by simp [nonempty], pinned d rfl⟩
  · refine (splitTag_eq_ok _ _ _).mpr ?_
    cases tag with
    | none => exact Or.inl ⟨rfl, by simp [tagText], by simpa [tagText] using noColon⟩
    | some t =>
      refine Or.inr ⟨t, rfl, rfl, ?_, ?_, nonempty, ?_⟩
      · exact fun member => absurd (tagChar t rfl _ member) (by decide)
      · exact fun member => absurd (tagChar t rfl _ member) (by decide)
      · rintro rfl
        have := tagged [] rfl
        simp [isTag] at this

include free pathShape tagged pinned in
theorem assemble_cuts :
    splitDigest (assemble host path tag digest) = .ok (host ++ '/' :: path ++ tagText tag, digest) ∧
      splitTag (host ++ '/' :: path ++ tagText tag) = .ok (host ++ '/' :: path, tag) := by
  obtain ⟨-, hostAt⟩ := free
  obtain ⟨pathColon, pathAt⟩ := assemble_path_absent path pathShape
  refine cuts_of_name tag digest tagged pinned (host ++ '/' :: path) (by simp) ?_ ?_
  · simp only [List.mem_append, List.mem_cons, not_or]
    exact ⟨hostAt, by decide, pathAt⟩
  · intro member
    rw [finalSegment_after] at member
    exact pathColon (finalSegment_mem _ _ member)

include pathShape tagged pinned in
theorem assemble_legal (legal : ∀ c ∈ host, isLegalReferenceChar c = true) :
    ∀ c ∈ assemble host path tag digest, isLegalReferenceChar c = true := by
  intro c member
  simp only [assemble, List.mem_append, List.mem_cons] at member
  rcases member with ((inHost | rfl | inPath) | inTag) | inDigest
  · exact legal c inHost
  · decide
  · exact path_legal path pathShape c inPath
  · exact tagText_legal tag tagged c inTag
  · exact digestText_legal digest pinned c inDigest

include free pathShape tagged pinned in
/-- A text joined from parts parses to what host and path are normalised to. -/
theorem parse_joined (legal : ∀ c ∈ host, isLegalReferenceChar c = true)
    (explicit : isHostComponent host = true) (normalHost normalPath : Text)
    (hhost : normalizeHost (some host) = .ok normalHost)
    (hpath : normalizePath normalHost path = .ok normalPath)
    (fits : byteLen (assemble host path tag digest) ≤ maxReferenceLen) :
    ImageReference.parse (assemble host path tag digest) =
      .ok ⟨normalHost, normalPath, keptTag digest tag, digest⟩ := by
  obtain ⟨hdigest, htag⟩ := assemble_cuts host path tag digest free pathShape tagged pinned
  have split : splitHost (host ++ '/' :: path) = .ok (some host, path) := by
    refine (splitHost_eq_ok _ _ _).mpr (Or.inr ⟨host, path, rfl, free.1, ?_, ?_, Or.inl ?_⟩)
    · rintro rfl
      exact absurd explicit (by decide)
    · exact PathShape.ne_nil _ pathShape
    · exact ⟨explicit, rfl, rfl⟩
  have allLegal := assemble_legal host path tag digest pathShape tagged pinned legal
  exact (parse_eq_ok _ _).mpr ⟨by simp [assemble], fits, allLegal, _, _, _, _, _, hdigest, htag, split,
    hhost, hpath, tagged, rfl⟩

include hostShape pathShape tagged pinned in
/-- A text joined from valid parts parses to these parts. -/
theorem parse_assemble (hub : host = defaultHost → '/' ∈ path)
    (explicit : isHostComponent host = true)
    (fits : byteLen (assemble host path tag digest) ≤ maxReferenceLen) :
    ImageReference.parse (assemble host path tag digest) =
      .ok ⟨host, path, keptTag digest tag, digest⟩ :=
  parse_joined host path tag digest (assemble_host_absent host hostShape) pathShape tagged pinned
    (host_legal host hostShape) explicit host path (normalizeHost_fixed _ hostShape)
    (normalizePath_fixed _ _ pathShape hub) fits

include hostShape pathShape tagged pinned in
/-- A host that does not look like one is read as part of a Docker Hub path. -/
theorem parse_assemble_bare (bare : isHostComponent host = false) (r : ImageReference)
    (h : ImageReference.parse (assemble host path tag digest) = .ok r) : r.host = defaultHost := by
  obtain ⟨hdigest, htag⟩ := assemble_cuts host path tag digest (assemble_host_absent host hostShape)
    pathShape tagged pinned
  obtain ⟨-, -, -, nameAndTag, name, tag', host', path', hdigest', htag', hhost, hnormal, -⟩ :=
    (parse_eq_ok _ r).mp h
  rw [hdigest, Except.ok.injEq, Prod.mk.injEq] at hdigest'
  obtain ⟨rfl, -⟩ := hdigest'
  rw [htag] at htag'
  cases htag'
  rcases (splitHost_eq_ok _ _ _).mp hhost with ⟨none, -, -⟩ | ⟨first, rest, heq, hfirst, -, -, kind⟩
  · rw [none] at hnormal
    exact normalizeHost_hub _ hnormal
  · have cut := splitOnce_append '/' first rest hfirst
    rw [← heq, splitOnce_append _ _ _ (assemble_host_absent host hostShape).1] at cut
    cases cut
    rcases kind with ⟨explicit, -, -⟩ | ⟨-, none, -⟩
    · rw [bare] at explicit
      cases explicit
    · rw [none] at hnormal
      exact normalizeHost_hub _ hnormal

end Assemble

theorem Normal.tagged (r : ImageReference) (normal : Normal r) : ∀ t ∈ r.tag, isTag t = true := by
  intro t member
  rcases normal.version with ⟨tag, some, -, valid⟩ | ⟨digest, none, -, -⟩
  · rw [some] at member
    cases member
    exact valid
  · rw [none] at member
    cases member

theorem Normal.pinned (r : ImageReference) (normal : Normal r) :
    ∀ d ∈ r.digest, validateDigest d = .ok () := by
  intro d member
  rcases normal.version with ⟨tag, -, none, -⟩ | ⟨digest, -, some, valid⟩
  · rw [none] at member
    cases member
  · rw [some] at member
    cases member
    exact valid

theorem Normal.kept (r : ImageReference) (normal : Normal r) : keptTag r.digest r.tag = r.tag := by
  rcases normal.version with ⟨tag, htag, hdigest, -⟩ | ⟨digest, htag, hdigest, -⟩
  · simp [keptTag, htag, hdigest]
  · simp [keptTag, htag, hdigest]

/-- The display form of a host that still looks like one parses to the reference itself. -/
theorem parse_display (r : ImageReference) (normal : Normal r)
    (explicit : isHostComponent r.host = true) (fits : byteLen r.display ≤ maxReferenceLen) :
    ImageReference.parse r.display = .ok r := by
  rw [display_eq] at fits ⊢
  rw [parse_assemble r.host r.path r.tag r.digest normal.host normal.path (Normal.tagged r normal)
    (Normal.pinned r normal) normal.hub explicit fits, Normal.kept r normal]

/-! ## Which texts lose their host -/

/-- One dot-free label and a trailing dot, other than `localhost.`. -/
def TrailingDotLabel (host : Text) : Prop :=
  ∃ label, host = label ++ ['.'] ∧ '.' ∉ label ∧ ':' ∉ label ∧ label.map Char.toLower ≠ localhost

/-- The component of a reference text before its first `/` is such a host. -/
def TrailingDotHost (raw : Text) : Prop :=
  ∃ first rest, raw = first ++ '/' :: rest ∧ '/' ∉ first ∧ TrailingDotLabel first

theorem isHostComponent_eq_false (first : Text) :
    isHostComponent first = false ↔ '.' ∉ first ∧ ':' ∉ first ∧ first ≠ localhost := by
  simp [isHostComponent, and_assoc]

/-- Normalising a host component loses what made it one exactly for a trailing-dot label. -/
theorem normalizeHost_bare_iff (first normal : Text) (h : normalizeHost (some first) = .ok normal)
    (explicit : isHostComponent first = true) :
    isHostComponent normal = false ↔ TrailingDotLabel first := by
  obtain ⟨name, port, cut, -, -, rfl⟩ := (normalizeHost_eq_ok first normal).mp h
  obtain ⟨join, -, noColon⟩ := (cutPort_eq _ _ _).mp cut
  rw [isHostComponent_eq_false]
  cases port with
  | some port =>
    have colon : ':' ∈ first := by
      rw [← mem_map_toLower first ':' (by decide), join]
      simp [joinPort]
    constructor
    · rintro ⟨-, absent, -⟩
      simp [joinPort] at absent
    · rintro ⟨label, rfl, -, absent, -⟩
      simp [absent] at colon
  | none =>
    simp only [joinPort] at join ⊢
    have lowered := noColon rfl
    rcases stripLast_cases '.' name with dotted | ⟨same, noDot⟩
    · obtain ⟨label, dot, rfl, hlabel, hdot⟩ := List.map_eq_append_iff.mp (join.trans dotted)
      have trailing : dot = ['.'] := by
        cases dot with
        | nil => simp at hdot
        | cons c cs =>
          simp only [List.map_cons, List.cons.injEq, List.map_eq_nil_iff] at hdot
          rw [(toLower_eq_sep c '.' (by decide)).mp hdot.1, hdot.2]
      subst trailing
      rw [← hlabel, mem_map_toLower _ _ (by decide), mem_map_toLower _ _ (by decide)]
      constructor
      · rintro ⟨hd, hc, hl⟩
        exact ⟨label, rfl, hd, hc, hl⟩
      · rintro ⟨label', heq, hd, hc, hl⟩
        cases List.append_cancel_right heq
        exact ⟨hd, hc, hl⟩
    · rw [same, ← join]
      rw [← join, mem_map_toLower _ _ (by decide)] at lowered
      constructor
      · rintro ⟨hd, -, hl⟩
        rw [mem_map_toLower _ _ (by decide)] at hd
        have bare : first = localhost := by
          by_contra other
          rw [(isHostComponent_eq_false first).mpr ⟨hd, lowered, other⟩] at explicit
          cases explicit
        rw [bare] at hl
        exact absurd (by decide) hl
      · rintro ⟨label, rfl, -⟩
        rw [← join] at noDot
        simp at noDot

/-- The part of a reference text after the name carries no `/`. -/
theorem splitVersion_slash (raw nameAndTag name : Text) (digest tag : Option Text)
    (hdigest : splitDigest raw = .ok (nameAndTag, digest))
    (htag : splitTag nameAndTag = .ok (name, tag)) :
    ∃ version, raw = name ++ version ∧ '/' ∉ version := by
  have tagged : ∃ t, nameAndTag = name ++ t ∧ '/' ∉ t := by
    rcases (splitTag_eq_ok _ _ _).mp htag with ⟨-, rfl, -⟩ | ⟨t, -, rfl, -, slash, -, -⟩
    · exact ⟨[], by simp, by simp⟩
    · exact ⟨':' :: t, rfl, by simp [slash]⟩
  obtain ⟨t, rfl, slash⟩ := tagged
  rcases (splitDigest_eq_ok _ _ _).mp hdigest with ⟨-, rfl, -⟩ | ⟨d, -, rfl, -, -, -, valid⟩
  · exact ⟨t, rfl, slash⟩
  · refine ⟨t ++ '@' :: d, by simp, ?_⟩
    simp only [List.mem_append, List.mem_cons, not_or]
    refine ⟨slash, by decide, ?_⟩
    exact (digest_absent (some d) (by rintro _ ⟨⟩; exact valid) d rfl).2

theorem parse_bare_iff (raw : Text) (r : ImageReference) (h : ImageReference.parse raw = .ok r) :
    isHostComponent r.host = false ↔ TrailingDotHost raw := by
  obtain ⟨-, -, -, nameAndTag, name, tag, host, path, hdigest, htag, hsplit, hhost, -⟩ :=
    (parse_eq_ok raw r).mp h
  obtain ⟨version, rfl, slash⟩ := splitVersion_slash _ _ _ _ _ hdigest htag
  have onHub : host = none → isHostComponent r.host = true := by
    rintro rfl
    rw [normalizeHost_hub _ hhost]
    decide
  rcases (splitHost_eq_ok _ _ _).mp hsplit with ⟨none, -, absent⟩ | ⟨first, rest, rfl, hfirst, -, -, kind⟩
  · rw [onHub none]
    constructor
    · exact fun h => nomatch h
    · rintro ⟨a, b, heq, -⟩
      have : '/' ∈ name ++ version := by
        rw [heq]
        simp
      simp [absent, slash] at this
  · have cut : ∀ a b, first ++ '/' :: rest ++ version = a ++ '/' :: b → '/' ∉ a → a = first := by
      intro a b heq ha
      have same := splitOnce_append '/' a b ha
      rw [← heq, List.append_assoc, List.cons_append, splitOnce_append '/' first _ hfirst] at same
      cases same
      rfl
    have whole : TrailingDotHost (first ++ '/' :: rest ++ version) ↔ TrailingDotLabel first := by
      constructor
      · rintro ⟨a, b, heq, ha, dotted⟩
        exact cut a b heq ha ▸ dotted
      · intro dotted
        exact ⟨first, rest ++ version, by simp, hfirst, dotted⟩
    rw [whole]
    rcases kind with ⟨explicit, rfl, -⟩ | ⟨bare, none, -⟩
    · exact normalizeHost_bare_iff first r.host hhost explicit
    · rw [onHub none]
      constructor
      · exact fun h => nomatch h
      · rintro ⟨label, rfl, -⟩
        simp [isHostComponent] at bare

/-- A parsed reference is the parse of its own display form, unless its host was written
as one label and a trailing dot. -/
theorem parse_display_fixpoint_iff (raw : Text) (r : ImageReference)
    (parsed : ImageReference.parse raw = .ok r) (fits : byteLen r.display ≤ maxReferenceLen) :
    ImageReference.parse r.display = .ok r ↔ ¬ TrailingDotHost raw := by
  have normal := parse_normal raw r parsed
  rw [← parse_bare_iff raw r parsed]
  constructor
  · intro again bare
    have hub := parse_assemble_bare r.host r.path r.tag r.digest normal.host normal.path
      (Normal.tagged r normal) (Normal.pinned r normal) bare r again
    rw [hub] at bare
    exact absurd bare (by decide)
  · intro explicit
    exact parse_display r normal (by simpa using explicit) fits

theorem parse_display_fixpoint_iff_nginx :
    ImageReference.parse "nginx".toList =
        .ok ⟨"docker.io".toList, "library/nginx".toList, some "latest".toList, none⟩ ∧
      (ImageReference.parse "docker.io/library/nginx:latest".toList =
          .ok ⟨"docker.io".toList, "library/nginx".toList, some "latest".toList, none⟩ ↔
        ¬ TrailingDotHost "nginx".toList) := by
  have parsed : ImageReference.parse "nginx".toList =
      .ok ⟨"docker.io".toList, "library/nginx".toList, some "latest".toList, none⟩ := by decide
  exact ⟨parsed, parse_display_fixpoint_iff _ _ parsed (by decide)⟩

/-- `foo./x` is on the host `foo`; its display form is on Docker Hub. -/
theorem parse_display_trailing_dot :
    ¬ ∀ (raw : Text) (r : ImageReference), ImageReference.parse raw = .ok r →
      byteLen r.display ≤ maxReferenceLen → ImageReference.parse r.display = .ok r := by
  intro fixpoint
  have first : ImageReference.parse "foo./x".toList =
      .ok ⟨"foo".toList, "x".toList, some "latest".toList, none⟩ := by decide
  have again := fixpoint _ _ first (by decide)
  have hub : ImageReference.parse "foo/x:latest".toList =
      .ok ⟨"docker.io".toList, "foo/x".toList, some "latest".toList, none⟩ := by decide
  exact absurd (hub.symm.trans again) (by decide)

end WeeboSi.ImagePolicy
