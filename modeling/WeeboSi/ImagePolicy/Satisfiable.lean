import WeeboSi.ImagePolicy.Printed

/-!
# Patterns that match something

Source: crates/weebo-si-image-policy/src/pattern.rs:121-172, 341-456, 513-623. A pattern
that parses is meant to be able to match: boundaries are checked so that none is a quiet
no-op. With a written host the pattern is filled piece by piece, `a` for every variable,
and the filled text is a reference no longer than the pattern. Two kinds of pattern have no
filling: a tag constraint longer than a tag may be, and one component on Docker Hub.
-/
namespace WeeboSi.ImagePolicy
open WeeboSi.Lib

/-- A text read as one part is that part. -/
theorem forall₂_splitOn_singleton {β : Type} (read : Text → β → Prop) (c : Char) (s : Text) (part : β) :
    List.Forall₂ read (s.splitOn c) [part] ↔ c ∉ s ∧ read s part := by
  rcases splitOn_cases c s with ⟨absent, split⟩ | ⟨a, b, rfl, -, split⟩
  · rw [split]
    simp [absent]
  · rw [split, List.forall₂_cons, List.forall₂_nil_right_iff]
    simp [List.splitOn_ne_nil]

/-! ## Filling a host -/

theorem bracedLabel_length (label inner : Text) (h : bracedLabel label = some inner) :
    1 ≤ label.length := by
  cases label with
  | nil => simp [bracedLabel, List.dropPrefix?] at h
  | cons c rest => simp

/-- A parsed label is filled to a legal label no longer than its text; a literal is its text. -/
theorem fillLabel_spec (label : Text) (piece : GlobPiece) (h : parseHostLabel label = .ok piece) :
    edged Char.isAlphanum isHostLabelChar (fillPiece [] piece) = true ∧
      (fillPiece [] piece).length ≤ label.length ∧ (∀ text, piece = .literal text → text = label) := by
  unfold parseHostLabel at h
  split at h
  · rename_i inner braced
    split at h
    · cases h
    · rw [check_eq_ok] at h
      obtain ⟨-, rfl⟩ := h
      exact ⟨(by decide : edged Char.isAlphanum isHostLabelChar ['a'] = true),
        bracedLabel_length label inner braced, by simp⟩
  · obtain ⟨_, valid, h⟩ := (bind_eq_ok _ _ _).mp h
    cases h
    rw [validateHostLiteralLabel, check_eq_ok] at valid
    exact ⟨valid.1, Nat.le_refl _, fun text same => (GlobPiece.literal.inj same).symm⟩

def fillHostName (labels : List GlobPiece) : Text := ['.'].intercalate (labels.map (fillPiece []))

section FillHost
variable (texts : List Text) (labels : List GlobPiece)
  (parsed : List.Forall₂ (fun label piece => parseHostLabel label = .ok piece) texts labels)
include parsed

theorem fillLabels_legal : ∀ label ∈ labels.map (fillPiece []),
    edged Char.isAlphanum isHostLabelChar label = true := by
  intro label member
  obtain ⟨piece, inside, rfl⟩ := List.mem_map.mp member
  obtain ⟨text, -, one⟩ := forall₂_mem_right _ _ _ parsed piece inside
  exact (fillLabel_spec text piece one).1

theorem fillHostName_splitOn (some_ : labels ≠ []) :
    (fillHostName labels).splitOn '.' = labels.map (fillPiece []) := by
  apply List.splitOn_intercalate
  · intro label member dot
    have legal := fillLabels_legal texts labels parsed label member
    exact absurd (((edged_iff _ _ _).mp legal).2.2 _ dot) (by decide)
  · simpa using some_

theorem fillHostName_valid (some_ : labels ≠ []) : HostName (fillHostName labels) := by
  unfold HostName
  rw [fillHostName_splitOn texts labels parsed some_]
  exact fillLabels_legal texts labels parsed

theorem fillHostName_length : (fillHostName labels).length ≤ (['.'].intercalate texts).length := by
  apply intercalate_length_le
  rw [List.forall₂_map_right_iff]
  exact parsed.imp fun text piece one => (fillLabel_spec text piece one).2.1

theorem fillHostName_meaning (some_ : labels ≠ []) (values : VariableValues) (bound : BindsA values labels)
    (port : Option Text) : HostMeaning values (.labels labels port) (joinPort (fillHostName labels) port) := by
  refine ⟨fillHostName labels, HostName.no_colon _ (fillHostName_valid texts labels parsed some_), rfl, ?_⟩
  rw [fillHostName_splitOn texts labels parsed some_, List.forall₂_map_right_iff, List.forall₂_same]
  intro piece member
  obtain ⟨text, -, one⟩ := forall₂_mem_right _ _ _ parsed piece member
  cases piece with
  | literal text => rfl
  | star => exact (parseHostLabel_piece text .star one).elim
  | var name => exact ⟨letterA, bound name member, rfl⟩

/-- Only the two labels of Docker Hub are filled to its name. -/
theorem fillHostName_hub (some_ : labels ≠ []) (onHub : fillHostName labels = defaultHost) :
    labels = [.literal "docker".toList, .literal "io".toList] := by
  have split := fillHostName_splitOn texts labels parsed some_
  have spelt : ∀ piece, fillPiece [] piece ≠ ['a'] → fillPiece [] piece ≠ [] →
      piece = .literal (fillPiece [] piece) := by
    intro piece notA notEmpty
    cases piece with
    | literal text => rfl
    | star => exact absurd rfl notEmpty
    | var name => exact absurd rfl notA
  have parts : defaultHost.splitOn '.' = ["docker".toList, "io".toList] := by decide
  rw [onHub, parts, eq_comm, List.map_eq_cons_iff] at split
  obtain ⟨first, rest, rfl, one, split⟩ := split
  obtain ⟨second, more, rfl, two, split⟩ := List.map_eq_cons_iff.mp split
  rw [List.map_eq_nil_iff] at split
  have docker := spelt first (by rw [one]; decide) (by rw [one]; decide)
  have io := spelt second (by rw [two]; decide) (by rw [two]; decide)
  rw [docker, io, one, two, split]

end FillHost

/-- A reference writes `written` for the host `normal`, which the pattern accepts. -/
structure WritesHost (values : VariableValues) (pattern : HostPattern) (written normal : Text) : Prop where
  explicit : isHostComponent written = true
  free : '/' ∉ written ∧ '@' ∉ written
  legal : ∀ c ∈ written, isLegalReferenceChar c = true
  normalized : normalizeHost (some written) = .ok normal
  meaning : HostMeaning values pattern normal

theorem writesHost_self (values : VariableValues) (pattern : HostPattern) (host : Text)
    (shape : HostShape host) (explicit : isHostComponent host = true)
    (meaning : HostMeaning values pattern host) : WritesHost values pattern host host :=
  ⟨explicit, assemble_host_absent host shape, host_legal host shape, normalizeHost_fixed host shape, meaning⟩

/-- A single label is written with a trailing dot. -/
theorem writesHost_dotted (values : VariableValues) (pattern : HostPattern) (label : Text)
    (bare : isHostComponent label = false) (legal : edged Char.isAlphanum isHostLabelChar label = true)
    (meaning : HostMeaning values pattern label) : WritesHost values pattern (label ++ ['.']) label := by
  obtain ⟨noDot, noColon, -⟩ := (isHostComponent_eq_false label).mp bare
  obtain ⟨shape, normalized⟩ := label_dotted label noDot noColon legal
  obtain ⟨noSlash, noAt⟩ := assemble_host_absent label shape
  refine ⟨by simp [isHostComponent], by simp [noSlash, noAt], ?_, normalized, meaning⟩
  intro c member
  simp only [List.mem_append, List.mem_singleton] at member
  rcases member with inside | rfl
  · exact host_legal label shape c inside
  · decide

/-- A pattern host that is one label without a port was written with a trailing dot. -/
theorem bare_host_dotted (host name : Text) (piece : GlobPiece) (explicit : isPatternHost host = true)
    (cut : cutPort (host.map Char.toLower) = (name, none)) (single : '.' ∉ stripLast '.' name)
    (one : parseHostLabel (stripLast '.' name) = .ok piece)
    (bare : isHostComponent (fillPiece [] piece) = false) :
    host.length = (stripLast '.' name).length + 1 := by
  obtain ⟨lowered, -, noColon⟩ := (cutPort_eq _ _ _).mp cut
  change host.map Char.toLower = name at lowered
  have dotted : '.' ∈ name := by
    simp only [isPatternHost, Bool.or_eq_true, List.contains_eq_mem, decide_eq_true_eq, beq_iff_eq] at explicit
    rw [← lowered, mem_map_toLower host '.' (by decide)]
    rcases explicit with (((dot | colon) | rfl) | star) | rfl
    · exact dot
    · rw [← mem_map_toLower host ':' (by decide), lowered] at colon
      exact absurd colon (noColon rfl)
    · -- `localhost` is read as itself, which looks like a host
      have whole : stripLast '.' name = localhost := by
        rw [← lowered]
        decide
      have read : parseHostLabel localhost = .ok (.literal localhost) := by decide
      rw [whole, read] at one
      cases one
      exact absurd bare (by decide)
    · obtain ⟨rest, rfl⟩ := List.isPrefixOf_iff_prefix.mp star
      simp
    · have whole : stripLast '.' name = ['*'] := by
        rw [← lowered]
        decide
      have refused : parseHostLabel ['*'] = .error .illegalHost := by decide
      rw [whole, refused] at one
      cases one
  have size : host.length = name.length := by
    rw [← lowered, List.length_map]
  rcases stripLast_cases '.' name with closed | ⟨plain, -⟩
  · rw [size]
    conv_lhs => rw [closed]
    simp
  · rw [plain] at single
    exact absurd dotted single

theorem suffix_reaches (suffix : Text) (valid : HostName suffix) (values : VariableValues) :
    WritesHost values (.suffix suffix) ('a' :: '.' :: suffix) ('a' :: '.' :: suffix) := by
  have named : HostName ('a' :: '.' :: suffix) := by
    intro label member
    have split := splitOn_append '.' ['a'] suffix (by decide)
    rw [List.singleton_append] at split
    rw [split, List.mem_cons] at member
    rcases member with rfl | inside
    · decide
    · exact valid label inside
  exact writesHost_self values _ _ ⟨_, none, rfl, named, by simp [Port]⟩ (by simp [isHostComponent])
    ⟨['a'], by simp, rfl⟩

section Labels
variable (host name : Text) (port : Option Text) (labels : List GlobPiece) (values : VariableValues)
  (explicit : isPatternHost host = true) (cut : cutPort (host.map Char.toLower) = (name, port))
  (parts : List.Forall₂ (fun label piece => parseHostLabel label = .ok piece)
    ((stripLast '.' name).splitOn '.') labels) (bound : BindsA values labels)
include cut parts bound

theorem labels_reach_hosted (numeric : Port port)
    (looks : isHostComponent (joinPort (fillHostName labels) port) = true) :
    WritesHost values (.labels labels port) (joinPort (fillHostName labels) port)
        (joinPort (fillHostName labels) port) ∧
      (joinPort (fillHostName labels) port).length ≤ host.length ∧
      (joinPort (fillHostName labels) port = defaultHost → .labels labels port = hubLabels) := by
  have some_ := parsedLabels_ne_nil _ labels parts
  have named := fillHostName_valid _ labels parts some_
  have meaning := fillHostName_meaning _ labels parts some_ values bound port
  refine ⟨writesHost_self values _ _ ⟨_, port, rfl, named, numeric⟩ looks meaning, ?_, ?_⟩
  · have filled := fillHostName_length _ labels parts
    rw [List.intercalate_splitOn] at filled
    have shorter := stripLast_length '.' name
    have size := congrArg List.length ((cutPort_eq _ _ _).mp cut).1
    rw [List.length_map] at size
    cases port with
    | none =>
      simp only [joinPort] at size ⊢
      omega
    | some port =>
      simp only [joinPort, List.length_append] at size ⊢
      omega
  · intro onHub
    obtain ⟨hub, rfl⟩ := joinPort_inj _ defaultHost port none (HostName.no_colon _ named) (by decide) onHub
    rw [fillHostName_hub _ labels parts some_ hub]
    rfl

include explicit in
theorem labels_reach_bare (bare : isHostComponent (joinPort (fillHostName labels) port) = false) :
    ∃ label, WritesHost values (.labels labels port) (label ++ ['.']) label ∧
      (label ++ ['.']).length ≤ host.length ∧ label ≠ defaultHost := by
  have some_ := parsedLabels_ne_nil _ labels parts
  have meaning := fillHostName_meaning _ labels parts some_ values bound port
  have filled := fillHostName_length _ labels parts
  rw [List.intercalate_splitOn] at filled
  obtain ⟨noDot, noColon, -⟩ := (isHostComponent_eq_false _).mp bare
  cases port with
  | some port => simp [joinPort] at noColon
  | none =>
    rw [joinPort] at bare noDot meaning
    have single := fillHostName_splitOn _ labels parts some_
    rw [List.splitOn_eq_singleton noDot, eq_comm, List.map_eq_singleton_iff] at single
    obtain ⟨piece, rfl, spelt⟩ := single
    obtain ⟨plain, one⟩ := (forall₂_splitOn_singleton _ '.' _ piece).mp parts
    have legal := (fillLabel_spec _ piece one).1
    have dotted := bare_host_dotted host name piece explicit cut plain one (by rw [spelt]; exact bare)
    rw [spelt] at legal
    refine ⟨_, writesHost_dotted values _ _ bare legal meaning, ?_, ?_⟩
    · rw [List.length_append, List.length_singleton]
      omega
    · intro onHub
      rw [onHub] at bare
      exact absurd bare (by decide)

end Labels

section WrittenHost
variable (host : Text) (pattern : HostPattern) (parsed : parseHost (some host) = .ok pattern)
include parsed

/-- The labels of a written host are never the one label a hostless pattern is given. -/
theorem written_not_default : pattern ≠ .labels [.literal defaultHost] none := by
  rintro rfl
  rcases parseHost_some host _ parsed with ⟨_, -, -, no⟩ | ⟨name, port, labels, -, -, same, parts⟩
  · cases no
  · cases same
    obtain ⟨text, -, one⟩ := forall₂_mem_right _ _ _ parts (.literal defaultHost) (by simp)
    exact absurd (fillLabel_spec text _ one).1 (by decide)

/-- Docker Hub is parsed to its two labels, and nothing else is. -/
theorem written_hub_iff : pattern = hubLabels ↔ stripLast '.' (host.map Char.toLower) = defaultHost := by
  rcases parseHost_some host pattern parsed with
    ⟨suffix, rfl, -, rfl⟩ | ⟨name, port, labels, cut, -, rfl, parts⟩
  · constructor
    · intro no
      cases no
    · intro onHub
      have star : '*' ∈ stripLast '.' (('*' :: '.' :: suffix).map Char.toLower) := by
        rw [mem_stripLast '.' '*' _ (by decide), mem_map_toLower _ '*' (by decide)]
        simp
      rw [onHub] at star
      exact absurd star (by decide)
  · have hubParts : defaultHost.splitOn '.' = ["docker".toList, "io".toList] := by decide
    constructor
    · intro same
      cases same
      obtain ⟨lowered, -, -⟩ := (cutPort_eq _ _ _).mp cut
      have texts : (stripLast '.' name).splitOn '.' = ["docker".toList, "io".toList] := by
        generalize (stripLast '.' name).splitOn '.' = texts at parts
        cases parts with
        | cons first rest =>
          cases rest with
          | cons second done =>
            cases done
            rw [← (fillLabel_spec _ _ first).2.2 _ rfl, ← (fillLabel_spec _ _ second).2.2 _ rfl]
      have joined : ['.'].intercalate ((stripLast '.' name).splitOn '.') = stripLast '.' name :=
        List.intercalate_splitOn '.'
      rw [lowered, joinPort, ← joined, texts]
      decide
    · intro onHub
      have noColon : ':' ∉ host.map Char.toLower := by
        rw [← mem_stripLast '.' ':' _ (by decide), onHub]
        decide
      have portless : cutPort (host.map Char.toLower) = (host.map Char.toLower, none) :=
        (cutPort_eq _ _ none).mpr ⟨rfl, by simp, fun _ => noColon⟩
      rw [portless] at cut
      cases cut
      rw [onHub, hubParts] at parts
      have docker : parseHostLabel "docker".toList = .ok (.literal "docker".toList) := by decide
      have io : parseHostLabel "io".toList = .ok (.literal "io".toList) := by decide
      cases parts with
      | cons first rest =>
        cases rest with
        | cons second done =>
          cases done
          rw [docker] at first
          rw [io] at second
          cases first
          cases second
          rfl

/-- Every written host can be written by a reference, in no more room. -/
theorem host_reaches (explicit : isPatternHost host = true) (values : VariableValues)
    (bound : BindsA values (hostPieces pattern)) :
    ∃ written normal, WritesHost values pattern written normal ∧ byteLen written ≤ byteLen host ∧
      (normal = defaultHost → pattern = hubLabels) := by
  have fits : ∀ written normal, WritesHost values pattern written normal → written.length ≤ host.length →
      byteLen written ≤ byteLen host := by
    intro written normal writes short
    rw [byteLen_of_ascii _ fun c member => isLegalReferenceChar_ascii c (writes.legal c member)]
    exact Nat.le_trans short (length_le_byteLen host)
  rcases parseHost_some host pattern parsed with
    ⟨suffix, spelt, valid, rfl⟩ | ⟨name, port, labels, cut, numeric, rfl, parts⟩
  · have writes := suffix_reaches _ valid values
    refine ⟨_, _, writes, fits _ _ writes ?_, ?_⟩
    · have shorter := stripLast_length '.' (suffix.map Char.toLower)
      rw [List.length_map] at shorter
      rw [spelt, List.length_cons, List.length_cons, List.length_cons, List.length_cons]
      omega
    · intro onHub
      have first : defaultHost.head? = some 'd' := by decide
      rw [← onHub, List.head?_cons, Option.some.injEq] at first
      exact absurd first (by decide)
  · by_cases looks : isHostComponent (joinPort (fillHostName labels) port) = true
    · obtain ⟨writes, short, hub⟩ :=
        labels_reach_hosted host name port labels values cut parts bound numeric looks
      exact ⟨_, _, writes, fits _ _ writes short, hub⟩
    · obtain ⟨label, writes, short, notHub⟩ :=
        labels_reach_bare host name port labels values explicit cut parts bound (by simpa using looks)
      exact ⟨_, label, writes, fits _ _ writes short, fun onHub => absurd onHub notHub⟩

end WrittenHost

/-! ## The two kinds of pattern without a match -/

/-- One component other than `**`, and nothing more of a path, on Docker Hub however its
name is spelt. -/
def HubSingle (host rest : Text) : Prop :=
  stripLast '.' (host.map Char.toLower) = defaultHost ∧ '/' ∉ rest ∧ ¬ ['*', '*'] <+: rest

/-- Two stars are a whole segment or none. -/
theorem parseSegment_stars (rest : Text) (segment : PathSegment)
    (h : parseSegment ('*' :: '*' :: rest) = .ok segment) : rest = [] ∧ segment = .doubleStar := by
  rcases (parseSegment_eq_ok _ _).mp h with ⟨whole, rfl⟩ | ⟨-, pieces, glob, -⟩
  · exact ⟨by simpa using whole, rfl⟩
  · simp [parseGlob, parseGlobLoop, bind_eq_ok] at glob

section Written
variable (text host rest : Text) (p : Pattern) (parsed : Pattern.parse text = .ok p)
  (written : text = host ++ '/' :: rest) (first : '/' ∉ host) (explicit : isPatternHost host = true)
include parsed written first explicit

/-- A pattern text with a written host, cut into its parts. -/
theorem written_cut : ∃ path tag, PatternCut text (host ++ '/' :: path) tag p.anyDigest ∧
    rest = path ++ (tagText tag ++ optInText p.anyDigest) ∧ parseHost (some host) = .ok p.host ∧
    List.Forall₂ (fun text segment => parseSegment text = .ok segment) (path.splitOn '/') p.path ∧
    parseTag tag = .ok p.tag := by
  obtain ⟨-, -, name, tag, host', path, cut, -, -, -, split, hhost, hpath, parsedTag⟩ :=
    (patternParse_iff_cut _ _).mp parsed
  have noSlash := PatternCut.version_slash _ _ _ _ cut
  have whole := cut.whole
  rw [List.append_assoc] at whole
  obtain ⟨inner, rfl, tail⟩ : ∃ inner, name = host ++ '/' :: inner ∧
      rest = inner ++ (tagText tag ++ optInText p.anyDigest) := by
    have front := splitOnce_append '/' host rest first
    cases cutName : splitOnce '/' name with
    | none =>
      have absent := (splitOnce_eq_none _ _).mp cutName
      have slash : '/' ∈ name ++ (tagText tag ++ optInText p.anyDigest) := by
        rw [← whole, written]
        simp
      exact absurd (List.mem_append.mp slash) (by simp [absent, noSlash])
    | some pair =>
      obtain ⟨a, b⟩ := pair
      obtain ⟨rfl, absent⟩ := (splitOnce_eq_some _ _ _ _).mp cutName
      have again := splitOnce_append '/' a (b ++ (tagText tag ++ optInText p.anyDigest)) absent
      rw [← written, whole, List.append_assoc, List.cons_append, again] at front
      cases front
      exact ⟨b, rfl, rfl⟩
  unfold splitPatternHost at split
  rw [splitOnce_append '/' host inner first] at split
  simp only [guard_eq_ok, explicit, if_true, Except.ok.injEq, Prod.mk.injEq] at split
  obtain ⟨-, rfl, rfl⟩ := split
  obtain ⟨-, segments⟩ := (parsePath_eq_ok _ _ _).mp hpath
  rw [if_neg fun onDefault => written_not_default host p.host hhost onDefault.1] at segments
  exact ⟨inner, tag, cut, tail, hhost, segments, parsedTag⟩

theorem hubSingle_iff : HubSingle host rest ↔ p.host = hubLabels ∧ ∃ pieces, p.path = [.glob pieces] := by
  obtain ⟨path, tag, cut, rfl, hhost, segments, -⟩ := written_cut text host rest p parsed written first explicit
  have noSlash := PatternCut.version_slash _ _ _ _ cut
  rw [HubSingle, ← written_hub_iff host p.host hhost]
  refine and_congr_right fun _ => ?_
  constructor
  · rintro ⟨single, notStars⟩
    have absent : '/' ∉ path := fun member => single (List.mem_append_left _ member)
    rw [List.splitOn_eq_singleton absent] at segments
    obtain ⟨segment, done, one, none, whole⟩ := List.forall₂_cons_left_iff.mp segments
    rw [List.forall₂_nil_left_iff.mp none] at whole
    rcases (parseSegment_eq_ok _ _).mp one with ⟨rfl, -⟩ | ⟨-, pieces, -, rfl⟩
    · exact absurd (List.prefix_append _ _) notStars
    · exact ⟨pieces, whole⟩
  · rintro ⟨pieces, single⟩
    rw [single] at segments
    obtain ⟨absent, one⟩ := (forall₂_splitOn_singleton _ '/' _ _).mp segments
    refine ⟨by simp [absent, noSlash], ?_⟩
    rintro ⟨more, join⟩
    have version : (tagText tag ++ optInText p.anyDigest).head? ≠ some '*' := by
      cases tag with
      | some tag => simp [tagText]
      | none => cases p.anyDigest <;> simp [tagText, optInText, anyDigestSuffix]
    cases path with
    | nil =>
      rw [List.nil_append] at join
      rw [← join] at version
      exact version rfl
    | cons c path =>
      simp only [List.cons_append, List.nil_append, List.cons.injEq] at join
      obtain ⟨rfl, join⟩ := join
      cases path with
      | nil =>
        rw [List.nil_append] at join
        rw [← join] at version
        exact version rfl
      | cons d path =>
        simp only [List.cons_append, List.cons.injEq] at join
        obtain ⟨rfl, -⟩ := join
        cases (parseSegment_stars path _ one).2

/-- A pattern with a written host matches some reference under some values, unless its tag
constraint is longer than a tag may be or it asks for one component on Docker Hub. -/
theorem pattern_satisfiable_iff :
    (∃ values raw r, ImageReference.parse raw = .ok r ∧ p.matchesReference r values = true) ↔
      ¬ TagOutOfReach text ∧ ¬ HubSingle host rest := by
  obtain ⟨path, tag, cut, -, hhost, segments, parsedTag⟩ :=
    written_cut text host rest p parsed written first explicit
  rw [hubSingle_iff text host rest p parsed written first explicit]
  constructor
  · rintro ⟨values, raw, r, reference, matched⟩
    refine ⟨?_, ?_⟩
    · intro out
      rw [outOfReach_matches_nothing text _ tag p cut (by simp) parsedTag out raw r values reference] at matched
      cases matched
    · rintro ⟨onHub, pieces, single⟩
      rw [hubGlob_matches_nothing text p pieces parsed onHub single raw r values reference] at matched
      cases matched
  · rintro ⟨reach, notSingle⟩
    have bound := allA_binds p p.pieces fun _ member => member
    obtain ⟨host', normal, writes, shorter, hub⟩ := host_reaches host p.host hhost explicit (allA p) (by
      intro name member
      exact bound name (by cases pattern : p.host <;> simp_all [Pattern.pieces, hostPieces]))
    have some_ : p.path ≠ [] := by
      intro empty
      rw [empty, List.forall₂_nil_right_iff] at segments
      exact List.splitOn_ne_nil _ _ segments
    have joined : ['/'].intercalate (path.splitOn '/') = path := List.intercalate_splitOn '/'
    rw [← joined] at cut
    obtain ⟨raw, r, reference, matched⟩ := pattern_reaches text host host' normal (path.splitOn '/') tag p
      (allA p) parsed cut segments some_ parsedTag bound writes.free writes.legal writes.explicit
      writes.normalized shorter writes.meaning reach fun both => notSingle ⟨hub both.1, both.2⟩
    exact ⟨allA p, raw, r, reference, matched⟩

end Written

theorem pattern_satisfiable_iff_team :
    ∃ p, Pattern.parse "\x7bTEAM_NAME\x7d.internal/dev-*:v1.*".toList = .ok p ∧
      ((∃ values raw r, ImageReference.parse raw = .ok r ∧ p.matchesReference r values = true) ↔
        ¬ TagOutOfReach "\x7bTEAM_NAME\x7d.internal/dev-*:v1.*".toList ∧
          ¬ HubSingle "\x7bTEAM_NAME\x7d.internal".toList "dev-*:v1.*".toList) := by
  have parsed : Pattern.parse "\x7bTEAM_NAME\x7d.internal/dev-*:v1.*".toList = .ok
      ⟨"\x7bTEAM_NAME\x7d.internal/dev-*:v1.*".toList,
        .labels [.var ⟨teamNameVariable, by decide⟩, .literal "internal".toList] none,
        [.glob [.literal "dev-".toList, .star]], some [.literal "v1.".toList, .star], false⟩ := by decide
  exact ⟨_, parsed, pattern_satisfiable_iff _ _ _ _ parsed rfl (by decide) (by decide)⟩

/-- A tag run of 129 characters in front of a star, which no tag can hold. -/
def longRun : Text := List.replicate 129 'a' ++ ['*']

def longRunPattern : Pattern :=
  ⟨"quay.io/x:".toList ++ longRun, .labels [.literal "quay".toList, .literal "io".toList] none,
    [.glob [.literal "x".toList]], some [.literal (List.replicate 129 'a'), .star], false⟩

theorem longRun_unsatisfiable :
    ¬ ∀ (text host rest : Text) (p : Pattern), Pattern.parse text = .ok p → text = host ++ '/' :: rest →
      '/' ∉ host → isPatternHost host = true → stripLast '.' (host.map Char.toLower) ≠ defaultHost →
      ∃ values raw r, ImageReference.parse raw = .ok r ∧ p.matchesReference r values = true := by
  intro satisfiable
  have parsed : Pattern.parse longRunPattern.raw = .ok longRunPattern := by decide +kernel
  have glob : parseGlob longRun .tag = .ok [.literal (List.replicate 129 'a'), .star] := by decide +kernel
  obtain ⟨values, raw, r, reference, matched⟩ := satisfiable longRunPattern.raw "quay.io".toList
    ("x:".toList ++ longRun) longRunPattern parsed rfl (by decide) (by decide) (by decide)
  have refused := longTag_matches_nothing longRun longRunPattern _ rfl rfl glob (by decide +kernel) raw r
    values reference
  rw [refused] at matched
  cases matched

end WeeboSi.ImagePolicy
