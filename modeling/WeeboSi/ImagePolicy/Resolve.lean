import WeeboSi.Crd.Team
import WeeboSi.ImagePolicy.Pattern

/-!
# Selecting entries and judging an image

Source: crates/weebo-si-image-policy/src/resolve.rs:62-256, verdict.rs:10-45 and
crates/weebo-si-crd/src/image_policy.rs:33-315. Two enforcement points share the team
match and the grant: `resolve` serves the DevWorkspace half, `allowedSet` the Pod half.
-/
namespace WeeboSi.ImagePolicy
open WeeboSi.Lib WeeboSi.Crd

abbrev EntryKey := Text

structure Entry where
  key : EntryKey
  patterns : List Text
  deriving DecidableEq, Repr

structure ImageGrant where
  allowed : List EntryKey
  default : List EntryKey
  deriving DecidableEq, Repr

inductive OnUnknownKey where
  | default
  | deny
  deriving DecidableEq, Repr

/-- The block of a team object. -/
structure TeamImagePolicy where
  catalog : List Entry
  default : List EntryKey
  deriving DecidableEq, Repr

structure ImagePolicyConfig where
  catalog : List Entry
  default : List EntryKey
  onNotGranted : OnUnknownKey
  deriving DecidableEq, Repr

abbrev ResolvedImagePolicyConfig := Resolved ImagePolicyConfig ImageGrant

def catalogEntry (catalog : List Entry) (key : EntryKey) : Option Entry :=
  catalog.find? fun entry => entry.key = key

/-- A team's own keys, and the cluster's default keys behind them. -/
def withDefaults (own defaults : List EntryKey) : List EntryKey :=
  defaults.foldl (fun allowed key => if allowed.contains key then allowed else allowed ++ [key]) own

namespace ImagePolicyConfig

/-- The team objects merged in. A team's grant is the catalogue it declares; its default is
taken as written. -/
def resolve (config : ImagePolicyConfig) (teams : List (WeeboSiTeam TeamImagePolicy)) :
    ResolvedImagePolicyConfig × List (CatalogConflict EntryKey) :=
  let ordered := resolutionOrder teams
  let blocks := ordered.filterMap fun team => team.features.map fun block => (team.name, block.catalog)
  let (entries, conflicts) := mergeCatalogs config.catalog blocks Entry.key
  let grants := ordered.filterMap fun team => team.features.map fun block =>
    (team.name, { allowed := withDefaults (block.catalog.map Entry.key) config.default,
                  default := block.default })
  (⟨{ config with catalog := entries }, mapOf grants⟩, conflicts)

end ImagePolicyConfig

inductive ResolutionStep where
  | workspaceAttribute | namespaceAnnotated | grantDefault | teamBoundary
  deriving DecidableEq, Repr

structure Provenance where
  team : Option Text
  step : ResolutionStep
  resolved : List EntryKey
  droppedNotGranted : List EntryKey
  deriving DecidableEq, Repr

structure NotGranted where
  team : Option Text
  requested : List EntryKey
  deriving DecidableEq, Repr

/-- Comma-separated, trimmed, without empty or repeated keys. -/
def parseKeys (raw : Text) : List EntryKey :=
  (((raw.splitOn ',').map trim).filter (· ≠ [])).eraseDups

def matchTeam (teams : List Team) (labels : Labels) : Option Team :=
  teams.find? fun team => team.namespaceSelector.matchesLabels labels

/-- Without a team or a grant for it: the top-level default, as allowed and as default. -/
def grantFor (config : ResolvedImagePolicyConfig) (team : Option Team) : Option Text × ImageGrant :=
  let fallback : ImageGrant := ⟨config.config.default, config.config.default⟩
  match team with
  | some team => (some team.name, (config.grants.lookup team.name).getD fallback)
  | none => (none, fallback)

/-- The workspace's attribute, else the namespace's annotation, else the grant's default. -/
def requestedKeys (grant : ImageGrant) (annotated attributed : Option Text) :
    List EntryKey × ResolutionStep :=
  match attributed, annotated with
  | some raw, _ => (parseKeys raw, .workspaceAttribute)
  | none, some raw => (parseKeys raw, .namespaceAnnotated)
  | none, none => (grant.default, .grantDefault)

def resolve (teams : List Team) (config : ResolvedImagePolicyConfig) (labels : Labels)
    (annotated attributed : Option Text) : Except NotGranted Provenance :=
  let (team, grant) := grantFor config (matchTeam teams labels)
  let (requested, step) := requestedKeys grant annotated attributed
  let notGranted := requested.filter fun key => !grant.allowed.contains key
  if notGranted = [] then .ok ⟨team, step, requested, []⟩
  else match config.config.onNotGranted with
    | .deny => .error ⟨team, notGranted⟩
    | .default => .ok ⟨team, .grantDefault, grant.default, notGranted⟩

def allowedSet (teams : List Team) (config : ResolvedImagePolicyConfig) (labels : Labels) :
    Provenance :=
  let (team, grant) := grantFor config (matchTeam teams labels)
  ⟨team, .teamBoundary, grant.allowed, []⟩

/-! ## Judging -/

inductive PermittedBy where
  | entry (key : EntryKey)
  | platform
  deriving DecidableEq, Repr

inductive Verdict where
  | permitted (by_ : PermittedBy)
  | noMatchingPattern
  | unparseable (error : ParseError)
  deriving DecidableEq, Repr

def Verdict.isPermitted : Verdict → Bool
  | .permitted _ => true
  | _ => false

/-- An entry with one unparseable pattern grants nothing. -/
def entryPatterns (config : ResolvedImagePolicyConfig) (key : EntryKey) : List (PermittedBy × Pattern) :=
  match catalogEntry config.config.catalog key with
  | none => []
  | some entry =>
    match entry.patterns.mapM Pattern.parse with
    | .ok parsed => parsed.map fun pattern => (.entry key, pattern)
    | .error _ => []

def effectivePatterns (config : ResolvedImagePolicyConfig) (resolved : List EntryKey)
    (platform : List Pattern) : List (PermittedBy × Pattern) :=
  (platform.map fun pattern => (.platform, pattern)) ++ resolved.flatMap (entryPatterns config)

/-- The first match wins; what does not parse is denied. -/
def judge (raw : Text) (union : List (PermittedBy × Pattern)) (values : VariableValues) : Verdict :=
  match ImageReference.parse raw with
  | .error e => .unparseable e
  | .ok r =>
    match union.find? fun (_, pattern) => pattern.matchesReference r values with
    | some (by_, _) => .permitted by_
    | none => .noMatchingPattern

/-! ## The two halves compared -/

theorem judge_permitted_iff (raw : Text) (union : List (PermittedBy × Pattern))
    (values : VariableValues) :
    (judge raw union values).isPermitted = true ↔
      ∃ r, ImageReference.parse raw = .ok r ∧
        ∃ pair ∈ union, Pattern.matchesReference pair.2 r values = true := by
  unfold judge
  cases ImageReference.parse raw with
  | error e => simp [Verdict.isPermitted]
  | ok r =>
    simp only [Except.ok.injEq, exists_eq_left']
    cases found : union.find? fun (_, pattern) => pattern.matchesReference r values with
    | none =>
      simp only [Verdict.isPermitted, Bool.false_eq_true, false_iff, not_exists, not_and]
      intro pair member matched
      exact List.find?_eq_none.mp found pair member matched
    | some pair =>
      simp only [Verdict.isPermitted, true_iff]
      have matched := List.find?_some found
      exact ⟨pair, List.mem_of_find?_eq_some found, matched⟩

/-- More keys never permit less. -/
theorem judge_mono (config : ResolvedImagePolicyConfig) (fewer more : List EntryKey)
    (platform : List Pattern) (raw : Text) (values : VariableValues)
    (subset : ∀ key ∈ fewer, key ∈ more)
    (permitted : (judge raw (effectivePatterns config fewer platform) values).isPermitted = true) :
    (judge raw (effectivePatterns config more platform) values).isPermitted = true := by
  obtain ⟨r, parsed, pair, member, matched⟩ := (judge_permitted_iff _ _ _).mp permitted
  refine (judge_permitted_iff _ _ _).mpr ⟨r, parsed, pair, ?_, matched⟩
  simp only [effectivePatterns, List.mem_append, List.mem_flatMap] at member ⊢
  rcases member with inPlatform | ⟨key, hkey, inEntry⟩
  · exact Or.inl inPlatform
  · exact Or.inr ⟨key, subset key hkey, inEntry⟩

/-- The Pod half permits whatever the DevWorkspace half granted. -/
def PodPermitsGranted (teams : List Team) (config : ResolvedImagePolicyConfig) (labels : Labels)
    (granted : Provenance) : Prop :=
  (∀ key ∈ granted.resolved, key ∈ (allowedSet teams config labels).resolved) ∧
    ∀ (platform : List Pattern) (raw : Text) (values : VariableValues),
      (judge raw (effectivePatterns config granted.resolved platform) values).isPermitted = true →
      (judge raw (effectivePatterns config (allowedSet teams config labels).resolved platform)
        values).isPermitted = true

/-- A request outside the grant falls back to a default that is itself outside the grant. -/
def FallsBackOutside (teams : List Team) (config : ResolvedImagePolicyConfig) (labels : Labels)
    (annotated attributed : Option Text) : Prop :=
  let grant := (grantFor config (matchTeam teams labels)).2
  config.config.onNotGranted = .default ∧
    (∃ key ∈ (requestedKeys grant annotated attributed).1, key ∉ grant.allowed) ∧
    ∃ key ∈ grant.default, key ∉ grant.allowed

/-- What `resolve` grants: the request if all of it is allowed, else the default. -/
theorem resolve_ok (teams : List Team) (config : ResolvedImagePolicyConfig) (labels : Labels)
    (annotated attributed : Option Text) (p : Provenance)
    (h : resolve teams config labels annotated attributed = .ok p) :
    let grant := (grantFor config (matchTeam teams labels)).2
    let requested := (requestedKeys grant annotated attributed).1
    (p.resolved = requested ∧ ∀ key ∈ requested, key ∈ grant.allowed) ∨
      (config.config.onNotGranted = .default ∧ p.resolved = grant.default ∧
        ∃ key ∈ requested, key ∉ grant.allowed) := by
  unfold resolve at h
  dsimp only at h ⊢
  have outside : ∀ requested allowed : List EntryKey,
      (requested.filter fun key => !allowed.contains key) = [] ↔ ∀ key ∈ requested, key ∈ allowed := by
    simp
  split at h
  · rename_i all
    cases h
    exact Or.inl ⟨rfl, (outside _ _).mp all⟩
  · rename_i some_
    rw [outside] at some_
    split at h
    · cases h
    · rename_i fallback
      cases h
      refine Or.inr ⟨fallback, rfl, ?_⟩
      simpa using some_

/-- The Pod half permits what the DevWorkspace half granted, unless a refused request fell
back to a default outside the grant. -/
theorem resolve_podPermits_iff (teams : List Team) (config : ResolvedImagePolicyConfig)
    (labels : Labels) (annotated attributed : Option Text) (p : Provenance)
    (granted : resolve teams config labels annotated attributed = .ok p) :
    PodPermitsGranted teams config labels p ↔
      ¬ FallsBackOutside teams config labels annotated attributed := by
  have allowed : (allowedSet teams config labels).resolved =
      (grantFor config (matchTeam teams labels)).2.allowed := rfl
  have within : (∀ key ∈ p.resolved, key ∈ (allowedSet teams config labels).resolved) ↔
      ¬ FallsBackOutside teams config labels annotated attributed := by
    rw [allowed]
    unfold FallsBackOutside
    dsimp only
    rcases resolve_ok teams config labels annotated attributed p granted with
      ⟨resolved, all⟩ | ⟨fallback, resolved, refused⟩
    · rw [resolved]
      constructor
      · rintro - ⟨-, ⟨key, member, outside⟩, -⟩
        exact outside (all key member)
      · exact fun _ => all
    · rw [resolved]
      constructor
      · rintro inside ⟨-, -, key, member, outside⟩
        exact outside (inside key member)
      · intro no key member
        by_contra outside
        exact no ⟨fallback, refused, key, member, outside⟩
  rw [← within]
  constructor
  · exact fun h => h.1
  · exact fun subset => ⟨subset, fun platform raw values permitted =>
      judge_mono config _ _ platform raw values subset permitted⟩

/-- Team `a` declares `own` and takes by default `gpu`, which team `b` declares. -/
def borrowingTeams : List (WeeboSiTeam TeamImagePolicy) :=
  [⟨"a".toList, 1, ⟨[], []⟩, some ⟨[⟨"own".toList, ["ghcr.io/a/own".toList]⟩], ["gpu".toList]⟩⟩,
    ⟨"b".toList, 2, ⟨[], []⟩, some ⟨[⟨"gpu".toList, ["ghcr.io/b/gpu".toList]⟩], []⟩⟩]

def borrowingConfig : ResolvedImagePolicyConfig :=
  (ImagePolicyConfig.resolve ⟨[], [], .default⟩ borrowingTeams).1

theorem resolve_podPermits_iff_own :
    ∃ p, resolve (teamViews borrowingTeams) borrowingConfig [] none (some "own".toList) = .ok p ∧
      (PodPermitsGranted (teamViews borrowingTeams) borrowingConfig [] p ↔
        ¬ FallsBackOutside (teamViews borrowingTeams) borrowingConfig [] none (some "own".toList)) := by
  have granted : resolve (teamViews borrowingTeams) borrowingConfig [] none (some "own".toList) =
      .ok ⟨some "a".toList, .workspaceAttribute, ["own".toList], []⟩ := by decide
  exact ⟨_, granted, resolve_podPermits_iff _ _ _ _ _ _ granted⟩

/-- A workspace of team `a` that asks for nothing is granted `gpu`; its pod is refused. -/
theorem resolve_grants_outside_allowed :
    ¬ ∀ teams config labels annotated attributed p,
      resolve teams config labels annotated attributed = .ok p →
        PodPermitsGranted teams config labels p := by
  intro permits
  have granted : resolve (teamViews borrowingTeams) borrowingConfig [] none none =
      .ok ⟨some "a".toList, .grantDefault, ["gpu".toList], ["gpu".toList]⟩ := by decide
  obtain ⟨-, pod⟩ := permits _ _ _ _ _ _ granted
  have refused := pod [] "ghcr.io/b/gpu".toList .new (by decide)
  exact absurd refused (by decide)

end WeeboSi.ImagePolicy
