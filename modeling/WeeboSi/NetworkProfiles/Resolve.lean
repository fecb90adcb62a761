import WeeboSi.Crd.TeamGrants

/-!
# Selecting network profiles

Source: crates/weebo-si-network-profiles/src/resolve.rs:20-150 and
crates/weebo-si-crd/src/network_profiles.rs:70-371. What the configuration says of the mode,
the selection keys and the enforcement is read elsewhere and left out.
-/
namespace WeeboSi.NetworkProfiles
open WeeboSi.Lib WeeboSi.Crd

abbrev ProfileKey := Text

/-- The dialect a policy is written in. -/
inductive Backend where
  | networkPolicy | cilium
  deriving DecidableEq, Repr

structure TemplateRef where
  name : Text
  namespaceName : Text
  deriving DecidableEq, Repr

structure Variant where
  backend : Backend
  templateRef : TemplateRef
  deriving DecidableEq, Repr

structure Profile where
  key : ProfileKey
  variants : List Variant
  deriving DecidableEq, Repr

structure ProfileGrant where
  allowed : List ProfileKey
  default : List ProfileKey
  deriving DecidableEq, Repr

/-- The block of a team object. -/
structure TeamNetworkProfiles where
  catalog : List Profile
  default : List ProfileKey
  deriving DecidableEq, Repr

inductive OnNotGranted where
  | default | deny
  deriving DecidableEq, Repr

structure NetworkProfilesConfig where
  catalog : List Profile
  baseline : ProfileKey
  onNotGranted : OnNotGranted
  deriving DecidableEq, Repr

abbrev ResolvedNetworkProfilesConfig := Resolved NetworkProfilesConfig ProfileGrant

def TeamNetworkProfiles.grant (baseline : ProfileKey) (block : TeamNetworkProfiles) : ProfileGrant :=
  ⟨widened (block.catalog.map Profile.key) baseline, block.default⟩

def NetworkProfilesConfig.resolve (config : NetworkProfilesConfig)
    (teams : List (WeeboSiTeam TeamNetworkProfiles)) :
    ResolvedNetworkProfilesConfig × List (CatalogConflict ProfileKey) :=
  let (entries, conflicts) :=
    mergeCatalogs config.catalog (teamBlocks teams TeamNetworkProfiles.catalog) Profile.key
  (⟨{ config with catalog := entries }, teamGrants teams (TeamNetworkProfiles.grant config.baseline)⟩,
    conflicts)

/-! ## Resolution -/

inductive ResolutionStep where
  | workspaceAttribute | annotatedNamespace | grantDefault
  deriving DecidableEq, Repr

structure Provenance where
  team : Option Text
  step : ResolutionStep
  resolved : List ProfileKey
  droppedNotGranted : List ProfileKey
  deriving DecidableEq, Repr

structure NotGranted where
  team : Option Text
  requested : List ProfileKey
  deriving DecidableEq, Repr

/-- Comma-separated, trimmed, without empty or repeated keys. -/
def parseKeys (raw : Text) : List ProfileKey :=
  (((raw.splitOn ',').map trim).filter (· ≠ [])).eraseDups

/-- A team without a grant, or no team, reaches the baseline and nothing else. -/
def grantFor (config : ResolvedNetworkProfilesConfig) (team : Option Team) : ProfileGrant :=
  match team with
  | some team => (config.grants.lookup team.name).getD ⟨[], []⟩
  | none => ⟨[], []⟩

/-- The workspace's attribute, else the namespace's annotation, else the grant's default. -/
def requestedKeys (grant : ProfileGrant) (annotated attributed : Option Text) :
    List ProfileKey × ResolutionStep :=
  match attributed, annotated with
  | some raw, _ => (parseKeys raw, .workspaceAttribute)
  | none, some raw => (parseKeys raw, .annotatedNamespace)
  | none, none => (grant.default, .grantDefault)

def resolve (teams : List Team) (config : ResolvedNetworkProfilesConfig) (labels : Labels)
    (annotated attributed : Option Text) : Except NotGranted Provenance :=
  let team := teams.find? fun team => team.namespaceSelector.matchesLabels labels
  let grant := grantFor config team
  let (requested, step) := requestedKeys grant annotated attributed
  let notGranted := requested.filter fun key => !grant.allowed.contains key
  if notGranted = [] then .ok ⟨team.map Team.name, step, requested, []⟩
  else match config.config.onNotGranted with
    | .deny => .error ⟨team.map Team.name, notGranted⟩
    | .default => .ok ⟨team.map Team.name, .grantDefault, grant.default, notGranted⟩

/-- Everything `resolve` returns is granted exactly when the default is, or what is not granted
is refused, or the whole request is granted. -/
theorem resolve_within_iff (teams : List Team) (config : ResolvedNetworkProfilesConfig) (labels : Labels)
    (annotated attributed : Option Text) (grant : ProfileGrant)
    (matched : grantFor config (teams.find? fun team => team.namespaceSelector.matchesLabels labels) = grant) :
    (∀ provenance, resolve teams config labels annotated attributed = .ok provenance →
        ∀ key ∈ provenance.resolved, key ∈ grant.allowed) ↔
      (∀ key ∈ grant.default, key ∈ grant.allowed) ∨ config.config.onNotGranted = .deny ∨
        ∀ key ∈ (requestedKeys grant annotated attributed).1, key ∈ grant.allowed := by
  unfold resolve
  simp only [matched]
  by_cases all : ∀ key ∈ (requestedKeys grant annotated attributed).1, key ∈ grant.allowed
  · have none_ : ((requestedKeys grant annotated attributed).1.filter fun key =>
        !grant.allowed.contains key) = [] := by
      simpa using all
    refine iff_of_true ?_ (Or.inr (Or.inr all))
    intro provenance resolved
    rw [if_pos none_] at resolved
    cases resolved
    exact all
  · have some_ : ((requestedKeys grant annotated attributed).1.filter fun key =>
        !grant.allowed.contains key) ≠ [] := by
      simpa using all
    simp only [if_neg some_, all, or_false]
    cases config.config.onNotGranted with
    | deny => simp
    | default => simp

end WeeboSi.NetworkProfiles
