import WeeboSi.Crd.Team
import WeeboSi.EndpointAuth.Compile
import WeeboSi.Lib.Lists

/-!
# The endpoint catalogue

Source: bins/endpoint-gateway/src/adapters/kube_catalog.rs:215-285, 431-568 and
crates/weebo-si-crd/src/endpoint_auth.rs:95-188, 812-834, 1047-1100, 1214-1221. Of the
configuration the fields that are compiled from are kept, and of the objects those that
`rebuild` reads for a policy.
-/
namespace WeeboSi.Crd
open WeeboSi.Lib

abbrev AccessKey := Text

inductive DelegationKind where
  | team | usersAndGroups
  deriving DecidableEq, Repr

structure AccessEntry where
  key : AccessKey
  anonymous : Bool
  delegation : List DelegationKind
  deriving DecidableEq, Repr

structure AccessGrant where
  allowed : List AccessKey
  default : AccessKey
  deriving DecidableEq, Repr

/-- The block of a team object. -/
structure TeamEndpointAuth where
  catalog : List AccessEntry
  default : AccessKey
  deriving DecidableEq, Repr

/-- Usernames, or namespaces by their labels. -/
structure OverrideMatch where
  users : List Text
  namespaceSelector : Option Selector
  deriving DecidableEq, Repr

def OverrideMatch.matchesUser (matcher : OverrideMatch) (username : Text) : Bool :=
  matcher.users.any fun pattern =>
    if pattern.getLast? = some '*' then pattern.dropLast.isPrefixOf username else pattern == username

structure EndpointOverride where
  matcher : OverrideMatch
  allowed : Option (List AccessKey)
  default : Option AccessKey
  delegation : Option (List DelegationKind)
  deriving DecidableEq, Repr

structure EndpointAuthConfig where
  ownerAnnotated : Text
  catalog : List AccessEntry
  default : AccessKey
  overrides : List EndpointOverride
  deriving DecidableEq, Repr

abbrev ResolvedEndpointAuthConfig := Resolved EndpointAuthConfig AccessGrant

/-- The team objects merged in. A team's grant is the catalogue it declares and the
cluster's default. -/
def EndpointAuthConfig.resolve (config : EndpointAuthConfig) (teams : List (WeeboSiTeam TeamEndpointAuth)) :
    ResolvedEndpointAuthConfig × List (CatalogConflict AccessKey) :=
  let ordered := resolutionOrder teams
  let blocks := ordered.filterMap fun team => team.features.map fun block => (team.name, block.catalog)
  let (entries, conflicts) := mergeCatalogs config.catalog blocks AccessEntry.key
  let grants := ordered.filterMap fun team => team.features.map fun block =>
    let own := block.catalog.map AccessEntry.key
    (team.name, { allowed := if own.contains config.default then own else own ++ [config.default],
                  default := block.default : AccessGrant })
  (⟨{ config with catalog := entries }, mapOf grants⟩, conflicts)

/-- The grant of a namespace in `team`, or the cluster's default. -/
def endpointGrantFor (config : ResolvedEndpointAuthConfig) (team : Option Text) : AccessGrant :=
  (team.bind fun name => config.grants.lookup name).getD ⟨[config.config.default], config.config.default⟩

end WeeboSi.Crd

namespace WeeboSi.Gateway
open WeeboSi.Lib WeeboSi.Crd WeeboSi.EndpointAuth

/-! ## Translating -/

def translateDelegation : DelegationKind → Delegation
  | .team => .team
  | .usersAndGroups => .usersAndGroups

/-- An entry that is both anonymous and delegating is dropped. -/
def catalogueFrom (entries : List (CatalogueKey × Bool × List Delegation)) : Catalogue :=
  let kept := entries.filter fun (_, anonymous, delegation) => !(anonymous && delegation ≠ [])
  match Catalogue.new kept with
  | .ok catalogue => catalogue
  | .error _ => .empty

/-- One override: its matcher becomes its list of users, whatever it selects. -/
def translateOverride (declared : EndpointOverride) : Override where
  matcher := .users declared.matcher.users
  allowed := declared.allowed
  default := declared.default
  delegation := declared.delegation.map fun kinds => kinds.map translateDelegation

def translate (feature : ResolvedEndpointAuthConfig) : Catalogue × List Override :=
  (catalogueFrom (feature.config.catalog.map fun entry =>
      (entry.key, entry.anonymous, entry.delegation.map translateDelegation)),
    feature.config.overrides.map translateOverride)

def grantFor (feature : ResolvedEndpointAuthConfig) (team : Option Text) : Grant :=
  let grant := endpointGrantFor feature team
  ⟨grant.allowed, grant.default⟩

/-! ## Compiling the objects -/

structure Namespace where
  name : Text
  annotations : List (Text × Text)
  labels : Labels
  deriving DecidableEq, Repr

structure Ingress where
  annotations : List (Text × Text)
  labels : Labels
  deriving DecidableEq, Repr

structure Owner where
  username : Username
  team : Option TeamName
  deriving DecidableEq, Repr

/-- What `owners_of` reads off one namespace: the first team whose selector matches wins. -/
def ownerOf (feature : ResolvedEndpointAuthConfig) (teams : List Team) (ns : Namespace) : Option Owner := do
  let username ← ns.annotations.lookup feature.config.ownerAnnotated
  let team := teams.find? fun team => team.namespaceSelector.matchesLabels ns.labels
  some ⟨username, team.map Team.name⟩

def rawEndpoint (ns : Namespace) (ingress : Ingress) (owner : Owner) : RawEndpoint where
  namespaceName := ns.name
  owner := owner.username
  team := owner.team
  access := ingress.annotations.lookup "hardening.weebo.io/access".toList
  allowUsers := ingress.annotations.lookup "hardening.weebo.io/allow-users".toList
  allowGroups := ingress.annotations.lookup "hardening.weebo.io/allow-groups".toList
  rules := ingress.annotations.lookup "hardening.weebo.io/rules".toList
  upstream := ingress.annotations.lookup "hardening.weebo.io/upstream".toList
  provenance :=
    if (ingress.labels.lookup "controller.devfile.io/devworkspace_id".toList).isSome then .devfile
    else .author

/-- The policy `rebuild` indexes for one object of a namespace with an owner. -/
def indexedPolicy (yaml : Text → Except Text (List WireRule)) (feature : ResolvedEndpointAuthConfig)
    (teams : List Team) (settings : CompileSettings) (generation : Nat) (ns : Namespace)
    (ingress : Ingress) : Option EndpointPolicy := do
  let owner ← ownerOf feature teams ns
  let raw := rawEndpoint ns ingress owner
  let (catalogue, overrides) := translate feature
  match compile yaml raw catalogue (grantFor feature owner.team) overrides settings generation with
  | .ok policy => some policy
  | .error _ => some (.closed raw generation)

/-! ## Which overrides reach a policy -/

/-- The namespace's labels are selected. -/
def selects (declared : EndpointOverride) (ns : Namespace) : Bool :=
  declared.matcher.namespaceSelector.any fun selector => selector.matchesLabels ns.labels

/-- What an override is for: it names the owner or selects the namespace. -/
def concerns (owner : Owner) (ns : Namespace) (declared : EndpointOverride) : Bool :=
  declared.matcher.matchesUser owner.username || selects declared ns

/-- The overrides that an endpoint of the namespace is compiled under are those that concern
it, in the order they are declared in, and the first of them is the one applied. -/
def OverridesReach (feature : ResolvedEndpointAuthConfig) (ns : Namespace) (owner : Owner)
    (ingress : Ingress) : Prop :=
  let raw := rawEndpoint ns ingress owner
  ((translate feature).2.filter fun o => o.matcher.covers raw.owner raw.namespaceName) =
      (feature.config.overrides.filter (concerns owner ns)).map translateOverride ∧
    applicable raw (translate feature).2 =
      (feature.config.overrides.find? (concerns owner ns)).map translateOverride

@[simp] theorem covers_translateOverride (declared : EndpointOverride) (owner : Username)
    (ns : NamespaceName) :
    (translateOverride declared).matcher.covers owner ns = declared.matcher.matchesUser owner := rfl

theorem filter_translate (feature : ResolvedEndpointAuthConfig) (owner : Username) (ns : NamespaceName) :
    ((translate feature).2.filter fun o => o.matcher.covers owner ns) =
      (feature.config.overrides.filter fun declared => declared.matcher.matchesUser owner).map
        translateOverride := by
  simp only [translate, List.filter_map]
  rfl

section Reach
variable (feature : ResolvedEndpointAuthConfig) (ns : Namespace) (owner : Owner) (ingress : Ingress)

/-- Each override that selects the namespace also names its owner. -/
def SelectedNamed : Prop :=
  ∀ declared ∈ feature.config.overrides, selects declared ns = true →
    declared.matcher.matchesUser owner.username = true

theorem selectedNamed_iff :
    SelectedNamed feature ns owner ↔
      (feature.config.overrides.filter fun declared => declared.matcher.matchesUser owner.username).map
          translateOverride =
        (feature.config.overrides.filter (concerns owner ns)).map translateOverride := by
  rw [filter_map_eq_iff]
  · unfold SelectedNamed
    simp only [concerns, Bool.or_eq_true]
    exact forall₂_congr fun declared _ => ⟨fun h => Or.rec id h, fun h matched => h (.inr matched)⟩
  · intro declared named
    simp [concerns, named]

theorem applicable_translate (named : SelectedNamed feature ns owner) :
    applicable (rawEndpoint ns ingress owner) (translate feature).2 =
      (feature.config.overrides.find? (concerns owner ns)).map translateOverride := by
  have first := congrArg List.head? ((selectedNamed_iff feature ns owner).mp named)
  rw [List.head?_map, List.head?_map, List.head?_filter, List.head?_filter] at first
  rw [← first]
  simp only [applicable, translate, List.find?_map]
  rfl

/-- What a namespace is then served: the policy under the first override that concerns it. -/
theorem indexedPolicy_of_selectedNamed (yaml : Text → Except Text (List WireRule)) (teams : List Team)
    (settings : CompileSettings) (generation : Nat) (owned : ownerOf feature teams ns = some owner)
    (named : SelectedNamed feature ns owner) :
    indexedPolicy yaml feature teams settings generation ns ingress =
      let raw := rawEndpoint ns ingress owner
      let override := (feature.config.overrides.find? (concerns owner ns)).map translateOverride
      match compileWithin yaml raw (translate feature).1 (bounds (grantFor feature owner.team) override)
        settings generation with
      | .ok policy => some policy
      | .error _ => some (.closed raw generation) := by
  simp only [indexedPolicy, owned, Option.bind_eq_bind, Option.bind_some, compile,
    applicable_translate feature ns owner ingress named]

/-- The declared overrides reach the policies of a namespace exactly when each one that
selects it also names its owner. -/
theorem overrides_reach_iff :
    OverridesReach feature ns owner ingress ↔
      ∀ declared ∈ feature.config.overrides, selects declared ns = true →
        declared.matcher.matchesUser owner.username = true := by
  change _ ↔ SelectedNamed feature ns owner
  unfold OverridesReach
  simp only [filter_translate]
  constructor
  · exact fun reach => (selectedNamed_iff feature ns owner).mpr reach.1
  · exact fun named =>
      ⟨(selectedNamed_iff feature ns owner).mp named, applicable_translate feature ns owner ingress named⟩

end Reach

/-- Whoever works in a contractors' namespace may not share an endpoint. -/
def contractorsOverride : EndpointOverride where
  matcher := ⟨[], some ⟨[("team".toList, "contractors".toList)], []⟩⟩
  allowed := none
  default := none
  delegation := some []

def contractorsConfig : ResolvedEndpointAuthConfig where
  config :=
    { ownerAnnotated := "che.eclipse.org/username".toList
      catalog := [⟨"private".toList, false, []⟩, ⟨"shared".toList, false, [.usersAndGroups]⟩]
      default := "shared".toList
      overrides := [contractorsOverride] }
  grants := []

def erinNamespace : Namespace where
  name := "user-erin".toList
  annotations := [("che.eclipse.org/username".toList, "erin".toList)]
  labels := [("team".toList, "contractors".toList)]

/-- The override selects the namespace and names nobody: no endpoint is compiled under it. -/
theorem selector_override_dropped :
    ¬ ∀ (feature : ResolvedEndpointAuthConfig) (teams : List Team) (ns : Namespace) (owner : Owner)
      (ingress : Ingress), ownerOf feature teams ns = some owner →
      OverridesReach feature ns owner ingress := by
  intro reach
  have applied := (reach contractorsConfig [] erinNamespace ⟨"erin".toList, none⟩ ⟨[], []⟩ (by decide)).2
  exact absurd applied (by decide)

end WeeboSi.Gateway
