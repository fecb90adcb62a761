import WeeboSi.Crd.Hosts
import WeeboSi.EndpointAuth.HostIndex
import WeeboSi.Gateway.KubeCatalog

/-!
# The catalogue snapshot and the groups it names

Source: bins/endpoint-gateway/src/adapters/kube_catalog.rs:39-56, 180-400 and 416-468. The
stores are what the informers hold; `generation` is the counter that the rebuild has just
raised. Log lines are left out.
-/
namespace WeeboSi.Gateway
open WeeboSi.Lib WeeboSi.Crd WeeboSi.EndpointAuth

/-! ## What a rebuild reads -/

/-- The feature block of the singleton: what policies are compiled from, and the hosts. -/
structure EndpointAuthFeature where
  config : EndpointAuthConfig
  hosts : HostsConfig
  deriving DecidableEq, Repr

structure WeeboSiConfig where
  name : Text
  endpointAuth : Option EndpointAuthFeature
  deriving DecidableEq, Repr

/-- An Ingress with the name and namespace it stands under and the hosts of its rules. -/
structure IngressObject where
  namespaceName : Option Text
  name : Text
  rules : Option (List (Option Text))
  ingress : Ingress
  deriving DecidableEq, Repr

structure Stores where
  configs : List WeeboSiConfig
  teams : List (WeeboSiTeam TeamEndpointAuth)
  namespaces : List Namespace
  ingresses : List IngressObject

def singletonName : Text := "cluster".toList

/-- The index, and what a decision reads beside it. The groups are a set, in order. -/
structure Snapshot where
  index : HostIndex
  teams : List (Text × TeamName)
  refused : Nat
  interestingGroups : List GroupName
  groupsGeneration : UInt64

def Snapshot.default : Snapshot := ⟨⟨0, ∅, []⟩, [], 0, [], 0⟩

/-! ## Rebuilding -/

def ownersOf (namespaces : List Namespace) (feature : ResolvedEndpointAuthConfig) (teams : List Team) :
    List (Text × Owner) :=
  mapOf (namespaces.filterMap fun ns => (ownerOf feature teams ns).map fun owner => (ns.name, owner))

/-- The lexicographically smallest team of the namespaces a user owns. -/
def teamOfUser (owners : List Owner) : List (Text × TeamName) :=
  owners.foldl (fun teams owner =>
    match owner.team with
    | none => teams
    | some team =>
      if (teams.lookup owner.username).any fun existing => textLe existing team then teams
      else (owner.username, team) :: teams) []

def hostsOf (object : IngressObject) : List Text := (object.rules.getD []).filterMap id

/-- FNV-1a over the bytes of a name. -/
def fnv (value : Text) : UInt64 :=
  (bytesOf value).foldl (fun hash byte => (hash ^^^ byte.toUInt64) * 1099511628211) 14695981039346656037

section Rebuild
variable (engine : Text → Option (List Regex)) (yaml : Text → Except Text (List WireRule))
  (scope : HostScope) (settings : CompileSettings) (generation : Nat)

/-- One object compiled, and whether it was refused and so indexed closed. -/
def compileObject (feature : ResolvedEndpointAuthConfig) (object : IngressObject) (owner : Owner) :
    EndpointPolicy × Bool :=
  -- Of the namespace only its name is read.
  let raw := rawEndpoint ⟨object.namespaceName.getD [], [], []⟩ object.ingress owner
  let (catalogue, overrides) := translate feature
  match compile yaml raw catalogue (grantFor feature owner.team) overrides settings generation with
  | .ok policy => (policy, false)
  | .error _ => (.closed raw generation, true)

/-- The hosts that an object is indexed for: those the gate governs and the ownership
patterns do not read as another user's. -/
def indexedHosts (hosts : HostsConfig) (object : IngressObject) (owner : Owner) : List Host :=
  (hostsOf object).filterMap fun raw =>
    match Host.parse raw with
    | .error _ => none
    | .ok host =>
      if !scope.governs host then none
      else if hosts.claimedByAnother engine host.text owner.username then none
      else some host

/-- One object of the loop: its claims, and one more refusal where it did not compile. -/
def indexObject (feature : ResolvedEndpointAuthConfig) (hosts : HostsConfig) (owners : List (Text × Owner))
    (object : IngressObject) : List IndexedEndpoint × Nat :=
  let namespaceName := object.namespaceName.getD []
  match owners.lookup namespaceName with
  | none => ([], 0)
  | some owner =>
    let (policy, refused) := compileObject yaml settings generation feature object owner
    ((indexedHosts engine scope hosts object owner).map fun host =>
        ⟨host, ⟨namespaceName, object.name⟩, policy⟩,
      if refused then 1 else 0)

/-- Every group that an indexed endpoint names. -/
def interestingGroups (endpoints : List IndexedEndpoint) : List GroupName :=
  (endpoints.flatMap fun endpoint => endpoint.policy.allowGroups).dedup.insertionSort
    fun a b => textLe a b = true

def groupsGeneration (groups : List GroupName) : UInt64 :=
  groups.foldl (fun acc group => acc * 31 + fnv group) 1

def rebuild (stores : Stores) : Snapshot :=
  match stores.configs.find? fun config => config.name == singletonName with
  | none => .default
  | some config =>
    match config.endpointAuth with
    | none => .default
    | some declared =>
      let feature := (declared.config.resolve stores.teams).1
      let owners := ownersOf stores.namespaces feature (teamViews stores.teams)
      let objects := stores.ingresses.map
        (indexObject engine yaml scope settings generation feature declared.hosts owners)
      let endpoints := objects.flatMap Prod.fst
      let groups := interestingGroups endpoints
      ⟨.build generation endpoints, teamOfUser (owners.map Prod.snd), (objects.map Prod.snd).sum, groups,
        groupsGeneration groups⟩

end Rebuild

/-- Keep the groups some endpoint names, and of those the first `max`. -/
def Snapshot.filterGroups (snapshot : Snapshot) (groups : List GroupName) (max : Nat) : List GroupName :=
  (groups.filter fun group => snapshot.interestingGroups.contains group).take max

/-! ## What filtering changes -/

/-- The same credential with other groups. -/
def keepGroups (keep : List GroupName → List GroupName) : Credential → Credential
  | .session claims => .session { claims with groups := keep claims.groups }
  | .bearer claims => .bearer { claims with groups := keep claims.groups }
  | other => other

def groupsOf : Credential → List GroupName
  | .session claims | .bearer claims => claims.groups
  | _ => []

theorem mem_interestingGroups (endpoints : List IndexedEndpoint) (endpoint : IndexedEndpoint)
    (member : endpoint ∈ endpoints) (group : GroupName) (named : group ∈ endpoint.policy.allowGroups) :
    group ∈ interestingGroups endpoints := by
  unfold interestingGroups
  rw [(List.perm_insertionSort _ _).mem_iff, List.mem_dedup, List.mem_flatMap]
  exact ⟨endpoint, member, named⟩

/-- Every group of an indexed policy is interesting. -/
theorem rebuild_interesting (engine : Text → Option (List Regex)) (yaml : Text → Except Text (List WireRule))
    (scope : HostScope) (settings : CompileSettings) (generation : Nat) (stores : Stores) (host : Host)
    (policy : EndpointPolicy)
    (found : (rebuild engine yaml scope settings generation stores).index.lookup host = .policy policy) :
    ∀ group ∈ policy.allowGroups,
      group ∈ (rebuild engine yaml scope settings generation stores).interestingGroups := by
  unfold rebuild at found ⊢
  split at found
  · cases found
  · split at found
    · cases found
    · obtain ⟨endpoint, member, -, rfl⟩ := HostIndex.claimed_of_lookup _ _ host policy found
      exact mem_interestingGroups _ endpoint member

/-- A policy reads groups only where it names them. -/
theorem decide_keepGroups (policy : EndpointPolicy) (keep : List GroupName → List GroupName)
    (credential : Credential)
    (kept : ∀ group ∈ policy.allowGroups,
      group ∈ keep (groupsOf credential) ↔ group ∈ groupsOf credential)
    (request : AuthRequest) (scope : HostScope) :
    EndpointAuth.decide request scope (.policy policy) (keepGroups keep credential) =
      EndpointAuth.decide request scope (.policy policy) credential := by
  have answers : ∀ selected, answerCredential request policy selected (keepGroups keep credential) =
      answerCredential request policy selected credential := by
    intro selected
    have named : ∀ claims : Claims, groupsOf credential = claims.groups →
        namedByOwner policy { claims with groups := keep claims.groups } = namedByOwner policy claims := by
      intro claims same
      rw [same] at kept
      unfold namedByOwner
      congr 1
      rw [Bool.eq_iff_iff, List.any_eq_true, List.any_eq_true]
      refine exists_congr fun group => and_congr_right fun member => ?_
      simpa using kept group member
    cases credential with
    | session claims | bearer claims =>
      have same := named claims rfl
      simp only [keepGroups, answerCredential, authorise, same]
      rfl
    | _ => rfl
  unfold EndpointAuth.decide
  simp only [answers]

/-- Filtering a caller's groups changes no verdict that a snapshot gives, as long as the cap
lets every interesting one through. -/
theorem decide_filterGroups (engine : Text → Option (List Regex))
    (yaml : Text → Except Text (List WireRule)) (gate : HostScope) (settings : CompileSettings)
    (generation : Nat) (stores : Stores) (snapshot : Snapshot)
    (built : snapshot = rebuild engine yaml gate settings generation stores) (host : Host) (max : Nat)
    (credential : Credential)
    (few : ((groupsOf credential).filter fun group => snapshot.interestingGroups.contains group).length ≤ max)
    (request : AuthRequest) (scope : HostScope) :
    EndpointAuth.decide request scope (snapshot.index.lookup host)
        (keepGroups (fun groups => snapshot.filterGroups groups max) credential) =
      EndpointAuth.decide request scope (snapshot.index.lookup host) credential := by
  cases found : snapshot.index.lookup host with
  | conflict => rfl
  | unknown => rfl
  | policy policy =>
    apply decide_keepGroups
    intro group named
    have interesting : group ∈ snapshot.interestingGroups := by
      subst built
      exact rebuild_interesting engine yaml gate settings generation stores host policy found group named
    rw [Snapshot.filterGroups, List.take_of_length_le few, List.mem_filter]
    simp [interesting]

/-- Erin shares her endpoint with the group `ops`. -/
def opsStores : Stores where
  configs := [⟨singletonName, some ⟨{ contractorsConfig.config with overrides := [] },
    ⟨".weebo.si".toList, [], []⟩⟩⟩]
  teams := []
  namespaces := [erinNamespace]
  ingresses := [⟨some "user-erin".toList, "api".toList, some [some "erin-api.weebo.si".toList],
    ⟨[("hardening.weebo.io/allow-groups".toList, "ops".toList)], []⟩⟩]

def erinHost : Host := ⟨"erin-api.weebo.si".toList, by decide, by decide, by decide⟩

def weeboScope : HostScope := ⟨".weebo.si".toList, [], by rfl⟩

def opsSnapshot : Snapshot := rebuild (fun _ => none) (fun _ => .ok []) weeboScope .standard 1 opsStores

/-- A member of `staff` and `ops`, of which only the second is interesting. -/
def opsMember : Credential := .session ⟨"frank".toList, ["staff".toList, "ops".toList], none, none⟩

theorem decide_filterGroups_ops :
    EndpointAuth.decide ⟨erinHost, "/".toList, .get, .https, .navigation, false⟩ weeboScope
        (opsSnapshot.index.lookup erinHost)
        (.session ⟨"frank".toList, ["ops".toList], none, none⟩) =
      EndpointAuth.decide ⟨erinHost, "/".toList, .get, .https, .navigation, false⟩ weeboScope
        (opsSnapshot.index.lookup erinHost) opsMember := by
  have interesting : opsSnapshot.interestingGroups = ["ops".toList] := by decide +kernel
  have filtered : opsSnapshot.filterGroups ["staff".toList, "ops".toList] 1 = ["ops".toList] := by
    rw [Snapshot.filterGroups, interesting]
    decide
  have same := decide_filterGroups _ _ _ _ _ _ opsSnapshot rfl erinHost 1 opsMember
    (by rw [interesting]; decide) ⟨erinHost, "/".toList, .get, .https, .navigation, false⟩ weeboScope
  rw [← same]
  simp only [opsMember, keepGroups, filtered]

end WeeboSi.Gateway
