import WeeboSi.Crd.Identity
import WeeboSi.DwocPin.Config
import WeeboSi.Gateway.KubeCatalog
import WeeboSi.ImagePolicy.Resolve
import WeeboSi.KubearmorPolicy.Desired
import WeeboSi.Lib.JsonOrder
import WeeboSi.PodSecurity.Resolve
import WeeboSi.RegistryConfig.Desired
import WeeboSi.ResourceQuotas.Reconcile

/-!
# Every feature, resolved against the teams

Source: crates/weebo-si-crd/src/spec.rs:20-58, 96-262, team.rs:78-112, 244-256,
registry_config.rs:321-382, resource_quotas.rs:180-240, pod_security.rs:195-243. What a team
redefines is reported elsewhere and left out here.
-/
namespace WeeboSi.Runtime
open WeeboSi.Lib WeeboSi.Crd WeeboSi.Chassis

/-! ## The blocks -/

structure TeamRegistryConfig where
  catalog : List RegistryConfig.RegistryEntry
  default : List RegistryConfig.RegistryKey

structure TeamResourceQuotas where
  catalog : List ResourceQuotas.QuotaProfile
  default : Text

/-- What a team says of each feature. -/
structure TeamFeatures where
  dwocPin : Option DwocPin.TeamDwocPin
  networkProfiles : Option NetworkProfiles.TeamNetworkProfiles
  imagePolicy : Option ImagePolicy.TeamImagePolicy
  kubearmorPolicy : Option KubearmorPolicy.TeamKubeArmorPolicy
  registryConfig : Option TeamRegistryConfig
  endpointAuth : Option TeamEndpointAuth
  podSecurity : Option PodSecurity.TeamPodSecurity
  resourceQuotas : Option TeamResourceQuotas

abbrev TeamObject := WeeboSiTeam TeamFeatures

/-- A team as one feature reads it. -/
def reads {B : Type} (block : TeamFeatures → Option B) (team : TeamObject) : WeeboSiTeam B :=
  ⟨team.name, team.priority, team.namespaceSelector, team.features.bind block⟩

inductive EnforcementBackend where
  | auto | networkPolicy | cilium
  deriving DecidableEq, Repr

inductive RuntimeEnforcementBackend where
  | auto | kubeArmor
  deriving DecidableEq, Repr

/-- What the gate reads of a feature, beside its configuration. -/
structure Governed (C : Type) where
  mode : FeatureMode
  namespaceSelector : Option Selector
  config : C

/-- With the annotation that selects a key. -/
structure DwocPinBlock (C : Type) extends Governed C where
  selection : Text

structure NetworkProfilesBlock (C : Type) extends Governed C where
  enforcement : EnforcementBackend

/-- Its mode is in the configuration. -/
structure KubeArmorBlock (C : Type) where
  namespaceSelector : Option Selector
  enforcement : RuntimeEnforcementBackend
  config : C

structure Features where
  dwocPin : Option (DwocPinBlock DwocPin.DwocPinConfig)
  networkProfiles : Option (NetworkProfilesBlock NetworkProfiles.NetworkProfilesConfig)
  policyGuard : Option (Governed (List Text))
  imagePolicy : Option (Governed ImagePolicy.ImagePolicyConfig)
  kubearmorPolicy : Option (KubeArmorBlock KubearmorPolicy.KubeArmorPolicyConfig)
  registryConfig : Option (Governed RegistryConfig.RegistryConfigSpec)
  endpointAuth : Option (Governed EndpointAuthConfig)
  identity : Option (FeatureMode × IdentityConfig)
  podSecurity : Option (Governed PodSecurity.PodSecurityConfig)
  resourceQuotas : Option (Governed ResourceQuotas.ResourceQuotasConfig)

@[ext]
structure ResolvedFeatures where
  dwocPin : Option (DwocPinBlock DwocPin.ResolvedDwocPinConfig)
  networkProfiles : Option (NetworkProfilesBlock NetworkProfiles.ResolvedNetworkProfilesConfig)
  policyGuard : Option (Governed (List Text))
  imagePolicy : Option (Governed ImagePolicy.ResolvedImagePolicyConfig)
  kubearmorPolicy : Option (KubeArmorBlock KubearmorPolicy.ResolvedKubeArmorPolicyConfig)
  registryConfig : Option (Governed RegistryConfig.ResolvedRegistryConfig)
  endpointAuth : Option (Governed ResolvedEndpointAuthConfig)
  identity : Option (FeatureMode × IdentityConfig)
  podSecurity : Option (Governed PodSecurity.ResolvedPodSecurityConfig)
  resourceQuotas : Option (Governed ResourceQuotas.ResolvedResourceQuotasConfig)

def ResolvedFeatures.default : ResolvedFeatures :=
  ⟨none, none, none, none, none, none, none, none, none, none⟩

/-! ## Resolution -/

def Governed.resolved {C R : Type} (resolve : C → R) (block : Governed C) : Governed R :=
  ⟨block.mode, block.namespaceSelector, resolve block.config⟩

/-- No key is handed to every team. -/
def TeamRegistryConfig.grant (block : TeamRegistryConfig) : RegistryConfig.RegistryGrant :=
  ⟨block.catalog.map RegistryConfig.RegistryEntry.key, block.default⟩

def resolveRegistry (teams : List (WeeboSiTeam TeamRegistryConfig)) (config : RegistryConfig.RegistryConfigSpec) :
    RegistryConfig.ResolvedRegistryConfig :=
  ⟨{ config with catalog := (mergeCatalogs config.catalog (teamBlocks teams TeamRegistryConfig.catalog)
      RegistryConfig.RegistryEntry.key).1 }, teamGrants teams TeamRegistryConfig.grant⟩

def TeamResourceQuotas.grant (default : Text) (block : TeamResourceQuotas) : ResourceQuotas.QuotaGrant :=
  ⟨widened (block.catalog.map ResourceQuotas.QuotaProfile.key) default, block.default⟩

def resolveQuotas (teams : List (WeeboSiTeam TeamResourceQuotas)) (config : ResourceQuotas.ResourceQuotasConfig) :
    ResourceQuotas.ResolvedResourceQuotasConfig :=
  ⟨{ config with catalog := (mergeCatalogs config.catalog (teamBlocks teams TeamResourceQuotas.catalog)
      ResourceQuotas.QuotaProfile.key).1 }, teamGrants teams (TeamResourceQuotas.grant config.default)⟩

/-- A team contributes a level and no keys. -/
def resolvePodSecurity (teams : List (WeeboSiTeam PodSecurity.TeamPodSecurity))
    (config : PodSecurity.PodSecurityConfig) : PodSecurity.ResolvedPodSecurityConfig :=
  ⟨config, teamGrants teams id⟩

/-- `resolve_teams`. -/
def Features.resolveTeams (features : Features) (teams : List TeamObject) : ResolvedFeatures where
  dwocPin := features.dwocPin.map fun block => ⟨block.toGoverned.resolved fun config =>
    (config.resolve (teams.map (reads TeamFeatures.dwocPin))).1, block.selection⟩
  networkProfiles := features.networkProfiles.map fun block => ⟨block.toGoverned.resolved fun config =>
    (config.resolve (teams.map (reads TeamFeatures.networkProfiles))).1, block.enforcement⟩
  policyGuard := features.policyGuard
  imagePolicy := features.imagePolicy.map fun block => block.resolved fun config =>
    (config.resolve (teams.map (reads TeamFeatures.imagePolicy))).1
  kubearmorPolicy := features.kubearmorPolicy.map fun block => ⟨block.namespaceSelector, block.enforcement,
    (block.config.resolve (teams.map (reads TeamFeatures.kubearmorPolicy))).1⟩
  registryConfig := features.registryConfig.map fun block => block.resolved
    (resolveRegistry (teams.map (reads TeamFeatures.registryConfig)))
  endpointAuth := features.endpointAuth.map fun block => block.resolved fun config =>
    (config.resolve (teams.map (reads TeamFeatures.endpointAuth))).1
  identity := features.identity
  podSecurity := features.podSecurity.map fun block => block.resolved
    (resolvePodSecurity (teams.map (reads TeamFeatures.podSecurity)))
  resourceQuotas := features.resourceQuotas.map fun block => block.resolved
    (resolveQuotas (teams.map (reads TeamFeatures.resourceQuotas)))

/-! ## The order the teams are listed in -/

section Order
variable {B : Type}

theorem resolutionLe_iff (a b : WeeboSiTeam B) : a.resolutionLe b = true ↔
    a.priority < b.priority ∨ a.priority = b.priority ∧ textLe a.name b.name = true := by
  simp [WeeboSiTeam.resolutionLe]

theorem resolutionLe_total (a b : WeeboSiTeam B) : a.resolutionLe b = true ∨ b.resolutionLe a = true := by
  simp only [resolutionLe_iff]
  rcases lt_trichotomy a.priority b.priority with less | same | more
  · exact Or.inl (Or.inl less)
  · exact (textLe_total a.name b.name).imp (fun le => Or.inr ⟨same, le⟩) fun le => Or.inr ⟨same.symm, le⟩
  · exact Or.inr (Or.inl more)

theorem resolutionLe_trans (a b c : WeeboSiTeam B) (first : a.resolutionLe b = true) (second : b.resolutionLe c = true) :
    a.resolutionLe c = true := by
  rw [resolutionLe_iff] at first second ⊢
  rcases first with less | ⟨same, le⟩
  · exact Or.inl (second.elim (fun more => less.trans more) fun more => less.trans_eq more.1)
  · rcases second with less | ⟨equal, more⟩
    · exact Or.inl (same.trans_lt less)
    · exact Or.inr ⟨same.trans equal, textLe_trans _ _ _ le more⟩

theorem resolutionOrder_pairwise (teams : List (WeeboSiTeam B)) :
    (resolutionOrder teams).Pairwise fun a b => a.resolutionLe b = true :=
  haveI : Std.Total fun a b : WeeboSiTeam B => a.resolutionLe b = true := ⟨resolutionLe_total⟩
  haveI : IsTrans (WeeboSiTeam B) fun a b => a.resolutionLe b = true := ⟨resolutionLe_trans⟩
  List.pairwise_insertionSort _ teams

/-- Teams of distinct names are resolved in one order, however they are listed. -/
theorem resolutionOrder_perm (teams others : List (WeeboSiTeam B)) (same : teams.Perm others)
    (distinct : (teams.map WeeboSiTeam.name).Nodup) : resolutionOrder teams = resolutionOrder others := by
  have sorted := List.perm_insertionSort (fun a b : WeeboSiTeam B => a.resolutionLe b = true) teams
  have other := List.perm_insertionSort (fun a b : WeeboSiTeam B => a.resolutionLe b = true) others
  refine List.Perm.eq_of_pairwise ?_ (resolutionOrder_pairwise teams) (resolutionOrder_pairwise others)
    ((sorted.trans same).trans other.symm)
  intro a b inTeams inOthers below above
  rw [resolutionLe_iff] at below above
  have names : a.name = b.name := by
    rcases below with less | ⟨equal, le⟩
    · rcases above with more | ⟨equal, -⟩
      · exact absurd (less.trans more) (lt_irrefl _)
      · exact absurd equal.symm less.ne
    · rcases above with more | ⟨-, ge⟩
      · exact absurd equal.symm more.ne
      · exact textLe_antisymm _ _ le ge
  exact List.inj_on_of_nodup_map distinct (sorted.mem_iff.mp inTeams)
    (same.mem_iff.mpr (other.mem_iff.mp inOthers)) names

end Order

/-- Every feature resolves to the same, however the teams are listed. -/
theorem resolveTeams_perm (features : Features) (teams others : List TeamObject) (same : teams.Perm others)
    (distinct : (teams.map WeeboSiTeam.name).Nodup) : features.resolveTeams teams = features.resolveTeams others := by
  have ordered : ∀ {B : Type} (block : TeamFeatures → Option B),
      resolutionOrder (teams.map (reads block)) = resolutionOrder (others.map (reads block)) := by
    intro B block
    apply resolutionOrder_perm _ _ (same.map _)
    rwa [List.map_map]
  unfold Features.resolveTeams DwocPin.DwocPinConfig.resolve NetworkProfiles.NetworkProfilesConfig.resolve
    ImagePolicy.ImagePolicyConfig.resolve KubearmorPolicy.KubeArmorPolicyConfig.resolve resolveRegistry
    EndpointAuthConfig.resolve resolvePodSecurity resolveQuotas teamBlocks teamGrants
  simp only [ordered]

end WeeboSi.Runtime
