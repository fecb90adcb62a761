import WeeboSi.Chassis.Owned
import WeeboSi.NetworkProfiles.Resolve

/-!
# What kubearmor-policy wants of a namespace and of a workspace

Source: crates/weebo-si-kubearmor-policy/src/resolve.rs:20-150, model/policy.rs, model/diff.rs:24-110,
feature/kubearmor_policy.rs:31-300 and crates/weebo-si-crd/src/kubearmor_policy.rs:27-395. The two
selection blocks of the configuration are the one key each of them holds; the selector that
narrows the feature is the gate's and is left out.
-/
namespace WeeboSi.KubearmorPolicy
open WeeboSi.Lib WeeboSi.Crd WeeboSi.Chassis
open WeeboSi.NetworkProfiles (TemplateRef OnNotGranted)

abbrev RuntimeProfileKey := Text

/-- The engine a policy is written for. -/
inductive RuntimeBackend where
  | kubeArmor
  deriving DecidableEq, Repr

/-- What is done with an operation no rule allows. -/
inductive Posture where
  | audit | block
  deriving DecidableEq, Repr

structure DefaultPosture where
  file : Posture
  network : Posture
  capabilities : Posture
  deriving DecidableEq, Repr

structure RuntimeProfile where
  key : RuntimeProfileKey
  templateRef : TemplateRef
  deriving DecidableEq, Repr

structure RuntimeProfileGrant where
  allowed : List RuntimeProfileKey
  default : List RuntimeProfileKey
  deriving DecidableEq, Repr

/-- The block of a team object. -/
structure TeamKubeArmorPolicy where
  catalog : List RuntimeProfile
  default : List RuntimeProfileKey
  deriving DecidableEq, Repr

structure KubeArmorPolicyConfig where
  mode : FeatureMode
  catalog : List RuntimeProfile
  baseline : RuntimeProfileKey
  namespaceSelection : Text
  workspaceSelection : Text
  onNotGranted : OnNotGranted
  defaultPosture : DefaultPosture
  deriving DecidableEq, Repr

abbrev ResolvedKubeArmorPolicyConfig := Resolved KubeArmorPolicyConfig RuntimeProfileGrant

def TeamKubeArmorPolicy.grant (baseline : RuntimeProfileKey) (block : TeamKubeArmorPolicy) : RuntimeProfileGrant :=
  ⟨widened (block.catalog.map RuntimeProfile.key) baseline, block.default⟩

def KubeArmorPolicyConfig.resolve (config : KubeArmorPolicyConfig) (teams : List (WeeboSiTeam TeamKubeArmorPolicy)) :
    ResolvedKubeArmorPolicyConfig × List (CatalogConflict RuntimeProfileKey) :=
  let (entries, conflicts) :=
    mergeCatalogs config.catalog (teamBlocks teams TeamKubeArmorPolicy.catalog) RuntimeProfile.key
  (⟨{ config with catalog := entries }, teamGrants teams (TeamKubeArmorPolicy.grant config.baseline)⟩, conflicts)

/-- The entry a key names. -/
def KubeArmorPolicyConfig.profile (config : KubeArmorPolicyConfig) (key : RuntimeProfileKey) :
    Option RuntimeProfile :=
  config.catalog.find? fun entry => entry.key = key

/-! ## Resolution -/

inductive ResolutionStep where
  | workspaceAttribute | annotatedNamespace | grantDefault
  deriving DecidableEq, Repr

structure Provenance where
  team : Option Text
  step : ResolutionStep
  resolved : List RuntimeProfileKey
  droppedNotGranted : List RuntimeProfileKey
  deriving DecidableEq, Repr

structure NotGranted where
  team : Option Text
  requested : List RuntimeProfileKey
  deriving DecidableEq, Repr

/-- Read like the network profiles of a workspace. -/
def parseKeys (raw : Text) : List RuntimeProfileKey := NetworkProfiles.parseKeys raw

/-- No team, or one without a grant, reaches the baseline alone. -/
def grantFor (config : ResolvedKubeArmorPolicyConfig) (team : Option Team) : RuntimeProfileGrant :=
  match team with
  | some team => (config.grants.lookup team.name).getD ⟨[], []⟩
  | none => ⟨[], []⟩

def requestedKeys (grant : RuntimeProfileGrant) (annotated attributed : Option Text) :
    List RuntimeProfileKey × ResolutionStep :=
  match attributed, annotated with
  | some raw, _ => (parseKeys raw, .workspaceAttribute)
  | none, some raw => (parseKeys raw, .annotatedNamespace)
  | none, none => (grant.default, .grantDefault)

def resolve (teams : List Team) (config : ResolvedKubeArmorPolicyConfig) (labels : Labels)
    (annotated attributed : Option Text) : Except NotGranted Provenance :=
  let team := teams.find? fun team => team.namespaceSelector.matchesLabels labels
  let grant := grantFor config team
  let (requested, step) := requestedKeys grant annotated attributed
  let notGranted := requested.filter fun key => !grant.allowed.contains key
  if notGranted = [] then .ok ⟨team.map Team.name, step, requested, []⟩
  else match config.config.onNotGranted with
    | .deny => .error ⟨team.map Team.name, notGranted⟩
    | .default => .ok ⟨team.map Team.name, .grantDefault, grant.default, notGranted⟩

/-! ## Managed policies -/

/-- The rules of a template, never read. -/
abbrev RuleBody := List UInt8

structure ManagedObject where
  key : ObjectKey
  backend : RuntimeBackend
  profile : RuntimeProfileKey
  podSelector : PodSelector
  body : RuleBody
  owner : Option Owner
  uid : Option Text
  deriving DecidableEq, Repr

/-- The profile is provenance, and the uid is the apiserver's: neither is content. -/
def ManagedObject.contentEq (a b : ManagedObject) : Bool :=
  a.backend = b.backend ∧ a.podSelector = b.podSelector ∧ a.body = b.body ∧ a.owner = b.owner

instance : Selected ManagedObject RuntimeBackend where
  key := ManagedObject.key
  backend := ManagedObject.backend
  contentEq := ManagedObject.contentEq
  uid := ManagedObject.uid
  podSelector := ManagedObject.podSelector

@[simp] theorem key_eq (obj : ManagedObject) : Managed.key obj = obj.key := rfl
@[simp] theorem podSelector_eq (obj : ManagedObject) : Selected.podSelector obj = obj.podSelector := rfl

theorem contentEq_iff (a b : ManagedObject) : Managed.contentEq a b = true ↔
    a.backend = b.backend ∧ a.podSelector = b.podSelector ∧ a.body = b.body ∧ a.owner = b.owner :=
  decide_eq_true_iff

/-- There is one engine: the key says which object it is. -/
theorem backend_unique (a b : RuntimeBackend) : a = b := by
  cases a
  cases b
  rfl

theorem place_eq_iff (a b : ManagedObject) : place a = place b ↔ a.key = b.key := by
  constructor
  · exact congrArg Prod.snd
  · intro same
    exact Prod.ext (backend_unique _ _) same

structure DesiredState where
  objects : List ManagedObject
  posture : Option DefaultPosture
  team : Option Text
  notGranted : List RuntimeProfileKey
  held : List ObjectKey
  deriving DecidableEq, Repr

def DesiredState.default : DesiredState := ⟨[], none, none, [], []⟩

/-! ## The feature -/

abbrev Line := Diff ManagedObject RuntimeBackend

/-- The feature with everything it reads. -/
structure KubeArmorPolicy where
  config : Option ResolvedKubeArmorPolicyConfig
  backend : RuntimeBackend
  templates : RuntimeBackend → TemplateRef → Option RuleBody

def KubeArmorPolicy.currentConfig (feature : KubeArmorPolicy) : Except DomainError ResolvedKubeArmorPolicyConfig :=
  match feature.config with
  | some config => .ok config
  | none => .error (.invalidConfiguration
      "kubearmor-policy evaluated with no spec.features.kubearmorPolicy configured".toList)

structure NamespaceSubject where
  namespaceName : Text
  deriving DecidableEq, Repr

structure Workspace where
  name : Text
  namespaceName : Text
  workspaceId : Text
  attributed : Option Text
  annotated : Option Text
  owner : Owner
  deriving DecidableEq, Repr

/-- Whose objects a pass is about. -/
class OwnedScope (S : Type) where
  namespaceName : S → Text
  ownedSelector : S → PodSelector

instance : OwnedScope NamespaceSubject where
  namespaceName := NamespaceSubject.namespaceName
  ownedSelector _ := .empty

instance : OwnedScope Workspace where
  namespaceName := Workspace.namespaceName
  ownedSelector subject := .devWorkspaceId subject.workspaceId

def baselineName : Text := "weebo-base".toList

def baselineKey (namespaceName : Text) : ObjectKey := ⟨namespaceName, baselineName⟩

/-- `weebo-{key}-{workspace_id}`. -/
def profileKey (subject : Workspace) (key : RuntimeProfileKey) : ObjectKey :=
  ⟨subject.namespaceName, "weebo-".toList ++ key ++ '-' :: subject.workspaceId⟩

def profileObject (feature : KubeArmorPolicy) (subject : Workspace) (key : RuntimeProfileKey) (body : RuleBody) :
    ManagedObject :=
  ⟨profileKey subject key, feature.backend, key, .devWorkspaceId subject.workspaceId, body, some subject.owner, none⟩

namespace KubeArmorPolicy
variable (feature : KubeArmorPolicy)

/-- The baseline of a namespace, held while its template cannot be read. -/
def desiredNamespace (subject : NamespaceSubject) (_ : Context) : Except DomainError DesiredState := do
  let config ← feature.currentConfig
  let posture := some config.config.defaultPosture
  match config.config.profile config.config.baseline with
  | none => .error (.invalidConfiguration ("baseline runtime profile key ".toList ++ config.config.baseline
      ++ " is not present in the catalog".toList))
  | some profile =>
    let key := baselineKey subject.namespaceName
    match feature.templates feature.backend profile.templateRef with
    | none => .ok { DesiredState.default with posture := posture, held := [key] }
    | some body =>
      let baseline : ManagedObject := ⟨key, feature.backend, config.config.baseline, .empty, body, none, none⟩
      .ok { DesiredState.default with objects := [baseline], posture := posture }

/-- One key of a workspace, as the loop over the resolved keys goes. -/
def desiredKey (config : ResolvedKubeArmorPolicyConfig) (subject : Workspace)
    (sofar : List ManagedObject × List ObjectKey) (key : RuntimeProfileKey) : List ManagedObject × List ObjectKey :=
  match config.config.profile key with
  | none => sofar
  | some profile =>
    match feature.templates feature.backend profile.templateRef with
    | none => (sofar.1, sofar.2 ++ [profileKey subject key])
    | some body => (sofar.1 ++ [profileObject feature subject key body], sofar.2)

def desiredWorkspace (subject : Workspace) (ctx : Context) : Except DomainError DesiredState := do
  let config ← feature.currentConfig
  match resolve ctx.teams config ctx.facts.labels subject.annotated subject.attributed with
  | .error refused => .ok { DesiredState.default with team := refused.team, notGranted := refused.requested }
  | .ok provenance =>
    let (objects, held) := provenance.resolved.foldl (feature.desiredKey config subject) ([], [])
    .ok ⟨objects, none, provenance.team, provenance.droppedNotGranted, held⟩

/-! ## What is desired -/

theorem desiredNamespace_cases (subject : NamespaceSubject) (ctx : Context) (state : DesiredState)
    (wants : feature.desiredNamespace subject ctx = .ok state) :
    (state.objects = [] ∧ state.held = [baselineKey subject.namespaceName]) ∨
      ∃ baseline : ManagedObject, state.objects = [baseline] ∧ state.held = [] ∧
        baseline.key = baselineKey subject.namespaceName ∧ baseline.podSelector = .empty ∧ baseline.owner = none := by
  obtain ⟨config, -, wants⟩ := (bind_eq_ok _ _ _).mp wants
  cases found : config.config.profile config.config.baseline with
  | none =>
    simp only [found] at wants
    cases wants
  | some profile =>
    simp only [found] at wants
    cases read : feature.templates feature.backend profile.templateRef with
    | none =>
      simp only [read] at wants
      cases wants
      exact Or.inl ⟨rfl, rfl⟩
    | some body =>
      simp only [read] at wants
      cases wants
      exact Or.inr ⟨_, rfl, rfl, rfl, rfl, rfl⟩

section Keys
variable (config : ResolvedKubeArmorPolicyConfig) (subject : Workspace)

/-- The template of a key, read. -/
def bodyOf (key : RuntimeProfileKey) : Option (Option RuleBody) :=
  (config.config.profile key).map fun profile => feature.templates feature.backend profile.templateRef

theorem desiredKey_foldl (keys : List RuntimeProfileKey) (sofar : List ManagedObject × List ObjectKey) :
    keys.foldl (feature.desiredKey config subject) sofar =
      (sofar.1 ++ keys.filterMap fun key =>
          ((feature.bodyOf config key).bind id).map (profileObject feature subject key),
        sofar.2 ++ (keys.filter fun key => feature.bodyOf config key = some none).map (profileKey subject)) := by
  induction keys generalizing sofar with
  | nil => simp
  | cons key keys ih =>
    rw [List.foldl_cons, ih]
    cases found : config.config.profile key with
    | none => simp [desiredKey, bodyOf, found]
    | some profile =>
      cases read : feature.templates feature.backend profile.templateRef with
      | none => simp [desiredKey, bodyOf, found, read]
      | some body => simp [desiredKey, bodyOf, found, read]

end Keys

/-- A workspace's objects carry its selector and its owner, under names of its own; a key is
held or written, never both. -/
structure WorkspaceShape (subject : Workspace) (state : DesiredState) : Prop where
  objects : ∀ obj ∈ state.objects, ∃ key, obj.key = profileKey subject key ∧
    obj.podSelector = .devWorkspaceId subject.workspaceId ∧ obj.owner = some subject.owner
  apart : ∀ obj ∈ state.objects, obj.key ∉ state.held
  agree : ∀ a ∈ state.objects, ∀ b ∈ state.objects, a.key = b.key → a = b
  posture : state.posture = none

theorem profileKey_injective (subject : Workspace) : Function.Injective (profileKey subject) := by
  intro a b same
  have names : "weebo-".toList ++ a ++ '-' :: subject.workspaceId =
      "weebo-".toList ++ b ++ '-' :: subject.workspaceId := congrArg ObjectKey.name same
  rw [List.append_assoc, List.append_assoc] at names
  exact List.append_cancel_right (List.append_cancel_left names)

theorem desiredWorkspace_shape (subject : Workspace) (ctx : Context) (state : DesiredState)
    (wants : feature.desiredWorkspace subject ctx = .ok state) : WorkspaceShape subject state := by
  obtain ⟨config, -, wants⟩ := (bind_eq_ok _ _ _).mp wants
  cases resolved : resolve ctx.teams config ctx.facts.labels subject.annotated subject.attributed with
  | error refused =>
    simp only [resolved] at wants
    cases wants
    exact ⟨by simp [DesiredState.default], by simp [DesiredState.default], by simp [DesiredState.default], rfl⟩
  | ok provenance =>
    simp only [resolved, desiredKey_foldl, List.nil_append] at wants
    cases wants
    have written : ∀ obj ∈ provenance.resolved.filterMap fun key =>
        ((feature.bodyOf config key).bind id).map (profileObject feature subject key),
        ∃ key body, feature.bodyOf config key = some (some body) ∧ obj = profileObject feature subject key body := by
      intro obj member
      obtain ⟨key, -, made⟩ := List.mem_filterMap.mp member
      obtain ⟨body, read, rfl⟩ := Option.map_eq_some_iff.mp made
      obtain ⟨_, found, rfl⟩ := Option.bind_eq_some_iff.mp read
      exact ⟨key, body, found, rfl⟩
    refine ⟨?_, ?_, ?_, rfl⟩
    · intro obj member
      obtain ⟨key, body, -, rfl⟩ := written obj member
      exact ⟨key, rfl, rfl, rfl⟩
    · intro obj member isHeld
      obtain ⟨key, body, read, rfl⟩ := written obj member
      obtain ⟨other, isOther, same⟩ := List.mem_map.mp isHeld
      have unread : feature.bodyOf config other = some none := by simpa using (List.mem_filter.mp isOther).2
      rw [profileKey_injective subject same, read] at unread
      cases unread
    · intro a inA b inB same
      obtain ⟨key, body, read, rfl⟩ := written a inA
      obtain ⟨other, otherBody, otherRead, rfl⟩ := written b inB
      have keys := profileKey_injective subject same
      subst keys
      rw [read] at otherRead
      cases otherRead
      rfl

/-- No profile of a workspace is written under the name of a baseline. -/
theorem profileKey_name (subject : Workspace) (key : RuntimeProfileKey) :
    (profileKey subject key).name ≠ baselineName := by
  intro same
  have names : "weebo-".toList ++ key ++ '-' :: subject.workspaceId = "weebo-".toList ++ "base".toList := same
  rw [List.append_assoc] at names
  have dash : '-' ∈ "base".toList := by
    rw [← List.append_cancel_left names]
    simp
  exact absurd dash (by decide)

end KubeArmorPolicy

end WeeboSi.KubearmorPolicy
