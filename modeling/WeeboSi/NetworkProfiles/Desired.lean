import WeeboSi.Controller.Workspace
import WeeboSi.NetworkProfiles.PolicyStore

/-!
# What network-profiles desires, and whom it admits

Source: crates/weebo-si-network-profiles/src/feature/network_profiles.rs:29-285,
feature/workspace_gate.rs:27-178, model/diff.rs:24-70 and
crates/weebo-si-webhook/src/extract.rs:38-67, router.rs:131-195. The two halves of the feature
read one configuration: the loops write the objects, the gate looks for the baseline before it
lets a workspace in.
-/
namespace WeeboSi.NetworkProfiles
open WeeboSi.Lib WeeboSi.Crd WeeboSi.Chassis WeeboSi.Controller

def Profile.variant (profile : Profile) (backend : Backend) : Option Variant :=
  profile.variants.find? fun variant => variant.backend = backend

def NetworkProfilesConfig.profile (config : NetworkProfilesConfig) (key : ProfileKey) : Option Profile :=
  config.catalog.find? fun entry => entry.key = key

/-- What the loops and the gate read of the configuration. -/
structure LoadedConfig where
  resolved : ResolvedNetworkProfilesConfig
  mode : FeatureMode
  workspaceSelection : Text
  namespaceSelection : Text

structure DesiredState where
  objects : List ManagedObject
  team : Option Text
  notGranted : List ProfileKey
  unsupported : List ProfileKey
  held : List ObjectKey
  deriving DecidableEq, Repr

def DesiredState.default : DesiredState := ⟨[], none, [], [], []⟩

/-! ## The subjects -/

structure NamespaceSubject where
  namespaceName : Text
  deriving DecidableEq, Repr

structure Workspace where
  name : Text
  namespaceName : Text
  workspaceId : Text
  attributed : Option Text
  annotated : Option Text
  owner : Owner
  deriving DecidableEq, Repr

/-- Whose objects a pass is about. -/
class OwnedScope (S : Type) where
  namespaceName : S → Text
  ownedSelector : S → PodSelector

instance : OwnedScope NamespaceSubject where
  namespaceName := NamespaceSubject.namespaceName
  ownedSelector _ := .empty

instance : OwnedScope Workspace where
  namespaceName := Workspace.namespaceName
  ownedSelector subject := .devWorkspaceId subject.workspaceId

def baselineName : Text := "weebo-base".toList

def baselineKey (namespaceName : Text) : ObjectKey := ⟨namespaceName, baselineName⟩

/-- `weebo-{key}-{workspace_id}`. -/
def profileKey (subject : Workspace) (key : ProfileKey) : ObjectKey :=
  ⟨subject.namespaceName, "weebo-".toList ++ key ++ '-' :: subject.workspaceId⟩

/-- No profile of a workspace is written under the name of a baseline. -/
theorem profileKey_name (subject : Workspace) (key : ProfileKey) :
    (profileKey subject key).name ≠ baselineName := by
  intro same
  have names : "weebo-".toList ++ key ++ '-' :: subject.workspaceId = "weebo-".toList ++ "base".toList := same
  rw [List.append_assoc] at names
  have dash : '-' ∈ "base".toList := by
    rw [← List.append_cancel_left names]
    simp
  exact absurd dash (by decide)

/-! ## The feature -/

/-- The feature with everything it reads. -/
structure NetworkProfilesFeature where
  config : Option LoadedConfig
  backend : Backend
  templates : Backend → TemplateRef → Option (List UInt8)

def notConfigured : DomainError := .invalidConfiguration
  "network-profiles evaluated with no spec.features.networkProfiles configured".toList

namespace NetworkProfilesFeature
variable (feature : NetworkProfilesFeature)

def currentConfig : Except DomainError ResolvedNetworkProfilesConfig :=
  match feature.config with
  | some config => .ok config.resolved
  | none => .error notConfigured

/-- The baseline of a namespace; held while the backend has no variant of it or its template
cannot be read. -/
def desiredNamespace (subject : NamespaceSubject) (_ : Context) : Except DomainError DesiredState := do
  let config ← feature.currentConfig
  match config.config.profile config.config.baseline with
  | none => .error (.invalidConfiguration ("baseline profile key ".toList ++ config.config.baseline
      ++ " is not present in the catalog".toList))
  | some profile =>
    let key := baselineKey subject.namespaceName
    match profile.variant feature.backend with
    | none => .ok { DesiredState.default with unsupported := [config.config.baseline], held := [key] }
    | some variant =>
      match feature.templates feature.backend variant.templateRef with
      | none => .ok { DesiredState.default with held := [key] }
      | some body =>
        .ok { DesiredState.default with
          objects := [⟨key, feature.backend, config.config.baseline, .empty, body, none, none⟩] }

def profileObject (subject : Workspace) (key : ProfileKey) (body : List UInt8) : ManagedObject :=
  ⟨profileKey subject key, feature.backend, key, .devWorkspaceId subject.workspaceId, body, some subject.owner, none⟩

/-- One key of a workspace, as the loop over the resolved keys goes. -/
def desiredKey (config : ResolvedNetworkProfilesConfig) (subject : Workspace) (sofar : DesiredState)
    (key : ProfileKey) : DesiredState :=
  match config.config.profile key with
  | none => sofar
  | some profile =>
    match profile.variant feature.backend with
    | none => { sofar with unsupported := sofar.unsupported ++ [key] }
    | some variant =>
      match feature.templates feature.backend variant.templateRef with
      | none => { sofar with held := sofar.held ++ [profileKey subject key] }
      | some body => { sofar with objects := sofar.objects ++ [feature.profileObject subject key body] }

def desiredWorkspace (subject : Workspace) (ctx : Context) : Except DomainError DesiredState := do
  let config ← feature.currentConfig
  match resolve ctx.teams config ctx.facts.labels subject.annotated subject.attributed with
  | .error refused => .ok { DesiredState.default with team := refused.team, notGranted := refused.requested }
  | .ok provenance =>
    .ok (provenance.resolved.foldl (feature.desiredKey config subject)
      { DesiredState.default with team := provenance.team, notGranted := provenance.droppedNotGranted })

/-! ## What is desired -/

/-- A namespace's desired state holds the baseline or writes it: never neither. -/
theorem desiredNamespace_cases (subject : NamespaceSubject) (ctx : Context) (state : DesiredState)
    (wants : feature.desiredNamespace subject ctx = .ok state) :
    (state.objects = [] ∧ state.held = [baselineKey subject.namespaceName]) ∨
      ∃ baseline : ManagedObject, state.objects = [baseline] ∧ state.held = [] ∧
        baseline.key = baselineKey subject.namespaceName ∧ baseline.podSelector = .empty ∧ baseline.owner = none := by
  obtain ⟨config, -, wants⟩ := (bind_eq_ok _ _ _).mp wants
  cases found : config.config.profile config.config.baseline with
  | none =>
    simp only [found] at wants
    cases wants
  | some profile =>
    cases offered : profile.variant feature.backend with
    | none =>
      simp only [found, offered] at wants
      cases wants
      exact Or.inl ⟨rfl, rfl⟩
    | some variant =>
      cases read : feature.templates feature.backend variant.templateRef with
      | none =>
        simp only [found, offered, read] at wants
        cases wants
        exact Or.inl ⟨rfl, rfl⟩
      | some body =>
        simp only [found, offered, read] at wants
        cases wants
        exact Or.inr ⟨_, rfl, rfl, rfl, rfl, rfl⟩

/-- One key adds at most one object, under a name of the workspace's own. -/
theorem desiredKey_objects (config : ResolvedNetworkProfilesConfig) (subject : Workspace) (sofar : DesiredState)
    (key : ProfileKey) : (feature.desiredKey config subject sofar key).objects = sofar.objects ∨
      ∃ body, (feature.desiredKey config subject sofar key).objects =
        sofar.objects ++ [feature.profileObject subject key body] := by
  unfold desiredKey
  split
  · exact Or.inl rfl
  · split
    · exact Or.inl rfl
    · split
      · exact Or.inl rfl
      · exact Or.inr ⟨_, rfl⟩

theorem desiredKeys_objects (config : ResolvedNetworkProfilesConfig) (subject : Workspace)
    (keys : List ProfileKey) (sofar : DesiredState) :
    ∀ obj ∈ (keys.foldl (feature.desiredKey config subject) sofar).objects, obj ∈ sofar.objects ∨
      ∃ key body, obj = feature.profileObject subject key body := by
  induction keys generalizing sofar with
  | nil => exact fun obj member => Or.inl member
  | cons key keys ih =>
    intro obj member
    rcases ih (feature.desiredKey config subject sofar key) obj member with before | made
    · rcases feature.desiredKey_objects config subject sofar key with same | ⟨body, one⟩
      · exact Or.inl (same ▸ before)
      · rw [one, List.mem_append, List.mem_singleton] at before
        exact before.imp_right fun isNew => ⟨key, body, isNew⟩
    · exact Or.inr made

/-- A workspace's objects carry its selector and its owner, under names of its own. -/
theorem desiredWorkspace_objects (subject : Workspace) (ctx : Context) (state : DesiredState)
    (wants : feature.desiredWorkspace subject ctx = .ok state) (obj : ManagedObject)
    (member : obj ∈ state.objects) : ∃ key body, obj = feature.profileObject subject key body := by
  obtain ⟨config, -, wants⟩ := (bind_eq_ok _ _ _).mp wants
  cases resolved : resolve ctx.teams config ctx.facts.labels subject.annotated subject.attributed with
  | error refused =>
    simp only [resolved] at wants
    cases wants
    simp [DesiredState.default] at member
  | ok provenance =>
    simp only [resolved] at wants
    cases wants
    exact (feature.desiredKeys_objects config subject _ _ obj member).resolve_left (by simp [DesiredState.default])

end NetworkProfilesFeature

/-! ## The gate -/

inductive WorkspaceOperation where
  | create | update
  deriving DecidableEq, Repr

structure WorkspaceAdmission where
  name : Text
  namespaceName : Text
  operation : WorkspaceOperation
  attributed : Option Text
  annotated : Option Text
  deriving DecidableEq, Repr

structure WorkspaceGate where
  config : Option LoadedConfig
  hasBaseline : Text → Bool
  operatorNamespace : Text

/-- The baseline is the object whose selector governs every pod of the namespace. -/
def hasBaseline (managed : List ManagedObject) (namespaceName : Text) : Bool :=
  managed.any fun obj => obj.key.namespaceName = namespaceName ∧ obj.podSelector = .empty

def notGrantedReason (name : Text) (refused : NotGranted) : Text :=
  "workspace ".toList ++ name ++ " requests network profile(s) [".toList ++ [','].intercalate refused.requested
    ++ "], which team ".toList ++ refused.team.getD "<none>".toList ++ " is not granted".toList

def noBaselineReason (name namespaceName : Text) : Text :=
  "namespace ".toList ++ namespaceName ++ " carries no weebo-si-operator network policy baseline yet; ".toList
    ++ "workspace ".toList ++ name ++ " would start unprotected".toList

def WorkspaceGate.evaluate (gate : WorkspaceGate) (subject : WorkspaceAdmission) (ctx : Context) :
    Except DomainError Decision :=
  if subject.operation ≠ .create then .ok (.allow [] none none "not_a_create".toList)
  else if isExcludedNamespace subject.namespaceName gate.operatorNamespace then
    .ok (.allow [] none none "namespace_excluded".toList)
  else match gate.config with
    | none => .error notConfigured
    | some config =>
      match resolve ctx.teams config.resolved ctx.facts.labels subject.annotated subject.attributed with
      | .error refused => .ok (.deny (notGrantedReason subject.name refused) refused.team
          (some "not_granted".toList) "denied_not_granted".toList)
      | .ok _ =>
        if gate.hasBaseline subject.namespaceName then .ok (.allow [] none none "allowed".toList)
        else .ok (.deny (noBaselineReason subject.name subject.namespaceName) none
          (some "no_baseline".toList) "denied_no_baseline".toList)

def featureId : Text := "network-profiles".toList

def WorkspaceGate.feature (gate : WorkspaceGate) : Chassis.Feature WorkspaceAdmission := ⟨featureId, gate.evaluate⟩

/-- The subject of a request: every operation but a create is an update. -/
def workspaceAdmissionFromObject (namespaceName : Text) (obj : DevWorkspace) (creates : Bool) (key : Text)
    (annotated : Option Text) : WorkspaceAdmission where
  name := obj.name.getD []
  namespaceName := namespaceName
  operation := if creates then .create else .update
  attributed := attributeOf key obj
  annotated := annotated

/-- A create that is not refused, in a namespace the gate is about, saw a baseline. -/
theorem evaluate_allowed (gate : WorkspaceGate) (subject : WorkspaceAdmission) (ctx : Context) (decision : Decision)
    (create : subject.operation = .create)
    (governed : isExcludedNamespace subject.namespaceName gate.operatorNamespace = false)
    (evaluated : gate.evaluate subject ctx = .ok decision) (allowed : decision.denial = none) :
    gate.hasBaseline subject.namespaceName = true := by
  unfold WorkspaceGate.evaluate at evaluated
  rw [if_neg (not_not.mpr create), if_neg (by simp [governed])] at evaluated
  cases loaded : gate.config with
  | none =>
    simp only [loaded] at evaluated
    cases evaluated
  | some config =>
    cases resolved : resolve ctx.teams config.resolved ctx.facts.labels subject.annotated subject.attributed with
    | error refused =>
      simp only [loaded, resolved] at evaluated
      cases evaluated
      cases allowed
    | ok provenance =>
      simp only [loaded, resolved] at evaluated
      by_cases seen : gate.hasBaseline subject.namespaceName = true
      · exact seen
      · rw [if_neg seen] at evaluated
        cases evaluated
        cases allowed

end WeeboSi.NetworkProfiles
