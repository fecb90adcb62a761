import WeeboSi.Controller.Workspace
import WeeboSi.KubearmorPolicy.Desired
import WeeboSi.Lib.Run
import WeeboSi.Lib.TextMap

/-!
# The loops of kubearmor-policy

Source: crates/weebo-si-kubearmor-policy/src/application.rs:14-133 and
crates/weebo-si-kubearmor-policy-adapters/src/controller.rs:127-330, kubearmor_policy_store.rs:330-348.
Every call to the apiserver may fail, and ends the pass it belongs to: `calls` says how many of a pass go
through. The managed policies and the annotations of a namespace are read as they are.
-/
namespace WeeboSi.KubearmorPolicy
open WeeboSi.Lib WeeboSi.Crd WeeboSi.Chassis WeeboSi.Controller

/-- The managed policies of the cluster, one a name. -/
structure Policies where
  objects : List ManagedObject
  distinct : (objects.map place).Nodup

section Apply
variable (storage : Storage ManagedObject)

def Policies.apply (lines : List Line) (policies : Policies) : Policies :=
  ⟨storage.store.applyLines lines policies.objects, storage.store.nodup_applyLines lines policies.objects policies.distinct⟩

/-- Line after line, until a call fails; what is left of the calls if none does. -/
def applyUntil : Nat → List Line → Policies → Policies × Option Nat
  | calls, [], policies => (policies, some calls)
  | calls, .unchanged _ :: rest, policies => applyUntil calls rest policies
  | 0, _ :: _, policies => (policies, none)
  | calls + 1, line :: rest, policies => applyUntil calls rest (policies.apply storage [line])

/-- Some first lines go through; all of them if no call fails. -/
theorem applyUntil_front (calls : Nat) (lines : List Line) (policies : Policies) :
    ∃ front, front <+: lines ∧ (applyUntil storage calls lines policies).1.objects =
      storage.store.applyLines front policies.objects ∧
      ((applyUntil storage calls lines policies).2.isSome = true → front = lines) := by
  induction lines generalizing calls policies with
  | nil => exact ⟨[], List.prefix_refl _, by simp [applyUntil, ObjectStore.applyLines], fun _ => rfl⟩
  | cons line rest ih =>
    have skipped : ∀ key, line = .unchanged key → ∃ front, front <+: line :: rest ∧
        (applyUntil storage calls (line :: rest) policies).1.objects = storage.store.applyLines front policies.objects ∧
        ((applyUntil storage calls (line :: rest) policies).2.isSome = true → front = line :: rest) := by
      rintro key rfl
      obtain ⟨front, isFront, same, all⟩ := ih calls policies
      exact ⟨.unchanged key :: front, List.cons_prefix_cons.mpr ⟨rfl, isFront⟩, by rw [applyUntil, same]; rfl,
        fun done => by rw [all (by rwa [applyUntil] at done)]⟩
    have called : (∀ n, applyUntil storage (n + 1) (line :: rest) policies =
        applyUntil storage n rest (policies.apply storage [line])) →
        applyUntil storage 0 (line :: rest) policies = (policies, none) → ∃ front, front <+: line :: rest ∧
        (applyUntil storage calls (line :: rest) policies).1.objects = storage.store.applyLines front policies.objects ∧
        ((applyUntil storage calls (line :: rest) policies).2.isSome = true → front = line :: rest) := by
      intro goesOn ends
      cases calls with
      | zero => exact ⟨[], List.nil_prefix, by rw [ends]; rfl, fun done => by simp [ends] at done⟩
      | succ n =>
        obtain ⟨front, isFront, same, all⟩ := ih n (policies.apply storage [line])
        rw [goesOn]
        exact ⟨line :: front, List.cons_prefix_cons.mpr ⟨rfl, isFront⟩, same, fun done => by rw [all done]⟩
    cases line with
    | create obj => exact called (fun _ => rfl) rfl
    | update obj => exact called (fun _ => rfl) rfl
    | delete key backend uid => exact called (fun _ => rfl) rfl
    | unchanged key => exact skipped key rfl

end Apply

/-! ## One reconcile -/

structure ReconcileOutcome where
  diffs : List Line
  applied : Option Applied
  posture : Option DefaultPosture
  team : Option Text
  notGranted : List RuntimeProfileKey
  held : List ObjectKey

def ReconcileOutcome.postureToWrite (outcome : ReconcileOutcome) : Option DefaultPosture :=
  outcome.applied.bind fun _ => outcome.posture

section Reconcile
variable (quoted : Text → Text) (storage : Storage ManagedObject)

/-- A posture is only worth writing where the baseline is: built by this pass, or live and held. -/
def baselineExists (state : DesiredState) (existing : List ManagedObject) : Bool :=
  !state.objects.isEmpty || state.held.any fun key => existing.any fun live => live.key = key

def reconcile {S : Type} [OwnedScope S] (desired : S → Context → Except DomainError DesiredState) (subject : S)
    (ctx : Context) (mode : FeatureMode) (calls : Nat) (policies : Policies) :
    Policies × Except DomainError (ReconcileOutcome × Nat) :=
  if mode = .off then
    (policies, .error (.invalidConfiguration ("reconcile called with mode Off — the caller must skip reconciling "
      ++ "an Off feature rather than call this function at all").toList))
  else
    match desired subject ctx with
    | .error e => (policies, .error e)
    | .ok state =>
      let existing := inNamespace (OwnedScope.namespaceName subject) policies.objects
      match computeOwnedDiff quoted (OwnedScope.ownedSelector subject) state.objects state.held existing with
      | .error e => (policies, .error e)
      | .ok lines =>
        let posture := state.posture.filter fun _ => baselineExists state existing
        let outcome (applied : Option Applied) : ReconcileOutcome :=
          ⟨lines, applied, posture, state.team, state.notGranted, state.held⟩
        if mode = .enforce then
          match applyUntil storage calls lines policies with
          | (policies, none) => (policies, .error (.portFailed []))
          | (policies, some left) => (policies, .ok (outcome (some (tally lines)), left))
        else (policies, .ok (outcome none, calls))

/-- Everything managed in the namespace is removed. -/
def teardown (namespaceName : Text) (calls : Nat) (policies : Policies) : Policies × Option Nat :=
  let existing := inNamespace namespaceName policies.objects
  if existing = [] then (policies, some calls)
  else applyUntil storage calls (computeDiff [] existing) policies

/-! ## The loops -/

def Posture.asStr : Posture → Text
  | .audit => "audit".toList
  | .block => "block".toList

def postureKeys : List Text :=
  ["kubearmor-file-posture".toList, "kubearmor-network-posture".toList, "kubearmor-capabilities-posture".toList]

/-- The three pairs KubeArmor reads off a namespace. -/
def DefaultPosture.annotations (posture : DefaultPosture) : List (Text × Text) :=
  postureKeys.zip [posture.file.asStr, posture.network.asStr, posture.capabilities.asStr]

structure Cluster where
  policies : Policies
  annotations : Text → TextMap Text

/-- A merge patch of the annotations of one namespace. -/
def Cluster.annotate (s : Cluster) (namespaceName : Text) (patch : TextMap Text → TextMap Text) : Cluster :=
  { s with annotations := fun other => if other = namespaceName then patch (s.annotations other)
      else s.annotations other }

def postured (annotations : TextMap Text) : Bool := annotations.keys.any postureKeys.contains

/-- What a pass over a namespace is given. -/
structure NamespacePass where
  namespaceName : Text
  terminating : Bool
  operatorNamespace : Text
  mode : FeatureMode
  feature : KubeArmorPolicy
  ctx : Context
  calls : Nat

def NamespacePass.configuredOff (pass : NamespacePass) : Bool :=
  pass.feature.config.any fun config => config.config.mode = .off

def NamespacePass.rollBack (pass : NamespacePass) (s : Cluster) : Cluster :=
  let owned := inNamespace pass.namespaceName s.policies.objects ≠ []
  if owned ∧ postured (s.annotations pass.namespaceName) = true then
    match pass.calls with
    | 0 => s
    | calls + 1 =>
      let cleared := s.annotate pass.namespaceName fun annotations => annotations.without postureKeys
      { cleared with policies := (teardown storage pass.namespaceName calls cleared.policies).1 }
  else { s with policies := (teardown storage pass.namespaceName pass.calls s.policies).1 }

def NamespacePass.enforce (pass : NamespacePass) (s : Cluster) : Cluster :=
  match reconcile quoted storage pass.feature.desiredNamespace (⟨pass.namespaceName⟩ : NamespaceSubject) pass.ctx
      pass.mode pass.calls s.policies with
  | (policies, .error _) => { s with policies := policies }
  | (policies, .ok (outcome, left)) =>
    match outcome.postureToWrite, left with
    | some posture, _ + 1 =>
      ({ s with policies := policies } : Cluster).annotate pass.namespaceName fun annotations =>
        annotations.insertAll posture.annotations
    | _, _ => { s with policies := policies }

def reconcileNamespace (pass : NamespacePass) (s : Cluster) : Cluster :=
  if pass.terminating then s
  else if isExcludedNamespace pass.namespaceName pass.operatorNamespace then s
  else if pass.mode = .off then
    if pass.configuredOff then pass.rollBack storage s else s
  else pass.enforce quoted storage s

/-- What a pass over a workspace is given: `selection` is the configuration its keys are read from. -/
structure WorkspacePass where
  obj : DevWorkspace
  annotated : Text → Option Text
  selection : Option ResolvedKubeArmorPolicyConfig
  operatorNamespace : Text
  mode : FeatureMode
  feature : KubeArmorPolicy
  ctx : Context
  calls : Nat

def WorkspacePass.subject (pass : WorkspacePass) : Option Workspace := do
  let workspaceId ← devworkspaceId pass.obj
  let config ← pass.selection
  let owner ← devworkspaceOwner pass.obj
  some ⟨pass.obj.name.getD [], pass.obj.namespaceName.getD [], workspaceId,
    attributeOf config.config.workspaceSelection pass.obj, pass.annotated config.config.namespaceSelection, owner⟩

def reconcileDevworkspace (pass : WorkspacePass) (s : Cluster) : Cluster :=
  if isExcludedNamespace (pass.obj.namespaceName.getD []) pass.operatorNamespace then s
  else if pass.mode = .off then s
  else match pass.subject with
    | none => s
    | some subject => { s with policies := (reconcile quoted storage pass.feature.desiredWorkspace subject pass.ctx
        pass.mode pass.calls s.policies).1 }

end Reconcile

end WeeboSi.KubearmorPolicy
