import WeeboSi.Lib.Run
import WeeboSi.PolicyGuard.EndpointRouting

/-!
# The guard on managed objects

Source: crates/weebo-si-policy-guard/src/guard.rs:63-134, resource.rs:24-90,
crates/weebo-si-policy-guard-adapters/src/policy_guard.rs:116-265, registry_guard.rs:74-130, 173-230,
crates/weebo-si-registry-config/src/feature/registry_guard.rs:105-165, crates/weebo-si-chassis/src/teardown.rs
and the five webhook rules of charts/weebo-si-operator/templates/validatingwebhookconfiguration*.yaml.
Two rules carry a selector on the ownership label; the apiserver calls a webhook when the old or
the new object matches it. A review that fails denies the write.
-/
namespace WeeboSi.PolicyGuard
open WeeboSi.Lib WeeboSi.Crd WeeboSi.Chassis

/-! ## Identities -/

def namespaceController : Text := "system:serviceaccount:kube-system:namespace-controller".toList
def garbageCollector : Text := "system:serviceaccount:kube-system:generic-garbage-collector".toList
def controllerManager : Text := "system:kube-controller-manager".toList

def teardownIdentities : List Text := [namespaceController, garbageCollector, controllerManager]

def isTeardownIdentity (actor : Text) : Bool := teardownIdentities.contains actor

/-- Any of them may delete; the garbage collector alone may also update. -/
def teardownMay (actor : Text) (deleting : Bool) : Bool :=
  if deleting then isTeardownIdentity actor else actor = garbageCollector || actor = controllerManager

theorem isTeardownIdentity_of_may (actor : Text) (deleting : Bool) (may : teardownMay actor deleting = true) :
    isTeardownIdentity actor = true := by
  unfold teardownMay at may
  split at may
  · exact may
  · rcases Bool.or_eq_true_iff.mp may with same | same
    · simp [isTeardownIdentity, teardownIdentities, of_decide_eq_true same]
    · simp [isTeardownIdentity, teardownIdentities, of_decide_eq_true same]

/-! ## Subjects -/

inductive GuardedResource where
  | networkPolicy | ciliumNetworkPolicy | kubeArmorPolicy | resourceQuota | limitRange
  deriving DecidableEq, Repr

namespace GuardedResource

def asStr : GuardedResource → Text
  | networkPolicy => "NetworkPolicy".toList
  | ciliumNetworkPolicy => "CiliumNetworkPolicy".toList
  | kubeArmorPolicy => "KubeArmorPolicy".toList
  | resourceQuota => "ResourceQuota".toList
  | limitRange => "LimitRange".toList

def plural : GuardedResource → Text
  | networkPolicy => "networkpolicies".toList
  | ciliumNetworkPolicy => "ciliumnetworkpolicies".toList
  | kubeArmorPolicy => "kubearmorpolicies".toList
  | resourceQuota => "resourcequotas".toList
  | limitRange => "limitranges".toList

def all : List GuardedResource := [networkPolicy, ciliumNetworkPolicy, kubeArmorPolicy, resourceQuota, limitRange]

def fromPlural (plural : Text) : Option GuardedResource := all.find? fun resource => resource.plural = plural

theorem fromPlural_plural (resource : GuardedResource) : fromPlural resource.plural = some resource := by
  cases resource <;> decide

end GuardedResource

inductive SourceKind where
  | configMap | secret
  deriving DecidableEq, Repr

def SourceKind.asStr : SourceKind → Text
  | .configMap => "ConfigMap".toList
  | .secret => "Secret".toList

def SourceKind.plural : SourceKind → Text
  | .configMap => "configmaps".toList
  | .secret => "secrets".toList

/-- The operation as a message prints it. -/
def WriteOperation.debug : WriteOperation → Text
  | .create => "Create".toList
  | .update => "Update".toList
  | .delete => "Delete".toList

/-- A write to something the operator may own. -/
structure GuardedWrite (R : Type) where
  namespaceName : Text
  actor : Text
  operation : WriteOperation
  targetIsManaged : Bool
  resource : R

/-- Who is exempt, as the configuration says at the time of a review. -/
structure Exempt where
  operatorIdentity : Text
  allowedIdentities : List Text

/-! ## The two tables -/

namespace Exempt
variable (exempt : Exempt)

def managedDenied (what actor : Text) : Decision :=
  .deny (what ++ " is managed by weebo-si-operator and may not be touched by ".toList ++ actor) none
    (some "managed_object".toList) "denied_managed_object".toList

/-- `PolicyGuard::evaluate`: nobody else touches a managed object, and nobody else creates one. -/
def evaluatePolicy (subject : GuardedWrite GuardedResource) (_ : Context) : Except DomainError Decision :=
  if subject.actor = exempt.operatorIdentity then .ok (.allow [] none none "operator_allowed".toList)
  else if subject.operation ≠ .create ∧ teardownMay subject.actor (subject.operation = .delete) = true then
    .ok (.allow [] none none "teardown_allowed".toList)
  else if subject.targetIsManaged then
    .ok (managedDenied (subject.namespaceName ++ "/".toList ++ subject.operation.debug) subject.actor)
  else if subject.operation = .create ∧ ¬ exempt.allowedIdentities.contains subject.actor then
    .ok (.deny (subject.resource.asStr ++ " authorship in workspace namespaces belongs to the platform; ".toList
      ++ subject.actor ++ " is not in allowedIdentities".toList) none (some "unmanaged_create".toList)
      "denied_unmanaged_create".toList)
  else .ok (.allow [] none none "allowed".toList)

/-- `RegistryGuard::evaluate`: a managed object is for the operator and the break-glass identities. -/
def evaluateRegistry (subject : GuardedWrite SourceKind) (_ : Context) : Except DomainError Decision :=
  if subject.actor = exempt.operatorIdentity then .ok (.allow [] none none "operator_allowed".toList)
  else if subject.operation = .delete ∧ isTeardownIdentity subject.actor = true then
    .ok (.allow [] none none "teardown_allowed".toList)
  else if !subject.targetIsManaged then .ok (.allow [] none none "allowed".toList)
  else if exempt.allowedIdentities.contains subject.actor then
    .ok (.allow [] none (some "allowed_identity".toList) "break_glass_allowed".toList)
  else
    .ok (managedDenied (subject.resource.asStr ++ " ".toList ++ subject.namespaceName ++ "/".toList
      ++ subject.operation.debug) subject.actor)

def guardId : Text := "policy-guard".toList

def policyGuard : Feature (GuardedWrite GuardedResource) := ⟨guardId, exempt.evaluatePolicy⟩

def registryGuard : Feature (GuardedWrite SourceKind) := ⟨guardId, exempt.evaluateRegistry⟩

end Exempt

/-! ## Reviews -/

/-- An object as a review carries it. -/
structure Stored (C : Type) where
  labels : Labels
  content : C

def managedByKey : Text := "hardening.weebo.io/managed-by".toList
def managedByOperator : Text := "weebo-si-operator".toList

def Stored.isManaged {C : Type} (obj : Stored C) : Bool := obj.labels.lookup managedByKey = some managedByOperator

inductive Operation where
  | create | update | delete | connect
  deriving DecidableEq, Repr

structure AdmissionRequest (C : Type) where
  namespaceName : Option Text
  username : Option Text
  operation : Operation
  resource : Text
  oldObject : Option (Stored C)

namespace AdmissionRequest
variable {C : Type} (request : AdmissionRequest C)

def writeOperation : WriteOperation :=
  match request.operation with
  | .create => .create
  | .update => .update
  | .delete | .connect => .delete

def actor : Text := request.username.getD "<unknown>".toList

/-- The existing object says whose it is; a new one is nobody's. -/
def targetIsManaged : Bool :=
  match request.writeOperation with
  | .create => false
  | _ => request.oldObject.any Stored.isManaged

/-- `guarded_write_from_request` and `write_from_request`, which read a review the same way. -/
def guardedWrite {R : Type} (resource : R) : GuardedWrite R :=
  ⟨request.namespaceName.getD [], request.actor, request.writeOperation, request.targetIsManaged, resource⟩

end AdmissionRequest

/-- What a review is decided with; the labels of a namespace are those the rules select by. -/
structure Reviewer where
  exempt : Exempt
  exclusionLabel : Text
  labelsOf : Text → Labels
  gate : FeatureGate
  view : Text → Option NamespaceFacts
  resolves : DwocRef → Bool

def workspaceLabel : Text := "hardening.weebo.io/workspace-namespace".toList

/-- The namespace selector of the rules. -/
def Reviewer.rulesReach (reviewer : Reviewer) (namespaceName : Text) : Bool :=
  ((reviewer.labelsOf namespaceName).lookup reviewer.exclusionLabel).isNone &&
    ((reviewer.labelsOf namespaceName).lookup workspaceLabel).isSome

namespace Reviewer
variable {C : Type} (reviewer : Reviewer) (request : AdmissionRequest C)

/-- Whether a decision lets the write through; a failed review does not. -/
def allows : Except DomainError AdmitOutcome → Bool
  | .ok (.allow _) => true
  | _ => false

def validate {R : Type} (feature : Feature (GuardedWrite R)) (resource : R) : Bool :=
  allows (admitSubject GuardedWrite.namespaceName reviewer.gate reviewer.view reviewer.resolves [feature]
    (request.guardedWrite resource))

def validatePolicies : Bool :=
  match GuardedResource.fromPlural request.resource with
  | none => true
  | some resource => reviewer.validate request reviewer.exempt.policyGuard resource

def kindOf (plural : Text) : Option SourceKind :=
  [SourceKind.configMap, SourceKind.secret].find? fun kind => kind.plural = plural

def validateRegistryConfigs : Bool :=
  match kindOf request.resource with
  | none => true
  | some kind => reviewer.validate request reviewer.exempt.registryGuard kind

end Reviewer

/-! ## The cluster -/

/-- What the webhook rules route to a guard. -/
inductive GuardedKind where
  | policy (resource : GuardedResource)
  | registry (kind : SourceKind)
  deriving DecidableEq, Repr

namespace GuardedKind

def plural : GuardedKind → Text
  | policy resource => resource.plural
  | registry kind => kind.plural

/-- The rule of the resource reviews unmanaged objects too. -/
def reviewsAll : GuardedKind → Bool
  | policy .networkPolicy | policy .ciliumNetworkPolicy | policy .kubeArmorPolicy => true
  | _ => false

end GuardedKind

structure Place where
  kind : GuardedKind
  namespaceName : Text
  name : Text
  deriving DecidableEq, Repr

abbrev Objects (C : Type) := Place → Option (Stored C)

/-- A write somebody asks the apiserver for: `submitted` is the new object, or none for a delete. -/
structure Write (C : Type) where
  place : Place
  username : Text
  submitted : Option (Stored C)
  reviewer : Reviewer

namespace Write
variable {C : Type} (write : Write C) (objects : Objects C)

/-- A create has no old object, a delete no new one. -/
def operation : Operation :=
  match objects write.place, write.submitted with
  | none, _ => .create
  | some _, some _ => .update
  | some _, none => .delete

def request : AdmissionRequest C :=
  ⟨some write.place.namespaceName, some write.username, write.operation objects, write.place.kind.plural,
    objects write.place⟩

/-- The rule of the resource sends the write to its guard. -/
def isReviewed : Bool :=
  write.reviewer.rulesReach write.place.namespaceName &&
    (write.place.kind.reviewsAll || (objects write.place).any Stored.isManaged ||
      write.submitted.any Stored.isManaged)

def isAllowed : Bool :=
  !write.isReviewed objects ||
    match write.place.kind with
    | .policy _ => write.reviewer.validatePolicies (write.request objects)
    | .registry _ => write.reviewer.validateRegistryConfigs (write.request objects)

/-- A write that is refused changes nothing, and neither does a delete of nothing. -/
def step (objects : Objects C) (write : Write C) : Objects C :=
  if write.isAllowed objects then fun place => if place = write.place then write.submitted else objects place
  else objects

end Write

/-! ## What outsiders cannot do -/

section Run
variable {C : Type}

/-- The guard enforces in a namespace, and the rules reach it. -/
structure Reviewer.EnforcesIn (reviewer : Reviewer) (namespaceName : Text) : Prop where
  reaches : reviewer.rulesReach namespaceName = true
  mode : reviewer.gate.modeForAdmission Exempt.guardId namespaceName = .enforce

/-- A write by somebody the guard has no exemption for. -/
structure Outsider (_ : Objects C) (write : Write C) : Prop where
  enforces : write.reviewer.EnforcesIn write.place.namespaceName
  operator : write.username ≠ write.reviewer.exempt.operatorIdentity
  teardown : isTeardownIdentity write.username = false
  breakGlass : write.username ∉ write.reviewer.exempt.allowedIdentities

theorem validate_denied {R : Type} (reviewer : Reviewer) (request : AdmissionRequest C)
    (feature : Feature (GuardedWrite R)) (resource : R)
    (enforces : reviewer.gate.modeForAdmission feature.id (request.namespaceName.getD []) = .enforce)
    (denies : ∀ ctx, ∃ decision, feature.evaluate (request.guardedWrite resource) ctx = .ok decision ∧
      decision.denial.isSome = true) : reviewer.validate request feature resource = false := by
  unfold Reviewer.validate admitSubject admitLoop
  simp only [AdmissionRequest.guardedWrite, enforces, reduceCtorEq, if_false, if_true]
  cases reviewer.view (request.namespaceName.getD []) with
  | none => rfl
  | some facts =>
    obtain ⟨decision, evaluated, denied⟩ := denies ⟨reviewer.gate.teams, facts, reviewer.resolves⟩
    obtain ⟨reason, isDenied⟩ := Option.isSome_iff_exists.mp denied
    rw [AdmissionRequest.guardedWrite] at evaluated
    simp only [evaluated, bind, Except.bind, isDenied, Reviewer.allows]

section Tables
variable (exempt : Exempt) (ctx : Context)

/-- The policy table refuses an outsider a managed object, and a new one. -/
theorem evaluatePolicy_denies (subject : GuardedWrite GuardedResource)
    (operator : subject.actor ≠ exempt.operatorIdentity) (teardown : isTeardownIdentity subject.actor = false)
    (refused : subject.targetIsManaged = true ∨
      subject.operation = .create ∧ subject.actor ∉ exempt.allowedIdentities) :
    ∃ decision, exempt.evaluatePolicy subject ctx = .ok decision ∧ decision.denial.isSome = true := by
  have noTeardown : ¬ (subject.operation ≠ .create ∧
      teardownMay subject.actor (subject.operation = .delete) = true) := by
    rintro ⟨-, may⟩
    rw [isTeardownIdentity_of_may subject.actor _ may] at teardown
    cases teardown
  unfold Exempt.evaluatePolicy
  rw [if_neg operator, if_neg noTeardown]
  cases managed : subject.targetIsManaged with
  | true => exact ⟨_, rfl, rfl⟩
  | false =>
    rcases refused with isManaged | ⟨creates, absent⟩
    · rw [managed] at isManaged
      cases isManaged
    · simp only [Bool.false_eq_true, if_false]
      rw [if_pos ⟨creates, by simpa using absent⟩]
      exact ⟨_, rfl, rfl⟩

/-- The registry table refuses an outsider a managed object. -/
theorem evaluateRegistry_denies (subject : GuardedWrite SourceKind)
    (operator : subject.actor ≠ exempt.operatorIdentity) (teardown : isTeardownIdentity subject.actor = false)
    (breakGlass : subject.actor ∉ exempt.allowedIdentities) (managed : subject.targetIsManaged = true) :
    ∃ decision, exempt.evaluateRegistry subject ctx = .ok decision ∧ decision.denial.isSome = true := by
  have noTeardown : ¬ (subject.operation = .delete ∧ isTeardownIdentity subject.actor = true) := by
    rintro ⟨-, may⟩
    rw [teardown] at may
    cases may
  unfold Exempt.evaluateRegistry
  rw [if_neg operator, if_neg noTeardown, managed]
  simp only [Bool.not_true, Bool.false_eq_true, if_false]
  rw [if_neg (by simpa using breakGlass)]
  exact ⟨_, rfl, rfl⟩

end Tables

theorem kindOf_plural (kind : SourceKind) : Reviewer.kindOf kind.plural = some kind := by
  cases kind <;> decide

/-- An outsider's write to a managed object is refused, and so is one that makes a policy. -/
theorem isAllowed_eq_false (write : Write C) (objects : Objects C) (outsider : Outsider objects write)
    (refused : (∃ obj, objects write.place = some obj ∧ obj.isManaged = true) ∨
      objects write.place = none ∧ write.place.kind.reviewsAll = true) : write.isAllowed objects = false := by
  have reviewed : write.isReviewed objects = true := by
    rcases refused with ⟨obj, present, managed⟩ | ⟨-, all⟩
    · simp [Write.isReviewed, outsider.enforces.reaches, present, managed]
    · simp [Write.isReviewed, outsider.enforces.reaches, all]
  have managed : ∀ obj, objects write.place = some obj → obj.isManaged = true →
      (write.request objects).targetIsManaged = true := by
    intro obj present isManaged
    unfold AdmissionRequest.targetIsManaged AdmissionRequest.writeOperation Write.request Write.operation
    cases write.submitted <;> simp [present, isManaged]
  obtain ⟨enforces, operator, teardown, breakGlass⟩ := outsider
  unfold Write.isAllowed
  rw [reviewed, Bool.not_true, Bool.false_or]
  cases kind : write.place.kind with
  | policy resource =>
    have named : (write.request objects).resource = resource.plural := by rw [Write.request, kind]; rfl
    simp only [Reviewer.validatePolicies, named, GuardedResource.fromPlural_plural]
    apply validate_denied write.reviewer (write.request objects) write.reviewer.exempt.policyGuard resource
      enforces.mode
    intro ctx
    refine evaluatePolicy_denies write.reviewer.exempt ctx _ operator teardown ?_
    rcases refused with ⟨obj, present, isManaged⟩ | ⟨absent, -⟩
    · exact Or.inl (managed obj present isManaged)
    · refine Or.inr ⟨?_, breakGlass⟩
      simp [AdmissionRequest.guardedWrite, AdmissionRequest.writeOperation, Write.request, Write.operation, absent]
  | registry source =>
    have named : (write.request objects).resource = source.plural := by rw [Write.request, kind]; rfl
    simp only [Reviewer.validateRegistryConfigs, named, kindOf_plural]
    apply validate_denied write.reviewer (write.request objects) write.reviewer.exempt.registryGuard source
      enforces.mode
    intro ctx
    rcases refused with ⟨obj, present, isManaged⟩ | ⟨-, all⟩
    · exact evaluateRegistry_denies write.reviewer.exempt ctx _ operator teardown breakGlass
        (managed obj present isManaged)
    · rw [kind] at all
      cases all

/-- What a run of outsiders leaves of a place: a managed object as it was, and nothing where there
was nothing and the rule reviews every write. -/
structure Untouched (before after : Objects C) (place : Place) : Prop where
  managed : ∀ obj, before place = some obj → obj.isManaged = true → after place = some obj
  absent : place.kind.reviewsAll = true → before place = none → after place = none

theorem outsiders_leave_managed (start : Objects C) (writes : List (Write C)) (place : Place)
    (run : Along Write.step (fun objects write => write.place = place → Outsider objects write) start writes) :
    Untouched start (after Write.step start writes) place := by
  have kept : ∀ now : Option (Stored C), start place = now →
      ((∃ obj, now = some obj ∧ obj.isManaged = true) ∨ now = none ∧ place.kind.reviewsAll = true) →
      after Write.step start writes place = now := by
    intro now isNow refused
    refine after_of_invariant Write.step (fun objects => objects place = now) _ ?_ start isNow writes run
    intro objects write same admissible
    by_cases here : write.place = place
    · have denied := isAllowed_eq_false write objects (admissible here) (by rw [here, same]; exact refused)
      rw [Write.step, denied]
      exact same
    · rw [Write.step]
      split
      · simp only [if_neg (Ne.symm here)]
        exact same
      · exact same
  constructor
  · intro obj present managed
    exact kept (some obj) present (Or.inl ⟨obj, rfl, managed⟩)
  · intro all absent
    exact kept none absent (Or.inr ⟨rfl, all⟩)

/-! ### A run of two writes -/

def aliceNs : Text := "user-alice".toList

def isolation : Place := ⟨.policy .networkPolicy, aliceNs, "weebo-si-isolation".toList⟩

def isolationStored : Stored Nat := ⟨[(managedByKey, managedByOperator)], 0⟩

def isolationHeld : Objects Nat := fun place => if place = isolation then some isolationStored else none

def enforcing : Reviewer :=
  ⟨⟨"system:serviceaccount:weebo:operator".toList, []⟩, "hardening.weebo.io/exclude".toList,
    fun _ => [(workspaceLabel, "true".toList)], ⟨fun _ _ => .enforce, []⟩, fun _ => none, fun _ => false⟩

/-- Alice takes the label off, then deletes. -/
def aliceWrites : List (Write Nat) :=
  [⟨isolation, "alice".toList, some ⟨[], 1⟩, enforcing⟩, ⟨isolation, "alice".toList, none, enforcing⟩]

theorem aliceWrites_outsider (write : Write Nat) (member : write ∈ aliceWrites) (objects : Objects Nat) :
    Outsider objects write := by
  simp only [aliceWrites, List.mem_cons, List.not_mem_nil, or_false] at member
  rcases member with rfl | rfl
  · exact ⟨⟨by decide, rfl⟩, by decide, by decide, List.not_mem_nil⟩
  · exact ⟨⟨by decide, rfl⟩, by decide, by decide, List.not_mem_nil⟩

theorem outsiders_leave_managed_alice :
    after Write.step isolationHeld aliceWrites isolation = some isolationStored := by
  refine (outsiders_leave_managed isolationHeld aliceWrites isolation ?_).managed _ rfl (by decide)
  exact ⟨fun _ => aliceWrites_outsider _ (List.mem_cons_self ..) _,
    fun _ => aliceWrites_outsider _ (by simp [aliceWrites]) _, trivial⟩

end Run

end WeeboSi.PolicyGuard
