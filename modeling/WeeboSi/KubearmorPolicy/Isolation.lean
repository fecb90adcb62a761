import WeeboSi.KubearmorPolicy.PostureRuns

/-!
# Passes of different subjects stay apart

Source: crates/weebo-si-kubearmor-policy/src/application.rs:58-133, feature/kubearmor_policy.rs:46-104 and
crates/weebo-si-chassis/src/managed/scope.rs:23-82. A namespace holds its baseline and the profiles of every
workspace in it, and each pass is computed from its own share.
-/
namespace WeeboSi.KubearmorPolicy
open WeeboSi.Lib WeeboSi.Crd WeeboSi.Chassis WeeboSi.Controller

/-- The subjects of both loops. -/
inductive Subject where
  | ofNamespace (subject : NamespaceSubject)
  | ofWorkspace (subject : Workspace)
  deriving DecidableEq, Repr

instance : OwnedScope Subject where
  namespaceName
    | .ofNamespace subject => OwnedScope.namespaceName subject
    | .ofWorkspace subject => OwnedScope.namespaceName subject
  ownedSelector
    | .ofNamespace subject => OwnedScope.ownedSelector subject
    | .ofWorkspace subject => OwnedScope.ownedSelector subject

def KubeArmorPolicy.desired (feature : KubeArmorPolicy) : Subject → Context → Except DomainError DesiredState
  | .ofNamespace subject => feature.desiredNamespace subject
  | .ofWorkspace subject => feature.desiredWorkspace subject

/-- The object is the subject's own. -/
def Subject.Owns (subject : Subject) (obj : ManagedObject) : Prop :=
  obj.key.namespaceName = OwnedScope.namespaceName subject ∧ obj.podSelector = OwnedScope.ownedSelector subject

/-- What makes a desired state one that a subject may apply. -/
structure Shaped {S : Type} [OwnedScope S] (subject : S) (state : DesiredState) : Prop where
  here : ∀ obj ∈ state.objects, obj.key.namespaceName = OwnedScope.namespaceName subject
  apart : ∀ obj ∈ state.objects, obj.key ∉ state.held
  agree : ∀ a ∈ state.objects, ∀ b ∈ state.objects, a.key = b.key → a = b

theorem shaped_namespace (feature : KubeArmorPolicy) (subject : NamespaceSubject) (ctx : Context)
    (state : DesiredState) (wants : feature.desiredNamespace subject ctx = .ok state) : Shaped subject state := by
  rcases feature.desiredNamespace_cases subject ctx state wants with ⟨none_, -⟩ | ⟨baseline, one, held, key, -⟩
  · exact ⟨by simp [none_], by simp [none_], by simp [none_]⟩
  · refine ⟨?_, by simp [held], ?_⟩
    · intro obj member
      rw [one, List.mem_singleton] at member
      rw [member, key]
      rfl
    · intro a inA b inB _
      rw [one, List.mem_singleton] at inA inB
      rw [inA, inB]

theorem shaped_workspace (feature : KubeArmorPolicy) (subject : Workspace) (ctx : Context)
    (state : DesiredState) (wants : feature.desiredWorkspace subject ctx = .ok state) : Shaped subject state := by
  have shape := feature.desiredWorkspace_shape subject ctx state wants
  refine ⟨?_, shape.apart, shape.agree⟩
  intro obj member
  obtain ⟨key, isProfile, -⟩ := shape.objects obj member
  rw [isProfile]
  rfl

theorem shaped_desired (feature : KubeArmorPolicy) (subject : Subject) (ctx : Context) (state : DesiredState)
    (wants : feature.desired subject ctx = .ok state) : Shaped subject state := by
  cases subject with
  | ofNamespace subject =>
    obtain ⟨here, apart, agree⟩ := shaped_namespace feature subject ctx state wants
    exact ⟨here, apart, agree⟩
  | ofWorkspace subject =>
    obtain ⟨here, apart, agree⟩ := shaped_workspace feature subject ctx state wants
    exact ⟨here, apart, agree⟩

theorem selector_of_contentEq (a b : ManagedObject) (same : Managed.contentEq a b = true) :
    Selected.podSelector a = Selected.podSelector b :=
  ((contentEq_iff a b).mp same).2.1

theorem backend_of_key (a b : ManagedObject) (_ : Managed.key a = Managed.key b) :
    Managed.backend a = Managed.backend b :=
  backend_unique _ _

/-! ## What a pass leaves alone -/

section Frame
variable (quoted : Text → Text) (storage : Storage ManagedObject)

/-- However far a pass gets, it changes nothing of another subject's. -/
theorem reconcile_frame {S : Type} [OwnedScope S] (desired : S → Context → Except DomainError DesiredState)
    (subject : S) (ctx : Context) (mode : FeatureMode) (calls : Nat) (policies : Policies)
    (shaped : ∀ state, desired subject ctx = .ok state → Shaped subject state) (obj : ManagedObject)
    (foreign : ¬ (obj.key.namespaceName = OwnedScope.namespaceName subject ∧
      obj.podSelector = OwnedScope.ownedSelector subject)) :
    obj ∈ (reconcile quoted storage desired subject ctx mode calls policies).1.objects ↔ obj ∈ policies.objects := by
  rcases reconcile_cases quoted storage desired subject ctx mode calls policies with same | ⟨state, lines, wants,
    computed, same⟩
  · rw [same]
  · obtain ⟨front, isFront, done, -⟩ := applyUntil_front storage calls lines policies
    obtain ⟨here, apart, -⟩ := shaped state wants
    rw [same, done]
    exact mem_front_foreign quoted storage selector_of_contentEq backend_of_key here apart policies.distinct computed
      front isFront.subset obj fun all => foreign ⟨all.1, all.2.1⟩

theorem teardown_frame (namespaceName : Text) (calls : Nat) (policies : Policies) (obj : ManagedObject)
    (away : obj.key.namespaceName ≠ namespaceName) :
    obj ∈ (teardown storage namespaceName calls policies).1.objects ↔ obj ∈ policies.objects := by
  unfold teardown
  simp only
  split
  · rfl
  · obtain ⟨front, isFront, done, -⟩ := applyUntil_front storage calls
      (computeDiff [] (inNamespace namespaceName policies.objects)) policies
    rw [done]
    apply storage.store.mem_applyLines_elsewhere
    intro line member at_
    have diff := diffOf_computeDiff [] (inNamespace namespaceName policies.objects)
      fun _ _ _ _ _ _ => backend_unique _ _
    cases writes : lineWrites line with
    | some written => exact absurd (diff.writes line (isFront.subset member) written writes) (by simp)
    | none =>
      obtain ⟨live, isLive, same⟩ := diff.aims line (isFront.subset member) writes _ at_
      have inside := ((mem_inNamespace namespaceName _ live).mp isLive).2
      rw [key_eq, (place_eq_iff live obj).mp same] at inside
      exact away inside

theorem rollBack_frame (pass : NamespacePass) (s : Cluster) (obj : ManagedObject)
    (away : obj.key.namespaceName ≠ pass.namespaceName) :
    obj ∈ (pass.rollBack storage s).policies.objects ↔ obj ∈ s.policies.objects := by
  unfold NamespacePass.rollBack
  simp only
  split
  · cases pass.calls with
    | zero => rfl
    | succ calls => exact teardown_frame storage pass.namespaceName calls _ obj away
  · exact teardown_frame storage pass.namespaceName pass.calls _ obj away

theorem enforce_policies (pass : NamespacePass) (s : Cluster) : (pass.enforce quoted storage s).policies =
    (reconcile quoted storage pass.feature.desiredNamespace (⟨pass.namespaceName⟩ : NamespaceSubject) pass.ctx
      pass.mode pass.calls s.policies).1 := by
  unfold NamespacePass.enforce
  split
  · next done => rw [done]
  · next done =>
    rw [done]
    split <;> rfl

/-- The event is about another subject, or about the annotations. -/
def Leaves (subject : Subject) (s : Cluster) : Event → Prop
  | .namespacePass pass => pass.namespaceName ≠ OwnedScope.namespaceName subject ∨
      OwnedScope.ownedSelector subject ≠ .empty ∧ pass.mode ≠ .off
  | .workspacePass pass => ∀ other, pass.subject = some other →
      ¬ (other.namespaceName = OwnedScope.namespaceName subject ∧
        .devWorkspaceId other.workspaceId = OwnedScope.ownedSelector subject)
  | .collect key => ∀ obj ∈ s.policies.objects, obj.key = key → obj.owner.isSome = true → ¬ subject.Owns obj
  | .annotate _ _ => True
  | .drop namespaceName => namespaceName ≠ OwnedScope.namespaceName subject

theorem step_frame (subject : Subject) (s : Cluster) (event : Event) (leaves : Leaves subject s event)
    (obj : ManagedObject) (own : subject.Owns obj) :
    obj ∈ (step quoted storage s event).policies.objects ↔ obj ∈ s.policies.objects := by
  cases event with
  | namespacePass pass =>
    rw [step, reconcileNamespace]
    split
    · rfl
    · split
      · rfl
      · split
        · next off =>
          have away : obj.key.namespaceName ≠ pass.namespaceName := by
            intro same
            rcases leaves with other | ⟨-, active⟩
            · exact other (same.symm.trans own.1)
            · exact active off
          split
          · exact rollBack_frame storage pass s obj away
          · rfl
        · rw [enforce_policies]
          apply reconcile_frame quoted storage _ _ _ _ _ _ fun state =>
            shaped_namespace pass.feature ⟨pass.namespaceName⟩ pass.ctx state
          intro both
          rcases leaves with other | ⟨selector, -⟩
          · exact other (both.1.symm.trans own.1)
          · exact selector (own.2.symm.trans both.2)
  | workspacePass pass =>
    rw [step, reconcileDevworkspace]
    split
    · rfl
    · split
      · rfl
      · split
        · rfl
        · next other isOther =>
          apply reconcile_frame quoted storage _ _ _ _ _ _ fun state =>
            shaped_workspace pass.feature other pass.ctx state
          intro both
          exact leaves other isOther ⟨both.1.symm.trans own.1, both.2.symm.trans own.2⟩
  | collect key =>
    have kept : obj ∈ s.policies.objects → ¬ (obj.key = key ∧ obj.owner.isSome = true) := fun member both =>
      leaves obj member both.1 both.2 own
    simp only [step, Policies.keep, List.mem_filter, and_iff_left_iff_imp]
    intro member
    simpa [imp_iff_not_or] using kept member
  | annotate namespaceName patch => rfl
  | drop namespaceName =>
    simp only [step, Policies.keep, List.mem_filter, and_iff_left_iff_imp]
    intro _
    exact decide_eq_true fun same => leaves (same.symm.trans own.1)

/-- What is the subject's own stays as it is along a run that is about others. -/
theorem after_frame (subject : Subject) (start : Cluster) (events : List Event)
    (run : Along (step quoted storage) (Leaves subject) start events) (obj : ManagedObject)
    (own : subject.Owns obj) :
    obj ∈ (after (step quoted storage) start events).policies.objects ↔ obj ∈ start.policies.objects := by
  refine after_of_invariant (step quoted storage)
    (fun s => obj ∈ s.policies.objects ↔ obj ∈ start.policies.objects) (Leaves subject) ?_ start Iff.rfl events run
  intro s event same leaves
  exact (step_frame quoted storage subject s event leaves obj own).trans same

end Frame

/-! ## A subject stays settled -/

section InForce
variable (quoted : Text → Text) (storage : Storage ManagedObject)

/-- The subject's objects are the desired ones, and another pass has nothing to do. -/
structure InForce (subject : Subject) (state : DesiredState) (policies : Policies) : Prop where
  carries : Carries state.objects (ownedBy (OwnedScope.ownedSelector subject) state.held
    (inNamespace (OwnedScope.namespaceName subject) policies.objects))
  idle : ∃ lines : List Line, computeOwnedDiff quoted (OwnedScope.ownedSelector subject) state.objects state.held
      (inNamespace (OwnedScope.namespaceName subject) policies.objects) = .ok lines ∧
    ∀ line ∈ lines, ∃ key, line = .unchanged key

theorem reconcile_applied (subject : Subject) (feature : KubeArmorPolicy) (ctx : Context) (calls left : Nat)
    (policies done : Policies) (outcome : ReconcileOutcome)
    (passed : reconcile quoted storage feature.desired subject ctx .enforce calls policies = (done, .ok (outcome, left))) :
    ∃ state lines, feature.desired subject ctx = .ok state ∧
      computeOwnedDiff quoted (OwnedScope.ownedSelector subject) state.objects state.held
        (inNamespace (OwnedScope.namespaceName subject) policies.objects) = .ok lines ∧
      done.objects = storage.store.applyLines lines policies.objects := by
  unfold reconcile at passed
  rw [if_neg (by decide)] at passed
  cases wants : feature.desired subject ctx with
  | error e =>
    simp only [wants] at passed
    cases passed
  | ok state =>
    simp only [wants] at passed
    cases computed : computeOwnedDiff quoted (OwnedScope.ownedSelector subject) state.objects state.held
        (inNamespace (OwnedScope.namespaceName subject) policies.objects) with
    | error e =>
      simp only [computed] at passed
      cases passed
    | ok lines =>
      simp only [computed, if_true] at passed
      obtain ⟨front, -, same, all⟩ := applyUntil_front storage calls lines policies
      split at passed
      · cases passed
      · next applied =>
        cases passed
        rw [applied] at same all
        refine ⟨state, lines, rfl, computed, ?_⟩
        rw [← all rfl]
        exact same

/-- A pass that goes through settles its subject, and no pass of another subject, wherever it
fails, and nothing else that is not about it undoes that. -/
theorem subject_stays_settled (subject : Subject) (feature : KubeArmorPolicy) (ctx : Context) (calls left : Nat)
    (s : Cluster) (done : Policies) (outcome : ReconcileOutcome) (state : DesiredState) (events : List Event)
    (passed : reconcile quoted storage feature.desired subject ctx .enforce calls s.policies =
      (done, .ok (outcome, left)))
    (wants : feature.desired subject ctx = .ok state)
    (run : Along (step quoted storage) (Leaves subject) { s with policies := done } events) :
    InForce quoted subject state (after (step quoted storage) { s with policies := done } events).policies := by
  obtain ⟨state', lines, wants', computed, applied⟩ :=
    reconcile_applied quoted storage subject feature ctx calls left s.policies done outcome passed
  cases wants.symm.trans wants'
  obtain ⟨here, apart, agree⟩ := shaped_desired feature subject ctx state wants
  have agreed : ∀ a ∈ state.objects, ∀ b ∈ state.objects, place a = place b → a = b := fun a inA b inB same =>
    agree a inA b inB ((place_eq_iff a b).mp same)
  have settled := settled_of_ownedDiff quoted storage selector_of_contentEq backend_of_key agreed here apart
    s.policies.distinct computed
  rw [← applied] at settled
  obtain ⟨own, -, -⟩ := (computeOwnedDiff_ok_iff quoted _ _ _ _ lines).mp computed
  -- The subject's share of the objects is the one the pass left.
  have share : ∀ obj, obj ∈ ownedBy (OwnedScope.ownedSelector subject) state.held (inNamespace
      (OwnedScope.namespaceName subject) (after (step quoted storage) { s with policies := done } events).policies.objects) ↔
      obj ∈ ownedBy (OwnedScope.ownedSelector subject) state.held
        (inNamespace (OwnedScope.namespaceName subject) done.objects) := by
    intro obj
    simp only [mem_ownedBy, mem_inNamespace, and_assoc]
    constructor
    · rintro ⟨isLive, inside, selector, unheld⟩
      exact ⟨(after_frame quoted storage subject _ events run obj ⟨inside, selector⟩).mp isLive, inside, selector, unheld⟩
    · rintro ⟨isLive, inside, selector, unheld⟩
      exact ⟨(after_frame quoted storage subject _ events run obj ⟨inside, selector⟩).mpr isLive, inside, selector, unheld⟩
  have carries : Carries state.objects (ownedBy (OwnedScope.ownedSelector subject) state.held (inNamespace
      (OwnedScope.namespaceName subject)
      (after (step quoted storage) { s with policies := done } events).policies.objects)) := by
    constructor
    · intro obj inside
      obtain ⟨live, isLive, same⟩ := settled.carries.present obj inside
      exact ⟨live, (share live).mpr isLive, same⟩
    · intro live isLive
      exact settled.carries.only live ((share live).mp isLive)
  refine ⟨carries, _, (computeOwnedDiff_ok_iff quoted _ _ _ _ _).mpr ⟨own, ?_, rfl⟩, ?_⟩
  · -- A key that is wanted is taken, so nobody else can have it.
    intro obj member other wanted inside same
    obtain ⟨live, isLive, here_, -⟩ := carries.present wanted inside
    obtain ⟨listed, selector, -⟩ := (mem_ownedBy _ state.held _ live).mp isLive
    have isSame := List.inj_on_of_nodup_map
      (after (step quoted storage) { s with policies := done } events).policies.distinct
      ((mem_inNamespace _ _ live).mp listed).1 ((mem_inNamespace _ _ obj).mp member).1
      ((place_eq_iff live obj).mpr (((place_eq_iff live wanted).mp here_).trans same))
    exact other (isSame ▸ selector)
  · intro line member
    exact computeDiff_unchanged state.objects _ (fun _ _ _ _ same => backend_of_key _ _ same) agreed carries line member

end InForce

/-! ## Two workspaces of one namespace -/

/-- A second profile, which the team `core` gets without asking. -/
def devConfig : ResolvedKubeArmorPolicyConfig where
  config :=
    { baseConfig.config with
      catalog := baseConfig.config.catalog ++
        [⟨"dev".toList, ⟨"weebo-dev-runtime".toList, "weebo-si-hardening".toList⟩⟩] }
  grants := [("core".toList, ⟨["dev".toList], ["dev".toList]⟩)]

def devFeature : KubeArmorPolicy := ⟨some devConfig, .kubeArmor, fun _ _ => some [1]⟩

def coreContext : Context := ⟨[⟨"core".toList, ⟨[], []⟩⟩], ⟨[], none⟩, fun _ => false⟩

/-- The pass over a workspace of alice's. -/
def devPass (workspaceId : Text) : WorkspacePass where
  obj := ⟨some "ws".toList, some aliceNamespace, some "uid-ws".toList, [(idLabel, workspaceId)], .null⟩
  annotated := fun _ => none
  selection := some devConfig
  operatorNamespace := "weebo-si-hardening".toList
  mode := .enforce
  feature := devFeature
  ctx := coreContext
  calls := 2

def aliceWorkspace (workspaceId : Text) : Workspace :=
  ⟨"ws".toList, aliceNamespace, workspaceId, none, none,
    ⟨"workspace.devfile.io/v1alpha2".toList, "DevWorkspace".toList, "ws".toList, "uid-ws".toList⟩⟩

def firstSubject : Subject := .ofWorkspace (aliceWorkspace "workspace1".toList)

def firstProfile : ManagedObject := profileObject devFeature (aliceWorkspace "workspace1".toList) "dev".toList [1]

def firstState : DesiredState := ⟨[firstProfile], none, some "core".toList, [], []⟩

def firstDone : Policies := ⟨[firstProfile], List.nodup_singleton _⟩

def firstOutcome : ReconcileOutcome :=
  ⟨[.create firstProfile], some ⟨1, 0, 0, 0⟩, none, some "core".toList, [], []⟩

/-- The namespace gets its baseline and another workspace its profile. -/
def neighbours : List Event :=
  [.namespacePass (basePass aliceNamespace), .workspacePass (devPass "workspace2".toList)]

theorem neighbours_leave (s : Cluster) : Along (step id plainStorage) (Leaves firstSubject) s neighbours := by
  refine ⟨Or.inr ⟨by decide, by decide⟩, ?_, trivial⟩
  intro other isOther same
  have second : (devPass "workspace2".toList).subject = some (aliceWorkspace "workspace2".toList) := by rfl
  obtain rfl := Option.some.inj (second.symm.trans isOther)
  exact absurd same.2 (by decide)

theorem subject_stays_settled_alice :
    InForce id firstSubject firstState
        (after (step id plainStorage) { emptyCluster with policies := firstDone } neighbours).policies ∧
      (after (step id plainStorage) { emptyCluster with policies := firstDone } neighbours).policies.objects.length =
        3 := by
  refine ⟨subject_stays_settled id plainStorage firstSubject devFeature coreContext 2 1 emptyCluster firstDone
    firstOutcome firstState neighbours (by rfl) (by rfl) (neighbours_leave _), by rfl⟩

end WeeboSi.KubearmorPolicy
