import WeeboSi.KubearmorPolicy.Reconcile

/-!
# A posture stands over a baseline

Source: crates/weebo-si-kubearmor-policy/src/application.rs:78-133 and
crates/weebo-si-kubearmor-policy-adapters/src/controller.rs:192-330. A posture decides what happens to every
operation no policy allows, so one without a baseline policy breaks the workspaces of its namespace.
Between the passes the garbage collector removes objects that have an owner, others change
annotations of their own, and a namespace may go with everything in it.
-/
namespace WeeboSi.KubearmorPolicy
open WeeboSi.Lib WeeboSi.Crd WeeboSi.Chassis WeeboSi.Controller

/-! ## Lines and baselines -/

section Lines
variable (storage : Storage ManagedObject)

/-- Lines that write a baseline only as one. -/
def WritesFloor (lines : List Line) : Prop :=
  ∀ line ∈ lines, ∀ obj, lineWrites line = some obj → obj.key.name = baselineName →
    obj.podSelector = .empty ∧ obj.owner = none

/-- Lines that leave what has the key. -/
def Spares (key : ObjectKey) (lines : List Line) : Prop :=
  ∀ line ∈ lines, ∀ backend uid, line ≠ .delete key backend uid

def HasKey (key : ObjectKey) (objects : List ManagedObject) : Prop := ∃ obj ∈ objects, obj.key = key

def FloorOnly (objects : List ManagedObject) : Prop :=
  ∀ obj ∈ objects, obj.key.name = baselineName → obj.podSelector = .empty ∧ obj.owner = none

theorem stored_key (obj : ManagedObject) : (storage.stored obj).key = obj.key :=
  congrArg Prod.snd (storage.samePlace obj)

theorem floorOnly_applyLines (lines : List Line) (objects : List ManagedObject) (floor : FloorOnly objects)
    (writes : WritesFloor lines) : FloorOnly (storage.store.applyLines lines objects) := by
  intro obj member named
  rcases storage.store.mem_applyLines_cases lines objects obj member with before |
    ⟨line, inLines, written, writer, -, rfl⟩
  · exact floor obj before named
  · have content := (contentEq_iff _ _).mp (storage.sameContent written)
    rw [stored_key] at named
    rw [content.2.1, content.2.2.2]
    exact writes line inLines written writer named

end Lines

/-! ## The invariant -/

def Cluster.Postured (s : Cluster) (namespaceName : Text) : Prop :=
  postured (s.annotations namespaceName) = true

/-- A baseline is nobody's but the namespace's, and a posture stands over one. -/
structure Backed (s : Cluster) : Prop where
  floor : FloorOnly s.policies.objects
  baseline : ∀ namespaceName, s.Postured namespaceName → HasKey (baselineKey namespaceName) s.policies.objects

theorem postured_iff (annotations : TextMap Text) :
    postured annotations = true ↔ ∃ key ∈ postureKeys, (annotations.get key).isSome = true := by
  simp only [postured, List.any_eq_true, TextMap.mem_keys, List.contains_eq_mem, decide_eq_true_eq]
  exact exists_congr fun key => and_comm

/-- Lines that spare every baseline, wherever they stop, keep the invariant. -/
theorem Backed.applyLines {s : Cluster} (backed : Backed s) (storage : Storage ManagedObject) (lines : List Line)
    (policies : Policies) (done : policies.objects = storage.store.applyLines lines s.policies.objects)
    (writes : WritesFloor lines) (spares : ∀ namespaceName, Spares (baselineKey namespaceName) lines) :
    Backed { s with policies := policies } := by
  constructor
  · rw [done]
    exact floorOnly_applyLines storage lines _ backed.floor writes
  · intro namespaceName isPostured
    rw [done]
    exact storage.store.key_applyLines lines _ _ (spares namespaceName) (Or.inl (backed.baseline namespaceName isPostured))

section Step
variable (quoted : Text → Text) (storage : Storage ManagedObject)

theorem prefix_conditions {lines front : List Line} (isFront : front <+: lines) (writes : WritesFloor lines)
    (spares : ∀ namespaceName, Spares (baselineKey namespaceName) lines) :
    WritesFloor front ∧ ∀ namespaceName, Spares (baselineKey namespaceName) front := by
  refine ⟨?_, ?_⟩
  · intro line member
    exact writes line (isFront.subset member)
  · intro namespaceName line member
    exact spares namespaceName line (isFront.subset member)

/-- What the lines of a subject write and spare is what its diff does. -/
theorem computeDiff_conditions (desired existing : List ManagedObject)
    (writes : ∀ obj ∈ desired, obj.key.name = baselineName → obj.podSelector = .empty ∧ obj.owner = none)
    (spares : ∀ obj ∈ existing, ∀ namespaceName, obj.key = baselineKey namespaceName →
      ∃ wanted ∈ desired, wanted.key = obj.key) :
    WritesFloor (computeDiff desired existing) ∧
      ∀ namespaceName, Spares (baselineKey namespaceName) (computeDiff desired existing) := by
  have diff := diffOf_computeDiff desired existing fun _ _ _ _ _ _ => backend_unique _ _
  refine ⟨?_, ?_⟩
  · intro line member obj writer
    exact writes obj (diff.writes line member obj writer)
  · rintro namespaceName line member backend uid rfl
    obtain ⟨present, isPresent, free, named, -⟩ := (delete_mem_computeDiff desired existing _ _ _).mp member
    obtain ⟨wanted, inDesired, same⟩ := spares present isPresent namespaceName named
    exact free wanted inDesired same

variable {S : Type} [OwnedScope S] (desired : S → Context → Except DomainError DesiredState) (subject : S)
  (ctx : Context) (mode : FeatureMode) (calls : Nat)

/-- Everything a reconcile can do to the policies, and what it takes to write a posture. -/
theorem reconcile_cases (policies : Policies) :
    (reconcile quoted storage desired subject ctx mode calls policies).1 = policies ∨
    ∃ state lines, desired subject ctx = .ok state ∧
      computeOwnedDiff quoted (OwnedScope.ownedSelector subject) state.objects state.held
        (inNamespace (OwnedScope.namespaceName subject) policies.objects) = .ok lines ∧
      (reconcile quoted storage desired subject ctx mode calls policies).1 =
        (applyUntil storage calls lines policies).1 := by
  unfold reconcile
  split
  · exact Or.inl rfl
  · cases wants : desired subject ctx with
    | error e => exact Or.inl rfl
    | ok state =>
      simp only
      cases computed : computeOwnedDiff quoted (OwnedScope.ownedSelector subject) state.objects state.held
          (inNamespace (OwnedScope.namespaceName subject) policies.objects) with
      | error e => exact Or.inl rfl
      | ok lines =>
        simp only
        split
        · refine Or.inr ⟨state, lines, rfl, computed, ?_⟩
          split <;> next same => rw [same]
        · exact Or.inl rfl

theorem reconcile_posture (policies after : Policies) (outcome : ReconcileOutcome) (left : Nat)
    (posture : DefaultPosture)
    (done : reconcile quoted storage desired subject ctx mode calls policies = (after, .ok (outcome, left)))
    (writes : outcome.postureToWrite = some posture) :
    ∃ state lines, desired subject ctx = .ok state ∧
      computeOwnedDiff quoted (OwnedScope.ownedSelector subject) state.objects state.held
        (inNamespace (OwnedScope.namespaceName subject) policies.objects) = .ok lines ∧
      after.objects = storage.store.applyLines lines policies.objects ∧
      baselineExists state (inNamespace (OwnedScope.namespaceName subject) policies.objects) = true := by
  unfold reconcile at done
  split at done
  · cases done
  · cases wants : desired subject ctx with
    | error e =>
      simp only [wants] at done
      cases done
    | ok state =>
      simp only [wants] at done
      cases computed : computeOwnedDiff quoted (OwnedScope.ownedSelector subject) state.objects state.held
          (inNamespace (OwnedScope.namespaceName subject) policies.objects) with
      | error e =>
        simp only [computed] at done
        cases done
      | ok lines =>
        simp only [computed] at done
        split at done
        · obtain ⟨front, -, same, all⟩ := applyUntil_front storage calls lines policies
          split at done
          · cases done
          · next applied =>
            cases done
            refine ⟨state, lines, rfl, computed, ?_, ?_⟩
            · rw [applied] at same all
              rw [← all rfl]
              exact same
            · obtain ⟨-, kept⟩ := Option.filter_eq_some_iff.mp writes
              exact kept
        · cases done
          cases writes

/-- A pass of a subject whose diff spares the baselines keeps the invariant, however far it gets. -/
theorem Backed.reconcile {s : Cluster} (backed : Backed s)
    (conditions : ∀ state lines, desired subject ctx = .ok state →
      computeOwnedDiff quoted (OwnedScope.ownedSelector subject) state.objects state.held
        (inNamespace (OwnedScope.namespaceName subject) s.policies.objects) = .ok lines →
      WritesFloor lines ∧ ∀ namespaceName, Spares (baselineKey namespaceName) lines) :
    Backed { s with policies := (reconcile quoted storage desired subject ctx mode calls s.policies).1 } := by
  rcases reconcile_cases quoted storage desired subject ctx mode calls s.policies with same | ⟨state, lines, wants,
    computed, same⟩
  · rw [same]
    exact backed
  · obtain ⟨front, isFront, done, -⟩ := applyUntil_front storage calls lines s.policies
    obtain ⟨writes, spares⟩ := conditions state lines wants computed
    obtain ⟨writesFront, sparesFront⟩ := prefix_conditions isFront writes spares
    exact backed.applyLines storage front _ (by rw [same, done]) writesFront sparesFront

end Step

/-! ## The two loops -/

section Loops
variable (quoted : Text → Text) (storage : Storage ManagedObject) {s : Cluster}

/-- The diff of a namespace writes its baseline or holds it. -/
theorem namespace_conditions (feature : KubeArmorPolicy) (subject : NamespaceSubject) (ctx : Context)
    (objects : List ManagedObject) (state : DesiredState) (lines : List Line)
    (wants : feature.desiredNamespace subject ctx = .ok state)
    (computed : computeOwnedDiff quoted (OwnedScope.ownedSelector subject) state.objects state.held
      (inNamespace (OwnedScope.namespaceName subject) objects) = .ok lines) :
    WritesFloor lines ∧ ∀ namespaceName, Spares (baselineKey namespaceName) lines := by
  obtain ⟨-, -, rfl⟩ := (computeOwnedDiff_ok_iff quoted _ _ _ _ lines).mp computed
  apply computeDiff_conditions
  · intro obj member _
    rcases feature.desiredNamespace_cases subject ctx state wants with ⟨none_, -⟩ | ⟨baseline, one, -, -, floor⟩
    · simp [none_] at member
    · rw [one, List.mem_singleton] at member
      exact member ▸ floor
  · intro obj member namespaceName named
    obtain ⟨listed, -, unheld⟩ := (mem_ownedBy _ state.held _ obj).mp member
    have inside : obj.key.namespaceName = subject.namespaceName := ((mem_inNamespace _ objects obj).mp listed).2
    have own : obj.key = baselineKey subject.namespaceName := by
      rw [named] at inside ⊢
      exact congrArg baselineKey inside
    rcases feature.desiredNamespace_cases subject ctx state wants with ⟨-, held⟩ | ⟨baseline, one, -, key, -⟩
    · exact absurd (by simp [held, own]) unheld
    · exact ⟨baseline, by simp [one], key.trans own.symm⟩

/-- The diff of a workspace stays clear of baselines. -/
theorem workspace_conditions (feature : KubeArmorPolicy) (subject : Workspace) (ctx : Context)
    (objects : List ManagedObject) (floor : FloorOnly objects) (state : DesiredState) (lines : List Line)
    (wants : feature.desiredWorkspace subject ctx = .ok state)
    (computed : computeOwnedDiff quoted (OwnedScope.ownedSelector subject) state.objects state.held
      (inNamespace (OwnedScope.namespaceName subject) objects) = .ok lines) :
    WritesFloor lines ∧ ∀ namespaceName, Spares (baselineKey namespaceName) lines := by
  obtain ⟨-, -, rfl⟩ := (computeOwnedDiff_ok_iff quoted _ _ _ _ lines).mp computed
  have shape := feature.desiredWorkspace_shape subject ctx state wants
  apply computeDiff_conditions
  · intro obj member named
    obtain ⟨key, isProfile, -⟩ := shape.objects obj member
    rw [isProfile] at named
    exact absurd named (KubeArmorPolicy.profileKey_name subject key)
  · intro obj member namespaceName named
    obtain ⟨listed, selector, -⟩ := (mem_ownedBy _ state.held _ obj).mp member
    have isFloor := floor obj ((mem_inNamespace _ objects obj).mp listed).1 (congrArg ObjectKey.name named)
    rw [podSelector_eq, isFloor.1] at selector
    cases selector

theorem Backed.reconcileDevworkspace (backed : Backed s) (pass : WorkspacePass) :
    Backed (reconcileDevworkspace quoted storage pass s) := by
  unfold KubearmorPolicy.reconcileDevworkspace
  split
  · exact backed
  · split
    · exact backed
    · split
      · exact backed
      · next subject _ =>
        exact backed.reconcile quoted storage _ subject pass.ctx pass.mode pass.calls fun state lines =>
          workspace_conditions quoted pass.feature subject pass.ctx s.policies.objects backed.floor state lines

theorem Cluster.postured_annotate (namespaceName other : Text) (patch : TextMap Text → TextMap Text) :
    (s.annotate namespaceName patch).Postured other ↔
      if other = namespaceName then postured (patch (s.annotations other)) = true else s.Postured other := by
  by_cases same : other = namespaceName
  · simp [Cluster.Postured, Cluster.annotate, same]
  · simp [Cluster.Postured, Cluster.annotate, same]

/-- Without its posture annotations a namespace may lose all it has. -/
theorem Backed.teardown (namespaceName : Text) (calls : Nat) (floor : FloorOnly s.policies.objects)
    (clear : ¬ s.Postured namespaceName) (others : ∀ other, other ≠ namespaceName → s.Postured other →
      HasKey (baselineKey other) s.policies.objects) :
    Backed { s with policies := (teardown storage namespaceName calls s.policies).1 } := by
  have start : Backed s := ⟨floor, fun other isPostured => others other (fun same => clear (same ▸ isPostured))
    isPostured⟩
  unfold KubearmorPolicy.teardown
  simp only
  split
  · exact start
  · obtain ⟨front, isFront, done, -⟩ := applyUntil_front storage calls
      (computeDiff [] (inNamespace namespaceName s.policies.objects)) s.policies
    have diff := diffOf_computeDiff [] (inNamespace namespaceName s.policies.objects)
      fun _ _ _ _ _ _ => backend_unique _ _
    constructor
    · rw [done]
      apply floorOnly_applyLines storage front _ floor
      intro line member obj writer
      exact absurd (diff.writes line (isFront.subset member) obj writer) (by simp)
    · intro other isPostured
      have away : other ≠ namespaceName := fun same => clear (same ▸ isPostured)
      rw [done]
      refine storage.store.key_applyLines front _ _ ?_ (Or.inl (others other away isPostured))
      rintro line member backend uid rfl
      obtain ⟨present, isPresent, -, named, -⟩ := (delete_mem_computeDiff _ _ _ _ _).mp (isFront.subset member)
      have inside := ((mem_inNamespace namespaceName _ present).mp isPresent).2
      rw [named] at inside
      exact away inside

theorem Backed.rollBack (backed : Backed s) (pass : NamespacePass) : Backed (pass.rollBack storage s) := by
  unfold NamespacePass.rollBack
  simp only
  split
  · cases pass.calls with
    | zero => exact backed
    | succ calls =>
      refine Backed.teardown storage pass.namespaceName calls
        (s := s.annotate pass.namespaceName fun annotations => annotations.without postureKeys) backed.floor ?_ ?_
      · rw [Cluster.postured_annotate, if_pos rfl, postured_iff]
        rintro ⟨key, isKey, present⟩
        rw [TextMap.get_without, if_pos isKey] at present
        cases present
      · intro other away isPostured
        rw [Cluster.postured_annotate, if_neg away] at isPostured
        exact backed.baseline other isPostured
  · next without =>
    by_cases isPostured : s.Postured pass.namespaceName
    · -- A posture proves a baseline, and a baseline proves the namespace is ours.
      obtain ⟨obj, member, named⟩ := backed.baseline pass.namespaceName isPostured
      refine absurd ⟨?_, isPostured⟩ without
      exact List.ne_nil_of_mem ((mem_inNamespace pass.namespaceName _ obj).mpr ⟨member, by rw [key_eq, named]; rfl⟩)
    · exact Backed.teardown storage pass.namespaceName pass.calls backed.floor isPostured fun other _ =>
        backed.baseline other

theorem Backed.enforce (backed : Backed s) (pass : NamespacePass) : Backed (pass.enforce quoted storage s) := by
  have conditions := fun state lines => namespace_conditions quoted pass.feature ⟨pass.namespaceName⟩ pass.ctx
    s.policies.objects state lines
  have kept := backed.reconcile quoted storage pass.feature.desiredNamespace (⟨pass.namespaceName⟩ : NamespaceSubject)
    pass.ctx pass.mode pass.calls conditions
  unfold NamespacePass.enforce
  split
  · next policies e done =>
    rw [done] at kept
    exact kept
  · next policies outcome left done =>
    rw [done] at kept
    split
    · next posture _ writes =>
      refine ⟨kept.floor, ?_⟩
      intro other isPostured
      rw [Cluster.postured_annotate] at isPostured
      by_cases same : other = pass.namespaceName
      · -- The posture is new: the baseline was written, or it is live and held.
        obtain ⟨state, lines, wants, computed, applied, exists_⟩ := reconcile_posture quoted storage
          pass.feature.desiredNamespace _ pass.ctx pass.mode pass.calls s.policies policies outcome _ posture done writes
        obtain ⟨-, spares⟩ := conditions state lines wants computed
        obtain ⟨-, -, rfl⟩ := (computeOwnedDiff_ok_iff quoted _ _ _ _ lines).mp computed
        rw [same]
        change HasKey (baselineKey pass.namespaceName) policies.objects
        rw [applied]
        apply storage.store.key_applyLines _ _ _ (spares pass.namespaceName)
        rcases pass.feature.desiredNamespace_cases _ pass.ctx state wants with ⟨none_, held⟩ | ⟨baseline, one, -, key, -⟩
        · rw [baselineExists, none_, held] at exists_
          simp only [List.isEmpty_nil, Bool.not_true, Bool.false_or, List.any_cons, List.any_nil, Bool.or_false,
            List.any_eq_true, decide_eq_true_eq] at exists_
          obtain ⟨live, isLive, named⟩ := exists_
          exact Or.inl ⟨live, ((mem_inNamespace _ s.policies.objects live).mp isLive).1, named⟩
        · rw [one]
          rcases wantedLine_cases _ baseline with writer | ⟨-, live, isLive, named, -⟩
          · exact Or.inr ⟨_, List.mem_append_left _ (List.mem_map_of_mem List.mem_cons_self), baseline, writer, key⟩
          · have listed := ((mem_ownedBy _ state.held _ live).mp isLive).1
            exact Or.inl ⟨live, ((mem_inNamespace _ s.policies.objects live).mp listed).1, named.trans key⟩
      · rw [if_neg same] at isPostured
        exact kept.baseline other isPostured
    · exact kept

theorem Backed.reconcileNamespace (backed : Backed s) (pass : NamespacePass) :
    Backed (reconcileNamespace quoted storage pass s) := by
  unfold KubearmorPolicy.reconcileNamespace
  split
  · exact backed
  · split
    · exact backed
    · split
      · split
        · exact backed.rollBack storage pass
        · exact backed
      · exact backed.enforce quoted storage pass

end Loops

/-! ## Runs -/

/-- What happens to the cluster, in any order. -/
inductive Event where
  | namespacePass (pass : NamespacePass)
  | workspacePass (pass : WorkspacePass)
  | collect (key : ObjectKey)
  | annotate (namespaceName : Text) (patch : TextMap Text → TextMap Text)
  | drop (namespaceName : Text)

/-- What is left of the policies when some are removed. -/
def Policies.keep (policies : Policies) (p : ManagedObject → Bool) : Policies :=
  ⟨policies.objects.filter p, policies.distinct.sublist (List.filter_sublist.map _)⟩

section Runs
variable (quoted : Text → Text) (storage : Storage ManagedObject)

def step (s : Cluster) : Event → Cluster
  | .namespacePass pass => reconcileNamespace quoted storage pass s
  | .workspacePass pass => reconcileDevworkspace quoted storage pass s
  | .collect key => { s with policies := s.policies.keep fun obj => !(obj.key = key && obj.owner.isSome) }
  | .annotate namespaceName patch => s.annotate namespaceName patch
  | .drop namespaceName =>
    { policies := s.policies.keep fun obj => obj.key.namespaceName ≠ namespaceName
      annotations := fun other => if other = namespaceName then .empty else s.annotations other }

/-- Nobody but the operator gives a namespace a posture. -/
def NoForeignPosture (s : Cluster) : Event → Prop
  | .annotate namespaceName patch => ∀ key ∈ postureKeys,
      ((patch (s.annotations namespaceName)).get key).isSome = true →
        ((s.annotations namespaceName).get key).isSome = true
  | _ => True

theorem step_backed (s : Cluster) (event : Event) (backed : Backed s) (foreign : NoForeignPosture s event) :
    Backed (step quoted storage s event) := by
  cases event with
  | namespacePass pass => exact backed.reconcileNamespace quoted storage pass
  | workspacePass pass => exact backed.reconcileDevworkspace quoted storage pass
  | collect key =>
    constructor
    · intro obj member
      exact backed.floor obj (List.mem_filter.mp member).1
    · intro namespaceName isPostured
      obtain ⟨obj, member, named⟩ := backed.baseline namespaceName isPostured
      have unowned := (backed.floor obj member (congrArg ObjectKey.name named)).2
      exact ⟨obj, List.mem_filter.mpr ⟨member, by simp [unowned]⟩, named⟩
  | annotate namespaceName patch =>
    refine ⟨backed.floor, ?_⟩
    intro other isPostured
    have before : s.Postured other := by
      rw [step, Cluster.postured_annotate] at isPostured
      split_ifs at isPostured with same
      · obtain ⟨key, isKey, present⟩ := (postured_iff _).mp isPostured
        subst same
        exact (postured_iff _).mpr ⟨key, isKey, foreign key isKey present⟩
      · exact isPostured
    exact backed.baseline other before
  | drop namespaceName =>
    constructor
    · intro obj member
      exact backed.floor obj (List.mem_filter.mp member).1
    · intro other isPostured
      by_cases same : other = namespaceName
      · simp [Cluster.Postured, step, same, postured, TextMap.empty, TextMap.keys] at isPostured
      · have before : s.Postured other := by simpa [Cluster.Postured, step, same] using isPostured
        obtain ⟨obj, member, named⟩ := backed.baseline other before
        exact ⟨obj, List.mem_filter.mpr ⟨member, decide_eq_true (by rwa [named])⟩, named⟩

/-- In every run, wherever its passes fail, a namespace that carries a posture has its baseline,
and that one selects every pod. -/
theorem posture_over_baseline (start : Cluster) (events : List Event) (backed : Backed start)
    (run : Along (step quoted storage) NoForeignPosture start events) (namespaceName : Text)
    (isPostured : (after (step quoted storage) start events).Postured namespaceName) :
    ∃ obj ∈ (after (step quoted storage) start events).policies.objects,
      obj.key = baselineKey namespaceName ∧ obj.podSelector = .empty := by
  have reached := after_of_invariant (step quoted storage) Backed NoForeignPosture (step_backed quoted storage)
    start backed events run
  obtain ⟨obj, member, named⟩ := reached.baseline namespaceName isPostured
  exact ⟨obj, member, named, (reached.floor obj member (congrArg ObjectKey.name named)).1⟩

end Runs

/-! ## One namespace -/

theorem contentEq_self (obj : ManagedObject) : Managed.contentEq obj obj = true :=
  (contentEq_iff obj obj).mpr ⟨rfl, rfl, rfl, rfl⟩

def plainStorage : Storage ManagedObject := ⟨id, fun _ => rfl, contentEq_self⟩

def emptyCluster : Cluster := ⟨⟨[], List.nodup_nil⟩, fun _ => .empty⟩

theorem emptyCluster_backed : Backed emptyCluster := by
  constructor
  · intro obj member
    cases member
  · intro namespaceName isPostured
    cases isPostured

def baseConfig : ResolvedKubeArmorPolicyConfig where
  config :=
    { mode := .enforce
      catalog := [⟨"base".toList, ⟨"weebo-base-runtime".toList, "weebo-si-hardening".toList⟩⟩]
      baseline := "base".toList
      namespaceSelection := []
      workspaceSelection := []
      onNotGranted := .deny
      defaultPosture := ⟨.block, .audit, .audit⟩ }
  grants := []

def basePass (namespaceName : Text) : NamespacePass where
  namespaceName := namespaceName
  terminating := false
  operatorNamespace := "weebo-si-hardening".toList
  mode := .enforce
  feature := ⟨some baseConfig, .kubeArmor, fun _ _ => some [1]⟩
  ctx := ⟨[], ⟨[], none⟩, fun _ => false⟩
  calls := 2

def aliceNamespace : Text := "user-alice".toList

theorem posture_over_baseline_alice :
    ∃ obj ∈ (after (step id plainStorage) emptyCluster [.namespacePass (basePass aliceNamespace)]).policies.objects,
      obj.key = baselineKey aliceNamespace ∧ obj.podSelector = .empty :=
  posture_over_baseline id plainStorage emptyCluster [.namespacePass (basePass aliceNamespace)] emptyCluster_backed
    ⟨trivial, trivial⟩ aliceNamespace (by rfl)

end WeeboSi.KubearmorPolicy
