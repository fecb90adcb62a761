import WeeboSi.Chassis.Owned
import WeeboSi.Lib.Run
import WeeboSi.NetworkProfiles.Converge
import WeeboSi.NetworkProfiles.Desired

/-!
# A workspace is let in over a floor

Source: crates/weebo-si-network-profiles/src/application.rs:42-119 and
crates/weebo-si-network-profiles-adapters/src/controller.rs:137-300, kube_policy_store.rs:283-360.
The profiles of a workspace only add permissions, so without the deny-all baseline under them
they restrict nothing. The loops and the gate are different processes and read their own watch
caches, each of which may be behind in its own way: a cache shows some of the objects that were
live at some time. Every call to the apiserver may fail and ends its pass.
-/
namespace WeeboSi.NetworkProfiles
open WeeboSi.Lib WeeboSi.Crd WeeboSi.Chassis WeeboSi.Controller

/-- The policies of the cluster and everything a watch has been told of. -/
structure Cluster where
  live : Live
  shown : List ManagedObject

def Cluster.put (s : Cluster) (live : Live) : Cluster := ⟨live, s.shown ++ live.objects⟩

/-- A cluster whose watches start now. -/
def Cluster.watched (live : Live) : Cluster := ⟨live, live.objects⟩

section Passes
variable (quoted : Text → Text) (assigned : ManagedObject → Option Text)

/-- Line after line, until a call fails; what is left of the calls if none does. -/
def applyUntil : Nat → List (Diff ManagedObject Backend) → Cluster → Cluster × Option Nat
  | calls, [], s => (s, some calls)
  | calls, .unchanged _ :: rest, s => applyUntil calls rest s
  | 0, _ :: _, s => (s, none)
  | calls + 1, line :: rest, s => applyUntil calls rest (s.put (s.live.apply assigned [line]))

/-- `managed_in` over what the caches hold. -/
def managedOf (namespaceName : Text) (seen : List ManagedObject) : List ManagedObject :=
  managedIn (inNamespace namespaceName seen)

structure ReconcileOutcome where
  diffs : List (Diff ManagedObject Backend)
  applied : Option Applied
  team : Option Text
  notGranted : List ProfileKey
  unsupported : List ProfileKey
  held : List ObjectKey

def reconcile {S : Type} [OwnedScope S] (desired : S → Context → Except DomainError DesiredState) (subject : S)
    (ctx : Context) (mode : FeatureMode) (calls : Nat) (seen : List ManagedObject) (s : Cluster) :
    Cluster × Except DomainError ReconcileOutcome :=
  if mode = .off then
    (s, .error (.invalidConfiguration ("reconcile called with mode Off — the caller must skip reconciling "
      ++ "an Off feature rather than call this function at all").toList))
  else
    match desired subject ctx with
    | .error e => (s, .error e)
    | .ok state =>
      match computeOwnedDiff quoted (OwnedScope.ownedSelector subject) state.objects state.held
          (managedOf (OwnedScope.namespaceName subject) seen) with
      | .error e => (s, .error e)
      | .ok lines =>
        let outcome (applied : Option Applied) : ReconcileOutcome :=
          ⟨lines, applied, state.team, state.notGranted, state.unsupported, state.held⟩
        if mode = .enforce then
          match applyUntil assigned calls lines s with
          | (s, none) => (s, .error (.portFailed []))
          | (s, some _) => (s, .ok (outcome (some (tally lines))))
        else (s, .ok (outcome none))

/-- Everything managed in the namespace is removed. -/
def teardown (namespaceName : Text) (calls : Nat) (seen : List ManagedObject) (s : Cluster) : Cluster :=
  let existing := managedOf namespaceName seen
  if existing = [] then s else (applyUntil assigned calls (computeDiff [] existing) s).1

/-! ## The loops and the gate -/

/-- What a pass over a namespace is given. -/
structure NamespacePass where
  namespaceName : Text
  terminating : Bool
  operatorNamespace : Text
  mode : FeatureMode
  feature : NetworkProfilesFeature
  ctx : Context
  calls : Nat
  seen : List ManagedObject

/-- The configuration itself says so, and not only the gate. -/
def NamespacePass.configuredOff (pass : NamespacePass) : Bool :=
  pass.feature.config.any fun config => config.mode = .off

def reconcileNamespace (pass : NamespacePass) (s : Cluster) : Cluster :=
  if pass.terminating then s
  else if isExcludedNamespace pass.namespaceName pass.operatorNamespace then s
  else if pass.mode = .off then
    if pass.configuredOff then teardown assigned pass.namespaceName pass.calls pass.seen s else s
  else (reconcile quoted assigned pass.feature.desiredNamespace (⟨pass.namespaceName⟩ : NamespaceSubject) pass.ctx
    pass.mode pass.calls pass.seen s).1

/-- What a pass over a workspace is given: `selection` is the configuration its keys are read from. -/
structure WorkspacePass where
  obj : DevWorkspace
  annotated : Text → Option Text
  selection : Option LoadedConfig
  operatorNamespace : Text
  mode : FeatureMode
  feature : NetworkProfilesFeature
  ctx : Context
  calls : Nat
  seen : List ManagedObject

def WorkspacePass.subject (pass : WorkspacePass) : Option Workspace := do
  let workspaceId ← devworkspaceId pass.obj
  let config ← pass.selection
  let owner ← devworkspaceOwner pass.obj
  some ⟨pass.obj.name.getD [], pass.obj.namespaceName.getD [], workspaceId,
    attributeOf config.workspaceSelection pass.obj, pass.annotated config.namespaceSelection, owner⟩

def reconcileDevworkspace (pass : WorkspacePass) (s : Cluster) : Cluster :=
  if isExcludedNamespace (pass.obj.namespaceName.getD []) pass.operatorNamespace then s
  else if pass.mode = .off then s
  else match pass.subject with
    | none => s
    | some subject => (reconcile quoted assigned pass.feature.desiredWorkspace subject pass.ctx pass.mode pass.calls
        pass.seen s).1

/-- A request at the webhook, with everything it reads there. -/
structure Review where
  subject : WorkspaceAdmission
  config : Option LoadedConfig
  operatorNamespace : Text
  seen : List ManagedObject
  gate : FeatureGate
  view : Text → Option NamespaceFacts
  resolves : DwocRef → Bool

def Review.workspaceGate (review : Review) : WorkspaceGate :=
  ⟨review.config, hasBaseline review.seen, review.operatorNamespace⟩

/-- The gate lets the request through: a refusal and an error both deny it. -/
def Review.admitted (review : Review) : Bool :=
  match admitSubject WorkspaceAdmission.namespaceName review.gate review.view review.resolves
      [review.workspaceGate.feature] review.subject with
  | .ok (.allow _) => true
  | .ok (.deny _) => false
  | .error _ => false

/-! ## Events -/

/-- What happens to the cluster, in any order. -/
inductive Event where
  | namespacePass (pass : NamespacePass)
  | workspacePass (pass : WorkspacePass)
  | review (review : Review)
  | collect (key : ObjectKey)
  | drop (namespaceName : Text)

def Live.keep (live : Live) (p : ManagedObject → Bool) : Live :=
  ⟨live.objects.filter p, live.distinct.sublist (List.filter_sublist.map _)⟩

/-- The garbage collector removes what has an owner; a namespace goes with all it has. -/
def step (s : Cluster) : Event → Cluster
  | .namespacePass pass => reconcileNamespace quoted assigned pass s
  | .workspacePass pass => reconcileDevworkspace quoted assigned pass s
  | .review _ => s
  | .collect key => s.put (s.live.keep fun obj => !(obj.key = key && obj.owner.isSome))
  | .drop namespaceName => s.put (s.live.keep fun obj => obj.key.namespaceName ≠ namespaceName)

/-- A cache shows nothing that was not live at some time. -/
def Told (s : Cluster) : Event → Prop
  | .namespacePass pass => pass.seen ⊆ s.shown
  | .workspacePass pass => pass.seen ⊆ s.shown
  | .review review => review.seen ⊆ s.shown
  | .collect _ => True
  | .drop _ => True

/-- The event does not take the namespace out of the feature's hands: nobody deletes it, and the
configuration is not set to `Off` where a pass of it runs. -/
def KeepsOn (namespaceName : Text) : Event → Prop
  | .namespacePass pass => pass.namespaceName = namespaceName → pass.mode = .off → pass.configuredOff = false
  | .drop other => other ≠ namespaceName
  | _ => True

end Passes

/-! ## The invariant -/

/-- A baseline selects every pod, and nothing else does; it belongs to nobody. -/
def FloorShape (obj : ManagedObject) : Prop :=
  (obj.podSelector = .empty ↔ obj.key.name = baselineName) ∧ (obj.key.name = baselineName → obj.owner = none)

/-- A baseline that was ever shown in the namespace has one there now. -/
structure Floored (namespaceName : Text) (s : Cluster) : Prop where
  shape : ∀ obj ∈ s.shown, FloorShape obj
  current : s.live.objects ⊆ s.shown
  stands : ∀ obj ∈ s.shown, obj.key = baselineKey namespaceName →
    ∃ live ∈ s.live.objects, live.key = baselineKey namespaceName

/-- A line that writes a baseline only as one and leaves that of the namespace. -/
structure Spares (namespaceName : Text) (line : Diff ManagedObject Backend) : Prop where
  writes : ∀ obj, lineWrites line = some obj → FloorShape obj
  keeps : ∀ backend uid, line ≠ .delete (baselineKey namespaceName) backend uid

section Lines
variable (assigned : ManagedObject → Option Text) {namespaceName : Text} {s : Cluster}

theorem FloorShape.sameBut {written obj : ManagedObject} (shape : FloorShape written) (same : SameBut written obj) :
    FloorShape obj := by
  obtain ⟨uid, rfl⟩ := same
  exact shape

/-- What is kept of the objects keeps the floor, if the baseline is among it. -/
theorem Floored.put (floored : Floored namespaceName s) (live : Live) (shape : ∀ obj ∈ live.objects, FloorShape obj)
    (keeps : (∃ obj ∈ s.live.objects, obj.key = baselineKey namespaceName) →
      ∃ obj ∈ live.objects, obj.key = baselineKey namespaceName) : Floored namespaceName (s.put live) := by
  refine ⟨?_, List.subset_append_right _ _, ?_⟩
  · intro obj member
    exact (List.mem_append.mp member).elim (floored.shape obj) (shape obj)
  · intro obj member named
    rcases List.mem_append.mp member with before | now
    · exact keeps (floored.stands obj before named)
    · exact ⟨obj, now, named⟩

theorem Floored.keep (floored : Floored namespaceName s) (p : ManagedObject → Bool)
    (keeps : ∀ obj ∈ s.live.objects, obj.key = baselineKey namespaceName → p obj = true) :
    Floored namespaceName (s.put (s.live.keep p)) := by
  apply floored.put
  · intro obj member
    exact floored.shape obj (floored.current (List.mem_filter.mp member).1)
  · rintro ⟨obj, member, named⟩
    exact ⟨obj, List.mem_filter.mpr ⟨member, keeps obj member named⟩, named⟩

theorem Floored.applyLine (floored : Floored namespaceName s) (line : Diff ManagedObject Backend)
    (spares : Spares namespaceName line) : Floored namespaceName (s.put (s.live.apply assigned [line])) := by
  apply floored.put
  · intro obj member
    rcases (policyStore assigned).mem_applyLine_cases s.live.objects line obj member with
      before | ⟨written, writes, -, same⟩
    · exact floored.shape obj (floored.current before)
    · exact (spares.writes written writes).sameBut same
  · exact (policyStore assigned).key_applyLine s.live.objects line _ spares.keeps

theorem Floored.applyUntil (floored : Floored namespaceName s) (calls : Nat)
    (lines : List (Diff ManagedObject Backend)) (spares : ∀ line ∈ lines, Spares namespaceName line) :
    Floored namespaceName (applyUntil assigned calls lines s).1 := by
  induction lines generalizing calls s with
  | nil => simpa [NetworkProfiles.applyUntil] using floored
  | cons line rest ih =>
    have restSpares : ∀ other ∈ rest, Spares namespaceName other := fun other member =>
      spares other (List.mem_cons_of_mem _ member)
    have done := floored.applyLine assigned line (spares line List.mem_cons_self)
    cases line with
    | unchanged key => simpa [NetworkProfiles.applyUntil] using ih floored calls restSpares
    | create obj | update obj | delete key backend uid =>
      cases calls with
      | zero => exact floored
      | succ calls => exact ih done calls restSpares

end Lines

/-! ## The lines of a pass -/

section Diffs
variable (quoted : Text → Text) {namespaceName : Text} {s : Cluster}

theorem mem_managedOf (subject : Text) (seen : List ManagedObject) (obj : ManagedObject) :
    obj ∈ managedOf subject seen ↔ obj ∈ seen ∧ obj.key.namespaceName = subject := by
  rw [managedOf, mem_managedIn, mem_inNamespace]
  rfl

/-- A diff spares the baseline when what it wants has the right shape and what it deletes is
no baseline of the namespace. -/
theorem spares_computeDiff (desired existing : List ManagedObject) (shape : ∀ obj ∈ desired, FloorShape obj)
    (keeps : ∀ obj ∈ existing, obj.key = baselineKey namespaceName → ∃ wanted ∈ desired, wanted.key = obj.key) :
    ∀ line ∈ computeDiff desired existing, Spares namespaceName line := by
  intro line member
  refine ⟨fun obj writes => shape obj ((diffOf_policies desired existing).writes line member obj writes), ?_⟩
  rintro backend uid rfl
  obtain ⟨present, isPresent, free, named, -⟩ := (delete_mem_computeDiff desired existing _ _ _).mp member
  obtain ⟨wanted, isWanted, same⟩ := keeps present isPresent named
  exact free wanted isWanted same

/-- The diff of a namespace writes its baseline or holds it, whatever the cache shows. -/
theorem namespace_spares (feature : NetworkProfilesFeature) (subject : NamespaceSubject) (ctx : Context)
    (seen : List ManagedObject) (state : DesiredState) (lines : List (Diff ManagedObject Backend))
    (wants : feature.desiredNamespace subject ctx = .ok state)
    (computed : computeOwnedDiff quoted (OwnedScope.ownedSelector subject) state.objects state.held
      (managedOf subject.namespaceName seen) = .ok lines) : ∀ line ∈ lines, Spares namespaceName line := by
  obtain ⟨-, -, rfl⟩ := (computeOwnedDiff_ok_iff quoted _ _ _ _ lines).mp computed
  have cases_ := feature.desiredNamespace_cases subject ctx state wants
  apply spares_computeDiff
  · intro obj member
    rcases cases_ with ⟨none_, -⟩ | ⟨baseline, one, -, key, selector, owner⟩
    · simp [none_] at member
    · rw [one, List.mem_singleton] at member
      subst member
      exact ⟨iff_of_true selector (congrArg ObjectKey.name key), fun _ => owner⟩
  · intro obj member named
    obtain ⟨listed, own⟩ := List.mem_filter.mp member
    have inside := ((mem_managedOf _ seen obj).mp listed).2
    have mine : obj.key = baselineKey subject.namespaceName := by
      rw [named] at inside ⊢
      exact congrArg baselineKey inside
    rcases cases_ with ⟨-, held⟩ | ⟨baseline, one, -, key, -⟩
    · have unheld : Managed.key obj ∉ state.held := by simpa using (of_decide_eq_true own).2
      exact absurd (by simp [held, mine, Managed.key]) unheld
    · exact ⟨baseline, by simp [one], key.trans mine.symm⟩

/-- The diff of a workspace stays clear of baselines, as long as its cache shows none of another
selector. -/
theorem workspace_spares (feature : NetworkProfilesFeature) (subject : Workspace) (ctx : Context)
    (seen : List ManagedObject) (shape : ∀ obj ∈ seen, FloorShape obj) (state : DesiredState)
    (lines : List (Diff ManagedObject Backend)) (wants : feature.desiredWorkspace subject ctx = .ok state)
    (computed : computeOwnedDiff quoted (OwnedScope.ownedSelector subject) state.objects state.held
      (managedOf subject.namespaceName seen) = .ok lines) : ∀ line ∈ lines, Spares namespaceName line := by
  obtain ⟨-, -, rfl⟩ := (computeOwnedDiff_ok_iff quoted _ _ _ _ lines).mp computed
  apply spares_computeDiff
  · intro obj member
    obtain ⟨key, body, rfl⟩ := feature.desiredWorkspace_objects subject ctx state wants obj member
    have apart : (profileKey subject key).name ≠ baselineName := profileKey_name subject key
    exact ⟨iff_of_false (by simp [NetworkProfilesFeature.profileObject]) apart, fun named => absurd named apart⟩
  · intro obj member named
    obtain ⟨listed, own⟩ := List.mem_filter.mp member
    have selector : obj.podSelector = .devWorkspaceId subject.workspaceId := (of_decide_eq_true own).1
    have floor := (shape obj ((mem_managedOf _ seen obj).mp listed).1).1.mpr (congrArg ObjectKey.name named)
    rw [floor] at selector
    cases selector

/-- A teardown elsewhere deletes nothing here. -/
theorem teardown_spares (other : Text) (away : other ≠ namespaceName) (seen : List ManagedObject) :
    ∀ line ∈ computeDiff [] (managedOf other seen), Spares namespaceName line := by
  apply spares_computeDiff
  · simp
  · intro obj member named
    have inside := ((mem_managedOf other seen obj).mp member).2
    rw [named] at inside
    exact absurd inside.symm away

end Diffs

/-! ## Steps and runs -/

section Runs
variable (quoted : Text → Text) (assigned : ManagedObject → Option Text) {namespaceName : Text} {s : Cluster}

theorem Floored.reconcile (floored : Floored namespaceName s) {S : Type} [OwnedScope S]
    (desired : S → Context → Except DomainError DesiredState) (subject : S) (ctx : Context) (mode : FeatureMode)
    (calls : Nat) (seen : List ManagedObject) (spares : ∀ state lines, desired subject ctx = .ok state →
      computeOwnedDiff quoted (OwnedScope.ownedSelector subject) state.objects state.held
        (managedOf (OwnedScope.namespaceName subject) seen) = .ok lines → ∀ line ∈ lines, Spares namespaceName line) :
    Floored namespaceName (reconcile quoted assigned desired subject ctx mode calls seen s).1 := by
  unfold NetworkProfiles.reconcile
  split
  · exact floored
  · cases wants : desired subject ctx with
    | error e => exact floored
    | ok state =>
      simp only
      cases computed : computeOwnedDiff quoted (OwnedScope.ownedSelector subject) state.objects state.held
          (managedOf (OwnedScope.namespaceName subject) seen) with
      | error e => exact floored
      | ok lines =>
        have done := floored.applyUntil assigned calls lines (spares state lines wants computed)
        simp only
        split
        · split <;> next same => rwa [same] at done
        · exact floored

theorem step_floored (event : Event) (floored : Floored namespaceName s) (told : Told s event)
    (on : KeepsOn namespaceName event) : Floored namespaceName (step quoted assigned s event) := by
  cases event with
  | namespacePass pass =>
    simp only [step, reconcileNamespace]
    split
    · exact floored
    · split
      · exact floored
      · split
        · next off =>
          split
          · next rolledBack =>
            have away : pass.namespaceName ≠ namespaceName := fun same => by
              rw [on same off] at rolledBack
              cases rolledBack
            unfold teardown
            simp only
            split
            · exact floored
            · exact floored.applyUntil assigned _ _ (teardown_spares _ away pass.seen)
          · exact floored
        · exact floored.reconcile quoted assigned _ _ pass.ctx pass.mode pass.calls pass.seen
            fun state lines => namespace_spares quoted pass.feature _ pass.ctx pass.seen state lines
  | workspacePass pass =>
    simp only [step, reconcileDevworkspace]
    split
    · exact floored
    · split
      · exact floored
      · split
        · exact floored
        · next subject _ =>
          exact floored.reconcile quoted assigned _ subject pass.ctx pass.mode pass.calls pass.seen
            fun state lines => workspace_spares quoted pass.feature subject pass.ctx pass.seen
              (fun obj member => floored.shape obj (told member)) state lines
  | review review => exact floored
  | collect key =>
    apply floored.keep
    intro obj member named
    have unowned := (floored.shape obj (floored.current member)).2 (congrArg ObjectKey.name named)
    simp [unowned]
  | drop other =>
    apply floored.keep
    intro obj member named
    exact decide_eq_true fun same => on (same.symm.trans (congrArg ObjectKey.namespaceName named))

/-- A request the gate lets through saw a baseline, so one stands. -/
theorem floor_of_admitted (review : Review) (floored : Floored review.subject.namespaceName s)
    (told : review.seen ⊆ s.shown) (create : review.subject.operation = .create)
    (governed : isExcludedNamespace review.subject.namespaceName review.operatorNamespace = false)
    (enforced : review.gate.modeForAdmission featureId review.subject.namespaceName = .enforce)
    (admitted : review.admitted = true) :
    ∃ obj ∈ s.shown, obj.key = baselineKey review.subject.namespaceName := by
  have seen : review.workspaceGate.hasBaseline review.subject.namespaceName = true := by
    unfold Review.admitted admitSubject admitLoop at admitted
    simp only [WorkspaceGate.feature, enforced, reduceCtorEq, if_false, if_true, admitLoop] at admitted
    cases facts : review.view review.subject.namespaceName with
    | none => simp [facts] at admitted
    | some facts_ =>
      simp only [facts] at admitted
      cases evaluated : review.workspaceGate.evaluate review.subject ⟨review.gate.teams, facts_, review.resolves⟩ with
      | error e => simp [evaluated, bind, Except.bind] at admitted
      | ok decision =>
        apply evaluate_allowed review.workspaceGate review.subject _ decision create governed evaluated
        cases denial : decision.denial with
        | none => rfl
        | some reason => simp [evaluated, denial, bind, Except.bind] at admitted
  obtain ⟨obj, member, inside⟩ := List.any_eq_true.mp seen
  obtain ⟨here, selector⟩ := of_decide_eq_true inside
  have named := (floored.shape obj (told member)).1.mp selector
  refine ⟨obj, told member, ?_⟩
  rw [baselineKey, ← here, ← named]

theorem shown_applyUntil (calls : Nat) (lines : List (Diff ManagedObject Backend)) (s : Cluster) :
    s.shown ⊆ (applyUntil assigned calls lines s).1.shown := by
  induction lines generalizing calls s with
  | nil => simp [applyUntil]
  | cons line rest ih =>
    have told : s.shown ⊆ (s.put (s.live.apply assigned [line])).shown := List.subset_append_left _ _
    cases line with
    | unchanged key => simpa [applyUntil] using ih calls s
    | create obj | update obj | delete key backend uid =>
      cases calls with
      | zero => exact List.Subset.refl _
      | succ calls => exact List.Subset.trans told (ih calls _)

theorem shown_reconcile {S : Type} [OwnedScope S] (desired : S → Context → Except DomainError DesiredState)
    (subject : S) (ctx : Context) (mode : FeatureMode) (calls : Nat) (seen : List ManagedObject) (s : Cluster) :
    s.shown ⊆ (reconcile quoted assigned desired subject ctx mode calls seen s).1.shown := by
  unfold NetworkProfiles.reconcile
  split
  · exact List.Subset.refl _
  · split
    · exact List.Subset.refl _
    · split
      · exact List.Subset.refl _
      · next lines _ =>
        have grows := shown_applyUntil assigned calls lines s
        simp only
        split
        · split <;> next same => rwa [same] at grows
        · exact List.Subset.refl _

/-- What a watch was told of once, it may show for ever. -/
theorem shown_step (s : Cluster) (event : Event) : s.shown ⊆ (step quoted assigned s event).shown := by
  cases event with
  | namespacePass pass =>
    simp only [step, reconcileNamespace, teardown]
    split_ifs
    · exact List.Subset.refl _
    · exact List.Subset.refl _
    · exact List.Subset.refl _
    · exact shown_applyUntil assigned _ _ s
    · exact List.Subset.refl _
    · exact shown_reconcile quoted assigned _ _ _ _ _ _ s
  | workspacePass pass =>
    simp only [step, reconcileDevworkspace]
    split_ifs
    · exact List.Subset.refl _
    · exact List.Subset.refl _
    · split
      · exact List.Subset.refl _
      · exact shown_reconcile quoted assigned _ _ _ _ _ _ s
  | review review => exact List.Subset.refl _
  | collect key => exact List.subset_append_left _ _
  | drop other => exact List.subset_append_left _ _

/-- In every run in which a namespace stays with the feature, a workspace that is let into it has
the deny-all baseline under it from then on: through any configuration, backend, template and
mode, caches behind in any way, and calls that fail anywhere. -/
theorem admitted_over_floor (live : Live) (shape : ∀ obj ∈ live.objects, FloorShape obj) (before later : List Event)
    (review : Review)
    (run : Along (step quoted assigned) (fun s event => Told s event ∧ KeepsOn review.subject.namespaceName event)
      (.watched live) (before ++ .review review :: later))
    (create : review.subject.operation = .create)
    (governed : isExcludedNamespace review.subject.namespaceName review.operatorNamespace = false)
    (enforced : review.gate.modeForAdmission featureId review.subject.namespaceName = .enforce)
    (admitted : review.admitted = true) :
    ∃ baseline ∈ (after (step quoted assigned) (.watched live) (before ++ .review review :: later)).live.objects,
      baseline.key = baselineKey review.subject.namespaceName ∧ baseline.podSelector = .empty ∧
        baseline.owner = none := by
  have keeps : ∀ s event, Floored review.subject.namespaceName s →
      Told s event ∧ KeepsOn review.subject.namespaceName event →
      Floored review.subject.namespaceName (step quoted assigned s event) := fun s event floored both =>
    step_floored quoted assigned event floored both.1 both.2
  have start : Floored review.subject.namespaceName (.watched live) :=
    ⟨shape, List.Subset.refl _, fun obj member named => ⟨obj, member, named⟩⟩
  obtain ⟨early, reviewed, late⟩ := (along_append _ _ _ before (.review review :: later)).mp run
  have floored := after_of_invariant _ _ _ keeps _ start before early
  obtain ⟨obj, member, named⟩ := floor_of_admitted review floored reviewed.1 create governed enforced admitted
  rw [after_append]
  -- From here on the baseline is among what was shown, and so it stands.
  have onwards := after_of_invariant (step quoted assigned)
    (fun s => Floored review.subject.namespaceName s ∧ obj ∈ s.shown) _
    (fun s event both admissible => ⟨keeps s event both.1 admissible, shown_step quoted assigned s event both.2⟩)
    _ ⟨floored, member⟩ later late
  obtain ⟨baseline, stands, key⟩ := onwards.1.stands obj onwards.2 named
  have isFloor := onwards.1.shape baseline (onwards.1.current stands)
  have name := congrArg ObjectKey.name key
  exact ⟨baseline, stands, key, isFloor.1.mpr name, isFloor.2 name⟩

end Runs

/-! ## One workspace -/

def aliceNamespace : Text := "user-alice".toList

def baseConfig : LoadedConfig where
  resolved := ⟨⟨[⟨"base".toList, [⟨.networkPolicy, ⟨"base".toList, "si".toList⟩⟩]⟩], "base".toList, .deny⟩, []⟩
  mode := .enforce
  workspaceSelection := []
  namespaceSelection := []

def noTeams : Context := ⟨[], ⟨[], none⟩, fun _ => false⟩

def aliceBaseline : ManagedObject :=
  ⟨baselineKey aliceNamespace, .networkPolicy, "base".toList, .empty, [1], none, none⟩

/-- A pass that writes the baseline, or finds no variant of it for the backend. -/
def alicePass (backend : Backend) (seen : List ManagedObject) : NamespacePass where
  namespaceName := aliceNamespace
  terminating := false
  operatorNamespace := "si".toList
  mode := .enforce
  feature := ⟨some baseConfig, backend, fun _ _ => some [1]⟩
  ctx := noTeams
  calls := 1
  seen := seen

def aliceWorkspace : DevWorkspace := ⟨some "ws".toList, some aliceNamespace, none, [], .object []⟩

def aliceReview : Review where
  subject := workspaceAdmissionFromObject aliceNamespace aliceWorkspace true baseConfig.workspaceSelection none
  config := some baseConfig
  operatorNamespace := "si".toList
  seen := [aliceBaseline]
  gate := ⟨fun _ _ => .enforce, []⟩
  view := fun _ => some ⟨[], none⟩
  resolves := fun _ => false

theorem admitted_over_floor_alice :
    ∃ baseline ∈ (after (step id fun _ => none) (.watched ⟨[], List.nodup_nil⟩)
      ([.namespacePass (alicePass .networkPolicy [])] ++
        .review aliceReview :: [.namespacePass (alicePass .cilium [aliceBaseline])])).live.objects,
      baseline.key = baselineKey aliceNamespace ∧ baseline.podSelector = .empty ∧ baseline.owner = none := by
  refine admitted_over_floor id (fun _ => none) ⟨[], List.nodup_nil⟩ (by simp) _ _ aliceReview ?_ rfl
    (by decide) rfl (by decide)
  refine ⟨⟨by simp [Told, alicePass], by simp [KeepsOn, alicePass]⟩, ⟨?_, trivial⟩,
    ⟨?_, by simp [KeepsOn, alicePass]⟩, trivial⟩
  · change [aliceBaseline] ⊆ _
    decide
  · change [aliceBaseline] ⊆ _
    decide

end WeeboSi.NetworkProfiles
