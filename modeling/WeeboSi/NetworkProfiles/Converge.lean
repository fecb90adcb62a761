import WeeboSi.Chassis.Owned
import WeeboSi.NetworkProfiles.PolicyStore

/-!
# A reconcile pass over the network policies

Source: crates/weebo-si-chassis/src/managed/scope.rs:49-82, diff.rs:78-105 and
crates/weebo-si-network-profiles-adapters/src/kube_policy_store.rs:298-360. An object that
differs from the desired one in its dialect is updated in the new dialect, and stays in the old.
-/
namespace WeeboSi.NetworkProfiles
open WeeboSi.Lib WeeboSi.Crd WeeboSi.Chassis

section Reconcile
variable (quoted : Text → Text) (assigned : ManagedObject → Option Text) (owner : PodSelector)
  (desired : List ManagedObject) (held : List ObjectKey) (backend : Backend) (live : Live)

/-- The objects a pass answers for. -/
def owned (objects : List ManagedObject) : List ManagedObject := ownedBy owner held (managedIn objects)

theorem mem_owned (obj : ManagedObject) (objects : List ManagedObject) :
    obj ∈ owned owner held objects ↔ obj ∈ objects ∧ obj.podSelector = owner ∧ obj.key ∉ held := by
  rw [owned, mem_ownedBy, mem_managedIn]
  rfl

/-- What a pass leaves: foreign and held objects as they were, of the others exactly what is
desired, and nothing to do for a second pass. -/
structure Converged (after : Live) : Prop where
  foreign : ∀ obj, obj.podSelector ≠ owner → (obj ∈ after.objects ↔ obj ∈ live.objects)
  keptHeld : ∀ obj, obj.key ∈ held → (obj ∈ after.objects ↔ obj ∈ live.objects)
  onlyDesired : ∀ obj ∈ after.objects, obj.podSelector = owner → obj.key ∉ held →
    ∃ wanted ∈ desired, wanted.key = obj.key ∧ obj.contentEq wanted = true
  allDesired : ∀ wanted ∈ desired, ∃ obj ∈ after.objects,
    obj.podSelector = owner ∧ obj.key = wanted.key ∧ obj.contentEq wanted = true
  settled : ∃ again, computeOwnedDiff quoted owner desired held (managedIn after.objects) = .ok again ∧
    ∀ line ∈ again, ∃ key, line = .unchanged key

/-- An object of the owner in the other dialect, under the key of a desired one. -/
def StaleTwin (obj : ManagedObject) : Prop :=
  obj ∈ live.objects ∧ obj.podSelector = owner ∧ obj.key ∉ held ∧ obj.backend ≠ backend ∧
    ∃ wanted ∈ desired, wanted.key = obj.key

theorem backend_of_contentEq (a b : ManagedObject) (same : a.contentEq b = true) :
    a.backend = b.backend ∧ a.podSelector = b.podSelector := by
  simp only [ManagedObject.contentEq, decide_eq_true_eq] at same
  exact ⟨same.1, same.2.1⟩

/-- The dialect is content, so nothing passes for an object of the other one. -/
theorem diffOf_policies (existing : List ManagedObject) : DiffOf desired existing (computeDiff desired existing) :=
  diffOf_computeDiff desired existing fun wanted _ current _ _ same => (backend_of_contentEq current wanted same).1

/-! ## After a pass -/

def pass : Live := live.apply assigned (computeDiff desired (owned owner held live.objects))

/-- An object at a place that no desired object has was there before. -/
theorem mem_live_of_mem_pass (obj : ManagedObject)
    (member : obj ∈ (pass assigned owner desired held live).objects)
    (elsewhere : ∀ wanted ∈ desired, place wanted ≠ place obj) : obj ∈ live.objects := by
  rcases (policyStore assigned).mem_applyLines_cases _ live.objects obj member with
    before | ⟨line, inside, wanted, writes, here, -⟩
  · exact before
  · exact absurd here.symm (elsewhere wanted ((diffOf_policies desired _).writes line inside wanted writes))

section Keys
variable (keys : (desired.map ManagedObject.key).Nodup)
include keys

theorem desired_eq_of_key (a b : ManagedObject) (inA : a ∈ desired) (inB : b ∈ desired)
    (same : a.key = b.key) : a = b :=
  List.inj_on_of_nodup_map keys inA inB same

/-- At the place of a desired object stands its content. -/
theorem pass_at_desired (wanted : ManagedObject) (inDesired : wanted ∈ desired) :
    (∀ obj ∈ (pass assigned owner desired held live).objects, place obj = place wanted →
      obj.contentEq wanted = true) ∧
    ∃ obj ∈ (pass assigned owner desired held live).objects, place obj = place wanted ∧
      obj.contentEq wanted = true := by
  refine (policyStore assigned).applyLines_wanted (diffOf_policies desired _) ?_ ?_ live.distinct wanted inDesired
  · exact fun a inA b inB same => desired_eq_of_key desired keys a b inA inB (congrArg Prod.snd same)
  · exact fun obj member => ((mem_owned owner held obj live.objects).mp member).1

end Keys

section Pass
variable (current : ∀ wanted ∈ desired, wanted.backend = backend)
  (apart : ∀ wanted ∈ desired, wanted.key ∉ held)
  (own : ∀ wanted ∈ desired, wanted.podSelector = owner)
  (free : ∀ obj ∈ live.objects, obj.podSelector ≠ owner → ∀ wanted ∈ desired, wanted.key ≠ obj.key)

include own free in
/-- An object of another selector is neither touched nor taken over. -/
theorem pass_foreign (keys : (desired.map ManagedObject.key).Nodup) (obj : ManagedObject)
    (other : obj.podSelector ≠ owner) :
    obj ∈ (pass assigned owner desired held live).objects ↔ obj ∈ live.objects := by
  constructor
  · intro member
    apply mem_live_of_mem_pass assigned owner desired held live obj member
    intro wanted inDesired same
    have content := (pass_at_desired assigned owner desired held live keys wanted inDesired).1 obj member
      same.symm
    exact other ((backend_of_contentEq _ _ content).2.trans (own wanted inDesired))
  · intro member
    refine ((policyStore assigned).mem_applyLines_elsewhere _ live.objects obj ?_).mpr member
    intro line inside touches
    rcases computeDiff_acts desired _ line inside _ touches with
      ⟨wanted, inDesired, same, _⟩ | ⟨present, inOwned, same, -⟩
    · exact free obj member other wanted inDesired (congrArg Prod.snd same)
    · obtain ⟨inLive, selector, _⟩ := (mem_owned owner held present live.objects).mp inOwned
      rw [live.eq_of_place present obj inLive member same] at selector
      exact other selector

include apart in
theorem pass_held (obj : ManagedObject) (isHeld : obj.key ∈ held) :
    obj ∈ (pass assigned owner desired held live).objects ↔ obj ∈ live.objects := by
  apply (policyStore assigned).mem_applyLines_elsewhere
  intro line inside touches
  rcases computeDiff_acts desired _ line inside _ touches with
    ⟨wanted, inDesired, same, _⟩ | ⟨present, inOwned, same, -⟩
  · have key : wanted.key = obj.key := congrArg Prod.snd same
    exact apart wanted inDesired (by rwa [key])
  · have key : present.key = obj.key := congrArg Prod.snd same
    exact ((mem_owned owner held present live.objects).mp inOwned).2.2 (by rwa [key])

include current in
/-- A twin in the other dialect stays where it is. -/
theorem pass_twin (obj : ManagedObject) (twin : StaleTwin owner desired held backend live obj) :
    obj ∈ (pass assigned owner desired held live).objects := by
  obtain ⟨inLive, _, _, dialect, named, inNamed, sameKey⟩ := twin
  refine ((policyStore assigned).mem_applyLines_elsewhere _ live.objects obj ?_).mpr inLive
  intro line inside touches
  rcases computeDiff_acts desired _ line inside _ touches with
    ⟨wanted, inDesired, same, _⟩ | ⟨present, -, same, -, undesired⟩
  · have written : wanted.backend = obj.backend := congrArg Prod.fst same
    exact dialect (written.symm.trans (current wanted inDesired))
  · have key : present.key = obj.key := congrArg Prod.snd same
    exact undesired named inNamed (sameKey.trans key.symm)

include current in
/-- Without a twin, what is left to the owner is desired. -/
theorem pass_onlyDesired (keys : (desired.map ManagedObject.key).Nodup)
    (none_ : ¬ ∃ obj, StaleTwin owner desired held backend live obj) (obj : ManagedObject)
    (member : obj ∈ (pass assigned owner desired held live).objects) (selector : obj.podSelector = owner)
    (unheld : obj.key ∉ held) : ∃ wanted ∈ desired, wanted.key = obj.key ∧ obj.contentEq wanted = true := by
  by_cases named : ∃ wanted ∈ desired, wanted.key = obj.key
  · obtain ⟨wanted, inDesired, key⟩ := named
    by_cases dialect : obj.backend = backend
    · have here : place obj = place wanted := Prod.ext (dialect.trans (current wanted inDesired).symm) key.symm
      exact ⟨wanted, inDesired, key,
        (pass_at_desired assigned owner desired held live keys wanted inDesired).1 obj member here⟩
    · have inLive := mem_live_of_mem_pass assigned owner desired held live obj member (by
        intro other inside same
        have written : other.backend = obj.backend := congrArg Prod.fst same
        exact dialect (written.symm.trans (current other inside)))
      exact absurd ⟨obj, inLive, selector, unheld, dialect, wanted, inDesired, key⟩ none_
  · have elsewhere : ∀ wanted ∈ desired, place wanted ≠ place obj := fun wanted inDesired same =>
      named ⟨wanted, inDesired, congrArg Prod.snd same⟩
    have inLive := mem_live_of_mem_pass assigned owner desired held live obj member elsewhere
    have deleted : .delete obj.key obj.backend obj.uid ∈ computeDiff desired (owned owner held live.objects) :=
      (mem_computeDiff desired _ _).mpr (Or.inr ⟨obj, (mem_owned owner held obj live.objects).mpr
        ⟨inLive, selector, unheld⟩, fun wanted inDesired same => named ⟨wanted, inDesired, same⟩, rfl⟩)
    refine absurd member ((policyStore assigned).not_mem_applyLines _ live.objects obj _ deleted
      (not_mem_delete assigned obj) ?_)
    intro line inside wanted writes
    exact elsewhere wanted ((diffOf_policies desired _).writes line inside wanted writes)

include apart in
/-- A second pass over objects that are exactly the desired ones has nothing to do. -/
theorem computeDiff_settled (keys : (desired.map ManagedObject.key).Nodup) (after : Live)
    (only : ∀ obj ∈ after.objects, obj.podSelector = owner → obj.key ∉ held →
      ∃ wanted ∈ desired, wanted.key = obj.key ∧ obj.contentEq wanted = true)
    (all : ∀ wanted ∈ desired, ∃ obj ∈ after.objects,
      obj.podSelector = owner ∧ obj.key = wanted.key ∧ obj.contentEq wanted = true)
    (line : Diff ManagedObject Backend) (member : line ∈ computeDiff desired (owned owner held after.objects)) :
    ∃ key, line = .unchanged key := by
  have carries : Carries desired (owned owner held after.objects) := by
    constructor
    · intro wanted inDesired
      obtain ⟨obj, inAfter, selector, key, content⟩ := all wanted inDesired
      have unheld : obj.key ∉ held := by
        rw [key]
        exact apart wanted inDesired
      exact ⟨obj, (mem_owned owner held obj _).mpr ⟨inAfter, selector, unheld⟩,
        Prod.ext (backend_of_contentEq _ _ content).1 key, content⟩
    · intro obj member
      obtain ⟨inAfter, selector, unheld⟩ := (mem_owned owner held obj _).mp member
      obtain ⟨wanted, inDesired, key, content⟩ := only obj inAfter selector unheld
      exact ⟨wanted, inDesired, Prod.ext (backend_of_contentEq _ _ content).1 key.symm, content⟩
  refine computeDiff_unchanged desired _ ?_ ?_ carries line member
  · intro wanted inDesired obj inOwned same
    obtain ⟨other, inOther, here, -⟩ := carries.only obj inOwned
    have equal := desired_eq_of_key desired keys other wanted inOther inDesired ((congrArg Prod.snd here).symm.trans same)
    rw [← equal]
    exact congrArg Prod.fst here
  · exact fun a inA b inB same => desired_eq_of_key desired keys a b inA inB (congrArg Prod.snd same)

end Pass

/-- A pass converges exactly when the owner has no object in the other dialect under the key of
a desired one. -/
theorem reconcile_converges_iff (lines : List (Diff ManagedObject Backend))
    (keys : (desired.map ManagedObject.key).Nodup)
    (own : ∀ wanted ∈ desired, wanted.podSelector = owner)
    (current : ∀ wanted ∈ desired, wanted.backend = backend)
    (apart : ∀ wanted ∈ desired, wanted.key ∉ held)
    (computed : computeOwnedDiff quoted owner desired held (managedIn live.objects) = .ok lines) :
    Converged quoted owner desired held live (live.apply assigned lines) ↔
      ¬ ∃ obj, StaleTwin owner desired held backend live obj := by
  obtain ⟨_, collisions, rfl⟩ := (computeOwnedDiff_ok_iff quoted owner desired held _ lines).mp computed
  have free : ∀ obj ∈ live.objects, obj.podSelector ≠ owner → ∀ wanted ∈ desired, wanted.key ≠ obj.key :=
    fun obj member => collisions obj ((mem_managedIn obj live.objects).mpr member)
  change Converged quoted owner desired held live (pass assigned owner desired held live) ↔ _
  have foreign := pass_foreign assigned owner desired held live own free keys
  constructor
  · rintro converged ⟨obj, twin⟩
    have stays := pass_twin assigned owner desired held backend live current obj twin
    obtain ⟨_, selector, unheld, dialect, _⟩ := twin
    obtain ⟨wanted, inDesired, _, content⟩ := converged.onlyDesired obj stays selector unheld
    exact dialect ((backend_of_contentEq _ _ content).1.trans (current wanted inDesired))
  · intro none_
    have only := pass_onlyDesired assigned owner desired held backend live current keys none_
    have all : ∀ wanted ∈ desired, ∃ obj ∈ (pass assigned owner desired held live).objects,
        obj.podSelector = owner ∧ obj.key = wanted.key ∧ obj.contentEq wanted = true := by
      intro wanted inDesired
      obtain ⟨obj, member, here, content⟩ :=
        (pass_at_desired assigned owner desired held live keys wanted inDesired).2
      exact ⟨obj, member, (backend_of_contentEq _ _ content).2.trans (own wanted inDesired),
        congrArg Prod.snd here, content⟩
    have again : computeOwnedDiff quoted owner desired held
        (managedIn (pass assigned owner desired held live).objects) =
        .ok (computeDiff desired (owned owner held (pass assigned owner desired held live).objects)) := by
      rw [computeOwnedDiff_ok_iff]
      refine ⟨own, ?_, rfl⟩
      intro obj member other
      exact free obj ((foreign obj other).mp ((mem_managedIn obj _).mp member)) other
    exact ⟨foreign, pass_held assigned owner desired held live apart, only, all, _, again,
      computeDiff_settled owner desired held apart keys _ only all⟩

end Reconcile

/-! ## Changing the dialect -/

/-- The baseline of a namespace. -/
def baselineObject (backend : Backend) (body : List UInt8) : ManagedObject :=
  ⟨⟨"user-alice".toList, "weebo-base".toList⟩, backend, "base".toList, .empty, body, none, none⟩

def baselineLive (backend : Backend) (body : List UInt8) : Live :=
  ⟨[baselineObject backend body], List.nodup_singleton _⟩

theorem reconcile_converges_iff_update :
    Converged id .empty [baselineObject .networkPolicy [1]] [] (baselineLive .networkPolicy [0])
      ((baselineLive .networkPolicy [0]).apply (fun _ => none)
        [.update (baselineObject .networkPolicy [1])]) := by
  have computed : computeOwnedDiff id .empty [baselineObject .networkPolicy [1]] []
      (managedIn (baselineLive .networkPolicy [0]).objects) =
      .ok [.update (baselineObject .networkPolicy [1])] := by rfl
  refine (reconcile_converges_iff id (fun _ => none) .empty _ [] .networkPolicy _ _ (by simp) ?_ ?_ (by simp)
    computed).mpr ?_
  · exact List.forall_mem_singleton.mpr rfl
  · exact List.forall_mem_singleton.mpr rfl
  · rintro ⟨obj, member, _, _, dialect, _⟩
    rw [List.mem_singleton.mp member] at dialect
    exact dialect rfl

/-- The baseline written in the old dialect stays beside the new one. -/
theorem old_dialect_stays :
    ¬ ∀ (quoted : Text → Text) (assigned : ManagedObject → Option Text) (owner : PodSelector)
      (desired : List ManagedObject) (held : List ObjectKey) (backend : Backend) (live : Live)
      (lines : List (Diff ManagedObject Backend)), (desired.map ManagedObject.key).Nodup →
      (∀ wanted ∈ desired, wanted.podSelector = owner) → (∀ wanted ∈ desired, wanted.backend = backend) →
      (∀ wanted ∈ desired, wanted.key ∉ held) →
      computeOwnedDiff quoted owner desired held (managedIn live.objects) = .ok lines →
      Converged quoted owner desired held live (live.apply assigned lines) := by
  intro given
  have computed : computeOwnedDiff id .empty [baselineObject .cilium [1]] []
      (managedIn (baselineLive .networkPolicy [1]).objects) =
      .ok [.update (baselineObject .cilium [1])] := by rfl
  have converged := given id (fun _ => none) .empty [baselineObject .cilium [1]] [] .cilium
    (baselineLive .networkPolicy [1]) _ (by simp) (List.forall_mem_singleton.mpr rfl)
    (List.forall_mem_singleton.mpr rfl) (by simp) computed
  have stays : baselineObject .networkPolicy [1] ∈ ((baselineLive .networkPolicy [1]).apply (fun _ => none)
      [.update (baselineObject .cilium [1])]).objects := by decide
  obtain ⟨wanted, member, _, content⟩ := converged.onlyDesired _ stays rfl (by simp)
  rw [List.mem_singleton.mp member] at content
  cases content

end WeeboSi.NetworkProfiles
