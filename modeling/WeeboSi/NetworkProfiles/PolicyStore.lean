import WeeboSi.Chassis.Apply
import WeeboSi.NetworkProfiles.Resolve

/-!
# Applying a diff to the policies of a namespace

Source: crates/weebo-si-network-profiles-adapters/src/kube_policy_store.rs:298-360,
crates/weebo-si-network-profiles/src/model/policy.rs and model/diff.rs:24-70. In the cluster a
policy is told from another by its kind and its key, in a diff by its key alone. An apply
leaves the object it names as it was written; the apiserver gives a new one its uid and keeps
that of an old one.
-/
namespace WeeboSi.NetworkProfiles
open WeeboSi.Lib WeeboSi.Crd WeeboSi.Chassis

structure ManagedObject where
  key : ObjectKey
  backend : Backend
  profile : ProfileKey
  podSelector : PodSelector
  body : List UInt8
  owner : Option Owner
  uid : Option Text
  deriving DecidableEq, Repr

/-- The profile is provenance, and the uid is the apiserver's: neither is content. -/
def ManagedObject.contentEq (a b : ManagedObject) : Bool :=
  a.backend = b.backend ∧ a.podSelector = b.podSelector ∧ a.body = b.body ∧ a.owner = b.owner

instance : Selected ManagedObject Backend where
  key := ManagedObject.key
  backend := ManagedObject.backend
  contentEq := ManagedObject.contentEq
  uid := ManagedObject.uid
  podSelector := ManagedObject.podSelector

/-- The live objects of a namespace. -/
structure Live where
  objects : List ManagedObject
  distinct : (objects.map place).Nodup

/-- `managed_in`: the policies of one kind after the other. -/
def managedIn (objects : List ManagedObject) : List ManagedObject :=
  objects.filter (fun obj => obj.backend = .networkPolicy) ++ objects.filter (fun obj => obj.backend = .cilium)

/-! ## The store -/

section Store
variable (assigned : ManagedObject → Option Text)

/-- A server-side apply of one object. -/
def write (obj : ManagedObject) (objects : List ManagedObject) : List ManagedObject :=
  if objects.any fun live => place live = place obj then
    objects.map fun live => if place live = place obj then { obj with uid := live.uid } else live
  else objects ++ [{ obj with uid := assigned obj }]

/-- A delete reaches only the object it was listed with; without a uid it goes by name. -/
def pinnedTo (uid : Option Text) (obj : ManagedObject) : Bool := uid = none ∨ obj.uid = uid

def remove (key : ObjectKey) (backend : Backend) (uid : Option Text) (objects : List ManagedObject) :
    List ManagedObject :=
  objects.filter fun obj => ¬ (place obj = (backend, key) ∧ pinnedTo uid obj = true)

/-- The same object, whatever uid it has. -/
def SameBut (obj live : ManagedObject) : Prop := ∃ uid, live = { obj with uid := uid }

theorem contentEq_of_sameBut (obj found : ManagedObject) (same : SameBut obj found) :
    found.contentEq obj = true := by
  obtain ⟨uid, rfl⟩ := same
  simp [ManagedObject.contentEq]

theorem write_elsewhere (obj : ManagedObject) (objects : List ManagedObject) (live : ManagedObject)
    (other : place live ≠ place obj) : live ∈ write assigned obj objects ↔ live ∈ objects := by
  unfold write
  split
  · rw [List.mem_map]
    constructor
    · rintro ⟨source, member, rfl⟩
      split_ifs at other ⊢ with same
      · exact absurd rfl other
      · exact member
    · intro member
      exact ⟨live, member, if_neg other⟩
  · rw [List.mem_append, List.mem_singleton]
    constructor
    · rintro (member | rfl)
      · exact member
      · exact absurd rfl other
    · exact Or.inl

/-- At the place of a write stands what was written. -/
theorem write_stands (obj : ManagedObject) (objects : List ManagedObject) :
    Stands SameBut obj (write assigned obj objects) := by
  unfold write
  split
  · rename_i present
    obtain ⟨source, member, same⟩ := List.any_eq_true.mp present
    have same : place source = place obj := by simpa using same
    refine ⟨?_, { obj with uid := source.uid }, ?_, rfl⟩
    · intro live inside here
      obtain ⟨from_, -, rfl⟩ := List.mem_map.mp inside
      split_ifs at here ⊢ with at_
      · exact ⟨_, rfl⟩
      · exact absurd here at_
    · exact List.mem_map.mpr ⟨source, member, if_pos same⟩
  · rename_i absent
    refine ⟨?_, { obj with uid := assigned obj }, by simp, rfl⟩
    intro live inside here
    rcases List.mem_append.mp inside with old | new
    · exact absurd (List.any_eq_true.mpr ⟨live, old, by simpa using here⟩) absent
    · rw [List.mem_singleton.mp new]
      exact ⟨_, rfl⟩

theorem place_write (obj : ManagedObject) (objects : List ManagedObject) :
    (write assigned obj objects).map place =
      if objects.any fun live => place live = place obj then objects.map place
      else objects.map place ++ [place obj] := by
  unfold write
  split
  · rw [List.map_map]
    apply List.map_congr_left
    intro live _
    simp only [Function.comp]
    split_ifs with same
    · exact same.symm
    · rfl
  · simp only [List.map_append, List.map_cons, List.map_nil]
    rfl

theorem write_distinct (obj : ManagedObject) (objects : List ManagedObject)
    (distinct : (objects.map place).Nodup) : ((write assigned obj objects).map place).Nodup := by
  rw [place_write]
  split
  · exact distinct
  · rename_i absent
    rw [List.nodup_append]
    refine ⟨distinct, List.nodup_singleton _, ?_⟩
    intro at_ inside other single
    obtain ⟨live, member, rfl⟩ := List.mem_map.mp inside
    rw [List.mem_singleton] at single
    rintro rfl
    exact absent (List.any_eq_true.mpr ⟨live, member, by simpa using single⟩)

theorem remove_elsewhere (key : ObjectKey) (backend : Backend) (uid : Option Text) (objects : List ManagedObject)
    (live : ManagedObject) (other : place live ≠ (backend, key)) (member : live ∈ objects) :
    live ∈ remove key backend uid objects := by
  simp [remove, member, other]

/-- The policies of a namespace, as the apiserver keeps them. -/
def policyStore : ObjectStore ManagedObject where
  write := write assigned
  delete := remove
  leaves := SameBut
  write_elsewhere := write_elsewhere assigned
  write_stands := write_stands assigned
  write_distinct := write_distinct assigned
  delete_sublist _ _ _ _ := List.filter_sublist
  delete_elsewhere := remove_elsewhere
  sameContent := contentEq_of_sameBut

/-- An object that is deleted as it was listed is gone. -/
theorem not_mem_delete (live : ManagedObject) (objects : List ManagedObject) :
    live ∉ (policyStore assigned).applyLine objects (.delete live.key live.backend live.uid) := by
  intro member
  have kept := (List.mem_filter.mp member).2
  simp [place, Managed.key, Managed.backend, pinnedTo] at kept

/-- Lines keep the places distinct. -/
def Live.apply (lines : List (Diff ManagedObject Backend)) (live : Live) : Live where
  objects := (policyStore assigned).applyLines lines live.objects
  distinct := (policyStore assigned).nodup_applyLines lines live.objects live.distinct

end Store

theorem Live.eq_of_place (live : Live) (a b : ManagedObject) (inA : a ∈ live.objects)
    (inB : b ∈ live.objects) (same : place a = place b) : a = b :=
  List.inj_on_of_nodup_map live.distinct inA inB same

theorem mem_managedIn (obj : ManagedObject) (objects : List ManagedObject) :
    obj ∈ managedIn objects ↔ obj ∈ objects := by
  simp only [managedIn, List.mem_append, List.mem_filter, decide_eq_true_eq]
  cases obj.backend <;> simp

end WeeboSi.NetworkProfiles
