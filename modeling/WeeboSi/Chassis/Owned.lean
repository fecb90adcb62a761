import WeeboSi.Chassis.Apply

/-!
# Applying the diff of what one subject owns

Source: crates/weebo-si-chassis/src/managed/scope.rs:23-82. The lines of an owned diff are computed
from a part of the objects and applied to all of them.
-/
namespace WeeboSi.Chassis
open WeeboSi.Lib

/-- The objects of a namespace. -/
def inNamespace {M B : Type} [Managed M B] (namespaceName : Text) (objects : List M) : List M :=
  objects.filter fun obj => (Managed.key obj).namespaceName = namespaceName

/-- What the diff of a subject is computed from. -/
def ownedBy {M B : Type} [Selected M B] (owner : PodSelector) (held : List ObjectKey) (objects : List M) : List M :=
  objects.filter fun obj => Selected.podSelector obj = owner ∧ ¬ held.contains (Managed.key obj)

theorem mem_inNamespace {M B : Type} [Managed M B] (namespaceName : Text) (objects : List M) (obj : M) :
    obj ∈ inNamespace namespaceName objects ↔ obj ∈ objects ∧ (Managed.key obj).namespaceName = namespaceName := by
  simp [inNamespace]

theorem mem_ownedBy {M B : Type} [Selected M B] (owner : PodSelector) (held : List ObjectKey) (objects : List M)
    (obj : M) : obj ∈ ownedBy owner held objects ↔
      obj ∈ objects ∧ Selected.podSelector obj = owner ∧ Managed.key obj ∉ held := by
  simp [ownedBy]

section Lines
variable {M B : Type} [Managed M B] [DecidableEq B] (storage : Storage M)

/-- Lines that act in one part of the cluster act on that part alone. -/
theorem filter_applyLines (p : B × ObjectKey → Bool) (lines : List (Diff M B)) (objects : List M)
    (inside : ∀ line ∈ lines, ∀ at_, linePlace line = some at_ → p at_ = true) :
    (storage.store.applyLines lines objects).filter (fun live => p (place live)) =
      storage.store.applyLines lines (objects.filter fun live => p (place live)) := by
  induction lines generalizing objects with
  | nil => rfl
  | cons line rest ih =>
    have later := ih (storage.store.applyLine objects line) fun line member =>
      inside line (List.mem_cons_of_mem _ member)
    have here := inside line List.mem_cons_self
    have first : (storage.store.applyLine objects line).filter (fun live => p (place live)) =
        storage.store.applyLine (objects.filter fun live => p (place live)) line := by
      have swapped : ∀ q : M → Bool, (objects.filter q).filter (fun live => p (place live)) =
          (objects.filter fun live => p (place live)).filter q := by
        intro q
        simp only [List.filter_filter, Bool.and_comm]
      cases line with
      | create obj | update obj =>
        have stays : p (place (storage.stored obj)) = true := by
          rw [storage.samePlace]
          exact here (place obj) rfl
        simp only [ObjectStore.applyLine, Storage.store, Storage.write, List.filter_append, swapped, List.filter_singleton, stays, cond_true]
      | delete key backend uid => exact swapped _
      | unchanged key => rfl
    change (storage.store.applyLines rest (storage.store.applyLine objects line)).filter _ = _
    rw [later, first]
    rfl

end Lines

/-! ## A pass of one subject -/

section Pass
variable {M B : Type} [Selected M B] [DecidableEq B] (quoted : Text → Text) (storage : Storage M)

/-- What a pass of a subject leaves: its own objects are the wanted ones, everything else is as
it was, and another pass has nothing to do. -/
structure Settled (namespaceName : Text) (owner : PodSelector) (desired : List M) (held : List ObjectKey)
    (before after : List M) : Prop where
  others : ∀ live, ¬ ((Managed.key live).namespaceName = namespaceName ∧ Selected.podSelector live = owner) →
    (live ∈ after ↔ live ∈ before)
  kept : ∀ live, Managed.key live ∈ held → (live ∈ after ↔ live ∈ before)
  carries : Carries desired (ownedBy owner held (inNamespace namespaceName after))
  idle : ∃ lines : List (Diff M B),
    computeOwnedDiff quoted owner desired held (inNamespace namespaceName after) = .ok lines ∧
      ∀ line ∈ lines, ∃ key, line = .unchanged key

variable {namespaceName : Text} {owner : PodSelector} {desired : List M} {held : List ObjectKey}
  {objects : List M} {lines : List (Diff M B)}

/-- Where the pass of a subject may act. -/
def Reaches (owner : PodSelector) (desired : List M) (held : List ObjectKey) (listed : List M)
    (at_ : B × ObjectKey) : Bool :=
  (desired.any fun obj => place obj = at_) || (ownedBy owner held listed).any fun obj => place obj = at_

theorem reaches_iff (listed : List M) (at_ : B × ObjectKey) : Reaches owner desired held listed at_ = true ↔
    (∃ obj ∈ desired, place obj = at_) ∨ ∃ obj ∈ ownedBy owner held listed, place obj = at_ := by
  simp [Reaches]

theorem reaches_of_line (listed : List M) (line : Diff M B)
    (member : line ∈ computeDiff desired (ownedBy owner held listed)) (at_ : B × ObjectKey)
    (acts : linePlace line = some at_) : Reaches owner desired held listed at_ = true := by
  rw [reaches_iff]
  rcases List.mem_append.mp member with written | deleted
  · obtain ⟨obj, inside, rfl⟩ := List.mem_map.mp written
    rcases wantedLine_cases (ownedBy owner held listed) obj with writes | ⟨unchanged, -⟩
    · exact Or.inl ⟨obj, inside, Option.some.inj ((linePlace_of_writes _ obj writes).symm.trans acts)⟩
    · rw [unchanged] at acts
      cases acts
  · obtain ⟨live, isLive, deletes⟩ := List.mem_filterMap.mp deleted
    obtain ⟨-, rfl⟩ := (presentLine_eq_some desired live line).mp deletes
    exact Or.inr ⟨live, isLive, Option.some.inj acts⟩

variable (shows : ∀ a b : M, Managed.contentEq a b = true → Selected.podSelector a = Selected.podSelector b)
  (plain : ∀ a b : M, Managed.key a = Managed.key b → Managed.backend a = Managed.backend b)
  (agree : ∀ a ∈ desired, ∀ b ∈ desired, place a = place b → a = b)
  (here : ∀ obj ∈ desired, (Managed.key obj).namespaceName = namespaceName)
  (apart : ∀ obj ∈ desired, Managed.key obj ∉ held)
  (distinct : (objects.map place).Nodup)
  (computed : computeOwnedDiff quoted owner desired held (inNamespace namespaceName objects) = .ok lines)

section Reach
include apart distinct computed here

/-- What the pass may act on is its own. -/
theorem mem_owned_of_reaches (live : M) (isLive : live ∈ objects)
    (reached : Reaches owner desired held (inNamespace namespaceName objects) (place live) = true) :
    live ∈ ownedBy owner held (inNamespace namespaceName objects) := by
  obtain ⟨-, free, -⟩ := (computeOwnedDiff_ok_iff quoted owner desired held _ lines).mp computed
  rcases (reaches_iff _ _).mp reached with ⟨obj, inside, same⟩ | ⟨own, isOwn, same⟩
  · have key : Managed.key obj = Managed.key live := congrArg Prod.snd same
    have listed : live ∈ inNamespace namespaceName objects :=
      (mem_inNamespace namespaceName objects live).mpr ⟨isLive, key ▸ here obj inside⟩
    refine (mem_ownedBy owner held _ live).mpr ⟨listed, ?_, key ▸ apart obj inside⟩
    by_contra foreign
    exact free live listed foreign obj inside key
  · have before := ((mem_inNamespace namespaceName objects own).mp ((mem_ownedBy owner held _ own).mp isOwn).1).1
    rwa [← List.inj_on_of_nodup_map distinct before isLive same]

theorem filter_reaches : objects.filter (fun live =>
    Reaches owner desired held (inNamespace namespaceName objects) (place live)) =
      ownedBy owner held (inNamespace namespaceName objects) := by
  unfold ownedBy inNamespace
  rw [List.filter_filter]
  apply List.filter_congr
  intro live isLive
  rw [Bool.eq_iff_iff]
  have mine := mem_owned_of_reaches quoted here apart distinct computed live isLive
  have listed := mem_ownedBy owner held (inNamespace namespaceName objects) live
  rw [mem_inNamespace] at listed
  constructor
  · intro reached
    have own := listed.mp (mine reached)
    simpa [own.1.2] using own.2
  · intro own
    have member := listed.mpr (by simpa [and_assoc, and_comm, and_left_comm, isLive] using own)
    exact (reaches_iff _ _).mpr (Or.inr ⟨live, member, rfl⟩)

end Reach

/-! ## What the pass leaves -/

/-- The objects after the lines of the pass. -/
def passed (owner : PodSelector) (desired : List M) (held : List ObjectKey) (namespaceName : Text)
    (objects : List M) : List M :=
  storage.store.applyLines (computeDiff desired (ownedBy owner held (inNamespace namespaceName objects))) objects

/-- A place the pass does not reach is as it was. -/
theorem mem_passed_elsewhere (live : M)
    (outside : Reaches owner desired held (inNamespace namespaceName objects) (place live) = false) :
    live ∈ passed storage owner desired held namespaceName objects ↔ live ∈ objects := by
  apply storage.store.mem_applyLines_elsewhere
  intro line member at_
  rw [reaches_of_line _ line member _ at_] at outside
  cases outside

section Reached
include here apart distinct computed

theorem filter_passed : (passed storage owner desired held namespaceName objects).filter (fun live =>
    Reaches owner desired held (inNamespace namespaceName objects) (place live)) =
      storage.store.applyLines (computeDiff desired (ownedBy owner held (inNamespace namespaceName objects)))
        (ownedBy owner held (inNamespace namespaceName objects)) := by
  rw [passed, filter_applyLines storage (Reaches owner desired held (inNamespace namespaceName objects)) _ _
    fun line member => reaches_of_line _ line member]
  exact congrArg _ (filter_reaches quoted here apart distinct computed)

include plain agree

/-- Where the pass reaches, there is what is wanted. -/
theorem carries_reached : Carries desired ((passed storage owner desired held namespaceName objects).filter
    fun live => Reaches owner desired held (inNamespace namespaceName objects) (place live)) := by
  have mine := filter_reaches quoted here apart distinct computed
  rw [filter_passed quoted storage here apart distinct computed]
  refine (diffOf_computeDiff desired _ fun obj _ live _ same _ => plain live obj same).carries storage agree ?_
    (clears_computeDiff desired _ fun obj _ live _ same => plain live obj same)
  rw [← mine]
  exact distinct.sublist (List.filter_sublist.map _)

end Reached

section Frame
include shows plain here apart distinct computed

/-- What is not the subject's own is as it was, however many of the lines go through. -/
theorem mem_front_foreign (front : List (Diff M B)) (isFront : front ⊆ lines) (live : M)
    (foreign : ¬ ((Managed.key live).namespaceName = namespaceName ∧ Selected.podSelector live = owner ∧
      Managed.key live ∉ held)) : live ∈ storage.store.applyLines front objects ↔ live ∈ objects := by
  obtain ⟨own, -, rfl⟩ := (computeOwnedDiff_ok_iff quoted owner desired held _ lines).mp computed
  cases reached : Reaches owner desired held (inNamespace namespaceName objects) (place live) with
  | false =>
    apply storage.store.mem_applyLines_elsewhere
    intro line member at_
    rw [reaches_of_line _ line (isFront member) _ at_] at reached
    cases reached
  | true =>
    have before : live ∉ objects := by
      intro isLive
      have member := mem_owned_of_reaches quoted here apart distinct computed live isLive reached
      obtain ⟨listed, selector, unheld⟩ := (mem_ownedBy owner held _ live).mp member
      exact foreign ⟨((mem_inNamespace namespaceName objects live).mp listed).2, selector, unheld⟩
    refine iff_of_false ?_ before
    intro isLive
    obtain ⟨line, member, obj, writes, -, rfl⟩ :=
      (storage.store.mem_applyLines_cases front objects live isLive).resolve_left before
    have inside := (diffOf_computeDiff desired _ fun obj _ live _ same _ => plain live obj same).writes line
      (isFront member) obj writes
    have key : Managed.key (storage.stored obj) = Managed.key obj := congrArg Prod.snd (storage.samePlace obj)
    exact foreign ⟨key ▸ here obj inside, (shows _ obj (storage.sameContent obj)).trans (own obj inside),
      key ▸ apart obj inside⟩

end Frame

include shows plain agree here apart distinct computed

/-- The subject's own objects are where the pass reaches. -/
theorem mem_owned_passed (live : M) :
    live ∈ ownedBy owner held (inNamespace namespaceName (passed storage owner desired held namespaceName objects)) ↔
      live ∈ passed storage owner desired held namespaceName objects ∧
        Reaches owner desired held (inNamespace namespaceName objects) (place live) = true := by
  obtain ⟨own, -, -⟩ := (computeOwnedDiff_ok_iff quoted owner desired held _ lines).mp computed
  rw [mem_ownedBy, mem_inNamespace]
  constructor
  · rintro ⟨⟨isLive, inside⟩, selector, unheld⟩
    refine ⟨isLive, ?_⟩
    by_contra outside
    have before := (mem_passed_elsewhere storage live (Bool.not_eq_true _ ▸ outside)).mp isLive
    have listed := (mem_inNamespace namespaceName objects live).mpr ⟨before, inside⟩
    exact outside ((reaches_iff _ _).mpr
      (Or.inr ⟨live, (mem_ownedBy owner held _ live).mpr ⟨listed, selector, unheld⟩, rfl⟩))
  · rintro ⟨isLive, reached⟩
    obtain ⟨obj, inside, same, content⟩ :=
      (carries_reached quoted storage plain agree here apart distinct computed).only live
        (List.mem_filter.mpr ⟨isLive, reached⟩)
    have key : Managed.key live = Managed.key obj := congrArg Prod.snd same
    exact ⟨⟨isLive, key ▸ here obj inside⟩, (shows live obj content).trans (own obj inside), key ▸ apart obj inside⟩

/-- An owned diff, applied without a failure, settles its subject. -/
theorem settled_of_ownedDiff :
    Settled quoted namespaceName owner desired held objects (storage.store.applyLines lines objects) := by
  obtain ⟨own, free, rfl⟩ := (computeOwnedDiff_ok_iff quoted owner desired held _ lines).mp computed
  have reached := carries_reached quoted storage plain agree here apart distinct computed
  have mine := mem_owned_passed quoted storage shows plain agree here apart distinct computed
  have frame := mem_front_foreign quoted storage shows plain here apart distinct computed _ (List.Subset.refl _)
  have carries : Carries desired
      (ownedBy owner held (inNamespace namespaceName (passed storage owner desired held namespaceName objects))) := by
    constructor
    · intro obj inside
      obtain ⟨live, member, same⟩ := reached.present obj inside
      exact ⟨live, (mine live).mpr (List.mem_filter.mp member), same⟩
    · intro live isLive
      exact reached.only live (List.mem_filter.mpr ((mine live).mp isLive))
  refine ⟨?_, ?_, carries, _, (computeOwnedDiff_ok_iff quoted owner desired held _ _).mpr ⟨own, ?_, rfl⟩, ?_⟩
  · intro live foreign
    exact frame live fun all => foreign ⟨all.1, all.2.1⟩
  · intro live isHeld
    exact frame live fun all => all.2.2 isHeld
  · intro obj member other
    obtain ⟨isLive, inside⟩ := (mem_inNamespace namespaceName _ obj).mp member
    have before := (frame obj fun all => other all.2.1).mp isLive
    exact free obj ((mem_inNamespace namespaceName objects obj).mpr ⟨before, inside⟩) other
  · intro line member
    exact computeDiff_unchanged desired _ (fun obj _ live _ same => plain live obj same) agree carries line member

end Pass

end WeeboSi.Chassis
