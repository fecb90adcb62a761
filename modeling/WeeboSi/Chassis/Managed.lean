import WeeboSi.Chassis.Admit

/-!
# The diff of managed objects

Source: crates/weebo-si-chassis/src/managed/object.rs:9-54, diff.rs:14-105 and scope.rs:23-82.
Both sides of a diff are matched on the key alone; the dialect is carried along for the
deletes. How the standard library quotes a text in a message is left open.
-/
namespace WeeboSi.Chassis
open WeeboSi.Lib

structure ObjectKey where
  namespaceName : Text
  name : Text
  deriving DecidableEq, Repr

inductive PodSelector where
  | empty
  | devWorkspaceId (id : Text)
  deriving DecidableEq, Repr

structure Owner where
  apiVersion : Text
  kind : Text
  name : Text
  uid : Text
  deriving DecidableEq, Repr

/-- What the diff asks of an object. -/
class Managed (M : Type) (B : outParam Type) where
  key : M → ObjectKey
  backend : M → B
  contentEq : M → M → Bool
  uid : M → Option Text

class Selected (M : Type) (B : outParam Type) extends Managed M B where
  podSelector : M → PodSelector

inductive Diff (M B : Type) where
  | create (obj : M)
  | update (obj : M)
  | delete (key : ObjectKey) (backend : B) (uid : Option Text)
  | unchanged (key : ObjectKey)
  deriving DecidableEq, Repr

/-- What an apply did, by kind of line. -/
structure Applied where
  created : Nat
  updated : Nat
  deleted : Nat
  unchanged : Nat
  deriving DecidableEq, Repr

section Compute
variable {M B : Type}

section Lines
variable [Managed M B]

/-- The line of an object that should be there. -/
def wantedLine (existing : List M) (wanted : M) : Diff M B :=
  match existing.find? fun obj => Managed.key obj = Managed.key wanted with
  | none => .create wanted
  | some current =>
    if Managed.contentEq current wanted then .unchanged (Managed.key wanted) else .update wanted

/-- The line of an object that is there and should not. -/
def presentLine (desired : List M) (present : M) : Option (Diff M B) :=
  if desired.any fun obj => Managed.key obj = Managed.key present then none
  else some (.delete (Managed.key present) (Managed.backend present) (Managed.uid present))

def computeDiff (desired existing : List M) : List (Diff M B) :=
  desired.map (wantedLine existing) ++ existing.filterMap (presentLine desired)

/-- An object is deleted exactly when nothing wanted has its key. -/
theorem delete_mem_computeDiff (desired existing : List M) (key : ObjectKey) (backend : B)
    (uid : Option Text) : Diff.delete key backend uid ∈ computeDiff desired existing ↔
      ∃ present ∈ existing, (∀ wanted ∈ desired, Managed.key wanted ≠ Managed.key present) ∧
        Managed.key present = key ∧ Managed.backend present = backend ∧ Managed.uid present = uid := by
  have written : Diff.delete key backend uid ∉ desired.map (wantedLine existing) := by
    intro member
    obtain ⟨wanted, -, line⟩ := List.mem_map.mp member
    rw [wantedLine] at line
    split at line
    · cases line
    · split at line <;> cases line
  rw [computeDiff, List.mem_append, or_iff_right written, List.mem_filterMap]
  refine exists_congr fun present => and_congr_right fun _ => ?_
  rw [presentLine]
  split
  · next wanted =>
    obtain ⟨obj, inside, same⟩ := List.any_eq_true.mp wanted
    exact iff_of_false (Option.some_ne_none _).symm fun free => free.1 obj inside (of_decide_eq_true same)
  · next unwanted =>
    have free : ∀ wanted ∈ desired, Managed.key wanted ≠ Managed.key present := fun wanted inside same =>
      unwanted (List.any_eq_true.mpr ⟨wanted, inside, decide_eq_true same⟩)
    simp only [Option.some.injEq, Diff.delete.injEq]
    exact (and_iff_right free).symm

end Lines

variable [Selected M B] (quoted : Text → Text)

/-- The selector as it is printed for a message. -/
def debugSelector : PodSelector → Text
  | .empty => "Empty".toList
  | .devWorkspaceId id => "DevWorkspaceId(".toList ++ quoted id ++ ")".toList

/-- The diff of what one owner wrote, less what is held. -/
def computeOwnedDiff (owner : PodSelector) (desired : List M) (held : List ObjectKey) (existing : List M) :
    Except DomainError (List (Diff M B)) :=
  match desired.find? fun obj => Selected.podSelector obj ≠ owner with
  | some stray =>
    .error (.invalidConfiguration ("desired object ".toList ++ (Managed.key stray).namespaceName ++ "/".toList
      ++ (Managed.key stray).name ++ " carries selector ".toList
      ++ debugSelector quoted (Selected.podSelector stray) ++ ", not its subject's ".toList
      ++ debugSelector quoted owner))
  | none =>
    match (existing.filter fun obj => Selected.podSelector obj ≠ owner).find? fun obj =>
        desired.any fun wanted => Managed.key wanted = Managed.key obj with
    | some foreign =>
      .error (.invalidConfiguration ("desired object ".toList ++ (Managed.key foreign).namespaceName
        ++ "/".toList ++ (Managed.key foreign).name
        ++ " collides with a live object owned by selector ".toList
        ++ debugSelector quoted (Selected.podSelector foreign)))
    | none =>
      .ok (computeDiff desired (existing.filter fun obj =>
        Selected.podSelector obj = owner ∧ ¬ held.contains (Managed.key obj)))

/-- The diff succeeds exactly when nothing strays and nothing foreign is in the way. -/
theorem computeOwnedDiff_ok_iff (owner : PodSelector) (desired : List M) (held : List ObjectKey)
    (existing : List M) (lines : List (Diff M B)) :
    computeOwnedDiff quoted owner desired held existing = .ok lines ↔
      (∀ obj ∈ desired, Selected.podSelector obj = owner) ∧
      (∀ obj ∈ existing, Selected.podSelector obj ≠ owner →
        ∀ wanted ∈ desired, Managed.key wanted ≠ Managed.key obj) ∧
      lines = computeDiff desired (existing.filter fun obj =>
        Selected.podSelector obj = owner ∧ ¬ held.contains (Managed.key obj)) := by
  unfold computeOwnedDiff
  cases strays : desired.find? fun obj => Selected.podSelector obj ≠ owner with
  | some stray =>
    have member := List.mem_of_find?_eq_some strays
    have other : Selected.podSelector stray ≠ owner := by simpa using List.find?_some strays
    simp only [reduceCtorEq, false_iff]
    exact fun all => other (all.1 stray member)
  | none =>
    have own : ∀ obj ∈ desired, Selected.podSelector obj = owner := by
      intro obj member
      simpa using List.find?_eq_none.mp strays obj member
    cases foreigns : (existing.filter fun obj => Selected.podSelector obj ≠ owner).find? fun obj =>
        desired.any fun wanted => Managed.key wanted = Managed.key obj with
    | some foreign =>
      have member := List.mem_filter.mp (List.mem_of_find?_eq_some foreigns)
      have collides := List.find?_some foreigns
      obtain ⟨wanted, inDesired, same⟩ := List.any_eq_true.mp collides
      simp only [reduceCtorEq, false_iff]
      exact fun all => all.2.1 foreign member.1 (by simpa using member.2) wanted inDesired (by simpa using same)
    | none =>
      have free : ∀ obj ∈ existing, Selected.podSelector obj ≠ owner →
          ∀ wanted ∈ desired, Managed.key wanted ≠ Managed.key obj := by
        intro obj member other wanted inDesired same
        have inFilter : obj ∈ existing.filter fun obj => Selected.podSelector obj ≠ owner :=
          List.mem_filter.mpr ⟨member, by simpa using other⟩
        have none_ := List.find?_eq_none.mp foreigns obj inFilter
        exact none_ (List.any_eq_true.mpr ⟨wanted, inDesired, by simpa using same⟩)
      simp only [Except.ok.injEq]
      constructor
      · intro same
        exact ⟨own, free, same.symm⟩
      · intro all
        exact all.2.2.symm

end Compute

end WeeboSi.Chassis
