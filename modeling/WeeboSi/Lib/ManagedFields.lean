import Mathlib.Tactic

/-!
# An object whose fields have managers

Each field of the object has the managers that own it. A forced server-side apply sets what its
body has, takes a field it changes from the others, and gives up what its manager owned and
omits: a field nobody else owns goes with it. A merge patch takes the fields it changes.
-/
namespace WeeboSi.Lib

variable {F V M : Type}

structure ManagedObject (F V M : Type) where
  value : F → Option V
  owners : F → List M

namespace ManagedObject
variable [DecidableEq V] [DecidableEq M] (object : ManagedObject F V M) (manager : M)

/-- Forced server-side apply; the body omits what it has no value for. -/
def apply (body : F → Option V) : ManagedObject F V M where
  value field :=
    match body field with
    | some value => some value
    | none =>
      if object.owners field ≠ [] ∧ ∀ owner ∈ object.owners field, owner = manager then none
      else object.value field
  owners field :=
    let others := (object.owners field).filter (· ≠ manager)
    match body field with
    | some value => manager :: if object.value field = some value then others else []
    | none => others

/-- Merge patch; a field it names is set or removed. -/
def mergePatch (patch : F → Option (Option V)) : ManagedObject F V M where
  value field := (patch field).getD (object.value field)
  owners field :=
    let value := (patch field).getD (object.value field)
    if value = object.value field then object.owners field
    else if value.isSome then [manager] else []

section Apply
variable (body : F → Option V) (field : F)

theorem value_apply_of_some {value : V} (given : body field = some value) :
    (object.apply manager body).value field = some value := by
  simp [apply, given]

/-- An omitted field the manager does not own stays. -/
theorem value_apply_of_not_owner (omitted : body field = none) (foreign : manager ∉ object.owners field) :
    (object.apply manager body).value field = object.value field := by
  simp only [apply, omitted]
  refine if_neg ?_
  rintro ⟨owned, only⟩
  obtain ⟨owner, member⟩ := List.exists_mem_of_ne_nil _ owned
  exact foreign (only owner member ▸ member)

/-- An omitted field with another owner stays. -/
theorem value_apply_of_other (omitted : body field = none) {owner : M} (member : owner ∈ object.owners field)
    (other : owner ≠ manager) : (object.apply manager body).value field = object.value field := by
  simp only [apply, omitted]
  exact if_neg fun all => other (all.2 owner member)

/-- An omitted field of the manager alone goes. -/
theorem value_apply_of_alone (omitted : body field = none) (owned : manager ∈ object.owners field)
    (alone : ∀ owner ∈ object.owners field, owner = manager) :
    (object.apply manager body).value field = none := by
  simp only [apply, omitted]
  exact if_pos ⟨List.ne_nil_of_mem owned, alone⟩

theorem owner_apply_of_some {value : V} (given : body field = some value) :
    manager ∈ (object.apply manager body).owners field := by
  simp [apply, given]

theorem owner_apply_of_none (omitted : body field = none) :
    manager ∉ (object.apply manager body).owners field := by
  simp [apply, omitted]

/-- Another owner after an apply owned the field before, and the apply has not changed it. -/
theorem other_apply_of_some {value : V} (given : body field = some value) {owner : M}
    (member : owner ∈ (object.apply manager body).owners field) (other : owner ≠ manager) :
    owner ∈ object.owners field ∧ object.value field = some value := by
  simp only [apply, given, List.mem_cons, other, false_or] at member
  split at member
  · next same => exact ⟨(List.mem_filter.mp member).1, same⟩
  · cases member

end Apply
end ManagedObject
end WeeboSi.Lib
