import WeeboSi.Lib.Json
import WeeboSi.Lib.Lists

/-!
# Maps keyed by texts

The members stand in the order of their keys, one a key.
-/
namespace WeeboSi.Lib

/-- In a list with one member a key, reading a key finds its member. -/
theorem lookup_eq_some_iff_mem {K V : Type} [BEq K] [LawfulBEq K] (members : List (K × V))
    (distinct : (members.map Prod.fst).Nodup) (key : K) (value : V) :
    members.lookup key = some value ↔ (key, value) ∈ members := by
  induction members with
  | nil => simp
  | cons member members ih =>
    obtain ⟨k, v⟩ := member
    rw [List.map_cons, List.nodup_cons] at distinct
    by_cases same : key = k
    · subst same
      have absent : (key, value) ∉ members := fun inside =>
        distinct.1 (List.mem_map.mpr ⟨(key, value), inside, rfl⟩)
      simp [absent, eq_comm]
    · rw [List.lookup_cons, beq_false_of_ne same]
      simp [same, ih distinct.2]

theorem lookup_eq_none_of_absent {K V : Type} [BEq K] [LawfulBEq K] (members : List (K × V)) (key : K)
    (absent : key ∉ members.map Prod.fst) : members.lookup key = none := by
  rw [List.lookup_eq_none_iff]
  intro member inside
  have other : key ≠ member.1 := by
    rintro rfl
    exact absent (List.mem_map_of_mem inside)
  simpa using other

/-- Reading what a filter has left, in a list with one member a key. -/
theorem lookup_filter_members {K V : Type} [BEq K] [LawfulBEq K] (members : List (K × V))
    (distinct : (members.map Prod.fst).Nodup) (p : K × V → Bool) (key : K) :
    (members.filter p).lookup key = (members.lookup key).filter fun value => p (key, value) := by
  induction members with
  | nil => rfl
  | cons member members ih =>
    obtain ⟨k, v⟩ := member
    rw [List.map_cons, List.nodup_cons] at distinct
    have tail := ih distinct.2
    by_cases same : key = k
    · subst same
      rw [lookup_eq_none_of_absent members key distinct.1] at tail
      cases kept : p (key, v) with
      | true => simp [kept, Option.filter]
      | false => simpa [kept, Option.filter] using tail
    · cases kept : p (k, v) with
      | true => simp [kept, List.lookup_cons, beq_false_of_ne same, tail]
      | false => simp [kept, List.lookup_cons, beq_false_of_ne same, tail]

/-- A new member is put somewhere. -/
theorem setMember_perm {V : Type} (key : Text) (value : V) (members : List (Text × V))
    (absent : key ∉ members.map Prod.fst) : List.Perm (setMember key value members) ((key, value) :: members) := by
  induction members with
  | nil => exact List.Perm.refl _
  | cons member members ih =>
    obtain ⟨k, v⟩ := member
    simp only [List.map_cons, List.mem_cons, not_or] at absent
    unfold setMember
    rw [if_neg (Ne.symm absent.1)]
    split_ifs
    · exact List.Perm.refl _
    · exact ((ih absent.2).cons (k, v)).trans (List.Perm.swap _ _ _)

theorem nodup_setMember {V : Type} (key : Text) (value : V) (members : List (Text × V))
    (distinct : (members.map Prod.fst).Nodup) :
    ((setMember key value (members.filter fun member => member.1 ≠ key)).map Prod.fst).Nodup := by
  have absent : key ∉ (members.filter fun member => member.1 ≠ key).map Prod.fst := by simp
  refine ((setMember_perm key value _ absent).map Prod.fst).nodup_iff.mpr ?_
  exact List.nodup_cons.mpr ⟨absent, distinct.sublist (List.filter_sublist.map _)⟩

structure TextMap (V : Type) where
  members : List (Text × V)
  distinct : (members.map Prod.fst).Nodup

namespace TextMap
variable {V : Type}

def empty : TextMap V := ⟨[], List.nodup_nil⟩

def get (m : TextMap V) (key : Text) : Option V := m.members.lookup key

def insert (m : TextMap V) (key : Text) (value : V) : TextMap V :=
  ⟨setMember key value (m.members.filter fun member => member.1 ≠ key),
    nodup_setMember key value m.members m.distinct⟩

def keys (m : TextMap V) : List Text := m.members.map Prod.fst

def filter (m : TextMap V) (p : Text × V → Bool) : TextMap V :=
  ⟨m.members.filter p, m.distinct.sublist (List.filter_sublist.map _)⟩

def without (m : TextMap V) (keys : List Text) : TextMap V := m.filter fun member => !keys.contains member.1

def insertAll (m : TextMap V) (pairs : List (Text × V)) : TextMap V :=
  pairs.foldl (fun m pair => m.insert pair.1 pair.2) m

def ofList (pairs : List (Text × V)) : TextMap V := empty.insertAll pairs

@[simp] theorem get_empty (key : Text) : (empty : TextMap V).get key = none := rfl

@[simp] theorem get_insert (m : TextMap V) (key other : Text) (value : V) :
    (m.insert key value).get other = if other = key then some value else m.get other := by
  unfold get insert
  rw [lookup_setMember, lookup_filter (fun k => decide (k ≠ key))]
  by_cases same : other = key
  · rw [if_pos same, if_pos same]
  · rw [if_neg same, if_neg same, if_pos (by simp [same])]

theorem get_eq_some (m : TextMap V) (key : Text) (value : V) :
    m.get key = some value ↔ (key, value) ∈ m.members :=
  lookup_eq_some_iff_mem m.members m.distinct key value

theorem mem_keys (m : TextMap V) (key : Text) : key ∈ m.keys ↔ (m.get key).isSome = true := by
  rw [Option.isSome_iff_exists]
  simp only [keys, List.mem_map, get_eq_some, Prod.exists, exists_and_right, exists_eq_right]

theorem get_filter (m : TextMap V) (p : Text × V → Bool) (key : Text) :
    (m.filter p).get key = (m.get key).filter fun value => p (key, value) :=
  lookup_filter_members m.members m.distinct p key

theorem get_without (m : TextMap V) (keys : List Text) (key : Text) :
    (m.without keys).get key = if key ∈ keys then none else m.get key := by
  unfold without
  rw [get_filter]
  by_cases listed : key ∈ keys
  · simp [listed]
  · cases m.get key <;> simp [listed]

/-- What was inserted last is read; a list with one pair a key inserts each of them. -/
theorem get_insertAll (m : TextMap V) (pairs : List (Text × V)) (distinct : (pairs.map Prod.fst).Nodup)
    (key : Text) : (m.insertAll pairs).get key = (pairs.lookup key).or (m.get key) := by
  induction pairs generalizing m with
  | nil => simp [insertAll]
  | cons pair pairs ih =>
    obtain ⟨k, v⟩ := pair
    rw [List.map_cons, List.nodup_cons] at distinct
    rw [insertAll, List.foldl_cons]
    change ((m.insert k v).insertAll pairs).get key = _
    rw [ih _ distinct.2, get_insert, List.lookup_cons]
    by_cases same : key = k
    · subst same
      simp [lookup_eq_none_of_absent pairs key distinct.1]
    · simp [same, beq_false_of_ne same]

end TextMap

end WeeboSi.Lib
