import Mathlib.Data.List.AList

/-!
# Folding into a map

A list folded into a map, each item into the entry of its own key. An entry then depends
on the items of its key only, in the order they came in.
-/
namespace WeeboSi.Lib

variable {K V I : Type} [DecidableEq K]

/-! ## A map after one write -/

section Write
variable (m : AList fun _ : K => V) (key other : K) (value found : V)

theorem lookup_insert_eq :
    (m.insert key value).lookup other = if other = key then some value else m.lookup other := by
  by_cases same : other = key
  · subst same
    rw [if_pos rfl, AList.lookup_insert]
  · rw [if_neg same, AList.lookup_insert_ne same]

theorem lookup_insert_some (h : (m.insert key value).lookup other = some found) :
    other = key ∧ found = value ∨ other ≠ key ∧ m.lookup other = some found := by
  rw [lookup_insert_eq] at h
  split at h
  · rename_i same
    exact .inl ⟨same, (Option.some.inj h).symm⟩
  · rename_i different
    exact .inr ⟨different, h⟩

/-- A new entry takes none away. -/
theorem lookup_insert_absent (absent : m.lookup key = none) (h : m.lookup other = some found) :
    (m.insert key value).lookup other = some found := by
  have different : other ≠ key := by
    intro same
    rw [same, absent] at h
    cases h
  rw [AList.lookup_insert_ne different]
  exact h

theorem lookup_erase_some (h : (m.erase key).lookup other = some found) :
    other ≠ key ∧ m.lookup other = some found := by
  have different : other ≠ key := by
    intro same
    rw [same, AList.lookup_erase] at h
    cases h
  rw [AList.lookup_erase_ne different] at h
  exact ⟨different, h⟩

end Write

/-! ## Folds -/

/-- Replace the entry of `key` by what `f` makes of it. -/
def upsert (f : Option V → V) (key : K) (m : AList fun _ : K => V) : AList fun _ : K => V :=
  m.insert key (f (m.lookup key))

theorem lookup_upsert (f : Option V → V) (key other : K) (m : AList fun _ : K => V) :
    (upsert f key m).lookup other = if other = key then some (f (m.lookup key)) else m.lookup other := by
  unfold upsert
  exact lookup_insert_eq m key other _

/-- Every item into the entry of its key. -/
def foldByKey (keyOf : I → K) (absorb : I → Option V → V) (m : AList fun _ : K => V) (items : List I) :
    AList fun _ : K => V :=
  items.foldl (fun m item => upsert (absorb item) (keyOf item) m) m

theorem lookup_foldByKey (keyOf : I → K) (absorb : I → Option V → V) (items : List I) (key : K)
    (m : AList fun _ : K => V) :
    (foldByKey keyOf absorb m items).lookup key =
      (items.filter fun item => keyOf item = key).foldl (fun entry item => some (absorb item entry))
        (m.lookup key) := by
  induction items generalizing m with
  | nil => rfl
  | cons item rest ih =>
    change (foldByKey keyOf absorb (upsert (absorb item) (keyOf item) m) rest).lookup key = _
    rw [ih, lookup_upsert]
    by_cases here : keyOf item = key
    · subst here
      simp
    · rw [if_neg (Ne.symm here), List.filter_cons_of_neg (by simpa using here)]

end WeeboSi.Lib
