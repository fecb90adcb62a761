import Mathlib.Data.List.AList
import Mathlib.Tactic

/-!
# Flat merge patches

A merge patch over a map: a key with a value is set, a key with null is removed, and every
other key is left alone.
-/
namespace WeeboSi.Lib

variable {K V : Type} [DecidableEq K]

/-- One member of a patch. -/
def mergeMember (data : AList fun _ : K => V) (member : Sigma fun _ : K => Option V) :
    AList fun _ : K => V :=
  match member.2 with
  | some value => data.insert member.1 value
  | none => data.erase member.1

def mergePatch (data : AList fun _ : K => V) (patch : AList fun _ : K => Option V) :
    AList fun _ : K => V :=
  patch.entries.foldl mergeMember data

theorem lookup_mergeMember_self (data : AList fun _ : K => V) (key : K) (value : Option V) :
    (mergeMember data ⟨key, value⟩).lookup key = value := by
  cases value with
  | none => exact AList.lookup_erase key data
  | some value => exact AList.lookup_insert data

theorem lookup_mergeMember_ne (data : AList fun _ : K => V) (member : Sigma fun _ : K => Option V)
    (key : K) (other : key ≠ member.1) :
    (mergeMember data member).lookup key = data.lookup key := by
  unfold mergeMember
  split
  · exact AList.lookup_insert_ne other
  · exact AList.lookup_erase_ne other

/-- A key reads what the patch says of it, or what it read before. -/
theorem lookup_mergePatch (data : AList fun _ : K => V) (patch : AList fun _ : K => Option V) (key : K) :
    (mergePatch data patch).lookup key = (patch.lookup key).getD (data.lookup key) := by
  have loop : ∀ (members : List (Sigma fun _ : K => Option V)) (data : AList fun _ : K => V),
      members.NodupKeys →
      (members.foldl mergeMember data).lookup key = (members.dlookup key).getD (data.lookup key) := by
    intro members
    induction members with
    | nil =>
      intro data _
      rfl
    | cons member rest ih =>
      intro data distinct
      obtain ⟨absent, distinct⟩ := List.nodupKeys_cons.mp distinct
      rw [List.foldl_cons, ih _ distinct]
      by_cases same : key = member.1
      · subst same
        rw [List.dlookup_eq_none.mpr absent, List.dlookup_cons_eq]
        exact lookup_mergeMember_self data member.1 member.2
      · rw [List.dlookup_cons_ne _ _ same, lookup_mergeMember_ne data member key same]
  exact loop patch.entries data patch.nodupKeys

end WeeboSi.Lib
