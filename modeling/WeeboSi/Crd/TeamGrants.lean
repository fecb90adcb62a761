import WeeboSi.Crd.Team
import WeeboSi.Lib.TextMap

/-!
# Grants derived from team objects

Source: crates/weebo-si-crd/src/dwoc_pin.rs:210-244 and network_profiles.rs:345-371, which read
the same two things from the objects of the teams. Objects of one kind have distinct names.
-/
namespace WeeboSi.Crd
open WeeboSi.Lib

/-- A team's own keys, and the one the cluster hands everybody. -/
def widened (own : List Text) (shared : Text) : List Text :=
  if own.contains shared then own else own ++ [shared]

theorem mem_widened (own : List Text) (shared key : Text) :
    key ∈ widened own shared ↔ key ∈ own ∨ key = shared := by
  unfold widened
  by_cases inside : shared ∈ own
  · simp only [List.contains_eq_mem, inside, decide_true, if_true]
    constructor
    · exact Or.inl
    · rintro (own_ | rfl)
      · exact own_
      · exact inside
  · simp [inside]

section Grants
variable {F G : Type} (teams : List (WeeboSiTeam F))

/-- The catalogues of the teams, in the order they are merged in. -/
def teamBlocks {T : Type} (catalogOf : F → List T) : List (Text × List T) :=
  (resolutionOrder teams).filterMap fun team => team.features.map fun block => (team.name, catalogOf block)

def teamGrants (grantOf : F → G) : List (Text × G) :=
  mapOf ((resolutionOrder teams).filterMap fun team =>
    team.features.map fun block => (team.name, grantOf block))

/-- The object of the team a namespace belongs to. -/
def firstTeam (labels : Labels) : Option (WeeboSiTeam F) :=
  (resolutionOrder teams).find? fun team => team.namespaceSelector.matchesLabels labels

theorem find_teamViews (labels : Labels) :
    (teamViews teams).find? (fun team => team.namespaceSelector.matchesLabels labels) =
      (firstTeam teams labels).map WeeboSiTeam.asTeam := by
  unfold teamViews firstTeam
  rw [List.find?_map]
  rfl

theorem mem_teamGrants (grantOf : F → G) (name : Text) (grant : G) :
    (name, grant) ∈ teamGrants teams grantOf ↔
      ∃ team ∈ resolutionOrder teams, ∃ block, team.features = some block ∧ team.name = name ∧
        grantOf block = grant := by
  simp [teamGrants, mapOf]

theorem teamGrants_distinct (grantOf : F → G) (distinct : (teams.map WeeboSiTeam.name).Nodup) :
    ((teamGrants teams grantOf).map Prod.fst).Nodup := by
  have ordered : ((resolutionOrder teams).map WeeboSiTeam.name).Nodup :=
    ((List.perm_insertionSort _ teams).map _).nodup_iff.mpr distinct
  have names : (((resolutionOrder teams).filterMap fun team =>
      team.features.map fun block => (team.name, grantOf block)).map Prod.fst).Sublist
      ((resolutionOrder teams).map WeeboSiTeam.name) := by
    induction resolutionOrder teams with
    | nil => simp
    | cons team rest ih =>
      cases features : team.features with
      | none => simpa [features] using ih.cons team.name
      | some block => simpa [features] using ih
  unfold teamGrants mapOf
  rw [List.map_reverse, List.nodup_reverse]
  exact ordered.sublist names

/-- The first team of a namespace has the grant its own block gives it. -/
theorem teamGrants_lookup (grantOf : F → G) (distinct : (teams.map WeeboSiTeam.name).Nodup)
    (labels : Labels) (team : WeeboSiTeam F) (block : F) (first : firstTeam teams labels = some team)
    (own : team.features = some block) :
    (teamGrants teams grantOf).lookup team.name = some (grantOf block) := by
  rw [lookup_eq_some_iff_mem _ (teamGrants_distinct teams grantOf distinct), mem_teamGrants]
  exact ⟨team, List.mem_of_find?_eq_some first, block, own, rfl, rfl⟩

end Grants

end WeeboSi.Crd
