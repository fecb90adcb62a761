import WeeboSi.Crd.Team
import WeeboSi.Lib.Outcome

/-!
# Admission over a registry of features

Source: crates/weebo-si-chassis/src/admit.rs:14-86, mutation.rs:17-41, error.rs:10-31,
namespace_facts.rs:13-22, feature/value.rs and feature/registry.rs. What the observer is told
decides nothing and is left out.
-/
namespace WeeboSi.Chassis
open WeeboSi.Lib WeeboSi.Crd

inductive FeatureMode where
  | off | dryRun | enforce
  deriving DecidableEq, Repr

/-- The name of a `DevWorkspaceOperatorConfig`. -/
structure DwocRef where
  name : Text
  namespaceName : Text
  deriving DecidableEq, Repr

/-- A patch a feature decided to apply. -/
inductive Mutation where
  | setConfigRef (target : DwocRef)
  | annotate (key value : Text)
  | setString (path : List Text) (value : Text)
  deriving DecidableEq, Repr

inductive DomainError where
  | invalidConfiguration (why : Text)
  | namespaceNotObserved (name : Text)
  | portFailed (why : Text)
  deriving DecidableEq, Repr

structure NamespaceFacts where
  labels : Labels
  selectionAnnotated : Option Text
  deriving DecidableEq, Repr

/-- What one evaluation decided. -/
structure Decision where
  mutations : List Mutation
  denial : Option Text
  team : Option Text
  note : Option Text
  result : Text
  deriving DecidableEq, Repr

def Decision.allow (mutations : List Mutation) (team note : Option Text) (result : Text) : Decision :=
  ⟨mutations, none, team, note, result⟩

def Decision.deny (reason : Text) (team note : Option Text) (result : Text) : Decision :=
  ⟨[], some reason, team, note, result⟩

/-- Everything an evaluation may see. -/
structure Context where
  teams : List Team
  facts : NamespaceFacts
  resolves : DwocRef → Bool

structure Feature (S : Type) where
  id : Text
  evaluate : S → Context → Except DomainError Decision

inductive AdmitOutcome where
  | allow (mutations : List Mutation)
  | deny (reason : Text)
  deriving DecidableEq, Repr

/-- Which features are active, in which mode, for which namespace. -/
structure FeatureGate where
  modeForAdmission : Text → Text → FeatureMode
  teams : List Team

section Admit
variable {S : Type} (namespaceOf : S → Text) (gate : FeatureGate) (view : Text → Option NamespaceFacts)
  (resolves : DwocRef → Bool)

/-- The loop over the registry, with the mutations so far. -/
def admitLoop (subject : S) : List (Feature S) → List Mutation → Except DomainError AdmitOutcome
  | [], mutations => .ok (.allow mutations)
  | feature :: rest, mutations =>
    let mode := gate.modeForAdmission feature.id (namespaceOf subject)
    if mode = .off then admitLoop subject rest mutations
    else match view (namespaceOf subject) with
      | none => .error (.namespaceNotObserved (namespaceOf subject))
      | some facts => do
        let decision ← feature.evaluate subject ⟨gate.teams, facts, resolves⟩
        match decision.denial with
        | some reason => if mode = .enforce then .ok (.deny reason) else admitLoop subject rest mutations
        | none =>
          admitLoop subject rest (if mode = .enforce then mutations ++ decision.mutations else mutations)

def admitSubject (registry : List (Feature S)) (subject : S) : Except DomainError AdmitOutcome :=
  admitLoop namespaceOf gate view resolves subject registry []

/-- What a single feature has admitted is nothing, or what it decided. -/
theorem admitSubject_singleton (feature : Feature S) (subject : S) (mutations : List Mutation)
    (allowed : admitSubject namespaceOf gate view resolves [feature] subject = .ok (.allow mutations)) :
    mutations = [] ∨ ∃ facts decision, view (namespaceOf subject) = some facts ∧
      feature.evaluate subject ⟨gate.teams, facts, resolves⟩ = .ok decision ∧ decision.denial = none ∧
      decision.mutations = mutations := by
  unfold admitSubject admitLoop at allowed
  simp only [admitLoop, List.nil_append] at allowed
  by_cases off : gate.modeForAdmission feature.id (namespaceOf subject) = .off
  · rw [if_pos off] at allowed
    cases allowed
    exact Or.inl rfl
  · rw [if_neg off] at allowed
    cases seen : view (namespaceOf subject) with
    | none =>
      rw [seen] at allowed
      cases allowed
    | some facts =>
      rw [seen] at allowed
      obtain ⟨decision, evaluated, decided⟩ := (bind_eq_ok _ _ _).mp allowed
      -- A denial outside `Enforce` leaves nothing behind, and neither does an allowance there.
      cases denial : decision.denial with
      | some reason =>
        simp only [denial] at decided
        split_ifs at decided
        · cases decided
        · cases decided
          exact Or.inl rfl
      | none =>
        simp only [denial] at decided
        split_ifs at decided
        · cases decided
          exact Or.inr ⟨facts, decision, rfl, evaluated, denial, rfl⟩
        · cases decided
          exact Or.inl rfl

end Admit

end WeeboSi.Chassis
