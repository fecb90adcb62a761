import WeeboSi.Chassis.Admit
import WeeboSi.Crd.Attachment

/-!
# The guard on routing objects

Source: crates/weebo-si-policy-guard/src/endpoint_routing.rs:36-295 and the operations of
guard.rs. The rows of the guard are tried in the source's order.
-/
namespace WeeboSi.PolicyGuard
open WeeboSi.Lib WeeboSi.Crd WeeboSi.Chassis

inductive WriteOperation where
  | create | update | delete
  deriving DecidableEq, Repr

theorem WriteOperation.eq_create (operation : WriteOperation) (fresh : operation ≠ .update)
    (written : operation ≠ .delete) : operation = .create := by
  cases operation with
  | create => rfl
  | update => exact absurd rfl fresh
  | delete => exact absurd rfl written

/-- Who authored the routing object. -/
inductive Provenance where
  | devfile | author
  deriving DecidableEq, Repr

/-- An annotation key, or the path of a field. -/
inductive ManagedField where
  | annotationKey (key : Text)
  | fieldPath (path : Text)
  deriving DecidableEq, Repr

def ManagedField.name : ManagedField → Text
  | annotationKey key => key
  | fieldPath path => path

structure EndpointRoutingWrite where
  namespaceName : Text
  actor : Text
  operation : WriteOperation
  kind : RoutingKind
  provenance : Provenance
  changedAnnotations : List Text
  otherFieldsChanged : Bool
  expectedManaged : List (ManagedField × Text)
  submittedManaged : List (ManagedField × Text)
  carriesDevworkspaceLabel : Bool
  hostOwnedByNamespace : Option Bool
  introducesBypass : Bool

namespace EndpointRoutingWrite
variable (write : EndpointRoutingWrite)

/-- The managed fields that do not hold what the dialect expects. -/
def tampered : List ManagedField :=
  (write.expectedManaged.filter fun (field, expected) =>
    write.submittedManaged.lookup field ≠ some expected).map Prod.fst

def nonDeveloperAnnotationChanges : List Text :=
  write.changedAnnotations.filter fun key => !developerAnnotations.contains key

end EndpointRoutingWrite

structure EndpointRoutingGuard where
  operatorIdentity : Text
  devworkspaceOperatorIdentity : Text
  breakGlassIdentities : List Text
  deriving DecidableEq, Repr

def commaList (names : List Text) : Text := List.intercalate ", ".toList names

namespace EndpointRoutingGuard
variable (guard : EndpointRoutingGuard) (write : EndpointRoutingWrite)

def bypassDenied : Decision :=
  .deny (write.actor ++ " may not set ".toList ++ endpointAuthAnnotationKey ++ ": ".toList ++ endpointAuthBypass
    ++ " on a ".toList ++ write.kind.name ++ "; that is reserved for the break-glass identities".toList)
    none (some "bypass_not_permitted".toList) "denied_bypass".toList

def forgedLabelDenied : Decision :=
  .deny (write.actor ++ " may not write a DevWorkspace-generated ".toList ++ write.kind.name ++ " in ".toList
    ++ write.namespaceName) none (some "forged_devworkspace_label".toList) "denied_forged_label".toList

def hostDenied : Decision :=
  .deny ("the host this ".toList ++ write.kind.name ++ " claims does not belong to ".toList
    ++ write.namespaceName) none (some "host_not_owned".toList) "denied_host_not_owned".toList

def managedFieldDenied : Decision :=
  .deny ("the gate is managed by weebo-si-operator: ".toList
    ++ commaList (write.tampered.map ManagedField.name) ++ " may not be changed".toList)
    none (some "managed_field".toList) "denied_managed_field".toList

def devfileProjectionDenied : Decision :=
  let annotations := write.nonDeveloperAnnotationChanges
  let named := if annotations = [] then "the object's spec".toList else commaList annotations
  .deny ("this ".toList ++ write.kind.name ++ " is generated from a devfile; ".toList ++ named
    ++ " is edited there, not here".toList) none (some "devfile_projection".toList)
    "denied_devfile_projection".toList

def allowed (result : Text) : Decision := .allow [] none none result

def evaluate : Decision :=
  if write.actor = guard.operatorIdentity then allowed "operator_allowed".toList
  else if guard.breakGlassIdentities.contains write.actor then allowed "break_glass".toList
  else if write.actor = guard.devworkspaceOperatorIdentity ∧ write.introducesBypass = false then
    allowed "dwo_allowed".toList
  else if write.operation = .delete then allowed "delete_allowed".toList
  else if write.introducesBypass then bypassDenied write
  else if write.carriesDevworkspaceLabel ∧ write.provenance = .devfile then forgedLabelDenied write
  else if write.hostOwnedByNamespace = some false then hostDenied write
  else if write.operation = .create then allowed "create_allowed".toList
  else if write.tampered ≠ [] then managedFieldDenied write
  else if write.provenance = .devfile ∧
      (write.nonDeveloperAnnotationChanges ≠ [] ∨ write.otherFieldsChanged) then devfileProjectionDenied write
  else allowed "allowed".toList

/-- The identities that the rows below do not see. -/
def exempt (actor : Text) : Prop :=
  actor = guard.operatorIdentity ∨ actor ∈ guard.breakGlassIdentities ∨
    actor = guard.devworkspaceOperatorIdentity

def admits : Prop := (guard.evaluate write).denial = none

/-! ## The rows together -/

/-- What the last two rows require of an update. -/
structure GateKept : Prop where
  managed : write.tampered = []
  projection : write.provenance = .devfile →
    write.nonDeveloperAnnotationChanges = [] ∧ write.otherFieldsChanged = false

/-- What the rows require of whoever is not exempt. -/
structure Permitted : Prop where
  bypass : write.introducesBypass = false
  label : ¬ (write.carriesDevworkspaceLabel = true ∧ write.provenance = .devfile)
  host : write.hostOwnedByNamespace ≠ some false
  kept : write.operation = .create ∨ GateKept write

/-- A row that lets the write through, and one that refuses it. -/
theorem allowing_row (row : Prop) [Decidable row] (result : Text) (rest : Decision) :
    (if row then allowed result else rest).denial = none ↔ row ∨ rest.denial = none := by
  by_cases met : row
  · rw [if_pos met]
    exact iff_of_true rfl (Or.inl met)
  · rw [if_neg met]
    exact ⟨Or.inr, fun either => either.resolve_left met⟩

theorem denying_row (row : Prop) [Decidable row] (denied rest : Decision) (refused : denied.denial.isSome = true) :
    (if row then denied else rest).denial = none ↔ ¬ row ∧ rest.denial = none := by
  by_cases met : row
  · rw [if_pos met]
    refine iff_of_false (fun none_ => ?_) (fun both => both.1 met)
    rw [none_] at refused
    cases refused
  · rw [if_neg met]
    exact ⟨fun rest => ⟨met, rest⟩, And.right⟩

theorem admits_iff :
    guard.admits write ↔
      write.actor = guard.operatorIdentity ∨ write.actor ∈ guard.breakGlassIdentities ∨
        (write.actor = guard.devworkspaceOperatorIdentity ∧ write.introducesBypass = false) ∨
        write.operation = .delete ∨ Permitted write := by
  have last : (allowed "allowed".toList).denial = none := rfl
  unfold admits evaluate
  rw [allowing_row, allowing_row, allowing_row, allowing_row, denying_row _ _ _ rfl, denying_row _ _ _ rfl,
    denying_row _ _ _ rfl, allowing_row, denying_row _ _ _ rfl, denying_row _ _ _ rfl, List.contains_iff_mem]
  refine or_congr_right (or_congr_right (or_congr_right (or_congr_right ?_)))
  constructor
  · rintro ⟨bypass, label, host, kept⟩
    refine ⟨by simpa using bypass, label, host, kept.imp_right ?_⟩
    rintro ⟨untampered, projected, -⟩
    refine ⟨not_not.mp untampered, fun generated => ⟨?_, ?_⟩⟩
    · by_contra changed
      exact projected ⟨generated, Or.inl changed⟩
    · by_contra changed
      exact projected ⟨generated, Or.inr (by simpa using changed)⟩
  · intro permitted
    refine ⟨by simp [permitted.bypass], permitted.label, permitted.host, permitted.kept.imp_right ?_⟩
    intro kept
    refine ⟨not_not.mpr kept.managed, ?_, last⟩
    rintro ⟨generated, changed | changed⟩
    · exact changed (kept.projection generated).1
    · simp [(kept.projection generated).2] at changed

/-- Whoever is not exempt creates and updates only what is permitted. -/
theorem admits_iff_permitted (outsider : ¬ guard.exempt write.actor) (written : write.operation ≠ .delete) :
    guard.admits write ↔ Permitted write := by
  unfold exempt at outsider
  rw [admits_iff]
  tauto

end EndpointRoutingGuard

end WeeboSi.PolicyGuard
