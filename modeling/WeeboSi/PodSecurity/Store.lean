import WeeboSi.Lib.ManagedFields
import WeeboSi.PodSecurity.Plan

/-!
# The namespace and its writes

Source: crates/weebo-si-pod-security-adapters/src/found.rs:17-60, namespace_label_store.rs:24-196,
controller.rs:150-249 and crates/weebo-si-pod-security/src/application.rs:124-263. The managed
fields of a namespace are kept field by field. A write the apiserver refuses changes nothing.
-/
namespace WeeboSi.PodSecurity
open WeeboSi.Lib WeeboSi.Crd WeeboSi.Chassis

inductive Field where
  | label (key : Text)
  | annotated (key : Text)
  deriving DecidableEq, Repr

/-- Who owns a field: a manager and the operation it used. -/
structure Owner where
  manager : Option Text
  operation : Option Text
  deriving DecidableEq, Repr

abbrev Namespace := ManagedObject Field Text Owner

def Key.field (key : Key) : Field := .label key.name

def previousField : Field := .annotated previousKey

def ours : Owner := ⟨some fieldManager, some "Apply".toList⟩

def restoreManager : Owner := ⟨some "weebo-si-pod-security-restore".toList, some "Update".toList⟩

/-- The six keys a namespace carries. -/
def fromNamespace (ns : Namespace) : PodSecurityLabels := fun key => ns.value key.field

def found (ns : Namespace) : Found where
  labels := fromNamespace ns
  previous := ns.value previousField
  owned := keys.any fun key => (ns.owners key.field).contains ours
  foreignOwned := keys.any fun key => (ns.value key.field).isSome &&
    (ns.owners key.field).any fun owner => owner.manager ≠ some fieldManager

/-! ## Bodies -/

/-- The value one of the six keys has, and none for another field. -/
def labelOf {V : Type} (labels : Key → Option V) : Field → Option V
  | .label name => (keyOf name).bind labels
  | .annotated _ => none

def applyBody (labels : PodSecurityLabels) (previous : Text) (field : Field) : Option Text :=
  if field = previousField then some previous else labelOf labels field

def releaseBody (_ : Field) : Option Text := none

/-- Sets back the keys found before the first write, removes the others and the record. -/
def restoreBody (restore : Restore) (field : Field) : Option (Option Text) :=
  if field = previousField then some none else labelOf (fun key => some (restore.set key)) field

/-- A field this feature writes. -/
def Guarded (field : Field) : Prop := field = previousField ∨ ∃ key : Key, field = key.field

section Bodies
variable {V : Type} (values : Key → Option V) (key : Key)

theorem field_ne_previous : key.field ≠ previousField := by
  intro same
  cases same

theorem labelOf_field : labelOf values key.field = values key := by
  simp [Key.field, labelOf, keyOf_name]

theorem labelOf_other (field : Field) (other : ¬Guarded field) : labelOf values field = none := by
  cases field with
  | annotated name => rfl
  | label name =>
    cases known : keyOf name with
    | none => simp [labelOf, known]
    | some key =>
      have named : key.name = name := by simpa using List.find?_some known
      exact absurd (.inr ⟨key, by rw [Key.field, named]⟩) other

end Bodies

section Written
variable (labels : PodSecurityLabels) (previous : Text) (restore : Restore)

@[simp] theorem applyBody_field (key : Key) : applyBody labels previous key.field = labels key := by
  rw [applyBody, if_neg (field_ne_previous key), labelOf_field]

@[simp] theorem applyBody_previous : applyBody labels previous previousField = some previous := if_pos rfl

theorem applyBody_other (field : Field) (other : ¬Guarded field) : applyBody labels previous field = none := by
  rw [applyBody, if_neg fun same => other (.inl same), labelOf_other labels field other]

@[simp] theorem restoreBody_field (key : Key) : restoreBody restore key.field = some (restore.set key) := by
  rw [restoreBody, if_neg (field_ne_previous key), labelOf_field]

@[simp] theorem restoreBody_previous : restoreBody restore previousField = some none := if_pos rfl

theorem restoreBody_other (field : Field) (other : ¬Guarded field) : restoreBody restore field = none := by
  rw [restoreBody, if_neg fun same => other (.inl same), labelOf_other _ field other]

end Written

/-! ## Writes -/

def applied (ns : Namespace) (labels : PodSecurityLabels) (previous : Text) : Namespace :=
  ns.apply ours (applyBody labels previous)

def released (ns : Namespace) : Namespace := ns.apply ours releaseBody

def putBack (ns : Namespace) (restore : Restore) : Namespace :=
  ns.mergePatch restoreManager (restoreBody restore)

section Json
variable (json : JsonText)

/-- A pass over the namespace. What its selectors see of the namespace's labels is part of it. -/
structure Pass where
  config : ResolvedPodSecurityConfig
  servesScc : Bool
  teams : List Team
  labels : Labels
  mode : FeatureMode
  accepted : Bool

/-- The annotation the configuration reads a level from. -/
def selected (config : PodSecurityConfig) (ns : Namespace) : Option Text :=
  if config.selectionKey = [] then none else ns.value (.annotated config.selectionKey)

def Pass.resolution (pass : Pass) (ns : Namespace) : Resolution :=
  resolve pass.teams pass.config pass.labels (selected pass.config.config ns)

def Pass.backend (pass : Pass) : EffectiveBackend := effectiveBackend pass.config.config.backend pass.servesScc

def Pass.desired (pass : Pass) (ns : Namespace) : DesiredState :=
  plan json (pass.resolution ns) pass.config.config.version pass.backend (found ns)

/-- The namespace after the pass, and whether it was written to. -/
def reconcile (pass : Pass) (ns : Namespace) : Namespace × Bool :=
  match (pass.desired json ns).plan with
  | .apply labels previous _ =>
    if pass.mode = .enforce ∧ pass.accepted then (applied ns labels previous, true) else (ns, false)
  | .unchanged | .stricterExisting _ | .observed .. => (ns, false)

/-- What the apiserver answers to the two writes of a restore. -/
structure Answers where
  release : Bool
  merge : Bool

/-- Whether the attempt returned `Ok`, the namespace after it, and the writes it sent. -/
structure Attempt where
  ok : Bool
  ns : Namespace
  sent : Nat

def teardown (answers : Answers) (ns : Namespace) : Attempt :=
  match restore json (found ns) with
  | none => ⟨true, ns, 0⟩
  | some restore =>
    if !answers.release then ⟨false, ns, 1⟩
    else if !answers.merge then ⟨false, released ns, 2⟩
    else ⟨true, putBack (released ns) restore, 2⟩

end Json
end WeeboSi.PodSecurity
