import WeeboSi.PodSecurity.Leaving

/-!
# What annotations can do to a level

The annotation that names a level can only tighten. The record of what was there is an
annotation too, and whoever can write it decides what a pass takes for its own and what leaving
puts back.
-/
namespace WeeboSi.PodSecurity
open WeeboSi.Lib

/-- The namespace without its annotations. -/
def bare (ns : Namespace) : Namespace where
  value
    | .label key => ns.value (.label key)
    | .annotated _ => none
  owners := ns.owners

/-- The level the namespace enforces. -/
def carried (ns : Namespace) : Option PodSecurityLevel := (fromNamespace ns).enforce

/-- No level is looser than any. -/
def strictness : Option PodSecurityLevel → Nat
  | none => 0
  | some level => level.rank + 1

inductive Operation where
  | enforce (pass : Pass)
  | teardown

section Json
variable (json : JsonText)

/-- The namespace after an operation the apiserver accepts. -/
def Operation.run : Operation → Namespace → Namespace
  | .enforce pass, ns => (reconcile json { pass with mode := .enforce, accepted := true } ns).1
  | .teardown, ns => (PodSecurity.teardown json ⟨true, true⟩ ns).ns

/-- The level the record names; none when it cannot be read. -/
def recorded (raw : Text) : Option PodSecurityLevel :=
  (fromPrevious json raw).toOption.bind PodSecurityLabels.enforce

/-- A record that is absent, or under which nothing gets looser. -/
def RecordHarmless : Operation → Namespace → Prop
  | .enforce pass, ns => ns.value previousField = none ∨ pass.backend = .observeSynced ∨
      strictness (carried ns) ≤ strictness (some (pass.resolution ns).level)
  | .teardown, ns => ∀ raw, ns.value previousField = some raw →
      strictness (carried ns) ≤ strictness (recorded json raw)

section Bare
variable (ns : Namespace)

@[simp] theorem carried_bare : carried (bare ns) = carried ns := rfl

@[simp] theorem previous_bare : (bare ns).value previousField = none := rfl

@[simp] theorem owners_bare : (bare ns).owners = ns.owners := rfl

theorem resolution_bare_le (pass : Pass) :
    (pass.resolution (bare ns)).level ≤ (pass.resolution ns).level := by
  have unselected : selected pass.config.config (bare ns) = none := by
    unfold selected
    split <;> rfl
  unfold Pass.resolution
  rw [unselected]
  exact resolve_level_le _ _ _ _

end Bare

theorem strictness_lt_iff (a b : PodSecurityLevel) : strictness (some a) < strictness (some b) ↔ a < b :=
  Nat.succ_lt_succ_iff

theorem strictness_le_iff (a b : PodSecurityLevel) : strictness (some a) ≤ strictness (some b) ↔ a ≤ b :=
  Nat.succ_le_succ_iff

theorem enforce_desired (level warnLevel : PodSecurityLevel) (version : PodSecurityVersion) :
    (PodSecurityLabels.desired level warnLevel version).enforce = some level :=
  PodSecurityLevel.parse_asStr level

theorem carried_applied (ns : Namespace) (level warnLevel : PodSecurityLevel) (version : PodSecurityVersion)
    (previous : Text) : carried (applied ns (.desired level warnLevel version) previous) = some level := by
  have written : (applied ns (.desired level warnLevel version) previous).value Key.enforce.field =
      some level.asStr :=
    ns.value_apply_of_some ours _ _ (applyBody_field _ previous .enforce)
  simp [carried, PodSecurityLabels.enforce, fromNamespace, written]

section Enforce
variable (pass : Pass) (ns : Namespace)

theorem run_of_apply {labels : PodSecurityLabels} {previous : Text} {current : PodSecurityLabels}
    (planned : (pass.desired json ns).plan = .apply labels previous current) :
    (Operation.enforce pass).run json ns = applied ns labels previous := by
  have same : (Pass.desired json { pass with mode := .enforce, accepted := true } ns).plan =
      .apply labels previous current := planned
  simp [Operation.run, reconcile, same]

theorem run_of_other
    (planned : ∀ labels previous current, (pass.desired json ns).plan ≠ .apply labels previous current) :
    (Operation.enforce pass).run json ns = ns := by
  change (reconcile json { pass with mode := .enforce, accepted := true } ns).1 = ns
  unfold reconcile
  split
  · next labels previous current applies => exact absurd applies (planned labels previous current)
  all_goals rfl

end Enforce

section Foreign
variable (ns : Namespace) (foreign : ∀ key : Key, ours ∉ ns.owners key.field)
include foreign

theorem unowned : (found ns).owned = false := by
  simp [found, foreign]

/-- The level after an accepted pass. -/
theorem carried_enforce (pass : Pass) :
    carried ((Operation.enforce pass).run json ns) =
      if pass.backend = .observeSynced then carried ns
      else if ns.value previousField = none ∧
          strictness (some (pass.resolution ns).level) < strictness (carried ns) then carried ns
      else some (pass.resolution ns).level := by
  by_cases observes : pass.backend = .observeSynced
  · rw [if_pos observes, run_of_other]
    simp [Pass.desired, plan, observes]
  · have writes : pass.backend = .labels := by
      cases backend : pass.backend with
      | labels => rfl
      | observeSynced => exact absurd backend observes
    have isDesired : pass.desired json ns =
        plan json (pass.resolution ns) pass.config.config.version .labels (found ns) := by
      rw [Pass.desired, writes]
    rw [if_neg observes]
    obtain ⟨existing, absent, _, level, stricter, planned⟩ | ⟨looser, planned⟩ :=
      plan_labels_cases json (pass.resolution ns) pass.config.config.version (found ns)
    · have kept : carried ns = some existing := level
      have isStricter : strictness (some (pass.resolution ns).level) < strictness (carried ns) := by
        rw [kept, strictness_lt_iff]
        exact stricter
      rw [run_of_other json pass ns (by simp [isDesired, planned]), if_pos ⟨absent, isStricter⟩]
    · rw [if_neg ?_]
      · obtain ⟨_, same, planned⟩ | planned := planned
        · rw [run_of_other json pass ns (by simp [isDesired, planned])]
          have level : carried ns = (found ns).labels.enforce := rfl
          rw [level, same, enforce_desired]
        · rw [run_of_apply json pass ns (isDesired ▸ planned), carried_applied]
      · rintro ⟨absent, stricter⟩
        cases level : carried ns with
        | none => simp [level, strictness] at stricter
        | some existing =>
          rw [level, strictness_lt_iff] at stricter
          exact absurd (looser existing absent (unowned ns foreign) level) (not_le.mpr stricter)

theorem carried_teardown :
    carried (Operation.teardown.run json ns) =
      ((ns.value previousField).map (recorded json)).getD (carried ns) := by
  have isOwned : (found ns).owned = false := unowned ns foreign
  have isPrevious : (found ns).previous = ns.value previousField := rfl
  simp only [Operation.run, PodSecurity.teardown, restore, isPrevious, isOwned]
  cases record : ns.value previousField with
  | none => rfl
  | some raw =>
    have putBack_enforce : ∀ restore : Restore,
        carried (putBack (released ns) restore) = restore.set.enforce := by
      intro restore
      simp [carried, PodSecurityLabels.enforce, fromNamespace, putBack, ManagedObject.mergePatch]
    cases read : fromPrevious json raw with
    | ok previous => simp [read, putBack_enforce, recorded, Except.toOption]
    | error why => simp [read, putBack_enforce, recorded, Except.toOption, removeAll, PodSecurityLabels.enforce]

/-- Annotations leave the namespace at least as strict exactly when its record is harmless. -/
theorem annotations_tighten_iff (operation : Operation) :
    strictness (carried (operation.run json (bare ns))) ≤ strictness (carried (operation.run json ns)) ↔
      RecordHarmless json operation ns := by
  have bareForeign : ∀ key : Key, ours ∉ (bare ns).owners key.field := foreign
  cases operation with
  | teardown =>
    rw [carried_teardown json ns foreign, carried_teardown json (bare ns) bareForeign]
    simp only [previous_bare, carried_bare, Option.map_none, Option.getD_none, RecordHarmless]
    cases ns.value previousField <;> simp
  | enforce pass =>
    rw [carried_enforce json ns foreign, carried_enforce json (bare ns) bareForeign]
    simp only [previous_bare, carried_bare, true_and, RecordHarmless]
    have tightens := (strictness_le_iff _ _).mpr (resolution_bare_le ns pass)
    by_cases observes : pass.backend = .observeSynced
    · simp [observes]
    · simp only [observes, if_false, false_or]
      by_cases absent : ns.value previousField = none
      · simp only [absent, true_and, true_or, iff_true]
        split <;> split <;> omega
      · simp only [absent, false_and, if_false, false_or]
        split <;> omega

end Foreign

end Json

/-! ## A record somebody else wrote -/

/-- The namespace with an annotation of its user's. -/
def annotate (ns : Namespace) (key value : Text) : Namespace :=
  { ns with value := Function.update ns.value (.annotated key) (some value) }

def enforcing (level : PodSecurityLevel) : PodSecurityLabels
  | .enforce => some level.asStr
  | _ => none

theorem foreign_annotate (labels : PodSecurityLabels) (key value : Text) (label : Key) :
    ours ∉ (annotate (labelled labels) key value).owners label.field :=
  (untouched_labelled labels).owners label.field

def baselinePass : Pass :=
  { restrictedPass with config := ⟨⟨.baseline, .baseline, "latest".toList, .labels, "level".toList⟩, []⟩ }

def emptyJson : JsonText := printed "\x7b\x7d".toList (.object [])

theorem annotations_tighten_iff_selected :
    strictness (carried ((Operation.enforce baselinePass).run emptyJson
        (bare (annotate (labelled (enforcing .privileged)) "level".toList "restricted".toList)))) ≤
      strictness (carried ((Operation.enforce baselinePass).run emptyJson
        (annotate (labelled (enforcing .privileged)) "level".toList "restricted".toList))) :=
  (annotations_tighten_iff emptyJson _ (foreign_annotate _ _ _) (.enforce baselinePass)).mpr
    (.inl (by decide +kernel))

/-- With an empty record the pass takes the namespace for its own, and lowers the level an admin
has set. -/
theorem record_loosens_level :
    (∀ key : Key,
        ours ∉ (annotate (labelled (enforcing .restricted)) previousKey "\x7b\x7d".toList).owners key.field) ∧
    strictness (carried ((Operation.enforce baselinePass).run emptyJson
        (annotate (labelled (enforcing .restricted)) previousKey "\x7b\x7d".toList))) <
      strictness (carried ((Operation.enforce baselinePass).run emptyJson
        (bare (annotate (labelled (enforcing .restricted)) previousKey "\x7b\x7d".toList)))) := by
  refine ⟨foreign_annotate _ _ _, ?_⟩
  decide +kernel

end WeeboSi.PodSecurity
