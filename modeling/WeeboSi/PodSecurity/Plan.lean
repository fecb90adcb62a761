import WeeboSi.PodSecurity.Resolve

/-!
# What a pass writes, and what leaving puts back

Source: crates/weebo-si-pod-security/src/model/plan.rs:12-147 and model/restore.rs:13-59.
-/
namespace WeeboSi.PodSecurity
open WeeboSi.Lib

/-- What the namespace carries that the decision needs. -/
structure Found where
  labels : PodSecurityLabels
  previous : Option Text
  owned : Bool
  foreignOwned : Bool

inductive Plan where
  | apply (labels : PodSecurityLabels) (previous : Text) (current : PodSecurityLabels)
  | unchanged
  | stricterExisting (existing : PodSecurityLevel)
  | observed (synced : Option PodSecurityLevel) (looser : Bool)

structure DesiredState where
  resolution : Resolution
  plan : Plan
  previousLost : Bool
  drift : Bool

/-- A level looser than another; no level is looser than any. -/
def looserThan (found : Option PodSecurityLevel) (level : PodSecurityLevel) : Bool :=
  match found with
  | none => true
  | some found => found < level

section Json
variable (json : JsonText)

def readable (raw : Text) : Bool := (fromPrevious json raw).toOption.isSome

/-- The record a write sends, and whether the first one was lost. -/
def recordFor (found : Found) : Text × Bool :=
  match found.previous with
  | some raw => (raw, !readable json raw)
  | none => if found.owned then (toPrevious json fun _ => none, true) else (toPrevious json found.labels, false)

def plan (resolution : Resolution) (version : PodSecurityVersion) (backend : EffectiveBackend)
    (found : Found) : DesiredState :=
  let current := found.labels
  if backend = .observeSynced then
    ⟨resolution, .observed current.enforce (looserThan current.enforce resolution.level), false, false⟩
  else
    let desired := PodSecurityLabels.desired resolution.level resolution.warnLevel version
    let ours := found.previous.isSome || found.owned
    match (if ours then none else current.enforce).filter fun existing => resolution.level < existing with
    | some existing => ⟨resolution, .stricterExisting existing, false, false⟩
    | none =>
      if found.previous.isSome ∧ current = desired then
        ⟨resolution, .unchanged, !(found.previous.any (readable json)), false⟩
      else
        let (previous, previousLost) := recordFor json found
        ⟨resolution, .apply desired previous current, previousLost, found.previous.isSome && found.foreignOwned⟩

/-- Where labels are written: a stricter level of somebody else is left alone, labels that are
what they should be are left, and otherwise they are applied with the record. -/
theorem plan_labels_cases (resolution : Resolution) (version : PodSecurityVersion) (found : Found) :
    (∃ existing, found.previous = none ∧ found.owned = false ∧ found.labels.enforce = some existing ∧
      resolution.level < existing ∧
      (plan json resolution version .labels found).plan = .stricterExisting existing) ∨
    ((∀ existing, found.previous = none → found.owned = false → found.labels.enforce = some existing →
        existing ≤ resolution.level) ∧
      ((found.previous.isSome = true ∧
        found.labels = PodSecurityLabels.desired resolution.level resolution.warnLevel version ∧
        (plan json resolution version .labels found).plan = .unchanged) ∨
      (plan json resolution version .labels found).plan =
        .apply (PodSecurityLabels.desired resolution.level resolution.warnLevel version)
          (recordFor json found).1 found.labels)) := by
  unfold plan
  simp only [reduceCtorEq, if_false]
  split
  · next existing kept =>
    left
    obtain ⟨given, stricter⟩ := Option.filter_eq_some_iff.mp kept
    split at given
    · cases given
    · next notOurs =>
      simp only [Bool.or_eq_true, Option.isSome_iff_ne_none, not_or, not_not, Bool.not_eq_true] at notOurs
      exact ⟨existing, notOurs.1, notOurs.2, given, of_decide_eq_true stricter, rfl⟩
  · next none_ =>
    right
    constructor
    · intro existing absent unowned given
      simpa [absent, unowned, given] using none_
    · split
      · next same => exact .inl ⟨same.1, same.2, rfl⟩
      · exact .inr rfl

/-- The write that undoes the feature: the keys set back; every other of the six is removed. -/
structure Restore where
  set : PodSecurityLabels
  previousLost : Bool

def Restore.remove (restore : Restore) : List Key := keys.filter fun key => (restore.set key).isNone

def removeAll : Restore := ⟨fun _ => none, true⟩

def restore (found : Found) : Option Restore :=
  match found.previous with
  | some raw =>
    match fromPrevious json raw with
    | .ok previous => some ⟨previous, false⟩
    | .error _ => some removeAll
  | none => if found.owned then some removeAll else none

end Json
end WeeboSi.PodSecurity
