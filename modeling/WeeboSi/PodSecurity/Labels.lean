import Mathlib.Data.Fintype.Pi
import WeeboSi.Lib.Json

/-!
# The six labels

Source: crates/weebo-si-pod-security/src/model/labels.rs:8-140 and
crates/weebo-si-crd/src/pod_security.rs:20-110. A set of labels holds no other key, so it is a
function of the six. How the JSON library prints and reads a value is `JsonText`.
-/
namespace WeeboSi.PodSecurity
open WeeboSi.Lib

/-- The variant order is the strictness order. -/
inductive PodSecurityLevel where
  | privileged | baseline | restricted
  deriving DecidableEq, Repr

namespace PodSecurityLevel

def rank : PodSecurityLevel → Nat
  | privileged => 0
  | baseline => 1
  | restricted => 2

theorem rank_injective : Function.Injective rank := by
  intro a b same
  cases a <;> cases b <;> first | rfl | cases same

instance : LinearOrder PodSecurityLevel := LinearOrder.lift' rank rank_injective

def asStr : PodSecurityLevel → Text
  | privileged => "privileged".toList
  | baseline => "baseline".toList
  | restricted => "restricted".toList

def parse (raw : Text) : Option PodSecurityLevel :=
  if raw = "privileged".toList then some privileged
  else if raw = "baseline".toList then some baseline
  else if raw = "restricted".toList then some restricted
  else none

@[simp] theorem parse_asStr (level : PodSecurityLevel) : parse level.asStr = some level := by
  cases level <;> decide

end PodSecurityLevel

abbrev PodSecurityVersion := Text

inductive Key where
  | enforce | enforceVersion | warn | warnVersion | audit | auditVersion
  deriving DecidableEq, Repr

namespace Key

instance : Fintype Key :=
  ⟨{enforce, enforceVersion, warn, warnVersion, audit, auditVersion}, fun key => by cases key <;> decide⟩

def suffix : Key → Text
  | enforce => "enforce".toList
  | enforceVersion => "enforce-version".toList
  | warn => "warn".toList
  | warnVersion => "warn-version".toList
  | audit => "audit".toList
  | auditVersion => "audit-version".toList

def name (key : Key) : Text := "pod-security.kubernetes.io/".toList ++ key.suffix

theorem name_injective : Function.Injective name := by
  intro a b same
  have suffixes : a.suffix = b.suffix := List.append_cancel_left same
  cases a <;> cases b <;> first | rfl | exact absurd suffixes (by decide)

end Key

def keys : List Key := [.enforce, .enforceVersion, .warn, .warnVersion, .audit, .auditVersion]

/-- The keys in the order of a sorted map. -/
def sortedKeys : List Key := [.audit, .auditVersion, .enforce, .enforceVersion, .warn, .warnVersion]

def keyOf (name : Text) : Option Key := keys.find? fun key => key.name = name

theorem mem_keys (key : Key) : key ∈ keys := by cases key <;> decide

theorem keyOf_name (key : Key) : keyOf key.name = some key := by
  simp only [keyOf, Key.name_injective.eq_iff]
  cases key <;> rfl

def previousKey : Text := "hardening.weebo.io/pod-security-previous".toList

def fieldManager : Text := "weebo-si-pod-security".toList

abbrev PodSecurityLabels := Key → Option Text

namespace PodSecurityLabels

def desired (level warnLevel : PodSecurityLevel) (version : PodSecurityVersion) : PodSecurityLabels
  | .enforce => some level.asStr
  | .warn | .audit => some warnLevel.asStr
  | .enforceVersion | .warnVersion | .auditVersion => some version

/-- The level the labels enforce, if it is one the apiserver reads. -/
def enforce (labels : PodSecurityLabels) : Option PodSecurityLevel :=
  (labels .enforce).bind PodSecurityLevel.parse

end PodSecurityLabels

/-! ## The record of what was there -/

/-- `serde_json`: a value as text, and text read as a value. -/
structure JsonText where
  toText : Json → Text
  fromText : Text → Except Text Json

section Previous
variable (json : JsonText)

def toObject (labels : PodSecurityLabels) : Json :=
  .object (sortedKeys.filterMap fun key => (labels key).map fun value => (key.name, .string value))

def toPrevious (labels : PodSecurityLabels) : Text := json.toText (toObject labels)

/-- One member of the record. -/
def readMember (labels : PodSecurityLabels) (pair : Text × Json) : Except Text PodSecurityLabels :=
  match keyOf pair.1, pair.2 with
  | none, _ => .error (pair.1 ++ " is not a Pod Security label".toList)
  | some key, .string value => .ok (Function.update labels key (some value))
  | some _, _ => .error (pair.1 ++ " is not a string".toList)

def fromPrevious (raw : Text) : Except Text PodSecurityLabels :=
  match json.fromText raw with
  | .error why => .error why
  | .ok (.object members) => members.foldlM readMember fun _ => none
  | .ok _ => .error "not a JSON object".toList

/-- What is printed of the labels is read back. -/
def JsonText.Reads (labels : PodSecurityLabels) : Prop :=
  json.fromText (json.toText (toObject labels)) = .ok (toObject labels)

theorem foldlM_members (labels start : PodSecurityLabels) (listed : List Key) (distinct : listed.Nodup) :
    (listed.filterMap fun key => (labels key).map fun value => (key.name, Json.string value)).foldlM
      readMember start =
      Except.ok (fun key => if key ∈ listed then (labels key).or (start key) else start key) := by
  induction listed generalizing start with
  | nil => rfl
  | cons first rest ih =>
    obtain ⟨absent, distinct⟩ := List.nodup_cons.mp distinct
    cases found : labels first with
    | none =>
      rw [List.filterMap_cons_none (by simp [found]), ih start distinct]
      congr 1
      funext key
      by_cases same : key = first
      · simp [same, absent, found]
      · simp [same]
    | some value =>
      rw [List.filterMap_cons_some (b := (first.name, Json.string value)) (by simp [found]), List.foldlM_cons]
      have read : readMember start (first.name, Json.string value) =
          .ok (Function.update start first (some value)) := by
        simp only [readMember, keyOf_name]
      rw [read]
      refine (ih (Function.update start first (some value)) distinct).trans ?_
      congr 1
      funext key
      by_cases same : key = first
      · simp [same, absent, found]
      · simp [same]

theorem fromPrevious_toPrevious (labels : PodSecurityLabels) (reads : json.Reads labels) :
    fromPrevious json (toPrevious json labels) = .ok labels := by
  have everyKey : ∀ key, key ∈ sortedKeys := by
    intro key
    cases key <;> decide
  unfold fromPrevious toPrevious
  rw [reads]
  have read := foldlM_members labels (fun _ => none) sortedKeys (by decide)
  simpa [toObject, everyKey] using read

end Previous
end WeeboSi.PodSecurity
