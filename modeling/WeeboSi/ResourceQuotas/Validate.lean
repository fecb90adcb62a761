import WeeboSi.Lib.Json
import WeeboSi.NetworkProfiles.Resolve
import WeeboSi.ResourceQuotas.Quantity

/-!
# Validating a quota profile

Source: crates/weebo-si-resource-quotas/src/model/template.rs:8-92, validate.rs:36-266 and
crates/weebo-si-crd/src/resource_quotas.rs:70-79. `render` is how the JSON library prints a
value that is no string; a map is a list of members, read by the first match.
-/
namespace WeeboSi.ResourceQuotas
open WeeboSi.Lib
open WeeboSi.NetworkProfiles (TemplateRef)

abbrev StringMap := List (Text × Text)

structure QuotaTemplate where
  spec : Json

structure LimitRangeTemplate where
  spec : Json

structure QuotaProfile where
  key : Text
  quotaRef : Option TemplateRef
  limitRangeRef : Option TemplateRef
  deriving DecidableEq, Repr

/-- What is projected out of an item of a `LimitRange`. -/
structure LimitItem where
  kind : Text
  default : StringMap
  defaultRequest : StringMap
  max : StringMap
  deriving DecidableEq, Repr

/-- A member of an object. -/
def member (value : Json) (key : Text) : Option Json :=
  match value with
  | .object members => members.lookup key
  | _ => none

def asArray : Json → Option (List Json)
  | .array items => some items
  | _ => none

section Read
variable (render : Json → Text)

def stringOf : Json → Text
  | .string text => text
  | other => render other

def stringMap : Option Json → StringMap
  | some (.object members) => members.map fun (key, value) => (key, stringOf render value)
  | _ => []

def QuotaTemplate.hard (quota : QuotaTemplate) : StringMap :=
  stringMap render (member quota.spec "hard".toList)

def nonEmpty : Option Json → Bool
  | none | some .null => false
  | some (.array items) => !items.isEmpty
  | some _ => true

def QuotaTemplate.isScoped (quota : QuotaTemplate) : Bool :=
  nonEmpty (member quota.spec "scopes".toList) || nonEmpty (member quota.spec "scopeSelector".toList)

def kindOf (item : Json) : Text :=
  match member item "type".toList with
  | some (.string text) => text
  | _ => []

def limitItem (item : Json) : LimitItem :=
  ⟨kindOf item, stringMap render (member item "default".toList),
    stringMap render (member item "defaultRequest".toList), stringMap render (member item "max".toList)⟩

/-- `spec.limits`, as they stand. -/
def LimitRangeTemplate.limits (template : LimitRangeTemplate) : List Json :=
  ((member template.spec "limits".toList).bind asArray).getD []

def LimitRangeTemplate.items (template : LimitRangeTemplate) : List LimitItem :=
  template.limits.map (limitItem render)

end Read

/-! ## Violations -/

inductive TemplateKind where
  | resourceQuota | limitRange
  deriving DecidableEq, Repr

inductive ProfileViolation where
  | outsideTemplateNamespace (kind : TemplateKind) (template : TemplateRef)
  | templateNotFound (kind : TemplateKind) (template : TemplateRef)
  | noContainerDefault (constrained : Text)
  | defaultsOutOfOrder (item resource : Text)
  | invalidQuantity (field value : Text)
  | scopedQuota
  deriving DecidableEq, Repr

/-- The compute resource a key of the quota constrains, and whether it is a request. -/
def compute (constrained : Text) : Option (Text × Bool) :=
  if constrained = "requests.cpu".toList ∨ constrained = "cpu".toList then some ("cpu".toList, true)
  else if constrained = "requests.memory".toList ∨ constrained = "memory".toList then
    some ("memory".toList, true)
  else if constrained = "limits.cpu".toList then some ("cpu".toList, false)
  else if constrained = "limits.memory".toList then some ("memory".toList, false)
  else none

def defaulted (item : LimitItem) (resource : Text) (request : Bool) : Bool :=
  (item.default.lookup resource).isSome || (item.max.lookup resource).isSome
    || (request && (item.defaultRequest.lookup resource).isSome)

def containerKind : Text := "Container".toList
def podKind : Text := "Pod".toList

def refViolations (kind : TemplateKind) (template : Option TemplateRef) (found : Bool)
    (templateNamespace : Text) : List ProfileViolation :=
  match template with
  | none => []
  | some template =>
    if template.namespaceName ≠ templateNamespace then [.outsideTemplateNamespace kind template]
    else if !found then [.templateNotFound kind template] else []

def parses (value : Text) : Bool := (Quantity.parse value).toOption.isSome

def hardViolations (items : List LimitItem) (hard : Text × Text) : List ProfileViolation :=
  let (constrained, value) := hard
  (if !parses value && !"count/".toList.isPrefixOf constrained then
      [.invalidQuantity ("hard.".toList ++ constrained) value] else [])
    ++ match compute constrained with
      | some (resource, request) =>
        if (items.filter fun item => item.kind = containerKind).any fun item => defaulted item resource request
        then [] else [.noContainerDefault constrained]
      | none => []

/-- The quantity of a resource, or the violation that it does not parse. -/
def parsedField (item : LimitItem) (field resource : Text) (map : StringMap) :
    List ProfileViolation × Option Quantity :=
  match map.lookup resource with
  | none => ([], none)
  | some value =>
    match Quantity.parse value with
    | .ok quantity => ([], some quantity)
    | .error _ =>
      ([.invalidQuantity ("limits[".toList ++ item.kind ++ "].".toList ++ field ++ ".".toList ++ resource)
        value], none)

/-- Each present quantity is at most the next one. -/
def ordered : List Quantity → Bool
  | a :: b :: rest => decide (a ≤ b) && ordered (b :: rest)
  | _ => true

def resourceViolations (item : LimitItem) (resource : Text) : List ProfileViolation :=
  let request := parsedField item "defaultRequest".toList resource item.defaultRequest
  let limit := parsedField item "default".toList resource item.default
  let max := parsedField item "max".toList resource item.max
  request.1 ++ limit.1 ++ max.1 ++
    (if ordered ([request.2, limit.2, max.2].filterMap id) then []
      else [.defaultsOutOfOrder item.kind resource])

/-- Every resource an item gives a value for, in order. -/
def itemResources (item : LimitItem) : List Text :=
  ((item.default ++ item.defaultRequest ++ item.max).map Prod.fst).eraseDups.insertionSort
    fun a b => textLe a b = true

def validate (render : Json → Text) (profile : QuotaProfile) (quota : Option QuotaTemplate)
    (limits : Option LimitRangeTemplate) (templateNamespace : Text) : List ProfileViolation :=
  let items := (limits.map (LimitRangeTemplate.items render)).getD []
  refViolations .resourceQuota profile.quotaRef quota.isSome templateNamespace
    ++ refViolations .limitRange profile.limitRangeRef limits.isSome templateNamespace
    ++ (match quota with
      | some quota =>
        (if quota.isScoped then [.scopedQuota] else []) ++ (quota.hard render).flatMap (hardViolations items)
      | none => [])
    ++ items.flatMap fun item => (itemResources item).flatMap (resourceViolations item)

structure ValidProfile where
  key : Text
  quota : Option QuotaTemplate
  limits : Option LimitRangeTemplate

def ValidProfile.check (render : Json → Text) (profile : QuotaProfile) (quota : Option QuotaTemplate)
    (limits : Option LimitRangeTemplate) (templateNamespace : Text) :
    Except (List ProfileViolation) ValidProfile :=
  let violations := validate render profile quota limits templateNamespace
  if violations.isEmpty then .ok ⟨profile.key, quota, limits⟩ else .error violations

end WeeboSi.ResourceQuotas
