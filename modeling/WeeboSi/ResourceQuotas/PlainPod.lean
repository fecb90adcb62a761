import WeeboSi.ResourceQuotas.Validate

/-!
# A plain pod under a validated profile

Source: crates/weebo-si-resource-quotas/src/model/validate.rs:114-266. The validation reads the
defaults and the maximum of each item. What the apiserver admits by is the whole item: a pod
that states nothing is given the container's defaults, and both the container's and the pod's
bounds are then tested, from below as well.
-/
namespace WeeboSi.ResourceQuotas
open WeeboSi.Lib

/-! ## What the apiserver does -/

/-- An item with the field the validation does not read. -/
structure BoundItem extends LimitItem where
  min : StringMap

def boundItem (render : Json → Text) (item : Json) : BoundItem :=
  { limitItem render item with min := stringMap render (member item "min".toList) }

def LimitRangeTemplate.bounds (render : Json → Text) (template : LimitRangeTemplate) : List BoundItem :=
  template.limits.map (boundItem render)

def boundsOf (render : Json → Text) (limits : Option LimitRangeTemplate) : List BoundItem :=
  (limits.map (LimitRangeTemplate.bounds render)).getD []

/-- The limit an item gives a container that states none. -/
def LimitItem.limit (item : LimitItem) (resource : Text) : Option Text :=
  (item.default.lookup resource).or (item.max.lookup resource)

def LimitItem.request (item : LimitItem) (resource : Text) : Option Text :=
  (item.defaultRequest.lookup resource).or (item.limit resource)

section Defaults
variable (items : List BoundItem)

def containerItems : List BoundItem := items.filter fun item => item.kind = containerKind

/-- The limit of the container after defaulting; a later item overrides an earlier one. -/
def limitOf (resource : Text) : Option Text :=
  (containerItems items).reverse.findSome? fun item => item.limit resource

def requestOf (resource : Text) : Option Text :=
  (containerItems items).reverse.findSome? fun item => item.request resource

end Defaults

/-- One quantity is at most another. -/
def AtMost (a b : Text) : Prop := ∃ x y, Quantity.parse a = .ok x ∧ Quantity.parse b = .ok y ∧ x ≤ y

/-- What the apiserver refuses no `LimitRange` for: one item a type, and no lower bound above
what the item itself gives. -/
structure Accepted (items : List BoundItem) : Prop where
  kinds : (items.map fun item => item.kind).Nodup
  lower : ∀ item ∈ items, ∀ resource low, item.min.lookup resource = some low → ∀ value,
    (item.defaultRequest.lookup resource = some value ∨ item.default.lookup resource = some value ∨
      item.max.lookup resource = some value) → AtMost low value

section Admission
variable (items : List BoundItem) (unstated : Text → Bool)

def MinMet (resource low : Text) : Prop :=
  (∃ request, requestOf items resource = some request ∧ AtMost low request) ∧
    ∀ limit, limitOf items resource = some limit → AtMost low limit

/-- An upper bound needs a limit to be stated. -/
def MaxMet (resource high : Text) : Prop :=
  (∃ limit, limitOf items resource = some limit ∧ AtMost limit high) ∧
    ∀ request, requestOf items resource = some request → AtMost request high

/-- The bounds of every item hold of what the pod does not state itself. -/
def BoundsMet : Prop :=
  ∀ item ∈ items, item.kind = containerKind ∨ item.kind = podKind → ∀ resource, unstated resource = true →
    (∀ low, item.min.lookup resource = some low → MinMet items resource low) ∧
      ∀ high, item.max.lookup resource = some high → MaxMet items resource high

/-- Every compute resource of the quota is stated. -/
def QuotaMet (hard : StringMap) : Prop :=
  ∀ pair ∈ hard, ∀ resource request, compute pair.1 = some (resource, request) →
    (if request then requestOf items resource else limitOf items resource).isSome = true

/-- A pod of one container that states no cpu and no memory; it may state other resources. -/
structure PlainPod where
  unstated : Text → Bool
  cpu : unstated "cpu".toList = true
  memory : unstated "memory".toList = true

def Admitted (hard : StringMap) (pod : PlainPod) : Prop :=
  BoundsMet items pod.unstated ∧ QuotaMet items hard

/-- The bounds the validation does not look at are within what the container items give. -/
structure UnreadBoundsMet : Prop where
  lower : ∀ item ∈ items, item.kind = containerKind → ∀ resource low, unstated resource = true →
    item.min.lookup resource = some low → (item.request resource).isSome = true
  podLower : ∀ pod ∈ items, pod.kind = podKind → ∀ resource low, unstated resource = true →
    pod.min.lookup resource = some low → ∃ item ∈ items, item.kind = containerKind ∧
      ∃ request, item.request resource = some request ∧ AtMost low request
  podUpper : ∀ pod ∈ items, pod.kind = podKind → ∀ resource high, unstated resource = true →
    pod.max.lookup resource = some high → ∃ item ∈ items, item.kind = containerKind ∧
      ∃ limit, item.limit resource = some limit ∧ AtMost limit high

end Admission

/-! ## Comparing -/

theorem AtMost.trans {a b c : Text} (first : AtMost a b) (second : AtMost b c) : AtMost a c := by
  obtain ⟨x, y, parsedA, parsedB, le⟩ := first
  obtain ⟨y', z, parsedB', parsedC, le'⟩ := second
  rw [parsedB] at parsedB'
  cases parsedB'
  exact ⟨x, z, parsedA, parsedC, Quantity.le_trans le le'⟩

theorem AtMost.refl {a : Text} (parsed : parses a = true) : AtMost a a := by
  unfold parses at parsed
  cases quantity : Quantity.parse a with
  | error _ => simp [quantity, Except.toOption] at parsed
  | ok x => exact ⟨x, x, quantity, quantity, Int.le_refl _⟩

/-! ## What a valid item has -/

theorem parsedField_nil (item : LimitItem) (field resource : Text) (map : StringMap)
    (none_ : (parsedField item field resource map).1 = []) (value : Text)
    (found : map.lookup resource = some value) :
    ∃ x, Quantity.parse value = .ok x ∧ (parsedField item field resource map).2 = some x := by
  unfold parsedField at none_ ⊢
  simp only [found] at none_ ⊢
  cases quantity : Quantity.parse value with
  | error _ => simp [quantity] at none_
  | ok x => exact ⟨x, rfl, by simp⟩

structure InOrder (item : LimitItem) (resource : Text) : Prop where
  parsed : ∀ value, (item.defaultRequest.lookup resource = some value ∨
    item.default.lookup resource = some value ∨ item.max.lookup resource = some value) → parses value = true
  requestLe : ∀ request value, item.defaultRequest.lookup resource = some request →
    (item.default.lookup resource = some value ∨ item.max.lookup resource = some value) → AtMost request value
  limitLe : ∀ limit high, item.default.lookup resource = some limit → item.max.lookup resource = some high →
    AtMost limit high

/-- Neighbours in order put every earlier quantity below every later one. -/
theorem ordered_three (request limit max : Option Quantity)
    (order : ordered ([request, limit, max].filterMap id) = true) :
    (∀ x ∈ request, ∀ y ∈ limit, x ≤ y) ∧ (∀ x ∈ request, ∀ y ∈ max, x ≤ y) ∧
      ∀ x ∈ limit, ∀ y ∈ max, x ≤ y := by
  cases request <;> cases limit <;> cases max <;> simp_all [ordered]
  exact Quantity.le_trans order.1 order.2

theorem atMost_of_fields {first second : Text} {a b : Option Quantity} (le : ∀ x ∈ a, ∀ y ∈ b, x ≤ y)
    (left : ∃ x, Quantity.parse first = .ok x ∧ a = some x)
    (right : ∃ y, Quantity.parse second = .ok y ∧ b = some y) : AtMost first second := by
  obtain ⟨x, parsedX, isX⟩ := left
  obtain ⟨y, parsedY, isY⟩ := right
  exact ⟨x, y, parsedX, parsedY, le x isX y isY⟩

theorem inOrder_of_violations (item : LimitItem) (resource : Text)
    (none_ : resourceViolations item resource = []) : InOrder item resource := by
  unfold resourceViolations at none_
  simp only [List.append_eq_nil_iff, ite_eq_left_iff, reduceCtorEq, imp_false, Bool.not_eq_true,
    Bool.not_eq_false] at none_
  obtain ⟨⟨⟨request, limit⟩, max⟩, order⟩ := none_
  have requestField := parsedField_nil item _ resource _ request
  have limitField := parsedField_nil item _ resource _ limit
  have maxField := parsedField_nil item _ resource _ max
  obtain ⟨requestLimit, requestMax, limitMax⟩ := ordered_three _ _ _ order
  refine ⟨?_, ?_, ?_⟩
  · intro value found
    have parsed : ∃ x, Quantity.parse value = .ok x := by
      obtain found | found | found := found
      · exact (requestField value found).imp fun _ both => both.1
      · exact (limitField value found).imp fun _ both => both.1
      · exact (maxField value found).imp fun _ both => both.1
    obtain ⟨x, parsed⟩ := parsed
    simp [parses, parsed, Except.toOption]
  · intro request value found next
    obtain next | next := next
    · exact atMost_of_fields requestLimit (requestField request found) (limitField value next)
    · exact atMost_of_fields requestMax (requestField request found) (maxField value next)
  · intro limit high found next
    exact atMost_of_fields limitMax (limitField limit found) (maxField high next)

theorem lookup_none_of_unlisted (item : LimitItem) (resource : Text)
    (unlisted : resource ∉ itemResources item) :
    item.default.lookup resource = none ∧ item.defaultRequest.lookup resource = none ∧
      item.max.lookup resource = none := by
  simp only [itemResources, List.mem_insertionSort, List.mem_eraseDups, List.map_append, List.mem_append,
    not_or, List.mem_map, not_exists, not_and] at unlisted
  obtain ⟨⟨noDefault, noRequest⟩, noMax⟩ := unlisted
  have absent : ∀ map : StringMap, (∀ pair ∈ map, ¬pair.1 = resource) → map.lookup resource = none := by
    intro map missing
    rw [List.lookup_eq_none_iff]
    intro pair pairMem
    simpa using fun same : resource = pair.1 => missing pair pairMem same.symm
  exact ⟨absent _ noDefault, absent _ noRequest, absent _ noMax⟩

theorem inOrder_of_item (item : LimitItem)
    (none_ : (itemResources item).flatMap (resourceViolations item) = []) (resource : Text) :
    InOrder item resource := by
  by_cases listed : resource ∈ itemResources item
  · exact inOrder_of_violations item resource (List.flatMap_eq_nil_iff.mp none_ resource listed)
  · -- what no map of the item names is in no field
    obtain ⟨noDefault, noRequest, noMax⟩ := lookup_none_of_unlisted item resource listed
    constructor <;> simp [noDefault, noRequest, noMax]

theorem limit_field {item : LimitItem} {resource limit : Text} (given : item.limit resource = some limit) :
    item.default.lookup resource = some limit ∨ item.max.lookup resource = some limit := by
  obtain stated | ⟨_, bound⟩ := Option.or_eq_some_iff.mp given
  · exact .inl stated
  · exact .inr bound

theorem request_field {item : LimitItem} {resource request : Text}
    (asked : item.request resource = some request) :
    item.defaultRequest.lookup resource = some request ∨ item.limit resource = some request := by
  obtain stated | ⟨_, given⟩ := Option.or_eq_some_iff.mp asked
  · exact .inl stated
  · exact .inr given

section Given
variable {item : LimitItem} {resource : Text} (order : InOrder item resource)
include order

theorem limit_le_max {limit high : Text} (given : item.limit resource = some limit)
    (bound : item.max.lookup resource = some high) : AtMost limit high := by
  obtain stated | same := limit_field given
  · exact order.limitLe limit high stated bound
  · rw [bound, Option.some.injEq] at same
    exact same ▸ AtMost.refl (order.parsed high (.inr (.inr bound)))

theorem request_le_limit {request limit : Text} (asked : item.request resource = some request)
    (given : item.limit resource = some limit) : AtMost request limit := by
  obtain stated | same := request_field asked
  · exact order.requestLe request limit stated (limit_field given)
  · rw [given, Option.some.injEq] at same
    exact same ▸ AtMost.refl (order.parsed limit (.inr (limit_field given)))

end Given

theorem limit_isSome_of_max {item : LimitItem} {resource high : Text}
    (bound : item.max.lookup resource = some high) : (item.limit resource).isSome = true := by
  simp [LimitItem.limit, bound]

theorem given_of_defaulted {item : LimitItem} {resource : Text} {request : Bool}
    (covers : defaulted item resource request = true) :
    (if request then item.request resource else item.limit resource).isSome = true := by
  cases request with
  | true => simpa [defaulted, LimitItem.request, LimitItem.limit, or_comm, or_assoc, or_left_comm] using covers
  | false => simpa [defaulted, LimitItem.limit] using covers

/-! ## What a passed check has -/

theorem check_ok_iff (render : Json → Text) (profile : QuotaProfile) (quota : Option QuotaTemplate)
    (limits : Option LimitRangeTemplate) (templateNamespace : Text) (valid : ValidProfile) :
    ValidProfile.check render profile quota limits templateNamespace = .ok valid ↔
      validate render profile quota limits templateNamespace = [] ∧ valid = ⟨profile.key, quota, limits⟩ := by
  unfold ValidProfile.check
  cases validate render profile quota limits templateNamespace with
  | nil => simp [eq_comm]
  | cons => simp

section Checked
variable {render : Json → Text} {profile : QuotaProfile} {quota : Option QuotaTemplate}
  {limits : Option LimitRangeTemplate} {templateNamespace : Text} {valid : ValidProfile}
  (passed : ValidProfile.check render profile quota limits templateNamespace = .ok valid)
include passed

theorem inOrder_of_check (item : BoundItem) (listed : item ∈ boundsOf render limits) (resource : Text) :
    InOrder item.toLimitItem resource := by
  have none_ := ((check_ok_iff _ _ _ _ _ _).mp passed).1
  unfold validate at none_
  simp only [List.append_eq_nil_iff] at none_
  cases limits with
  | none => cases listed
  | some template =>
    obtain ⟨json, jsonMem, rfl⟩ := List.mem_map.mp listed
    exact inOrder_of_item _ (List.flatMap_eq_nil_iff.mp none_.2 _ (List.mem_map_of_mem jsonMem)) resource

/-- The compute keys of the quota are covered by an item of the container. -/
theorem covered_of_check (template : QuotaTemplate) (isQuota : quota = some template)
    (pair : Text × Text) (listed : pair ∈ template.hard render) (resource : Text) (request : Bool)
    (constrained : compute pair.1 = some (resource, request)) :
    ∃ item ∈ boundsOf render limits, item.kind = containerKind ∧
      defaulted item.toLimitItem resource request = true := by
  have none_ := ((check_ok_iff _ _ _ _ _ _).mp passed).1
  unfold validate at none_
  simp only [List.append_eq_nil_iff, isQuota] at none_
  have atPair := List.flatMap_eq_nil_iff.mp none_.1.2.2 pair listed
  unfold hardViolations at atPair
  simp only [constrained, List.append_eq_nil_iff, ite_eq_left_iff, reduceCtorEq, imp_false, not_not] at atPair
  obtain ⟨item, itemMem, covers⟩ := List.any_eq_true.mp atPair.2
  obtain ⟨itemMem, isContainer⟩ := List.mem_filter.mp itemMem
  cases limits with
  | none => cases itemMem
  | some limits =>
    obtain ⟨json, jsonMem, rfl⟩ := List.mem_map.mp itemMem
    exact ⟨boundItem render json, List.mem_map_of_mem jsonMem, of_decide_eq_true isContainer, covers⟩

end Checked

/-! ## The one container item -/

section Admitted
variable {items : List BoundItem} (accepted : Accepted items)
include accepted

theorem container_unique {item other : BoundItem} (itemMem : item ∈ items) (otherMem : other ∈ items)
    (isContainer : item.kind = containerKind) (otherContainer : other.kind = containerKind) : other = item :=
  List.inj_on_of_nodup_map accepted.kinds otherMem itemMem (otherContainer.trans isContainer.symm)

theorem findSome?_container (read : BoundItem → Option Text) (value : Text) :
    (containerItems items).reverse.findSome? read = some value ↔
      ∃ item ∈ items, item.kind = containerKind ∧ read item = some value := by
  have memContainers : ∀ item,
      item ∈ (containerItems items).reverse ↔ item ∈ items ∧ item.kind = containerKind := by
    intro item
    simp [containerItems]
  constructor
  · intro found
    obtain ⟨item, itemMem, reads⟩ := List.exists_of_findSome?_eq_some found
    obtain ⟨itemMem, isContainer⟩ := (memContainers item).mp itemMem
    exact ⟨item, itemMem, isContainer, reads⟩
  · rintro ⟨item, itemMem, isContainer, reads⟩
    refine findSome?_of_mem read _ item value reads ?_ ((memContainers item).mpr ⟨itemMem, isContainer⟩)
    intro other otherMem
    obtain ⟨otherMem, otherContainer⟩ := (memContainers other).mp otherMem
    rw [container_unique accepted itemMem otherMem isContainer otherContainer]
    exact .inr reads

theorem limitOf_iff (resource limit : Text) :
    limitOf items resource = some limit ↔
      ∃ item ∈ items, item.kind = containerKind ∧ item.limit resource = some limit :=
  findSome?_container accepted (fun item => item.limit resource) limit

theorem requestOf_iff (resource request : Text) :
    requestOf items resource = some request ↔
      ∃ item ∈ items, item.kind = containerKind ∧ item.request resource = some request :=
  findSome?_container accepted (fun item => item.request resource) request

variable (order : ∀ item ∈ items, ∀ resource, InOrder item.toLimitItem resource)
include order

theorem requestOf_le_limitOf {resource request limit : Text} (asked : requestOf items resource = some request)
    (given : limitOf items resource = some limit) : AtMost request limit := by
  obtain ⟨item, itemMem, isContainer, asks⟩ := (requestOf_iff accepted resource request).mp asked
  obtain ⟨other, otherMem, otherContainer, gives⟩ := (limitOf_iff accepted resource limit).mp given
  rw [container_unique accepted itemMem otherMem isContainer otherContainer] at gives
  exact request_le_limit (order item itemMem resource) asks gives

theorem maxMet_of_limit {resource high limit : Text} (given : limitOf items resource = some limit)
    (le : AtMost limit high) : MaxMet items resource high := by
  refine ⟨⟨limit, given, le⟩, ?_⟩
  intro request asked
  exact (requestOf_le_limitOf accepted order asked given).trans le

theorem minMet_of_request {resource low request : Text} (asked : requestOf items resource = some request)
    (le : AtMost low request) : MinMet items resource low := by
  refine ⟨⟨request, asked, le⟩, ?_⟩
  intro limit given
  exact le.trans (requestOf_le_limitOf accepted order asked given)

/-- The container's own bounds hold of what its item gives. -/
theorem container_bounds {item : BoundItem} (itemMem : item ∈ items) (isContainer : item.kind = containerKind)
    (resource : Text) :
    (∀ low, item.min.lookup resource = some low → (item.request resource).isSome = true →
        MinMet items resource low) ∧
      ∀ high, item.max.lookup resource = some high → MaxMet items resource high := by
  constructor
  · intro low bound asks
    obtain ⟨request, asks⟩ := Option.isSome_iff_exists.mp asks
    refine minMet_of_request accepted order
      ((requestOf_iff accepted resource request).mpr ⟨item, itemMem, isContainer, asks⟩) ?_
    refine accepted.lower item itemMem resource low bound request ?_
    obtain stated | given := request_field asks
    · exact .inl stated
    · exact .inr (limit_field given)
  · intro high bound
    obtain ⟨limit, gives⟩ := Option.isSome_iff_exists.mp (limit_isSome_of_max bound)
    exact maxMet_of_limit accepted order
      ((limitOf_iff accepted resource limit).mpr ⟨item, itemMem, isContainer, gives⟩)
      (limit_le_max (order item itemMem resource) gives bound)

theorem boundsMet_iff (unstated : Text → Bool) : BoundsMet items unstated ↔ UnreadBoundsMet items unstated := by
  constructor
  · intro met
    refine ⟨?_, ?_, ?_⟩
    · intro item itemMem isContainer resource low isUnstated bound
      obtain ⟨⟨request, asked, _⟩, _⟩ := (met item itemMem (.inl isContainer) resource isUnstated).1 low bound
      obtain ⟨other, otherMem, otherContainer, asks⟩ := (requestOf_iff accepted resource request).mp asked
      rw [container_unique accepted itemMem otherMem isContainer otherContainer] at asks
      simp [asks]
    · intro pod podMem isPod resource low isUnstated bound
      obtain ⟨⟨request, asked, le⟩, _⟩ := (met pod podMem (.inr isPod) resource isUnstated).1 low bound
      obtain ⟨item, itemMem, isContainer, asks⟩ := (requestOf_iff accepted resource request).mp asked
      exact ⟨item, itemMem, isContainer, request, asks, le⟩
    · intro pod podMem isPod resource high isUnstated bound
      obtain ⟨⟨limit, given, le⟩, _⟩ := (met pod podMem (.inr isPod) resource isUnstated).2 high bound
      obtain ⟨item, itemMem, isContainer, gives⟩ := (limitOf_iff accepted resource limit).mp given
      exact ⟨item, itemMem, isContainer, limit, gives, le⟩
  · intro unread item itemMem kind resource isUnstated
    obtain isContainer | isPod := kind
    · obtain ⟨lower, upper⟩ := container_bounds accepted order itemMem isContainer resource
      exact ⟨fun low bound =>
          lower low bound (unread.lower item itemMem isContainer resource low isUnstated bound),
        upper⟩
    · constructor
      · intro low bound
        obtain ⟨other, otherMem, isContainer, request, asks, le⟩ :=
          unread.podLower item itemMem isPod resource low isUnstated bound
        exact minMet_of_request accepted order
          ((requestOf_iff accepted resource request).mpr ⟨other, otherMem, isContainer, asks⟩) le
      · intro high bound
        obtain ⟨other, otherMem, isContainer, limit, gives, le⟩ :=
          unread.podUpper item itemMem isPod resource high isUnstated bound
        exact maxMet_of_limit accepted order
          ((limitOf_iff accepted resource limit).mpr ⟨other, otherMem, isContainer, gives⟩) le

end Admitted

/-! ## Admission -/

section Profile
variable {render : Json → Text} {profile : QuotaProfile} {quota : Option QuotaTemplate}
  {limits : Option LimitRangeTemplate} {templateNamespace : Text} {valid : ValidProfile}
  (passed : ValidProfile.check render profile quota limits templateNamespace = .ok valid)
  (accepted : Accepted (boundsOf render limits))
include passed accepted

theorem quotaMet_of_check :
    QuotaMet (boundsOf render limits) ((quota.map (QuotaTemplate.hard render)).getD []) := by
  intro pair listed resource request constrained
  cases isQuota : quota with
  | none =>
    rw [isQuota] at listed
    cases listed
  | some template =>
    rw [isQuota] at listed
    obtain ⟨item, itemMem, isContainer, covers⟩ :=
      covered_of_check passed template isQuota pair listed resource request constrained
    have given := given_of_defaulted covers
    cases request with
    | true =>
      obtain ⟨value, asks⟩ := Option.isSome_iff_exists.mp given
      exact Option.isSome_iff_exists.mpr
        ⟨value, (requestOf_iff accepted resource value).mpr ⟨item, itemMem, isContainer, asks⟩⟩
    | false =>
      obtain ⟨value, gives⟩ := Option.isSome_iff_exists.mp given
      exact Option.isSome_iff_exists.mpr
        ⟨value, (limitOf_iff accepted resource value).mpr ⟨item, itemMem, isContainer, gives⟩⟩

/-- A plain pod is admitted under a profile that passed the check exactly when the bounds left
out of the check hold of the container's defaults. -/
theorem plain_pod_admitted_iff (pod : PlainPod) :
    Admitted (boundsOf render limits) ((quota.map (QuotaTemplate.hard render)).getD []) pod ↔
      UnreadBoundsMet (boundsOf render limits) pod.unstated := by
  constructor
  · intro admitted
    exact (boundsMet_iff accepted (inOrder_of_check passed) pod.unstated).mp admitted.1
  · intro unread
    exact ⟨(boundsMet_iff accepted (inOrder_of_check passed) pod.unstated).mpr unread,
      quotaMet_of_check passed accepted⟩

end Profile

def barePod : PlainPod := ⟨fun _ => true, rfl, rfl⟩

def cpuProfile : QuotaProfile :=
  ⟨"cpu".toList, some ⟨"quota".toList, "templates".toList⟩, some ⟨"limits".toList, "templates".toList⟩⟩

def cpuQuota : QuotaTemplate :=
  ⟨.object [("hard".toList, .object [("requests.cpu".toList, .string "4".toList)])]⟩

def podItem : Json :=
  .object [("type".toList, .string podKind), ("max".toList, .object [("cpu".toList, .string "2".toList)])]

def containerItem : Json :=
  .object
    [("type".toList, .string containerKind),
      ("default".toList, .object [("cpu".toList, .string "500m".toList)])]

def limitRange (limits : List Json) : LimitRangeTemplate := ⟨.object [("limits".toList, .array limits)]⟩

theorem plain_pod_admitted_iff_cpu :
    Admitted (boundsOf (fun _ => []) (some (limitRange [containerItem, podItem])))
      (cpuQuota.hard fun _ => []) barePod := by
  have passed : ValidProfile.check (fun _ => []) cpuProfile (some cpuQuota)
      (some (limitRange [containerItem, podItem])) "templates".toList =
        .ok ⟨"cpu".toList, some cpuQuota, some (limitRange [containerItem, podItem])⟩ :=
    (check_ok_iff _ _ _ _ _ _).mpr ⟨by decide +kernel, rfl⟩
  have accepted : Accepted (boundsOf (fun _ => []) (some (limitRange [containerItem, podItem]))) := by
    refine ⟨by decide +kernel, ?_⟩
    intro item itemMem resource low bound
    obtain rfl | rfl := List.mem_pair.mp itemMem
    · cases bound
    · cases bound
  refine (plain_pod_admitted_iff passed accepted barePod).mpr ⟨?_, ?_, ?_⟩
  · intro item itemMem isContainer resource low _ bound
    obtain rfl | rfl := List.mem_pair.mp itemMem
    · cases bound
    · cases bound
  · intro item itemMem isPod resource low _ bound
    obtain rfl | rfl := List.mem_pair.mp itemMem
    · cases bound
    · cases bound
  · intro item itemMem isPod resource high _ bound
    obtain rfl | rfl := List.mem_pair.mp itemMem
    · exact absurd isPod (by decide)
    · obtain ⟨before, after, isMap, _⟩ := List.lookup_eq_some_iff.mp bound
      have pairMem : (resource, high) ∈ (boundItem (fun _ => []) podItem).max := by simp [isMap]
      cases List.mem_singleton.mp pairMem
      exact ⟨_, List.mem_cons_self, rfl, "500m".toList, rfl, ⟨500000000⟩, ⟨2000000000⟩, by decide +kernel,
        by decide +kernel, by decide⟩

/-- A maximum on pods alone: nothing gives the container a limit. -/
theorem pod_max_blocks :
    ValidProfile.check (fun _ => []) ⟨"cpu".toList, none, some ⟨"limits".toList, "templates".toList⟩⟩ none
        (some (limitRange [podItem])) "templates".toList =
      .ok ⟨"cpu".toList, none, some (limitRange [podItem])⟩ ∧
    Accepted (boundsOf (fun _ => []) (some (limitRange [podItem]))) ∧
    ¬Admitted (boundsOf (fun _ => []) (some (limitRange [podItem]))) [] barePod := by
  refine ⟨(check_ok_iff _ _ _ _ _ _).mpr ⟨by decide +kernel, rfl⟩, ⟨List.nodup_singleton _, ?_⟩, ?_⟩
  · intro item itemMem resource low bound
    cases List.mem_singleton.mp itemMem
    cases bound
  · intro admitted
    have bound : (boundItem (fun _ => []) podItem).max.lookup "cpu".toList = some "2".toList := rfl
    obtain ⟨⟨limit, given, _⟩, _⟩ :=
      (admitted.1 (boundItem (fun _ => []) podItem) List.mem_cons_self (.inr rfl) "cpu".toList rfl).2 _ bound
    cases given

end WeeboSi.ResourceQuotas
