import WeeboSi.EndpointAuthAdapters.CompileError
import WeeboSi.EndpointAuthAdapters.IngressGate
import WeeboSi.EndpointAuthAdapters.RouteGate

/-!
# The sweep

Source: crates/weebo-si-endpoint-auth-adapters/src/controller.rs:163-220, 449-520 and
crates/weebo-si-crd/src/endpoint_auth.rs:799-808, 1030-1034. What one pass makes of the
annotations of an object, and of the Routes.
-/
namespace WeeboSi.EndpointAuthAdapters
open WeeboSi.Lib WeeboSi.Crd WeeboSi.Chassis

inductive SweepOutcome where
  | unchanged
  | attach (annotations : Annotations)
  | detach (keys : List Text)

/-- What `mode: Off` strips, each key once and in order. -/
def detachment (config : EndpointAuthSpec) : List Text :=
  (config.gateway.dialect.managedKeys config.gateway).dedup.insertionSort fun a b => textLe a b = true

def sweep (config : EndpointAuthSpec) (mode : FeatureMode) (annotations : Annotations)
    (backend : Option (Text × UInt16)) : SweepOutcome :=
  if mode = .off then
    if annotations.get endpointAuthAnnotationKey ≠ some endpointAuthManaged then .unchanged
    else
      let present := (detachment config).filter fun key => (annotations.get key).isSome
      if present = [] then .unchanged else .detach present
  else
    let missing := (config.attachment annotations backend).annotations.filter fun (key, value) =>
      annotations.get key ≠ some value
    if missing.members = [] then .unchanged else .attach missing

/-- The merge patch of an outcome. -/
def SweepOutcome.merged (outcome : SweepOutcome) (annotations : Annotations) : Annotations :=
  match outcome with
  | unchanged => annotations
  | attach missing => annotations.insertAll missing.members
  | detach keys => annotations.without keys

/-! ## Routes -/

structure SweptRoute where
  namespaceName : Option Text
  name : Option Text
  object : RoutingObject

/-- The patch of one Route: its annotations and, where its backend moves, its `spec`. -/
structure RoutePatch where
  annotations : Annotations
  spec : Option Json

def Attachment.changes (attachment : Attachment) (current : Annotations) : Bool :=
  (attachment.annotations.members.any fun (key, value) => current.get key ≠ some value)
    || attachment.retarget.isSome

/-- The sweep reads the backend for itself. -/
def sweptBackend (object : RoutingObject) : Option (Text × UInt16) :=
  ((object.data.pointer toNamePath).bind asStr).map fun name =>
    let port := ((object.data.pointer targetPortPath).bind asU64).getD 80
    (name, port.toUInt16)

def retargetSpec (retarget : Retarget) : Json :=
  .object [("port".toList, .object [("targetPort".toList, .string "http".toList)]),
    ("to".toList, .object [("name".toList, .string retarget.service)])]

/-- The patch of one Route; a pass makes them for the Routes one by one. -/
def sweepRoute (config : EndpointAuthSpec) (route : SweptRoute) : Option (Text × Text × RoutePatch) := do
  let namespaceName ← route.namespaceName
  let host := ((route.object.data.pointer ["spec".toList, "host".toList]).bind asStr).getD []
  if host = [] ∨ config.hosts.governs host = false then none
  else
    let attachment := config.attachment route.object.annotations (sweptBackend route.object)
    if Attachment.changes attachment route.object.annotations = false then none
    else some (namespaceName, route.name.getD [],
      ⟨attachment.annotations, attachment.retarget.map retargetSpec⟩)

/-! ## The keys that are written and the keys that are removed -/

section Keys
variable (config : EndpointAuthSpec)

theorem mem_detachment (key : Text) :
    key ∈ detachment config ↔ key ∈ config.gateway.dialect.managedKeys config.gateway := by
  unfold detachment
  rw [List.mem_insertionSort, List.mem_dedup]

/-- A template of a custom dialect writes no key that it does not declare. -/
def Declared : Prop :=
  config.gateway.dialect = .custom → ∀ declared, config.gateway.custom = some declared →
    ∀ key ∈ declared.annotations.keys, key ∈ declared.managedKeys

end Keys

theorem declared_of_validate (usable : Text → Bool) (resolved : ResolvedEndpointAuthSpec) (teams : List Team)
    (valid : resolved.validate usable teams = []) : Declared resolved.config := by
  intro custom declared template
  unfold ResolvedEndpointAuthSpec.validate at valid
  dsimp only at valid
  rw [custom, template] at valid
  have listed := (List.append_eq_nil_iff.mp valid).2
  simpa only [List.flatMap_eq_nil_iff, violationUnless_eq_nil, List.contains_iff_mem] using listed

section Attached
variable (config : EndpointAuthSpec) (annotations : Annotations) (backend : Option (Text × UInt16))

theorem mode_forward (other : config.gateway.dialect ≠ .openShiftRoute) :
    config.gateway.dialect.mode = .forwardAuth := by
  unfold Dialect.mode
  split
  · rename_i routes
    exact absurd routes other
  · rfl

/-- But for the upstream of a Route, what is attached does not depend on the backend. -/
theorem attachment_get (key : Text)
    (aside : config.gateway.dialect = .openShiftRoute → key ≠ upstreamAnnotationKey)
    (plain : saysBypass annotations = false) :
    (config.attachment annotations backend).annotations.get key = (prescribed config).get key := by
  by_cases routes : config.gateway.dialect = .openShiftRoute
  · unfold EndpointAuthSpec.attachment
    rw [plain]
    simp only [Bool.false_eq_true, if_false]
    split
    · rename_i service port _
      by_cases companion : service = companionService
      · simp [companion, prescribed]
      · simp [companion, aside routes, prescribed]
    · rfl
  · rw [attachment_forward config (mode_forward config routes) annotations plain backend]

theorem attachment_marker (plain : saysBypass annotations = false) :
    (config.attachment annotations backend).annotations.get endpointAuthAnnotationKey =
      some endpointAuthManaged := by
  have apart : endpointAuthAnnotationKey ≠ upstreamAnnotationKey := by decide
  rw [attachment_get config annotations backend _ (fun _ => apart) plain, prescribed_marker]

/-- Rendering a template keeps its keys. -/
theorem custom_keys (declared : CustomDialect) (gateway : GatewayRef) (key : Text)
    (written : ((TextMap.ofList (declared.annotations.members.map fun (key, value) =>
      (key, renderCustom value gateway))).get key).isSome = true) : key ∈ declared.annotations.keys := by
  have names : (declared.annotations.members.map fun (key, value) =>
      (key, renderCustom value gateway)).map Prod.fst = declared.annotations.keys := by
    rw [List.map_map]
    rfl
  by_contra absent
  unfold TextMap.ofList at written
  rw [TextMap.get_insertAll _ _ (by rw [names]; exact declared.annotations.distinct),
    lookup_eq_none_of_absent _ key (by rw [names]; exact absent)] at written
  cases written

theorem prescribed_managed (declares : Declared config) (key : Text)
    (written : ((prescribed config).get key).isSome = true) :
    key ∈ config.gateway.dialect.managedKeys config.gateway := by
  unfold Dialect.managedKeys
  by_cases marker : key = endpointAuthAnnotationKey
  · rw [marker]
    exact List.mem_cons_self
  unfold prescribed at written
  rw [TextMap.get_insert, if_neg marker] at written
  apply List.mem_cons_of_mem
  cases dialect : config.gateway.dialect with
  | traefik =>
    rw [dialect] at written
    exact (TextMap.mem_keys _ key).mpr written
  | haproxyIngress =>
    rw [dialect] at written
    exact (TextMap.mem_keys _ key).mpr written
  | openShiftRoute =>
    rw [dialect] at written
    cases written
  | custom =>
    rw [dialect] at written
    unfold Dialect.annotations at written
    cases template : config.gateway.custom with
    | none =>
      rw [template] at written
      cases written
    | some declared =>
      rw [template] at written
      exact declares dialect declared template key (custom_keys declared _ key written)

/-- Every key that attaching writes is one that detaching removes. -/
theorem attachment_managed (declares : Declared config) (plain : saysBypass annotations = false) (key : Text)
    (written : ((config.attachment annotations backend).annotations.get key).isSome = true) :
    key ∈ config.gateway.dialect.managedKeys config.gateway := by
  by_cases upstream : config.gateway.dialect = .openShiftRoute ∧ key = upstreamAnnotationKey
  · rw [upstream.1, upstream.2]
    exact List.mem_cons_of_mem _ List.mem_cons_self
  · rw [attachment_get config annotations backend key (fun routes same => upstream ⟨routes, same⟩) plain] at written
    exact prescribed_managed config declares key written

/-! ## One pass -/

theorem sweep_unchanged_iff (mode : FeatureMode) (on : mode ≠ .off) :
    sweep config mode annotations backend = .unchanged ↔
      ∀ key value, (config.attachment annotations backend).annotations.get key = some value →
        annotations.get key = some value := by
  unfold sweep
  rw [if_neg on]
  dsimp only
  split
  · rename_i nothing
    simp only [TextMap.filter, List.filter_eq_nil_iff, Prod.forall, decide_eq_true_eq, not_not] at nothing
    simp only [TextMap.get_eq_some _ _ _, true_iff] at nothing ⊢
    intro key value written
    exact nothing key value written
  · rename_i something
    simp only [TextMap.filter, List.filter_eq_nil_iff, Prod.forall, decide_eq_true_eq, not_not] at something
    refine ⟨nofun, fun held => absurd ?_ something⟩
    intro key value written
    exact held key value ((TextMap.get_eq_some _ _ _).mpr written)

/-- The annotations after one pass that attaches the gate. -/
def gated : Annotations := (sweep config .enforce annotations backend).merged annotations

/-- What the attachment prescribes, else what was there. -/
theorem get_gated (key : Text) :
    (gated config annotations backend).get key =
      ((config.attachment annotations backend).annotations.get key).or (annotations.get key) := by
  unfold gated
  cases outcome : sweep config .enforce annotations backend with
  | unchanged =>
    have held := (sweep_unchanged_iff config annotations backend .enforce (by decide)).mp outcome key
    change annotations.get key = _
    cases prescribed : (config.attachment annotations backend).annotations.get key with
    | none => rfl
    | some value => exact held value prescribed
  | detach keys =>
    unfold sweep at outcome
    rw [if_neg (by decide)] at outcome
    dsimp only at outcome
    split at outcome <;> cases outcome
  | attach missing =>
    unfold sweep at outcome
    rw [if_neg (by decide)] at outcome
    dsimp only at outcome
    split at outcome
    · cases outcome
    · cases outcome
      change (annotations.insertAll _).get key = _
      rw [TextMap.get_insertAll _ _ (TextMap.distinct _)]
      change ((TextMap.filter _ _).get key).or _ = _
      rw [TextMap.get_filter]
      cases prescribed : (config.attachment annotations backend).annotations.get key with
      | none => rfl
      | some value =>
        by_cases held : annotations.get key = some value
        · simp [held, Option.filter]
        · simp [held, Option.filter]

theorem gated_marker (plain : saysBypass annotations = false) :
    (gated config annotations backend).get endpointAuthAnnotationKey = some endpointAuthManaged := by
  rw [get_gated, attachment_marker config annotations backend plain, Option.some_or]

theorem gated_plain (plain : saysBypass annotations = false) :
    saysBypass (gated config annotations backend) = false := by
  unfold saysBypass
  rw [gated_marker config annotations backend plain]
  decide

/-- What is attached depends on the annotations only through the bypass. -/
theorem attachment_congr (other : Annotations) (same : saysBypass annotations = saysBypass other) :
    config.attachment annotations backend = config.attachment other backend := by
  unfold EndpointAuthSpec.attachment
  rw [same]

/-- A Route whose backend is already the gate records nothing. -/
theorem attachment_companion (next : Option (Text × UInt16)) (moved : next.map Prod.fst = some companionService)
    (plain : saysBypass annotations = false) (key value : Text)
    (written : (config.attachment annotations next).annotations.get key = some value) :
    (config.attachment annotations backend).annotations.get key = some value := by
  by_cases upstream : config.gateway.dialect = .openShiftRoute ∧ key = upstreamAnnotationKey
  · obtain ⟨⟨service, port⟩, rfl, rfl⟩ := Option.map_eq_some_iff.mp moved
    rw [upstream.2, attachment_upstream config upstream.1 annotations _ plain] at written
    simp [detour] at written
  · have aside := fun routes same => upstream ⟨routes, same⟩
    rw [attachment_get config annotations _ key aside plain] at written ⊢
    exact written

/-- The backend as it was, or as the gate has moved it. -/
theorem gated_settled (plain : saysBypass annotations = false) (next : Option (Text × UInt16))
    (following : next = backend ∨ next.map Prod.fst = some companionService) :
    sweep config .enforce (gated config annotations backend) next = .unchanged := by
  rw [sweep_unchanged_iff config _ next .enforce (by decide),
    attachment_congr config _ next annotations (by rw [plain, gated_plain config annotations backend plain])]
  intro key value written
  have prescribed : (config.attachment annotations backend).annotations.get key = some value := by
    rcases following with rfl | moved
    · exact written
    · exact attachment_companion config annotations backend next moved plain key value written
  rw [get_gated, prescribed, Option.some_or]

end Attached

/-! ## The rollback -/

section Detached
variable (config : EndpointAuthSpec) (annotations : Annotations) (backend : Option (Text × UInt16))

theorem sweep_off_unmarked (unmarked : annotations.get endpointAuthAnnotationKey ≠ some endpointAuthManaged) :
    sweep config .off annotations backend = .unchanged := by
  unfold sweep
  rw [if_pos rfl, if_pos unmarked]

/-- The annotations after one pass that rolls back. -/
def rolledBack : Annotations := (sweep config .off annotations backend).merged annotations

theorem get_rolledBack (marked : annotations.get endpointAuthAnnotationKey = some endpointAuthManaged)
    (key : Text) :
    (rolledBack config annotations backend).get key =
      if key ∈ config.gateway.dialect.managedKeys config.gateway then none else annotations.get key := by
  have marker : endpointAuthAnnotationKey ∈ (detachment config).filter fun key => (annotations.get key).isSome := by
    rw [List.mem_filter, mem_detachment, marked]
    exact ⟨List.mem_cons_self, rfl⟩
  unfold rolledBack sweep
  rw [if_pos rfl, if_neg (by simp [marked])]
  dsimp only
  rw [if_neg (List.ne_nil_of_mem marker)]
  change (annotations.without _).get key = _
  rw [TextMap.get_without]
  simp only [List.mem_filter, mem_detachment]
  cases annotations.get key <;> simp

end Detached

/-- Attaching the gate and rolling it back, for a configuration without a violation. -/
theorem sweep_round_trip (usable : Text → Bool) (teams : List Team) (resolved : ResolvedEndpointAuthSpec)
    (valid : resolved.validate usable teams = []) (annotations : Annotations)
    (plain : saysBypass annotations = false) (backend next : Option (Text × UInt16))
    (following : next = backend ∨ next.map Prod.fst = some companionService) :
    let config := resolved.config
    let managedKeys := config.gateway.dialect.managedKeys config.gateway
    let attached := gated config annotations backend
    let detached := rolledBack config attached next
    sweep config .enforce attached next = .unchanged ∧
      (∀ key ∈ managedKeys, detached.get key = none) ∧
      (∀ later, sweep config .off detached later = .unchanged) ∧
      (∀ key, key ∉ managedKeys →
        attached.get key = annotations.get key ∧ detached.get key = annotations.get key) ∧
      (∀ (other : Annotations) (later : Option (Text × UInt16)),
        other.get endpointAuthAnnotationKey ≠ some endpointAuthManaged →
          sweep config .off other later = .unchanged) := by
  intro config managedKeys attached detached
  have marked := gated_marker config annotations backend plain
  have removed := get_rolledBack config attached next marked
  have marker : endpointAuthAnnotationKey ∈ managedKeys := List.mem_cons_self
  have aside : ∀ key, key ∉ managedKeys → attached.get key = annotations.get key := by
    intro key outside
    have unwritten : (config.attachment annotations backend).annotations.get key = none := by
      rw [← Option.not_isSome_iff_eq_none]
      intro written
      exact outside (attachment_managed config annotations backend
        (declared_of_validate usable resolved teams valid) plain key written)
    rw [get_gated, unwritten, Option.none_or]
  refine ⟨gated_settled config annotations backend plain next following, ?_, ?_, ?_,
    fun other later unmarked => sweep_off_unmarked config other later unmarked⟩
  · intro key managed
    rw [removed, if_pos managed]
  · intro later
    apply sweep_off_unmarked
    rw [removed, if_pos marker]
    decide
  · intro key outside
    refine ⟨aside key outside, ?_⟩
    rw [removed, if_neg outside]
    exact aside key outside

/-- A Route to `alice-app` that carries one annotation of its own. -/
theorem sweep_round_trip_route :
    let config := clusterSpec .openShiftRoute
    let annotations : Annotations := .ofList [("haproxy.router.openshift.io/timeout".toList, "30s".toList)]
    let attached := gated config annotations (some ("alice-app".toList, 8080))
    let detached := rolledBack config attached (some (companionService, 4180))
    attached.get upstreamAnnotationKey = some "alice-app:8080".toList ∧
      sweep config .enforce attached (some (companionService, 4180)) = .unchanged ∧
      detached.get upstreamAnnotationKey = none ∧ detached.get endpointAuthAnnotationKey = none ∧
      detached.get "haproxy.router.openshift.io/timeout".toList = some "30s".toList := by
  intro config annotations attached detached
  have trip := sweep_round_trip (fun _ => true) [] ⟨config, []⟩ (by decide +kernel) annotations
    (by decide +kernel) (some ("alice-app".toList, 8080)) (some (companionService, 4180)) (Or.inr rfl)
  refine ⟨by decide +kernel, trip.1, trip.2.1 _ (by decide), trip.2.1 _ (by decide), ?_⟩
  exact (trip.2.2.2.1 _ (by decide)).2

end WeeboSi.EndpointAuthAdapters
