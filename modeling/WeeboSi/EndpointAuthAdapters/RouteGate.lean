import WeeboSi.EndpointAuthAdapters.Admission
import WeeboSi.Lib.Run

/-!
# A Route behind the gate

Source: crates/weebo-si-endpoint-auth-adapters/src/endpoint_auth.rs:132-221, 370-516 and
crates/weebo-si-crd/src/endpoint_auth.rs:998-1030 through
crates/weebo-si-policy-guard/src/endpoint_routing.rs:166-295, for the dialect in which the gateway is the
backend. What a Route sends traffic to is read as OpenShift reads it.
-/
namespace WeeboSi.EndpointAuthAdapters
open WeeboSi.Lib WeeboSi.Crd WeeboSi.Chassis WeeboSi.PolicyGuard WeeboSi.Webhook EndpointRoutingGuard

/-! ## Where a Route sends its traffic -/

def toService (object : RoutingObject) : Option Text := (object.data.pointer toNamePath).bind asStr

/-- The backend as the gate records it, where it is not the gate. -/
def detour : Option (Text × UInt16) → Option Text
  | some (service, port) => if service ≠ companionService then some (upstreamText service port) else none
  | none => none

section Mutated
variable (config : EndpointAuthSpec) (routes : config.gateway.dialect = .openShiftRoute)
include routes

theorem attachment_upstream (current : Annotations) (backend : Option (Text × UInt16))
    (plain : saysBypass current = false) :
    (config.attachment current backend).annotations.get upstreamAnnotationKey = detour backend := by
  have apart : upstreamAnnotationKey ≠ endpointAuthAnnotationKey := by decide
  unfold EndpointAuthSpec.attachment
  rw [plain, routes]
  cases backend with
  | none => simp [Dialect.annotations, Dialect.mode, detour, apart]
  | some named =>
    obtain ⟨service, port⟩ := named
    by_cases companion : service = companionService
    · simp [Dialect.annotations, Dialect.mode, detour, companion, apart]
    · simp [Dialect.annotations, Dialect.mode, detour, companion]

theorem attachment_retarget (current : Annotations) (backend : Option (Text × UInt16)) :
    (config.attachment current backend).retarget =
      if saysBypass current then none
      else (detour backend).map fun upstream => ⟨companionService, config.gateway.service.port, upstream⟩ := by
  unfold EndpointAuthSpec.attachment
  rw [routes]
  cases saysBypass current with
  | true => rfl
  | false =>
    cases backend with
    | none => rfl
    | some named =>
      obtain ⟨service, port⟩ := named
      by_cases companion : service = companionService
      · simp [Dialect.mode, detour, companion]
      · simp [Dialect.mode, detour, companion]

variable (request : AdmissionRequest) (object stored : RoutingObject)
  (mutated : mutatedObject config request .route object = some stored)
include mutated

end Mutated

/-! ## A run of writes -/

/-- The Route, and the upstream it had once the gate was attached. -/
structure RouteState where
  stored : Option RoutingObject
  recorded : Option Text

section Writes
variable (compile : Text → Option (List Regex)) (operatorIdentity : Text)

/-- Both webhooks let the write through, which leaves `object`. -/
def RoutingEvent.StoresRoute (event : RoutingEvent) (s : RouteState) (object : RoutingObject) : Prop :=
  Stores compile operatorIdentity event.config event.namespaceOwner event.isUser (event.request s.stored) .route
    event.object object

/-- An outsider writes the Route and is let through. -/
structure RoutingEvent.Admitted (s : RouteState) (event : RoutingEvent) : Prop where
  outsider : event.Outsider operatorIdentity
  routes : event.config.gateway.dialect = .openShiftRoute
  stores : ∃ object, event.StoresRoute compile operatorIdentity s object

end Writes

/-! ## A Route of alice's -/

end WeeboSi.EndpointAuthAdapters
