import WeeboSi.EndpointAuthAdapters.Sweep
import WeeboSi.Gateway.Forward

/-!
# The backend the gate displaces

Source: crates/weebo-si-endpoint-auth-adapters/src/endpoint_auth.rs:132-221, 247-259,
controller.rs:466-520 and crates/weebo-si-endpoint-auth/src/policy.rs:245-257. The mutation and
the sweep each read the backend, record it as a text and point the Route at the gate; the
gateway reads the text back.
-/
namespace WeeboSi.EndpointAuthAdapters
open WeeboSi.Lib WeeboSi.Crd WeeboSi.Chassis
open WeeboSi.EndpointAuth (Upstream)
open WeeboSi.Gateway (DnsLabel)

/-! ## Target ports -/

/-- A `spec.port.targetPort`. -/
inductive TargetPort where
  | number (port : Nat)
  | named (name : Text)
  deriving DecidableEq, Repr

def TargetPort.json : TargetPort → Json
  | number port => .number (Nat.toDigits 10 port)
  | named name => .string name

/-- What both writers read it as. -/
def TargetPort.read : TargetPort → Nat
  | number port => port
  | named _ => 80

structure ServicePort where
  name : Text
  port : Nat
  deriving DecidableEq, Repr

/-- A number denotes itself, a name the port of the Service under that name. -/
def TargetPort.Denotes (target : TargetPort) (ports : List ServicePort) (port : Nat) : Prop :=
  match target with
  | number written => written = port
  | named name => ⟨name, port⟩ ∈ ports

/-! ## The two writers -/

inductive GateWriter where
  | mutation (request : AdmissionRequest)
  | sweep (namespaceName name : Option Text)

/-- The annotations of a Route once the writer has pointed it at the gate. -/
def GateWriter.displace (writer : GateWriter) (config : EndpointAuthSpec) (object : RoutingObject) :
    Option Annotations :=
  match writer with
  | mutation request =>
    let subject := routingWrite request .route object
    if GateMutation.retargets subject (config.attachment object.annotations (backendOf object .route)).retarget = []
    then none
    else some ((GateMutation.mutations config subject).foldl annotateWith object.annotations)
  | sweep namespaceName name =>
    (sweepRoute config ⟨namespaceName, name, object⟩).bind fun (_, _, patch) =>
      patch.spec.map fun _ => object.annotations.insertAll patch.annotations.members

/-- An upstream the Route carries already and the writer leaves there. -/
def GateWriter.leaves (writer : GateWriter) (object : RoutingObject) : Option Text :=
  match writer with
  | mutation request =>
    if request.operation.write = .create then none else object.annotations.get upstreamAnnotationKey
  | sweep _ _ => none

/-- The text reads back as this port of this Service. -/
def Spells (raw service : Text) (port : Nat) : Prop :=
  ∃ upstream, Upstream.parse raw = some upstream ∧ upstream.service = service ∧ upstream.port = port

/-! ## Reading the backend -/

theorem asU64_toDigits (port : Nat) (fits : port < 2 ^ 16) :
    asU64 (.number (Nat.toDigits 10 port)) = some port := by
  have value : (Nat.toDigits 10 port).foldl (fun n c => 10 * n + (c.toNat - '0'.toNat)) 0 = port := by
    have back := Nat.ofDigitChars_ten_toDigits (n := port)
    rwa [Nat.ofDigitChars_eq_foldl] at back
  have digits : (Nat.toDigits 10 port).all Char.isDigit = true :=
    List.all_eq_true.mpr (Gateway.toDigits_isDigit port)
  unfold asU64
  dsimp only
  rw [value, if_pos ⟨Nat.toDigits_ne_nil, digits, by omega⟩]

theorem sweptBackend_eq (object : RoutingObject) : sweptBackend object = backendOf object .route := by
  unfold sweptBackend backendOf
  rw [if_neg (by decide)]
  cases (object.data.pointer toNamePath).bind asStr <;> rfl

/-- A name is taken for port 80. -/
theorem backendOf_target (object : RoutingObject) (service : Text) (target : TargetPort)
    (points : toService object = some service) (written : object.data.pointer targetPortPath = some target.json)
    (fits : target.read < 2 ^ 16) : backendOf object .route = some (service, target.read.toUInt16) := by
  have port : ((object.data.pointer targetPortPath).bind asU64).getD 80 = target.read := by
    rw [written, Option.bind_some]
    cases target with
    | named name => rfl
    | number port =>
      rw [TargetPort.json, asU64_toDigits port fits]
      rfl
  unfold toService at points
  unfold backendOf
  rw [if_neg (by decide), points, port]
  rfl

/-! ## Reading the text back -/

theorem label_not_white (c : Char) (spelt : Gateway.isLabelChar c = true) : isWhite c = false := by
  have range : 45 ≤ c.toNat ∧ c.toNat ≤ 122 := by
    simp only [Gateway.isLabelChar, Char.isAlphanum, Bool.or_eq_true, isAlpha_iff, isUpper_iff, isLower_iff,
      isDigit_iff, beq_iff_eq] at spelt
    rcases spelt with (letter | digit) | rfl
    · omega
    · omega
    · decide
  simp [isWhite]
  omega

/-- A Service and a port read back; port 0 does not. -/
theorem upstreamText_spells (service : Text) (port : UInt16) (label : DnsLabel service) (denoted : Nat)
    (positive : 0 < denoted) : Spells (upstreamText service port) service denoted ↔ port.toNat = denoted := by
  have digits := Gateway.toDigits_isDigit port.toNat
  have colon : ':' ∉ Nat.toDigits 10 port.toNat := fun member => by
    have digit := digits ':' member
    cases digit
  have text : upstreamText service port = service ++ ':' :: Nat.toDigits 10 port.toNat := by
    simp [upstreamText, decimal]
  have solid : ∀ c ∈ service ++ ':' :: Nat.toDigits 10 port.toNat, isWhite c = false := by
    intro c member
    rw [List.mem_append, List.mem_cons] at member
    rcases member with inService | rfl | inDigits
    · exact label_not_white c (List.all_eq_true.mp label.2.2.1 c inService)
    · decide
    · have digit := digits c inDigits
      exact label_not_white c (by simp [Gateway.isLabelChar, Char.isAlphanum, digit])
  have trimmed : trim (upstreamText service port) = service ++ ':' :: Nat.toDigits 10 port.toNat := by
    rw [text, trim_eq_trimBy]
    refine trimBy_of_solid _ _ ⟨?_, ?_⟩
    · exact fun c first => solid c (List.mem_of_mem_head? first)
    · exact fun c last => solid c (List.mem_of_getLast? last)
  have small : port.toNat < 2 ^ 16 := port.toNat_lt
  have cut := (rsplitOnce_eq_some ':' (trim (upstreamText service port)) service _).mpr ⟨trimmed, colon⟩
  unfold Spells Upstream.parse
  simp only [cut, Gateway.parseU16_toDigits port.toNat small, Option.bind_eq_bind, Option.bind_some, if_neg label.1]
  by_cases zero : 0 < port.toNat
  · rw [dif_pos ⟨zero, small⟩]
    simp
  · rw [dif_neg fun fits => zero fits.1]
    simp
    omega

/-! ## What is recorded -/

section Recorded
variable (config : EndpointAuthSpec) (object : RoutingObject)

/-- A backend is displaced on a Route that does not say `bypass`, and it is not the gate. -/
theorem displaced_of_retarget (backend : Option (Text × UInt16))
    (moved : (config.attachment object.annotations backend).retarget ≠ none) :
    config.gateway.dialect = .openShiftRoute ∧ saysBypass object.annotations = false ∧ detour backend ≠ none := by
  have routes : config.gateway.dialect = .openShiftRoute := by
    by_contra other
    exact moved (retarget_forward config (mode_forward config other) object.annotations backend)
  rw [attachment_retarget config routes] at moved
  cases plain : saysBypass object.annotations with
  | true => simp [plain] at moved
  | false => exact ⟨routes, rfl, by simpa [plain] using moved⟩

/-- On an update the mutation leaves an upstream that is there. -/
theorem mutation_leaves (request : AdmissionRequest) (text : Text) :
    ((some text).filter fun value =>
        GateMutation.attaches (routingWrite request .route object) upstreamAnnotationKey value).or
      (object.annotations.get upstreamAnnotationKey) =
    ((GateWriter.mutation request).leaves object).or (some text) := by
  have annotations : (routingWrite request .route object).annotations = object.annotations := rfl
  have operation : (routingWrite request .route object).operation = request.operation.write := rfl
  unfold GateMutation.attaches GateWriter.leaves
  rw [annotations, operation]
  by_cases create : request.operation.write = .create
  · cases present : object.annotations.get upstreamAnnotationKey with
    | none => simp [create, Option.filter]
    | some value =>
      by_cases same : value = text
      · simp [create, same, Option.filter]
      · simp [create, same, Option.filter]
  · cases present : object.annotations.get upstreamAnnotationKey with
    | none => simp [create, Option.filter]
    | some value => simp [create, Option.filter]

theorem sweepRoute_patch (route : SweptRoute) (namespaceName name : Text) (patch : RoutePatch)
    (swept : sweepRoute config route = some (namespaceName, name, patch)) :
    patch = ⟨(config.attachment route.object.annotations (sweptBackend route.object)).annotations,
      (config.attachment route.object.annotations (sweptBackend route.object)).retarget.map retargetSpec⟩ := by
  unfold sweepRoute at swept
  obtain ⟨_, _, rest⟩ := Option.bind_eq_some_iff.mp swept
  dsimp only at rest
  split at rest
  · cases rest
  · split at rest
    · cases rest
    · cases rest
      rfl

/-- The backend as a text, unless the writer leaves an annotation that is there. -/
theorem get_displaced (writer : GateWriter) (annotations : Annotations)
    (displaced : writer.displace config object = some annotations) :
    annotations.get upstreamAnnotationKey = (writer.leaves object).or (detour (backendOf object .route)) ∧
      detour (backendOf object .route) ≠ none := by
  cases writer with
  | mutation request =>
    unfold GateWriter.displace at displaced
    dsimp only at displaced
    split at displaced
    · cases displaced
    · rename_i moved
      have retargeted : (config.attachment object.annotations (backendOf object .route)).retarget ≠ none := by
        intro none_
        rw [none_] at moved
        exact moved rfl
      obtain ⟨routes, plain, detoured⟩ := displaced_of_retarget config object _ retargeted
      refine ⟨?_, detoured⟩
      cases displaced
      refine (get_mutated config (routingWrite request .route object) upstreamAnnotationKey).trans ?_
      change (renamed object.annotations upstreamAnnotationKey).or
        ((((config.attachment object.annotations (backendOf object .route)).annotations.get
          upstreamAnnotationKey).filter _).or (object.annotations.get upstreamAnnotationKey)) = _
      rw [attachment_upstream config routes _ _ plain, renamed, if_neg (by decide), Option.none_or]
      obtain ⟨text, recorded⟩ := Option.ne_none_iff_exists'.mp detoured
      rw [recorded]
      exact mutation_leaves object request text
  | sweep namespaceName name =>
    unfold GateWriter.displace at displaced
    obtain ⟨⟨_, _, patch⟩, swept, kept⟩ := Option.bind_eq_some_iff.mp displaced
    obtain ⟨spec, moved, rfl⟩ := Option.map_eq_some_iff.mp kept
    rw [sweepRoute_patch config _ _ _ patch swept] at moved
    dsimp only at moved
    have retargeted : (config.attachment object.annotations (sweptBackend object)).retarget ≠ none := by
      intro none_
      rw [none_] at moved
      cases moved
    obtain ⟨routes, plain, detoured⟩ := displaced_of_retarget config object _ retargeted
    rw [sweptBackend_eq] at detoured
    refine ⟨?_, detoured⟩
    rw [sweepRoute_patch config _ _ _ patch swept, TextMap.get_insertAll _ _ (TextMap.distinct _)]
    change ((config.attachment object.annotations (sweptBackend object)).annotations.get _).or _ = _
    rw [attachment_upstream config routes _ _ plain, sweptBackend_eq]
    obtain ⟨text, recorded⟩ := Option.ne_none_iff_exists'.mp detoured
    rw [recorded]
    rfl

end Recorded

/-- What is recorded reads back as the displaced backend exactly when the target port is a number
or a name of port 80, or the annotation a mutated update leaves there reads so. -/
theorem displaced_recorded_iff (config : EndpointAuthSpec) (writer : GateWriter) (object : RoutingObject)
    (service : Text) (target : TargetPort) (ports : List ServicePort) (port : Nat) (annotations : Annotations)
    (points : toService object = some service) (label : DnsLabel service)
    (written : object.data.pointer targetPortPath = some target.json)
    (denotes : target.Denotes ports port) (fits : 0 < port ∧ port < 2 ^ 16)
    (displaced : writer.displace config object = some annotations) :
    (∃ raw, annotations.get upstreamAnnotationKey = some raw ∧ Spells raw service port) ↔
      (∃ present, writer.leaves object = some present ∧ Spells present service port) ∨
        (writer.leaves object = none ∧ (target = .number port ∨ port = 80)) := by
  have small : target.read < 2 ^ 16 := by
    cases target with
    | number n =>
      cases denotes
      exact fits.2
    | named name => exact Nat.lt_of_sub_pos (by simp [TargetPort.read])
  have backend := backendOf_target object service target points written small
  obtain ⟨recorded, detoured⟩ := get_displaced config object writer annotations displaced
  rw [backend] at recorded detoured
  have text : detour (some (service, target.read.toUInt16)) =
      some (upstreamText service target.read.toUInt16) := by
    by_cases companion : service = companionService
    · simp [detour, companion] at detoured
    · simp [detour, companion]
  have spelt : Spells (upstreamText service target.read.toUInt16) service port ↔
      target = .number port ∨ port = 80 := by
    rw [upstreamText_spells service _ label port fits.1]
    have same : target.read.toUInt16.toNat = target.read := by
      rw [Nat.toUInt16_eq, UInt16.toNat_ofNat']
      exact Nat.mod_eq_of_lt small
    rw [same]
    cases target with
    | number n =>
      cases denotes
      simp [TargetPort.read]
    | named name => simp [TargetPort.read, eq_comm]
  rw [recorded, text]
  cases left : writer.leaves object with
  | some present => simp
  | none => simp [spelt]

/-- The Route of `alice-app`, as a sweep finds it. -/
def appRoute (target : TargetPort) (annotations : Annotations) : RoutingObject where
  annotations
  labels := .empty
  data := .object [("spec".toList, .object
    [("host".toList, .string "alice-w.weebo.si".toList),
      ("port".toList, .object [("targetPort".toList, target.json)]),
      ("to".toList, .object [("name".toList, .string "alice-app".toList)])])]

/-- The sweep records a number as it is. -/
theorem displaced_number_recorded :
    ∃ annotations raw,
      (GateWriter.sweep (some "alice".toList) (some "app".toList)).displace (clusterSpec .openShiftRoute)
        (appRoute (.number 8080) .empty) = some annotations ∧
      annotations.get upstreamAnnotationKey = some raw ∧ Spells raw "alice-app".toList 8080 := by
  have moved : ((GateWriter.sweep (some "alice".toList) (some "app".toList)).displace
      (clusterSpec .openShiftRoute) (appRoute (.number 8080) .empty)).isSome = true := by decide +kernel
  obtain ⟨annotations, displaced⟩ := Option.isSome_iff_exists.mp moved
  obtain ⟨raw, recorded, spelt⟩ := (displaced_recorded_iff _ _ (appRoute (.number 8080) .empty)
    "alice-app".toList (.number 8080) [] 8080 annotations (by decide +kernel) (by decide +kernel)
    (by decide +kernel) rfl (by decide) displaced).mpr (Or.inr ⟨rfl, Or.inl rfl⟩)
  exact ⟨annotations, raw, displaced, recorded, spelt⟩

/-- Port `web` of the Service is 8080; the creation of the Route records 80. -/
theorem named_port_recorded_as_80 :
    ¬ ∀ (config : EndpointAuthSpec) (writer : GateWriter) (object : RoutingObject) (service : Text)
      (target : TargetPort) (ports : List ServicePort) (port : Nat) (annotations : Annotations),
      toService object = some service → DnsLabel service →
      object.data.pointer targetPortPath = some target.json →
      target.Denotes ports port → 0 < port ∧ port < 2 ^ 16 →
      writer.displace config object = some annotations →
        ∃ raw, annotations.get upstreamAnnotationKey = some raw ∧ Spells raw service port := by
  intro claimed
  let creation := GateWriter.mutation ⟨.create, "alice".toList, none, none, none⟩
  have value : (creation.displace (clusterSpec .openShiftRoute) (appRoute (.named "web".toList) .empty)).bind
      (fun annotations => annotations.get upstreamAnnotationKey) = some "alice-app:80".toList := by
    decide +kernel
  have back : (Upstream.parse "alice-app:80".toList).map Upstream.port = some 80 := by decide +kernel
  obtain ⟨annotations, displaced, recorded⟩ := Option.bind_eq_some_iff.mp value
  obtain ⟨raw, found, upstream, parsed, -, port⟩ := claimed _ creation (appRoute (.named "web".toList) .empty)
    "alice-app".toList (.named "web".toList) [⟨"web".toList, 8080⟩] 8080 annotations (by decide +kernel)
    (by decide +kernel) (by decide +kernel) (by simp [TargetPort.Denotes]) (by decide) displaced
  rw [recorded] at found
  cases found
  rw [parsed, Option.map_some, port] at back
  cases back

end WeeboSi.EndpointAuthAdapters
