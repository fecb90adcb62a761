import WeeboSi.PolicyGuard.EndpointRouting
import WeeboSi.Webhook.Render

/-!
# Admitting a routing object

Source: crates/weebo-si-endpoint-auth-adapters/src/endpoint_auth.rs:86-290, 370-516. A
routing object is its annotations, its labels and the `data` that is left beside its
metadata.
-/
namespace WeeboSi.EndpointAuthAdapters
open WeeboSi.Lib WeeboSi.Crd WeeboSi.Chassis WeeboSi.PolicyGuard WeeboSi.Webhook

structure RoutingObject where
  annotations : Annotations
  labels : TextMap Text
  data : Json

def devworkspaceIdLabel : Text := "controller.devfile.io/devworkspace_id".toList

def RoutingObject.carriesLabel (object : RoutingObject) : Bool :=
  (object.labels.get devworkspaceIdLabel).isSome

/-! ## Reading an object -/

def asStr : Json → Option Text
  | .string value => some value
  | _ => none

/-- A nonnegative integer that fits in 64 bits. -/
def asU64 : Json → Option Nat
  | .number literal =>
    let value := literal.foldl (fun n c => 10 * n + (c.toNat - '0'.toNat)) 0
    if literal ≠ [] ∧ literal.all Char.isDigit = true ∧ value < 2 ^ 64 then some value else none
  | _ => none

def toNamePath : Pointer := ["spec".toList, "to".toList, "name".toList]
def targetPortPath : Pointer := ["spec".toList, "port".toList, "targetPort".toList]

/-- The backend of a `Route`; a port that is no number is 80. -/
def backendOf (object : RoutingObject) (kind : RoutingKind) : Option (Text × UInt16) :=
  if kind ≠ .route then none
  else do
    let service ← (object.data.pointer toNamePath).bind asStr
    let port := ((object.data.pointer targetPortPath).bind asU64).getD 80
    some (service, port.toUInt16)

def hostsOf (object : RoutingObject) : RoutingKind → List Text
  | .route => ((object.data.pointer ["spec".toList, "host".toList]).bind asStr).toList
  | .ingress =>
    match object.data.pointer ["spec".toList, "rules".toList] with
    | some (.array rules) => rules.filterMap fun rule => (memberOf rule "host".toList).bind asStr
    | _ => []

/-! ## The mutation -/

structure RoutingObjectWrite where
  operation : WriteOperation
  namespaceName : Text
  kind : RoutingKind
  annotations : Annotations
  backend : Option (Text × UInt16)

/-- Trimmed, without empties and repetitions, in the order the developer wrote. -/
def normaliseNames (raw : Text) : Text :=
  List.intercalate [','] (((raw.splitOn ',').map trim).filter (· ≠ [])).eraseDups

def dialectName : Dialect → Text
  | .traefik => "Traefik".toList
  | .haproxyIngress => "HaproxyIngress".toList
  | .openShiftRoute => "OpenShiftRoute".toList
  | .custom => "Custom".toList

def modeName : AttachmentMode → Text
  | .forwardAuth => "ForwardAuth".toList
  | .reverseProxy => "ReverseProxy".toList

namespace GateMutation
variable (config : EndpointAuthSpec) (subject : RoutingObjectWrite)

/-- Absent means attach; present but different means leave it to the guard, except on a
`CREATE`. -/
def attaches (key value : Text) : Bool :=
  match subject.annotations.get key with
  | none => true
  | some present => present ≠ value && subject.operation = .create

def retargetIsOurs : Bool :=
  subject.operation = .create || subject.annotations.get endpointAuthAnnotationKey ≠ some endpointAuthManaged

/-- A list of names that is not written as it is read. -/
def normalises (key : Text) : List Mutation :=
  match subject.annotations.get key with
  | some raw => if normaliseNames raw ≠ raw then [.annotate key (normaliseNames raw)] else []
  | none => []

def retargets : Option Retarget → List Mutation
  | some retarget =>
    if retargetIsOurs subject then
      [.setString toNamePath retarget.service, .setString targetPortPath "http".toList]
    else []
  | none => []

def mutations : List Mutation :=
  let attachment := config.attachment subject.annotations subject.backend
  ((attachment.annotations.members.filter fun (key, value) => attaches subject key value).map
      fun (key, value) => .annotate key value)
    ++ retargets subject attachment.retarget
    ++ normalises subject allowUsersAnnotationKey ++ normalises subject allowGroupsAnnotationKey

def evaluate : Decision :=
  .allow (mutations config subject) none
    (some ("dialect=".toList ++ dialectName config.gateway.dialect ++ ";mode=".toList
      ++ modeName config.gateway.dialect.mode ++ ";annotations=".toList
      ++ decimal (config.attachment subject.annotations subject.backend).annotations.members.length))
    "attached".toList

end GateMutation

/-! ## The mutated object -/

def isSetString : Mutation → Bool
  | .setString _ _ => true
  | _ => false

def annotateWith (annotations : Annotations) : Mutation → Annotations
  | .annotate key value => annotations.insert key value
  | _ => annotations

/-- The rendered patch applied: annotations lie in the metadata, every other path in
`data`. -/
def RoutingObject.patched (object : RoutingObject) (mutations : List Mutation) : Option RoutingObject :=
  (applyPatch (renderPatch object.data (mutations.filter isSetString)) object.data).map fun data =>
    { object with annotations := mutations.foldl annotateWith object.annotations, data := data }

/-! ## The guard's subject -/

inductive Operation where
  | create | update | delete | connect
  deriving DecidableEq, Repr

def Operation.write : Operation → WriteOperation
  | create => .create
  | update => .update
  | delete | connect => .delete

structure AdmissionRequest where
  operation : Operation
  namespaceName : Text
  username : Option Text
  object : Option RoutingObject
  oldObject : Option RoutingObject

def AdmissionRequest.withObject (request : AdmissionRequest) (object : RoutingObject) : AdmissionRequest :=
  { request with object := some object }

def AdmissionRequest.actor (request : AdmissionRequest) : Text := request.username.getD "<unknown>".toList

def annotationsOf (object : Option RoutingObject) : Annotations :=
  (object.map RoutingObject.annotations).getD .empty

/-- The keys whose value differs between two maps, in their order. -/
def changedKeys (submitted previous : Annotations) : List Text :=
  (((submitted.members.filter fun (key, value) => previous.get key ≠ some value).map Prod.fst)
    ++ previous.keys.filter fun key => (submitted.get key).isNone).insertionSort fun a b => textLe a b = true

def provenanceOf (operation : WriteOperation) (carries previously : Bool) : Provenance :=
  match operation with
  | .create => if carries then .devfile else .author
  | _ => if previously then .devfile else .author

/-- The annotations the dialect expects and, where the gate is the backend, the backend. -/
def expectedManagedOf (config : EndpointAuthSpec) (expected : Annotations) : List (ManagedField × Text) :=
  (expected.members.map fun (key, value) => (.annotationKey key, value))
    ++ (if config.gateway.dialect.mode = .reverseProxy then [(.fieldPath "spec.to".toList, companionService)]
      else [])

def submittedManagedOf (config : EndpointAuthSpec) (expected submitted : Annotations)
    (backend : Option (Text × UInt16)) : List (ManagedField × Text) :=
  (expected.members.filterMap fun (key, _) =>
      (submitted.get key).map fun value => (.annotationKey key, value))
    ++ (if config.gateway.dialect.mode = .reverseProxy then
      (backend.map fun (service, _) => (.fieldPath "spec.to".toList, service)).toList else [])

section Subject
variable (compile : Text → Option (List Regex)) (request : AdmissionRequest) (kind : RoutingKind)
  (config : EndpointAuthSpec) (namespaceOwner : Option Text) (isUser : Text → Bool)

def hostOwnedByNamespace (hosts : List Text) : Option Bool :=
  if hosts = [] then none
  else match namespaceOwner with
    | some owner => some (hosts.all fun host => config.hosts.ownedBy compile host owner isUser)
    | none => some false

def guardSubject : EndpointRoutingWrite :=
  let operation := request.operation.write
  let submitted := if operation = .delete then request.oldObject else request.object
  let previous := request.oldObject
  let submittedAnnotations := annotationsOf submitted
  let previousAnnotations := annotationsOf previous
  let backend := submitted.bind fun object => backendOf object kind
  let baseline := if operation = .create then submittedAnnotations else previousAnnotations
  let expected := (config.attachment baseline backend).annotations
  let carries := (submitted.map RoutingObject.carriesLabel).getD false
  let previously := (previous.map RoutingObject.carriesLabel).getD false
  { namespaceName := request.namespaceName
    actor := request.actor
    operation
    kind
    provenance := provenanceOf operation carries previously
    changedAnnotations := changedKeys submittedAnnotations previousAnnotations
    otherFieldsChanged := match submitted, previous with
      | some submitted, some previous => submitted.data ≠ previous.data
      | _, _ => false
    expectedManaged := expectedManagedOf config expected
    submittedManaged := submittedManagedOf config expected submittedAnnotations backend
    carriesDevworkspaceLabel := carries
    hostOwnedByNamespace := hostOwnedByNamespace compile config namespaceOwner isUser
      ((submitted.map fun object => hostsOf object kind).getD [])
    introducesBypass := saysBypass submittedAnnotations && !saysBypass previousAnnotations }

end Subject

/-- The guard as the route builds it. -/
def guardOf (operatorIdentity : Text) (config : EndpointAuthSpec) : EndpointRoutingGuard :=
  ⟨operatorIdentity, config.devworkspaceOperatorIdentity, config.breakGlassIdentities⟩

/-! ## One request through both webhooks -/

def routingWrite (request : AdmissionRequest) (kind : RoutingKind) (object : RoutingObject) : RoutingObjectWrite :=
  ⟨request.operation.write, request.namespaceName, kind, object.annotations, backendOf object kind⟩

def mutatedObject (config : EndpointAuthSpec) (request : AdmissionRequest) (kind : RoutingKind)
    (object : RoutingObject) : Option RoutingObject :=
  object.patched (GateMutation.evaluate config (routingWrite request kind object)).mutations

/-- The object is mutated and the guard admits what the mutation made of it. -/
structure Stores (compile : Text → Option (List Regex)) (operatorIdentity : Text) (config : EndpointAuthSpec)
    (namespaceOwner : Option Text) (isUser : Text → Bool) (request : AdmissionRequest) (kind : RoutingKind)
    (object stored : RoutingObject) : Prop where
  mutated : mutatedObject config request kind object = some stored
  admitted : (guardOf operatorIdentity config).admits
    (guardSubject compile (request.withObject stored) kind config namespaceOwner isUser)

/-! ## Writing an object again and again -/

/-- One write, with the configuration and the namespaces as they are read for it. -/
structure RoutingEvent where
  config : EndpointAuthSpec
  namespaceOwner : Option Text
  isUser : Text → Bool
  namespaceName : Text
  username : Option Text
  object : RoutingObject

/-- The first write of an object creates it. -/
def RoutingEvent.request (event : RoutingEvent) (stored : Option RoutingObject) : AdmissionRequest where
  operation := if stored.isSome then .update else .create
  namespaceName := event.namespaceName
  username := event.username
  object := some event.object
  oldObject := stored

/-- Whoever writes is none of the exempt identities. -/
def RoutingEvent.Outsider (operatorIdentity : Text) (event : RoutingEvent) : Prop :=
  ¬ (guardOf operatorIdentity event.config).exempt (event.request none).actor

theorem RoutingEvent.written (event : RoutingEvent) (stored : Option RoutingObject) :
    (event.request stored).operation.write ≠ .delete := by
  cases stored with
  | none => exact fun deleted => by cases deleted
  | some previous => exact fun deleted => by cases deleted

/-! ## What the mutation leaves -/

theorem foldl_annotate (annotations : Annotations) (pairs : List (Text × Text)) :
    (pairs.map fun pair => Mutation.annotate pair.1 pair.2).foldl annotateWith annotations =
      annotations.insertAll pairs := by
  rw [List.foldl_map]
  rfl

/-- The attachment takes the place of what is absent and, on a `CREATE`, of what differs. -/
theorem get_attached (subject : RoutingObjectWrite) (attached : Annotations) (key : Text) :
    (((attached.members.filter fun pair => GateMutation.attaches subject pair.1 pair.2).map
        fun pair => Mutation.annotate pair.1 pair.2).foldl annotateWith subject.annotations).get key =
      ((attached.get key).filter fun value => GateMutation.attaches subject key value).or
        (subject.annotations.get key) := by
  have distinct := attached.distinct.sublist ((List.filter_sublist
    (p := fun pair => GateMutation.attaches subject pair.1 pair.2)).map Prod.fst)
  rw [foldl_annotate, TextMap.get_insertAll _ _ distinct,
    lookup_filter_members attached.members attached.distinct]
  rfl

/-- One of the two lists of names after it is normalised. -/
theorem get_normalises (subject : RoutingObjectWrite) (annotations : Annotations) (key other : Text) :
    ((GateMutation.normalises subject key).foldl annotateWith annotations).get other =
      if other = key then ((subject.annotations.get key).bind fun raw =>
        if normaliseNames raw ≠ raw then some (normaliseNames raw) else none).or (annotations.get other)
      else annotations.get other := by
  unfold GateMutation.normalises
  cases subject.annotations.get key with
  | none => simp
  | some raw =>
    by_cases normal : normaliseNames raw = raw
    · simp [normal]
    · by_cases same : other = key
      · simp [normal, same, annotateWith]
      · simp [normal, same, annotateWith]

/-- A list of names under its key, where normalising it changes it. -/
def renamed (annotations : Annotations) (key : Text) : Option Text :=
  if key = allowUsersAnnotationKey ∨ key = allowGroupsAnnotationKey then
    (annotations.get key).bind fun raw => if normaliseNames raw ≠ raw then some (normaliseNames raw) else none
  else none

/-- What an annotation holds after the mutation: the normalised names, else the attachment,
else what was submitted. -/
theorem get_mutated (config : EndpointAuthSpec) (subject : RoutingObjectWrite) (key : Text) :
    ((GateMutation.mutations config subject).foldl annotateWith subject.annotations).get key =
      (renamed subject.annotations key).or
        ((((config.attachment subject.annotations subject.backend).annotations.get key).filter
          fun value => GateMutation.attaches subject key value).or (subject.annotations.get key)) := by
  have retargeted : ∀ (retarget : Option Retarget) (annotations : Annotations),
      (GateMutation.retargets subject retarget).foldl annotateWith annotations = annotations := by
    intro retarget annotations
    cases retarget with
    | none => rfl
    | some retarget =>
      unfold GateMutation.retargets
      split_ifs <;> rfl
  have distinct : allowGroupsAnnotationKey ≠ allowUsersAnnotationKey := by decide
  unfold GateMutation.mutations
  simp only [List.foldl_append]
  rw [get_normalises, get_normalises, retargeted, get_attached]
  unfold renamed
  by_cases groups : key = allowGroupsAnnotationKey
  · simp [groups, distinct]
  · by_cases users : key = allowUsersAnnotationKey
    · simp [users, distinct.symm]
    · simp [groups, users]

/-- To an object that says `bypass` nothing is attached, and it goes on saying so. -/
theorem mutated_bypass (config : EndpointAuthSpec) (subject : RoutingObjectWrite)
    (submitted : saysBypass subject.annotations = true) :
    saysBypass ((GateMutation.mutations config subject).foldl annotateWith subject.annotations) = true := by
  have nothing : (config.attachment subject.annotations subject.backend).annotations = .empty := by
    unfold EndpointAuthSpec.attachment
    rw [submitted]
    rfl
  have unnamed : renamed subject.annotations endpointAuthAnnotationKey = none := if_neg (by decide)
  unfold saysBypass at submitted ⊢
  rw [get_mutated, nothing, unnamed, TextMap.get_empty, Option.filter_none, Option.none_or, Option.none_or]
  exact submitted

/-- Of the fields only the backend is ever set. -/
theorem mutations_setString (config : EndpointAuthSpec) (subject : RoutingObjectWrite) :
    (GateMutation.mutations config subject).filter isSetString =
      GateMutation.retargets subject (config.attachment subject.annotations subject.backend).retarget := by
  have annotated : ∀ pairs : List (Text × Text),
      (pairs.map fun pair => Mutation.annotate pair.1 pair.2).filter isSetString = [] := by
    intro pairs
    rw [List.filter_eq_nil_iff, List.forall_mem_map]
    intro pair _ set
    cases set
  have named : ∀ key, (GateMutation.normalises subject key).filter isSetString = [] := by
    intro key
    unfold GateMutation.normalises
    split
    · split_ifs <;> rfl
    · rfl
  have retargeted : ∀ retarget : Option Retarget,
      (GateMutation.retargets subject retarget).filter isSetString = GateMutation.retargets subject retarget := by
    intro retarget
    cases retarget with
    | none => rfl
    | some retarget =>
      unfold GateMutation.retargets
      split_ifs <;> rfl
  unfold GateMutation.mutations
  rw [List.filter_append, List.filter_append, List.filter_append, annotated, named, named, retargeted,
    List.nil_append, List.append_nil, List.append_nil]

/-! ## What the guard compares -/

/-- The annotations that are there, under those keys of a list that are. -/
theorem lookup_managed (members : List (Text × Text)) (annotations : Annotations) (key : Text) :
    (members.filterMap fun pair => (annotations.get pair.1).map fun value =>
        (ManagedField.annotationKey pair.1, value)).lookup (.annotationKey key) =
      if key ∈ members.map Prod.fst then annotations.get key else none := by
  induction members with
  | nil => rfl
  | cons member members ih =>
    obtain ⟨k, v⟩ := member
    by_cases same : key = k
    · subst same
      cases found : annotations.get key with
      | none => simp [found, ih]
      | some value => simp [found]
    · have apart : (ManagedField.annotationKey key == .annotationKey k) = false := by simp [same]
      have tail : key ∈ List.map Prod.fst ((k, v) :: members) ↔ key ∈ members.map Prod.fst := by
        rw [List.map_cons, List.mem_cons]
        exact or_iff_right same
      rw [if_congr tail rfl rfl, ← ih]
      cases found : annotations.get k with
      | none => simp [found]
      | some value => simp [found, List.lookup_cons, apart]

section Managed
variable (config : EndpointAuthSpec) (expected submitted : Annotations) (backend : Option (Text × UInt16))

theorem lookup_submitted_key (key : Text) (managed : key ∈ expected.keys) :
    (submittedManagedOf config expected submitted backend).lookup (.annotationKey key) = submitted.get key := by
  unfold TextMap.keys at managed
  unfold submittedManagedOf
  have path : List.lookup (ManagedField.annotationKey key) (if config.gateway.dialect.mode = .reverseProxy then
      (backend.map fun named => (ManagedField.fieldPath "spec.to".toList, named.1)).toList else []) = none := by
    apply lookup_eq_none_of_absent
    cases backend <;> split_ifs <;> simp
  rw [List.lookup_append, lookup_managed, if_pos managed, path, Option.or_none]

theorem lookup_submitted_path (proxied : config.gateway.dialect.mode = .reverseProxy) :
    (submittedManagedOf config expected submitted backend).lookup (.fieldPath "spec.to".toList) =
      backend.map Prod.fst := by
  unfold submittedManagedOf
  have annotated : List.lookup (ManagedField.fieldPath "spec.to".toList)
      (expected.members.filterMap fun pair => (submitted.get pair.1).map fun value =>
        (ManagedField.annotationKey pair.1, value)) = none := by
    apply lookup_eq_none_of_absent
    simp
  rw [List.lookup_append, annotated, if_pos proxied, Option.none_or]
  cases backend <;> simp

/-- Nothing is tampered with when the submitted object holds what is expected. -/
theorem expected_held_iff :
    (∀ pair ∈ expectedManagedOf config expected,
        (submittedManagedOf config expected submitted backend).lookup pair.1 = some pair.2) ↔
      (∀ key value, expected.get key = some value → submitted.get key = some value) ∧
      (config.gateway.dialect.mode = .reverseProxy → backend.map Prod.fst = some companionService) := by
  unfold expectedManagedOf
  rw [List.forall_mem_append, List.forall_mem_map]
  refine and_congr ?_ ?_
  · constructor
    · intro held key value prescribed
      have member := (TextMap.get_eq_some expected key value).mp prescribed
      rw [← lookup_submitted_key config expected submitted backend key (List.mem_map_of_mem member)]
      exact held (key, value) member
    · rintro held ⟨key, value⟩ member
      rw [lookup_submitted_key config expected submitted backend key (List.mem_map_of_mem member)]
      exact held key value ((TextMap.get_eq_some expected key value).mpr member)
  · by_cases proxied : config.gateway.dialect.mode = .reverseProxy
    · rw [if_pos proxied, List.forall_mem_singleton, forall_prop_of_true proxied,
        lookup_submitted_path config expected submitted backend proxied]
    · simp [proxied]

end Managed

/-- The object whose annotations say what the gate should hold. -/
def baselineOf (request : AdmissionRequest) (object : RoutingObject) : Annotations :=
  if request.operation.write = .create then object.annotations else annotationsOf request.oldObject

/-- The stored object carries the label. -/
def AdmissionRequest.previously (request : AdmissionRequest) : Bool :=
  (request.oldObject.map RoutingObject.carriesLabel).getD false

/-- Beside the developer's annotations nothing has changed on the object. -/
structure Frozen (previous object : RoutingObject) : Prop where
  data : object.data = previous.data
  annotations : ∀ key ∉ developerAnnotations, object.annotations.get key = previous.annotations.get key

/-- The gate's own fields hold what is expected after the stored object. -/
structure Pinned (config : EndpointAuthSpec) (kind : RoutingKind) (previous object : RoutingObject) : Prop where
  annotations : ∀ key value,
    (config.attachment previous.annotations (backendOf object kind)).annotations.get key = some value →
      object.annotations.get key = some value
  backend : config.gateway.dialect.mode = .reverseProxy →
    (backendOf object kind).map Prod.fst = some companionService

theorem mem_changedKeys (submitted previous : Annotations) (key : Text) :
    key ∈ changedKeys submitted previous ↔ submitted.get key ≠ previous.get key := by
  unfold changedKeys
  rw [List.mem_insertionSort, List.mem_append, List.mem_filter, TextMap.mem_keys]
  simp only [List.mem_map, List.mem_filter, Prod.exists, exists_and_right, exists_eq_right,
    ← TextMap.get_eq_some, decide_eq_true_eq]
  cases submitted.get key with
  | none => cases previous.get key <;> simp
  | some value =>
    rw [ne_comm]
    simp

theorem developer_changes_only (submitted previous : Annotations) :
    (changedKeys submitted previous).filter (fun key => !developerAnnotations.contains key) = [] ↔
      ∀ key ∉ developerAnnotations, submitted.get key = previous.get key := by
  simp only [List.filter_eq_nil_iff, mem_changedKeys, Bool.not_eq_true', Bool.not_eq_false,
    List.contains_iff_mem]
  refine forall_congr' fun key => ?_
  exact not_imp_comm.trans Iff.rfl

section Written
variable (compile : Text → Option (List Regex)) (request : AdmissionRequest) (kind : RoutingKind)
  (config : EndpointAuthSpec) (namespaceOwner : Option Text) (isUser : Text → Bool) (object : RoutingObject)
  (written : request.operation.write ≠ .delete)
include written

theorem guardSubject_bypass :
    (guardSubject compile (request.withObject object) kind config namespaceOwner isUser).introducesBypass =
      (saysBypass object.annotations && !saysBypass (annotationsOf request.oldObject)) := by
  simp [guardSubject, AdmissionRequest.withObject, written, annotationsOf]

theorem guardSubject_label :
    (guardSubject compile (request.withObject object) kind config namespaceOwner isUser).carriesDevworkspaceLabel =
      object.carriesLabel := by
  simp [guardSubject, AdmissionRequest.withObject, written]

theorem guardSubject_provenance :
    (guardSubject compile (request.withObject object) kind config namespaceOwner isUser).provenance =
      provenanceOf request.operation.write object.carriesLabel request.previously := by
  simp [guardSubject, AdmissionRequest.withObject, written, AdmissionRequest.previously]

theorem guardSubject_host :
    (guardSubject compile (request.withObject object) kind config namespaceOwner isUser).hostOwnedByNamespace =
      hostOwnedByNamespace compile config namespaceOwner isUser (hostsOf object kind) := by
  simp [guardSubject, AdmissionRequest.withObject, written]

theorem guardSubject_tampered :
    (guardSubject compile (request.withObject object) kind config namespaceOwner isUser).tampered = [] ↔
      (∀ key value, (config.attachment (baselineOf request object) (backendOf object kind)).annotations.get key =
        some value → object.annotations.get key = some value) ∧
      (config.gateway.dialect.mode = .reverseProxy →
        (backendOf object kind).map Prod.fst = some companionService) := by
  rw [← expected_held_iff config _ object.annotations (backendOf object kind)]
  unfold EndpointRoutingWrite.tampered guardSubject
  simp only [AdmissionRequest.withObject, written, if_false, annotationsOf, Option.map_some, Option.getD_some,
    Option.bind_some]
  rw [List.map_eq_nil_iff, List.filter_eq_nil_iff]
  simp only [decide_eq_true_eq, not_not, baselineOf, annotationsOf]

theorem guardSubject_frozen (previous : RoutingObject) (before : request.oldObject = some previous) :
    let subject := guardSubject compile (request.withObject object) kind config namespaceOwner isUser
    subject.nonDeveloperAnnotationChanges = [] ∧ subject.otherFieldsChanged = false ↔ Frozen previous object := by
  unfold EndpointRoutingWrite.nonDeveloperAnnotationChanges guardSubject
  simp only [AdmissionRequest.withObject, written, if_false, annotationsOf, before, Option.map_some,
    Option.getD_some, developer_changes_only, decide_eq_false_iff_not, not_not]
  exact ⟨fun kept => ⟨kept.2, kept.1⟩, fun frozen => ⟨frozen.annotations, frozen.data⟩⟩

end Written

section Permits
open EndpointRoutingGuard
variable (compile : Text → Option (List Regex)) (request : AdmissionRequest) (kind : RoutingKind)
  (config : EndpointAuthSpec) (namespaceOwner : Option Text) (isUser : Text → Bool) (object : RoutingObject)

/-- The host rows let pass. -/
def HostsPass : Prop :=
  hostOwnedByNamespace compile config namespaceOwner isUser (hostsOf object kind) ≠ some false

theorem permitted_create_iff (create : request.operation.write = .create) :
    Permitted (guardSubject compile (request.withObject object) kind config namespaceOwner isUser) ↔
      (saysBypass object.annotations && !saysBypass (annotationsOf request.oldObject)) = false ∧
      object.carriesLabel = false ∧ HostsPass compile kind config namespaceOwner isUser object := by
  have written : request.operation.write ≠ .delete := by
    rw [create]
    decide
  have made : (guardSubject compile (request.withObject object) kind config namespaceOwner isUser).operation =
      .create := create
  have forged : ¬ (object.carriesLabel = true ∧
      provenanceOf request.operation.write object.carriesLabel request.previously = .devfile) ↔
        object.carriesLabel = false := by
    rw [create]
    cases object.carriesLabel <;> simp [provenanceOf]
  rw [← forged, ← guardSubject_bypass compile request kind config namespaceOwner isUser object written,
    ← guardSubject_provenance compile request kind config namespaceOwner isUser object written,
    ← guardSubject_label compile request kind config namespaceOwner isUser object written, HostsPass,
    ← guardSubject_host compile request kind config namespaceOwner isUser object written]
  exact ⟨fun permitted => ⟨permitted.bypass, permitted.label, permitted.host⟩,
    fun given => ⟨given.1, given.2.1, given.2.2, Or.inl made⟩⟩

/-- An update of `previous`. -/
structure UpdatePermitted (previous : RoutingObject) : Prop where
  bypass : (saysBypass object.annotations && !saysBypass previous.annotations) = false
  label : ¬ (object.carriesLabel = true ∧ previous.carriesLabel = true)
  host : HostsPass compile kind config namespaceOwner isUser object
  pinned : Pinned config kind previous object
  frozen : previous.carriesLabel = true → Frozen previous object

theorem permitted_update_iff (update : request.operation.write = .update) (previous : RoutingObject)
    (before : request.oldObject = some previous) :
    Permitted (guardSubject compile (request.withObject object) kind config namespaceOwner isUser) ↔
      UpdatePermitted compile kind config namespaceOwner isUser object previous := by
  have written : request.operation.write ≠ .delete := by
    rw [update]
    decide
  have updated : (guardSubject compile (request.withObject object) kind config namespaceOwner isUser).operation =
      .update := update
  have bypass := guardSubject_bypass compile request kind config namespaceOwner isUser object written
  have label := guardSubject_label compile request kind config namespaceOwner isUser object written
  have host := guardSubject_host compile request kind config namespaceOwner isUser object written
  have tampered := guardSubject_tampered compile request kind config namespaceOwner isUser object written
  have frozen := guardSubject_frozen compile request kind config namespaceOwner isUser object written previous
    before
  have provenance := guardSubject_provenance compile request kind config namespaceOwner isUser object written
  have generated : provenanceOf request.operation.write object.carriesLabel request.previously = .devfile ↔
      previous.carriesLabel = true := by
    have carried : request.previously = previous.carriesLabel := by
      rw [AdmissionRequest.previously, before, Option.map_some, Option.getD_some]
    rw [update, carried]
    cases previous.carriesLabel <;> simp [provenanceOf]
  have baseline : baselineOf request object = previous.annotations := by
    simp [baselineOf, update, before, annotationsOf]
  rw [before] at bypass
  rw [baseline] at tampered
  rw [← provenance] at generated
  constructor
  · intro permitted
    have kept := permitted.kept.resolve_left (by simp [updated])
    obtain ⟨held, backend⟩ := tampered.mp kept.managed
    refine ⟨bypass.symm.trans permitted.bypass, ?_, fun foreign => permitted.host (host.trans foreign),
      ⟨held, backend⟩, ?_⟩
    · exact fun both => permitted.label ⟨label.trans both.1, generated.mpr both.2⟩
    · exact fun carries => frozen.mp (kept.projection (generated.mpr carries))
  · intro given
    refine ⟨bypass.trans given.bypass, ?_, fun foreign => given.host (host.symm.trans foreign),
      Or.inr ⟨?_, ?_⟩⟩
    · exact fun both => given.label ⟨label.symm.trans both.1, generated.mp both.2⟩
    · exact tampered.mpr ⟨given.pinned.annotations, given.pinned.backend⟩
    · exact fun devfile => frozen.mpr (given.frozen (generated.mp devfile))

end Permits

end WeeboSi.EndpointAuthAdapters
