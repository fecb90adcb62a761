import WeeboSi.EndpointAuthAdapters.Admission

/-!
# No Ingress is stored ungated

Source: crates/weebo-si-endpoint-auth-adapters/src/endpoint_auth.rs:132-221, 370-516 through
crates/weebo-si-policy-guard/src/endpoint_routing.rs:166-295, for the dialects in which the
router asks the gateway.
-/
namespace WeeboSi.EndpointAuthAdapters
open WeeboSi.Lib WeeboSi.Crd WeeboSi.Chassis WeeboSi.PolicyGuard WeeboSi.Webhook EndpointRoutingGuard

/-- What a forward-auth dialect writes on every object that does not say `bypass`. -/
def prescribed (config : EndpointAuthSpec) : Annotations :=
  (config.gateway.dialect.annotations config.gateway).insert endpointAuthAnnotationKey endpointAuthManaged

/-- What becomes of a value that is submitted under a prescribed key. -/
def settled (operation : WriteOperation) (key raw value : Text) : Text :=
  if (key = allowUsersAnnotationKey ∨ key = allowGroupsAnnotationKey) ∧ normaliseNames raw ≠ raw then
    normaliseNames raw
  else if operation = .create then value else raw

/-- No submitted value outlives the mutation under a key that is prescribed another. -/
def NoConflict (config : EndpointAuthSpec) (operation : WriteOperation) (annotations : Annotations) : Prop :=
  ∀ key value, (prescribed config).get key = some value →
    ∀ raw, annotations.get key = some raw → settled operation key raw value = value

/-- The object with its annotations mutated. -/
def mutatedIngress (config : EndpointAuthSpec) (request : AdmissionRequest) (object : RoutingObject) :
    RoutingObject :=
  { object with
    annotations := (GateMutation.mutations config (routingWrite request .ingress object)).foldl annotateWith
      object.annotations }

theorem prescribed_marker (config : EndpointAuthSpec) :
    (prescribed config).get endpointAuthAnnotationKey = some endpointAuthManaged := by
  simp [prescribed]

section Forward
variable (config : EndpointAuthSpec) (forward : config.gateway.dialect.mode = .forwardAuth)
include forward

theorem attachment_forward (current : Annotations) (plain : saysBypass current = false)
    (backend : Option (Text × UInt16)) : config.attachment current backend = ⟨prescribed config, none⟩ := by
  simp [EndpointAuthSpec.attachment, plain, forward, prescribed]

theorem retarget_forward (current : Annotations) (backend : Option (Text × UInt16)) :
    (config.attachment current backend).retarget = none := by
  cases plain : saysBypass current with
  | true => simp [EndpointAuthSpec.attachment, plain]
  | false => rw [attachment_forward config forward current plain]

/-- Only annotations are mutated. -/
theorem mutatedObject_forward (request : AdmissionRequest) (object : RoutingObject) :
    mutatedObject config request .ingress object = some (mutatedIngress config request object) := by
  have paths : (GateMutation.mutations config (routingWrite request .ingress object)).filter isSetString = [] := by
    rw [mutations_setString, retarget_forward config forward]
    rfl
  unfold mutatedObject RoutingObject.patched GateMutation.evaluate
  simp only [Decision.allow, paths]
  rfl

/-- What a prescribed annotation holds in the mutated object. -/
theorem get_prescribed (subject : RoutingObjectWrite) (plain : saysBypass subject.annotations = false)
    (key value : Text) (written : (prescribed config).get key = some value) :
    ((GateMutation.mutations config subject).foldl annotateWith subject.annotations).get key =
      some (((subject.annotations.get key).map fun raw => settled subject.operation key raw value).getD value) := by
  rw [get_mutated, attachment_forward config forward _ plain, written]
  unfold renamed settled GateMutation.attaches
  cases submitted : subject.annotations.get key with
  | none => simp
  | some raw =>
    by_cases names : (key = allowUsersAnnotationKey ∨ key = allowGroupsAnnotationKey) ∧ normaliseNames raw ≠ raw
    · simp [names]
    · have unnamed : (if key = allowUsersAnnotationKey ∨ key = allowGroupsAnnotationKey then
          (some raw).bind fun raw => if normaliseNames raw ≠ raw then some (normaliseNames raw) else none
          else none) = none := by
        split_ifs with key_
        · simp only [key_, true_and, not_not] at names
          simp [names]
        · rfl
      rw [unnamed]
      by_cases create : subject.operation = .create
      · by_cases same : raw = value
        · subst same
          simp [names, create, Option.filter]
        · simp [names, create, same, Option.filter]
      · simp [names, create, Option.filter]

/-- The mutation neither sets nor removes `bypass`. -/
theorem saysBypass_mutated (subject : RoutingObjectWrite) :
    saysBypass ((GateMutation.mutations config subject).foldl annotateWith subject.annotations) =
      saysBypass subject.annotations := by
  have key : ¬ (endpointAuthAnnotationKey = allowUsersAnnotationKey ∨
      endpointAuthAnnotationKey = allowGroupsAnnotationKey) := by decide
  cases plain : saysBypass subject.annotations with
  | true => exact mutated_bypass config subject plain
  | false =>
    unfold saysBypass
    rw [get_prescribed config forward subject plain _ _ (prescribed_marker config)]
    unfold saysBypass at plain
    cases submitted : subject.annotations.get endpointAuthAnnotationKey with
    | none =>
      rw [Option.map_none, Option.getD_none]
      decide
    | some raw =>
      rw [submitted] at plain
      by_cases create : subject.operation = .create
      · simp only [settled, key, false_and, if_false, create, if_true, Option.map_some, Option.getD_some]
        decide
      · simpa [settled, key, create] using plain

theorem saysBypass_mutatedIngress (request : AdmissionRequest) (object : RoutingObject) :
    saysBypass (mutatedIngress config request object).annotations = saysBypass object.annotations :=
  saysBypass_mutated config forward (routingWrite request .ingress object)

theorem get_mutatedIngress (request : AdmissionRequest) (object : RoutingObject)
    (plain : saysBypass object.annotations = false) (key value : Text)
    (written : (prescribed config).get key = some value) :
    (mutatedIngress config request object).annotations.get key =
      some (((object.annotations.get key).map fun raw => settled request.operation.write key raw value).getD
        value) :=
  get_prescribed config forward (routingWrite request .ingress object) plain key value written

end Forward

/-! ## Both webhooks -/

section Request
variable (compile : Text → Option (List Regex)) (operatorIdentity : Text) (config : EndpointAuthSpec)
  (namespaceOwner : Option Text) (isUser : Text → Bool) (request : AdmissionRequest) (object : RoutingObject)

/-- Every annotation that the attachment prescribes stands in whatever is stored. -/
def StoredGated : Prop :=
  ∀ stored, Stores compile operatorIdentity config namespaceOwner isUser request .ingress object stored →
    ∀ current, saysBypass current = false → ∀ key value,
      (config.attachment current (backendOf stored .ingress)).annotations.get key = some value →
        stored.annotations.get key = some value

/-- The guard refuses the request, or compares the gate by value. -/
def GuardDecides : Prop :=
  saysBypass object.annotations = true ∨
    request.actor ≠ config.devworkspaceOperatorIdentity ∧
      (request.operation.write = .update ∨ object.carriesLabel = true ∨
        hostOwnedByNamespace compile config namespaceOwner isUser (hostsOf object .ingress) = some false)

theorem guarded_iff (stored : RoutingObject) (written : request.operation.write ≠ .delete)
    (outsider : request.actor ≠ operatorIdentity ∧ request.actor ∉ config.breakGlassIdentities)
    (unbypassed : saysBypass (annotationsOf request.oldObject) = false) :
    (guardOf operatorIdentity config).admits
        (guardSubject compile (request.withObject stored) .ingress config namespaceOwner isUser) ↔
      saysBypass stored.annotations = false ∧
        (request.actor = config.devworkspaceOperatorIdentity ∨
          Permitted (guardSubject compile (request.withObject stored) .ingress config namespaceOwner
            isUser)) := by
  have actor : (guardSubject compile (request.withObject stored) .ingress config namespaceOwner
      isUser).actor = request.actor := rfl
  have operation : (guardSubject compile (request.withObject stored) .ingress config namespaceOwner
      isUser).operation = request.operation.write := rfl
  have bypass := guardSubject_bypass compile request .ingress config namespaceOwner
    isUser stored written
  simp only [unbypassed, Bool.not_false, Bool.and_true] at bypass
  rw [EndpointRoutingGuard.admits_iff, actor, operation, bypass]
  have permitted : Permitted (guardSubject compile (request.withObject stored) .ingress config
      namespaceOwner isUser) → saysBypass stored.annotations = false := fun given => bypass ▸ given.bypass
  have operator : ¬ request.actor = (guardOf operatorIdentity config).operatorIdentity := outsider.1
  have breakGlass : request.actor ∉ (guardOf operatorIdentity config).breakGlassIdentities := outsider.2
  change _ ∨ _ ∨ (request.actor = config.devworkspaceOperatorIdentity ∧ _) ∨ _ ∨ _ ↔ _
  tauto

/-- An update that the guard permits holds everything that is prescribed. -/
theorem gated_of_permitted (forward : config.gateway.dialect.mode = .forwardAuth)
    (unbypassed : saysBypass (annotationsOf request.oldObject) = false) (stored : RoutingObject)
    (update : request.operation.write = .update)
    (permitted : Permitted (guardSubject compile (request.withObject stored) .ingress config
      namespaceOwner isUser)) (key value : Text) (prescribes : (prescribed config).get key = some value) :
    stored.annotations.get key = some value := by
  have written : request.operation.write ≠ .delete := by
    rw [update]
    decide
  have kept := permitted.kept.resolve_left fun create => by
    change request.operation.write = .create at create
    rw [update] at create
    cases create
  have held := ((guardSubject_tampered compile request .ingress config
    namespaceOwner isUser stored written).mp kept.managed).1
  have baseline : baselineOf request stored = annotationsOf request.oldObject := by
    simp [baselineOf, update]
  rw [baseline, attachment_forward config forward _ unbypassed] at held
  exact held key value prescribes

/-- Whoever the guard refuses for none of its reasons passes. -/
theorem passes_guard (forward : config.gateway.dialect.mode = .forwardAuth)
    (written : request.operation.write ≠ .delete) (plain : saysBypass object.annotations = false)
    (passes : ¬ (request.actor ≠ config.devworkspaceOperatorIdentity ∧
      (request.operation.write = .update ∨ object.carriesLabel = true ∨
        hostOwnedByNamespace compile config namespaceOwner isUser (hostsOf object .ingress) = some false))) :
    request.actor = config.devworkspaceOperatorIdentity ∨
      Permitted (guardSubject compile (request.withObject (mutatedIngress config request object))
        .ingress config namespaceOwner isUser) := by
  by_cases dwo : request.actor = config.devworkspaceOperatorIdentity
  · exact Or.inl dwo
  · right
    have passes := not_or.mp fun refused => passes ⟨dwo, refused⟩
    have unlabelled : (mutatedIngress config request object).carriesLabel = false :=
      Bool.eq_false_of_not_eq_true (not_or.mp passes.2).1
    have owned := (not_or.mp passes.2).2
    refine (permitted_create_iff compile request .ingress config namespaceOwner isUser _
      (request.operation.write.eq_create passes.1 written)).mpr ⟨?_, unlabelled, owned⟩
    rw [saysBypass_mutatedIngress config forward, plain, Bool.false_and]

/-- A created object that carries the label, or claims the host of another, is refused. -/
theorem refused_create (annotations : Annotations) (written : request.operation.write ≠ .delete)
    (fresh : request.operation.write ≠ .update)
    (refused : object.carriesLabel = true ∨
      hostOwnedByNamespace compile config namespaceOwner isUser (hostsOf object .ingress) = some false) :
    ¬ Permitted (guardSubject compile (request.withObject { object with annotations := annotations })
      .ingress config namespaceOwner isUser) := by
  intro permitted
  obtain ⟨-, plain, passes⟩ := (permitted_create_iff compile request .ingress config namespaceOwner isUser _
    (request.operation.write.eq_create fresh written)).mp permitted
  rcases refused with labelled | foreign
  · have carries : RoutingObject.carriesLabel { object with annotations := annotations } = true := labelled
    rw [carries] at plain
    cases plain
  · exact passes foreign

section Gate
variable (forward : config.gateway.dialect.mode = .forwardAuth) (written : request.operation.write ≠ .delete)
  (outsider : request.actor ≠ operatorIdentity ∧ request.actor ∉ config.breakGlassIdentities)
  (unbypassed : saysBypass (annotationsOf request.oldObject) = false)
include forward written outsider unbypassed

/-- The object both webhooks leave. -/
theorem stores_iff (stored : RoutingObject) :
    Stores compile operatorIdentity config namespaceOwner isUser request .ingress object stored ↔
      stored = mutatedIngress config request object ∧
      saysBypass object.annotations = false ∧
        (request.actor = config.devworkspaceOperatorIdentity ∨
          Permitted (guardSubject compile (request.withObject stored) .ingress config namespaceOwner
            isUser)) := by
  have bypass := saysBypass_mutatedIngress config forward request object
  constructor
  · rintro ⟨mutated, admitted⟩
    rw [mutatedObject_forward config forward] at mutated
    cases mutated
    rw [guarded_iff compile operatorIdentity config namespaceOwner isUser request _ written outsider unbypassed,
      bypass] at admitted
    exact ⟨rfl, admitted⟩
  · rintro ⟨rfl, admitted⟩
    refine ⟨mutatedObject_forward config forward _ _, ?_⟩
    rw [guarded_iff compile operatorIdentity config namespaceOwner isUser request _ written outsider unbypassed,
      bypass]
    exact admitted

/-- An Ingress is stored gated exactly when the guard refuses it or compares the gate by
value, or when nothing submitted conflicts with what is prescribed. -/
theorem ingress_gated_iff :
    StoredGated compile operatorIdentity config namespaceOwner isUser request object ↔
      GuardDecides compile config namespaceOwner isUser request object ∨
        NoConflict config request.operation.write object.annotations := by
  have stores := stores_iff compile operatorIdentity config namespaceOwner isUser request object forward written
    outsider unbypassed
  constructor
  · intro gated
    by_contra neither
    obtain ⟨undecided, conflict⟩ := not_or.mp neither
    obtain ⟨bypass, passes⟩ := not_or.mp undecided
    have plain : saysBypass object.annotations = false := by simpa using bypass
    have stored := (stores _).mpr ⟨rfl, plain,
      passes_guard compile config namespaceOwner isUser request object forward written plain passes⟩
    apply conflict
    intro key value prescribes raw submitted
    have held := gated _ stored .empty rfl key value (by rwa [attachment_forward config forward _ rfl])
    rw [get_mutatedIngress config forward request object plain key value prescribes, submitted, Option.map_some,
      Option.getD_some] at held
    exact Option.some.inj held
  · rintro either stored stores_ current plainCurrent key value attached
    obtain ⟨rfl, plain, passed⟩ := (stores stored).mp stores_
    rw [attachment_forward config forward current plainCurrent] at attached
    rcases either with (bypass | ⟨developer, refused⟩) | settles
    · rw [plain] at bypass
      cases bypass
    · have permitted := passed.resolve_left developer
      by_cases update : request.operation.write = .update
      · exact gated_of_permitted compile config namespaceOwner isUser request forward unbypassed _ update permitted
          key value attached
      · exact absurd permitted (refused_create compile config namespaceOwner isUser request object _ written update
          (refused.resolve_left update))
    · rw [get_mutatedIngress config forward request object plain key value attached]
      cases submitted : object.annotations.get key with
      | none => rfl
      | some raw => rw [Option.map_some, Option.getD_some, settles key value attached raw submitted]

end Gate

end Request

/-! ## A cluster on Traefik -/

def middlewaresKey : Text := "traefik.ingress.kubernetes.io/router.middlewares".toList

/-- The gate as the dialect writes it. -/
def gatedIngress : RoutingObject := ⟨prescribed (clusterSpec .traefik), .empty, .object []⟩

/-- A chain that a devfile has written. -/
def devfileIngress : RoutingObject :=
  ⟨.ofList [(middlewaresKey, "user-alice-strip@kubernetescrd".toList)], .empty, .object []⟩

def ingressRequest (operation : Operation) (oldObject : Option RoutingObject) : AdmissionRequest :=
  ⟨operation, "user-alice".toList, some dwoIdentity, none, oldObject⟩

/-- The same chain on a `CREATE` is corrected. -/
theorem ingress_gated_create :
    StoredGated (fun _ => none) operatorName (clusterSpec .traefik) none (fun _ => false)
      (ingressRequest .create none) devfileIngress := by
  refine (ingress_gated_iff (fun _ => none) operatorName (clusterSpec .traefik) none (fun _ => false)
    (ingressRequest .create none) devfileIngress rfl (by decide) ⟨by decide, by decide⟩ rfl).mpr (Or.inr ?_)
  intro key value prescribes raw submitted
  have unwritten : ∀ name ∈ [allowUsersAnnotationKey, allowGroupsAnnotationKey], key ≠ name := by
    rintro name member rfl
    have absent : (prescribed (clusterSpec .traefik)).get key = none := by
      rcases List.mem_pair.mp member with rfl | rfl
      · decide +kernel
      · decide +kernel
    rw [absent] at prescribes
    cases prescribes
  have names : ¬ (key = allowUsersAnnotationKey ∨ key = allowGroupsAnnotationKey) :=
    not_or.mpr ⟨unwritten _ (by simp), unwritten _ (by simp)⟩
  simp [settled, names, ingressRequest, Operation.write]

/-- The DevWorkspace Operator regenerates a gated object with the chain: it is stored. -/
theorem dwo_update_ungated :
    ¬ ∀ (compile : Text → Option (List Regex)) (operatorIdentity : Text) (usable : Text → Bool)
      (resolved : ResolvedEndpointAuthSpec) (teams : List Team) (namespaceOwner : Option Text)
      (isUser : Text → Bool) (request : AdmissionRequest) (object : RoutingObject),
      resolved.validate usable teams = [] → resolved.config.gateway.dialect.mode = .forwardAuth →
      request.operation.write ≠ .delete →
      request.actor ≠ operatorIdentity ∧ request.actor ∉ resolved.config.breakGlassIdentities →
      saysBypass (annotationsOf request.oldObject) = false →
      StoredGated compile operatorIdentity resolved.config namespaceOwner isUser request object := by
  intro given
  have gated := given (fun _ => none) operatorName (fun _ => false) ⟨clusterSpec .traefik, []⟩ [] none
    (fun _ => false) (ingressRequest .update (some gatedIngress)) devfileIngress (by decide +kernel) rfl (by decide)
    ⟨by decide, by decide⟩ (by decide +kernel)
  have held := gated _ ⟨rfl, rfl⟩ .empty rfl middlewaresKey _ rfl
  exact absurd held (by decide +kernel)

end WeeboSi.EndpointAuthAdapters
