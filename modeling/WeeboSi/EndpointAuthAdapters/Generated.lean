import WeeboSi.EndpointAuthAdapters.Admission
import WeeboSi.EndpointAuthAdapters.CompileError
import WeeboSi.Lib.Run

/-!
# Objects that DevWorkspace Operator generates

Source: crates/weebo-si-endpoint-auth-adapters/src/endpoint_auth.rs:370-516 through
crates/weebo-si-policy-guard/src/endpoint_routing.rs:166-295. What whoever is not exempt can make
of one object by writing it again and again.
-/
namespace WeeboSi.EndpointAuthAdapters
open WeeboSi.Lib WeeboSi.Crd WeeboSi.Chassis WeeboSi.PolicyGuard EndpointRoutingGuard

section Writes
variable (compile : Text → Option (List Regex)) (operatorIdentity : Text) (kind : RoutingKind)

def RoutingEvent.subject (event : RoutingEvent) (stored : Option RoutingObject) : EndpointRoutingWrite :=
  guardSubject compile (event.request stored) kind event.config event.namespaceOwner event.isUser

def routingStep (stored : Option RoutingObject) (event : RoutingEvent) : Option RoutingObject :=
  if ((guardOf operatorIdentity event.config).evaluate (event.subject compile kind stored)).denial = none then
    some event.object
  else stored

/-- The rows other than the fourth refuse the update. -/
def RoutingEvent.RefusedElsewhere (event : RoutingEvent) (previous : RoutingObject) : Prop :=
  (saysBypass event.object.annotations && !saysBypass previous.annotations) = true ∨
  ¬ HostsPass compile kind event.config event.namespaceOwner event.isUser event.object ∨
  ¬ Pinned event.config kind previous event.object ∨
  (previous.carriesLabel = true ∧ ¬ Frozen previous event.object)

/-! ## One write -/

theorem outsider_admits_iff (event : RoutingEvent) (stored : Option RoutingObject)
    (outsider : event.Outsider operatorIdentity) :
    (guardOf operatorIdentity event.config).admits (event.subject compile kind stored) ↔
      Permitted (event.subject compile kind stored) :=
  admits_iff_permitted (guardOf operatorIdentity event.config) (event.subject compile kind stored) outsider
    (event.written stored)

theorem create_admits_iff (event : RoutingEvent) (outsider : event.Outsider operatorIdentity) :
    (guardOf operatorIdentity event.config).admits (event.subject compile kind none) ↔
      saysBypass event.object.annotations = false ∧ event.object.carriesLabel = false ∧
      HostsPass compile kind event.config event.namespaceOwner event.isUser event.object := by
  have permits := permitted_create_iff compile (event.request none) kind event.config event.namespaceOwner
    event.isUser event.object rfl
  have fresh : saysBypass (annotationsOf (event.request none).oldObject) = false := rfl
  rw [fresh, Bool.not_false, Bool.and_true] at permits
  exact (outsider_admits_iff compile operatorIdentity kind event none outsider).trans permits

theorem update_admits_iff (event : RoutingEvent) (previous : RoutingObject)
    (outsider : event.Outsider operatorIdentity) :
    (guardOf operatorIdentity event.config).admits (event.subject compile kind (some previous)) ↔
      ¬ (event.object.carriesLabel = true ∧ previous.carriesLabel = true) ∧
      ¬ event.RefusedElsewhere compile kind previous := by
  have permits := permitted_update_iff compile (event.request (some previous)) kind event.config
    event.namespaceOwner event.isUser event.object rfl previous rfl
  have guarded := outsider_admits_iff compile operatorIdentity kind event (some previous) outsider
  refine (guarded.trans permits).trans ?_
  constructor
  · intro given
    refine ⟨given.label, ?_⟩
    rintro (bypass | foreign | loose | ⟨carries, edited⟩)
    · rw [given.bypass] at bypass
      cases bypass
    · exact foreign given.host
    · exact loose given.pinned
    · exact edited (given.frozen carries)
  · rintro ⟨label, passed⟩
    simp only [RoutingEvent.RefusedElsewhere, not_or, not_and, not_not, Bool.not_eq_true] at passed
    exact ⟨passed.1, label, passed.2.1, passed.2.2.1, passed.2.2.2⟩

/-! ## A run of writes -/

def labelled (stored : Option RoutingObject) : Bool := (stored.map RoutingObject.carriesLabel).getD false

/-- The label is where it was, and what DevWorkspace Operator generated is as it was. -/
structure Preserved (start stored : Option RoutingObject) : Prop where
  label : labelled stored = labelled start
  frozen : ∀ first, start = some first → first.carriesLabel = true →
    ∃ object, stored = some object ∧ Frozen first object

/-- An update has the label where the stored object has it, or is refused for another
reason. -/
def LabelKept (stored : Option RoutingObject) (event : RoutingEvent) : Prop :=
  ∀ previous, stored = some previous →
    event.object.carriesLabel = previous.carriesLabel ∨ event.RefusedElsewhere compile kind previous

theorem preserved_refl (start : Option RoutingObject) : Preserved start start :=
  ⟨rfl, fun first present _ => ⟨first, present, rfl, fun _ _ => rfl⟩⟩

theorem routingStep_eq (stored : Option RoutingObject) (event : RoutingEvent)
    (admitted : (guardOf operatorIdentity event.config).admits (event.subject compile kind stored)) :
    routingStep compile operatorIdentity kind stored event = some event.object := if_pos admitted

theorem routingStep_refused (stored : Option RoutingObject) (event : RoutingEvent)
    (refused : ¬ (guardOf operatorIdentity event.config).admits (event.subject compile kind stored)) :
    routingStep compile operatorIdentity kind stored event = stored := if_neg refused

/-- What was not labelled at the start is free to change otherwise. -/
theorem preserved_unlabelled (start : Option RoutingObject) (object : RoutingObject)
    (plain : labelled start = false) (kept : object.carriesLabel = false) : Preserved start (some object) := by
  refine ⟨kept.trans plain.symm, ?_⟩
  rintro first rfl carries
  rw [show labelled (some first) = true from carries] at plain
  cases plain

/-- A write by an outsider preserves exactly when it keeps the label. -/
theorem step_preserves_iff (start stored : Option RoutingObject) (event : RoutingEvent)
    (preserved : Preserved start stored) (outsider : event.Outsider operatorIdentity) :
    Preserved start (routingStep compile operatorIdentity kind stored event) ↔
      LabelKept compile kind stored event := by
  by_cases admitted : (guardOf operatorIdentity event.config).admits (event.subject compile kind stored)
  · rw [routingStep_eq compile operatorIdentity kind stored event admitted]
    cases stored with
    | none =>
      have plain := ((create_admits_iff compile operatorIdentity kind event outsider).mp admitted).2.1
      refine iff_of_true (preserved_unlabelled start event.object preserved.label.symm plain) ?_
      intro previous absent
      cases absent
    | some previous =>
      rw [update_admits_iff compile operatorIdentity kind event previous outsider] at admitted
      obtain ⟨apart, passed⟩ := admitted
      have before : previous.carriesLabel = labelled start := preserved.label
      constructor
      · intro after previous' same
        cases same
        exact Or.inl (Eq.trans after.label before.symm)
      · intro kept
        have same := (kept previous rfl).resolve_right passed
        have plain : event.object.carriesLabel = false := by
          by_contra carries
          rw [Bool.not_eq_false] at carries
          exact apart ⟨carries, same ▸ carries⟩
        exact preserved_unlabelled start event.object (by rw [← before, ← same, plain]) plain
  · rw [routingStep_refused compile operatorIdentity kind stored event admitted]
    refine iff_of_true preserved ?_
    rintro previous rfl
    rw [update_admits_iff compile operatorIdentity kind event previous outsider] at admitted
    by_cases refused : event.RefusedElsewhere compile kind previous
    · exact Or.inr refused
    · left
      have both := not_not.mp fun apart => admitted ⟨apart, refused⟩
      exact both.1.trans both.2.symm

/-- In a run of writes by outsiders every object reached has the label where it was, and a
generated one its spec and annotations, exactly when every update keeps the label. -/
theorem generated_preserved_iff (start : Option RoutingObject) (events : List RoutingEvent)
    (outsiders : ∀ event ∈ events, event.Outsider operatorIdentity) :
    (∀ done, done <+: events →
        Preserved start (after (routingStep compile operatorIdentity kind) start done)) ↔
      Along (routingStep compile operatorIdentity kind) (LabelKept compile kind) start events := by
  refine reached_iff_along _ (fun _ => True) (Preserved start) (fun _ event => event.Outsider operatorIdentity) _
    (fun _ _ _ _ => trivial) ?_ start trivial (preserved_refl start) events ?_
  · exact fun stored event _ preserved outsider =>
      step_preserves_iff compile operatorIdentity kind start stored event preserved outsider
  · exact along_of_forall _ _ events outsiders start

/-! ## Editing the delegation -/

/-- What a developer edits does not introduce a bypass. -/
theorem Frozen.bypass {previous object : RoutingObject} (frozen : Frozen previous object) :
    saysBypass object.annotations = saysBypass previous.annotations := by
  unfold saysBypass
  rw [frozen.annotations endpointAuthAnnotationKey (by decide)]

/-- An update of a generated object that only edits the developer's annotations is admitted
exactly for the exempt identities. -/
theorem developer_edit_admitted_iff (event : RoutingEvent) (previous : RoutingObject)
    (generated : previous.carriesLabel = true) (labels : event.object.labels = previous.labels)
    (frozen : Frozen previous event.object) :
    (guardOf operatorIdentity event.config).admits (event.subject compile kind (some previous)) ↔
      (event.request none).actor = operatorIdentity ∨
      (event.request none).actor ∈ event.config.breakGlassIdentities ∨
      (event.request none).actor = event.config.devworkspaceOperatorIdentity := by
  have carries : event.object.carriesLabel = true := by
    unfold RoutingObject.carriesLabel at generated ⊢
    rw [labels, generated]
  have forged : ¬ Permitted (event.subject compile kind (some previous)) := by
    intro permitted
    have given := (permitted_update_iff compile (event.request (some previous)) kind event.config
      event.namespaceOwner event.isUser event.object rfl previous rfl).mp permitted
    exact given.label ⟨carries, generated⟩
  have plain : (event.subject compile kind (some previous)).introducesBypass = false := by
    have bypass := guardSubject_bypass compile (event.request (some previous)) kind event.config
      event.namespaceOwner event.isUser event.object (event.written (some previous))
    refine bypass.trans ?_
    change (saysBypass event.object.annotations && !saysBypass previous.annotations) = false
    rw [frozen.bypass, Bool.and_not_self]
  have written : (event.subject compile kind (some previous)).operation ≠ .delete := event.written (some previous)
  rw [admits_iff, plain]
  simp only [forged, written, and_true, or_false]
  rfl

end Writes

/-! ## An object of a workspace -/

def workspaceData : Json :=
  .object [("spec".toList, .object [("rules".toList,
    .array [.object [("host".toList, .string "alice-w.weebo.si".toList)]])])]

/-- What DevWorkspace Operator has generated for alice, gated. -/
def workspaceIngress : RoutingObject where
  annotations := ((clusterSpec .traefik).attachment .empty none).annotations
  labels := .ofList [(devworkspaceIdLabel, "workspace1".toList)]
  data := workspaceData

def aliceWrites (object : RoutingObject) : RoutingEvent where
  config := clusterSpec .traefik
  namespaceOwner := some "alice".toList
  isUser := fun user => user = "alice".toList
  namespaceName := "user-alice".toList
  username := some "alice".toList
  object

theorem alice_outsider (object : RoutingObject) : (aliceWrites object).Outsider operatorName := by
  change ¬ (guardOf operatorName (clusterSpec .traefik)).exempt "alice".toList
  unfold exempt
  decide

/-- The same object shared with bob. -/
def sharedIngress : RoutingObject :=
  { workspaceIngress with
    annotations := workspaceIngress.annotations.insert allowUsersAnnotationKey "bob".toList }

/-- An object alice wrote herself, and what she made of it. -/
def authoredIngress : RoutingObject := { workspaceIngress with labels := .empty }

def authoredShared : RoutingObject := { sharedIngress with labels := .empty }

/-- The same with the label of a generated object, and out of the gate. -/
def bypassedIngress : RoutingObject :=
  { sharedIngress with
    annotations := sharedIngress.annotations.insert endpointAuthAnnotationKey endpointAuthBypass }

theorem authored_shared_admitted : (guardOf operatorName (clusterSpec .traefik)).admits
    ((aliceWrites authoredShared).subject (fun _ => none) .ingress (some authoredIngress)) := by
  unfold admits
  decide +kernel

theorem bypass_refused_elsewhere :
    (aliceWrites bypassedIngress).RefusedElsewhere (fun _ => none) .ingress authoredShared :=
  Or.inl (by decide +kernel)

/-- Alice's own object takes her change, which keeps it without the label, and refuses the next, which
adds the label and is refused for its bypass. The generated one refuses the change as well. -/
theorem generated_preserved_shared :
    let run := [aliceWrites authoredShared, aliceWrites bypassedIngress]
    after (routingStep (fun _ => none) operatorName .ingress) (some authoredIngress) run = some authoredShared ∧
    (∀ done, done <+: run → Preserved (some authoredIngress)
      (after (routingStep (fun _ => none) operatorName .ingress) (some authoredIngress) done)) ∧
    Preserved (some workspaceIngress) (after (routingStep (fun _ => none) operatorName .ingress)
      (some workspaceIngress) [aliceWrites sharedIngress]) := by
  have taken : routingStep (fun _ => none) operatorName .ingress (some authoredIngress) (aliceWrites authoredShared) =
      some authoredShared :=
    routingStep_eq (fun _ => none) operatorName .ingress _ (aliceWrites authoredShared) authored_shared_admitted
  have kept : routingStep (fun _ => none) operatorName .ingress (some authoredShared) (aliceWrites bypassedIngress) =
      some authoredShared := by
    apply routingStep_refused
    intro admitted
    exact ((update_admits_iff (fun _ => none) operatorName .ingress (aliceWrites bypassedIngress) authoredShared
      (alice_outsider bypassedIngress)).mp admitted).2 bypass_refused_elsewhere
  have outsiders : ∀ event ∈ [aliceWrites authoredShared, aliceWrites bypassedIngress],
      event.Outsider operatorName := by
    intro event member
    simp only [List.mem_cons, List.not_mem_nil, or_false] at member
    rcases member with same | same
    all_goals
      rw [same]
      exact alice_outsider _
  refine ⟨?_, (generated_preserved_iff (fun _ => none) operatorName .ingress _ _ outsiders).mpr ⟨?_, ?_, trivial⟩, ?_⟩
  · rw [after, List.foldl_cons, taken, List.foldl_cons, kept, List.foldl_nil]
  · intro previous same
    rw [← Option.some.inj same]
    exact Or.inl (by decide)
  · rw [taken]
    intro previous same
    rw [← Option.some.inj same]
    exact Or.inr bypass_refused_elsewhere
  · refine (generated_preserved_iff (fun _ => none) operatorName .ingress (some workspaceIngress)
      [aliceWrites sharedIngress] ?_).mpr ⟨?_, trivial⟩ _ (List.prefix_refl _)
    · intro event member
      rw [List.mem_singleton.mp member]
      exact alice_outsider sharedIngress
    · intro previous same
      rw [← Option.some.inj same]
      exact Or.inl (by decide)

/-- Alice takes the label off. -/
theorem label_removed :
    ¬ ∀ (compile : Text → Option (List Regex)) (operatorIdentity : Text) (kind : RoutingKind)
      (start : Option RoutingObject) (events : List RoutingEvent),
      (∀ event ∈ events, event.Outsider operatorIdentity) →
      ∀ done, done <+: events →
        Preserved start (after (routingStep compile operatorIdentity kind) start done) := by
  intro given
  have preserved := given (fun _ => none) operatorName .ingress (some workspaceIngress)
    [aliceWrites { workspaceIngress with labels := .empty }]
    (by
      intro event member
      rw [List.mem_singleton.mp member]
      exact alice_outsider _)
    [aliceWrites { workspaceIngress with labels := .empty }] (List.prefix_refl _)
  have label := preserved.label
  revert label
  decide +kernel

theorem frozen_shared : Frozen workspaceIngress sharedIngress := by
  refine ⟨rfl, ?_⟩
  intro key other
  have apart : key ≠ allowUsersAnnotationKey := by
    rintro rfl
    exact other (by decide)
  change (workspaceIngress.annotations.insert allowUsersAnnotationKey "bob".toList).get key = _
  rw [TextMap.get_insert, if_neg apart]

/-- The operator may share alice's object. -/
theorem developer_edit_admitted_operator :
    (guardOf operatorName (clusterSpec .traefik)).admits
      (RoutingEvent.subject (fun _ => none) .ingress
        { aliceWrites sharedIngress with username := some operatorName } (some workspaceIngress)) :=
  (developer_edit_admitted_iff (fun _ => none) operatorName .ingress
    { aliceWrites sharedIngress with username := some operatorName } workspaceIngress (by decide) rfl
    frozen_shared).mpr (Or.inl rfl)

/-- Alice may not. -/
theorem own_delegation_refused :
    ¬ ∀ (compile : Text → Option (List Regex)) (operatorIdentity : Text) (kind : RoutingKind)
      (yaml : Text → Except Text (List EndpointAuth.WireRule)) (grants : List (Text × AccessGrant))
      (team : Option Text) (event : RoutingEvent) (previous : RoutingObject),
      previous.carriesLabel = true →
      previous.annotations.get endpointAuthAnnotationKey = some endpointAuthManaged →
      Pinned event.config kind previous previous →
      event.object.labels = previous.labels → Frozen previous event.object →
      hostOwnedByNamespace compile event.config event.namespaceOwner event.isUser (hostsOf event.object kind) =
        some true →
      compileError yaml ⟨event.config, grants⟩ event.object.annotations.members event.namespaceName
        event.namespaceOwner team = none →
      (guardOf operatorIdentity event.config).admits (event.subject compile kind (some previous)) := by
  intro given
  have pinned : Pinned (clusterSpec .traefik) .ingress workspaceIngress workspaceIngress := by
    refine ⟨fun key value attached => attached, ?_⟩
    intro proxied
    cases proxied
  have admitted := given (fun _ => none) operatorName .ingress (fun _ => .error []) [] none
    (aliceWrites sharedIngress) workspaceIngress (by decide) (by decide) pinned rfl frozen_shared
    (by decide +kernel) (by decide)
  revert admitted
  unfold admits
  decide +kernel

end WeeboSi.EndpointAuthAdapters
