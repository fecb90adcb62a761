import WeeboSi.Controller.Workspace
import WeeboSi.KubearmorPolicy.Isolation
import WeeboSi.Lib.JsonOrder

/-!
# What the store writes and reads back

Source: crates/weebo-si-kubearmor-policy-adapters/src/kubearmor_policy_store.rs:25-230,
kubearmor_template_store.rs:29-88 and crates/weebo-si-runtime/src/owner_reference.rs:20-57. The bytes
of a body are JSON written and read by serde_json: `toVec` and `fromSlice`. The apiserver gives
a written object its uid.
-/
namespace WeeboSi.KubearmorPolicy
open WeeboSi.Lib WeeboSi.Crd WeeboSi.Chassis WeeboSi.Controller
open WeeboSi.NetworkProfiles (TemplateRef)

structure OwnerReference where
  apiVersion : Text
  kind : Text
  name : Text
  uid : Text
  controller : Option Bool
  blockOwnerDeletion : Option Bool
  deriving DecidableEq, Repr

/-- A `KubeArmorPolicy` as the apiserver has it: `data` is everything but the metadata. -/
structure DynamicObject where
  name : Option Text
  namespaceName : Option Text
  labels : Option Labels
  ownerReferences : Option (List OwnerReference)
  uid : Option Text
  data : Json

def ownerKind : Text := "DevWorkspace".toList

/-- The one reference a profile is written with. -/
def ownerReferencesJson (owner : Option Owner) : Option (List OwnerReference) :=
  owner.map fun owner => [⟨owner.apiVersion, owner.kind, owner.name, owner.uid, some false, some false⟩]

/-- The first `DevWorkspace` among the owners. -/
def ownerFromReferences (references : Option (List OwnerReference)) : Option Owner := do
  let reference ← (← references).find? fun reference => reference.kind = ownerKind
  some ⟨reference.apiVersion, reference.kind, reference.name, reference.uid⟩

theorem ownerFromReferences_written (owner : Option Owner) (kind : ∀ o ∈ owner, o.kind = ownerKind) :
    ownerFromReferences (ownerReferencesJson owner) = owner := by
  cases owner with
  | none => rfl
  | some owner =>
    have isKind := kind owner rfl
    simp only [ownerFromReferences, ownerReferencesJson, Option.map_some, Option.bind_eq_bind, Option.bind_some,
      List.find?_cons, isKind, decide_true]
    rw [← isKind]

/-! ## Documents -/

def selectorField : Text := "selector".toList
def specField : Text := "spec".toList
def matchLabelsField : Text := "matchLabels".toList
def managedByLabel : Text := "hardening.weebo.io/managed-by".toList
def managedByValue : Text := "weebo-si-operator".toList
def profileLabel : Text := "hardening.weebo.io/profile".toList
def backendLabel : Text := "hardening.weebo.io/backend".toList

def backendLabelValue : RuntimeBackend → Text
  | .kubeArmor => "KubeArmor".toList

/-- The member of an object, and nothing of anything else. -/
def getMember (value : Json) (key : Text) : Option Json :=
  match value with
  | .object members => members.lookup key
  | _ => none

def removeMember (key : Text) : Json → Json
  | .object members => .object (members.filter fun member => member.1 ≠ key)
  | other => other

def insertMember (key : Text) (value : Json) : Json → Json
  | .object members => .object (setMember key value members)
  | other => other

theorem filter_setMember (key : Text) (value : Json) (members : Members) :
    (setMember key value members).filter (fun member => member.1 ≠ key) =
      members.filter fun member => member.1 ≠ key := by
  induction members with
  | nil => simp [setMember]
  | cons member members ih =>
    obtain ⟨k, v⟩ := member
    by_cases here : k = key
    · simp [setMember, here]
    · by_cases before : textLe key k = true
      · simp [setMember, here, before]
      · simp only [setMember, here, before, Bool.false_eq_true, if_false]
        rw [List.filter_cons, List.filter_cons, ih]

/-- The document of a selector; the empty one selects every pod. -/
def selectorJson : PodSelector → Json
  | .empty => .object [(matchLabelsField, .object [])]
  | .devWorkspaceId id => .object [(matchLabelsField, .object [(idLabel, .string id)])]

def podSelectorFromMatchLabels (value : Option Json) : PodSelector :=
  match ((value.bind (getMember · matchLabelsField)).bind (getMember · idLabel)).bind textOf with
  | some id => .devWorkspaceId id
  | none => .empty

theorem podSelector_written (selector : PodSelector) :
    podSelectorFromMatchLabels (some (selectorJson selector)) = selector := by
  cases selector with
  | empty => rfl
  | devWorkspaceId id => simp [podSelectorFromMatchLabels, selectorJson, getMember, textOf]

/-- The labels a managed policy carries. -/
def labelsJson (profile : RuntimeProfileKey) (backend : RuntimeBackend) : Labels :=
  [(managedByLabel, managedByValue), (profileLabel, profile), (backendLabel, backendLabelValue backend)]

/-! ## Templates and policies -/

section Bytes
variable (toVec : Json → Option RuleBody) (fromSlice : RuleBody → Option Json)

/-- The spec of the template a reference names. -/
def templateSpec (templates : List DynamicObject) (templateRef : TemplateRef) : Option Json :=
  (templates.find? fun obj => obj.name = some templateRef.name ∧ obj.namespaceName = some templateRef.namespaceName).bind
    fun obj => getMember obj.data specField

/-- `TemplateStore::body`: the spec without a selector of its own. -/
def templateBody (templates : List DynamicObject) (_ : RuntimeBackend) (templateRef : TemplateRef) : Option RuleBody :=
  (templateSpec templates templateRef).bind fun spec => toVec (removeMember selectorField spec)

def fromObject (obj : DynamicObject) : Option ManagedObject := do
  let labels ← obj.labels
  let profile ← labels.lookup profileLabel
  let spec ← getMember obj.data specField
  let podSelector := podSelectorFromMatchLabels (getMember spec selectorField)
  let namespaceName ← obj.namespaceName
  let name ← obj.name
  let body ← toVec (removeMember selectorField spec)
  some ⟨⟨namespaceName, name⟩, .kubeArmor, profile, podSelector, body, ownerFromReferences obj.ownerReferences, obj.uid⟩

/-- The document an apply sends. -/
def applyObject (obj : ManagedObject) : Except DomainError DynamicObject :=
  match fromSlice obj.body with
  | none => .error (.portFailed "malformed rule body".toList)
  | some spec => .ok
      { name := some obj.key.name
        namespaceName := some obj.key.namespaceName
        labels := some (labelsJson obj.profile obj.backend)
        ownerReferences := ownerReferencesJson obj.owner
        uid := none
        data := .object [(specField, insertMember selectorField (selectorJson obj.podSelector) spec)] }

/-- What the apiserver hands back of a written document. -/
def readBack (uid : Text) (obj : ManagedObject) : Option ManagedObject :=
  match applyObject fromSlice obj with
  | .error _ => none
  | .ok document => fromObject toVec { document with uid := some uid }

section RoundTrip
variable (reads : ∀ value bytes, toVec value = some bytes → fromSlice bytes = some value)
include reads

theorem readBack_of_spec (obj : ManagedObject) (spec : Json) (uid : Text)
    (body : toVec (removeMember selectorField spec) = some obj.body) :
    readBack toVec fromSlice uid obj =
      (toVec (removeMember selectorField (insertMember selectorField (selectorJson obj.podSelector)
        (removeMember selectorField spec)))).map fun bytes =>
          { obj with
            podSelector := podSelectorFromMatchLabels (getMember (insertMember selectorField
              (selectorJson obj.podSelector) (removeMember selectorField spec)) selectorField)
            body := bytes
            owner := ownerFromReferences (ownerReferencesJson obj.owner)
            uid := some uid } := by
  have parsed := reads _ _ body
  have profile : (labelsJson obj.profile obj.backend).lookup profileLabel = some obj.profile := by
    have apart : (profileLabel == managedByLabel) = false := by decide
    simp [labelsJson, List.lookup_cons, apart]
  unfold readBack applyObject fromObject
  rw [parsed]
  simp only [Option.bind_eq_bind, Option.bind_some, profile, getMember, List.lookup_cons, beq_self_eq_true]
  cases toVec _ with
  | none => rfl
  | some bytes => rfl

/-- A policy made from a template is read back as it was written exactly when the spec of the
template is an object, or the policy selects every pod. -/
theorem readBack_eq_iff (templates : List DynamicObject) (templateRef : TemplateRef) (obj : ManagedObject) (spec : Json)
    (uid : Text) (found : templateSpec templates templateRef = some spec)
    (body : templateBody toVec templates obj.backend templateRef = some obj.body)
    (kind : ∀ owner ∈ obj.owner, owner.kind = ownerKind) :
    readBack toVec fromSlice uid obj = some { obj with uid := some uid } ↔
      spec.isObject = true ∨ obj.podSelector = .empty := by
  have written : toVec (removeMember selectorField spec) = some obj.body := by
    simpa [templateBody, found] using body
  rw [readBack_of_spec toVec fromSlice reads obj spec uid written, ownerFromReferences_written obj.owner kind]
  cases spec with
  | object members =>
    refine iff_of_true ?_ (Or.inl rfl)
    have same : removeMember selectorField (insertMember selectorField (selectorJson obj.podSelector)
        (removeMember selectorField (.object members))) = removeMember selectorField (.object members) := by
      rw [removeMember, insertMember, removeMember, filter_setMember, List.filter_filter]
      simp only [Bool.and_self]
    have selector : getMember (insertMember selectorField (selectorJson obj.podSelector)
        (removeMember selectorField (.object members))) selectorField = some (selectorJson obj.podSelector) := by
      simp [removeMember, insertMember, getMember]
    rw [same, written, selector, podSelector_written]
    rfl
  | null | bool _ | number _ | string _ | array _ =>
    simp only [removeMember] at written
    simp only [removeMember, insertMember, getMember, written, Option.map_some, Option.some.injEq, Json.isObject,
      Bool.false_eq_true, false_or]
    constructor
    · intro same
      exact (congrArg ManagedObject.podSelector same).symm
    · intro selector
      rw [selector]
      rfl

end RoundTrip

end Bytes

/-! ## One pass, and the next -/

/-- Every body a feature writes is one of its templates. -/
theorem desired_body (feature : KubeArmorPolicy) (subject : Subject) (ctx : Context) (state : DesiredState)
    (wants : feature.desired subject ctx = .ok state) (obj : ManagedObject) (member : obj ∈ state.objects) :
    ∃ templateRef, feature.templates obj.backend templateRef = some obj.body := by
  cases subject with
  | ofNamespace subject =>
    obtain ⟨config, -, wants⟩ := (bind_eq_ok _ _ _).mp wants
    cases found : config.config.profile config.config.baseline with
    | none =>
      simp only [found] at wants
      cases wants
    | some profile =>
      simp only [found] at wants
      cases read : feature.templates feature.backend profile.templateRef with
      | none =>
        simp only [read] at wants
        cases wants
        cases member
      | some body =>
        simp only [read] at wants
        cases wants
        rw [List.mem_singleton.mp member]
        exact ⟨profile.templateRef, read⟩
  | ofWorkspace subject =>
    obtain ⟨config, -, wants⟩ := (bind_eq_ok _ _ _).mp wants
    cases resolved : resolve ctx.teams config ctx.facts.labels subject.annotated subject.attributed with
    | error refused =>
      simp only [resolved] at wants
      cases wants
      cases member
    | ok provenance =>
      simp only [resolved, KubeArmorPolicy.desiredKey_foldl, List.nil_append] at wants
      cases wants
      obtain ⟨key, -, made⟩ := List.mem_filterMap.mp member
      obtain ⟨body, read, rfl⟩ := Option.map_eq_some_iff.mp made
      obtain ⟨_, found, rfl⟩ := Option.bind_eq_some_iff.mp read
      obtain ⟨profile, -, same⟩ := Option.map_eq_some_iff.mp found
      exact ⟨profile.templateRef, same⟩

theorem desired_selector (feature : KubeArmorPolicy) (subject : Subject) (ctx : Context) (state : DesiredState)
    (wants : feature.desired subject ctx = .ok state) (obj : ManagedObject) (member : obj ∈ state.objects) :
    Selected.podSelector obj = OwnedScope.ownedSelector subject := by
  cases subject with
  | ofNamespace subject =>
    rcases feature.desiredNamespace_cases subject ctx state wants with ⟨none_, -⟩ | ⟨baseline, one, -, -, selector, -⟩
    · simp [none_] at member
    · rw [one, List.mem_singleton] at member
      rw [member]
      exact selector
  | ofWorkspace subject =>
    obtain ⟨-, -, selector, -⟩ := (feature.desiredWorkspace_shape subject ctx state wants).objects obj member
    exact selector

/-- The owners a pass writes are DevWorkspaces. -/
theorem owner_kind (pass : WorkspacePass) (subject : Workspace) (built : pass.subject = some subject) :
    subject.owner.kind = ownerKind := by
  simp only [WorkspacePass.subject, devworkspaceOwner, Option.bind_eq_bind, Option.bind_eq_some_iff] at built
  obtain ⟨_, -, _, -, _, ⟨_, -, _, -, isOwner⟩, same⟩ := built
  cases isOwner
  cases same
  rfl

/-- The subject is one the loops make. -/
def Subject.Built : Subject → Prop
  | .ofNamespace _ => True
  | .ofWorkspace subject => ∃ pass : WorkspacePass, pass.subject = some subject

theorem desired_owner (feature : KubeArmorPolicy) (subject : Subject) (ctx : Context) (state : DesiredState)
    (built : subject.Built) (wants : feature.desired subject ctx = .ok state) (obj : ManagedObject)
    (member : obj ∈ state.objects) : ∀ owner ∈ obj.owner, owner.kind = ownerKind := by
  intro owner isOwner
  cases subject with
  | ofNamespace subject =>
    rcases feature.desiredNamespace_cases subject ctx state wants with ⟨none_, -⟩ | ⟨baseline, one, -, -, -, unowned⟩
    · simp [none_] at member
    · rw [one, List.mem_singleton] at member
      rw [member, unowned] at isOwner
      cases isOwner
  | ofWorkspace subject =>
    obtain ⟨pass, built⟩ := built
    obtain ⟨-, -, -, owned⟩ := (feature.desiredWorkspace_shape subject ctx state wants).objects obj member
    rw [owned] at isOwner
    cases isOwner
    exact owner_kind pass subject built

/-- What one pass writes, read back by the next one under whatever uids it was given, is what
that one wants: it writes nothing. -/
theorem written_then_unchanged (quoted : Text → Text) (toVec : Json → Option RuleBody)
    (fromSlice : RuleBody → Option Json) (reads : ∀ value bytes, toVec value = some bytes → fromSlice bytes = some value)
    (templates : List DynamicObject)
    (specs : ∀ templateRef spec, templateSpec templates templateRef = some spec → spec.isObject = true)
    (feature : KubeArmorPolicy) (cached : feature.templates = templateBody toVec templates) (subject : Subject)
    (built : subject.Built) (ctx : Context) (state : DesiredState) (wants : feature.desired subject ctx = .ok state)
    (uids : ManagedObject → Text) :
    ∃ live, state.objects.mapM (fun obj => readBack toVec fromSlice (uids obj) obj) = some live ∧
      ∃ lines : List Line, computeOwnedDiff quoted (OwnedScope.ownedSelector subject) state.objects state.held live =
        .ok lines ∧ ∀ line ∈ lines, ∃ key, line = .unchanged key := by
  have back : ∀ obj ∈ state.objects, readBack toVec fromSlice (uids obj) obj = some { obj with uid := some (uids obj) } := by
    intro obj member
    obtain ⟨templateRef, body⟩ := desired_body feature subject ctx state wants obj member
    rw [cached] at body
    obtain ⟨spec, found, -⟩ := Option.bind_eq_some_iff.mp body
    exact (readBack_eq_iff toVec fromSlice reads templates templateRef obj spec (uids obj) found body
      (desired_owner feature subject ctx state built wants obj member)).mpr (Or.inl (specs templateRef spec found))
  let live := state.objects.map fun obj => { obj with uid := some (uids obj) }
  have listed : state.objects.mapM (fun obj => readBack toVec fromSlice (uids obj) obj) = some live := by
    rw [mapM_eq_some]
    exact List.forall₂_map_right_iff.mpr (List.forall₂_same.mpr back)
  obtain ⟨-, apart, agree⟩ := shaped_desired feature subject ctx state wants
  have own := desired_selector feature subject ctx state wants
  have carries : Carries state.objects (ownedBy (OwnedScope.ownedSelector subject) state.held live) := by
    constructor
    · intro obj member
      refine ⟨{ obj with uid := some (uids obj) }, ?_, rfl, (contentEq_iff _ _).mpr ⟨rfl, rfl, rfl, rfl⟩⟩
      exact (mem_ownedBy _ state.held live _).mpr ⟨List.mem_map_of_mem member, own obj member, apart obj member⟩
    · intro obj member
      obtain ⟨source, inside, rfl⟩ := List.mem_map.mp ((mem_ownedBy _ state.held live obj).mp member).1
      exact ⟨source, inside, rfl, (contentEq_iff _ _).mpr ⟨rfl, rfl, rfl, rfl⟩⟩
  refine ⟨live, listed, _, (computeOwnedDiff_ok_iff quoted _ _ _ _ _).mpr ⟨own, ?_, rfl⟩, ?_⟩
  · intro obj member other
    obtain ⟨source, inside, rfl⟩ := List.mem_map.mp member
    exact absurd (own source inside) other
  · intro line member
    refine computeDiff_unchanged state.objects _ (fun _ _ _ _ same => backend_of_key _ _ same) ?_ carries line member
    intro a inA b inB same
    exact agree a inA b inB ((place_eq_iff a b).mp same)

/-! ## The template of a workspace -/

/-- A spec that blocks, and its bytes. -/
def blockSpec : Json := .object [("action".toList, .string "Block".toList)]

def blockBytes : RuleBody := "\x7b\"action\":\"Block\"\x7d".toList.flatMap String.utf8EncodeChar

def blockToVec (value : Json) : Option RuleBody := if value = blockSpec then some blockBytes else none

def blockFromSlice (bytes : RuleBody) : Option Json := if bytes = blockBytes then some blockSpec else none

theorem blockFromSlice_reads (value : Json) (bytes : RuleBody) (written : blockToVec value = some bytes) :
    blockFromSlice bytes = some value := by
  unfold blockToVec at written
  split at written
  · next same =>
    cases written
    rw [same]
    exact if_pos rfl
  · cases written

def devTemplate : DynamicObject where
  name := some "weebo-dev-runtime".toList
  namespaceName := some "weebo-si-hardening".toList
  labels := none
  ownerReferences := none
  uid := none
  data := .object [(specField, blockSpec)]

theorem devTemplate_object (templateRef : TemplateRef) (spec : Json)
    (found : templateSpec [devTemplate] templateRef = some spec) : spec.isObject = true := by
  obtain ⟨obj, isFound, read⟩ := Option.bind_eq_some_iff.mp found
  rw [List.mem_singleton.mp (List.mem_of_find?_eq_some isFound)] at read
  cases read
  rfl

theorem written_then_unchanged_alice :
    ∃ live, [{ firstProfile with body := blockBytes }].mapM (fun obj =>
        readBack blockToVec blockFromSlice "uid-1".toList obj) = some live ∧
      ∃ lines : List Line, computeOwnedDiff id (.devWorkspaceId "workspace1".toList)
          [{ firstProfile with body := blockBytes }] [] live = .ok lines ∧
        ∀ line ∈ lines, ∃ key, line = .unchanged key :=
  written_then_unchanged id blockToVec blockFromSlice blockFromSlice_reads [devTemplate] devTemplate_object
    ⟨some devConfig, .kubeArmor, templateBody blockToVec [devTemplate]⟩ rfl firstSubject
    ⟨devPass "workspace1".toList, rfl⟩ coreContext
    { firstState with objects := [{ firstProfile with body := blockBytes }] } (by rfl) fun _ => "uid-1".toList

end WeeboSi.KubearmorPolicy
