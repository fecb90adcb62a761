import WeeboSi.DwocPin.Feature
import WeeboSi.Lib.Json
import WeeboSi.Lib.Lists

/-!
# Rendering mutations into a JSON Patch

Source: crates/weebo-si-webhook/src/render.rs:25-110, extract.rs:11-29 and
router.rs:109-262. `DynamicObject` is kube's: `data` is what it leaves of the members of the
submitted object once it has read its own.
-/
namespace WeeboSi.Webhook
open WeeboSi.Lib WeeboSi.Crd WeeboSi.Chassis WeeboSi.DwocPin

def configRefAttribute : Text := "controller.devfile.io/devworkspace-config".toList
def templatePath : Pointer := ["spec".toList, "template".toList]
def attributesPath : Pointer := ["spec".toList, "template".toList, "attributes".toList]
def annotationsPath : Pointer := ["metadata".toList, "annotations".toList]

/-! ## The patch -/

/-- Absent and null both count as nothing. -/
def isMap (object : Json) (path : Pointer) : Bool :=
  match object.pointer path with
  | none | some .null => false
  | some _ => true

structure RenderState where
  hasAttributes : Bool
  hasAnnotations : Bool
  created : List Pointer
  ops : List AddOperation

def RenderState.push (s : RenderState) (path : Pointer) (value : Json) : RenderState :=
  { s with ops := s.ops ++ [⟨path, value⟩] }

/-- A member is added to its map, or the map is added with the member in it. -/
def memberOp (present : Bool) (parent : Pointer) (key : Text) (value : Json) : AddOperation :=
  if present then ⟨parent ++ [key], value⟩ else ⟨parent, .object [(key, value)]⟩

def refJson (target : DwocRef) : Json :=
  .object [("name".toList, .string target.name), ("namespace".toList, .string target.namespaceName)]

/-- A parent that is neither in the object nor created yet. -/
def renderParent (object : Json) (s : RenderState) (parent : Pointer) : RenderState :=
  if isMap object parent || s.created.contains parent then s
  else { s.push parent (.object []) with created := parent :: s.created }

def renderStep (object : Json) (s : RenderState) : Mutation → RenderState
  | .setConfigRef target =>
    { s with
      hasAttributes := true
      ops := s.ops ++ [memberOp s.hasAttributes attributesPath configRefAttribute (refJson target)] }
  | .setString path value =>
    (((List.range' 1 (path.length - 1)).map fun depth => path.take depth).foldl (renderParent object) s).push
      path (.string value)
  | .annotate key value =>
    { s with
      hasAnnotations := true
      ops := s.ops ++ [memberOp s.hasAnnotations annotationsPath key (.string value)] }

def renderPatch (object : Json) (mutations : List Mutation) : List AddOperation :=
  (mutations.foldl (renderStep object)
    ⟨isMap object attributesPath, isMap object annotationsPath, [], []⟩).ops

/-! ## The route -/

/-- `serde` reads the reference from an object or from a sequence of its fields. -/
def readDwocRef : Json → Option DwocRef
  | .object members =>
    match members.lookup "name".toList, members.lookup "namespace".toList with
    | some (.string name), some (.string namespaceName) => some ⟨name, namespaceName⟩
    | _, _ => none
  | .array [.string name, .string namespaceName] => some ⟨name, namespaceName⟩
  | _ => none

def memberOf (value : Json) (key : Text) : Option Json :=
  match value with
  | .object members => members.lookup key
  | _ => none

def workspaceFromObject (namespaceName : Text) (data : Json) : Workspace :=
  ⟨namespaceName, do
    let attributes ← data.pointer attributesPath
    readDwocRef (← memberOf attributes configRefAttribute)⟩

/-- An object `AdmissionReview<DynamicObject>` reads: metadata, if there is any, is an
object whose annotations are texts. -/
structure Submitted where
  members : Members
  readable : ∀ metadata, members.lookup "metadata".toList = some metadata → ∃ fields, metadata = .object fields ∧
    ∀ annotations, fields.lookup "annotations".toList = some annotations → annotations = .null ∨
      ∃ pairs, annotations = .object pairs ∧ ∀ pair ∈ pairs, ∃ text, pair.2 = Json.string text

def Submitted.json (object : Submitted) : Json := .object object.members

def DomainError.message : DomainError → Text
  | .invalidConfiguration why => "invalid configuration: ".toList ++ why
  | .namespaceNotObserved name => "namespace ".toList ++ name ++ " not observed".toList
  | .portFailed why => "port failed: ".toList ++ why

inductive Response where
  | allowed (patch : List AddOperation)
  | denied (reason : Text)

/-- What the apiserver applies. -/
def Response.ops : Response → List AddOperation
  | .allowed patch => patch
  | .denied _ => []

section Route
variable (data : Members → Members) (gate : FeatureGate) (view : Text → Option NamespaceFacts)
  (resolves : DwocRef → Bool) (config : Option ResolvedDwocPinConfig)

/-- `refused` is the denial of the feature that runs first. -/
def mutateDevworkspaces (refused : Option Text) (namespaceName : Text) (object : Option Submitted) : Response :=
  match object, refused with
  | none, _ => .allowed []
  | some _, some reason => .denied reason
  | some object, none =>
    let workspace := workspaceFromObject namespaceName (.object (data object.members))
    match admitSubject Workspace.namespaceName gate view resolves [feature config] workspace with
    | .ok (.allow []) => .allowed []
    | .ok (.allow mutations) => .allowed (renderPatch (.object (data object.members)) mutations)
    | .ok (.deny reason) => .denied reason
    | .error problem => .denied (DomainError.message problem)

end Route

/-! ## What a patch should do -/

/-- Where a mutation writes. -/
def pathOf : Mutation → Pointer
  | .setConfigRef _ => attributesPath ++ [configRefAttribute]
  | .annotate key _ => annotationsPath ++ [key]
  | .setString path _ => path

def valueOf : Mutation → Json
  | .setConfigRef target => refJson target
  | .annotate _ value => .string value
  | .setString _ value => .string value

def lastNaming (mutations : List Mutation) (path : Pointer) : Option Json :=
  (mutations.reverse.find? fun mutation => pathOf mutation = path).map valueOf

/-- Neither of two places lies in the other. -/
def Apart (a b : Pointer) : Prop := ¬ a <+: b ∧ ¬ b <+: a

theorem Apart.symm {a b : Pointer} (apart : Apart a b) : Apart b a := ⟨apart.2, apart.1⟩

/-- The patch applies, every named place has its last value, and every other one is as
submitted. -/
def Exact (submitted : Json) (mutations : List Mutation) (ops : List AddOperation) : Prop :=
  ∃ stored, applyPatch ops submitted = some stored ∧
    (∀ path value, lastNaming mutations path = some value → stored.pointer path = some value) ∧
    ∀ other, (∀ mutation ∈ mutations, Apart (pathOf mutation) other) →
      stored.pointer other = submitted.pointer other

/-! ## One member -/

section Member
variable (document changed : Json) (present : Bool) (parent : Pointer) (key : Text) (value : Json)
  (names : ∀ name ∈ parent ++ [key], Json.IsName name)
  (added : document.add (memberOp present parent key value).path (memberOp present parent key value).value =
    some changed)
include names added

theorem memberOp_self (rest : Pointer) : changed.pointer (parent ++ key :: rest) = value.pointer rest := by
  cases present with
  | true =>
    have here := Json.pointer_add _ _ _ _ rest names added
    rwa [List.append_assoc, List.singleton_append] at here
  | false =>
    have above : ∀ name ∈ parent, Json.IsName name := fun name member => names name (by simp [member])
    rw [Json.pointer_add _ _ _ _ (key :: rest) above added]
    simp [memberOp, Json.child]

/-- The other members of a map that the patch has created. -/
theorem memberOp_created (created : present = false) (other : Text) (rest : Pointer) (apart : other ≠ key) :
    changed.pointer (parent ++ other :: rest) = none := by
  subst created
  have above : ∀ name ∈ parent, Json.IsName name := fun name member => names name (by simp [member])
  rw [Json.pointer_add _ _ _ _ (other :: rest) above added]
  simp [memberOp, Json.child, List.lookup_cons, beq_false_of_ne apart]

theorem memberOp_apart (other : Pointer) (apart : Apart (parent ++ [key]) other)
    (kept : present = true ∨ ¬ parent <+: other) : changed.pointer other = document.pointer other := by
  cases present with
  | true => exact Json.pointer_add_apart _ _ _ _ _ names added apart.1 apart.2
  | false =>
    have above : ∀ name ∈ parent, Json.IsName name := fun name member => names name (by simp [member])
    have outside : ¬ parent <+: other := kept.resolve_left (by decide)
    exact Json.pointer_add_apart _ _ _ _ _ above added outside fun inside =>
      apart.2 (inside.trans (List.prefix_append _ _))

end Member

/-- A map that holds nothing but the member loses nothing when it is created anew. -/
theorem memberOp_frame (document changed : Json) (present : Bool) (parent : Pointer) (key : Text) (value : Json)
    (names : ∀ name ∈ parent ++ [key], Json.IsName name)
    (added : document.add (memberOp present parent key value).path (memberOp present parent key value).value =
      some changed)
    (kept : present = true ∨ ∀ name, name ≠ key → document.pointer (parent ++ [name]) = none)
    (other : Pointer) (apart : Apart (parent ++ [key]) other) :
    changed.pointer other = document.pointer other := by
  by_cases inside : parent <+: other
  · cases flag : present with
    | true => exact memberOp_apart _ _ _ _ _ _ names added other apart (Or.inl flag)
    | false =>
      obtain ⟨rest, rfl⟩ := inside
      cases rest with
      | nil => exact absurd (by simp) apart.2
      | cons name rest =>
        have another : name ≠ key := by
          rintro rfl
          exact apart.1 ⟨rest, by simp⟩
        have nothing := (kept.resolve_left (by simp [flag])) name another
        rw [memberOp_created _ _ _ _ _ _ names added flag name rest another]
        rw [List.append_cons, Json.pointer_append, nothing, Option.bind_none]
  · exact memberOp_apart _ _ _ _ _ _ names added other apart (Or.inr inside)

/-- Adding the member succeeds where its map is an object, or nothing in an object. -/
theorem memberOp_isSome (document : Json) (present : Bool) (parent : Pointer) (last key : Text) (value : Json)
    (names : ∀ name ∈ parent ++ [last] ++ [key], Json.IsName name) :
    (document.add (memberOp present (parent ++ [last]) key value).path
        (memberOp present (parent ++ [last]) key value).value).isSome = true ↔
      if present then ∃ members, document.pointer (parent ++ [last]) = some (.object members)
      else ∃ members, document.pointer parent = some (.object members) := by
  cases present with
  | true => exact Json.add_isSome_iff _ _ _ _ names
  | false => exact Json.add_isSome_iff _ _ _ _ fun name member => names name (by simp at member ⊢; tauto)

theorem pointer_of_not_isMap (document : Json) (path : Pointer) (nothing : isMap document path = false)
    (name : Text) : document.pointer (path ++ [name]) = none := by
  rw [Json.pointer_append]
  unfold isMap at nothing
  split at nothing
  · rename_i absent
    rw [absent, Option.bind_none]
  · rename_i null
    rw [null, Option.bind_some]
    rfl
  · cases nothing

/-! ## The patch of a pin -/

theorem configRef_names : ∀ name ∈ attributesPath ++ [configRefAttribute], Json.IsName name := by decide

theorem audit_names : ∀ name ∈ annotationsPath ++ [auditAnnotationKey], Json.IsName name := by decide

/-- The metadata lie apart from every attribute. -/
theorem attributes_metadata_apart (a b : Pointer) : Apart (attributesPath ++ a) ("metadata".toList :: b) := by
  constructor
  · rintro ⟨rest, same⟩
    exact absurd (congrArg List.head? same) (by simp [attributesPath])
  · rintro ⟨rest, same⟩
    exact absurd (congrArg List.head? same) (by simp [attributesPath])

theorem apart_sibling (parent : Pointer) (a b : Text) (other : b ≠ a) : Apart (parent ++ [a]) (parent ++ [b]) := by
  constructor
  · intro inside
    have same := inside.eq_of_length (by simp)
    simp [other.symm] at same
  · intro inside
    have same := inside.eq_of_length (by simp)
    simp [other] at same

theorem lastNaming_pin (target : DwocRef) (text : Text) (path : Pointer) (value : Json)
    (named : lastNaming [.setConfigRef target, .annotate auditAnnotationKey text] path = some value) :
    (path = attributesPath ++ [configRefAttribute] ∧ value = refJson target) ∨
      (path = annotationsPath ++ [auditAnnotationKey] ∧ value = .string text) := by
  simp only [lastNaming, List.reverse_cons, List.reverse_nil, List.nil_append, List.cons_append,
    List.find?_cons, pathOf] at named
  split at named
  · rename_i here
    cases named
    exact Or.inr ⟨(of_decide_eq_true here).symm, rfl⟩
  · split at named
    · rename_i here
      cases named
      exact Or.inl ⟨(of_decide_eq_true here).symm, rfl⟩
    · cases named

/-- The object takes the patch as it is: there is a map for the attribute or a place for
one, and no annotation besides the audit trail. -/
structure Submitted.Patchable (object : Submitted) : Prop where
  attributes :
    if isMap object.json attributesPath then ∃ members, object.json.pointer attributesPath = some (.object members)
    else ∃ members, object.json.pointer templatePath = some (.object members)
  metadata : (object.members.lookup "metadata".toList).isSome = true
  annotations : ∀ key, key ≠ auditAnnotationKey → object.json.pointer (annotationsPath ++ [key]) = none

theorem metadata_isSome_iff (object : Submitted) :
    (object.members.lookup "metadata".toList).isSome = true ↔
      ∃ members, object.json.pointer ["metadata".toList] = some (.object members) := by
  simp only [Submitted.json, Json.pointer_cons, Json.child, Json.pointer_nil, Option.bind_fun_some]
  constructor
  · intro present
    obtain ⟨metadata, found⟩ := Option.isSome_iff_exists.mp present
    obtain ⟨fields, rfl, -⟩ := object.readable metadata found
    exact ⟨fields, found⟩
  · rintro ⟨members, found⟩
    rw [found]
    rfl

section Pin
variable (object : Submitted) (target : DwocRef) (text : Text)

/-- The attribute goes where the object says; the annotations are always created. -/
def pinOps : List AddOperation :=
  [memberOp (isMap object.json attributesPath) attributesPath configRefAttribute (refJson target),
    memberOp false annotationsPath auditAnnotationKey (.string text)]

theorem applyPatch_pinOps (stored : Json) :
    applyPatch (pinOps object target text) object.json = some stored ↔
      ∃ pinned, object.json.add (memberOp (isMap object.json attributesPath) attributesPath configRefAttribute
          (refJson target)).path (memberOp (isMap object.json attributesPath) attributesPath configRefAttribute
          (refJson target)).value = some pinned ∧
        pinned.add (memberOp false annotationsPath auditAnnotationKey (.string text)).path
          (memberOp false annotationsPath auditAnnotationKey (.string text)).value = some stored := by
  simp [applyPatch, pinOps, List.foldlM_cons, Option.bind_eq_some_iff]

/-- Setting the attribute leaves the metadata alone. -/
theorem pinned_metadata (pinned : Json) (present : Bool)
    (first : object.json.add (memberOp present attributesPath configRefAttribute (refJson target)).path
      (memberOp present attributesPath configRefAttribute (refJson target)).value = some pinned)
    (rest : Pointer) :
    pinned.pointer ("metadata".toList :: rest) = object.json.pointer ("metadata".toList :: rest) :=
  memberOp_apart _ _ _ _ _ _ configRef_names first _ (attributes_metadata_apart _ rest)
    (Or.inr (attributes_metadata_apart [] rest).1)

theorem patchable_of_exact
    (exact_ : Exact object.json [.setConfigRef target, .annotate auditAnnotationKey text] (pinOps object target text)) :
    object.Patchable := by
  obtain ⟨stored, applied, -, frame⟩ := exact_
  obtain ⟨pinned, first, second⟩ := (applyPatch_pinOps object target text stored).mp applied
  refine ⟨?_, ?_, ?_⟩
  · exact (memberOp_isSome object.json (isMap object.json attributesPath) templatePath "attributes".toList
      configRefAttribute (refJson target) configRef_names).mp (Option.isSome_iff_exists.mpr ⟨pinned, first⟩)
  · rw [metadata_isSome_iff, ← pinned_metadata object target pinned _ first []]
    exact (memberOp_isSome pinned false ["metadata".toList] "annotations".toList auditAnnotationKey
      (.string text) audit_names).mp (Option.isSome_iff_exists.mpr ⟨stored, second⟩)
  · intro key other
    rw [← frame (annotationsPath ++ [key]) ?_]
    · exact memberOp_created _ _ _ _ _ _ audit_names second rfl key [] other
    · simp only [List.mem_cons, List.not_mem_nil, or_false, forall_eq_or_imp, forall_eq, pathOf]
      exact ⟨attributes_metadata_apart _ _, apart_sibling _ _ _ other⟩

theorem exact_of_patchable (patchable : object.Patchable) :
    Exact object.json [.setConfigRef target, .annotate auditAnnotationKey text] (pinOps object target text) := by
  obtain ⟨pinned, first⟩ := Option.isSome_iff_exists.mp
    ((memberOp_isSome object.json (isMap object.json attributesPath) templatePath "attributes".toList
      configRefAttribute (refJson target) configRef_names).mpr patchable.attributes)
  have unmoved := pinned_metadata object target pinned _ first
  have container := (metadata_isSome_iff object).mp patchable.metadata
  rw [← unmoved []] at container
  obtain ⟨stored, second⟩ := Option.isSome_iff_exists.mp
    ((memberOp_isSome pinned false ["metadata".toList] "annotations".toList auditAnnotationKey
      (.string text) audit_names).mpr container)
  have annotationsKept : ∀ name, name ≠ auditAnnotationKey → pinned.pointer (annotationsPath ++ [name]) = none := by
    intro name other
    exact (unmoved _).trans (patchable.annotations name other)
  have attributesKept : isMap object.json attributesPath = true ∨
      ∀ name, name ≠ configRefAttribute → object.json.pointer (attributesPath ++ [name]) = none := by
    by_cases present : isMap object.json attributesPath = true
    · exact Or.inl present
    · exact Or.inr fun name _ => pointer_of_not_isMap _ _ (Bool.not_eq_true _ ▸ present) name
  refine ⟨stored, (applyPatch_pinOps object target text stored).mpr ⟨pinned, first, second⟩, ?_, ?_⟩
  · intro path value named
    rcases lastNaming_pin target text path value named with ⟨rfl, rfl⟩ | ⟨rfl, rfl⟩
    · rw [memberOp_frame _ _ _ _ _ _ audit_names second (Or.inr annotationsKept) _
        ((attributes_metadata_apart _ _).symm)]
      exact memberOp_self _ _ _ _ _ _ configRef_names first []
    · exact memberOp_self _ _ _ _ _ _ audit_names second []
  · intro other apart
    rw [memberOp_frame _ _ _ _ _ _ audit_names second (Or.inr annotationsKept) other
      (apart (.annotate auditAnnotationKey text) (by simp))]
    exact memberOp_frame _ _ _ _ _ _ configRef_names first attributesKept other
      (apart (.setConfigRef target) (by simp))

end Pin

/-! ## The route's patch -/

/-- What the route relies on: `data` has the members that the object's own fields do not
claim. -/
structure Unclaimed (data : Members → Members) : Prop where
  metadata : ∀ members, (data members).lookup "metadata".toList = none
  spec : ∀ members, (data members).lookup "spec".toList = members.lookup "spec".toList

theorem isMap_spec (data : Members → Members) (unclaimed : Unclaimed data) (members : Members) (rest : Pointer) :
    isMap (.object (data members)) ("spec".toList :: rest) = isMap (.object members) ("spec".toList :: rest) := by
  simp only [isMap, Json.pointer_cons, Json.child, unclaimed.spec]

theorem isMap_metadata (data : Members → Members) (unclaimed : Unclaimed data) (members : Members)
    (rest : Pointer) : isMap (.object (data members)) ("metadata".toList :: rest) = false := by
  simp only [isMap, Json.pointer_cons, Json.child, unclaimed.metadata, Option.bind_none]

theorem renderPatch_data (data : Members → Members) (unclaimed : Unclaimed data) (object : Submitted)
    (target : DwocRef) (text : Text) :
    renderPatch (.object (data object.members)) [.setConfigRef target, .annotate auditAnnotationKey text] =
      pinOps object target text := by
  have attributes := isMap_spec data unclaimed object.members ["template".toList, "attributes".toList]
  have annotations := isMap_metadata data unclaimed object.members ["annotations".toList]
  change [memberOp (isMap _ attributesPath) _ _ _, memberOp (isMap _ annotationsPath) _ _ _] = _
  rw [annotationsPath, annotations, attributesPath, attributes]
  rfl

/-- The route's patch does what the mutations say, and nothing else, exactly when there is
nothing to mutate or the object takes the patch as it is. -/
theorem route_patch_exact_iff (data : Members → Members) (unclaimed : Unclaimed data) (gate : FeatureGate)
    (view : Text → Option NamespaceFacts) (resolves : DwocRef → Bool) (config : Option ResolvedDwocPinConfig)
    (namespaceName : Text) (object : Submitted) (mutations : List Mutation)
    (returned : admitSubject Workspace.namespaceName gate view resolves [feature config]
      (workspaceFromObject namespaceName (.object (data object.members))) = .ok (.allow mutations)) :
    Exact object.json mutations
        (mutateDevworkspaces data gate view resolves config none namespaceName (some object)).ops ↔
      mutations = [] ∨ object.Patchable := by
  simp only [mutateDevworkspaces, returned]
  have shape : mutations = [] ∨
      ∃ target text, mutations = [.setConfigRef target, .annotate auditAnnotationKey text] := by
    rcases admitSubject_singleton _ _ _ _ _ _ _ returned with none_ | ⟨facts, decision, -, evaluated, -, rfl⟩
    · exact Or.inl none_
    · exact evaluate_mutations _ _ _ _ evaluated
  rcases shape with rfl | ⟨target, text, rfl⟩
  · refine iff_of_true ⟨object.json, rfl, ?_, fun _ _ => rfl⟩ (Or.inl rfl)
    intro path value named
    cases named
  · simp only [Response.ops, renderPatch_data data unclaimed object target text]
    constructor
    · exact fun exact_ => Or.inr (patchable_of_exact object target text exact_)
    · rintro (none_ | patchable)
      · cases none_
      · exact exact_of_patchable object target text patchable

/-! ## An annotated workspace -/

/-- The members that `DynamicObject` reads itself. -/
def claimedKeys : List Text := ["apiVersion".toList, "kind".toList, "metadata".toList]

def otherKeys (members : Members) : Members := members.filter fun member => !claimedKeys.contains member.1

theorem otherKeys_unclaimed : Unclaimed otherKeys := by
  refine ⟨fun members => ?_, fun members => ?_⟩
  · rw [otherKeys, lookup_filter (fun key => !claimedKeys.contains key), if_neg (by decide)]
  · rw [otherKeys, lookup_filter (fun key => !claimedKeys.contains key), if_pos (by decide)]

def baselineRef : DwocRef := ⟨"weebo-hardened-config".toList, "eclipse-che".toList⟩

def baselinePin : ResolvedDwocPinConfig :=
  ⟨⟨[⟨"baseline".toList, baselineRef⟩], "baseline".toList, .default, .skip⟩, []⟩

def enforced : FeatureGate := ⟨fun _ _ => .enforce, []⟩

/-- A workspace without attributes that carries `annotations`. -/
def plainWorkspace (annotations : List (Text × Text)) : Submitted where
  members := [("metadata".toList, .object [("annotations".toList,
      .object (annotations.map fun pair => (pair.1, .string pair.2)))]),
    ("spec".toList, .object [("template".toList, .object [])])]
  readable := by
    intro metadata found
    cases found
    refine ⟨_, rfl, ?_⟩
    intro annotations found
    cases found
    refine Or.inr ⟨_, rfl, ?_⟩
    intro pair member
    obtain ⟨written, -, rfl⟩ := List.mem_map.mp member
    exact ⟨_, rfl⟩

theorem plainWorkspace_pinned (annotations : List (Text × Text)) :
    admitSubject Workspace.namespaceName enforced (fun _ => some ⟨[], none⟩) (fun _ => true) [feature (some baselinePin)]
        (workspaceFromObject "user-alice".toList (.object (otherKeys (plainWorkspace annotations).members))) =
      .ok (.allow (pinned baselineRef none none "baseline".toList)) := rfl

/-- The route's operations on such a workspace. -/
def plainOps (annotations : List (Text × Text)) : List AddOperation :=
  (mutateDevworkspaces otherKeys enforced (fun _ => some ⟨[], none⟩) (fun _ => true) (some baselinePin) none
    "user-alice".toList (some (plainWorkspace annotations))).ops

theorem route_patch_exact_plain :
    Exact (plainWorkspace []).json (pinned baselineRef none none "baseline".toList) (plainOps []) := by
  refine (route_patch_exact_iff otherKeys otherKeys_unclaimed enforced _ _ _ _ (plainWorkspace []) _
    (plainWorkspace_pinned [])).mpr (Or.inr ⟨?_, rfl, ?_⟩)
  · exact ⟨[], rfl⟩
  · intro key _
    rfl

/-- An annotation of the workspace is lost. -/
theorem annotation_lost :
    ¬ ∀ (data : Members → Members) (gate : FeatureGate) (view : Text → Option NamespaceFacts)
      (resolves : DwocRef → Bool) (config : Option ResolvedDwocPinConfig) (namespaceName : Text)
      (object : Submitted) (mutations : List Mutation), Unclaimed data →
      admitSubject Workspace.namespaceName gate view resolves [feature config]
        (workspaceFromObject namespaceName (.object (data object.members))) = .ok (.allow mutations) →
      Exact object.json mutations
        (mutateDevworkspaces data gate view resolves config none namespaceName (some object)).ops := by
  intro given
  have exact_ := given otherKeys enforced (fun _ => some ⟨[], none⟩) (fun _ => true) (some baselinePin)
    "user-alice".toList (plainWorkspace [("weebo.io/ticket".toList, "42".toList)]) _ otherKeys_unclaimed
    (plainWorkspace_pinned _)
  have kept := (patchable_of_exact _ _ _ exact_).annotations "weebo.io/ticket".toList (by decide)
  cases kept

end WeeboSi.Webhook
