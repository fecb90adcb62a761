import WeeboSi.Crd.Template

/-!
# The workspace application of a team

Source: crates/weebo-si-crd/src/argo.rs:24-310 and 376-408. The object a person gets is the team's
template, rendered in two passes: the namespace first, then everything that may name it.
-/
namespace WeeboSi.Crd
open WeeboSi.Lib

inductive ProvisioningMode where
  | off | ensure
  deriving DecidableEq, Repr

structure ApplicationSource where
  repoUrl : Text
  chart : Option Text
  path : Option Text
  targetRevision : Text
  values : Option Json
  deriving DecidableEq

structure ApplicationDestination where
  server : Option Text
  name : Option Text
  namespaceName : Text
  deriving DecidableEq, Repr

structure SyncAutomated where
  prune : Bool
  selfHeal : Bool
  deriving DecidableEq, Repr

structure SyncPolicy where
  automated : Option SyncAutomated
  options : List Text
  deriving DecidableEq, Repr

structure ApplicationTemplate where
  mode : ProvisioningMode
  name : Option Text
  project : Text
  source : ApplicationSource
  destination : ApplicationDestination
  syncPolicy : Option SyncPolicy
  deriving DecidableEq

structure RenderedApplication where
  name : Text
  namespaceName : Text
  project : Text
  source : ApplicationSource
  destination : ApplicationDestination
  syncPolicy : Option SyncPolicy
  deriving DecidableEq

inductive ApplicationTemplateViolation where
  | sourceNotExactlyOne
  | destinationNotExactlyOne
  | emptyField (field : Text)
  | template (error : TemplateError)
  | namespaceNamesItself
  deriving DecidableEq, Repr

def defaultNameTemplate : Text := '\x7b' :: (objectNameVariable ++ ['\x7d'])

/-! ## The shape of a template -/

def destinationNamespaceField : Text := "destination.namespace".toList

/-- What is wrong with the names of one template; only the namespace may not name itself. -/
def nameViolations (field template : Text) : List ApplicationTemplateViolation :=
  match templateNames template with
  | .error error => [.template error]
  | .ok names =>
    names.filterMap fun name =>
      if !templateVariables.contains name then some (.template (.unknownVariable template name))
      else if field = destinationNamespaceField ∧ name = userNamespaceVariable then some .namespaceNamesItself
      else none

mutual

/-- `collect_value_violations`. -/
def valueViolations : Json → List ApplicationTemplateViolation
  | .string text => nameViolations [] text
  | .array items => itemViolations items
  | .object members => memberViolations members
  | .null => []
  | .bool _ => []
  | .number _ => []

def itemViolations : List Json → List ApplicationTemplateViolation
  | [] => []
  | item :: items => valueViolations item ++ itemViolations items

def memberViolations : Members → List ApplicationTemplateViolation
  | [] => []
  | (_, value) :: members => valueViolations value ++ memberViolations members

end

namespace ApplicationTemplate
variable (template : ApplicationTemplate)

def nameTemplate : Text := template.name.getD defaultNameTemplate

/-- Every templated text, with its field. -/
def templates : List (Text × Text) :=
  [("name".toList, template.nameTemplate), ("source.repoUrl".toList, template.source.repoUrl),
    ("source.targetRevision".toList, template.source.targetRevision),
    (destinationNamespaceField, template.destination.namespaceName)] ++
    (template.source.chart.toList.map fun chart => ("source.chart".toList, chart)) ++
    template.source.path.toList.map fun path => ("source.path".toList, path)

def emptyFields : List ApplicationTemplateViolation :=
  [("project".toList, template.project), ("source.repoUrl".toList, template.source.repoUrl),
    ("source.targetRevision".toList, template.source.targetRevision)].filterMap fun (field, text) =>
      if (trim text).isEmpty then some (.emptyField field) else none

def validateShape : List ApplicationTemplateViolation :=
  (if template.source.chart.isSome = template.source.path.isSome then [.sourceNotExactlyOne] else []) ++
    (if template.destination.server.isSome = template.destination.name.isSome then
      [.destinationNotExactlyOne] else []) ++
    template.emptyFields ++ (template.templates.flatMap fun (field, text) => nameViolations field text) ++
    (template.source.values.map valueViolations).getD []

/-! ## Rendering -/

/-- `Option<&str>` rendered, and transposed. -/
def renderOption (bindings : Bindings) : Option Text → Except TemplateError (Option Text)
  | none => .ok none
  | some text => (Crd.render text bindings).map some

/-- The person's values over the team's. -/
def renderValues (bindings : Bindings) : Option Json → Option Json → Except TemplateError (Option Json)
  | some base, some overlay => do
    let base ← renderValue bindings base
    let overlay ← renderValue bindings overlay
    .ok (some (mergeValues base overlay))
  | some base, none => (renderValue bindings base).map some
  | none, some overlay => (renderValue bindings overlay).map some
  | none, none => .ok none

def render (applicationNamespace : Text) (base : Bindings) (namespaceOverride : Option Text)
    (overlayValues : Option Json) : Except TemplateError RenderedApplication := do
  let namespaceName ← renderNamespace (namespaceOverride.getD template.destination.namespaceName) base
  let bindings := Bindings.bind base userNamespaceVariable namespaceName
  let values ← renderValues bindings template.source.values overlayValues
  let name ← Crd.render template.nameTemplate bindings
  let repoUrl ← Crd.render template.source.repoUrl bindings
  let chart ← renderOption bindings template.source.chart
  let path ← renderOption bindings template.source.path
  let targetRevision ← Crd.render template.source.targetRevision bindings
  .ok
    { name := name
      namespaceName := applicationNamespace
      project := template.project
      source := ⟨repoUrl, chart, path, targetRevision, values⟩
      destination := { template.destination with namespaceName := namespaceName }
      syncPolicy := template.syncPolicy }

/-- The project is the team's own, whoever it is rendered for. -/
theorem render_project (applicationNamespace : Text) (base : Bindings) (namespaceOverride : Option Text)
    (overlayValues : Option Json) (application : RenderedApplication)
    (rendered : template.render applicationNamespace base namespaceOverride overlayValues = .ok application) :
    application.project = template.project := by
  simp only [render, bind_eq_ok, Except.ok.injEq] at rendered
  obtain ⟨_, _, _, _, _, _, _, _, _, _, _, _, _, _, rfl⟩ := rendered
  rfl

end ApplicationTemplate

end WeeboSi.Crd
