import WeeboSi.Chassis.Managed
import WeeboSi.NetworkProfiles.Resolve

/-!
# Which registry copies a namespace should carry

Source: crates/weebo-si-registry-config/src/resolve.rs:20-139, model/mount.rs:18-218,
model/object.rs, model/diff.rs:55-112, feature/registry_config.rs:57-182 and
crates/weebo-si-crd/src/registry_config.rs:150-320, 472-490. The mode, the selector and the key of
the selecting annotation are read by the controller; an ecosystem is a label of metrics only.
-/
namespace WeeboSi.RegistryConfig
open WeeboSi.Lib WeeboSi.Crd WeeboSi.Chassis
open WeeboSi.NetworkProfiles (OnNotGranted TemplateRef parseKeys)

abbrev RegistryKey := Text

inductive SourceKind where
  | configMap | secret
  deriving DecidableEq, Repr

structure RegistrySource where
  kind : SourceKind
  templateRef : TemplateRef
  deriving DecidableEq, Repr

structure RegistryEntry where
  key : RegistryKey
  sources : List RegistrySource
  deriving DecidableEq, Repr

structure RegistryGrant where
  allowed : List RegistryKey
  default : List RegistryKey
  deriving DecidableEq, Repr

structure RegistryConfigSpec where
  catalog : List RegistryEntry
  onNotGranted : OnNotGranted
  deriving DecidableEq, Repr

abbrev ResolvedRegistryConfig := Resolved RegistryConfigSpec RegistryGrant

def RegistryConfigSpec.entry (config : RegistryConfigSpec) (key : RegistryKey) : Option RegistryEntry :=
  config.catalog.find? fun entry => entry.key = key

def copyName (key : RegistryKey) (sourceName : Text) : Text :=
  "weebo-si-".toList ++ key ++ "-".toList ++ sourceName

/-! ## Resolution -/

inductive ResolutionStep where
  | annotatedNamespace | grantDefault
  deriving DecidableEq, Repr

structure Provenance where
  team : Option Text
  step : ResolutionStep
  resolved : List RegistryKey
  droppedNotGranted : List RegistryKey
  deriving DecidableEq, Repr

structure NotGranted where
  team : Option Text
  requested : List RegistryKey
  deriving DecidableEq, Repr

section Resolve
variable (teams : List Team) (config : ResolvedRegistryConfig) (labels : Labels) (annotated : Option Text)

def matchedTeam : Option Team := teams.find? fun team => team.namespaceSelector.matchesLabels labels

/-- A team without a grant, or no team, is granted nothing. -/
def grantOf : RegistryGrant :=
  match matchedTeam teams labels with
  | some team => (config.grants.lookup team.name).getD ⟨[], []⟩
  | none => ⟨[], []⟩

def requestedKeys (grant : RegistryGrant) : List RegistryKey × ResolutionStep :=
  match annotated with
  | some raw => (parseKeys raw, .annotatedNamespace)
  | none => (grant.default, .grantDefault)

def resolve : Except NotGranted Provenance :=
  let team := (matchedTeam teams labels).map Team.name
  let grant := grantOf teams config labels
  let (requested, step) := requestedKeys annotated grant
  let notGranted := requested.filter fun key => !grant.allowed.contains key
  if notGranted = [] then .ok ⟨team, step, requested, []⟩
  else match config.config.onNotGranted with
    | .deny => .error ⟨team, notGranted⟩
    | .default => .ok ⟨team, .grantDefault, grant.default, notGranted⟩

end Resolve

/-! ## Mounts -/

def mountToDevworkspaceKey : Text := "controller.devfile.io/mount-to-devworkspace".toList
def mountAsKey : Text := "controller.devfile.io/mount-as".toList
def mountPathKey : Text := "controller.devfile.io/mount-path".toList

inductive MountAs where
  | file | subpath | env | unknown
  deriving DecidableEq, Repr

/-- Without the annotation, or with an empty one, the object becomes a directory. -/
def MountAs.parse (annotations : Labels) : MountAs :=
  match (annotations.lookup mountAsKey).map fun value => (trim value).map Char.toLower with
  | none => .file
  | some value =>
    if value = [] ∨ value = "file".toList then .file
    else if value = "subpath".toList then .subpath
    else if value = "env".toList then .env
    else .unknown

inductive TemplateRefusal where
  | notAutomountable | mountShadowsPath
  deriving DecidableEq, Repr

def isAutomountable (labels : Labels) : Bool :=
  (labels.lookup mountToDevworkspaceKey).any fun value => trim value = "true".toList

/-- The path the segments lead to; above the root is the root. -/
def walked (path : Text) : List Text :=
  ((trim path).splitOn '/').foldl
    (fun segments segment =>
      if segment = [] ∨ segment = ".".toList then segments
      else if segment = "..".toList then segments.dropLast
      else segments ++ [segment])
    []

/-- A mount there would replace the root, a home or a dot-directory. -/
def shadowsDirectory (path : Text) : Bool :=
  if walked path = [] then true
  else if ((walked path).getLast?.bind List.head?) = some '.' then true
  else match walked path with
    | [only] => only = "home".toList ∨ only = "root".toList
    | [first, _] => first = "home".toList
    | _ => false

def admitTemplate (labels annotations : Labels) : Except TemplateRefusal Unit :=
  if isAutomountable labels = false then .error .notAutomountable
  else if MountAs.parse annotations = .subpath ∨ MountAs.parse annotations = .env then .ok ()
  else match annotations.lookup mountPathKey with
    | some path => if shadowsDirectory path then .error .mountShadowsPath else .ok ()
    | none => .ok ()

/-! ## Objects -/

structure Template where
  labels : Labels
  annotations : Labels
  body : List UInt8
  deriving DecidableEq, Repr

structure ManagedObject where
  key : ObjectKey
  kind : SourceKind
  entry : RegistryKey
  labels : Labels
  annotations : Labels
  body : List UInt8
  deriving DecidableEq, Repr

/-- The entry is provenance, not content. -/
instance : Managed ManagedObject SourceKind where
  key := ManagedObject.key
  backend := ManagedObject.kind
  contentEq a b := a.kind = b.kind ∧ a.labels = b.labels ∧ a.annotations = b.annotations ∧ a.body = b.body
  uid _ := none

/-- A source that gave no copy; without a refusal its template was not found. -/
structure RefusedTemplate where
  entry : RegistryKey
  kind : SourceKind
  name : Text
  refusal : Option TemplateRefusal
  deriving DecidableEq, Repr

structure DesiredState where
  objects : List ManagedObject
  team : Option Text
  notGranted : List RegistryKey
  refused : List RefusedTemplate
  held : List ObjectKey
  deriving DecidableEq, Repr

def DesiredState.isReady (state : DesiredState) : Bool := state.refused.isEmpty && state.notGranted.isEmpty

/-! ## The copies of a namespace -/

abbrev TemplateStore := SourceKind → TemplateRef → Option Template

structure NamespaceSubject where
  namespaceName : Text
  annotated : Option Text
  deriving DecidableEq, Repr

section Desired
variable (templates : TemplateStore) (namespaceName : Text)

/-- Where the copy of a source lives. -/
def copyKey (key : RegistryKey) (source : RegistrySource) : ObjectKey :=
  ⟨namespaceName, copyName key source.templateRef.name⟩

def DesiredState.hold (state : DesiredState) (key : RegistryKey) (source : RegistrySource)
    (refusal : Option TemplateRefusal) : DesiredState :=
  { state with
    held := state.held ++ [copyKey namespaceName key source]
    refused := state.refused ++ [⟨key, source.kind, source.templateRef.name, refusal⟩] }

def copySource (key : RegistryKey) (state : DesiredState) (source : RegistrySource) : DesiredState :=
  match templates source.kind source.templateRef with
  | none => state.hold namespaceName key source none
  | some template =>
    match admitTemplate template.labels template.annotations with
    | .error refusal => state.hold namespaceName key source (some refusal)
    | .ok () =>
      { state with
        objects := state.objects ++ [⟨copyKey namespaceName key source, source.kind, key, template.labels,
          template.annotations, template.body⟩] }

/-- The loop over the resolved keys. -/
def copyKeys (config : RegistryConfigSpec) :
    List RegistryKey → DesiredState → Except DomainError DesiredState
  | [], state => .ok state
  | key :: keys, state =>
    match config.entry key with
    | none =>
      .error (.invalidConfiguration ("resolved registry key ".toList ++ key ++
        " is not present in the catalog".toList))
    | some entry => copyKeys config keys (entry.sources.foldl (copySource templates namespaceName key) state)

end Desired

/-- What a pass wants of a namespace, under the configuration as it is loaded. -/
def desired (templates : TemplateStore) (loaded : Option ResolvedRegistryConfig) (subject : NamespaceSubject)
    (teams : List Team) (labels : Labels) : Except DomainError DesiredState :=
  match loaded with
  | none =>
    .error (.invalidConfiguration
      "registry-config evaluated with no spec.features.registryConfig configured".toList)
  | some config =>
    match resolve teams config labels subject.annotated with
    | .error notGranted => .ok ⟨[], notGranted.team, notGranted.requested, [], []⟩
    | .ok provenance =>
      copyKeys templates subject.namespaceName config.config provenance.resolved
        ⟨[], provenance.team, provenance.droppedNotGranted, [], []⟩

end WeeboSi.RegistryConfig
