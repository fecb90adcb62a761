import WeeboSi.Identity.DuplicateUsername
import WeeboSi.Webhook.Render

/-!
# Provisioning a person

Source: crates/weebo-si-identity/src/application.rs:17-82 and 122-188, port.rs:18-61,
crates/weebo-si-identity-adapters/src/controller.rs:212-460, kube_provisioner.rs:96-207 and
crates/weebo-si-crd/src/identity.rs:122-148, argo.rs:308-373. A pass reads everything it decides
on before it looks at a target; then it takes the targets one after the other, and between
looking at one and writing it anything may happen. How a violation reads is left open.
-/
namespace WeeboSi.Identity
open WeeboSi.Lib WeeboSi.Crd WeeboSi.Chassis

/-! ## What is written -/

/-- An object of the members that are there, in the order of their keys. -/
def objectOf (members : List (Text × Option Json)) : Json :=
  .object (members.filterMap fun (key, value) => value.map fun value => (key, value))

def textJson (value : Text) : Option Json := some (.string value)

def authentikSpec (plan : AuthentikUserPlan) : Json :=
  objectOf [("email".toList, textJson plan.email), ("groupRefs".toList, some (.array (plan.groupRefs.map .string))),
    ("isActive".toList, some (.bool plan.isActive)), ("name".toList, textJson plan.displayName),
    ("username".toList, textJson plan.username)]

def sourceJson (source : ApplicationSource) : Json :=
  objectOf [("chart".toList, source.chart.bind textJson),
    ("helm".toList, source.values.map fun values => objectOf [("valuesObject".toList, some values)]),
    ("path".toList, source.path.bind textJson), ("repoURL".toList, textJson source.repoUrl),
    ("targetRevision".toList, textJson source.targetRevision)]

def destinationJson (destination : ApplicationDestination) : Json :=
  objectOf [("name".toList, destination.name.bind textJson), ("namespace".toList, textJson destination.namespaceName),
    ("server".toList, destination.server.bind textJson)]

def syncJson (policy : SyncPolicy) : Json :=
  objectOf [("automated".toList, policy.automated.map fun automated =>
      objectOf [("prune".toList, some (.bool automated.prune)), ("selfHeal".toList, some (.bool automated.selfHeal))]),
    ("syncOptions".toList, if policy.options = [] then none else some (.array (policy.options.map .string)))]

def applicationSpec (plan : RenderedApplication) : Json :=
  objectOf [("destination".toList, some (destinationJson plan.destination)), ("project".toList, textJson plan.project),
    ("source".toList, some (sourceJson plan.source)), ("syncPolicy".toList, plan.syncPolicy.map syncJson)]

inductive Kind where
  | authentikUser | application
  deriving DecidableEq, Repr

def Kind.name : Kind → Text
  | .authentikUser => "AuthentikUser".toList
  | .application => "Application".toList

def ownerApiVersion : Text := "hardening.weebo.io/v1alpha1".toList

def ownerKind : Text := "WeeboSiUser".toList

structure ObjectOwner where
  apiVersion : Text
  kind : Text
  name : Text
  uid : Text
  deriving DecidableEq, Repr

structure DesiredObject where
  kind : Kind
  name : Text
  namespaceName : Option Text
  spec : Json
  owner : ObjectOwner

/-- Where the apiserver keeps an object. -/
structure Place where
  kind : Kind
  namespaceName : Option Text
  name : Text
  deriving DecidableEq, Repr

def DesiredObject.place (desired : DesiredObject) : Place := ⟨desired.kind, desired.namespaceName, desired.name⟩

/-- What the cluster holds: `owners` are its owner references. -/
structure Held where
  owners : List ObjectOwner
  spec : Json

/-- The person owning it, by uid. -/
def Held.ownerUid (held : Held) : Option Text :=
  (held.owners.find? fun owner => owner.kind = ownerKind ∧ owner.apiVersion = ownerApiVersion).map ObjectOwner.uid

/-! ## One target -/

inductive Observation where
  | kindAbsent
  | missing
  | present (ownerUid : Option Text) (spec : Json)

inductive Action where
  | create | update | unchanged | adopt | conflict | absent
  deriving DecidableEq, Repr

inductive TargetState where
  | off | created | adopted | absent | conflict
  deriving DecidableEq, Repr

def Action.state : Action → TargetState
  | .create | .update | .unchanged => .created
  | .adopt => .adopted
  | .conflict => .conflict
  | .absent => .absent

def Action.writes : Action → Bool
  | .create | .update => true
  | _ => false

/-- Ownership is compared by uid: somebody else's object is referenced, never written. -/
def decideAction (desired : DesiredObject) (observation : Observation) (ownerUid : Text) : Action :=
  match observation with
  | .kindAbsent => .absent
  | .missing => .create
  | .present (some uid) spec =>
    if uid = ownerUid then if spec = desired.spec then .unchanged else .update
    else .conflict
  | .present none _ => .adopt

/-- How a read of the apiserver goes, and whether discovery finds the kind. -/
structure Answer where
  failure : Option Text
  served : Bool

/-- A missing kind answers like a missing object or like a failure; discovery tells them apart. -/
def observation (answer : Answer) (desired : DesiredObject) (cell : Option Held) : Except DomainError Observation :=
  match answer.failure, cell with
  | none, some held => .ok (.present held.ownerUid held.spec)
  | none, none => .ok (if answer.served then .missing else .kindAbsent)
  | some why, _ =>
    if answer.served then .error (.portFailed
      ("reading ".toList ++ desired.kind.name ++ '/' :: desired.name ++ ": ".toList ++ why))
    else .ok .kindAbsent

structure TargetStatus where
  name : Text
  namespaceName : Option Text
  state : TargetState
  message : Text

def messageFor (kind name : Text) (action : Action) (enforce : Bool) : Text :=
  let subject := kind ++ '/' :: name
  match action, enforce with
  | .create, true => "created ".toList ++ subject
  | .create, false => "would create ".toList ++ subject
  | .update, true => "updated ".toList ++ subject
  | .update, false => "would update ".toList ++ subject
  | .unchanged, _ => subject ++ " is up to date".toList
  | .adopt, _ => subject ++ " exists and is owned by somebody else: referenced, never written".toList
  | .conflict, _ => "another WeeboSiUser already owns ".toList ++ subject
  | .absent, _ => "this cluster does not serve the ".toList ++ kind ++ " kind, so ".toList ++ name
      ++ " cannot exist".toList

def DesiredObject.status (desired : DesiredObject) (action : Action) (enforce : Bool) : TargetStatus :=
  ⟨desired.name, desired.namespaceName, action.state, messageFor desired.kind.name desired.name action enforce⟩

/-! ## One pass -/

structure Condition where
  ready : Bool
  message : Text

structure UserStatus where
  team : Option Text
  authentik : Option TargetStatus
  che : Option TargetStatus
  condition : Condition

/-- What a pass over a person is given. -/
structure Pass where
  me : ListedUser
  config : Option (FeatureMode × IdentityConfig)
  teams : List ProvisioningTeam
  users : List ListedUser

namespace Pass
variable (pass : Pass)

def team : Option ProvisioningTeam :=
  pass.me.user.team.bind fun name => pass.teams.find? fun team => team.teamName = name

def owner (uid : Text) : ObjectOwner := ⟨ownerApiVersion, ownerKind, pass.me.user.objectName, uid⟩

def targets (uid : Text) (plan : UserPlan) : List DesiredObject :=
  (plan.authentik.map fun plan =>
      (⟨.authentikUser, plan.name, none, authentikSpec plan, pass.owner uid⟩ : DesiredObject)).toList ++
    (plan.application.map fun plan =>
      (⟨.application, plan.name, some plan.namespaceName, applicationSpec plan, pass.owner uid⟩ :
        DesiredObject)).toList

end Pass

/-- A pass on its way: what is left to do, and what was decided about the first of it. -/
structure Flight where
  pass : Pass
  mode : FeatureMode
  uid : Text
  pending : List DesiredObject
  decided : Option Action
  done : List (Kind × TargetStatus)
  failures : List DomainError

/-- A list of texts joined by a semicolon. -/
def joined (texts : List Text) : Text := "; ".toList.intercalate texts

section Start
variable (shown : IdentityConfigViolation → Text)

/-- A pass either has nothing to write, and says so, or sets out. -/
def Pass.start (pass : Pass) : UserStatus ⊕ Flight :=
  let nothing (ready : Bool) (message : Text) : UserStatus ⊕ Flight :=
    .inl ⟨pass.me.user.team, none, none, ⟨ready, message⟩⟩
  match pass.config with
  | none => nothing true "spec.features.identity is not configured: nothing is provisioned".toList
  | some (mode, config) =>
    if mode = .off then nothing true "spec.features.identity is Off: nothing is provisioned".toList
    else match config.planFor pass.me.user pass.team with
      | .error violations => nothing false (joined (violations.map shown))
      | .ok plan =>
        match pass.me.uid with
        | none => nothing false "this object has no metadata.uid, so nothing can be owned by it".toList
        | some uid =>
          match (claimant pass.me).bind fun me => usernameHolder me (claimants pass.users) with
          | some holder =>
            let message := "username ".toList ++ pass.me.user.username ++ " is already claimed by WeeboSiUser ".toList
              ++ holder.name
            let refused (name : Text) (namespaceName : Option Text) : TargetStatus :=
              ⟨name, namespaceName, .conflict, message⟩
            .inl ⟨pass.me.user.team, plan.authentik.map fun plan => refused plan.name none,
              plan.application.map fun plan => refused plan.name (some plan.namespaceName), ⟨false, message⟩⟩
          | none => .inr ⟨pass, mode, uid, pass.targets uid plan, none, [], []⟩

end Start

namespace Flight
variable (flight : Flight)

def enforces : Bool := flight.mode = .enforce

def report (desired : DesiredObject) (action : Action) (rest : List DesiredObject) : Flight :=
  { flight with
    pending := rest
    decided := none
    done := flight.done ++ [(desired.kind, desired.status action flight.enforces)] }

def fail (error : DomainError) (rest : List DesiredObject) : Flight :=
  { flight with pending := rest, decided := none, failures := flight.failures ++ [error] }

/-- The pass looks at its next target, and is done with it unless there is something to write. -/
def observe (answer : Answer) (cells : Place → Option Held) : Flight :=
  match flight.pending, flight.decided with
  | desired :: rest, none =>
    match observation answer desired (cells desired.place) with
    | .error error => flight.fail error rest
    | .ok seen =>
      let action := decideAction desired seen flight.uid
      if action.writes && flight.enforces then { flight with decided := some action }
      else flight.report desired action rest
  | _, _ => flight

/-- What becomes of a write; one whose answer is lost took place. -/
inductive WriteAnswer where
  | done
  | refused (why : Text)
  | lost (why : Text)

def writeFailure (desired : DesiredObject) (why : Text) : DomainError :=
  .portFailed ("writing ".toList ++ desired.kind.name ++ '/' :: desired.name ++ ": ".toList ++ why)

/-- The pass writes what it decided to write, and what the apiserver then has to store. -/
def write (answer : WriteAnswer) : Flight × Option DesiredObject :=
  match flight.pending, flight.decided with
  | desired :: rest, some action =>
    match answer with
    | .done => (flight.report desired action rest, some desired)
    | .refused why => (flight.fail (writeFailure desired why) rest, none)
    | .lost why => (flight.fail (writeFailure desired why) rest, some desired)
  | _, _ => (flight, none)

def statusOf (kind : Kind) : Option TargetStatus := flight.done.lookup kind

/-- An adopted target is a success; a conflict and a missing kind are not. -/
def problems : List Text :=
  flight.failures.map Webhook.DomainError.message ++
    (([flight.statusOf .authentikUser, flight.statusOf .application].filterMap id).filter fun status =>
      status.state = .conflict ∨ status.state = .absent).map TargetStatus.message

/-- The status a pass writes in the end. -/
def finish : UserStatus :=
  ⟨flight.pass.me.user.team, flight.statusOf .authentikUser, flight.statusOf .application,
    ⟨flight.problems = [], if flight.problems = [] then
        if flight.mode = .dryRun then "dry run: nothing written".toList else "provisioned".toList
      else joined flight.problems⟩⟩

end Flight

end WeeboSi.Identity
