import WeeboSi.Crd.Application
import WeeboSi.Lib.UrlPath

/-!
# A person's plan and the allow-lists

Source: crates/weebo-si-crd/src/identity.rs:45-228 and 280-582, user.rs:54-140 and 195-262,
team.rs:114-141. Planning does not look at the mode; what a team or a person says outside
provisioning is left out.
-/
namespace WeeboSi.Crd
open WeeboSi.Lib

/-! ## People and teams -/

structure UserAuthentik where
  mode : ProvisioningMode
  name : Option Text
  groupRefs : List Text
  deriving DecidableEq, Repr

structure UserChe where
  mode : ProvisioningMode
  namespaceName : Option Text
  values : Option Json
  deriving DecidableEq

structure WeeboSiUser where
  metadataName : Option Text
  username : Text
  displayName : Option Text
  email : Option Text
  team : Option Text
  active : Bool
  authentik : Option UserAuthentik
  che : Option UserChe
  deriving DecidableEq

namespace WeeboSiUser
variable (user : WeeboSiUser)

def objectName : Text := user.metadataName.getD []

def shownName : Text := user.displayName.getD user.username

def authentikName : Text := (user.authentik.bind UserAuthentik.name).getD user.objectName

def bindings : Bindings :=
  let bound := Bindings.bind [] usernameVariable user.username
  let bound := Bindings.bind bound objectNameVariable user.objectName
  let bound := Bindings.bind bound teamNameVariable (user.team.getD [])
  let bound := Bindings.bind bound emailVariable (user.email.getD [])
  Bindings.bind bound displayNameVariable user.shownName

def wantsAuthentik : Bool := user.authentik.map UserAuthentik.mode == some .ensure

def wantsChe : Bool := user.che.map UserChe.mode == some .ensure

end WeeboSiUser

/-- What provisioning reads of a team object. -/
structure ProvisioningTeam where
  teamName : Text
  groupRefs : List Text
  che : Option ApplicationTemplate
  deriving DecidableEq

/-! ## Configuration and plans -/

structure CheProvisioning where
  applicationNamespace : Text
  allowedProjects : List Text
  allowedRepoUrls : List Text
  deriving DecidableEq, Repr

structure IdentityConfig where
  allowedGroupRefs : List Text
  che : CheProvisioning
  deriving DecidableEq, Repr

structure AuthentikUserPlan where
  name : Text
  username : Text
  displayName : Text
  email : Text
  isActive : Bool
  groupRefs : List Text
  deriving DecidableEq, Repr

structure UserPlan where
  authentik : Option AuthentikUserPlan
  application : Option RenderedApplication
  deriving DecidableEq

inductive IdentityConfigViolation where
  | duplicateUsername (user : Text)
  | unknownTeam (user team : Text)
  | groupRefNotAllowed (subject group : Text)
  | emailRequired (user : Text)
  | workspaceWithoutTeam (user : Text)
  | workspaceWithoutTemplate (user team : Text)
  | workspaceDisabledByTeam (user team : Text)
  | templateInvalid (team : Text) (violation : ApplicationTemplateViolation)
  | projectNotAllowed (team project : Text)
  | repoUrlNotAllowed (team repoUrl : Text)
  | renderFailed (user : Text) (error : TemplateError)
  deriving DecidableEq, Repr

/-! ## The checks -/

/-- An entry that ends in a star matches by prefix, any other exactly. -/
def allowListed (patterns : List Text) (value : Text) : Bool :=
  patterns.any fun pattern =>
    if pattern.getLast? = some '*' then pattern.dropLast.isPrefixOf value else pattern == value

def maxDecodePasses : Nat := 4

def hasDotDotSegment (bytes : Bytes) : Bool := (bytes.splitOnP isDelim).any fun segment => segment == dotDot

/-- A URL that decodes in every pass is refused. -/
def climbsOutLoop : Nat → Bytes → Bool
  | 0, _ => true
  | passes + 1, current =>
    if hasDotDotSegment current then true
    else if percentDecode current = current then false
    else climbsOutLoop passes (percentDecode current)

def climbsOut (url : Text) : Bool := climbsOutLoop maxDecodePasses (utf8 url)

namespace IdentityConfig
variable (config : IdentityConfig)

def templateViolations (team : ProvisioningTeam) : List IdentityConfigViolation :=
  match team.che with
  | none => []
  | some template =>
    (template.validateShape.map fun violation => .templateInvalid team.teamName violation) ++
      (if allowListed config.che.allowedProjects template.project then []
        else [.projectNotAllowed team.teamName template.project]) ++
      (if allowListed config.che.allowedRepoUrls template.source.repoUrl then []
        else [.repoUrlNotAllowed team.teamName template.source.repoUrl])

/-- The groups of the team and of the person, in order and once each. -/
def groupsOf (user : WeeboSiUser) (team : Option ProvisioningTeam) : List Text :=
  ((team.map ProvisioningTeam.groupRefs).getD [] ++
    (user.authentik.map UserAuthentik.groupRefs).getD []).eraseDups.insertionSort fun a b => textLe a b = true

def authentikPlan (user : WeeboSiUser) (team : Option ProvisioningTeam) :
    Except (List IdentityConfigViolation) AuthentikUserPlan :=
  match user.email.filter fun email => !email.isEmpty with
  | none => .error [.emailRequired user.username]
  | some email =>
    let refused := (groupsOf user team).filter fun group => !allowListed config.allowedGroupRefs group
    if refused ≠ [] then .error (refused.map fun group => .groupRefNotAllowed user.username group)
    else .ok ⟨user.authentikName, user.username, user.shownName, email, user.active, groupsOf user team⟩

def applicationPlan (user : WeeboSiUser) :
    Option ProvisioningTeam → Except (List IdentityConfigViolation) RenderedApplication
  | none => .error [.workspaceWithoutTeam user.username]
  | some team =>
    match team.che with
    | none => .error [.workspaceWithoutTemplate user.username team.teamName]
    | some template =>
      if template.mode = .off then .error [.workspaceDisabledByTeam user.username team.teamName]
      else if config.templateViolations team ≠ [] then .error (config.templateViolations team)
      else
        match template.render config.che.applicationNamespace user.bindings
            (user.che.bind UserChe.namespaceName) (user.che.bind UserChe.values) with
        | .error error => .error [.renderFailed user.username error]
        | .ok application =>
          if climbsOut application.source.repoUrl ||
              !allowListed config.che.allowedRepoUrls application.source.repoUrl then
            .error [.repoUrlNotAllowed team.teamName application.source.repoUrl]
          else .ok application

/-- One half of a plan, if it was asked for. -/
def half {P : Type} (wanted : Bool) (plan : Except (List IdentityConfigViolation) P) :
    Option P × List IdentityConfigViolation :=
  if wanted then
    match plan with
    | .ok plan => (some plan, [])
    | .error violations => (none, violations)
  else (none, [])

def planFor (user : WeeboSiUser) (team : Option ProvisioningTeam) :
    Except (List IdentityConfigViolation) UserPlan :=
  let (authentik, refusedGroups) := half user.wantsAuthentik (config.authentikPlan user team)
  let (application, refusedWorkspace) := half user.wantsChe (config.applicationPlan user team)
  if refusedGroups ++ refusedWorkspace = [] then .ok ⟨authentik, application⟩
  else .error (refusedGroups ++ refusedWorkspace)

/-! ## Every violation -/

def teamViolations (team : ProvisioningTeam) : List IdentityConfigViolation :=
  config.templateViolations team ++
    (team.groupRefs.filter fun group => !allowListed config.allowedGroupRefs group).map
      fun group => .groupRefNotAllowed team.teamName group

/-- What is wrong with one person besides the username. -/
def userViolations (teams : List ProvisioningTeam) (user : WeeboSiUser) : List IdentityConfigViolation :=
  let unknown := user.team.filter fun name => !teams.any fun team => team.teamName == name
  let team := user.team.bind fun name => teams.find? fun team => team.teamName == name
  (unknown.toList.map fun name => .unknownTeam user.username name) ++
    match config.planFor user team with
    | .ok _ => []
    | .error found => found

/-- The loop over the people, with the usernames that were seen and those that were reported. -/
def validateUsers (teams : List ProvisioningTeam) :
    List Text → List Text → List WeeboSiUser → List IdentityConfigViolation
  | _, _, [] => []
  | seen, reported, user :: users =>
    let repeated := seen.contains user.username && !reported.contains user.username
    (if repeated then [.duplicateUsername user.username] else []) ++ config.userViolations teams user ++
      validateUsers teams (user.username :: seen) (if repeated then user.username :: reported else reported) users

def validate (teams : List ProvisioningTeam) (users : List WeeboSiUser) : List IdentityConfigViolation :=
  teams.flatMap config.teamViolations ++ config.validateUsers teams [] [] users

end IdentityConfig

end WeeboSi.Crd
