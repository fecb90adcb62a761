import WeeboSi.Crd.Hosts
import WeeboSi.Gateway.KubeCatalog
import WeeboSi.Lib.TextMap
import WeeboSi.Lib.Trim

/-!
# Attaching the gate to a routing object

Source: crates/weebo-si-crd/src/endpoint_auth.rs:31-57, 462-790, 812-846, 998-1030 and
1107-1212. `attachment` never removes a key, so that there is nothing to keep of its list of
removals. Whether an ownership expression compiles and has a group `user` is the regex
crate's answer, `usable`.
-/
namespace WeeboSi.Crd
open WeeboSi.Lib

abbrev Annotations := TextMap Text

def accessAnnotationKey : Text := "hardening.weebo.io/access".toList
def allowUsersAnnotationKey : Text := "hardening.weebo.io/allow-users".toList
def allowGroupsAnnotationKey : Text := "hardening.weebo.io/allow-groups".toList
def rulesAnnotationKey : Text := "hardening.weebo.io/rules".toList
def endpointAuthAnnotationKey : Text := "hardening.weebo.io/endpoint-auth".toList
def endpointAuthManaged : Text := "managed".toList
def endpointAuthBypass : Text := "bypass".toList
def upstreamAnnotationKey : Text := "hardening.weebo.io/upstream".toList

/-- What a developer may edit on a gated object. -/
def developerAnnotations : List Text :=
  [accessAnnotationKey, allowUsersAnnotationKey, allowGroupsAnnotationKey, rulesAnnotationKey]

def middlewareName : Text := "weebo-si-endpoint-auth".toList
def companionService : Text := "weebo-si-endpoint-gateway".toList

/-! ## The gateway -/

inductive AttachmentMode where
  | forwardAuth | reverseProxy
  deriving DecidableEq, Repr

inductive RoutingKind where
  | ingress | route
  deriving DecidableEq, Repr

def RoutingKind.name : RoutingKind → Text
  | ingress => "Ingress".toList
  | route => "Route".toList

inductive Dialect where
  | traefik | haproxyIngress | openShiftRoute | custom
  deriving DecidableEq, Repr

def Dialect.mode : Dialect → AttachmentMode
  | openShiftRoute => .reverseProxy
  | _ => .forwardAuth

structure ServiceRef where
  name : Text
  namespaceName : Text
  port : UInt16

/-- A number as it is written. -/
def decimal (n : Nat) : Text := Nat.toDigits 10 n

def ServiceRef.url (service : ServiceRef) (clusterDomain : Text) : Text :=
  "http://".toList ++ service.name ++ ".".toList ++ service.namespaceName ++ ".svc.".toList
    ++ trimBy (· == '.') clusterDomain ++ ":".toList ++ decimal service.port.toNat

structure CustomDialect where
  annotations : Annotations
  managedKeys : List Text

structure GatewayRef where
  externalUrl : Text
  service : ServiceRef
  clusterDomain : Text
  dialect : Dialect
  allowedMiddlewares : List Text
  custom : Option CustomDialect
  haproxyPrerequisite : Bool

def GatewayRef.serviceUrl (gateway : GatewayRef) : Text := gateway.service.url gateway.clusterDomain

/-- The shared middleware, as an `Ingress` names it. -/
def GatewayRef.middleware (gateway : GatewayRef) : Text :=
  gateway.service.namespaceName ++ "-".toList ++ middlewareName ++ "@kubernetescrd".toList

/-- `str::replace` of a nonempty needle: `skip` counts the characters of the last occurrence
that are still to be passed over. -/
def replaceFrom (needle by_ : Text) : Nat → Text → Text
  | _, [] => []
  | skip + 1, _ :: rest => replaceFrom needle by_ skip rest
  | 0, c :: rest =>
    if needle.isPrefixOf (c :: rest) then by_ ++ replaceFrom needle by_ (needle.length - 1) rest
    else c :: replaceFrom needle by_ 0 rest

def placeholder (name : Text) : Text := ['$', '\x7b'] ++ name ++ ['\x7d']

def renderCustom (template : Text) (gateway : GatewayRef) : Text :=
  let withUrl := replaceFrom (placeholder "gateway_url".toList) gateway.serviceUrl 0 template
  let withExternal := replaceFrom (placeholder "gateway_external_url".toList) gateway.externalUrl 0 withUrl
  replaceFrom (placeholder "middleware".toList) gateway.middleware 0 withExternal

/-- The annotations that attach the gate. -/
def Dialect.annotations (dialect : Dialect) (gateway : GatewayRef) : Annotations :=
  match dialect with
  | traefik =>
    .ofList [("traefik.ingress.kubernetes.io/router.middlewares".toList,
      List.intercalate [','] (gateway.middleware :: gateway.allowedMiddlewares))]
  | haproxyIngress =>
    .ofList
      [("haproxy-ingress.github.io/auth-url".toList, gateway.serviceUrl ++ "/auth".toList),
        ("haproxy-ingress.github.io/auth-method".toList, "*".toList),
        ("haproxy-ingress.github.io/auth-headers-request".toList,
          ("cookie,authorization,x-real-ip,x-forwarded-host,x-forwarded-uri,".toList
            ++ "x-forwarded-method,x-forwarded-proto,accept,sec-fetch-dest,sec-fetch-mode,".toList
            ++ "origin,access-control-request-method".toList)),
        ("haproxy-ingress.github.io/auth-headers-succeed".toList,
          "x-auth-request-user,x-auth-request-groups,x-auth-request-email".toList),
        ("haproxy-ingress.github.io/auth-signin".toList, gateway.externalUrl ++ "/oidc/start".toList)]
  | openShiftRoute => .empty
  | custom =>
    match gateway.custom with
    | some declared =>
      .ofList (declared.annotations.members.map fun (key, value) => (key, renderCustom value gateway))
    | none => .empty

/-- What the guard should pin by value. -/
def Dialect.managedKeys (dialect : Dialect) (gateway : GatewayRef) : List Text :=
  endpointAuthAnnotationKey :: match dialect with
    | custom => (gateway.custom.map CustomDialect.managedKeys).getD []
    | openShiftRoute => [upstreamAnnotationKey]
    | other => (other.annotations gateway).keys

/-! ## The attachment -/

/-- Where the backend of a `Route` goes, and where it was. -/
structure Retarget where
  service : Text
  port : UInt16
  upstream : Text

structure Attachment where
  annotations : Annotations
  retarget : Option Retarget

/-- The fields of the configuration that admission reads besides those it compiles from. -/
structure EndpointAuthSpec extends EndpointAuthConfig where
  gateway : GatewayRef
  hosts : HostsConfig
  breakGlassIdentities : List Text
  devworkspaceOperatorIdentity : Text

abbrev ResolvedEndpointAuthSpec := Resolved EndpointAuthSpec AccessGrant

def saysBypass (annotations : Annotations) : Bool :=
  annotations.get endpointAuthAnnotationKey = some endpointAuthBypass

def upstreamText (service : Text) (port : UInt16) : Text := service ++ ":".toList ++ decimal port.toNat

/-- An object that says `bypass` gets nothing. -/
def EndpointAuthSpec.attachment (config : EndpointAuthSpec) (current : Annotations)
    (backend : Option (Text × UInt16)) : Attachment :=
  if saysBypass current then ⟨.empty, none⟩
  else
    let annotations := (config.gateway.dialect.annotations config.gateway).insert endpointAuthAnnotationKey
      endpointAuthManaged
    match config.gateway.dialect.mode, backend with
    | .reverseProxy, some (service, port) =>
      if service ≠ companionService then
        ⟨annotations.insert upstreamAnnotationKey (upstreamText service port),
          some ⟨companionService, config.gateway.service.port, upstreamText service port⟩⟩
      else ⟨annotations, none⟩
    | _, _ => ⟨annotations, none⟩

/-! ## Violations -/

inductive EndpointAuthConfigViolation where
  | duplicateAccessKey (key : AccessKey)
  | anonymousEntryDelegates (key : AccessKey)
  | unknownAccessKey (key : AccessKey)
  | defaultNotAllowed (team : Text) (key : AccessKey)
  | unknownTeam (team : Text)
  | suffixNotDotted (suffix : Text)
  | noHostOwnership
  | badHostOwnership (pattern : Text)
  | overrideMatchesNothing
  | customDialectHasNoTemplate
  | undeclaredManagedKey (key : Text)
  | gatewayUrlNotHttps (url : Text)
  | haproxyPrerequisiteNotAsserted
  deriving DecidableEq, Repr

def OverrideMatch.isEmpty (matcher : OverrideMatch) : Bool :=
  matcher.users.isEmpty && matcher.namespaceSelector.isNone

section Validate
variable (usable : Text → Bool)

/-- One violation where a check fails. -/
def violationUnless (holds : Bool) (violation : EndpointAuthConfigViolation) :
    List EndpointAuthConfigViolation :=
  if holds then [] else [violation]

def catalogViolations : List AccessKey → List AccessEntry → List EndpointAuthConfigViolation
  | _, [] => []
  | seen, entry :: rest =>
    violationUnless (!seen.contains entry.key) (.duplicateAccessKey entry.key)
      ++ violationUnless (!(entry.anonymous && entry.delegation ≠ [])) (.anonymousEntryDelegates entry.key)
      ++ catalogViolations (entry.key :: seen) rest

def ownershipViolation (pattern : HostOwnership) : List EndpointAuthConfigViolation :=
  match pattern.template, pattern.regex with
  | some template, regex =>
    if (findText ['\x7b', 'u', 's', 'e', 'r', '\x7d'] template).isSome then []
    else match regex with
      | some regex => violationUnless (usable (anchor regex)) (.badHostOwnership regex)
      | none => [.badHostOwnership template]
  | none, some regex => violationUnless (usable (anchor regex)) (.badHostOwnership regex)
  | none, none => [.badHostOwnership []]

def ResolvedEndpointAuthSpec.validate (resolved : ResolvedEndpointAuthSpec) (teams : List Team) :
    List EndpointAuthConfigViolation :=
  let config := resolved.config
  let keys := config.catalog.map AccessEntry.key
  let known (key : AccessKey) := violationUnless (keys.contains key) (.unknownAccessKey key)
  catalogViolations [] config.catalog
    ++ known config.default
    ++ (resolved.grants.flatMap fun (team, grant) =>
      violationUnless ((teams.map Team.name).contains team) (.unknownTeam team)
        ++ grant.allowed.flatMap known ++ known grant.default
        ++ violationUnless (grant.allowed.contains grant.default) (.defaultNotAllowed team grant.default))
    ++ (config.overrides.flatMap fun declared =>
      violationUnless (!declared.matcher.isEmpty) .overrideMatchesNothing
        ++ (declared.allowed.getD []).flatMap known ++ declared.default.toList.flatMap known)
    ++ violationUnless (config.hosts.suffix.head? = some '.') (.suffixNotDotted config.hosts.suffix)
    ++ violationUnless (!config.hosts.ownership.isEmpty) .noHostOwnership
    ++ config.hosts.ownership.flatMap (ownershipViolation usable)
    ++ violationUnless ("https://".toList.isPrefixOf config.gateway.externalUrl)
      (.gatewayUrlNotHttps config.gateway.externalUrl)
    ++ violationUnless (!(config.gateway.dialect = .haproxyIngress && !config.gateway.haproxyPrerequisite))
      .haproxyPrerequisiteNotAsserted
    ++ match config.gateway.dialect, config.gateway.custom with
      | .custom, none => [.customDialectHasNoTemplate]
      | .custom, some declared =>
        declared.annotations.keys.flatMap fun key =>
          violationUnless (declared.managedKeys.contains key) (.undeclaredManagedKey key)
      | _, _ => []

end Validate

/-! ## A cluster -/

def dwoIdentity : Text := "system:serviceaccount:openshift-operators:devworkspace-controller-serviceaccount".toList
def operatorName : Text := "system:serviceaccount:weebo-si-hardening:weebo-si-operator".toList

def clusterSpec (dialect : Dialect) : EndpointAuthSpec where
  ownerAnnotated := "che.eclipse.org/username".toList
  catalog := [⟨"private".toList, false, []⟩]
  default := "private".toList
  overrides := []
  gateway :=
    { externalUrl := "https://auth.weebo.si".toList
      service := ⟨"endpoint-gateway".toList, "weebo-si-hardening".toList, 4180⟩
      clusterDomain := "cluster.local".toList
      dialect
      allowedMiddlewares := []
      custom := none
      haproxyPrerequisite := true }
  hosts := ⟨".weebo.si".toList, [⟨some "\x7buser\x7d-w".toList, none⟩], []⟩
  breakGlassIdentities := []
  devworkspaceOperatorIdentity := dwoIdentity

end WeeboSi.Crd
