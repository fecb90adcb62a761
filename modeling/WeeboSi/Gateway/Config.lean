import WeeboSi.EndpointAuth.Bearer

/-!
# The gateway's configuration

Source: bins/endpoint-gateway/src/config.rs:285-345, 483-496, 611-619, 780-832 and 872-923.
The fields are those that `validate` and the modelled handlers read; a refusal names the
check instead of carrying its message.
-/
namespace WeeboSi.Gateway
open WeeboSi.Lib WeeboSi.EndpointAuth

structure SessionConfig where
  ssoTtlSecs : Nat
  hostTtlSecs : Nat
  hostSliding : Bool
  grantTtlSecs : Nat
  maxGroups : Nat
  deriving DecidableEq, Repr

def SessionConfig.standard : SessionConfig := ⟨12 * 3600, 3600, true, 30, 64⟩

/-- Whose word on the client address is believed; networks stand as the admin spelled them. -/
inductive TrustedProxy where
  | any
  | cidrs (networks : List Text)
  | off
  deriving DecidableEq, Repr

inductive PodNetwork where
  | auto | on | off
  deriving DecidableEq, Repr

structure GatewayConfig where
  issuer : Text
  redirectUrl : Text
  usernameClaim : Text
  hostsSuffix : Text
  hostsExclude : List Text
  session : SessionConfig
  verifyOwnIssuer : Bool
  audiences : List Text
  authorizedParties : List Text
  trustedProxy : TrustedProxy
  podNetwork : PodNetwork
  reverseProxy : Bool
  rejectUnnormalisedPath : Bool
  deriving DecidableEq, Repr

inductive ConfigError where
  | hosts (error : ScopeError)
  | issuerNotHttps (issuer : Text)
  | redirectUrlNotHttps (redirectUrl : Text)
  | emptyUsernameClaim
  | anyProxyOnReverseProxy
  | unnormalisedPathAllowed
  | hostOutlivesSso
  | bearer (error : RulesError)
  deriving DecidableEq, Repr

def httpsScheme : Text := "https://".toList

namespace GatewayConfig

/-- The host of the redirect URL, without userinfo and port. -/
def ownHost (config : GatewayConfig) : Option Text :=
  if httpsScheme.isPrefixOf config.redirectUrl then
    let authority := (config.redirectUrl.drop httpsScheme.length).takeWhile fun c =>
      c ≠ '/' && c ≠ '?' && c ≠ '#'
    let host := match rsplitOnce '@' authority with
      | some (_, host) => host
      | none => authority
    let host := (trim (host.takeWhile (· ≠ ':'))).map Char.toLower
    if host = [] then none else some host
  else none

/-- The gateway's own host is excluded whether or not the configuration says so. -/
def scope (config : GatewayConfig) : Except ScopeError HostScope :=
  HostScope.new config.hostsSuffix (config.hostsExclude ++ config.ownHost.toList)

def bearerRules (config : GatewayConfig) : Except RulesError (Option BearerRules) :=
  if !config.verifyOwnIssuer then .ok none
  else (BearerRules.new config.issuer config.audiences config.authorizedParties).map some

def validate (config : GatewayConfig) : Except ConfigError Unit := do
  let _ ← config.scope.mapError ConfigError.hosts
  if !httpsScheme.isPrefixOf config.issuer then .error (.issuerNotHttps config.issuer)
  else if !httpsScheme.isPrefixOf config.redirectUrl then .error (.redirectUrlNotHttps config.redirectUrl)
  else if trim config.usernameClaim = [] then .error .emptyUsernameClaim
  else if config.reverseProxy && config.trustedProxy = .any && config.podNetwork ≠ .off then
    .error .anyProxyOnReverseProxy
  else if !config.rejectUnnormalisedPath then .error .unnormalisedPathAllowed
  else if config.session.hostTtlSecs > config.session.ssoTtlSecs then .error .hostOutlivesSso
  else do
    let _ ← config.bearerRules.mapError ConfigError.bearer
    .ok ()

end GatewayConfig

end WeeboSi.Gateway
