import WeeboSi.Gateway.GroupFilter
import WeeboSi.Gateway.ReturnTarget
import WeeboSi.Gateway.SealedCodec
import WeeboSi.Gateway.Verifier

/-!
# Signing in

Source: bins/endpoint-gateway/src/http.rs:40-48, 568-600, 721-1010, 1196-1211, state.rs:386-392,
420-492, config.rs:188-224, 883-890 and adapters/oidc.rs:542-560, 804-925. The token endpoint is the
identity provider's: `exchange` and `refresh` are what it answers while a request is handled. A query
is given by the parameters a handler reads, a rate limit by what it answers.
-/
namespace WeeboSi.Gateway
open WeeboSi.Lib WeeboSi.EndpointAuth

def ssoCookieName : Text := "__Host-weebo-sso".toList
def stateCookieName : Text := "__Host-weebo-state".toList
def loginStateTtlSecs : Nat := 600

/-! ## The identity provider -/

structure TokenResponse where
  idToken : Text
  refreshToken : Option Text
  deriving DecidableEq, Repr

structure OidcClient where
  authorizationEndpoint : Text
  backchannelLogoutSupported : Bool
  clientId : Text
  redirectUrl : Text
  exchange : Text → Text → Option TokenResponse
  refresh : Text → Option TokenResponse

/-- The claims of an ID token: for this client, and not expired. -/
def JwksVerifier.claimsOfIdToken (verifier : JwksVerifier) (clientId token : Text) (now : Timestamp) :
    Option Claims :=
  match verifier.decodeVerified token with
  | .error _ => none
  | .ok value =>
    let presented := presentedFrom value
    if !presented.audiences.contains clientId then none
    else
      match presented.expiresAt with
      | none => none
      | some expiry => if now.isAtOrAfter expiry then none else (verifier.claimsFrom value).map Prod.fst

/-! ## URLs and cookies -/

def isUnreserved (byte : UInt8) : Bool :=
  (65 ≤ byte && byte ≤ 90) || (97 ≤ byte && byte ≤ 122) || (48 ≤ byte && byte ≤ 57) ||
    byte == 45 || byte == 46 || byte == 95 || byte == 126

def hexUpper (n : Nat) : Char := "0123456789ABCDEF".toList.getD n '0'

def urlencodeByte (byte : UInt8) : Text :=
  if isUnreserved byte then [Char.ofNat byte.toNat]
  else ['%', hexUpper (byte.toNat / 16), hexUpper (byte.toNat % 16)]

def urlencode (raw : Text) : Text := (utf8 raw).flatMap urlencodeByte

def callbackPath : Text := "/oidc/callback".toList

/-- The gateway's own origin. -/
def GatewayConfig.redirectBase (config : GatewayConfig) : Text :=
  if callbackPath.isSuffixOf config.redirectUrl then
    config.redirectUrl.take (config.redirectUrl.length - callbackPath.length)
  else config.redirectUrl

/-- Where a browser is sent, with the challenge of the verifier. -/
def OidcClient.authorizationUrl (pkceChallenge : Text → Text) (oidc : OidcClient) (state verifier : Text) : Text :=
  oidc.authorizationEndpoint ++ "?response_type=code&client_id=".toList ++ urlencode oidc.clientId ++
    "&redirect_uri=".toList ++ urlencode oidc.redirectUrl ++ "&scope=openid+profile+email+groups&state=".toList ++
    urlencode state ++ "&code_challenge=".toList ++ pkceChallenge verifier ++
    "&code_challenge_method=S256".toList

def hostSessionUrl (config : GatewayConfig) (target : Text) : Text :=
  config.redirectBase ++ "/host-session?rd=".toList ++ urlencode target

def oidcStartUrl (config : GatewayConfig) (target : Text) : Text :=
  config.redirectBase ++ "/oidc/start?rd=".toList ++ urlencode target

def setCookieText (name sealed : Text) (maxAge : Nat) : Text :=
  name ++ '=' :: sealed ++ "; Path=/; Secure; HttpOnly; SameSite=Lax; Max-Age=".toList ++ (toString maxAge).toList

/-- Both sides hashed, and every byte of the digests looked at. -/
def constantTimeEq (digest : Bytes → Vector UInt8 32) (left right : Text) : Bool :=
  ((digest (utf8 left)).toList.zip (digest (utf8 right)).toList).foldl
    (fun acc pair => acc ||| (pair.1 ^^^ pair.2)) 0 == 0

def overLimitText : Text := "too many sign-in attempts from this address; try again in a minute\n".toList
def noProviderText : Text := "no identity provider configured".toList
def notAnEndpointText : Text := "target is not an endpoint of this cluster".toList

/-! ## A replica -/

inductive RevalidationMode where
  | always | whenNoBackchannel | never
  deriving DecidableEq, Repr

structure RevalidationConfig where
  mode : RevalidationMode
  intervalSecs : Nat
  deriving DecidableEq, Repr

/-- What a replica answers a request with, as it is at that time. -/
structure Replica (Key : Type) where
  codec : SealedCodec Key
  config : GatewayConfig
  revalidation : RevalidationConfig
  scope : HostScope
  oidc : Option OidcClient
  clientId : Text
  verifier : JwksVerifier
  catalog : Snapshot
  isRevoked : SessionId → Bool
  /-- The rate limit of the sign-in lets the request through. -/
  underLimit : Bool

/-- The functions third parties give: digests, ciphers, JSON. -/
structure Primitives (Key : Type) where
  aead : Aead Key
  json : Serde
  digest : Bytes → Vector UInt8 32
  pkceChallenge : Text → Text

namespace Replica
variable {Key : Type} (lib : Primitives Key) (replica : Replica Key)

def sealSession (nonce : Option Nonce) (payload : SealedPayload) (binding : Binding) : Option Text :=
  (lib.json.payloadToVec payload).bind fun bytes => replica.codec.sealJson lib.aead nonce bytes binding

def openSession (sealed : Text) (binding : Binding) : Option SealedPayload :=
  replica.codec.openPayload lib.aead lib.json sealed binding

def claimsOfIdToken (token : Text) (now : Timestamp) : Option Claims :=
  replica.verifier.claimsOfIdToken replica.clientId token now

/-! ### The start -/

inductive StartAnswer where
  | overLimit | noProvider | notAnEndpoint | notMinted
  | sent (login : LoginState) (sealed location : Text)
  deriving DecidableEq, Repr

namespace StartAnswer

def status : StartAnswer → Nat
  | overLimit => 429
  | noProvider => 503
  | notAnEndpoint => 400
  | notMinted => 500
  | sent .. => 302

def text : StartAnswer → Text
  | overLimit => overLimitText
  | noProvider => noProviderText
  | notAnEndpoint => notAnEndpointText
  | notMinted => "could not mint state".toList
  | sent .. => []

def setCookies : StartAnswer → List Text
  | sent _ sealed _ => [setCookieText stateCookieName sealed loginStateTtlSecs]
  | _ => []

end StartAnswer

/-- Mint the sign-in state and the URL it goes with; `verifier` and `id` are drawn at random. -/
def startLogin (oidc : OidcClient) (returnTo : Text) (verifier id : Option Text) (nonce : Option Nonce)
    (now : Timestamp) : Option (LoginState × Text × Text) := do
  let verifier ← verifier
  let id ← id
  let login := ⟨returnTo, verifier, id, now.plusSecs loginStateTtlSecs⟩
  let sealed ← replica.codec.sealLoginState lib.aead lib.json nonce login
  some (login, sealed, oidc.authorizationUrl lib.pkceChallenge id verifier)

def oidcStart (rd verifier id : Option Text) (nonce : Option Nonce) (now : Timestamp) : StartAnswer :=
  if !replica.underLimit then .overLimit
  else
    match replica.oidc with
    | none => .noProvider
    | some oidc =>
      let target := rd.getD []
      if target ≠ [] ∧ endpointTarget replica.scope target = none then .notAnEndpoint
      else
        match replica.startLogin lib oidc target verifier id nonce now with
        | none => .notMinted
        | some (login, sealed, location) => .sent login sealed location

/-! ### The callback -/

inductive CallbackAnswer where
  | overLimit | noProvider | noCode | noState | stateMismatch | exchangeFailed | unusableIdToken | notMinted
  /-- The session, and where the browser goes on to. -/
  | signedIn (sso : Minted) (location : Option Text)
  deriving DecidableEq, Repr

namespace CallbackAnswer

def status : CallbackAnswer → Nat
  | overLimit => 429
  | noProvider => 503
  | noCode | noState | stateMismatch => 400
  | exchangeFailed | unusableIdToken => 502
  | notMinted => 500
  | signedIn _ none => 200
  | signedIn _ (some _) => 302

def text : CallbackAnswer → Text
  | overLimit => overLimitText
  | noProvider => noProviderText
  | noCode => "no code".toList
  | noState => "no state cookie; start again".toList
  | stateMismatch => "state mismatch".toList
  | exchangeFailed => "sign-in failed".toList
  | unusableIdToken => "the identity provider's token is unusable".toList
  | notMinted => "could not mint a session".toList
  | signedIn _ none => "Signed in.\n".toList
  | signedIn _ (some _) => []

/-- Every answer behind the first two clears the state. -/
def setCookies (session : SessionConfig) : CallbackAnswer → List Text
  | overLimit | noProvider => []
  | signedIn sso _ =>
    [setCookieText stateCookieName [] 0, setCookieText ssoCookieName sso.sealed session.ssoTtlSecs]
  | _ => [setCookieText stateCookieName [] 0]

end CallbackAnswer

/-- The session that claims of an ID token become. -/
def sessionOf (claims : Claims) (session refresh : Option Text) (now : Timestamp) : SealedPayload where
  username := claims.username
  groups := replica.catalog.filterGroups claims.groups replica.config.session.maxGroups
  session := session
  expiresAt := now.plusSecs replica.config.session.ssoTtlSecs
  generation := replica.catalog.groupsGeneration.toNat
  grantId := none
  provedAt := now
  refresh := refresh
  sessionExpiresAt := none

def mintSso (nonce : Option Nonce) (payload : SealedPayload) : Option Minted :=
  (sealPayload (replica.sealSession lib) nonce payload .sso).map fun sealed => ⟨payload, sealed⟩

def oidcCallback (cookie code returnedState : Option Text) (nonce : Option Nonce) (now : Timestamp) :
    CallbackAnswer :=
  if !replica.underLimit then .overLimit
  else
    match replica.oidc with
    | none => .noProvider
    | some oidc =>
      match code, returnedState with
      | some code, some returnedState =>
        match cookie.bind fun sealed => replica.codec.openLoginState lib.aead lib.json sealed now with
        | none => .noState
        | some stored =>
          if !constantTimeEq lib.digest stored.state returnedState then .stateMismatch
          else
            match oidc.exchange code stored.verifier with
            | none => .exchangeFailed
            | some tokens =>
              match replica.claimsOfIdToken tokens.idToken now with
              | none => .unusableIdToken
              | some claims =>
                match replica.mintSso lib nonce
                    (replica.sessionOf claims claims.session tokens.refreshToken now) with
                | none => .notMinted
                | some sso =>
                  .signedIn sso (if stored.returnTo = [] then none
                    else some (hostSessionUrl replica.config stored.returnTo))
      | _, _ => .noCode

/-! ### Revalidation -/

def dueByMode : Bool :=
  match replica.revalidation.mode with
  | .never => false
  | .always => true
  | .whenNoBackchannel => !replica.oidc.any OidcClient.backchannelLogoutSupported

def overdue (sso : SealedPayload) (now : Timestamp) : Bool :=
  replica.dueByMode && now.isAtOrAfter (sso.provedAt.plusSecs replica.revalidation.intervalSecs)

/-- Re-prove a session that is due at the token endpoint; none when it is refused. -/
def revalidate (nonce : Option Nonce) (now : Timestamp) (sso : SealedPayload) :
    Option (SealedPayload × Option Text) :=
  if !replica.overdue sso now && sso.generation = replica.catalog.groupsGeneration.toNat then some (sso, none)
  else
    match replica.oidc, sso.refresh with
    | some oidc, some refresh => do
      let tokens ← oidc.refresh refresh
      let claims ← replica.claimsOfIdToken tokens.idToken now
      let renewed := replica.sessionOf claims (claims.session.or sso.session)
        (tokens.refreshToken.or (some refresh)) now
      let sealed ← sealPayload (replica.sealSession lib) nonce renewed .sso
      some (renewed, some sealed)
    | _, _ => some (sso, none)

/-! ### Exchanging a session for a grant -/

inductive GrantAnswer where
  | overLimit | noTarget | notAnEndpoint
  | answered (host : Host) (answer : HostSessionAnswer)
  deriving DecidableEq, Repr

/-- `/host-session`, from the parameter that names its target. -/
def exchangeSession (cookie rd id : Option Text) (ssoNonce nonce : Option Nonce) (now : Timestamp) : GrantAnswer :=
  if !replica.underLimit then .overLimit
  else
    match rd with
    | none => .noTarget
    | some target =>
      match endpointTarget replica.scope target with
      | none => .notAnEndpoint
      | some host =>
        .answered host (hostSession (replica.sealSession lib) (replica.openSession lib) replica.isRevoked
          (replica.revalidate lib ssoNonce now) replica.config host cookie id nonce now)

end Replica

end WeeboSi.Gateway
