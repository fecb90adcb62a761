import WeeboSi.Gateway.Forward
import WeeboSi.Gateway.Journey
import WeeboSi.Gateway.LimitKey

/-!
# The two shells of the gate

Source: bins/endpoint-gateway/src/http.rs:113-445, 453-560, proxy.rs:52-213, 278-294, state.rs:296-336,
374-382, adapters/session.rs:251-262 and endpoint-auth bearer.rs:88-140. `/auth` answers an ingress
controller, which states the request it asks about; `serve` carries the request itself. `prewarm` is
what a bearer may cost before the decision, whatever that does to the caches. A request is handled at
one time.
-/
namespace WeeboSi.EndpointAuth
open WeeboSi.Lib

def BearerResult.label : BearerResult → Text
  | .accepted => "accepted".toList
  | .acceptedAuthorizedParty => "accepted_authorized_party".toList
  | .wrongAudience => "wrong_audience".toList
  | .idToken => "id_token".toList
  | .expired => "expired".toList
  | .revoked => "revoked".toList
  | .inactive => "inactive".toList
  | .unverifiable => "unverifiable".toList
  | .foreign => "foreign".toList

def BearerResult.advice : BearerResult → Text
  | .accepted | .acceptedAuthorizedParty => "accepted".toList
  | .wrongAudience => ("the token names no audience this gateway accepts: add an audience mapper to the client " ++
      "that minted it, or list that client in bearer.authorized_parties").toList
  | .idToken => ("that is the ID token, not the access token — present the access token from the same " ++
      "exchange").toList
  | .expired => ("the token is outside its own validity window; fetch one per use rather than one per run — a " ++
      "realm access token is short, five minutes by default").toList
  | .revoked => ("the session this token was minted from has been signed out; sign in again and fetch a new " ++
      "one").toList
  | .inactive => "the issuer says this token is not active".toList
  | .unverifiable => ("nothing here can verify this token: no published key matches it, and introspection is " ++
      "off").toList
  | .foreign => ("another issuer minted this token; only a rule with `bearer: Passthrough` reaches the " ++
      "application with it").toList

/-- The person the decision was made about, if it was made about one. -/
def Authorized.person (authorized : Authorized) : Option Claims :=
  match authorized.credential with
  | .session claims | .bearer claims => some claims
  | _ => none

end WeeboSi.EndpointAuth

namespace WeeboSi.Gateway.Shell
open WeeboSi.Lib WeeboSi.EndpointAuth WeeboSi.Gateway

/-! ## Headers -/

def headerStr (headers : HeaderMap) (name : Text) : Option Text :=
  ((headers.getAll name).head?.bind HeaderValue.toStr).map fun bytes => bytes.map Lib.byteChar

def containsKey (headers : HeaderMap) (name : Text) : Bool := headers.getAll name ≠ []

/-- A value that is none leaves the header as it is. -/
def insertText (headers : HeaderMap) (name value : Text) : HeaderMap :=
  match HeaderValue.fromStr (utf8 value) with
  | some value => headers.insert name value
  | none => headers

def hostHeader : Text := "host".toList
def authorizationHeader : Text := "authorization".toList
def acceptHeader : Text := "accept".toList
def fetchDestHeader : Text := "sec-fetch-dest".toList
def fetchModeHeader : Text := "sec-fetch-mode".toList
def requestMethodHeader : Text := "access-control-request-method".toList
def originHeader : Text := "origin".toList
def forwardedHostHeader : Text := "x-forwarded-host".toList
def forwardedUriHeader : Text := "x-forwarded-uri".toList
def forwardedMethodHeader : Text := "x-forwarded-method".toList
def forwardedProtoHeader : Text := "x-forwarded-proto".toList
def userHeader : Text := "x-auth-request-user".toList
def groupsHeader : Text := "x-auth-request-groups".toList
def emailHeader : Text := "x-auth-request-email".toList
def contentTypeHeader : Text := "content-type".toList

def hopByHop : List Text :=
  ["keep-alive".toList, "proxy-authenticate".toList, "proxy-authorization".toList, "te".toList, "trailer".toList,
    "transfer-encoding".toList]

def identityNames : List Text := [userHeader, groupsHeader, emailHeader]

/-! ## The stated request -/

structure Forwarded where
  host : Text
  uri : Text
  method : Text
  proto : Text
  deriving DecidableEq, Repr

inductive ForwardedError where
  | missing | mixed | unusable
  deriving DecidableEq, Repr

def ForwardedError.text : ForwardedError → Text
  | .mixed => ("the request arrived with both forwarded headers and query parameters; a dialect declares one " ++
      "transport and this gateway will not merge two").toList
  | .missing => "no forwarded host: /auth is called by an ingress controller, not directly".toList
  | .unusable => ("a forwarded input is missing or unreadable; the gate will not decide on a " ++
      "default").toList

def hostInput : Text := "host".toList
def uriInput : Text := "uri".toList
def methodInput : Text := "method".toList
def protoInput : Text := "proto".toList

def queryInputs : List Text := [hostInput, uriInput, methodInput, protoInput]

def repeatsAnInput (pairs : List (Text × Text)) : Bool :=
  queryInputs.any fun name => 1 < (pairs.filter fun pair => pair.1 == name).length

/-- The four inputs, each by its reader; one that is not there is never defaulted. -/
def required (host uri method proto : Option Text) : Except ForwardedError Forwarded :=
  match host, uri, method, proto with
  | some host, some uri, some method, some proto => .ok ⟨host, uri, method, proto⟩
  | _, _, _, _ => .error .unusable

/-- From headers or from the query, never from both. Of two parameters of a name the last stands. -/
def forwarded (headers : HeaderMap) (pairs : List (Text × Text)) : Except ForwardedError Forwarded :=
  let query := pairs.reverse
  match containsKey headers forwardedHostHeader, (query.lookup hostInput).isSome with
  | true, true => .error .mixed
  | true, false => required (headerStr headers forwardedHostHeader) (headerStr headers forwardedUriHeader)
      (headerStr headers forwardedMethodHeader) (headerStr headers forwardedProtoHeader)
  | false, true => required (query.lookup hostInput) (query.lookup uriInput) (query.lookup methodInput)
      (query.lookup protoInput)
  | false, false => .error .missing

def shapeOf (headers : HeaderMap) : RequestShape :=
  let dest := headerStr headers fetchDestHeader
  if dest = some "iframe".toList ∨ dest = some "frame".toList then .framed
  else if headerStr headers fetchModeHeader = some "navigate".toList ∨
      ∃ accept ∈ headerStr headers acceptHeader, "text/html".toList <:+: accept then .navigation
  else .other

def isPreflight (headers : HeaderMap) (method : Method) : Bool :=
  method == .options && containsKey headers requestMethodHeader && containsKey headers originHeader

def bearer (headers : HeaderMap) : Option Text :=
  (headerStr headers authorizationHeader).bind fun value =>
    (splitOnce ' ' value).bind fun parts =>
      if parts.1.map Char.toLower = "bearer".toList then some parts.2 else none

/-- Something the codec could have sealed: a version, a nonce and a ciphertext. -/
def looksSealed (value : Text) : Bool :=
  match splitOnce '.' value with
  | none => false
  | some (version, rest) =>
    match splitOnce '.' rest with
    | none => false
    | some (nonce, sealed) => version == "v1".toList && (base64Decode nonce).any (fun bytes => bytes.length == 12) &&
        22 ≤ byteLen sealed && (base64Decode sealed).isSome

/-- A grant of this gateway in the URL; a parameter that is the application's own is left to it. -/
def grantOf (uri : Text) : Option Text := ((queryOf uri).lookup grantParam).filter looksSealed

/-! ## A replica -/

structure Settings where
  config : GatewayConfig
  preflight : Bool
  revealOwner : Bool
  enforcement : Enforcement
  trusted : Trusted
  clientIpHeader : Text
  addressesTrusted : Bool
  verifier : JwksVerifier

/-- What a request may change: the caches, and the key set they were last used with. -/
structure Live (K : Type) where
  ports : Ports
  caches : Caches K
  redeemed : IdentityCache K Unit
  generation : Nat
  keysGeneration : Nat

def Live.dropIdentitiesOnKeyRotation {K : Type} (live : Live K) : Live K :=
  let dropped := if live.keysGeneration ≠ live.generation ∧ live.keysGeneration ≠ 0 then
    { live with caches.bearers := live.caches.bearers.clear } else live
  { dropped with keysGeneration := live.generation }

def Live.ownerOf {K : Type} (live : Live K) (host : Host) : Option Text :=
  match live.ports.policyFor host with
  | .policy policy => some policy.owner
  | _ => none

structure Page where
  status : Nat
  headers : List (Text × Text)
  body : Text
  deriving DecidableEq, Repr

inductive Answer where
  | page (page : Page)
  | redeemed (outcome : Except RedeemRefusal Redeemed)
  | allowed (identity : HeaderMap) (cookie : Option HeaderValue)
  /-- What the backend is sent. -/
  | carried (uri : Uri) (method : Text) (headers : HeaderMap)

def plainText : List (Text × Text) := [(contentTypeHeader, "text/plain; charset=utf-8".toList)]

def setIdentityHeaders (headers : HeaderMap) (claims : Claims) : HeaderMap :=
  insertText (insertText headers userHeader claims.username) groupsHeader ([','].intercalate claims.groups)

/-! ## What both shells do -/

section Shells
variable {N K : Type} [DecidableEq K] (sealJson : N → SealedPayload → Binding → Option Text)
  (openJson : Text → Binding → Option SealedPayload) (digest : List UInt8 → K) (display : IpAddr → Text)
  (prewarm : Option Text → Text → Live K → Bool × Live K) (parseUri : Text → Option Uri) (settings : Settings)

def trustsClientAddress (peer : Option IpAddr) : Bool :=
  settings.addressesTrusted && peerMayStateAddress settings.trusted peer

def presentedFrom (headers : HeaderMap) (peer : Option IpAddr) : Presented where
  cookie := (cookie headers (utf8 hostCookieName)).map fun bytes => bytes.map Lib.byteChar
  bearer := bearer headers
  clientAddress :=
    if trustsClientAddress settings peer then statedAddress headers settings.clientIpHeader else none

def authRequest (host : Host) (rawPath : Text) (method : Method) (proto : Text) (headers : HeaderMap) :
    AuthRequest where
  host := host
  rawPath := rawPath
  method := method
  scheme := if proto.map Char.toLower = "https".toList then .https else .http
  shape := shapeOf headers
  preflight := settings.preflight && isPreflight headers method

/-- The decision, behind what a bearer costs. One that a limit refused counts as not sent. -/
def judge (live : Live K) (request : AuthRequest) (headers : HeaderMap) (peer : Option IpAddr) (now : Timestamp) :
    Authorized × Presented × Live K :=
  let presented := presentedFrom settings headers peer
  let (usable, live) := prewarm presented.bearer
    (limitKey display settings.trusted settings.clientIpHeader headers peer) live
  let presented := if usable then presented else { presented with bearer := none }
  let live := live.dropIdentitiesOnKeyRotation
  let (authorized, caches) :=
    authorizeResolved digest live.ports settings.enforcement live.caches request presented now
  (authorized, presented, { live with caches := caches })

def denyResponse (live : Live K) (request : AuthRequest) (reason : Reason) : Page :=
  if reason = .insecureScheme then
    ⟨421, plainText, ("This endpoint is served over plain HTTP. The platform's session cookie requires TLS, so it " ++
      "cannot hold a session here. Serve the endpoint over https.").toList⟩
  else
    match (live.ownerOf request.host).filter fun _ => settings.revealOwner with
    | some owner => ⟨403, plainText, "You are not permitted to reach this endpoint. It belongs to ".toList ++ owner ++
        "; ask them to share it with you.\n".toList⟩
    | none => ⟨403, plainText, "You are not permitted to reach this endpoint.\n".toList⟩

def signInUrl (request : AuthRequest) : Text :=
  hostSessionUrl settings.config (askedUrl request.host request.rawPath)

def quoted (text : Text) : Text := text.map fun c => if c = '"' then '\'' else c

def challengeResponse (live : Live K) (request : AuthRequest) (challenge : Challenge) (presented : Presented)
    (now : Timestamp) : Page :=
  match challenge with
  | .redirect => ⟨302, [("location".toList, signInUrl settings request)], []⟩
  | .framedPage => ⟨200, [(contentTypeHeader, "text/html; charset=utf-8".toList)],
      ("<!doctype html><html lang=\"en\"><body style=\"font-family:system-ui;padding:2rem\">" ++
        "<h1>Sign in to see this endpoint</h1><p>This preview is shown inside the IDE, and the sign-in page " ++
        "cannot be framed.</p><p><a href=\"").toList ++ signInUrl settings request ++
      ("\" target=\"_blank\" rel=\"noopener\">Open it in a new tab</a>, then reload this panel.</p></body>" ++
        "</html>").toList⟩
  | .unauthorized =>
    let base := settings.config.redirectBase
    match presented.bearer.map fun token =>
        (settings.verifier.examine live.ports.isRevoked token now).result with
    | none => ⟨401, ("www-authenticate".toList,
          "Bearer realm=\"weebo\", authorization_uri=\"".toList ++ base ++ ['"']) :: plainText,
        ("Not signed in. Open this URL in a browser to sign in, or present a bearer token this cluster's " ++
          "identity provider minted for this gateway's audience.\n").toList⟩
    | some refused => ⟨401, ("www-authenticate".toList,
          "Bearer realm=\"weebo\", error=\"invalid_token\", error_description=\"".toList ++ quoted refused.advice ++
            "\", authorization_uri=\"".toList ++ base ++ ['"']) :: plainText,
        "The token you presented was refused: ".toList ++ refused.label ++ ".\n".toList ++ refused.advice ++ ['\n']⟩

/-! ## `/auth` -/

/-- What reaches `/auth`. -/
structure Call where
  headers : HeaderMap
  query : Option Text

def authStated (live : Live K) (inputs : Forwarded) (headers : HeaderMap) (nonce : N) (now : Timestamp) :
    Answer × Live K :=
  match Host.parse inputs.host with
  | .error _ => (.page ⟨403, [], "unusable host".toList⟩, live)
  | .ok host =>
    let request := authRequest settings host inputs.uri (Method.parse inputs.method) inputs.proto headers
    match grantOf inputs.uri with
    | some grant =>
      let (outcome, redeemed) :=
        redeem sealJson openJson digest settings.config live.redeemed host grant inputs.uri nonce now
      (.redeemed outcome, { live with redeemed := redeemed })
    | none =>
      let (authorized, presented, live) := judge digest display prewarm settings live request headers none now
      match authorized.outcome.answered with
      | .allow =>
        let identity : HeaderMap := ⟨[]⟩
        let slid := slide sealJson openJson settings.config.session host presented.cookie nonce now
        (.allowed ((authorized.person.map (setIdentityHeaders identity)).getD identity)
          (slid.bind fun slid => HeaderValue.fromStr (utf8 slid.2)), live)
      | .deny => (.page (denyResponse settings live request authorized.outcome.decision.reason), live)
      | .challenge challenge => (.page (challengeResponse settings live request challenge presented now), live)

def auth (live : Live K) (call : Call) (nonce : N) (now : Timestamp) : Answer × Live K :=
  let pairs := FormText.readForm (utf8 (call.query.getD []))
  if repeatsAnInput pairs then
    (.page ⟨400, [], "a forwarded input was stated more than once".toList⟩, live)
  else
    match forwarded call.headers pairs with
    | .error refused => (.page ⟨400, [], refused.text⟩, live)
    | .ok inputs => authStated sealJson openJson digest display prewarm settings live inputs call.headers nonce now

/-! ## The proxy -/

/-- A request to carry: its target is none in the asterisk form, and has a host in the absolute form. -/
structure Request where
  method : Text
  uriHost : Option Text
  target : Option PathAndQuery
  headers : HeaderMap

def hostOf (request : Request) : Option Host :=
  ((headerStr request.headers hostHeader).or request.uriHost).bind fun raw => (Host.parse raw).toOption

/-- The caller's own claims about itself do not reach the application. -/
def carriedHeaders (headers : HeaderMap) (person : Option Claims) : HeaderMap :=
  let cleared := identityNames.foldl HeaderMap.remove (hopByHop.foldl HeaderMap.remove headers)
  stripCookie ((person.map (setIdentityHeaders cleared)).getD cleared) (utf8 hostCookieName)

def forward (request : Request) (upstream : Text) (person : Option Claims) : Answer :=
  match parseUri (forwardText upstream request.target) with
  | none => .page ⟨502, [], "unusable backend address\n".toList⟩
  | some uri => .carried uri request.method (carriedHeaders request.headers person)

def serve (live : Live K) (peer : Option IpAddr) (request : Request) (now : Timestamp) : Answer × Live K :=
  match hostOf request with
  | none => (.page ⟨400, [], "no host\n".toList⟩, live)
  | some host =>
    let proto := (headerStr request.headers forwardedProtoHeader).getD "https".toList
    let asked := authRequest settings host ((request.target.map PathAndQuery.text).getD ['/'])
      (Method.parse request.method) proto request.headers
    let (authorized, presented, live) := judge digest display prewarm settings live asked request.headers peer now
    match authorized.outcome.answered with
    | .deny => (.page (denyResponse settings live asked authorized.outcome.decision.reason), live)
    | .challenge challenge => (.page (challengeResponse settings live asked challenge presented now), live)
    | .allow =>
      match live.ports.policyFor host with
      | .policy policy =>
        match policy.upstream with
        | some upstream => (forward parseUri request (upstream.url policy.namespaceName) authorized.person, live)
        | none => (.page ⟨502, [],
            "this endpoint was never repointed at the gateway; its backend is unknown\n".toList⟩, live)
      | _ => (.page ⟨502, [], "this endpoint has no recorded backend\n".toList⟩, live)

end Shells

end WeeboSi.Gateway.Shell
