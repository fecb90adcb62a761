import WeeboSi.PreauthProxy.Headers

/-!
# Relaying one request

Source: bins/preauth-proxy/src/domain/policy.rs, credential.rs, port.rs and exchange.rs:73-352.
The credential source and the upstream are functions of what the proxy has done so far, and the
other requests may change the cache each time this one reaches it.
-/
namespace WeeboSi.PreauthProxy
open WeeboSi.Lib

/-! ## Ports -/

structure Credential where
  expose : Text
  deriving DecidableEq, Repr

inductive AcquireError where
  | unreachable (why : Text)
  | rejected (status : Nat)
  | noHeader (name : Text)
  | nothingExtracted (name : Text)
  deriving DecidableEq, Repr

structure GatewayError where
  why : Text
  deriving DecidableEq, Repr

inductive RelayError where
  | acquire (error : AcquireError)
  | gateway (error : GatewayError)
  | malformed (why : Text)
  deriving DecidableEq, Repr

structure Request where
  method : Text
  uri : Text
  headers : HeaderMap
  body : Bytes
  deriving DecidableEq, Repr

structure Response (B : Type) where
  status : StatusCode
  headers : HeaderMap
  body : B

/-- What the proxy does outside itself; a forward comes with the credential written into it. -/
inductive Effect where
  | acquired
  | invalidated (stale : Credential)
  | forwarded (headers : HeaderMap) (held : Option Credential)
  deriving DecidableEq, Repr

structure World (B : Type) where
  acquire : List Effect → Except AcquireError Credential
  forward : List Effect → Request → Except GatewayError (Response B)
  /-- What the other requests have made of the cache before it is reached for the nth time. -/
  others : Nat → Option Credential → Option Credential

/-! ## The policy -/

structure RequestFacts where
  markerPresent : Bool

structure CacheState where
  holdsCredential : Bool

inductive Action where
  | passThrough | inject | acquireThenInject
  deriving DecidableEq, Repr

def Action.decide (facts : RequestFacts) (cache : CacheState) : Action :=
  if facts.markerPresent then .passThrough
  else if cache.holdsCredential then .inject
  else .acquireThenInject

def Action.injects : Action → Bool
  | .passThrough => false
  | .inject | .acquireThenInject => true

inductive AfterResponse where
  | relay | renewAndReplay
  deriving DecidableEq, Repr

structure Exchange where
  replaysUsed : Nat

def Exchange.onResponse (exchange : Exchange) (status : StatusCode) (renew : Renew) (injected : Bool) :
    AfterResponse × Exchange :=
  if !injected || renew.maxReplays ≤ exchange.replaysUsed || !renew.triggers status then (.relay, exchange)
  else (.renewAndReplay, ⟨exchange.replaysUsed + 1⟩)

/-- A replay is taken only for an injected request, and spends one of those left. -/
theorem Exchange.onResponse_renew (exchange next : Exchange) (status : StatusCode) (renew : Renew)
    (injected : Bool) (renewed : exchange.onResponse status renew injected = (.renewAndReplay, next)) :
    injected = true ∧ exchange.replaysUsed < renew.maxReplays ∧
      next.replaysUsed = exchange.replaysUsed + 1 := by
  rw [onResponse] at renewed
  split at renewed
  · cases renewed
  · next spare =>
    cases renewed
    simp only [Bool.or_eq_true, Bool.not_eq_true', decide_eq_true_eq, not_or, Bool.not_eq_false,
      Nat.not_le] at spare
    exact ⟨spare.1.1, spare.1.2, rfl⟩

/-! ## The cache -/

structure Run where
  held : Option Credential
  looks : Nat
  effects : List Effect
  deriving DecidableEq, Repr

def Run.emit (run : Run) (effect : Effect) : Run := { run with effects := run.effects ++ [effect] }

section Cache
variable {B : Type} (world : World B)

/-- Reach the cache, after the other requests. -/
def look (run : Run) : Run := { run with held := world.others run.looks run.held, looks := run.looks + 1 }

/-- `peek`, the acquisition lock, and `peek` again under it. -/
def getOrAcquire (run : Run) : Except AcquireError Credential × Run :=
  let run := look world run
  match run.held with
  | some held => (.ok held, run)
  | none =>
    let run := look world run
    match run.held with
    | some held => (.ok held, run)
    | none =>
      match world.acquire run.effects with
      | .error error => (.error error, run.emit .acquired)
      | .ok fresh => (.ok fresh, { run.emit .acquired with held := some fresh })

/-- Discard the credential, if it is still the one held. -/
def invalidate (stale : Credential) (run : Run) : Run :=
  let run := (look world run).emit (.invalidated stale)
  if run.held = some stale then { run with held := none } else run

end Cache

/-! ## Injection -/

def appendSeparator (header : HeaderName) : Text := if header = cookie then "; ".toList else ", ".toList

section Inject
variable (headers : HeaderMap) (config : Config) (credential : Credential)

/-- What the header will hold: the credential, after the lines that are there in append mode. -/
def combined : Except RelayError Text :=
  match config.inject.mode with
  | .set => .ok credential.expose
  | .append =>
    match (getAll headers config.inject.header).mapM toStr with
    | none =>
      .error (.malformed (config.inject.header ++
        " carries a value that is not text and cannot be appended to".toList))
    | some lines =>
      .ok ((appendSeparator config.inject.header).intercalate
        (lines.filter (fun text => !text.isEmpty) ++ [credential.expose]))

def inject : Except RelayError HeaderMap :=
  match combined headers config credential with
  | .error error => .error error
  | .ok text =>
    match fromStr text with
    | none => .error (.malformed (config.inject.header ++ " would not be a valid header value".toList))
    | some value => .ok (insert headers config.inject.header value)

end Inject

/-! ## Responses -/

def injectedCookieNames (config : Config) (credential : Credential) : Option (List Text) :=
  if config.inject.header ≠ cookie then none
  else
    (((credential.expose.splitOn ';').map trim).filter fun pair => !pair.isEmpty).mapM fun pair =>
      (splitOnce '=' pair).map fun (name, _) => trim name

/-- Whether a `Set-Cookie` is neither one of the injected cookies nor the marker. -/
def harmless (config : Config) (credential : Credential) (value : HeaderValue) : Bool :=
  match injectedCookieNames config credential with
  | none => false
  | some names =>
    match toStr value with
    | none => false
    | some text =>
      let pair := trim (((text.splitOn ';').head?).getD text)
      let name := trim (((splitOnce '=' pair).map Prod.fst).getD pair)
      !names.contains name &&
        !(config.passthrough.header == cookie && Decidable.decide (config.passthrough.contains <:+: pair))

def stripServiceCookies (headers : HeaderMap) (config : Config) (credential : Credential) : HeaderMap :=
  removeAll headers [setCookie] ++
    ((getAll headers setCookie).filter (harmless config credential)).map fun value => (setCookie, value)

structure Relayed (B : Type) where
  response : Response B
  renewals : Nat
  renewedOn : Option StatusCode

/-! ## The loop -/

section Relay
variable {B : Type} (world : World B) (config : Config)

/-- What the caller gets of a response. -/
def answer (held : Option Credential) (response : Response B) : Response B :=
  let headers := stripHopByHop response.headers
  { response with headers := held.elim headers (stripServiceCookies headers config) }

/-- The loop of `relay`, over the headers left after stripping. -/
def attempts (request : Request) (headers : HeaderMap) (injected : Bool) (held : Option Credential)
    (exchange : Exchange) (renewedOn : Option StatusCode) (run : Run) : Except RelayError (Relayed B) × Run :=
  match held.elim (.ok headers) (inject headers config) with
  | .error error => (.error error, run)
  | .ok outgoing =>
    let sent := run.emit (.forwarded outgoing held)
    match world.forward run.effects { request with headers := outgoing } with
    | .error error => (.error (.gateway error), sent)
    | .ok response =>
      match _decided : exchange.onResponse response.status config.renew injected with
      | (.relay, exchange) => (.ok ⟨answer config held response, exchange.replaysUsed, renewedOn⟩, sent)
      | (.renewAndReplay, exchange) =>
        match getOrAcquire world (held.elim sent fun stale => invalidate world stale sent) with
        | (.error error, run) => (.error (.acquire error), run)
        | (.ok fresh, run) => attempts request headers injected (some fresh) exchange (some response.status) run
termination_by config.renew.maxReplays - exchange.replaysUsed
decreasing_by
  have spent := Exchange.onResponse_renew _ _ _ _ _ _decided
  omega

/-- The request with the cache as it stands. -/
def relay (request : Request) (cached : Option Credential) : Except RelayError (Relayed B) × Run :=
  let headers := stripHopByHop request.headers
  let run := look world ⟨cached, 0, []⟩
  let action := Action.decide ⟨markerPresent headers config⟩ ⟨run.held.isSome⟩
  if action.injects then
    match getOrAcquire world run with
    | (.error error, run) => (.error (.acquire error), run)
    | (.ok fresh, run) => attempts world config request headers true (some fresh) ⟨0⟩ none run
  else attempts world config request headers false none ⟨0⟩ none run

end Relay

end WeeboSi.PreauthProxy
