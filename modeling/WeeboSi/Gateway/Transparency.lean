import WeeboSi.EndpointAuth.Application
import WeeboSi.Gateway.Session
import WeeboSi.Gateway.TokenReview
import WeeboSi.Gateway.Verifier
import WeeboSi.Lib.Run

/-!
# What the identity caches change

Source: crates/weebo-si-endpoint-auth/src/application.rs:162-310 with the verifier of
bins/endpoint-gateway/src/adapters/oidc.rs:771-792 and the codec of adapters/session.rs
behind the ports. `provenCredential` is the request path without caches; a run with
caches is compared with it request by request. The keys of the verifier and of the codec
stay as they are over a run; everything else may change from one request to the next.
-/
namespace WeeboSi.EndpointAuth
open WeeboSi.Lib

/-! ## The request path without caches -/

section Proven
variable (ports : Ports)

def provenWorkload (token : Text) (now : Timestamp) : Credential :=
  match ports.namespaceOfServiceAccount token now with
  | some identity => .serviceAccount identity.namespaceName
  | none => .foreignBearer

def provenBearer (token : Text) (now : Timestamp) : Credential :=
  match ports.verify token now with
  | .ours claims _ =>
    if sessionRevoked ports claims then .revokedSession else .bearer (teamOf ports claims)
  | .foreign | .invalid => provenWorkload ports token now

def provenSession (host : Host) (cookie : Text) (now : Timestamp) : Credential :=
  match ports.openHostSession host cookie now with
  | some opened =>
    if sessionRevoked ports opened.claims then .revokedSession
    else .session (teamOf ports opened.claims)
  | none => .none

def provenCredential (request : AuthRequest) (presented : Presented) (now : Timestamp) : Credential :=
  match presented.token with
  | some token => provenBearer ports token now
  | none =>
    match presented.sealedCookie with
    | some cookie => provenSession ports request.host cookie now
    | none =>
      match presented.clientAddress.bind ports.namespaceOfAddress with
      | some name => .podOrigin name
      | none => .none

variable {K : Type} [DecidableEq K] (digest : List UInt8 → K) (caches : Caches K)

theorem asPerson_credential (token : Text) (claims : Claims) :
    (asPerson digest ports caches token claims).1 =
      if sessionRevoked ports claims then .revokedSession else .bearer (teamOf ports claims) := by
  unfold asPerson
  split
  · rfl
  · rfl

theorem asSession_credential (key : K) (claims : Claims) :
    (asSession ports caches key claims).1 =
      if sessionRevoked ports claims then .revokedSession else .session (teamOf ports claims) := by
  unfold asSession
  split
  · rfl
  · rfl

theorem resolveServiceAccount_credential (token : Text) (now : Timestamp) :
    (resolveServiceAccount digest ports caches token now).1 = provenWorkload ports token now := by
  unfold resolveServiceAccount provenWorkload
  cases ports.namespaceOfServiceAccount token now with
  | some identity => rfl
  | none => rfl

theorem provenBearer_of_notOurs (token : Text) (now : Timestamp)
    (notOurs : (ports.verify token now).isOurs = false) :
    provenBearer ports token now = provenWorkload ports token now := by
  unfold provenBearer
  cases verified : ports.verify token now with
  | ours claims expiresAt => simp [verified, TokenOutcome.isOurs] at notOurs
  | foreign => rfl
  | invalid => rfl

theorem resolveBearer_missed (token : Text) (now : Timestamp) (missed : Missed digest caches token now) :
    (resolveBearer digest ports caches token now).1 = provenBearer ports token now := by
  rcases resolveBearer_cases digest ports caches token now with
    ⟨claims, hit, -⟩ | ⟨name, -, hit, -⟩ | ⟨claims, expiresAt, -, verified, result⟩ |
      ⟨-, notOurs, result⟩
  · exact absurd (missed.1.symm.trans hit) (by simp)
  · exact absurd (missed.2.symm.trans hit) (by simp)
  · rw [result, asPerson_credential, provenBearer, verified]
  · rw [result, resolveServiceAccount_credential, provenBearer_of_notOurs ports token now notOurs]

/-- A token answers alike from either cache and from the ports, as long as the ports still
say what the caches hold. -/
theorem resolveBearer_credential (token : Text) (now : Timestamp)
    (bearer : ∀ claims, (caches.bearers.get (fingerprint digest token) now).1 = some claims →
      ∃ expiresAt, ports.verify token now = .ours claims expiresAt)
    (workload : ∀ name, (caches.bearers.get (fingerprint digest token) now).1 = none →
      (caches.serviceAccounts.get (fingerprint digest token) now).1 = some name →
      provenBearer ports token now = .serviceAccount name) :
    (resolveBearer digest ports caches token now).1 = provenBearer ports token now := by
  rcases resolveBearer_cases digest ports caches token now with
    ⟨claims, hit, result⟩ | ⟨name, noBearer, hit, result⟩ | ⟨_, _, missed, -, -⟩ | ⟨missed, -, -⟩
  · obtain ⟨expiresAt, verified⟩ := bearer claims hit
    rw [result, asPerson_credential, provenBearer, verified]
  · rw [result, workload name noBearer hit]
  · exact resolveBearer_missed ports digest caches token now missed
  · exact resolveBearer_missed ports digest caches token now missed

/-- An opened cookie answers alike from the cache and from the codec, as long as the codec
still opens it to the claims the cache holds. -/
theorem resolveSession_credential (request : AuthRequest) (cookie : Text) (now : Timestamp)
    (faithful : ∀ claims,
      (caches.sessions.get (scopedFingerprint digest request.host.text cookie) now).1 = some claims →
      ∃ expiresAt, ports.openHostSession request.host cookie now = some ⟨claims, expiresAt⟩) :
    (resolveSession digest ports caches request cookie now).1 =
      provenSession ports request.host cookie now := by
  unfold resolveSession provenSession
  dsimp only
  cases hit : (caches.sessions.get (scopedFingerprint digest request.host.text cookie) now).1 with
  | some claims =>
    obtain ⟨expiresAt, opens⟩ := faithful claims hit
    simp only [opens, asSession_credential]
  | none =>
    cases ports.openHostSession request.host cookie now with
    | some opened => simp only [asSession_credential]
    | none => rfl

/-! ## Caches that never hold anything -/

namespace Caches

/-- Caches whose entries have no lifetime. -/
def unused : Caches K := ⟨.new 0 0, .new 0 0, .new 0 0⟩

end Caches

variable (request : AuthRequest) (presented : Presented) (now : Timestamp) (enforcement : Enforcement)

theorem resolve_credential
    (bearer : ∀ token, presented.token = some token →
      (resolveBearer digest ports caches token now).1 = provenBearer ports token now)
    (session : ∀ cookie, (resolveSession digest ports caches request cookie now).1 =
      provenSession ports request.host cookie now) :
    (resolve digest ports caches request presented now).1 =
      provenCredential ports request presented now := by
  unfold resolve provenCredential
  cases presentedToken : presented.token with
  | some token => exact bearer token presentedToken
  | none =>
    cases presented.sealedCookie with
    | some cookie => exact session cookie
    | none =>
      dsimp only
      cases presented.clientAddress.bind ports.namespaceOfAddress with
      | some name => rfl
      | none => rfl

/-- A gateway whose caches are empty resolves what the ports prove. -/
theorem resolve_unused :
    (resolve digest ports (.unused : Caches K) request presented now).1 =
      provenCredential ports request presented now := by
  refine resolve_credential ports digest .unused request presented now ?_ ?_
  · exact fun token _ => resolveBearer_missed ports digest .unused token now ⟨rfl, rfl⟩
  · intro cookie
    refine resolveSession_credential ports digest .unused request cookie now ?_
    intro claims hit
    cases hit

/-- A decision depends on the caches only through the credential, and only when it is read. -/
theorem authorize_decision_congr (other : Caches K)
    (same : readsCredential request ports.scope (ports.policyFor request.host) = true →
      (resolve digest ports caches request presented now).1 =
        (resolve digest ports other request presented now).1) :
    (authorize digest ports enforcement caches request presented now).1.decision =
      (authorize digest ports enforcement other request presented now).1.decision := by
  unfold authorize authorizeResolved
  dsimp only
  cases read : readsCredential request ports.scope (ports.policyFor request.host) with
  | false => exact decide_unread _ _ _ _ _ read
  | true =>
    split
    · rw [same read]
    · rfl

end Proven

end WeeboSi.EndpointAuth

namespace WeeboSi.Gateway
open WeeboSi.Lib WeeboSi.EndpointAuth

/-! ## Runs -/

/-- A request, and what surrounds it while it is decided. -/
structure Moment where
  policyFor : Host → CatalogLookup
  scope : HostScope
  namespaceOfAddress : Text → Option NamespaceName
  namespaceOfServiceAccount : Text → Timestamp → Option ServiceAccountIdentity
  isRevoked : SessionId → Bool
  teamOf : Username → Option TeamName
  request : AuthRequest
  presented : Presented
  now : Timestamp

section Run
variable {K : Type} [DecidableEq K] (digest : List UInt8 → K) (verifier : JwksVerifier)
  (openJson : Text → Binding → Option SealedPayload) (enforcement : Enforcement)

def Moment.ports (moment : Moment) : Ports where
  policyFor := moment.policyFor
  scope := moment.scope
  openHostSession := openHostSession openJson
  verify := verifier.verify moment.isRevoked
  namespaceOfAddress := moment.namespaceOfAddress
  namespaceOfServiceAccount := moment.namespaceOfServiceAccount
  isRevoked := moment.isRevoked
  teamOf := moment.teamOf

def serve (caches : Caches K) (moment : Moment) : Outcome × Caches K :=
  authorize digest (moment.ports verifier openJson) enforcement caches moment.request moment.presented
    moment.now

def serveStep (caches : Caches K) (moment : Moment) : Caches K :=
  (serve digest verifier openJson enforcement caches moment).2

/-- The decision is the one of a gateway whose caches are empty. -/
def Transparent (caches : Caches K) (moment : Moment) : Prop :=
  (serve digest verifier openJson enforcement caches moment).1.decision =
    (serve digest verifier openJson enforcement .unused moment).1.decision

/-- Time does not go back, and no revocation is taken back. -/
def Forward (moments : List Moment) : Prop :=
  moments.Pairwise fun earlier later => earlier.now.secs ≤ later.now.secs ∧
    ∀ session, earlier.isRevoked session = true → later.isRevoked session = true

/-- The decision reads what the token says. -/
def Moment.Reads (moment : Moment) (token : Text) : Prop :=
  readsCredential moment.request moment.scope (moment.policyFor moment.request.host) = true ∧
    moment.presented.token = some token

/-- At this moment the verifier does not take the token for one of ours and the workload port
answers for it. -/
def Moment.Vouches (moment : Moment) (token : Text) (identity : ServiceAccountIdentity) : Prop :=
  (verifier.verify moment.isRevoked token moment.now).isOurs = false ∧
    moment.namespaceOfServiceAccount token moment.now = some identity

/-- Up to the expiry it gave with it, an answer is given again to whoever asks. -/
def KeepsWord (earlier later : Moment) : Prop :=
  ∀ token identity, earlier.presented.token = some token → earlier.Vouches verifier token identity →
    later.Reads token → later.now.secs < identity.expiresAt.secs →
    ∃ again, later.Vouches verifier token again ∧ again.namespaceName = identity.namespaceName

/-- Whenever a token is read, a bearer identity cached for it is not of a revoked session. -/
def NotOvertaken (caches : Caches K) (moment : Moment) : Prop :=
  ∀ token claims, moment.Reads token →
    (caches.bearers.get (fingerprint digest token) moment.now).1 = some claims →
    claims.session.any moment.isRevoked = false

/-! ## What the caches hold -/

/-- A bearer entry is the identity some token proves, within the token's own lifetime and,
for every request to come, after its `nbf`. -/
def BearerProven (moments : List Moment) (key : K) (entry : Entry Claims) : Prop :=
  ∃ token value expiresAt, fingerprint digest token = key ∧
    verifier.Proves token value entry.value expiresAt ∧ entry.expiresAt.secs ≤ expiresAt.secs ∧
    ∀ moment ∈ moments, ((JwksVerifier.presentedFrom value).notBefore.any
      fun nbf => !moment.now.isAtOrAfter nbf) = false

/-- A session entry is what some cookie opens to on some host. -/
def SessionProven (key : K) (entry : Entry Claims) : Prop :=
  ∃ (host : Host) (cookie : Text) (payload : SealedPayload),
    scopedFingerprint digest host.text cookie = key ∧
      openJson cookie (.hostBound host.text) = some payload ∧ payload.grantId = none ∧
      entry.value = payload.claims ∧ entry.expiresAt.secs ≤ payload.expiresAt.secs

/-- A service-account entry is what the ports say of some token to every request to come. -/
def WorkloadProven (moments : List Moment) (key : K) (entry : Entry NamespaceName) : Prop :=
  ∃ token, fingerprint digest token = key ∧
    ∀ moment ∈ moments, moment.Reads token → moment.now.secs < entry.expiresAt.secs →
      ∃ identity, moment.Vouches verifier token identity ∧ identity.namespaceName = entry.value

structure Proven (caches : Caches K) (moments : List Moment) : Prop where
  forward : moments.Pairwise fun earlier later => earlier.now.secs ≤ later.now.secs
  word : moments.Pairwise (KeepsWord verifier)
  bearers : caches.bearers.All (BearerProven digest verifier moments)
  sessions : caches.sessions.All (SessionProven digest openJson)
  workloads : caches.serviceAccounts.All (WorkloadProven digest verifier moments)

theorem serveStep_proven (caches : Caches K) (moment : Moment) (rest : List Moment)
    (proven : Proven digest verifier openJson caches (moment :: rest)) :
    Proven digest verifier openJson (serveStep digest verifier openJson enforcement caches moment) rest := by
  obtain ⟨ahead, forward⟩ := List.pairwise_cons.mp proven.forward
  obtain ⟨kept, word⟩ := List.pairwise_cons.mp proven.word
  refine ⟨forward, word, ?_, ?_, ?_⟩
  · refine authorize_bearers digest (moment.ports verifier openJson) _ _ _ enforcement caches _ ?_ ?_
    · intro key entry stored
      obtain ⟨token, value, expiresAt, shared, proves, within, begun⟩ := proven.bearers key entry stored
      exact ⟨token, value, expiresAt, shared, proves, within,
        fun later member => begun later (List.mem_cons_of_mem _ member)⟩
    · intro token claims expiresAt verified entry same within
      obtain ⟨value, proves, window, -⟩ := (verifier.verify_eq_ours _ _ _ _ _).mp verified
      refine ⟨token, value, expiresAt, rfl, same ▸ proves, within, ?_⟩
      intro later member
      have order := ahead later member
      have begun := window.2
      cases nbf : (JwksVerifier.presentedFrom value).notBefore with
      | none => rfl
      | some start =>
        rw [nbf] at begun
        simp only [Option.any_some, Bool.not_eq_false', Timestamp.isAtOrAfter_eq_true] at begun ⊢
        exact Nat.le_trans begun order
  · refine authorize_sessions digest (moment.ports verifier openJson) _ _ _ enforcement caches _
      proven.sessions ?_
    intro cookie opened opens entry same within
    obtain ⟨payload, sealed, notGrant, -, rfl⟩ := (openHostSession_eq_some _ _ _ _ _).mp opens
    exact ⟨moment.request.host, cookie, payload, rfl, sealed, notGrant, same, within⟩
  · refine authorize_serviceAccounts digest (moment.ports verifier openJson) _ _ _ enforcement caches _ ?_ ?_
    · intro key entry stored
      obtain ⟨token, shared, said⟩ := proven.workloads key entry stored
      exact ⟨token, shared, fun later member => said later (List.mem_cons_of_mem _ member)⟩
    · intro token identity asked answer entry same _ within
      obtain ⟨presentedToken, notOurs⟩ := consulted_eq_some digest _ _ _ _ _ _ asked
      refine ⟨token, rfl, ?_⟩
      intro later member reads live
      obtain ⟨again, vouches, named⟩ := kept later member token identity presentedToken ⟨notOurs, answer⟩ reads
        (Nat.lt_of_lt_of_le live within)
      exact ⟨again, vouches, named.trans same.symm⟩

/-- What a live bearer entry holds, the verifier would answer now, unless the session was
revoked since. -/
theorem verify_of_cached (collisionFree : Function.Injective digest) (caches : Caches K) (moment : Moment)
    (rest : List Moment) (proven : Proven digest verifier openJson caches (moment :: rest)) (token : Text)
    (claims : Claims)
    (hit : (caches.bearers.get (fingerprint digest token) moment.now).1 = some claims)
    (live : claims.session.any moment.isRevoked = false) :
    ∃ expiresAt, verifier.verify moment.isRevoked token moment.now = .ours claims expiresAt := by
  obtain ⟨entry, stored, alive, rfl⟩ := (IdentityCache.get_eq_some _ _ _ _).mp hit
  obtain ⟨other, value, expiresAt, shared, proves, within, begun⟩ := proven.bearers _ entry stored
  obtain rfl := fingerprint_injective digest collisionFree shared
  refine ⟨expiresAt, (verifier.verify_eq_ours _ _ _ _ _).mpr ⟨value, proves, ⟨?_, ?_⟩, live⟩⟩
  · rw [(verifier.claimsFrom_agrees value _ _ proves.identity).2]
    simp only [Option.any_some, Bool.not_eq_true', Timestamp.isAtOrAfter_eq_false]
    exact Nat.lt_of_lt_of_le alive within
  · exact begun moment (by simp)

/-- What a live session entry holds, the codec would answer now. -/
theorem opens_of_cached (collisionFree : Function.Injective digest) (caches : Caches K) (moment : Moment)
    (rest : List Moment) (proven : Proven digest verifier openJson caches (moment :: rest))
    (host : Host) (cookie : Text) (claims : Claims)
    (hit : (caches.sessions.get (scopedFingerprint digest host.text cookie) moment.now).1 = some claims) :
    ∃ expiresAt, openHostSession openJson host cookie moment.now = some ⟨claims, expiresAt⟩ := by
  obtain ⟨entry, stored, alive, rfl⟩ := (IdentityCache.get_eq_some _ _ _ _).mp hit
  obtain ⟨other, cookie', payload, shared, sealed, notGrant, same, within⟩ :=
    proven.sessions _ entry stored
  obtain ⟨sameHost, rfl⟩ := scopedFingerprint_injective digest collisionFree other host _ _ shared
  refine ⟨payload.expiresAt, (openHostSession_eq_some _ _ _ _ _).mpr ⟨payload, ?_, notGrant, ?_, ?_⟩⟩
  · rw [← sameHost]
    exact sealed
  · exact Nat.lt_of_lt_of_le alive within
  · rw [same]

/-- What a live service-account entry holds, the ports would answer now. -/
theorem provenBearer_of_cached (collisionFree : Function.Injective digest) (caches : Caches K) (moment : Moment)
    (rest : List Moment) (proven : Proven digest verifier openJson caches (moment :: rest)) (token : Text)
    (name : NamespaceName) (reads : moment.Reads token)
    (hit : (caches.serviceAccounts.get (fingerprint digest token) moment.now).1 = some name) :
    provenBearer (moment.ports verifier openJson) token moment.now = .serviceAccount name := by
  obtain ⟨entry, stored, alive, rfl⟩ := (IdentityCache.get_eq_some _ _ _ _).mp hit
  obtain ⟨other, shared, said⟩ := proven.workloads _ entry stored
  obtain rfl := fingerprint_injective digest collisionFree shared
  obtain ⟨identity, ⟨notOurs, answer⟩, named⟩ := said moment (by simp) reads alive
  have asked : (moment.ports verifier openJson).namespaceOfServiceAccount other moment.now = some identity := answer
  rw [provenBearer_of_notOurs _ other moment.now notOurs, provenWorkload, asked, ← named]

theorem transparent_of_proven (collisionFree : Function.Injective digest) (caches : Caches K)
    (moment : Moment) (rest : List Moment)
    (proven : Proven digest verifier openJson caches (moment :: rest))
    (notOvertaken : NotOvertaken digest caches moment) :
    Transparent digest verifier openJson enforcement caches moment := by
  refine authorize_decision_congr _ digest caches _ _ _ enforcement .unused ?_
  intro read
  rw [resolve_unused]
  refine resolve_credential _ digest caches _ _ _ ?_ ?_
  · intro token presentedToken
    refine resolveBearer_credential _ digest caches token moment.now ?_ ?_
    · exact fun claims hit => verify_of_cached digest verifier openJson collisionFree caches moment rest
        proven token claims hit (notOvertaken token claims ⟨read, presentedToken⟩ hit)
    · exact fun name _ hit => provenBearer_of_cached digest verifier openJson collisionFree caches moment rest
        proven token name ⟨read, presentedToken⟩ hit
  · intro cookie
    exact resolveSession_credential _ digest caches _ cookie moment.now
      fun claims hit => opens_of_cached digest verifier openJson collisionFree caches moment rest proven
        _ cookie claims hit

/-- In every run in which the workload port keeps its word and no token is read after the
session it was cached for was revoked, every decision is the one of a gateway without caches. -/
theorem caches_transparent (collisionFree : Function.Injective digest)
    (capacity reviewCapacity ttlSecs : Nat) (moments : List Moment) (forward : Forward moments)
    (word : moments.Pairwise (KeepsWord verifier))
    (run : Along (serveStep digest verifier openJson enforcement) (NotOvertaken digest)
      (gateStart capacity reviewCapacity ttlSecs).caches moments) :
    Along (serveStep digest verifier openJson enforcement)
      (Transparent digest verifier openJson enforcement)
      (gateStart capacity reviewCapacity ttlSecs).caches moments := by
  refine along_of_foresight _ (Proven digest verifier openJson) (NotOvertaken digest) _ ?_ ?_ _
    moments ?_ run
  · exact fun caches moment rest proven _ =>
      serveStep_proven digest verifier openJson enforcement caches moment rest proven
  · exact fun caches moment rest proven =>
      transparent_of_proven digest verifier openJson enforcement collisionFree caches moment rest proven
  · exact ⟨forward.imp fun order => order.1, word, IdentityCache.all_new _ _ _, IdentityCache.all_new _ _ _,
      IdentityCache.all_new _ _ _⟩

end Run

/-! ## A revoked bearer -/

/-- A token of alice's, of the session `s1`, that expires at 9000. -/
def aliceToken : Text :=
  "eyJhbGciOiJSUzI1NiJ9.eyJpc3MiOiJpZHAiLCJhdWQiOiJzaSIsInN1YiI6ImFsaWNlIiwiZXhwIjo5MDAwLCJzaWQiOiJzMSJ9.c2ln".toList

def aliceClaims : Json :=
  .object [("iss".toList, .string "idp".toList), ("aud".toList, .string "si".toList),
    ("sub".toList, .string "alice".toList), ("exp".toList, .number (.unsigned 9000)),
    ("sid".toList, .string "s1".toList)]

/-- The verifier of an issuer that signed `aliceToken` and nothing else. -/
def aliceVerifier : JwksVerifier where
  rules := some ⟨"idp".toList, ["si".toList], [], by decide⟩
  usernameClaim := "sub".toList
  groupsClaim := "groups".toList
  decodeVerified := fun token => if token = aliceToken then .ok aliceClaims else .error .unverifiable

/-- A request with alice's token to her private endpoint, which hands foreign bearers on. -/
def aliceRequest (revoked : List SessionId) (now : Timestamp) : Moment where
  policyFor := fun _ => .policy
    { namespaceName := "user-alice".toList
      owner := "alice".toList
      team := none
      profile := .privateProfile
      allowUsers := []
      allowGroups := []
      bearer := .passthrough
      rules := []
      provenance := .author
      upstream := none
      generation := 1 }
  scope := plainPorts.scope
  namespaceOfAddress := fun _ => none
  namespaceOfServiceAccount := fun _ _ => none
  isRevoked := revoked.contains
  teamOf := fun _ => none
  request := plainRequest
  presented := ⟨none, some aliceToken, none⟩
  now := now

theorem aliceRequest_token (revoked : List SessionId) (now : Timestamp) :
    (aliceRequest revoked now).presented.token = some aliceToken := by
  have trimmed : Presented.token ⟨none, some aliceToken, none⟩ = some aliceToken := by decide +kernel
  exact trimmed

/-- A request to the same endpoint with the token of a workload of `user-bob`. -/
def workloadRequest (expiresAt now : Timestamp) : Moment :=
  { aliceRequest [] now with
    namespaceOfServiceAccount := fun token _ =>
      if token = tokenOf4000 then some ⟨"user-bob".toList, expiresAt⟩ else none
    presented := ⟨none, some tokenOf4000, none⟩ }

theorem workloadRequest_token (expiresAt now : Timestamp) :
    (workloadRequest expiresAt now).presented.token = some tokenOf4000 := by
  have trimmed : Presented.token ⟨none, some tokenOf4000, none⟩ = some tokenOf4000 := by decide +kernel
  exact trimmed

theorem aliceVerifier_foreign (isRevoked : SessionId → Bool) (now : Timestamp) :
    (aliceVerifier.verify isRevoked tokenOf4000 now).isOurs = false := by
  cases verified : aliceVerifier.verify isRevoked tokenOf4000 now with
  | ours claims expiresAt =>
    obtain ⟨value, proves, -, -⟩ := (aliceVerifier.verify_eq_ours _ _ _ _ _).mp verified
    have other : tokenOf4000 ≠ aliceToken := by decide
    have decoded := proves.decoded
    simp only [aliceVerifier, if_neg other] at decoded
    cases decoded
  | foreign => rfl
  | invalid => rfl

theorem aliceRequest_keepsWord (now : Timestamp) (later : Moment) :
    KeepsWord aliceVerifier (aliceRequest [] now) later := by
  intro token identity _ vouches
  cases vouches.2

section Unrevoked
variable (expiresAt now now' : Timestamp)

theorem workloadRequest_keepsWord :
    KeepsWord aliceVerifier (workloadRequest expiresAt now) (workloadRequest expiresAt now') := by
  intro token identity presentedToken vouches _ _
  obtain rfl := Option.some.inj ((workloadRequest_token expiresAt now).symm.trans presentedToken)
  exact ⟨identity, ⟨aliceVerifier_foreign _ now', vouches.2⟩, rfl⟩

theorem workloadRequest_keepsWord_alice :
    KeepsWord aliceVerifier (workloadRequest expiresAt now) (aliceRequest [] now') := by
  intro token identity presentedToken _ reads _
  obtain rfl := Option.some.inj ((workloadRequest_token expiresAt now).symm.trans presentedToken)
  exact absurd ((aliceRequest_token [] now').symm.trans reads.2) (by decide)

/-- Alice's token and the workload's, each twice. -/
def unrevokedRun (first second third fourth : Timestamp) : List Moment :=
  [aliceRequest [] first, workloadRequest expiresAt second, aliceRequest [] third,
    workloadRequest expiresAt fourth]

theorem unrevokedRun_keepsWord (first second third fourth : Timestamp) :
    (unrevokedRun expiresAt first second third fourth).Pairwise (KeepsWord aliceVerifier) := by
  simp only [unrevokedRun, List.pairwise_cons, List.mem_cons, List.not_mem_nil, or_false, forall_eq_or_imp,
    forall_eq, false_imp_iff, implies_true, List.Pairwise.nil, and_true]
  exact ⟨⟨aliceRequest_keepsWord _ _, aliceRequest_keepsWord _ _, aliceRequest_keepsWord _ _⟩,
    ⟨workloadRequest_keepsWord_alice _ _ _, workloadRequest_keepsWord _ _ _⟩, aliceRequest_keepsWord _ _⟩

theorem unrevokedRun_forward (first second third fourth : Timestamp) (early : first.secs ≤ second.secs)
    (later : second.secs ≤ third.secs) (late : third.secs ≤ fourth.secs) :
    Forward (unrevokedRun expiresAt first second third fourth) := by
  have unrevoked : ∀ session, ([] : List SessionId).contains session = true →
      ([] : List SessionId).contains session = true := fun _ revoked => revoked
  simp only [Forward, unrevokedRun, List.pairwise_cons, List.mem_cons, List.not_mem_nil, or_false, forall_eq_or_imp,
    forall_eq, false_imp_iff, implies_true, List.Pairwise.nil, and_true]
  exact ⟨⟨⟨early, unrevoked⟩, ⟨early.trans later, unrevoked⟩, (early.trans later).trans late, unrevoked⟩,
    ⟨⟨later, unrevoked⟩, later.trans late, unrevoked⟩, late, unrevoked⟩

theorem unrevokedRun_notOvertaken (first second third fourth : Timestamp) (caches : Caches (List UInt8)) :
    Along (serveStep id aliceVerifier (fun _ _ => none) .enforce) (NotOvertaken id) caches
      (unrevokedRun expiresAt first second third fourth) := by
  have plain : ∀ claims : Claims, claims.session.any ([] : List SessionId).contains = false := by
    intro claims
    cases claims.session with
    | none => rfl
    | some session => rfl
  exact ⟨fun _ claims _ _ => plain claims, fun _ claims _ _ => plain claims, fun _ claims _ _ => plain claims,
    fun _ claims _ _ => plain claims, trivial⟩

end Unrevoked

theorem caches_transparent_unrevoked :
    Along (serveStep id aliceVerifier (fun _ _ => none) .enforce)
        (Transparent id aliceVerifier (fun _ _ => none) .enforce) (gateStart 16 16 3600).caches
        (unrevokedRun ⟨4000, by decide⟩ ⟨100, by decide⟩ ⟨110, by decide⟩ ⟨200, by decide⟩ ⟨210, by decide⟩) ∧
      (let caches := after (serveStep id aliceVerifier (fun _ _ => none) .enforce) (gateStart 16 16 3600).caches
        [aliceRequest [] ⟨100, by decide⟩, workloadRequest ⟨4000, by decide⟩ ⟨110, by decide⟩]
      (caches.bearers.get (fingerprint id aliceToken) ⟨200, by decide⟩).1.isSome = true ∧
        (caches.serviceAccounts.get (fingerprint id tokenOf4000) ⟨210, by decide⟩).1 =
          some "user-bob".toList) := by
  refine ⟨caches_transparent id aliceVerifier (fun _ _ => none) .enforce Function.injective_id 16 16 3600
    _ (unrevokedRun_forward _ _ _ _ _ (by decide) (by decide) (by decide)) (unrevokedRun_keepsWord _ _ _ _ _)
    (unrevokedRun_notOvertaken _ _ _ _ _ _), by decide +kernel, by decide +kernel⟩

/-- The session ends between the two requests: the gateway that cached the token answers
that it was revoked, the one that did not hands it on as somebody else's. -/
theorem revoked_bearer_decided_otherwise :
    ¬ ∀ (verifier : JwksVerifier) (openJson : Text → Binding → Option SealedPayload)
      (enforcement : Enforcement) (capacity reviewCapacity ttlSecs : Nat) (moments : List Moment),
      Forward moments →
      Along (serveStep id verifier openJson enforcement) (Transparent id verifier openJson enforcement)
        (gateStart capacity reviewCapacity ttlSecs).caches moments := by
  intro transparent
  have run := transparent aliceVerifier (fun _ _ => none) .enforce 16 16 3600
    [aliceRequest [] ⟨100, by decide⟩, aliceRequest ["s1".toList] ⟨200, by decide⟩]
    (by simp [Forward, aliceRequest])
  have cached : (serve id aliceVerifier (fun _ _ => none) .enforce
      (serveStep id aliceVerifier (fun _ _ => none) .enforce (gateStart 16 16 3600).caches
        (aliceRequest [] ⟨100, by decide⟩))
      (aliceRequest ["s1".toList] ⟨200, by decide⟩)).1.decision =
        ⟨.challenge .unauthorized, .revoked⟩ := by decide +kernel
  have uncached : (serve id aliceVerifier (fun _ _ => none) .enforce (.unused : Caches (List UInt8))
      (aliceRequest ["s1".toList] ⟨200, by decide⟩)).1.decision = ⟨.allow, .bearerPassthrough⟩ := by
    decide +kernel
  exact absurd (cached.symm.trans (run.2.1.trans uncached)) (by decide)

end WeeboSi.Gateway
