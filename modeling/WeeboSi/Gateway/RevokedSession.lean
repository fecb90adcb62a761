import WeeboSi.Gateway.Transparency

/-!
# Revoked sessions

Source: crates/weebo-si-endpoint-auth/src/application.rs:190-298 and cache.rs:190-275, with
the logout of bins/endpoint-gateway/src/state.rs:390-418 and the introspected bearers of
state.rs:284. A history is any sequence of requests, of inserts that other requests were
about to make, and of lookups, evictions, forgets and clears of either cache.
-/
namespace WeeboSi.Gateway
open WeeboSi.Lib WeeboSi.EndpointAuth

/-! ## Who a request resolves to -/

section Resolve
variable {K : Type} [DecidableEq K] (digest : List UInt8 → K) (ports : Ports) (caches : Caches K)
  (request : AuthRequest) (presented : Presented) (now : Timestamp) (claims : Claims)

theorem ite_revoked_eq {live : Claims → Credential} (identity : Claims)
    (alive : ∀ one, live one ≠ .revokedSession)
    (same : ∀ one other, live one = live other → one = other)
    (h : (if sessionRevoked ports identity then .revokedSession else live (teamOf ports identity)) =
      live claims) :
    sessionRevoked ports identity = false ∧ teamOf ports identity = claims := by
  cases revoked : sessionRevoked ports identity with
  | true =>
    rw [revoked, if_pos rfl] at h
    exact absurd h.symm (alive claims)
  | false =>
    rw [revoked, if_neg (by simp)] at h
    exact ⟨rfl, same _ _ h⟩

/-- A bearer identity comes from the bearer cache or from the verifier, and its session
is live. -/
theorem resolve_bearer_cases (h : (resolve digest ports caches request presented now).1 = .bearer claims) :
    ∃ token identity, presented.token = some token ∧ sessionRevoked ports identity = false ∧
      teamOf ports identity = claims ∧
      ((caches.bearers.get (fingerprint digest token) now).1 = some identity ∨
        ∃ expiresAt, ports.verify token now = .ours identity expiresAt) := by
  have person : ∀ (c : Caches K) token identity,
      (asPerson digest ports c token identity).1 = .bearer claims →
      sessionRevoked ports identity = false ∧ teamOf ports identity = claims := by
    intro c token identity resolved
    rw [asPerson_credential] at resolved
    exact ite_revoked_eq ports claims identity (by simp) (by simp) resolved
  unfold resolve at h
  cases presentedToken : presented.token with
  | some token =>
    rw [presentedToken] at h
    refine ⟨token, ?_⟩
    rcases resolveBearer_cases digest ports caches token now with
      ⟨identity, hit, result⟩ | ⟨name, -, -, result⟩ | ⟨identity, expiresAt, -, verified, result⟩ |
        ⟨-, -, result⟩
    · simp only [result] at h
      obtain ⟨live, named⟩ := person _ _ _ h
      exact ⟨identity, rfl, live, named, .inl hit⟩
    · simp only [result] at h
      cases h
    · simp only [result] at h
      obtain ⟨live, named⟩ := person _ _ _ h
      exact ⟨identity, rfl, live, named, .inr ⟨expiresAt, verified⟩⟩
    · simp only [result, resolveServiceAccount_credential, provenWorkload] at h
      split at h
      · cases h
      · cases h
  | none =>
    rw [presentedToken] at h
    simp only at h
    split at h
    · unfold resolveSession at h
      simp only at h
      split at h
      · rw [asSession_credential] at h
        split at h
        · cases h
        · cases h
      · split at h
        · rw [asSession_credential] at h
          split at h
          · cases h
          · cases h
        · cases h
    · split at h
      · cases h
      · cases h

/-- A session identity comes from the session cache or from the codec, when no bearer was
presented, and its session is live. -/
theorem resolve_session_cases (h : (resolve digest ports caches request presented now).1 = .session claims) :
    ∃ cookie identity, presented.token = none ∧ presented.sealedCookie = some cookie ∧
      sessionRevoked ports identity = false ∧ teamOf ports identity = claims ∧
      ((caches.sessions.get (scopedFingerprint digest request.host.text cookie) now).1 = some identity ∨
        ∃ expiresAt, ports.openHostSession request.host cookie now = some ⟨identity, expiresAt⟩) := by
  have person : ∀ (c : Caches K) key identity, (asSession ports c key identity).1 = .session claims →
      sessionRevoked ports identity = false ∧ teamOf ports identity = claims := by
    intro c key identity resolved
    rw [asSession_credential] at resolved
    exact ite_revoked_eq ports claims identity (by simp) (by simp) resolved
  unfold resolve at h
  cases presentedToken : presented.token with
  | some token =>
    rw [presentedToken] at h
    rcases resolveBearer_cases digest ports caches token now with
      ⟨identity, -, result⟩ | ⟨name, -, -, result⟩ | ⟨identity, expiresAt, -, -, result⟩ | ⟨-, -, result⟩
    · simp only [result, asPerson_credential] at h
      split at h
      · cases h
      · cases h
    · simp only [result] at h
      cases h
    · simp only [result, asPerson_credential] at h
      split at h
      · cases h
      · cases h
    · simp only [result, resolveServiceAccount_credential, provenWorkload] at h
      split at h
      · cases h
      · cases h
  | none =>
    rw [presentedToken] at h
    cases presentedCookie : presented.sealedCookie with
    | some cookie =>
      simp only [presentedCookie] at h
      unfold resolveSession at h
      simp only at h
      refine ⟨cookie, ?_⟩
      split at h
      · rename_i identity hit
        obtain ⟨live, named⟩ := person _ _ _ h
        exact ⟨identity, rfl, rfl, live, named, .inl hit⟩
      · split at h
        · rename_i opened opens
          obtain ⟨live, named⟩ := person _ _ _ h
          exact ⟨opened.claims, rfl, rfl, live, named, .inr ⟨opened.expiresAt, opens⟩⟩
        · cases h
    | none =>
      simp only [presentedCookie] at h
      split at h
      · cases h
      · cases h

theorem ne_revoked_session (identity : Claims) (session : SessionId)
    (live : sessionRevoked ports identity = false) (revoked : ports.isRevoked session = true) :
    identity.session ≠ some session := by
  intro named
  simp [sessionRevoked, named, revoked] at live

end Resolve

/-! ## Histories -/

/-- What happens to a cache besides inserts. -/
inductive CacheOp (K : Type) where
  | get (key : K) (now : Timestamp)
  | forget (key : K)
  | evict | clear

inductive HistoryEvent (K : Type) where
  | request (ports : Ports) (enforcement : Enforcement) (request : AuthRequest)
      (presented : Presented) (now : Timestamp)
  | bearerInsert (token : Text) (claims : Claims) (expiresAt now : Timestamp)
  | sessionInsert (host : Host) (cookie : Text) (claims : Claims) (expiresAt now : Timestamp)
  | bearers (op : CacheOp K)
  | sessions (op : CacheOp K)

/-- The session that each bearer and each cookie of a host names. -/
structure NamedSessions where
  bearer : Text → Option SessionId
  cookie : Text → Text → Option SessionId

section History
variable {K : Type} [DecidableEq K] (digest : List UInt8 → K)

def CacheOp.apply {V : Type} (cache : IdentityCache K V) : CacheOp K → IdentityCache K V
  | .get key now => (cache.get key now).2
  | .forget key => cache.forget key
  | .evict => cache.evict
  | .clear => cache.clear

def historyStep (caches : Caches K) : HistoryEvent K → Caches K
  | .request ports enforcement request presented now =>
    (authorizeResolved digest ports enforcement caches request presented now).2
  | .bearerInsert token claims expiresAt now =>
    { caches with bearers := caches.bearers.insert (fingerprint digest token) claims expiresAt now }
  | .sessionInsert host cookie claims expiresAt now =>
    { caches with
      sessions := caches.sessions.insert (scopedFingerprint digest host.text cookie) claims expiresAt now }
  | .bearers op => { caches with bearers := op.apply caches.bearers }
  | .sessions op => { caches with sessions := op.apply caches.sessions }

variable (sessions : NamedSessions)

/-- What the ports answer about a credential, and what is inserted for it, names the
session that the credential names. -/
def Agrees (_ : Caches K) : HistoryEvent K → Prop
  | .request ports _ _ _ _ =>
    (∀ token now claims expiresAt, ports.verify token now = .ours claims expiresAt →
      claims.session = sessions.bearer token) ∧
    ∀ host cookie now opened, ports.openHostSession host cookie now = some opened →
      opened.claims.session = sessions.cookie host.text cookie
  | .bearerInsert token claims _ _ => claims.session = sessions.bearer token
  | .sessionInsert host cookie claims _ _ => claims.session = sessions.cookie host.text cookie
  | .bearers _ | .sessions _ => True

/-- The credential the request is read by names the session: its bearer, or its cookie when
it has no bearer. -/
def Names (request : AuthRequest) (presented : Presented) (session : SessionId) : Prop :=
  match presented.token with
  | some token => sessions.bearer token = some session
  | none => ∃ cookie, presented.sealedCookie = some cookie ∧
      sessions.cookie request.host.text cookie = some session

/-- While the session is revoked, no request resolves to it, and no request that is read
by one of its credentials resolves to a person. -/
def RefusesRevoked (session : SessionId) (caches : Caches K) : HistoryEvent K → Prop
  | .request ports _ request presented now =>
    ports.isRevoked session = true → ∀ claims,
      ((resolve digest ports caches request presented now).1 = .session claims ∨
        (resolve digest ports caches request presented now).1 = .bearer claims) →
      claims.session ≠ some session ∧ ¬ Names sessions request presented session
  | _ => True

/-- Every entry names the session of the credential it is stored for. -/
structure StoredNamed (caches : Caches K) : Prop where
  bearers : caches.bearers.All fun key entry =>
    ∃ token, fingerprint digest token = key ∧ entry.value.session = sessions.bearer token
  sessions : caches.sessions.All fun key entry =>
    ∃ (host : Host) (cookie : Text), scopedFingerprint digest host.text cookie = key ∧
      entry.value.session = sessions.cookie host.text cookie

theorem all_apply {V : Type} (P : K → Entry V → Prop) (cache : IdentityCache K V) (op : CacheOp K)
    (all : cache.All P) : (op.apply cache).All P := by
  cases op with
  | get key now => exact IdentityCache.all_get P cache key now all
  | forget key => exact IdentityCache.all_forget P cache key all
  | evict => exact IdentityCache.all_evict P cache all
  | clear => exact IdentityCache.all_clear P cache

theorem historyStep_storedNamed (caches : Caches K) (event : HistoryEvent K)
    (stored : StoredNamed digest sessions caches) (agrees : Agrees sessions caches event) :
    StoredNamed digest sessions (historyStep digest caches event) := by
  cases event with
  | request ports enforcement request presented now =>
    constructor
    · apply authorize_bearers digest ports request presented now enforcement caches _ stored.bearers
      intro token claims expiresAt verified entry same _
      exact ⟨token, rfl, same ▸ agrees.1 token now claims expiresAt verified⟩
    · apply authorize_sessions digest ports request presented now enforcement caches _ stored.sessions
      intro cookie opened opens entry same _
      exact ⟨request.host, cookie, rfl, same ▸ agrees.2 request.host cookie now opened opens⟩
  | bearerInsert token claims expiresAt now =>
    refine ⟨?_, stored.sessions⟩
    apply IdentityCache.all_insert _ _ _ _ _ _ stored.bearers
    intro entry same _ _ _
    exact ⟨token, rfl, same ▸ agrees⟩
  | sessionInsert host cookie claims expiresAt now =>
    refine ⟨stored.bearers, ?_⟩
    apply IdentityCache.all_insert _ _ _ _ _ _ stored.sessions
    intro entry same _ _ _
    exact ⟨host, cookie, rfl, same ▸ agrees⟩
  | bearers op => exact ⟨all_apply _ _ op stored.bearers, stored.sessions⟩
  | sessions op => exact ⟨stored.bearers, all_apply _ _ op stored.sessions⟩

theorem cached_bearer_session (collisionFree : Function.Injective digest) (caches : Caches K)
    (token : Text) (now : Timestamp) (identity : Claims) (stored : StoredNamed digest sessions caches)
    (hit : (caches.bearers.get (fingerprint digest token) now).1 = some identity) :
    identity.session = sessions.bearer token := by
  obtain ⟨entry, found, -, rfl⟩ := (IdentityCache.get_eq_some _ _ _ _).mp hit
  obtain ⟨other, shared, named⟩ := stored.bearers _ entry found
  rw [named, fingerprint_injective digest collisionFree shared]

theorem cached_cookie_session (collisionFree : Function.Injective digest) (caches : Caches K)
    (host : Host) (cookie : Text) (now : Timestamp) (identity : Claims)
    (stored : StoredNamed digest sessions caches)
    (hit : (caches.sessions.get (scopedFingerprint digest host.text cookie) now).1 = some identity) :
    identity.session = sessions.cookie host.text cookie := by
  obtain ⟨entry, found, -, rfl⟩ := (IdentityCache.get_eq_some _ _ _ _).mp hit
  obtain ⟨other, cookie', shared, named⟩ := stored.sessions _ entry found
  obtain ⟨sameHost, sameCookie⟩ :=
    scopedFingerprint_injective digest collisionFree other host _ _ shared
  rw [named, sameHost, sameCookie]

theorem refusesRevoked_of_storedNamed (collisionFree : Function.Injective digest) (session : SessionId)
    (caches : Caches K) (event : HistoryEvent K) (stored : StoredNamed digest sessions caches)
    (agrees : Agrees sessions caches event) : RefusesRevoked digest sessions session caches event := by
  cases event with
  | request ports enforcement request presented now =>
    intro revoked claims resolved
    rcases resolved with resolved | resolved
    · obtain ⟨cookie, identity, noToken, presentedCookie, live, rfl, origin⟩ :=
        resolve_session_cases digest ports caches request presented now claims resolved
      have other := ne_revoked_session ports identity session live revoked
      have named : identity.session = sessions.cookie request.host.text cookie := by
        rcases origin with hit | ⟨expiresAt, opens⟩
        · exact cached_cookie_session digest sessions collisionFree caches _ _ now identity stored hit
        · exact agrees.2 request.host cookie now _ opens
      refine ⟨other, ?_⟩
      unfold Names
      rw [noToken]
      intro given
      obtain ⟨cookie', presentedCookie', names⟩ := given
      obtain rfl := Option.some.inj (presentedCookie.symm.trans presentedCookie')
      exact other (named.trans names)
    · obtain ⟨token, identity, presentedToken, live, rfl, origin⟩ :=
        resolve_bearer_cases digest ports caches request presented now claims resolved
      have other := ne_revoked_session ports identity session live revoked
      have named : identity.session = sessions.bearer token := by
        rcases origin with hit | ⟨expiresAt, verified⟩
        · exact cached_bearer_session digest sessions collisionFree caches token now identity stored hit
        · exact agrees.1 token now identity expiresAt verified
      refine ⟨other, ?_⟩
      unfold Names
      rw [presentedToken]
      exact fun names => other (named.trans names)
  | bearerInsert token claims expiresAt now => trivial
  | sessionInsert host cookie claims expiresAt now => trivial
  | bearers op => trivial
  | sessions op => trivial

/-- Revocation beats both caches, in every history. -/
theorem revocation_beats_caches (collisionFree : Function.Injective digest) (session : SessionId)
    (capacity reviewCapacity ttlSecs : Nat) (events : List (HistoryEvent K))
    (agrees : Along (historyStep digest) (Agrees sessions)
      (gateStart capacity reviewCapacity ttlSecs).caches events) :
    Along (historyStep digest) (RefusesRevoked digest sessions session)
      (gateStart capacity reviewCapacity ttlSecs).caches events := by
  apply along_of_invariant _ (StoredNamed digest sessions) (Agrees sessions) _ _ _ _ _ _ agrees
  · exact fun caches event stored => historyStep_storedNamed digest sessions caches event stored
  · exact fun caches event stored =>
      refusesRevoked_of_storedNamed digest sessions collisionFree session caches event stored
  · exact ⟨IdentityCache.all_new _ _ _, IdentityCache.all_new _ _ _⟩

/-- Read literally, a request refuses to resolve to a person as soon as it carries a
credential of a revoked session, whether or not it is read by it. -/
def RefusesCarrying (session : SessionId) (caches : Caches K) : HistoryEvent K → Prop
  | .request ports _ request presented now =>
    ports.isRevoked session = true →
    ((∃ token, presented.token = some token ∧ sessions.bearer token = some session) ∨
      ∃ cookie, presented.sealedCookie = some cookie ∧
        sessions.cookie request.host.text cookie = some session) →
    ∀ claims, (resolve digest ports caches request presented now).1 ≠ .session claims ∧
      (resolve digest ports caches request presented now).1 ≠ .bearer claims
  | _ => True

end History

/-! ## The gateway's own adapters -/

/-- The session a token of ours names. -/
def JwksVerifier.sessionOf (verifier : JwksVerifier) (token : Text) : Option SessionId :=
  match verifier.decodeVerified token with
  | .ok value => claimText value "sid"
  | .error _ => none

def adapterSessions (verifier : JwksVerifier) (openJson : Text → Binding → Option SealedPayload) :
    NamedSessions where
  bearer := verifier.sessionOf
  cookie := fun host cookie => (openJson cookie (.hostBound host)).bind SealedPayload.session

def Moment.event {K : Type} (moment : Moment) (verifier : JwksVerifier)
    (openJson : Text → Binding → Option SealedPayload) (enforcement : Enforcement) : HistoryEvent K :=
  .request (moment.ports verifier openJson) enforcement moment.request moment.presented moment.now

/-- A signed token and a sealed cookie always name the same session. -/
theorem moment_agrees {K : Type} (verifier : JwksVerifier)
    (openJson : Text → Binding → Option SealedPayload) (enforcement : Enforcement) (moment : Moment)
    (caches : Caches K) :
    Agrees (adapterSessions verifier openJson) caches (moment.event verifier openJson enforcement) := by
  constructor
  · intro token now claims expiresAt verified
    obtain ⟨value, proves, -⟩ := (verifier.verify_eq_ours _ _ _ _ _).mp verified
    have named := (verifier.claimsFrom_agrees value claims expiresAt proves.identity).1
    simp only [adapterSessions, JwksVerifier.sessionOf, proves.decoded]
    exact named.symm
  · intro host cookie now opened opens
    obtain ⟨payload, sealed, -, -, rfl⟩ := (openHostSession_eq_some _ _ _ _ _).mp opens
    simp [adapterSessions, sealed, SealedPayload.claims]

/-- The token was cached while its session was live. -/
theorem revocation_beats_caches_alice :
    let event (revoked : List SessionId) (now : Timestamp) : HistoryEvent (List UInt8) :=
      (aliceRequest revoked now).event aliceVerifier (fun _ _ => none) .enforce
    let cached := historyStep id (gateStart 16 16 3600).caches (event [] ⟨100, by decide⟩)
    (cached.bearers.get (fingerprint id aliceToken) ⟨200, by decide⟩).1.isSome = true ∧
      ∀ claims, (resolve id ((aliceRequest ["s1".toList] ⟨200, by decide⟩).ports aliceVerifier (fun _ _ => none))
        cached plainRequest ⟨none, some aliceToken, none⟩ ⟨200, by decide⟩).1 ≠ .bearer claims := by
  refine ⟨by decide +kernel, ?_⟩
  have run := revocation_beats_caches id (adapterSessions aliceVerifier fun _ _ => none)
    Function.injective_id "s1".toList 16 16 3600
    [(aliceRequest [] ⟨100, by decide⟩).event aliceVerifier (fun _ _ => none) .enforce,
      (aliceRequest ["s1".toList] ⟨200, by decide⟩).event aliceVerifier (fun _ _ => none) .enforce]
    ⟨moment_agrees _ _ _ _ _, moment_agrees _ _ _ _ _, trivial⟩
  intro claims resolved
  apply (run.2.1 (by decide) claims (.inr resolved)).2
  unfold Names
  rw [aliceRequest_token]
  decide +kernel

/-- A cookie of the session `s2`. -/
def otherCookie (sealed : Text) (binding : Binding) : Option SealedPayload :=
  if sealed = "c".toList ∧ binding = .hostBound plainRequest.host.text then
    some ⟨"alice".toList, [], some "s2".toList, ⟨9000, by decide⟩, 1, none, ⟨0, Nat.zero_le u64Max⟩, none, none⟩
  else none

/-- The cookie's session is revoked, the bearer beside it is of a live one: the request is
read by the bearer. -/
theorem live_bearer_beside_revoked_cookie :
    ¬ ∀ (sessions : NamedSessions) (session : SessionId) (capacity reviewCapacity ttlSecs : Nat)
      (events : List (HistoryEvent (List UInt8))),
      Along (historyStep id) (Agrees sessions) (gateStart capacity reviewCapacity ttlSecs).caches events →
      Along (historyStep id) (RefusesCarrying id sessions session)
        (gateStart capacity reviewCapacity ttlSecs).caches events := by
  intro refuses
  let moment : Moment :=
    { aliceRequest ["s2".toList] ⟨100, by decide⟩ with
      presented := ⟨some "c".toList, some aliceToken, none⟩ }
  have run := refuses (adapterSessions aliceVerifier otherCookie) "s2".toList 16 16 3600
    [moment.event aliceVerifier otherCookie .enforce] ⟨moment_agrees _ _ _ _ _, trivial⟩
  have carried := (run.1 (by decide) (.inr ⟨"c".toList, by decide, by decide +kernel⟩)
    ⟨"alice".toList, [], none, some "s1".toList⟩).2
  exact carried (by decide +kernel)

end WeeboSi.Gateway
