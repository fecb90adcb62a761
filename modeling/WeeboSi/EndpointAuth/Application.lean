import WeeboSi.EndpointAuth.Cache
import WeeboSi.EndpointAuth.Decide

/-!
# The request path

Source: crates/weebo-si-endpoint-auth/src/application.rs:20-310, port.rs and
cache.rs:31-58. The ports are what the adapters answer while one request is decided; the
caches are passed from one request to the next. `digest` is the SHA-256 crate's.
-/
namespace WeeboSi.EndpointAuth
open WeeboSi.Lib

/-! ## Fingerprints -/

section Fingerprint
variable {K : Type} (digest : List UInt8 → K)

/-- `Fingerprint::of`. -/
def fingerprint (credential : Text) : K := digest (bytesOf credential)

/-- A 64-bit length, most significant byte first. -/
def lengthBytes (length : Nat) : List UInt8 :=
  (List.range 8).map fun index => UInt8.ofNat (length / 256 ^ (7 - index))

/-- `Fingerprint::scoped`: the scope is preceded by its length. -/
def scopedFingerprint (scope credential : Text) : K :=
  digest (lengthBytes (byteLen scope) ++ bytesOf scope ++ bytesOf credential)

theorem bytesOf_injective : Function.Injective bytesOf := by
  intro s t same
  have encoded : s.utf8Encode = t.utf8Encode := by
    unfold bytesOf at same
    rw [List.utf8Encode, List.utf8Encode, same]
  have decoded := congrArg ByteArray.utf8Decode? encoded
  rw [List.utf8Decode?_utf8Encode, List.utf8Decode?_utf8Encode] at decoded
  simpa using decoded

theorem fingerprint_injective (collisionFree : Function.Injective digest) :
    Function.Injective (fingerprint digest) :=
  collisionFree.comp bytesOf_injective

theorem lengthBytes_injective (m n : Nat) (small : m < 2 ^ 64) (small' : n < 2 ^ 64)
    (same : lengthBytes m = lengthBytes n) : m = n := by
  unfold lengthBytes at same
  simp only [List.range, List.range.loop, List.map_cons, List.map_nil, List.cons.injEq,
    ← UInt8.toNat_inj, UInt8.toNat_ofNat', and_true] at same
  norm_num at same
  omega

theorem byteLen_host_lt (host : Host) : byteLen host.text < 2 ^ 64 := by
  have wide := byteLen_le host.text
  have short := host.short
  unfold maxHostLen at short
  omega

/-- No two hosts share an entry: the length cuts the scope off from the credential. -/
theorem scopedFingerprint_injective (collisionFree : Function.Injective digest) (host other : Host)
    (cookie cookie' : Text)
    (same : scopedFingerprint digest host.text cookie = scopedFingerprint digest other.text cookie') :
    host.text = other.text ∧ cookie = cookie' := by
  have bytes := collisionFree same
  rw [List.append_assoc, List.append_assoc] at bytes
  obtain ⟨lengths, rest⟩ := List.append_inj bytes (by simp [lengthBytes])
  have length := lengthBytes_injective _ _ (byteLen_host_lt host) (byteLen_host_lt other) lengths
  rw [← length_bytesOf, ← length_bytesOf] at length
  obtain ⟨hosts, cookies⟩ := List.append_inj rest length
  exact ⟨bytesOf_injective hosts, bytesOf_injective cookies⟩

end Fingerprint

/-! ## Ports -/

structure OpenedSession where
  claims : Claims
  expiresAt : Timestamp
  deriving DecidableEq, Repr

inductive TokenOutcome where
  | ours (claims : Claims) (expiresAt : Timestamp)
  | foreign
  | invalid
  deriving DecidableEq, Repr

structure ServiceAccountIdentity where
  namespaceName : NamespaceName
  expiresAt : Timestamp
  deriving DecidableEq, Repr

structure Ports where
  policyFor : Host → CatalogLookup
  scope : HostScope
  openHostSession : Host → Text → Timestamp → Option OpenedSession
  verify : Text → Timestamp → TokenOutcome
  namespaceOfAddress : Text → Option NamespaceName
  namespaceOfServiceAccount : Text → Timestamp → Option ServiceAccountIdentity
  isRevoked : SessionId → Bool
  teamOf : Username → Option TeamName

inductive Enforcement where
  | observe | enforce
  deriving DecidableEq, Repr

structure Presented where
  cookie : Option Text
  bearer : Option Text
  clientAddress : Option Text
  deriving DecidableEq, Repr

structure Outcome where
  decision : Decision
  answered : Verdict
  deriving DecidableEq, Repr

structure Authorized where
  outcome : Outcome
  credential : Credential
  deriving DecidableEq, Repr

structure Caches (K : Type) where
  sessions : IdentityCache K Claims
  bearers : IdentityCache K Claims
  serviceAccounts : IdentityCache K NamespaceName

/-! ## Resolving a credential -/

/-- The credential of an `Authorization` header, if it says anything. -/
def Presented.token (presented : Presented) : Option Text :=
  (presented.bearer.map trim).filter (· ≠ [])

def Presented.sealedCookie (presented : Presented) : Option Text := presented.cookie.filter (· ≠ [])

section Gateway
variable {K : Type} [DecidableEq K] (digest : List UInt8 → K) (ports : Ports)

def teamOf (claims : Claims) : Claims := { claims with team := ports.teamOf claims.username }

def sessionRevoked (claims : Claims) : Bool := claims.session.any ports.isRevoked

def resolveServiceAccount (caches : Caches K) (token : Text) (now : Timestamp) : Credential × Caches K :=
  match ports.namespaceOfServiceAccount token now with
  | some identity =>
    (.serviceAccount identity.namespaceName,
      { caches with
        serviceAccounts := caches.serviceAccounts.insert (fingerprint digest token)
          identity.namespaceName identity.expiresAt now })
  | none => (.foreignBearer, caches)

/-- The last check of a bearer of ours, on the cached path and on the other. -/
def asPerson (caches : Caches K) (token : Text) (claims : Claims) : Credential × Caches K :=
  if sessionRevoked ports claims then
    (.revokedSession, { caches with bearers := caches.bearers.forget (fingerprint digest token) })
  else (.bearer (teamOf ports claims), caches)

def resolveBearer (caches : Caches K) (token : Text) (now : Timestamp) : Credential × Caches K :=
  let key := fingerprint digest token
  let (hit, bearers) := caches.bearers.get key now
  let caches := { caches with bearers }
  match hit with
  | some claims => asPerson digest ports caches token claims
  | none =>
    let (hit, serviceAccounts) := caches.serviceAccounts.get key now
    let caches := { caches with serviceAccounts }
    match hit with
    | some name => (.serviceAccount name, caches)
    | none =>
      match ports.verify token now with
      | .ours claims expiresAt =>
        asPerson digest ports
          { caches with bearers := caches.bearers.insert key claims expiresAt now } token claims
      | .foreign | .invalid => resolveServiceAccount digest ports caches token now

def asSession (caches : Caches K) (key : K) (claims : Claims) : Credential × Caches K :=
  if sessionRevoked ports claims then
    (.revokedSession, { caches with sessions := caches.sessions.forget key })
  else (.session (teamOf ports claims), caches)

def resolveSession (caches : Caches K) (request : AuthRequest) (cookie : Text) (now : Timestamp) :
    Credential × Caches K :=
  let key := scopedFingerprint digest request.host.text cookie
  let (hit, sessions) := caches.sessions.get key now
  let caches := { caches with sessions }
  match hit with
  | some claims => asSession ports caches key claims
  | none =>
    match ports.openHostSession request.host cookie now with
    | some opened =>
      asSession ports
        { caches with sessions := caches.sessions.insert key opened.claims opened.expiresAt now } key
        opened.claims
    | none => (.none, caches)

/-- An `Authorization` header first, then a cookie, then the client address. -/
def resolve (caches : Caches K) (request : AuthRequest) (presented : Presented) (now : Timestamp) :
    Credential × Caches K :=
  match presented.token with
  | some token => resolveBearer digest ports caches token now
  | none =>
    match presented.sealedCookie with
    | some cookie => resolveSession digest ports caches request cookie now
    | none =>
      match presented.clientAddress.bind ports.namespaceOfAddress with
      | some name => (.podOrigin name, caches)
      | none => (.none, caches)

/-- Whether a credential can change the answer at all. -/
def resolves (request : AuthRequest) : Bool :=
  request.scheme = .https &&
    match ports.policyFor request.host with
    | .policy _ => true
    | _ => false

def authorizeResolved (enforcement : Enforcement) (caches : Caches K) (request : AuthRequest)
    (presented : Presented) (now : Timestamp) : Authorized × Caches K :=
  let (credential, caches) :=
    if resolves ports request then resolve digest ports caches request presented now
    else (.none, caches)
  let decision := decide request ports.scope (ports.policyFor request.host) credential
  let answered := match enforcement with
    | .enforce => decision.verdict
    | .observe => .allow
  (⟨⟨decision, answered⟩, credential⟩, caches)

def authorize (enforcement : Enforcement) (caches : Caches K) (request : AuthRequest)
    (presented : Presented) (now : Timestamp) : Outcome × Caches K :=
  let (authorized, caches) := authorizeResolved digest ports enforcement caches request presented now
  (authorized.outcome, caches)

/-! ## The four roads of a bearer -/

def TokenOutcome.isOurs : TokenOutcome → Bool
  | .ours _ _ => true
  | _ => false

/-- Neither cache answers for the token. -/
def Missed (caches : Caches K) (token : Text) (now : Timestamp) : Prop :=
  (caches.bearers.get (fingerprint digest token) now).1 = none ∧
    (caches.serviceAccounts.get (fingerprint digest token) now).1 = none

/-- The caches after both lookups of a token. -/
def swept (caches : Caches K) (token : Text) (now : Timestamp) : Caches K :=
  { caches with
    bearers := (caches.bearers.get (fingerprint digest token) now).2
    serviceAccounts := (caches.serviceAccounts.get (fingerprint digest token) now).2 }

theorem resolveBearer_cases (caches : Caches K) (token : Text) (now : Timestamp) :
    (∃ claims, (caches.bearers.get (fingerprint digest token) now).1 = some claims ∧
      resolveBearer digest ports caches token now = asPerson digest ports caches token claims) ∨
    (∃ name, (caches.bearers.get (fingerprint digest token) now).1 = none ∧
      (caches.serviceAccounts.get (fingerprint digest token) now).1 = some name ∧
      resolveBearer digest ports caches token now =
        (.serviceAccount name, swept digest caches token now)) ∨
    (∃ claims expiresAt, Missed digest caches token now ∧
      ports.verify token now = .ours claims expiresAt ∧
      resolveBearer digest ports caches token now =
        asPerson digest ports
          { swept digest caches token now with
            bearers := (swept digest caches token now).bearers.insert (fingerprint digest token) claims
              expiresAt now } token claims) ∨
    (Missed digest caches token now ∧ (ports.verify token now).isOurs = false ∧
      resolveBearer digest ports caches token now =
        resolveServiceAccount digest ports (swept digest caches token now) token now) := by
  unfold resolveBearer Missed swept
  dsimp only
  cases bearer : (caches.bearers.get (fingerprint digest token) now).1 with
  | some claims =>
    have same := IdentityCache.get_hit _ _ _ _ bearer
    exact Or.inl ⟨claims, rfl, by simp only [same]⟩
  | none =>
    refine Or.inr ?_
    cases workload : (caches.serviceAccounts.get (fingerprint digest token) now).1 with
    | some name => exact Or.inl ⟨name, rfl, rfl, rfl⟩
    | none =>
      refine Or.inr ?_
      cases verified : ports.verify token now with
      | ours claims expiresAt => exact Or.inl ⟨claims, expiresAt, ⟨rfl, rfl⟩, rfl, rfl⟩
      | foreign => exact Or.inr ⟨⟨rfl, rfl⟩, rfl, rfl⟩
      | invalid => exact Or.inr ⟨⟨rfl, rfl⟩, rfl, rfl⟩

/-- The token a request asks the workload port about, when it does. -/
def consulted (caches : Caches K) (request : AuthRequest) (presented : Presented) (now : Timestamp) :
    Option Text :=
  presented.token.filter fun token =>
    resolves ports request && (caches.bearers.get (fingerprint digest token) now).1.isNone
      && (caches.serviceAccounts.get (fingerprint digest token) now).1.isNone
      && !(ports.verify token now).isOurs

theorem consulted_eq_some (caches : Caches K) (request : AuthRequest) (presented : Presented) (now : Timestamp)
    (token : Text) (asked : consulted digest ports caches request presented now = some token) :
    presented.token = some token ∧ (ports.verify token now).isOurs = false := by
  obtain ⟨presentedToken, conditions⟩ := Option.filter_eq_some_iff.mp asked
  simp only [Bool.and_eq_true, Bool.not_eq_true'] at conditions
  exact ⟨presentedToken, conditions.2⟩

@[simp] theorem asPerson_serviceAccounts (caches : Caches K) (token : Text) (claims : Claims) :
    (asPerson digest ports caches token claims).2.serviceAccounts = caches.serviceAccounts := by
  unfold asPerson
  split
  · rfl
  · rfl

@[simp] theorem asSession_serviceAccounts (caches : Caches K) (key : K) (claims : Claims) :
    (asSession ports caches key claims).2.serviceAccounts = caches.serviceAccounts := by
  unfold asSession
  split
  · rfl
  · rfl

theorem resolveSession_serviceAccounts (caches : Caches K) (request : AuthRequest) (cookie : Text)
    (now : Timestamp) :
    (resolveSession digest ports caches request cookie now).2.serviceAccounts =
      caches.serviceAccounts := by
  unfold resolveSession
  simp only
  split
  · simp
  · split
    · simp
    · rfl

theorem resolveSession_bearers (caches : Caches K) (request : AuthRequest) (cookie : Text)
    (now : Timestamp) :
    (resolveSession digest ports caches request cookie now).2.bearers = caches.bearers := by
  unfold resolveSession asSession
  dsimp only
  split
  · split
    · rfl
    · rfl
  · split
    · split
      · rfl
      · rfl
    · rfl

theorem resolveBearer_sessions (caches : Caches K) (token : Text) (now : Timestamp) :
    (resolveBearer digest ports caches token now).2.sessions = caches.sessions := by
  have person : ∀ (c : Caches K) claims,
      (asPerson digest ports c token claims).2.sessions = c.sessions := by
    intro c claims
    unfold asPerson
    split
    · rfl
    · rfl
  rcases resolveBearer_cases digest ports caches token now with
    ⟨claims, -, result⟩ | ⟨name, -, -, result⟩ | ⟨claims, expiresAt, -, -, result⟩ | ⟨-, -, result⟩
  · rw [result, person]
  · rw [result]
    rfl
  · rw [result, person]
    rfl
  · rw [result]
    unfold resolveServiceAccount
    split
    · rfl
    · rfl

variable (request : AuthRequest) (presented : Presented) (now : Timestamp) (enforcement : Enforcement)
  (caches : Caches K)

/-- The caches change on two roads of a request only. -/
theorem authorize_caches (Q : Caches K → Prop) (kept : Q caches)
    (bearer : ∀ token, resolves ports request = true → presented.token = some token →
      Q (resolveBearer digest ports caches token now).2)
    (session : ∀ cookie, Q (resolveSession digest ports caches request cookie now).2) :
    Q (authorizeResolved digest ports enforcement caches request presented now).2 := by
  unfold authorizeResolved
  by_cases matters : resolves ports request = true
  · simp only [matters, if_true]
    unfold resolve
    cases presentedToken : presented.token with
    | some token => exact bearer token matters presentedToken
    | none =>
      simp only
      cases presented.sealedCookie with
      | some cookie => exact session cookie
      | none =>
        simp only
        split
        · exact kept
        · exact kept
  · simp only [matters, Bool.false_eq_true, if_false]
    exact kept

/-- What a request does to the service-account cache: it keeps whatever holds of every
entry, and of what the workload port answered when it was asked. -/
theorem authorize_serviceAccounts (P : K → Entry NamespaceName → Prop)
    (all : caches.serviceAccounts.All P)
    (added : ∀ token identity, consulted digest ports caches request presented now = some token →
      ports.namespaceOfServiceAccount token now = some identity →
      ∀ entry : Entry NamespaceName, entry.value = identity.namespaceName →
        now.secs < entry.expiresAt.secs → entry.expiresAt.secs ≤ identity.expiresAt.secs →
        P (fingerprint digest token) entry) :
    (authorizeResolved digest ports enforcement caches request presented now).2.serviceAccounts.All P := by
  refine authorize_caches digest ports request presented now enforcement caches
    (fun after => after.serviceAccounts.All P) all ?_ ?_
  · intro token matters presentedToken
    have sweptAll : (swept digest caches token now).serviceAccounts.All P :=
      IdentityCache.all_get P _ _ _ all
    rcases resolveBearer_cases digest ports caches token now with
      ⟨claims, -, result⟩ | ⟨name, -, -, result⟩ | ⟨claims, expiresAt, -, -, result⟩ |
        ⟨missed, notOurs, result⟩
    · simp only [result, asPerson_serviceAccounts]
      exact all
    · simp only [result]
      exact sweptAll
    · simp only [result, asPerson_serviceAccounts]
      exact sweptAll
    · simp only [result]
      unfold resolveServiceAccount
      cases answer : ports.namespaceOfServiceAccount token now with
      | none => exact sweptAll
      | some identity =>
        have asked : consulted digest ports caches request presented now = some token := by
          simp [consulted, presentedToken, matters, missed.1, missed.2, notOurs]
        exact IdentityCache.all_insert P _ _ _ _ _ sweptAll
          fun entry same live within _ => added token identity asked answer entry same live within
  · intro cookie
    rw [resolveSession_serviceAccounts]
    exact all

/-- What a request does to the bearer cache. -/
theorem authorize_bearers (P : K → Entry Claims → Prop) (all : caches.bearers.All P)
    (added : ∀ token claims expiresAt, ports.verify token now = .ours claims expiresAt →
      ∀ entry : Entry Claims, entry.value = claims → entry.expiresAt.secs ≤ expiresAt.secs →
        P (fingerprint digest token) entry) :
    (authorizeResolved digest ports enforcement caches request presented now).2.bearers.All P := by
  refine authorize_caches digest ports request presented now enforcement caches
    (fun after => after.bearers.All P) all ?_ ?_
  · intro token _ _
    have sweptAll : (swept digest caches token now).bearers.All P := IdentityCache.all_get P _ _ _ all
    have person : ∀ (c : Caches K) claims, c.bearers.All P →
        (asPerson digest ports c token claims).2.bearers.All P := by
      intro c claims held
      unfold asPerson
      split
      · exact IdentityCache.all_forget P _ _ held
      · exact held
    rcases resolveBearer_cases digest ports caches token now with
      ⟨claims, -, result⟩ | ⟨name, -, -, result⟩ | ⟨claims, expiresAt, -, verified, result⟩ |
        ⟨-, -, result⟩
    · rw [result]
      exact person caches claims all
    · rw [result]
      exact sweptAll
    · rw [result]
      exact person _ claims (IdentityCache.all_insert P _ _ _ _ _ sweptAll
        fun entry same _ within _ => added token claims expiresAt verified entry same within)
    · rw [result]
      unfold resolveServiceAccount
      split
      · exact sweptAll
      · exact sweptAll
  · intro cookie
    rw [resolveSession_bearers]
    exact all

/-- What a request does to the session cache. -/
theorem authorize_sessions (P : K → Entry Claims → Prop) (all : caches.sessions.All P)
    (added : ∀ cookie opened, ports.openHostSession request.host cookie now = some opened →
      ∀ entry : Entry Claims, entry.value = opened.claims →
        entry.expiresAt.secs ≤ opened.expiresAt.secs →
        P (scopedFingerprint digest request.host.text cookie) entry) :
    (authorizeResolved digest ports enforcement caches request presented now).2.sessions.All P := by
  refine authorize_caches digest ports request presented now enforcement caches
    (fun after => after.sessions.All P) all ?_ ?_
  · intro token _ _
    rw [resolveBearer_sessions]
    exact all
  · intro cookie
    have held := IdentityCache.all_get P caches.sessions
      (scopedFingerprint digest request.host.text cookie) now all
    have session : ∀ (c : Caches K) key claims, c.sessions.All P →
        (asSession ports c key claims).2.sessions.All P := by
      intro c key claims kept
      unfold asSession
      split
      · exact IdentityCache.all_forget P _ _ kept
      · exact kept
    unfold resolveSession
    dsimp only
    split
    · exact session _ _ _ held
    · split
      · rename_i opened opens
        exact session _ _ _ (IdentityCache.all_insert P _ _ _ _ _ held
          fun entry same _ within _ => added cookie opened opens entry same within)
      · exact held

/-- A caller is a workspace by its token only from the service-account cache or from the
workload port. -/
theorem authorize_serviceAccount_cases (name : NamespaceName)
    (h : (authorizeResolved digest ports enforcement caches request presented now).1.credential =
      .serviceAccount name) :
    ∃ token, presented.token = some token ∧
      ((caches.serviceAccounts.get (fingerprint digest token) now).1 = some name ∨
        (consulted digest ports caches request presented now = some token ∧
          ∃ identity, ports.namespaceOfServiceAccount token now = some identity)) := by
  have person : ∀ (c : Caches K) token claims,
      (asPerson digest ports c token claims).1 ≠ .serviceAccount name := by
    intro c token claims
    unfold asPerson
    split
    · simp
    · simp
  have session : ∀ (c : Caches K) key claims, (asSession ports c key claims).1 ≠ .serviceAccount name := by
    intro c key claims
    unfold asSession
    split
    · simp
    · simp
  unfold authorizeResolved at h
  by_cases matters : resolves ports request = true
  · simp only [matters, if_true] at h
    unfold resolve at h
    cases presentedToken : presented.token with
    | none =>
      simp only [presentedToken] at h
      cases cookie : presented.sealedCookie with
      | some cookie' =>
        simp only [cookie, resolveSession] at h
        split at h
        · exact absurd h (session _ _ _)
        · split at h
          · exact absurd h (session _ _ _)
          · cases h
      | none =>
        simp only [cookie] at h
        split at h
        · cases h
        · cases h
    | some token =>
      refine ⟨token, rfl, ?_⟩
      simp only [presentedToken] at h
      rcases resolveBearer_cases digest ports caches token now with
        ⟨claims, -, result⟩ | ⟨found, -, hit, result⟩ | ⟨claims, expiresAt, -, -, result⟩ |
          ⟨missed, notOurs, result⟩
      · rw [result] at h
        exact absurd h (person _ _ _)
      · rw [result] at h
        cases h
        exact Or.inl hit
      · rw [result] at h
        exact absurd h (person _ _ _)
      · rw [result] at h
        have asked : consulted digest ports caches request presented now = some token := by
          simp [consulted, presentedToken, matters, missed.1, missed.2, notOurs]
        unfold resolveServiceAccount at h
        split at h
        · rename_i identity answer
          exact Or.inr ⟨asked, identity, answer⟩
        · cases h
  · simp only [matters, Bool.false_eq_true, if_false] at h
    cases h

end Gateway

end WeeboSi.EndpointAuth
