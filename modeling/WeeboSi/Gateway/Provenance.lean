import WeeboSi.Gateway.SignIn
import WeeboSi.Lib.Run

/-!
# Every session goes back to a sign-in

Requests to any number of replicas, in any order. A request carries the replica that answers it, with
the keys, the settings and the catalogue it has then, and whatever texts its sender likes. The one
assumption about senders is the ciphers' own: a text that opens was sealed by a replica before.
-/
namespace WeeboSi.Gateway
open WeeboSi.Lib WeeboSi.EndpointAuth

/-! ## Requests -/

/-- What a request asks for, with the random values that are drawn for it. -/
inductive Asked (K : Type) where
  | start (rd verifier id : Option Text) (nonce : Option Nonce)
  | callback (cookie code state : Option Text) (nonce : Option Nonce)
  | exchange (cookie rd id : Option Text) (ssoNonce nonce : Option Nonce)
  | redeem (redeemed : IdentityCache K Unit) (host : Host) (grant uri : Text) (nonce : Option Nonce)
  | visit (host : Host) (cookie : Option Text) (nonce : Option Nonce)

structure Handled (Key K : Type) where
  replica : Replica Key
  now : Timestamp
  asked : Asked K

/-- A text that left a replica, and what was sealed into it. -/
structure Issued where
  text : Text
  value : SealedValue
  binding : Binding

section Run
variable {Key K : Type} [DecidableEq K] (lib : Primitives Key) (grantDigest : List UInt8 → K)

namespace Handled
variable (request : Handled Key K)

/-- The sealed texts in the answer. -/
def issued : List Issued :=
  match request.asked with
  | .start rd verifier id nonce =>
    match request.replica.oidcStart lib rd verifier id nonce request.now with
    | .sent login sealed _ => [⟨sealed, .login login, .loginState⟩]
    | _ => []
  | .callback cookie code state nonce =>
    match request.replica.oidcCallback lib cookie code state nonce request.now with
    | .signedIn sso _ => [⟨sso.sealed, .payload sso.payload, .sso⟩]
    | _ => []
  | .exchange cookie rd id ssoNonce nonce =>
    match request.replica.exchangeSession lib cookie rd id ssoNonce nonce request.now with
    | .answered host (.granted sso grant refreshed) =>
      refreshed.toList.map (fun sealed => ⟨sealed, .payload sso, .sso⟩) ++
        [⟨grant.sealed, .payload grant.payload, .hostBound host.text⟩]
    | _ => []
  | .redeem redeemed host grant uri nonce =>
    match (redeem (request.replica.sealSession lib) (request.replica.openSession lib) grantDigest
        request.replica.config redeemed host grant uri nonce request.now).1 with
    | .ok answer => [⟨answer.cookie.sealed, .payload answer.cookie.payload, .hostBound host.text⟩]
    | .error _ => []
  | .visit host cookie nonce =>
    match slide (request.replica.sealSession lib) (request.replica.openSession lib)
        request.replica.config.session host cookie nonce request.now with
    | some (minted, _) => [⟨minted.sealed, .payload minted.payload, .hostBound host.text⟩]
    | none => []

/-- What a request offers a replica to open, and as what. -/
def offered : List (Text × Binding) :=
  match request.asked with
  | .start .. => []
  | .callback cookie .. => cookie.toList.map (·, .loginState)
  | .exchange cookie .. => cookie.toList.map (·, .sso)
  | .redeem _ host grant .. => [(grant, .hostBound host.text)]
  | .visit host cookie _ => cookie.toList.map (·, .hostBound host.text)

end Handled

/-- The texts that have left the replicas. -/
def issuedIn (past : List (Handled Key K)) : List Issued := past.flatMap (Handled.issued lib grantDigest)

/-- Nobody but a replica seals. -/
def Unforged (past : List (Handled Key K)) (codec : SealedCodec Key) (text : Text) (binding : Binding) : Prop :=
  (codec.openJson lib.aead text binding).isSome = true → ∃ record ∈ issuedIn lib grantDigest past, record.text = text

def grow (past : List (Handled Key K)) (request : Handled Key K) : List (Handled Key K) := past ++ [request]

def OffersIssued (past : List (Handled Key K)) (request : Handled Key K) : Prop :=
  ∀ offer ∈ request.offered, Unforged lib grantDigest past request.replica.codec offer.1 offer.2

/-! ## What a session goes back to -/

/-- A sign-in was begun at `/oidc/start`, for the gateway's own page or an endpoint. -/
def Begun (past : List (Handled Key K)) (login : LoginState) : Prop :=
  ∃ request ∈ past, ∃ rd nonce,
    request.asked = .start rd (some login.verifier) (some login.state) nonce ∧ login.returnTo = rd.getD [] ∧
    (login.returnTo = [] ∨ ∃ host, endpointTarget request.replica.scope login.returnTo = some host) ∧
    login.expiresAt = request.now.plusSecs loginStateTtlSecs

/-- The identity provider's word for a session: a code exchanged with the verifier of a sign-in that was
begun before, under its state and in its time, and every renewal at the token endpoint since. -/
inductive SignedIn : List (Handled Key K) → LoginState → SealedPayload → Prop where
  | exchanged (past later : List (Handled Key K)) (request : Handled Key K) (login : LoginState)
      (cookie : Option Text) (code state : Text) (nonce : Option Nonce) (oidc : OidcClient) (tokens : TokenResponse)
      (claims : Claims) (asked : request.asked = .callback cookie (some code) (some state) nonce)
      (begun : Begun past login) (inTime : request.now.secs < login.expiresAt.secs)
      (same : lib.digest (utf8 login.state) = lib.digest (utf8 state))
      (provider : request.replica.oidc = some oidc) (answered : oidc.exchange code login.verifier = some tokens)
      (verified : request.replica.claimsOfIdToken tokens.idToken request.now = some claims) :
      SignedIn (past ++ request :: later) login
        (request.replica.sessionOf claims claims.session tokens.refreshToken request.now)
  | renewed (past later : List (Handled Key K)) (request : Handled Key K) (login : LoginState)
      (sso : SealedPayload) (refresh : Text) (oidc : OidcClient) (tokens : TokenResponse) (claims : Claims)
      (earlier : SignedIn past login sso) (live : request.now.secs < sso.expiresAt.secs)
      (unrevoked : sso.session.any request.replica.isRevoked = false) (held : sso.refresh = some refresh)
      (provider : request.replica.oidc = some oidc) (answered : oidc.refresh refresh = some tokens)
      (verified : request.replica.claimsOfIdToken tokens.idToken request.now = some claims) :
      SignedIn (past ++ request :: later) login
        (request.replica.sessionOf claims (claims.session.or sso.session) (tokens.refreshToken.or (some refresh))
          request.now)

/-- A grant was asked for on a host that the gateway governs. -/
def Targeted (past : List (Handled Key K)) (host : Text) : Prop :=
  ∃ request ∈ past, ∃ cookie target id ssoNonce nonce parsed,
    request.asked = .exchange cookie (some target) id ssoNonce nonce ∧
    endpointTarget request.replica.scope target = some parsed ∧ parsed.text = host

/-- `payload` speaks for the session `sso`, and as a host cookie no longer than it. -/
structure SpeaksFor (sso payload : SealedPayload) : Prop where
  username : payload.username = sso.username
  groups : payload.groups = sso.groups
  session : payload.session = sso.session
  sessionExpiresAt : payload.sessionExpiresAt = some sso.expiresAt
  expiresAt : payload.grantId = none → payload.expiresAt.secs ≤ sso.expiresAt.secs

/-- What stands behind a sealed text. -/
def Backing (past : List (Handled Key K)) (record : Issued) : Prop :=
  match record.value, record.binding with
  | .login login, .loginState => Begun past login
  | .payload payload, .sso => ∃ login, SignedIn lib past login payload
  | .payload payload, .hostBound host =>
    Targeted past host ∧ ∃ login sso, SignedIn lib past login sso ∧ SpeaksFor sso payload
  | _, _ => False

/-! ## Longer histories -/

omit [DecidableEq K] in
theorem begun_append (past later : List (Handled Key K)) (login : LoginState) (begun : Begun past login) :
    Begun (past ++ later) login := by
  obtain ⟨request, member, rest⟩ := begun
  exact ⟨request, List.mem_append_left _ member, rest⟩

omit [DecidableEq K] in
theorem signedIn_append (past later : List (Handled Key K)) (login : LoginState) (sso : SealedPayload)
    (signedIn : SignedIn lib past login sso) : SignedIn lib (past ++ later) login sso := by
  cases signedIn with
  | exchanged past more request _ cookie code state nonce oidc tokens claims asked begun inTime same provider
      answered verified =>
    rw [List.append_assoc]
    exact .exchanged past (more ++ later) request login cookie code state nonce oidc tokens claims asked begun
      inTime same provider answered verified
  | renewed past more request _ sso refresh oidc tokens claims earlier live unrevoked held provider answered
      verified =>
    rw [List.append_assoc]
    exact .renewed past (more ++ later) request login sso refresh oidc tokens claims earlier live unrevoked held
      provider answered verified

omit [DecidableEq K] in
theorem targeted_append (past later : List (Handled Key K)) (host : Text) (targeted : Targeted past host) :
    Targeted (past ++ later) host := by
  obtain ⟨request, member, rest⟩ := targeted
  exact ⟨request, List.mem_append_left _ member, rest⟩

omit [DecidableEq K] in
theorem backing_append (past later : List (Handled Key K)) (record : Issued) (backing : Backing lib past record) :
    Backing lib (past ++ later) record := by
  obtain ⟨text, value, binding⟩ := record
  cases value with
  | login login =>
    cases binding with
    | loginState => exact begun_append past later login backing
    | sso | hostBound host => exact backing
  | payload payload =>
    cases binding with
    | loginState => exact backing
    | sso =>
      obtain ⟨login, signedIn⟩ := backing
      exact ⟨login, signedIn_append lib past later login payload signedIn⟩
    | hostBound host =>
      obtain ⟨targeted, login, sso, signedIn, speaks⟩ := backing
      exact ⟨targeted_append past later host targeted, login, sso,
        signedIn_append lib past later login sso signedIn, speaks⟩

omit [DecidableEq K] in
/-- The session was proved at a request, and ends the configured time after it. -/
theorem signedIn_proved (past : List (Handled Key K)) (login : LoginState) (sso : SealedPayload)
    (signedIn : SignedIn lib past login sso) :
    ∃ request ∈ past, sso.provedAt = request.now ∧
      sso.expiresAt = request.now.plusSecs request.replica.config.session.ssoTtlSecs := by
  cases signedIn with
  | exchanged past more request => exact ⟨request, by simp, rfl, rfl⟩
  | renewed past more request => exact ⟨request, by simp, rfl, rfl⟩

/-! ## What each handler answers -/

omit [DecidableEq K] K in
theorem oidcStart_sent (replica : Replica Key) (rd verifier id : Option Text) (nonce : Option Nonce) (now : Timestamp)
    (login : LoginState) (sealed location : Text)
    (sent : replica.oidcStart lib rd verifier id nonce now = .sent login sealed location) :
    verifier = some login.verifier ∧ id = some login.state ∧ login.returnTo = rd.getD [] ∧
      (login.returnTo = [] ∨ ∃ host, endpointTarget replica.scope login.returnTo = some host) ∧
      login.expiresAt = now.plusSecs loginStateTtlSecs ∧
      replica.codec.sealLoginState lib.aead lib.json nonce login = some sealed := by
  unfold Replica.oidcStart at sent
  split at sent
  · cases sent
  · split at sent
    · cases sent
    · rename_i oidc provider
      dsimp only at sent
      split at sent
      · cases sent
      · rename_i endpoint
        split at sent
        · cases sent
        · rename_i minted
          cases sent
          simp only [Replica.startLogin, Option.bind_eq_bind, Option.bind_eq_some_iff, Option.some.injEq,
            Prod.mk.injEq] at minted
          obtain ⟨drawn, rfl, state, rfl, text, sealed, rfl, rfl, rfl⟩ := minted
          refine ⟨rfl, rfl, rfl, ?_, rfl, sealed⟩
          by_cases empty : rd.getD [] = []
          · exact Or.inl empty
          · exact Or.inr (Option.ne_none_iff_exists'.mp fun none_ => endpoint ⟨empty, none_⟩)

omit [DecidableEq K] K in
theorem foldl_or_xor_eq_zero (pairs : List (UInt8 × UInt8)) (acc : UInt8)
    (zero : pairs.foldl (fun acc pair => acc ||| (pair.1 ^^^ pair.2)) acc = 0) :
    acc = 0 ∧ ∀ pair ∈ pairs, pair.1 = pair.2 := by
  induction pairs generalizing acc with
  | nil => exact ⟨zero, by simp⟩
  | cons pair pairs ih =>
    obtain ⟨first, rest⟩ := ih _ zero
    obtain ⟨before, here⟩ := UInt8.or_eq_zero_iff.mp first
    exact ⟨before, List.forall_mem_cons.mpr ⟨UInt8.xor_eq_zero_iff.mp here, rest⟩⟩

omit [DecidableEq K] K in
/-- No byte of the digests differs. -/
theorem constantTimeEq_digest (left right : Text) (same : constantTimeEq lib.digest left right = true) :
    lib.digest (utf8 left) = lib.digest (utf8 right) := by
  have pairs := (foldl_or_xor_eq_zero _ 0 (beq_iff_eq.mp same)).2
  apply Vector.ext
  intro i bound
  have member : ((lib.digest (utf8 left))[i], (lib.digest (utf8 right))[i]) ∈
      (lib.digest (utf8 left)).toList.zip (lib.digest (utf8 right)).toList := by
    rw [List.mem_iff_getElem]
    exact ⟨i, by simpa using bound, by simp⟩
  exact pairs _ member

omit [DecidableEq K] K in
theorem sealPayload_sso (replica : Replica Key) (nonce : Option Nonce) (payload : SealedPayload) (sealed : Text)
    (seals : sealPayload (replica.sealSession lib) nonce payload .sso = some sealed) :
    replica.sealSession lib nonce payload .sso = some sealed := by
  rwa [sealPayload, if_neg (by simp)] at seals

omit [DecidableEq K] K in
theorem oidcCallback_signedIn (replica : Replica Key) (cookie code state : Option Text) (nonce : Option Nonce)
    (now : Timestamp) (sso : Minted) (location : Option Text)
    (answer : replica.oidcCallback lib cookie code state nonce now = .signedIn sso location) :
    ∃ oidc code' state' text login tokens claims, replica.oidc = some oidc ∧ code = some code' ∧
      state = some state' ∧ cookie = some text ∧
      replica.codec.openLoginState lib.aead lib.json text now = some login ∧
      lib.digest (utf8 login.state) = lib.digest (utf8 state') ∧ oidc.exchange code' login.verifier = some tokens ∧
      replica.claimsOfIdToken tokens.idToken now = some claims ∧
      sso.payload = replica.sessionOf claims claims.session tokens.refreshToken now ∧
      replica.sealSession lib nonce sso.payload .sso = some sso.sealed := by
  unfold Replica.oidcCallback at answer
  split at answer
  · cases answer
  · split at answer
    · cases answer
    · rename_i oidc provider
      split at answer
      · rename_i code' state'
        split at answer
        · cases answer
        · rename_i login stored
          split at answer
          · cases answer
          · rename_i same
            split at answer
            · cases answer
            · rename_i tokens exchanged
              split at answer
              · cases answer
              · rename_i claims verified
                split at answer
                · cases answer
                · rename_i minted mints
                  cases answer
                  obtain ⟨text, rfl, opens⟩ := Option.bind_eq_some_iff.mp stored
                  obtain ⟨sealed, seals, rfl⟩ := Option.map_eq_some_iff.mp mints
                  have equal := constantTimeEq_digest lib login.state state' (by simpa using same)
                  exact ⟨oidc, code', state', text, login, tokens, claims, provider, rfl, rfl, rfl, opens, equal,
                    exchanged, verified, rfl, sealPayload_sso lib replica nonce _ sealed seals⟩
      · cases answer

/-- A session as it was, or its renewal. -/
inductive Revalidated (replica : Replica Key) (nonce : Option Nonce) (now : Timestamp) (sso : SealedPayload) :
    SealedPayload → Option Text → Prop where
  | kept : Revalidated replica nonce now sso sso none
  | renewed (refresh sealed : Text) (oidc : OidcClient) (tokens : TokenResponse) (claims : Claims)
      (held : sso.refresh = some refresh) (provider : replica.oidc = some oidc)
      (answered : oidc.refresh refresh = some tokens)
      (verified : replica.claimsOfIdToken tokens.idToken now = some claims)
      (seals : replica.sealSession lib nonce (replica.sessionOf claims (claims.session.or sso.session)
        (tokens.refreshToken.or (some refresh)) now) .sso = some sealed) :
      Revalidated replica nonce now sso (replica.sessionOf claims (claims.session.or sso.session)
        (tokens.refreshToken.or (some refresh)) now) (some sealed)

omit [DecidableEq K] K in
theorem revalidate_cases (replica : Replica Key) (nonce : Option Nonce) (now : Timestamp) (sso after : SealedPayload)
    (refreshed : Option Text) (answer : replica.revalidate lib nonce now sso = some (after, refreshed)) :
    Revalidated lib replica nonce now sso after refreshed := by
  unfold Replica.revalidate at answer
  split at answer
  · cases answer
    exact .kept
  · split at answer
    · rename_i oidc refresh provider held
      simp only [Option.bind_eq_bind, Option.bind_eq_some_iff, Option.some.injEq, Prod.mk.injEq] at answer
      obtain ⟨tokens, answered, claims, verified, sealed, seals, rfl, rfl⟩ := answer
      exact .renewed refresh sealed oidc tokens claims held provider answered verified
        (sealPayload_sso lib replica nonce _ sealed seals)
    · cases answer
      exact .kept

omit [DecidableEq K] K in
theorem exchangeSession_granted (replica : Replica Key) (cookie rd id : Option Text) (ssoNonce nonce : Option Nonce)
    (now : Timestamp) (host : Host) (sso : SealedPayload) (grant : Minted) (refreshed : Option Text)
    (answer : replica.exchangeSession lib cookie rd id ssoNonce nonce now =
      .answered host (.granted sso grant refreshed)) :
    ∃ target text earlier grantId, rd = some target ∧ endpointTarget replica.scope target = some host ∧
      cookie = some text ∧ openSealed (replica.openSession lib) text .sso now = some earlier ∧
      earlier.session.any replica.isRevoked = false ∧
      Revalidated lib replica ssoNonce now earlier sso refreshed ∧
      mint (replica.sealSession lib) nonce (mintGrant replica.config sso grantId now) host = some grant := by
  unfold Replica.exchangeSession at answer
  split at answer
  · cases answer
  · split at answer
    · cases answer
    · rename_i target
      split at answer
      · cases answer
      · rename_i host' governed
        simp only [Replica.GrantAnswer.answered.injEq] at answer
        obtain ⟨rfl, answer⟩ := answer
        obtain ⟨grantId, mints⟩ := hostSession_granted _ _ _ _ _ _ _ _ _ _ _ _ _ answer
        unfold hostSession at answer
        split at answer
        · cases answer
        · rename_i earlier opens
          split at answer
          · cases answer
          · rename_i unrevoked
            split at answer
            · cases answer
            · rename_i after refreshed' proved
              split at answer
              · cases answer
              · split at answer
                · cases answer
                · cases answer
                  obtain ⟨text, rfl, opens⟩ := Option.bind_eq_some_iff.mp opens
                  exact ⟨target, text, earlier, grantId, rfl, governed, rfl, opens, by simpa using unrevoked,
                    revalidate_cases lib replica ssoNonce now earlier _ _ proved, mints⟩

/-! ## Opening what was sealed -/

/-- A replica sealed the text. -/
def Issued.Sealed (record : Issued) : Prop :=
  ∃ (codec : SealedCodec Key) (nonce : Option Nonce),
    codec.sealValue lib.aead lib.json nonce record.value record.binding = some record.text

/-- The JSON of a value. -/
def SealedValue.written (json : Serde) : SealedValue → Option Bytes
  | .payload session => json.payloadToVec session
  | .login state => json.loginToVec state

omit K [DecidableEq K] in
/-- More keys open what fewer opened. -/
theorem openJson_more (codec : SealedCodec Key) (more : List Key) (text : Text) (binding : Binding) (bytes : Bytes)
    (opens : codec.openJson lib.aead text binding = some bytes) :
    (SealedCodec.mk (codec.ciphers ++ more)).openJson lib.aead text binding = some bytes := by
  unfold SealedCodec.openJson at opens ⊢
  cases cut : splitOnce '.' text with
  | none => simp [cut] at opens
  | some parts =>
    obtain ⟨version, rest⟩ := parts
    simp only [cut, Option.bind_eq_bind, Option.bind_some] at opens ⊢
    split at opens
    · cases opens
    · rename_i known
      rw [if_neg known]
      simp only [Option.bind_eq_some_iff] at opens ⊢
      obtain ⟨inner, cutInner, nonce, nonceRead, ciphertext, read, opens⟩ := opens
      refine ⟨inner, cutInner, nonce, nonceRead, ciphertext, read, ?_⟩
      split at opens
      · cases opens
      · rename_i sized
        rw [if_neg sized, List.findSome?_append, opens]
        rfl

omit K [DecidableEq K] in
theorem sealValue_eq_some (codec : SealedCodec Key) (nonce : Option Nonce) (value : SealedValue) (binding : Binding)
    (text : Text) (sealed : codec.sealValue lib.aead lib.json nonce value binding = some text) :
    ∃ bytes, value.written lib.json = some bytes ∧ codec.sealJson lib.aead nonce bytes binding = some text := by
  cases value with
  | payload payload =>
    obtain ⟨-, bytes, written, sealed⟩ := (sealValue_payload _ _ _ _ _ _ _).mp sealed
    exact ⟨bytes, written, sealed⟩
  | login login =>
    cases binding with
    | loginState =>
      obtain ⟨bytes, written, sealed⟩ := Option.bind_eq_some_iff.mp sealed
      exact ⟨bytes, written, sealed⟩
    | sso => cases sealed
    | hostBound host => cases sealed

variable [DecidableEq Key] (ideal : lib.aead.Ideal)
include ideal

omit [DecidableEq K] K in
/-- Whatever keys it is opened with, a text opens to what was sealed into it. -/
theorem opened_sealed (record : Issued) (sealed : record.Sealed lib) (opener : SealedCodec Key) (binding : Binding)
    (bytes : Bytes) (opens : opener.openJson lib.aead record.text binding = some bytes) :
    binding.aad = record.binding.aad ∧ record.value.written lib.json = some bytes := by
  obtain ⟨codec, nonce, sealed⟩ := sealed
  obtain ⟨plaintext, written, sealed⟩ := sealValue_eq_some lib codec nonce _ _ _ sealed
  cases first : codec.ciphers.head? with
  | none => simp [SealedCodec.sealJson, first] at sealed
  | some key =>
    have more := openJson_more lib opener [key] record.text binding bytes opens
    rw [openJson_sealJson codec _ lib.aead ideal key first (by simp) nonce plaintext record.text record.binding binding
      sealed] at more
    split at more
    · rename_i same
      exact ⟨same, written.trans more⟩
    · cases more

/-! ## Every text is backed -/

section Backed
variable (reads : ∀ value, lib.json.Reads value) (past : List (Handled Key K))

/-- What left the replicas was sealed by one of them, for a session that goes back to a sign-in. -/
def Backed : Prop := ∀ record ∈ issuedIn lib grantDigest past, record.Sealed lib ∧ Backing lib past record

omit [DecidableEq K] [DecidableEq Key] ideal in
theorem used_of_backing (record : Issued) (backing : Backing lib past record) : record.binding.Used := by
  obtain ⟨text, value, binding⟩ := record
  cases binding with
  | sso | loginState => trivial
  | hostBound host =>
    cases value with
    | login login => exact backing.elim
    | payload payload =>
      obtain ⟨⟨-, -, -, -, -, -, -, parsed, -, -, same⟩, -⟩ := backing
      exact ⟨parsed, same.symm⟩

include reads

/-- What opens as a session was sealed as one, under the same binding. -/
theorem opened_session (backed : Backed lib grantDigest past) (codec : SealedCodec Key) (text : Text)
    (binding : Binding) (used : binding.Used) (payload : SealedPayload)
    (unforged : Unforged lib grantDigest past codec text binding)
    (opens : codec.openPayload lib.aead lib.json text binding = some payload) :
    Backing lib past ⟨text, .payload payload, binding⟩ := by
  obtain ⟨bytes, opened, read⟩ := Option.bind_eq_some_iff.mp opens
  obtain ⟨record, member, rfl⟩ := unforged (by simp [opened])
  obtain ⟨sealed, backing⟩ := backed record member
  obtain ⟨aad, written⟩ := opened_sealed lib ideal record sealed codec binding bytes opened
  have recordUsed := used_of_backing lib past record backing
  have same := (aad_eq_iff_of_used record.binding binding recordUsed).mp aad
  obtain ⟨text, value, bound⟩ := record
  cases value with
  | login login =>
    -- A sign-in's bytes are read as no session.
    rw [(reads (.login login) bytes written).2] at read
    cases read
  | payload sealedPayload =>
    rw [reads (.payload sealedPayload) bytes written] at read
    cases read
    rcases same with rfl | ⟨-, rfl⟩ | ⟨-, rfl⟩
    · exact backing
    · obtain ⟨parsed, spelt⟩ := used
      exact absurd spelt.symm (host_ne_purpose parsed ssoPurpose (by decide))
    · obtain ⟨parsed, spelt⟩ := used
      exact absurd spelt.symm (host_ne_purpose parsed loginStatePurpose (by decide))

/-- What opens as a sign-in was begun as one. -/
theorem opened_login (backed : Backed lib grantDigest past) (codec : SealedCodec Key) (text : Text)
    (now : Timestamp) (login : LoginState) (unforged : Unforged lib grantDigest past codec text .loginState)
    (opens : codec.openLoginState lib.aead lib.json text now = some login) :
    Begun past login ∧ now.secs < login.expiresAt.secs := by
  obtain ⟨found, live⟩ := Option.filter_eq_some_iff.mp opens
  obtain ⟨bytes, opened, read⟩ := Option.bind_eq_some_iff.mp found
  obtain ⟨record, member, rfl⟩ := unforged (by simp [opened])
  obtain ⟨sealed, backing⟩ := backed record member
  obtain ⟨aad, written⟩ := opened_sealed lib ideal record sealed codec .loginState bytes opened
  have same := (aad_eq_iff_of_used record.binding .loginState (used_of_backing lib past record backing)).mp aad
  have bound : record.binding = .loginState := by simpa [eq_comm] using same
  obtain ⟨text, value, binding⟩ := record
  subst bound
  cases value with
  | payload payload => exact backing.elim
  | login sealedLogin =>
    rw [(reads (.login sealedLogin) bytes written).1] at read
    cases read
    exact ⟨backing, by simpa using live⟩

omit reads ideal [DecidableEq K] [DecidableEq Key] K in
/-- A session sealed by a replica. -/
theorem sealed_session (replica : Replica Key) (nonce : Option Nonce) (payload : SealedPayload) (binding : Binding)
    (text : Text) (session : binding ≠ .loginState)
    (seals : replica.sealSession lib nonce payload binding = some text) :
    Issued.Sealed lib ⟨text, .payload payload, binding⟩ := by
  obtain ⟨bytes, written, sealed⟩ := Option.bind_eq_some_iff.mp seals
  exact ⟨replica.codec, nonce, (sealValue_payload _ _ _ _ _ _ _).mpr ⟨session, bytes, written, sealed⟩⟩

/-- The request and what came before it. -/
def Answers (request : Handled Key K) (record : Issued) : Prop :=
  record.Sealed lib ∧ Backing lib (past ++ [request]) record

section Step
variable (backed : Backed lib grantDigest past) (request : Handled Key K)
  (offers : OffersIssued lib grantDigest past request)
include backed offers

omit reads ideal [DecidableEq Key] backed offers in
theorem start_answers (rd verifier id : Option Text) (nonce : Option Nonce)
    (asked : request.asked = .start rd verifier id nonce) (record : Issued)
    (member : record ∈ request.issued lib grantDigest) : Answers lib past request record := by
  unfold Handled.issued at member
  simp only [asked] at member
  split at member
  · rename_i login sealed location sent
    obtain rfl := List.mem_singleton.mp member
    obtain ⟨rfl, rfl, returnTo, endpoint, expiry, seals⟩ := oidcStart_sent lib request.replica _ _ _ _ _ _ _ _ sent
    exact ⟨⟨request.replica.codec, nonce, seals⟩, request, by simp, rd, nonce, asked, returnTo, endpoint, expiry⟩
  · cases member

theorem callback_answers (cookie code state : Option Text) (nonce : Option Nonce)
    (asked : request.asked = .callback cookie code state nonce) (record : Issued)
    (member : record ∈ request.issued lib grantDigest) : Answers lib past request record := by
  unfold Handled.issued at member
  simp only [asked] at member
  split at member
  · rename_i sso location signedIn
    obtain rfl := List.mem_singleton.mp member
    obtain ⟨oidc, code, state, text, login, tokens, claims, provider, rfl, rfl, rfl, opens, same, answered, verified,
      payload, seals⟩ := oidcCallback_signedIn lib request.replica _ _ _ _ _ _ _ signedIn
    obtain ⟨begun, inTime⟩ := opened_login lib grantDigest ideal reads past backed request.replica.codec text
      request.now login (offers (text, .loginState) (by simp [Handled.offered, asked])) opens
    refine ⟨sealed_session lib request.replica nonce _ _ _ (by simp) seals, login, ?_⟩
    rw [payload]
    exact .exchanged past [] request login (some text) code state nonce oidc tokens claims asked begun inTime same
      provider answered verified
  · cases member

theorem exchange_answers (cookie rd id : Option Text) (ssoNonce nonce : Option Nonce)
    (asked : request.asked = .exchange cookie rd id ssoNonce nonce) (record : Issued)
    (member : record ∈ request.issued lib grantDigest) : Answers lib past request record := by
  unfold Handled.issued at member
  simp only [asked] at member
  split at member
  · rename_i host sso grant refreshed granted
    obtain ⟨target, text, earlier, grantId, rfl, governed, rfl, opens, unrevoked, proved, mints⟩ :=
      exchangeSession_granted lib request.replica _ _ _ _ _ _ _ _ _ _ granted
    have opened := openSealed_eq_some _ _ _ _ _ opens
    have live : request.now.secs < earlier.expiresAt.secs := by
      rw [openSealed, if_neg (by simp)] at opens
      simpa using (Option.filter_eq_some_iff.mp opens).2
    obtain ⟨login, signedIn⟩ := opened_session lib grantDigest ideal reads past backed request.replica.codec text .sso
      trivial earlier (offers (text, .sso) (by simp [Handled.offered, asked])) opened
    obtain ⟨same, seals⟩ := mint_eq_some _ _ _ _ _ mints
    -- The session the grant is minted for: the one presented, or its renewal.
    have session : SignedIn lib (past ++ [request]) login sso ∧
        ∀ sealed, refreshed = some sealed → Issued.Sealed lib ⟨sealed, .payload sso, .sso⟩ := by
      cases proved with
      | kept => exact ⟨signedIn_append lib past [request] login _ signedIn, by simp⟩
      | renewed refresh sealed oidc tokens claims held provider answered verified sealsSso =>
        refine ⟨.renewed past [] request login earlier refresh oidc tokens claims signedIn live unrevoked held provider
          answered verified, ?_⟩
        intro other isOther
        cases isOther
        exact sealed_session lib request.replica ssoNonce _ _ _ (by simp) sealsSso
    rcases List.mem_append.mp member with renewal | isGrant
    · obtain ⟨sealed, held, rfl⟩ := List.mem_map.mp renewal
      exact ⟨session.2 sealed (Option.mem_toList.mp held), login, session.1⟩
    · obtain rfl := List.mem_singleton.mp isGrant
      rw [same]
      refine ⟨sealed_session lib request.replica nonce _ _ _ (by simp) seals, ?_, login, sso, session.1, ?_⟩
      · exact ⟨request, by simp, some text, target, id, ssoNonce, nonce, host, asked, governed, rfl⟩
      · exact ⟨rfl, rfl, rfl, rfl, by simp [mintGrant]⟩
  · cases member

/-- A grant or a host cookie is replaced by a host cookie for the same session. -/
theorem host_answers (host : Host) (text : Text) (payload renewed : SealedPayload) (nonce : Option Nonce)
    (minted : Minted) (isOffered : (text, .hostBound host.text) ∈ request.offered)
    (opens : request.replica.openSession lib text (.hostBound host.text) = some payload)
    (speaks : ∀ sso, SpeaksFor sso payload → SpeaksFor sso renewed)
    (mints : mint (request.replica.sealSession lib) nonce renewed host = some minted) :
    Answers lib past request ⟨minted.sealed, .payload minted.payload, .hostBound host.text⟩ := by
  obtain ⟨same, seals⟩ := mint_eq_some _ _ _ _ _ mints
  obtain ⟨targeted, login, sso, signedIn, before⟩ := opened_session lib grantDigest ideal reads past backed
    request.replica.codec text (.hostBound host.text) ⟨host, rfl⟩ payload (offers _ isOffered) opens
  rw [same]
  exact ⟨sealed_session lib request.replica nonce _ _ _ (by simp) seals, targeted_append past [request] _ targeted,
    login, sso, signedIn_append lib past [request] login sso signedIn, speaks sso before⟩

theorem step_answers (record : Issued) (member : record ∈ request.issued lib grantDigest) :
    Answers lib past request record := by
  cases asked : request.asked with
  | start rd verifier id nonce =>
    exact start_answers lib grantDigest past request rd verifier id nonce asked record member
  | callback cookie code state nonce =>
    exact callback_answers lib grantDigest ideal reads past backed request offers cookie code state nonce asked record
      member
  | exchange cookie rd id ssoNonce nonce =>
    exact exchange_answers lib grantDigest ideal reads past backed request offers cookie rd id ssoNonce nonce asked
      record member
  | redeem redeemed host grant uri nonce =>
    unfold Handled.issued at member
    simp only [asked] at member
    split at member
    · rename_i answer redeems
      obtain rfl := List.mem_singleton.mp member
      obtain ⟨payload, opens, mints⟩ := redeem_ok _ _ grantDigest _ _ _ _ _ _ _ _ redeems
      refine host_answers lib grantDigest ideal reads past backed request offers host grant payload _ nonce answer.cookie
        (by simp [Handled.offered, asked]) opens ?_ mints
      intro sso speaks
      refine ⟨speaks.username, speaks.groups, speaks.session, speaks.sessionExpiresAt, ?_⟩
      intro
      rw [redeemedPayload, speaks.sessionExpiresAt]
      exact cappedExpiry_le _ _ _
    · cases member
  | visit host cookie nonce =>
    unfold Handled.issued at member
    simp only [asked] at member
    split at member
    · rename_i minted header slides
      obtain rfl := List.mem_singleton.mp member
      cases cookie with
      | none => simp [slide] at slides
      | some text =>
        obtain ⟨payload, renewed, opens, renews, mints⟩ := slide_eq_some _ _ _ _ _ _ _ _ _ slides
        refine host_answers lib grantDigest ideal reads past backed request offers host text payload renewed nonce minted
          (by simp [Handled.offered, asked]) opens ?_ mints
        intro sso speaks
        obtain ⟨cap, bound, -, capped, same⟩ := slid_eq_some payload renewed _ _ renews
        obtain rfl : cap = sso.expiresAt := Option.some.inj (bound.symm.trans speaks.sessionExpiresAt)
        rw [same]
        exact ⟨speaks.username, speaks.groups, speaks.session, speaks.sessionExpiresAt, fun _ => capped⟩
    · cases member

theorem step_backed : Backed lib grantDigest (grow past request) := by
  intro record member
  rw [issuedIn, grow, List.flatMap_append, List.mem_append] at member
  rcases member with before | here
  · obtain ⟨sealed, backing⟩ := backed record before
    exact ⟨sealed, backing_append lib past [request] record backing⟩
  · exact step_answers lib grantDigest ideal reads past backed request offers record (by simpa using here)

end Step

end Backed

omit [DecidableEq K] [DecidableEq Key] ideal in
theorem after_grow (past requests : List (Handled Key K)) : after grow past requests = past ++ requests := by
  induction requests generalizing past with
  | nil => simp [after]
  | cons request rest ih =>
    rw [after, List.foldl_cons]
    change after grow (past ++ [request]) rest = past ++ request :: rest
    rw [ih, List.append_assoc]
    rfl

/-- Whatever is asked of whatever replicas in whatever order, a session that a host accepts speaks for an
identity that the provider confirmed for a sign-in begun at the gateway, was asked for on that host, and
ends with that confirmation's session at the latest. -/
theorem session_goes_back_to_sign_in (reads : ∀ value, lib.json.Reads value) (requests : List (Handled Key K))
    (run : Along grow (OffersIssued lib grantDigest) [] requests) (codec : SealedCodec Key) (host : Host)
    (text : Text) (now : Timestamp) (unforged : Unforged lib grantDigest requests codec text (.hostBound host.text))
    (session : OpenedSession)
    (opens : openHostSession (codec.openPayload lib.aead lib.json) host text now = some session) :
    Targeted requests host.text ∧ ∃ login sso, SignedIn lib requests login sso ∧ session.claims = sso.claims ∧
      now.secs < session.expiresAt.secs ∧ session.expiresAt.secs ≤ sso.expiresAt.secs ∧
      ∃ request ∈ requests, sso.provedAt = request.now ∧
        sso.expiresAt = request.now.plusSecs request.replica.config.session.ssoTtlSecs := by
  have backed : Backed lib grantDigest requests := by
    have kept := after_of_invariant grow (Backed lib grantDigest) (OffersIssued lib grantDigest)
      (fun past request backed offers => step_backed lib grantDigest ideal reads past backed request offers) []
      (by intro record member; cases member) requests run
    rwa [after_grow] at kept
  obtain ⟨payload, opened, plain, live, rfl⟩ := (openHostSession_eq_some _ _ _ _ _).mp opens
  obtain ⟨targeted, login, sso, signedIn, speaks⟩ := opened_session lib grantDigest ideal reads requests backed codec
    text (.hostBound host.text) ⟨host, rfl⟩ payload unforged opened
  refine ⟨targeted, login, sso, signedIn, ?_, live, speaks.expiresAt plain, signedIn_proved lib requests login sso signedIn⟩
  rw [SealedPayload.claims, SealedPayload.claims, speaks.username, speaks.groups, speaks.session]

end Run

/-! ## A sign-in of alice's -/

namespace AliceSignsIn

def target : Text := "https://alice.weebo.si/".toList

theorem signIn_fits : 100 ≤ u64Max := by decide

theorem comesBack_fits : 110 ≤ u64Max := by decide

theorem asksForGrant_fits : 111 ≤ u64Max := by decide

theorem redeems_fits : 112 ≤ u64Max := by decide

def login : LoginState := ⟨target, "v".toList, "s".toList, ⟨700, by decide⟩⟩

def sso : SealedPayload :=
  ⟨"alice".toList, [], none, ⟨43310, by decide⟩, 0, none, ⟨110, comesBack_fits⟩, none, none⟩

def grant : SealedPayload := { sso with
  expiresAt := ⟨141, by decide⟩, grantId := some "g".toList, sessionExpiresAt := some ⟨43310, by decide⟩ }

def hostSession : SealedPayload := { sso with
  expiresAt := ⟨3712, by decide⟩, sessionExpiresAt := some ⟨43310, by decide⟩ }

def field (name value : String) : Text := '"' :: name.toList ++ '"' :: ':' :: value.toList

def object (fields : List Text) : Bytes := utf8 ('\x7b' :: [','].intercalate fields ++ ['\x7d'])

/-- The four values and their JSON. -/
def json : List (SealedValue × Bytes) :=
  [(.login login, object [field "rd" "\"https://alice.weebo.si/\"", field "v" "\"v\"", field "st" "\"s\"",
      field "e" "700"]),
    (.payload sso, object [field "u" "\"alice\"", field "g" "[]", field "e" "43310", field "gen" "0",
      field "i" "110"]),
    (.payload grant, object [field "u" "\"alice\"", field "g" "[]", field "e" "141", field "gen" "0",
      field "j" "\"g\"", field "i" "110", field "se" "43310"]),
    (.payload hostSession, object [field "u" "\"alice\"", field "g" "[]", field "e" "3712", field "gen" "0",
      field "i" "110", field "se" "43310"])]

/-- The value some bytes are the JSON of. -/
def read (bytes : Bytes) : Option SealedValue := (json.find? fun entry => entry.2 = bytes).map Prod.fst

def serde : Serde where
  payloadToVec payload := json.lookup (.payload payload)
  payloadFromSlice bytes := (read bytes).bind fun value =>
    match value with
    | .payload payload => some payload
    | .login _ => none
  loginToVec login := json.lookup (.login login)
  loginFromSlice bytes := (read bytes).bind fun value =>
    match value with
    | .login login => some login
    | .payload _ => none

theorem read_lookup (value : SealedValue) (bytes : Bytes) (written : json.lookup value = some bytes) :
    read bytes = some value := by
  have distinct : ∀ entry ∈ json, read entry.2 = some entry.1 := by decide +kernel
  obtain ⟨before, behind, same, -⟩ := List.lookup_eq_some_iff.mp written
  exact distinct (value, bytes) (by rw [same]; simp)

theorem serde_reads (value : SealedValue) : serde.Reads value := by
  cases value with
  | payload payload =>
    intro bytes written
    simp [serde, read_lookup (.payload payload) bytes written]
  | login login =>
    intro bytes written
    simp [serde, read_lookup (.login login) bytes written]

/-- The SHA-256 of the one state that is compared, and the challenge of the one verifier. -/
def lib : Primitives Bytes where
  aead := openAead
  json := serde
  digest _ := #v[4, 58, 113, 135, 116, 197, 114, 189, 138, 37, 173, 190, 177, 191, 205, 92, 2, 86, 174, 17, 206,
    207, 159, 156, 63, 146, 93, 14, 82, 190, 175, 137]
  pkceChallenge _ := "TJRIXgwhrmxBzh3-e2v6zupato5AokdvUCCOUm9QYIA".toList

def clientId : Text := "gateway".toList

def idToken : Text := "t".toList

def provider : OidcClient where
  authorizationEndpoint := "https://id.weebo.si/authorize".toList
  backchannelLogoutSupported := true
  clientId := clientId
  redirectUrl := plainConfig.redirectUrl
  exchange code verifier := if code = "c".toList ∧ verifier = "v".toList then some ⟨idToken, none⟩ else none
  refresh _ := none

def verifier : JwksVerifier where
  rules := none
  usernameClaim := "sub".toList
  groupsClaim := "groups".toList
  decodeVerified token :=
    if token = idToken then
      .ok (.object [("aud".toList, .string clientId), ("exp".toList, .number (.unsigned 400)),
        ("sub".toList, .string "alice".toList)])
    else .error .unverifiable

def replica : Replica Bytes where
  codec := ⟨[[1]]⟩
  config := plainConfig
  revalidation := ⟨.whenNoBackchannel, 3600⟩
  scope := returnScope
  oidc := some provider
  clientId := clientId
  verifier := verifier
  catalog := .default
  isRevoked _ := false
  underLimit := true

def sealedAs (value : SealedValue) (binding : Binding) : Text :=
  (replica.codec.sealValue lib.aead lib.json (some aliceNonce) value binding).getD []

def atHost : Binding := .hostBound returnHost.text

abbrev Request := Handled Bytes Bytes

def signIn : Request :=
  ⟨replica, ⟨100, signIn_fits⟩, .start (some target) (some "v".toList) (some "s".toList) (some aliceNonce)⟩

def comesBack : Request :=
  ⟨replica, ⟨110, comesBack_fits⟩, .callback (some (sealedAs (.login login) .loginState)) (some "c".toList)
    (some "s".toList) (some aliceNonce)⟩

def asksForGrant : Request :=
  ⟨replica, ⟨111, asksForGrant_fits⟩, .exchange (some (sealedAs (.payload sso) .sso)) (some target) (some "g".toList)
    (some aliceNonce) (some aliceNonce)⟩

def redeems : Request :=
  ⟨replica, ⟨112, redeems_fits⟩, .redeem (.new redeemedCapacity redeemedTtlSecs) returnHost
    (sealedAs (.payload grant) atHost) "/".toList (some aliceNonce)⟩

def requests : List Request := [signIn, comesBack, asksForGrant, redeems]

theorem issuedIn_of_mem (past : List Request) (request : Request) (member : request ∈ past) (text : Text)
    (issues : text ∈ (request.issued lib id).map Issued.text) :
    ∃ record ∈ issuedIn lib id past, record.text = text := by
  obtain ⟨record, issued, same⟩ := List.mem_map.mp issues
  exact ⟨record, List.mem_flatMap.mpr ⟨request, member, issued⟩, same⟩

theorem signIn_issues : sealedAs (.login login) .loginState ∈ (signIn.issued lib id).map Issued.text := by
  decide +kernel

theorem comesBack_issues : sealedAs (.payload sso) .sso ∈ (comesBack.issued lib id).map Issued.text := by
  decide +kernel

theorem asksForGrant_issues : sealedAs (.payload grant) atHost ∈ (asksForGrant.issued lib id).map Issued.text := by
  decide +kernel

theorem redeems_issues : sealedAs (.payload hostSession) atHost ∈ (redeems.issued lib id).map Issued.text := by
  decide +kernel

theorem requests_offer_issued : Along grow (OffersIssued lib id) [] requests := by
  refine ⟨?_, ?_, ?_, ?_, trivial⟩
  · intro offer member
    cases member
  · intro offer member _
    obtain rfl := List.mem_singleton.mp member
    exact issuedIn_of_mem _ signIn (by simp [grow]) _ signIn_issues
  · intro offer member _
    obtain rfl := List.mem_singleton.mp member
    exact issuedIn_of_mem _ comesBack (by simp [grow]) _ comesBack_issues
  · intro offer member _
    obtain rfl := List.mem_singleton.mp member
    exact issuedIn_of_mem _ asksForGrant (by simp [grow]) _ asksForGrant_issues

def opened : OpenedSession := ⟨⟨"alice".toList, [], none, none⟩, ⟨3712, by decide⟩⟩

theorem session_goes_back_to_sign_in_alice :
    openHostSession (replica.codec.openPayload lib.aead lib.json) returnHost
        (sealedAs (.payload hostSession) atHost) ⟨120, by decide⟩ = some opened ∧
      ∃ login sso, SignedIn lib requests login sso ∧ opened.claims = sso.claims := by
  have opens : openHostSession (replica.codec.openPayload lib.aead lib.json) returnHost
      (sealedAs (.payload hostSession) atHost) ⟨120, by decide⟩ = some opened := by decide +kernel
  have found := session_goes_back_to_sign_in lib id openAead_ideal serde_reads requests requests_offer_issued
    replica.codec returnHost _ ⟨120, by decide⟩
    (fun _ => issuedIn_of_mem requests redeems (by simp [requests]) _ redeems_issues) opened opens
  obtain ⟨-, login, sso, signedIn, same, -⟩ := found
  exact ⟨opens, login, sso, signedIn, same⟩

end AliceSignsIn

end WeeboSi.Gateway
