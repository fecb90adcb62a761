import WeeboSi.Gateway.Grants

/-!
# Host cookies

Source: bins/endpoint-gateway/src/http.rs:568-584, 616-686, 742-784, state.rs:500-522,
726-745 and adapters/session.rs:217-226. `sealJson` and `openJson` are the ciphers with the
JSON codec, `sealJson` with the nonce it draws; `revalidate` asks the identity provider.
`host_session` is taken from where its target is known to be an endpoint, and a redirect
to the sign-in is one answer.
-/
namespace WeeboSi.Gateway
open WeeboSi.Lib WeeboSi.EndpointAuth

def hostCookieName : Text := "__Host-weebo-endpoint".toList
def grantParam : Text := "__weebo_grant".toList

/-- A host cookie's expiry: `ttl` from now, and never past the session it came from. -/
def cappedExpiry (now : Timestamp) (ttl : Nat) (sessionExpiresAt : Option Timestamp) : Timestamp :=
  match sessionExpiresAt with
  | none => now.plusSecs ttl
  | some cap => .earlier (now.plusSecs ttl) cap

/-- The host cookie `payload` slides into at `now`. -/
def slid (payload : SealedPayload) (now : Timestamp) (ttl : Nat) : Option SealedPayload :=
  match payload.sessionExpiresAt with
  | none => none
  | some cap =>
    if now.secs < payload.expiresAt.secs - ttl / 2 then none
    else if (cappedExpiry now ttl (some cap)).secs ≤ payload.expiresAt.secs then none
    else some { payload with expiresAt := cappedExpiry now ttl (some cap) }

def stripQueryParam (uri name : Text) : Text :=
  match splitOnce '?' uri with
  | none => uri
  | some (path, query) =>
    let kept := (query.splitOn '&').filter fun pair =>
      let key := match splitOnce '=' pair with
        | some (key, _) => key
        | none => pair
      pair ≠ [] && key ≠ name
    if kept = [] then path else path ++ '?' :: ['&'].intercalate kept

/-- The same URL on the same host without the grant, when `uri` is a path. -/
def sameHostLocation (host : Host) (uri : Text) : Option Text :=
  if uri.head? = some '/' then
    some ("https://".toList ++ host.text ++ stripQueryParam uri grantParam)
  else none

/-- A payload that was sealed, and the text it was sealed to. -/
structure Minted where
  payload : SealedPayload
  sealed : Text
  deriving DecidableEq, Repr

def Minted.setCookie (minted : Minted) (now : Timestamp) : Text :=
  hostCookieName ++ '=' :: minted.sealed ++
    "; Path=/; Secure; HttpOnly; SameSite=Lax; Max-Age=".toList ++
    (toString (minted.payload.expiresAt.secs - now.secs)).toList

inductive RedeemRefusal where
  | notAPath | notUsableHere | notAGrant | alreadyUsed | notMinted
  deriving DecidableEq, Repr

def RedeemRefusal.status : RedeemRefusal → Nat
  | .notAPath => 400
  | .notUsableHere | .notAGrant | .alreadyUsed => 403
  | .notMinted => 500

def RedeemRefusal.text : RedeemRefusal → Text
  | .notAPath => "the forwarded URI is not a path".toList
  | .notUsableHere => "this grant is not usable here".toList
  | .notAGrant => "not a grant".toList
  | .alreadyUsed => "this grant has already been used".toList
  | .notMinted => "could not mint a session".toList

/-- The redirect that sets the host cookie. -/
structure Redeemed where
  location : Text
  cookie : Minted
  setCookie : Text
  deriving DecidableEq, Repr

inductive HostSessionAnswer where
  | signIn | noRandomness | notMinted
  | granted (sso : SealedPayload) (grant : Minted) (refreshed : Option Text)
  deriving DecidableEq, Repr

section Codec
variable {N K : Type} [DecidableEq K] (sealJson : N → SealedPayload → Binding → Option Text)
  (openJson : Text → Binding → Option SealedPayload) (digest : List UInt8 → K)

def sealPayload (nonce : N) (payload : SealedPayload) (binding : Binding) : Option Text :=
  if binding = .loginState then none else sealJson nonce payload binding

def mint (nonce : N) (payload : SealedPayload) (host : Host) : Option Minted :=
  (sealPayload sealJson nonce payload (.hostBound host.text)).map fun sealed => ⟨payload, sealed⟩

/-- Exchange the SSO cookie for a one-time grant on the target host. -/
def hostSession (isRevoked : SessionId → Bool)
    (revalidate : SealedPayload → Option (SealedPayload × Option Text)) (config : GatewayConfig)
    (host : Host) (cookie id : Option Text) (nonce : N) (now : Timestamp) : HostSessionAnswer :=
  match cookie.bind fun sealed => openSealed openJson sealed .sso now with
  | none => .signIn
  | some sso =>
    if sso.session.any isRevoked then .signIn
    else
      match revalidate sso with
      | none => .signIn
      | some (sso, refreshed) =>
        match id with
        | none => .noRandomness
        | some id =>
          match mint sealJson nonce (mintGrant config sso id now) host with
          | none => .notMinted
          | some grant => .granted sso grant refreshed

/-- The payload a grant is redeemed into. -/
def redeemedPayload (config : GatewayConfig) (grant : SealedPayload) (now : Timestamp) : SealedPayload :=
  { grant with
    expiresAt := cappedExpiry now config.session.hostTtlSecs grant.sessionExpiresAt
    grantId := none
    refresh := none }

/-- Redeem a one-time grant into a host cookie. -/
def redeem (config : GatewayConfig) (redeemed : IdentityCache K Unit) (host : Host)
    (grant uri : Text) (nonce : N) (now : Timestamp) :
    Except RedeemRefusal Redeemed × IdentityCache K Unit :=
  match sameHostLocation host uri with
  | none => (.error .notAPath, redeemed)
  | some location =>
    match openSealed openJson grant (.hostBound host.text) now with
    | none => (.error .notUsableHere, redeemed)
    | some payload =>
      match payload.grantId with
      | none => (.error .notAGrant, redeemed)
      | some id =>
        let (fresh, redeemed) := redeemGrant digest config redeemed id now
        if !fresh then (.error .alreadyUsed, redeemed)
        else
          match mint sealJson nonce (redeemedPayload config payload now) host with
          | none => (.error .notMinted, redeemed)
          | some cookie => (.ok ⟨location, cookie, cookie.setCookie now⟩, redeemed)

/-- Re-mint a host cookie that is past half-life. -/
def slide (session : SessionConfig) (host : Host) (cookie : Option Text) (nonce : N)
    (now : Timestamp) : Option (Minted × Text) :=
  if !session.hostSliding then none
  else do
    let sealed ← cookie
    let payload ← openSealed openJson sealed (.hostBound host.text) now
    if payload.grantId.isSome then none
    else
      let renewed ← slid payload now session.hostTtlSecs
      let minted ← mint sealJson nonce renewed host
      some (minted, minted.setCookie now)

/-- A request that presents the host cookie, under the settings of its time. -/
structure Visit (N : Type) where
  session : SessionConfig
  nonce : N
  now : Timestamp

/-- The payloads minted while a browser presents the cookie it was given last. -/
def slides (host : Host) : Text → List (Visit N) → List SealedPayload
  | _, [] => []
  | sealed, visit :: rest =>
    match slide sealJson openJson visit.session host (some sealed) visit.nonce visit.now with
    | some (minted, _) => minted.payload :: slides host minted.sealed rest
    | none => slides host sealed rest

/-! ## What each mint writes -/

theorem cappedExpiry_le (now cap : Timestamp) (ttl : Nat) :
    (cappedExpiry now ttl (some cap)).secs ≤ cap.secs := by
  simp [cappedExpiry]

theorem slid_eq_some (payload renewed : SealedPayload) (now : Timestamp) (ttl : Nat)
    (renews : slid payload now ttl = some renewed) :
    ∃ cap, payload.sessionExpiresAt = some cap ∧ payload.expiresAt.secs < renewed.expiresAt.secs ∧
      renewed.expiresAt.secs ≤ cap.secs ∧
      renewed = { payload with expiresAt := renewed.expiresAt } := by
  unfold slid at renews
  split at renews
  · cases renews
  · rename_i cap bound
    split at renews
    · cases renews
    · split at renews
      · cases renews
      · rename_i longer
        cases renews
        exact ⟨cap, bound, Nat.lt_of_not_le longer, cappedExpiry_le now cap ttl, rfl⟩

theorem openSealed_eq_some (sealed : Text) (binding : Binding) (now : Timestamp) (payload : SealedPayload)
    (opens : openSealed openJson sealed binding now = some payload) :
    openJson sealed binding = some payload := by
  unfold openSealed at opens
  split at opens
  · cases opens
  · exact (Option.filter_eq_some_iff.mp opens).1

theorem mint_eq_some (nonce : N) (payload : SealedPayload) (host : Host) (minted : Minted)
    (mints : mint sealJson nonce payload host = some minted) :
    minted.payload = payload ∧ sealJson nonce payload (.hostBound host.text) = some minted.sealed := by
  unfold mint sealPayload at mints
  rw [if_neg (by simp), Option.map_eq_some_iff] at mints
  obtain ⟨sealed, written, rfl⟩ := mints
  exact ⟨rfl, written⟩

theorem hostSession_granted (isRevoked : SessionId → Bool)
    (revalidate : SealedPayload → Option (SealedPayload × Option Text)) (config : GatewayConfig)
    (host : Host) (cookie id refreshed : Option Text) (nonce : N) (now : Timestamp)
    (sso : SealedPayload) (grant : Minted)
    (answer : hostSession sealJson openJson isRevoked revalidate config host cookie id nonce now =
      .granted sso grant refreshed) :
    ∃ id, mint sealJson nonce (mintGrant config sso id now) host = some grant := by
  unfold hostSession at answer
  split at answer
  · cases answer
  · split at answer
    · cases answer
    · split at answer
      · cases answer
      · split at answer
        · cases answer
        · rename_i id
          split at answer
          · cases answer
          · rename_i minted
            cases answer
            exact ⟨id, minted⟩

theorem redeem_ok (config : GatewayConfig) (redeemed : IdentityCache K Unit) (host : Host)
    (grant uri : Text) (nonce : N) (now : Timestamp) (answer : Redeemed)
    (ok : (redeem sealJson openJson digest config redeemed host grant uri nonce now).1 = .ok answer) :
    ∃ payload, openJson grant (.hostBound host.text) = some payload ∧
      mint sealJson nonce (redeemedPayload config payload now) host = some answer.cookie := by
  unfold redeem at ok
  split at ok
  · cases ok
  · split at ok
    · cases ok
    · rename_i payload opens
      split at ok
      · cases ok
      · simp only at ok
        split at ok
        · cases ok
        · split at ok
          · cases ok
          · rename_i minted
            cases ok
            exact ⟨payload, openSealed_eq_some openJson _ _ _ _ opens, minted⟩

theorem slide_eq_some (session : SessionConfig) (host : Host) (sealed header : Text) (nonce : N)
    (now : Timestamp) (minted : Minted)
    (slides : slide sealJson openJson session host (some sealed) nonce now = some (minted, header)) :
    ∃ payload renewed, openJson sealed (.hostBound host.text) = some payload ∧
      slid payload now session.hostTtlSecs = some renewed ∧
      mint sealJson nonce renewed host = some minted := by
  unfold slide at slides
  split at slides
  · cases slides
  · simp only [Option.bind_eq_bind, Option.bind_some, Option.bind_eq_some_iff] at slides
    obtain ⟨payload, opens, slides⟩ := slides
    split at slides
    · cases slides
    · simp only [Option.bind_eq_some_iff] at slides
      obtain ⟨renewed, renews, other, mints, same⟩ := slides
      cases same
      exact ⟨payload, renewed, openSealed_eq_some openJson _ _ _ _ opens, renews, mints⟩

/-! ## The chain of a host cookie -/

/-- What a sealed text opens to is what was sealed into it. -/
def Faithful : Prop :=
  ∀ nonce payload binding sealed opened, sealJson nonce payload binding = some sealed →
    openJson sealed binding = some opened → opened = payload

/-- `payload` speaks for the session `sso`, and no longer than it lasts. -/
structure WithinSession (sso payload : SealedPayload) : Prop where
  username : payload.username = sso.username
  groups : payload.groups = sso.groups
  session : payload.session = sso.session
  sessionExpiresAt : payload.sessionExpiresAt = some sso.expiresAt
  expiresAt : payload.expiresAt.secs ≤ sso.expiresAt.secs

theorem slid_withinSession (sso payload renewed : SealedPayload) (now : Timestamp) (ttl : Nat)
    (within : WithinSession sso payload) (renews : slid payload now ttl = some renewed) :
    WithinSession sso renewed ∧ payload.expiresAt.secs < renewed.expiresAt.secs := by
  obtain ⟨cap, bound, longer, capped, same⟩ := slid_eq_some payload renewed now ttl renews
  have ends : cap = sso.expiresAt := Option.some.inj (bound.symm.trans within.sessionExpiresAt)
  refine ⟨?_, longer⟩
  rw [same]
  exact ⟨within.username, within.groups, within.session, within.sessionExpiresAt, ends ▸ capped⟩

theorem redeemedPayload_withinSession (sso : SealedPayload) (config later : GatewayConfig) (id : Text)
    (now redeemedAt : Timestamp) :
    WithinSession sso (redeemedPayload later (mintGrant config sso id now) redeemedAt) :=
  ⟨rfl, rfl, rfl, rfl, cappedExpiry_le redeemedAt sso.expiresAt _⟩

theorem slides_withinSession (faithful : Faithful sealJson openJson) (host : Host)
    (sso : SealedPayload) (visits : List (Visit N)) (cookie : Minted)
    (written : ∃ nonce, sealJson nonce cookie.payload (.hostBound host.text) = some cookie.sealed)
    (within : WithinSession sso cookie.payload) :
    (∀ payload ∈ slides sealJson openJson host cookie.sealed visits, WithinSession sso payload) ∧
      (cookie.payload :: slides sealJson openJson host cookie.sealed visits).IsChain
        (fun earlier later => earlier.expiresAt.secs < later.expiresAt.secs) := by
  -- The invariant: the cookie the browser holds was sealed from a payload within the session.
  induction visits generalizing cookie with
  | nil => exact ⟨by simp [slides], .singleton _⟩
  | cons visit rest ih =>
    cases answer : slide sealJson openJson visit.session host (some cookie.sealed) visit.nonce visit.now with
    | none => simpa [slides, answer] using ih cookie written within
    | some result =>
      obtain ⟨minted, header⟩ := result
      obtain ⟨payload, renewed, opens, renews, mints⟩ :=
        slide_eq_some sealJson openJson _ host _ header _ _ minted answer
      obtain ⟨nonce, written⟩ := written
      obtain rfl := faithful _ _ _ _ _ written opens
      obtain ⟨same, rewritten⟩ := mint_eq_some sealJson _ _ host minted mints
      obtain ⟨kept, longer⟩ := slid_withinSession sso _ renewed _ _ within renews
      rw [← same] at kept longer rewritten
      obtain ⟨all, chain⟩ := ih minted ⟨_, rewritten⟩ kept
      simp only [slides, answer]
      exact ⟨List.forall_mem_cons.mpr ⟨kept, all⟩, .cons_cons longer chain⟩

/-- From the grant on, every payload of a host cookie speaks for the session it was minted
from, ends with it at the latest, and each slide ends later than the one before. -/
theorem host_cookie_within_session (faithful : Faithful sealJson openJson)
    (isRevoked : SessionId → Bool) (revalidate : SealedPayload → Option (SealedPayload × Option Text))
    (config : GatewayConfig) (host : Host) (ssoCookie id refreshed : Option Text) (grantNonce : N)
    (grantedAt : Timestamp) (sso : SealedPayload) (grant : Minted)
    (granted : hostSession sealJson openJson isRevoked revalidate config host ssoCookie id grantNonce
      grantedAt = .granted sso grant refreshed)
    (later : GatewayConfig) (redeemed : IdentityCache K Unit) (uri : Text) (nonce : N)
    (redeemedAt : Timestamp) (answer : Redeemed)
    (redeems : (redeem sealJson openJson digest later redeemed host grant.sealed uri nonce
      redeemedAt).1 = .ok answer)
    (visits : List (Visit N)) :
    let chain := answer.cookie.payload :: slides sealJson openJson host answer.cookie.sealed visits
    (∀ payload ∈ grant.payload :: chain, payload.username = sso.username ∧ payload.groups = sso.groups ∧
      payload.session = sso.session ∧ payload.sessionExpiresAt = some sso.expiresAt) ∧
    (∀ payload ∈ chain, payload.expiresAt.secs ≤ sso.expiresAt.secs) ∧
    chain.IsChain fun earlier later => earlier.expiresAt.secs < later.expiresAt.secs := by
  obtain ⟨id, mintedGrant⟩ := hostSession_granted sealJson openJson _ _ _ _ _ _ _ _ _ _ _ granted
  obtain ⟨grantPayload, sealedGrant⟩ := mint_eq_some sealJson _ _ _ _ mintedGrant
  obtain ⟨payload, opens, minted⟩ := redeem_ok sealJson openJson digest _ _ _ _ _ _ _ _ redeems
  obtain rfl := faithful _ _ _ _ _ sealedGrant opens
  obtain ⟨cookiePayload, sealedCookie⟩ := mint_eq_some sealJson _ _ _ _ minted
  have within : WithinSession sso answer.cookie.payload := by
    rw [cookiePayload]
    exact redeemedPayload_withinSession sso config later id grantedAt redeemedAt
  rw [← cookiePayload] at sealedCookie
  obtain ⟨all, chain⟩ := slides_withinSession sealJson openJson faithful host sso visits answer.cookie
    ⟨nonce, sealedCookie⟩ within
  have every := List.forall_mem_cons.mpr ⟨within, all⟩
  refine ⟨List.forall_mem_cons.mpr ⟨?_, ?_⟩, ?_, chain⟩
  · rw [grantPayload]
    exact ⟨rfl, rfl, rfl, rfl⟩
  · exact fun payload member =>
      have kept := every payload member
      ⟨kept.username, kept.groups, kept.session, kept.sessionExpiresAt⟩
  · exact fun payload member => (every payload member).expiresAt

end Codec

/-! ## A cookie that slides -/

def tableText (binding : Binding) (index : Nat) : Text :=
  (match binding with
    | .sso => "sso".toList
    | .loginState => "login-state".toList
    | .hostBound host => host) ++ '/' :: List.replicate index 'x'

/-- A codec for the payloads of a table, each sealed to its place. -/
def tableSeal (table : List SealedPayload) (_ : Unit) (payload : SealedPayload) (binding : Binding) :
    Option Text :=
  if payload ∈ table then some (tableText binding (table.idxOf payload)) else none

def tableOpen (table : List SealedPayload) (sealed : Text) (binding : Binding) : Option SealedPayload :=
  table.find? fun payload => sealed = tableText binding (table.idxOf payload)

theorem table_faithful (table : List SealedPayload) : Faithful (tableSeal table) (tableOpen table) := by
  intro nonce payload binding sealed opened seals opens
  unfold tableSeal at seals
  split at seals
  · rename_i member
    cases seals
    have found : tableText binding (table.idxOf payload) = tableText binding (table.idxOf opened) := by
      simpa using List.find?_some opens
    have same : table.idxOf payload = table.idxOf opened := by
      have runs := congrArg List.length (List.append_cancel_left found)
      simpa only [List.length_cons, List.length_replicate, Nat.add_right_cancel_iff] using runs
    exact ((List.idxOf_inj member).mp same).symm
  · cases seals

def endpointHost : Host := ⟨"a.weebo.si".toList, by decide, by decide, by decide⟩

/-- The SSO payload, its grant, the cookie redeemed from it and the cookie that slides into. -/
def alicePayloads : List SealedPayload :=
  let grant := mintGrant plainConfig aliceSession grantG ⟨100, hundred_le_u64Max⟩
  let cookie := redeemedPayload plainConfig grant ⟨110, by decide⟩
  [aliceSession, grant, cookie, { cookie with expiresAt := ⟨5600, by decide⟩ }]

theorem host_cookie_within_session_alice :
    let visits : List (Visit Unit) :=
      [⟨.standard, (), ⟨600, by decide⟩⟩, ⟨.standard, (), ⟨2000, by decide⟩⟩]
    let cookie : Minted := ⟨alicePayloads[2], tableText (.hostBound endpointHost.text) 2⟩
    let minted := slides (tableSeal alicePayloads) (tableOpen alicePayloads) endpointHost cookie.sealed visits
    (minted.map fun payload => payload.expiresAt.secs) = [5600] ∧
      ∀ payload ∈ cookie.payload :: minted, payload.expiresAt.secs ≤ aliceSession.expiresAt.secs := by
  refine ⟨by decide +kernel, ?_⟩
  exact (host_cookie_within_session (tableSeal alicePayloads) (tableOpen alicePayloads) id
    (table_faithful alicePayloads) (fun _ => false) (fun sso => some (sso, none)) plainConfig endpointHost
    (some (tableText .sso 0)) (some grantG) none () ⟨100, by decide⟩ aliceSession
    ⟨alicePayloads[1], tableText (.hostBound endpointHost.text) 1⟩ (by decide +kernel) plainConfig
    (.new redeemedCapacity redeemedTtlSecs) "/".toList () ⟨110, by decide⟩
    ⟨"https://a.weebo.si/".toList, ⟨alicePayloads[2], tableText (.hostBound endpointHost.text) 2⟩,
      Minted.setCookie ⟨alicePayloads[2], tableText (.hostBound endpointHost.text) 2⟩ ⟨110, by decide⟩⟩
    (by decide +kernel) _).2.1

end WeeboSi.Gateway
