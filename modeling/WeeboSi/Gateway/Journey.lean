import WeeboSi.Gateway.Provenance
import WeeboSi.Lib.FormText

/-!
# A challenged request ends where it began

Source: bins/endpoint-gateway/src/http.rs:483-492, 582-614, 721-1010 and adapters/oidc.rs:911-925. A
browser follows the redirects: what it asks a handler for is read off the location the handler before
gave. A query is read as axum reads it, the last of two parameters of one name standing.
-/
namespace WeeboSi.Gateway
open WeeboSi.Lib WeeboSi.EndpointAuth WeeboSi.Crd

/-! ## Percent-encoding -/

/-- The byte of a digit. -/
def hexUpperByte (n : Nat) : UInt8 := UInt8.ofNat (hexUpper n).toNat

theorem hexUpperByte_digit : ∀ n : Fin 16, utf8 [hexUpper n] = [hexUpperByte n] ∧
    toDigit16 (hexUpperByte n) = some n.val ∧ hexUpperByte n ≠ 38 ∧ hexUpperByte n ≠ 43 ∧ hexUpperByte n ≠ 61 := by
  decide

theorem isUnreserved_bounds (byte : UInt8) (safe : isUnreserved byte = true) :
    byte.toNat < 128 ∧ byte ≠ 37 ∧ byte ≠ 38 ∧ byte ≠ 43 ∧ byte ≠ 61 := by
  refine ⟨?_, ?_, ?_, ?_, ?_⟩
  · simp only [isUnreserved, Bool.or_eq_true, Bool.and_eq_true, decide_eq_true_eq, beq_iff_eq, ← UInt8.toNat_inj,
      UInt8.le_iff_toNat_le] at safe
    simp only [UInt8.reduceToNat] at safe
    omega
  all_goals
    rintro rfl
    exact absurd safe (by decide)

theorem utf8_urlencodeByte (byte : UInt8) :
    utf8 (urlencodeByte byte) =
      if isUnreserved byte then [byte]
      else [37, hexUpperByte (byte.toNat / 16), hexUpperByte (byte.toNat % 16)] := by
  have small := byte.toNat_lt
  unfold urlencodeByte
  split
  · rename_i safe
    exact utf8_map_byteChar [byte] (by simpa using (isUnreserved_bounds byte safe).1)
  · have high := (hexUpperByte_digit ⟨byte.toNat / 16, by omega⟩).1
    have low := (hexUpperByte_digit ⟨byte.toNat % 16, by omega⟩).1
    change utf8 (['%'] ++ [_] ++ [_]) = _
    rw [utf8_append, utf8_append, high, low]
    rfl

theorem urlencodeByte_decodes (byte : UInt8) (later : Bytes) :
    percentDecode ((utf8 (urlencodeByte byte)).map FormText.plusToSpace ++ later) = byte :: percentDecode later := by
  have small := byte.toNat_lt
  rw [utf8_urlencodeByte]
  split
  · rename_i safe
    obtain ⟨-, percent, -, plus, -⟩ := isUnreserved_bounds byte safe
    simp only [List.map_cons, List.map_nil, List.singleton_append, FormText.plusToSpace, if_neg plus]
    exact percentDecode_cons_plain byte later percent
  · obtain ⟨-, high, -, highPlus, -⟩ := hexUpperByte_digit ⟨byte.toNat / 16, by omega⟩
    obtain ⟨-, low, -, lowPlus, -⟩ := hexUpperByte_digit ⟨byte.toNat % 16, by omega⟩
    have spaced : ([37, hexUpperByte (byte.toNat / 16), hexUpperByte (byte.toNat % 16)] : Bytes).map
        FormText.plusToSpace = [37, hexUpperByte (byte.toNat / 16), hexUpperByte (byte.toNat % 16)] := by
      simp [FormText.plusToSpace, highPlus, lowPlus]
    rw [spaced, List.cons_append, List.cons_append, List.singleton_append, percentDecode]
    simp only [if_true, high, low]
    rw [show byte.toNat / 16 * 16 + byte.toNat % 16 = byte.toNat by omega, UInt8.ofNat_toNat]

theorem urlencodeByte_absent (mark : UInt8) (separates : mark = 38 ∨ mark = 61) (byte : UInt8) :
    mark ∉ utf8 (urlencodeByte byte) := by
  have small := byte.toNat_lt
  rw [utf8_urlencodeByte]
  split
  · rename_i safe
    obtain ⟨-, -, ampersand, -, equals⟩ := isUnreserved_bounds byte safe
    rcases separates with rfl | rfl
    · simpa using Ne.symm ampersand
    · simpa using Ne.symm equals
  · obtain ⟨-, -, highAmp, -, highEq⟩ := hexUpperByte_digit ⟨byte.toNat / 16, by omega⟩
    obtain ⟨-, -, lowAmp, -, lowEq⟩ := hexUpperByte_digit ⟨byte.toNat % 16, by omega⟩
    rcases separates with rfl | rfl
    · simpa using ⟨Ne.symm highAmp, Ne.symm lowAmp⟩
    · simpa using ⟨Ne.symm highEq, Ne.symm lowEq⟩

theorem utf8_urlencode (text : Text) :
    utf8 (urlencode text) = (utf8 text).flatMap fun byte => utf8 (urlencodeByte byte) :=
  List.flatMap_assoc

theorem urlencode_decodes (bytes later : Bytes) :
    percentDecode ((bytes.flatMap fun byte => utf8 (urlencodeByte byte)).map FormText.plusToSpace ++ later) =
      bytes ++ percentDecode later := by
  induction bytes with
  | nil => rfl
  | cons byte bytes ih =>
    rw [List.flatMap_cons, List.map_append, List.append_assoc, urlencodeByte_decodes, ih, List.cons_append]

/-- A reader of forms reads back what is written, and takes no part of it for a separator. -/
theorem urlencode_encoder : FormText.FormEncoder urlencode where
  reads text later := by
    rw [utf8_urlencode]
    exact urlencode_decodes (utf8 text) later
  noAmpersand text := by
    rw [utf8_urlencode, List.mem_flatMap]
    rintro ⟨byte, -, inside⟩
    exact urlencodeByte_absent 38 (Or.inl rfl) byte inside
  noEquals text := by
    rw [utf8_urlencode, List.mem_flatMap]
    rintro ⟨byte, -, inside⟩
    exact urlencodeByte_absent 61 (Or.inr rfl) byte inside

/-! ## Following a redirect -/

def rdParam : Text := "rd".toList

/-- A parameter of the URL a browser was sent to. -/
def followed (url name : Text) : Option Text :=
  match splitOnce '?' url with
  | none => none
  | some (_, query) => (FormText.readForm (utf8 query)).reverse.lookup name

theorem readComponent_urlencode (text : Text) : FormText.readComponent (utf8 (urlencode text)) = text := by
  have read := urlencode_encoder.reads text []
  rw [List.append_nil] at read
  have pieces := utf8Pieces_utf8_append text []
  rw [FormText.readComponent, read, percentDecode, fromUtf8Lossy, pieces]
  have nothing : utf8Pieces [] = [] := rfl
  simp [nothing]

/-- The target comes back whole, whatever it is. -/
theorem followed_target (path target : Text) (plain : '?' ∉ path) :
    followed (path ++ "?rd=".toList ++ urlencode target) rdParam = some target := by
  have cut : path ++ "?rd=".toList ++ urlencode target = path ++ '?' :: ("rd=".toList ++ urlencode target) := by
    simp
  have query : FormText.readForm (utf8 ("rd=".toList ++ urlencode target)) = [(rdParam, target)] := by
    have noAmpersand : 38 ∉ utf8 ("rd=".toList ++ urlencode target) := by
      rw [utf8_append, List.mem_append]
      rintro (inside | inside)
      · exact absurd inside (by decide)
      · exact urlencode_encoder.noAmpersand target inside
    have bytes : utf8 ("rd=".toList ++ urlencode target) = utf8 rdParam ++ 61 :: utf8 (urlencode target) := by
      rw [utf8_append]
      rfl
    have name : FormText.readComponent (utf8 rdParam) = rdParam := by decide
    rw [FormText.readForm, List.splitOn_eq_singleton noAmpersand, bytes]
    simp only [List.filter_cons, List.filter_nil]
    rw [if_pos (by simp), List.map_singleton, FormText.readPair, splitOnce_append _ _ _ (by decide)]
    simp only [name, readComponent_urlencode]
  rw [cut, followed, splitOnce_append _ _ _ plain]
  simp only [query]
  rfl

/-! ## The challenged URL -/

/-- The URL that a request asked for. -/
def askedUrl (host : Host) (rawPath : Text) : Text := scheme ++ host.text ++ rawPath

/-- A path that survives the grant: its query has no empty pair and none of the grant's name. -/
structure Returnable (host : Host) (rawPath : Text) : Prop where
  undotted : host.text.getLast? ≠ some '.'
  path : rawPath.head? = some '/'
  noFragment : '#' ∉ rawPath
  pairs : ∀ pair ∈ queryPairs rawPath, pair ≠ [] ∧ pairKey pair ≠ grantParam

section Asked
variable (host : Host) (rawPath : Text)

theorem host_chars (c : Char) (member : c ∈ host.text) : isHostChar c = true ∧ c.toLower = c := by
  have usable := List.all_eq_true.mp host.usable c member
  refine ⟨usable, toLower_of_not_isUpper c ?_⟩
  intro upper
  have range := (isUpper_iff c).mp upper
  simp only [isHostChar, Bool.or_eq_true, isLower_iff, isDigit_iff, beq_iff_eq] at usable
  rcases usable with ((lower | digit) | rfl) | rfl
  · omega
  · omega
  · exact absurd range (by decide)
  · exact absurd range (by decide)

theorem host_absent (c : Char) (other : isHostChar c = false) : c ∉ host.text := by
  intro member
  rw [(host_chars host c member).1] at other
  cases other

/-- A host without a dot at its end is read as itself. -/
theorem parse_host (undotted : host.text.getLast? ≠ some '.') : Host.parse host.text = .ok host := by
  have lowered : lowerText host.text = host.text := by
    refine (List.map_congr_left fun c member => (host_chars host c member).2).trans ?_
    simp
  have chars : ∀ c ∈ host.text, isHostChar c.toLower = true := by
    intro c member
    obtain ⟨usable, same⟩ := host_chars host c member
    rwa [same]
  have plain : plainHost host.text = host.text := by
    rw [plainHost, trim_of_hostChars _ chars, trimEndMatches_of_last _ _ undotted, lowered]
  exact parse_of_lowerText host.text host.text host plain.symm (lowered.trans plain.symm)

/-- The grant goes behind the path on the same host. -/
theorem grantLocation_asked (sealed : Text) :
    grantLocation (askedUrl host rawPath) sealed = askedUrl host (grantLocation rawPath sealed) := by
  have inHost := host_absent host '?' (by decide)
  have inScheme : '?' ∉ scheme := by decide
  simp [grantLocation, askedUrl, inHost, inScheme]

/-- The grant is the last parameter of what the host is then asked for, and is gone from where the
redemption sends the browser. -/
theorem grantLocation_stripped (uri sealed : Text) (spelt : ∀ c ∈ sealed, isSealedChar c = true)
    (pairs : ∀ pair ∈ queryPairs uri, pair ≠ [] ∧ pairKey pair ≠ grantParam) :
    (queryOf (grantLocation uri sealed)).lookup grantParam = some sealed ∧
      stripQueryParam (grantLocation uri sealed) grantParam = uri := by
  have plain := grantPair_plain sealed spelt
  have keyed : splitOnce '=' (grantParam ++ '=' :: sealed) = some (grantParam, sealed) :=
    splitOnce_append _ _ _ (by decide)
  have last : ∀ others : List Text,
      ((others ++ [grantParam ++ '=' :: sealed]).filterMap (splitOnce '=')).reverse.lookup grantParam = some sealed := by
    intro others
    rw [List.filterMap_append, List.reverse_append, List.filterMap_cons, keyed]
    simp
  cases cut : splitOnce '?' uri with
  | none =>
    have noQuery := (splitOnce_eq_none _ _).mp cut
    have location : grantLocation uri sealed = uri ++ '?' :: (grantParam ++ '=' :: sealed) := by
      simp [grantLocation, noQuery]
    rw [location, queryOf, queryPairs_append _ _ noQuery, stripQueryParam_append _ _ _ noQuery,
      List.splitOn_eq_singleton plain]
    exact ⟨last [], by simp [grantPair_key]⟩
  | some parts =>
    obtain ⟨path, query⟩ := parts
    obtain ⟨rfl, noQuery⟩ := (splitOnce_eq_some _ _ _ _).mp cut
    rw [queryPairs_append _ _ noQuery] at pairs
    have location : grantLocation (path ++ '?' :: query) sealed =
        path ++ '?' :: (query ++ '&' :: (grantParam ++ '=' :: sealed)) := by
      simp [grantLocation]
    have gone : [grantParam ++ '=' :: sealed].filter (fun pair => pair ≠ [] && pairKey pair ≠ grantParam) = [] := by
      simp [grantPair_key]
    have kept : (query.splitOn '&').filter (fun pair => pair ≠ [] && pairKey pair ≠ grantParam) = query.splitOn '&' :=
      List.filter_eq_self.mpr fun pair member => by simp [pairs pair member]
    rw [location, queryOf, queryPairs_append _ _ noQuery, stripQueryParam_append _ _ _ noQuery,
      List.splitOn_append_cons_self, List.splitOn_eq_singleton plain, List.filter_append, gone, kept]
    refine ⟨last _, ?_⟩
    simp only [List.append_nil, List.splitOn_ne_nil, if_false, List.intercalate_splitOn]

variable (returnable : Returnable host rawPath)
include returnable

theorem askedUrl_target (scope : HostScope) (governed : scope.governs host = true) :
    endpointTarget scope (askedUrl host rawPath) = some host := by
  have slash : rawPath.takeWhile (fun c => c != '/' && c != '?') = [] := by
    cases rawPath with
    | nil => rfl
    | cons c rest =>
      have first := Option.some.inj returnable.path
      simp [first]
  have authority : (host.text ++ rawPath).takeWhile (fun c => c != '/' && c != '?') = host.text := by
    rw [List.takeWhile_append_of_pos, slash, List.append_nil]
    intro c member
    have noSlash : c ≠ '/' := by
      rintro rfl
      exact host_absent host '/' (by decide) member
    have noQuery : c ≠ '?' := by
      rintro rfl
      exact host_absent host '?' (by decide) member
    simp [noSlash, noQuery]
  refine (endpointTarget_eq_some scope _ host).mpr ⟨?_, host.text, ?_, ?_, parse_host host returnable.undotted, governed⟩
  · intro fragment
    simp only [askedUrl, List.mem_append] at fragment
    rcases fragment with (inScheme | inHost) | inPath
    · exact absurd inScheme (by decide)
    · exact host_absent host '#' (by decide) inHost
    · exact returnable.noFragment inPath
  · exact (targetAuthority_eq_some _ _).mpr ⟨host.text ++ rawPath, by simp [askedUrl], authority.symm⟩
  · rw [foreignPort, rsplitOnce_absent _ _ (host_absent host ':' (by decide))]

/-- The redemption sends the browser back to what it asked for. -/
theorem sameHostLocation_asked (sealed : Text) (spelt : ∀ c ∈ sealed, isSealedChar c = true) :
    sameHostLocation host (grantLocation rawPath sealed) = some (askedUrl host rawPath) := by
  have begins : (grantLocation rawPath sealed).head? = some '/' := by
    cases rawPath with
    | nil => exact absurd returnable.path (by simp)
    | cons c rest => exact returnable.path
  rw [sameHostLocation, if_pos begins, (grantLocation_stripped rawPath sealed spelt returnable.pairs).2]
  rfl

end Asked

/-! ## The journey -/

/-- One sign-in from the challenge to the page: the replicas that answer, when they do, and what is drawn. -/
structure Journey (Key K : Type) where
  host : Host
  rawPath : Text
  challenges : Replica Key
  refuses : Replica Key
  starts : Replica Key
  returns : Replica Key
  grants : Replica Key
  redeems : Replica Key
  startedAt : Timestamp
  returnedAt : Timestamp
  grantedAt : Timestamp
  redeemedAt : Timestamp
  verifier : Text
  state : Text
  code : Text
  grantId : Text
  tokens : TokenResponse
  claims : Claims
  nonces : Fin 4 → Option Nonce
  redeemed : IdentityCache K Unit

namespace Journey
variable {Key K : Type} (journey : Journey Key K)

def target : Text := askedUrl journey.host journey.rawPath

def login : LoginState :=
  ⟨journey.target, journey.verifier, journey.state, journey.startedAt.plusSecs loginStateTtlSecs⟩

def sso : SealedPayload :=
  journey.returns.sessionOf journey.claims journey.claims.session journey.tokens.refreshToken journey.returnedAt

def grant : SealedPayload := mintGrant journey.grants.config journey.sso journey.grantId journey.grantedAt

def session : SealedPayload := redeemedPayload journey.redeems.config journey.grant journey.redeemedAt

def bound : Binding := .hostBound journey.host.text

/-- What a replica sealed last, the next one has the key for. -/
def SharesKey (sealer opener : Replica Key) : Prop :=
  ∀ key, sealer.codec.ciphers.head? = some key → key ∈ opener.codec.ciphers

variable [DecidableEq K] (lib : Primitives Key) (grantDigest : List UInt8 → K)

/-- Nothing stands in the way: no limit, no revocation, no clock run out, and a provider that answers. -/
structure Undisturbed : Prop where
  returnable : Returnable journey.host journey.rawPath
  governed : ∀ replica ∈ [journey.refuses, journey.starts, journey.grants],
    replica.scope.governs journey.host = true
  limits : ∀ replica ∈ [journey.refuses, journey.starts, journey.returns, journey.grants], replica.underLimit = true
  bases : ∀ replica ∈ [journey.challenges, journey.refuses, journey.returns], '?' ∉ replica.config.redirectBase
  begins : journey.starts.oidc.isSome = true
  exchanges : ∃ oidc, journey.returns.oidc = some oidc ∧
    oidc.exchange journey.code journey.verifier = some journey.tokens
  verifies : journey.returns.claimsOfIdToken journey.tokens.idToken journey.returnedAt = some journey.claims
  loginInTime : journey.returnedAt.secs < journey.login.expiresAt.secs
  ssoInTime : journey.grantedAt.secs < journey.sso.expiresAt.secs
  grantInTime : journey.redeemedAt.secs < journey.grant.expiresAt.secs
  unrevoked : journey.claims.session.any journey.grants.isRevoked = false
  proved : journey.grants.overdue journey.sso journey.grantedAt = false
  generation : journey.sso.generation = journey.grants.catalog.groupsGeneration.toNat
  unredeemed : (redeemGrant grantDigest journey.redeems.config journey.redeemed journey.grantId
    journey.redeemedAt).1 = true
  keys : SharesKey journey.starts journey.returns ∧ SharesKey journey.returns journey.grants ∧
    SharesKey journey.grants journey.redeems
  seals : (journey.starts.codec.sealLoginState lib.aead lib.json (journey.nonces 0) journey.login).isSome = true ∧
    (journey.returns.sealSession lib (journey.nonces 1) journey.sso .sso).isSome = true ∧
    (journey.grants.sealSession lib (journey.nonces 2) journey.grant journey.bound).isSome = true ∧
    (journey.redeems.sealSession lib (journey.nonces 3) journey.session journey.bound).isSome = true

/-- Each handler hands the target on, and the last one sends the browser to it with a session. -/
structure Arrives (sealedLogin sealedSso sealedGrant sealedSession : Text) : Prop where
  challenged : followed (hostSessionUrl journey.challenges.config journey.target) rdParam = some journey.target
  refused : journey.refuses.exchangeSession lib none (some journey.target) (some journey.grantId) none none
    journey.grantedAt = .answered journey.host .signIn
  sentToStart : followed (oidcStartUrl journey.refuses.config journey.target) rdParam = some journey.target
  started : ∃ location, journey.starts.oidcStart lib (some journey.target) (some journey.verifier)
    (some journey.state) (journey.nonces 0) journey.startedAt = .sent journey.login sealedLogin location
  returned : journey.returns.oidcCallback lib (some sealedLogin) (some journey.code) (some journey.state)
    (journey.nonces 1) journey.returnedAt =
      .signedIn ⟨journey.sso, sealedSso⟩ (some (hostSessionUrl journey.returns.config journey.target))
  sentOn : followed (hostSessionUrl journey.returns.config journey.target) rdParam = some journey.target
  granted : journey.grants.exchangeSession lib (some sealedSso) (some journey.target) (some journey.grantId) none
    (journey.nonces 2) journey.grantedAt =
      .answered journey.host (.granted journey.sso ⟨journey.grant, sealedGrant⟩ none)
  sentToHost : ∃ uri, grantLocation journey.target sealedGrant = askedUrl journey.host uri ∧
    (queryOf uri).lookup grantParam = some sealedGrant ∧
    ∃ header, (redeem (journey.redeems.sealSession lib) (journey.redeems.openSession lib) grantDigest
      journey.redeems.config journey.redeemed journey.host sealedGrant uri (journey.nonces 3) journey.redeemedAt).1 =
        .ok ⟨journey.target, ⟨journey.session, sealedSession⟩, header⟩
  identity : journey.session.username = journey.claims.username ∧ journey.session.grantId = none

end Journey

section Arrives
variable {Key K : Type} [DecidableEq Key] [DecidableEq K] (lib : Primitives Key) (grantDigest : List UInt8 → K)
  (ideal : lib.aead.Ideal) (reads : ∀ value, lib.json.Reads value)
include ideal reads

/-- A session that one replica sealed opens at another that has the key. -/
theorem opens_session (sealer opener : Replica Key) (shares : Journey.SharesKey sealer opener) (nonce : Option Nonce)
    (payload : SealedPayload) (binding : Binding) (text : Text) (now : Timestamp) (session : binding ≠ .loginState)
    (seals : sealer.sealSession lib nonce payload binding = some text) (live : now.secs < payload.expiresAt.secs) :
    openSealed (opener.openSession lib) text binding now = some payload := by
  obtain ⟨bytes, written, sealed⟩ := Option.bind_eq_some_iff.mp seals
  cases first : sealer.codec.ciphers.head? with
  | none => simp [SealedCodec.sealJson, first] at sealed
  | some key =>
    have opens := openJson_sealJson sealer.codec opener.codec lib.aead ideal key first (shares key first) nonce bytes
      text binding binding sealed
    rw [if_pos rfl] at opens
    have read : opener.openSession lib text binding = some payload := by
      rw [Replica.openSession, SealedCodec.openPayload, opens, Option.bind_some, reads (.payload payload) bytes written]
    rw [openSealed, if_neg session, read]
    simp [Option.filter, live]

theorem opens_login (sealer opener : Replica Key) (shares : Journey.SharesKey sealer opener) (nonce : Option Nonce)
    (login : LoginState) (text : Text) (now : Timestamp)
    (seals : sealer.codec.sealLoginState lib.aead lib.json nonce login = some text)
    (live : now.secs < login.expiresAt.secs) :
    opener.codec.openLoginState lib.aead lib.json text now = some login := by
  obtain ⟨bytes, written, sealed⟩ := Option.bind_eq_some_iff.mp seals
  cases first : sealer.codec.ciphers.head? with
  | none => simp [SealedCodec.sealJson, first] at sealed
  | some key =>
    have opens := openJson_sealJson sealer.codec opener.codec lib.aead ideal key first (shares key first) nonce bytes
      text .loginState .loginState sealed
    rw [if_pos rfl] at opens
    rw [SealedCodec.openLoginState, opens, Option.bind_some, (reads (.login login) bytes written).1]
    simp [Option.filter, live]

omit ideal reads [DecidableEq Key] in
theorem constantTimeEq_self (text : Text) : constantTimeEq lib.digest text text = true := by
  have zero : ∀ bytes : List UInt8,
      (bytes.zip bytes).foldl (fun acc pair => acc ||| (pair.1 ^^^ pair.2)) (0 : UInt8) = 0 := by
    intro bytes
    induction bytes with
    | nil => rfl
    | cons byte bytes ih => simpa using ih
  rw [constantTimeEq, zero]
  rfl

section Handlers
variable (journey : Journey Key K) (undisturbed : journey.Undisturbed lib grantDigest)
include undisturbed

omit ideal reads [DecidableEq Key] in
theorem target_endpoint (replica : Replica Key) (governs : replica.scope.governs journey.host = true) :
    endpointTarget replica.scope journey.target = some journey.host :=
  askedUrl_target journey.host journey.rawPath undisturbed.returnable replica.scope governs

omit ideal reads [DecidableEq Key] in
theorem start_arrives (sealed : Text)
    (seals : journey.starts.codec.sealLoginState lib.aead lib.json (journey.nonces 0) journey.login = some sealed) :
    ∃ location, journey.starts.oidcStart lib (some journey.target) (some journey.verifier) (some journey.state)
      (journey.nonces 0) journey.startedAt = .sent journey.login sealed location := by
  have limit := undisturbed.limits journey.starts (by simp)
  have endpoint := target_endpoint lib grantDigest journey undisturbed journey.starts
    (undisturbed.governed journey.starts (by simp))
  obtain ⟨oidc, provider⟩ := Option.isSome_iff_exists.mp undisturbed.begins
  refine ⟨oidc.authorizationUrl lib.pkceChallenge journey.state journey.verifier, ?_⟩
  rw [Journey.login] at seals
  simp [Replica.oidcStart, limit, provider, endpoint, Replica.startLogin, seals, Journey.login]

theorem callback_arrives (sealedLogin sealedSso : Text)
    (sealsLogin : journey.starts.codec.sealLoginState lib.aead lib.json (journey.nonces 0) journey.login =
      some sealedLogin)
    (sealsSso : journey.returns.sealSession lib (journey.nonces 1) journey.sso .sso = some sealedSso) :
    journey.returns.oidcCallback lib (some sealedLogin) (some journey.code) (some journey.state) (journey.nonces 1)
      journey.returnedAt =
        .signedIn ⟨journey.sso, sealedSso⟩ (some (hostSessionUrl journey.returns.config journey.target)) := by
  have limit := undisturbed.limits journey.returns (by simp)
  obtain ⟨oidc, provider, exchanged⟩ := undisturbed.exchanges
  have opens := opens_login lib ideal reads journey.starts journey.returns undisturbed.keys.1 (journey.nonces 0)
    journey.login sealedLogin journey.returnedAt sealsLogin undisturbed.loginInTime
  have minted : journey.returns.mintSso lib (journey.nonces 1) journey.sso = some ⟨journey.sso, sealedSso⟩ := by
    rw [Replica.mintSso, sealPayload, if_neg (by simp), sealsSso]
    rfl
  have somewhere : journey.login.returnTo ≠ [] := by
    simp [Journey.login, Journey.target, askedUrl, journey.host.nonempty]
  have same : constantTimeEq lib.digest journey.login.state journey.state = true :=
    constantTimeEq_self lib journey.state
  have answered : oidc.exchange journey.code journey.login.verifier = some journey.tokens := exchanged
  rw [Journey.sso] at minted
  simp only [Replica.oidcCallback, limit, Bool.not_true, Bool.false_eq_true, if_false, provider, Option.bind_some,
    opens, same, answered, undisturbed.verifies, minted, if_neg somewhere]
  rfl

omit ideal reads [DecidableEq Key] in
theorem refusal_arrives : journey.refuses.exchangeSession lib none (some journey.target) (some journey.grantId) none
    none journey.grantedAt = .answered journey.host .signIn := by
  have limit := undisturbed.limits journey.refuses (by simp)
  have endpoint := target_endpoint lib grantDigest journey undisturbed journey.refuses
    (undisturbed.governed journey.refuses (by simp))
  simp [Replica.exchangeSession, limit, endpoint, hostSession]

theorem grant_arrives (sealedSso sealedGrant : Text)
    (sealsSso : journey.returns.sealSession lib (journey.nonces 1) journey.sso .sso = some sealedSso)
    (sealsGrant : journey.grants.sealSession lib (journey.nonces 2) journey.grant journey.bound = some sealedGrant) :
    journey.grants.exchangeSession lib (some sealedSso) (some journey.target) (some journey.grantId) none
      (journey.nonces 2) journey.grantedAt =
        .answered journey.host (.granted journey.sso ⟨journey.grant, sealedGrant⟩ none) := by
  have limit := undisturbed.limits journey.grants (by simp)
  have endpoint := target_endpoint lib grantDigest journey undisturbed journey.grants
    (undisturbed.governed journey.grants (by simp))
  have opens := opens_session lib ideal reads journey.returns journey.grants undisturbed.keys.2.1 (journey.nonces 1)
    journey.sso .sso sealedSso journey.grantedAt (by simp) sealsSso undisturbed.ssoInTime
  have unrevoked : journey.sso.session.any journey.grants.isRevoked = false := undisturbed.unrevoked
  have kept : journey.grants.revalidate lib none journey.grantedAt journey.sso = some (journey.sso, none) := by
    rw [Replica.revalidate, undisturbed.proved, if_pos (by simpa using undisturbed.generation)]
  have minted : mint (journey.grants.sealSession lib) (journey.nonces 2)
      (mintGrant journey.grants.config journey.sso journey.grantId journey.grantedAt) journey.host =
        some ⟨journey.grant, sealedGrant⟩ := by
    rw [mint, sealPayload, if_neg (by simp)]
    exact (congrArg (Option.map _) sealsGrant).trans rfl
  simp only [Replica.exchangeSession, limit, Bool.not_true, Bool.false_eq_true, if_false, endpoint, hostSession,
    Option.bind_some, opens, unrevoked, kept, minted]

theorem redemption_arrives (sealedGrant sealedSession : Text)
    (sealsGrant : journey.grants.sealSession lib (journey.nonces 2) journey.grant journey.bound = some sealedGrant)
    (sealsSession : journey.redeems.sealSession lib (journey.nonces 3) journey.session journey.bound =
      some sealedSession) :
    ∃ uri, grantLocation journey.target sealedGrant = askedUrl journey.host uri ∧
      (queryOf uri).lookup grantParam = some sealedGrant ∧
      ∃ header, (redeem (journey.redeems.sealSession lib) (journey.redeems.openSession lib) grantDigest
        journey.redeems.config journey.redeemed journey.host sealedGrant uri (journey.nonces 3) journey.redeemedAt).1 =
          .ok ⟨journey.target, ⟨journey.session, sealedSession⟩, header⟩ := by
  obtain ⟨bytes, -, sealed⟩ := Option.bind_eq_some_iff.mp sealsGrant
  have spelt := sealJson_chars journey.grants.codec lib.aead _ bytes _ sealedGrant sealed
  have back := sameHostLocation_asked journey.host journey.rawPath undisturbed.returnable sealedGrant spelt
  have opens := opens_session lib ideal reads journey.grants journey.redeems undisturbed.keys.2.2 (journey.nonces 2)
    journey.grant journey.bound sealedGrant journey.redeemedAt (by simp [Journey.bound]) sealsGrant
    undisturbed.grantInTime
  have minted : mint (journey.redeems.sealSession lib) (journey.nonces 3)
      (redeemedPayload journey.redeems.config journey.grant journey.redeemedAt) journey.host =
        some ⟨journey.session, sealedSession⟩ := by
    rw [mint, sealPayload, if_neg (by simp)]
    exact (congrArg (Option.map _) sealsSession).trans rfl
  refine ⟨grantLocation journey.rawPath sealedGrant, grantLocation_asked journey.host journey.rawPath sealedGrant,
    (grantLocation_stripped journey.rawPath sealedGrant spelt undisturbed.returnable.pairs).1,
    Minted.setCookie ⟨journey.session, sealedSession⟩ journey.redeemedAt, ?_⟩
  have grantId : journey.grant.grantId = some journey.grantId := rfl
  rw [Journey.bound] at opens
  simp only [redeem, back, opens, grantId, undisturbed.unredeemed, Bool.not_true, Bool.false_eq_true, if_false, minted]
  rfl

/-- Whoever is challenged on a governed host and signs in ends on the URL they asked for, with a session
of their own, whichever replicas answer on the way. -/
theorem journey_arrives :
    ∃ sealedLogin sealedSso sealedGrant sealedSession,
      journey.Arrives lib grantDigest sealedLogin sealedSso sealedGrant sealedSession := by
  obtain ⟨login, sso, grant, session⟩ := undisturbed.seals
  obtain ⟨sealedLogin, sealsLogin⟩ := Option.isSome_iff_exists.mp login
  obtain ⟨sealedSso, sealsSso⟩ := Option.isSome_iff_exists.mp sso
  obtain ⟨sealedGrant, sealsGrant⟩ := Option.isSome_iff_exists.mp grant
  obtain ⟨sealedSession, sealsSession⟩ := Option.isSome_iff_exists.mp session
  have base : ∀ replica ∈ [journey.challenges, journey.refuses, journey.returns], ∀ path : Text, '?' ∉ path →
      followed (replica.config.redirectBase ++ path ++ "?rd=".toList ++ urlencode journey.target) rdParam =
        some journey.target := by
    intro replica member path plain
    apply followed_target
    simpa using ⟨undisturbed.bases replica member, plain⟩
  refine ⟨sealedLogin, sealedSso, sealedGrant, sealedSession, ?_⟩
  refine ⟨?_, refusal_arrives lib grantDigest journey undisturbed, ?_,
    start_arrives lib grantDigest journey undisturbed sealedLogin sealsLogin,
    callback_arrives lib grantDigest ideal reads journey undisturbed sealedLogin sealedSso sealsLogin sealsSso, ?_,
    grant_arrives lib grantDigest ideal reads journey undisturbed sealedSso sealedGrant sealsSso sealsGrant,
    redemption_arrives lib grantDigest ideal reads journey undisturbed sealedGrant sealedSession sealsGrant
      sealsSession, rfl, rfl⟩
  · simpa [hostSessionUrl] using base journey.challenges (by simp) "/host-session".toList (by decide)
  · simpa [oidcStartUrl] using base journey.refuses (by simp) "/oidc/start".toList (by decide)
  · simpa [hostSessionUrl] using base journey.returns (by simp) "/host-session".toList (by decide)

end Handlers

end Arrives

/-! ## Alice's journey -/

namespace AliceSignsIn

def journey : Journey Bytes Bytes where
  host := returnHost
  rawPath := "/".toList
  challenges := replica
  refuses := replica
  starts := replica
  returns := replica
  grants := replica
  redeems := replica
  startedAt := ⟨100, signIn_fits⟩
  returnedAt := ⟨110, comesBack_fits⟩
  grantedAt := ⟨111, asksForGrant_fits⟩
  redeemedAt := ⟨112, redeems_fits⟩
  verifier := "v".toList
  state := "s".toList
  code := "c".toList
  grantId := "g".toList
  tokens := ⟨idToken, none⟩
  claims := ⟨"alice".toList, [], none, none⟩
  nonces _ := some aliceNonce
  redeemed := .new redeemedCapacity redeemedTtlSecs

theorem journey_undisturbed : journey.Undisturbed lib id where
  returnable := ⟨by decide, by decide, by decide, by decide⟩
  governed := by decide +kernel
  limits := by decide
  bases := by decide +kernel
  begins := rfl
  exchanges := ⟨provider, rfl, by decide⟩
  verifies := by decide +kernel
  loginInTime := by decide
  ssoInTime := by decide
  grantInTime := by decide
  unrevoked := rfl
  proved := rfl
  generation := rfl
  unredeemed := by decide +kernel
  keys := ⟨fun _ => List.mem_of_head?, fun _ => List.mem_of_head?, fun _ => List.mem_of_head?⟩
  seals := ⟨by decide +kernel, by decide +kernel, by decide +kernel, by decide +kernel⟩

theorem journey_arrives_alice :
    ∃ sealedLogin sealedSso sealedGrant sealedSession,
      journey.Arrives lib id sealedLogin sealedSso sealedGrant sealedSession :=
  journey_arrives lib id openAead_ideal serde_reads journey journey_undisturbed

end AliceSignsIn

end WeeboSi.Gateway
