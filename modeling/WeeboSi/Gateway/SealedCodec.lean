import WeeboSi.Gateway.GrantUrl
import WeeboSi.Lib.Lists

/-!
# Sealing for one purpose and one host

Source: bins/endpoint-gateway/src/adapters/session.rs:78-134, 214-343. AES-256-GCM and
serde_json are third-party: `Aead` and `Serde` are what the codec calls of them.
-/
namespace WeeboSi.Gateway
open WeeboSi.Lib WeeboSi.EndpointAuth

/-- The sign-in in flight. -/
structure LoginState where
  returnTo : Text
  verifier : Text
  state : Text
  expiresAt : Timestamp
  deriving DecidableEq, Repr

def ssoPurpose : Text := "weebo-si/sso".toList
def loginStatePurpose : Text := "weebo-si/login-state".toList

/-- The text whose bytes a binding is. -/
def Binding.purpose : Binding → Text
  | .sso => ssoPurpose
  | .loginState => loginStatePurpose
  | .hostBound host => host

def Binding.aad (binding : Binding) : Bytes := utf8 binding.purpose

/-- The bindings a value is sealed under: a host comes from `Host::parse`. -/
def Binding.Used : Binding → Prop
  | .sso | .loginState => True
  | .hostBound host => ∃ parsed : Host, host = parsed.text

/-- Keys, nonces, associated data and messages, in this order. -/
structure Aead (Key : Type) where
  encrypt : Key → Bytes → Bytes → Bytes → Option Bytes
  decrypt : Key → Bytes → Bytes → Bytes → Option Bytes

/-- A ciphertext opens under its own key and associated data, and under no other. -/
def Aead.Ideal {Key : Type} [DecidableEq Key] (aead : Aead Key) : Prop :=
  ∀ key other nonce aad aad' message ciphertext, aead.encrypt key nonce aad message = some ciphertext →
    aead.decrypt other nonce aad' ciphertext = if other = key ∧ aad' = aad then some message else none

structure Serde where
  payloadToVec : SealedPayload → Option Bytes
  payloadFromSlice : Bytes → Option SealedPayload
  loginToVec : LoginState → Option Bytes
  loginFromSlice : Bytes → Option LoginState

/-- What the codec seals. -/
inductive SealedValue where
  | payload (p : SealedPayload)
  | login (s : LoginState)
  deriving DecidableEq, Repr

def SealedValue.expiresAt : SealedValue → Timestamp
  | .payload p => p.expiresAt
  | .login s => s.expiresAt

/-- The value is read back from what it is written as; a sign-in has no `u`, which a payload
cannot be read without. -/
def Serde.Reads (json : Serde) : SealedValue → Prop
  | .payload payload => ∀ bytes, json.payloadToVec payload = some bytes →
      json.payloadFromSlice bytes = some payload
  | .login state => ∀ bytes, json.loginToVec state = some bytes →
      json.loginFromSlice bytes = some state ∧ json.payloadFromSlice bytes = none

/-- Twelve random bytes. -/
structure Nonce where
  bytes : Bytes
  size : bytes.length = 12

/-- The first key seals, every one of them may open. -/
structure SealedCodec (Key : Type) where
  ciphers : List Key

namespace SealedCodec
variable {Key : Type} (codec : SealedCodec Key) (aead : Aead Key) (json : Serde)

def sealJson (nonce : Option Nonce) (plaintext : Bytes) (binding : Binding) : Option Text := do
  let cipher ← codec.ciphers.head?
  let nonce ← nonce
  let sealed ← aead.encrypt cipher nonce.bytes binding.aad plaintext
  some ("v1.".toList ++ base64Encode nonce.bytes ++ '.' :: base64Encode sealed)

def openJson (sealed : Text) (binding : Binding) : Option Bytes := do
  let (version, rest) ← splitOnce '.' sealed
  if version ≠ "v1".toList then none
  else do
    let (nonce, ciphertext) ← splitOnce '.' rest
    let nonce ← base64Decode nonce
    let ciphertext ← base64Decode ciphertext
    if nonce.length ≠ 12 then none
    else codec.ciphers.findSome? fun cipher => aead.decrypt cipher nonce binding.aad ciphertext

/-- A payload before its expiry is looked at. -/
def openPayload (sealed : Text) (binding : Binding) : Option SealedPayload :=
  (codec.openJson aead sealed binding).bind json.payloadFromSlice

def sealLoginState (nonce : Option Nonce) (state : LoginState) : Option Text :=
  (json.loginToVec state).bind fun bytes => codec.sealJson aead nonce bytes .loginState

def openLoginState (sealed : Text) (now : Timestamp) : Option LoginState :=
  ((codec.openJson aead sealed .loginState).bind json.loginFromSlice).filter
    fun state => !now.isAtOrAfter state.expiresAt

/-- The entry point that seals a value under a binding. -/
def sealValue (nonce : Option Nonce) : SealedValue → Binding → Option Text
  | .payload payload, binding =>
    sealPayload (fun nonce payload binding =>
      (json.payloadToVec payload).bind fun bytes => codec.sealJson aead nonce bytes binding)
      nonce payload binding
  | .login state, .loginState => codec.sealLoginState aead json nonce state
  | .login _, _ => none

/-- The entry point that opens what is bound so. -/
def openValue (sealed : Text) (binding : Binding) (now : Timestamp) : Option SealedValue :=
  match binding with
  | .loginState => (codec.openLoginState aead json sealed now).map .login
  | binding => (openSealed (codec.openPayload aead json) sealed binding now).map .payload

end SealedCodec

/-! ## Associated data -/

theorem aad_eq_iff (b b' : Binding) : b'.aad = b.aad ↔ b'.purpose = b.purpose :=
  ⟨fun same => utf8_injective same, congrArg utf8⟩

/-- A host has no slash, and both purposes have one. -/
theorem host_ne_purpose (host : Host) (text : Text) (slash : '/' ∈ text) : host.text ≠ text := by
  rintro rfl
  exact absurd (List.all_eq_true.mp host.usable _ slash) (by decide)

/-- Two bindings are the same bytes only where a purpose is spelt as a host. -/
theorem aad_eq_iff_of_used (b b' : Binding) (used : b.Used) :
    b'.aad = b.aad ↔ b' = b ∨ (b = .sso ∧ b' = .hostBound ssoPurpose) ∨
      (b = .loginState ∧ b' = .hostBound loginStatePurpose) := by
  rw [aad_eq_iff]
  cases b with
  | sso =>
    cases b' with
    | sso => simp
    | loginState => simp only [Binding.purpose, reduceCtorEq]; decide
    | hostBound host => simp [Binding.purpose]
  | loginState =>
    cases b' with
    | sso => simp only [Binding.purpose, reduceCtorEq]; decide
    | loginState => simp
    | hostBound host => simp [Binding.purpose]
  | hostBound host =>
    obtain ⟨parsed, rfl⟩ := used
    cases b' with
    | sso => simp [Binding.purpose, (host_ne_purpose parsed ssoPurpose (by decide)).symm]
    | loginState => simp [Binding.purpose, (host_ne_purpose parsed loginStatePurpose (by decide)).symm]
    | hostBound other => simp [Binding.purpose]

/-! ## Sealing and opening -/

section Codec
variable {Key : Type} [DecidableEq Key] (sealer opener : SealedCodec Key) (aead : Aead Key)
  (ideal : aead.Ideal) (key : Key) (first : sealer.ciphers.head? = some key)
  (listed : key ∈ opener.ciphers)
include ideal first listed

/-- What was sealed is opened by a codec that has its key, under the same associated data. -/
theorem openJson_sealJson (nonce : Option Nonce) (plaintext : Bytes) (text : Text) (b b' : Binding)
    (sealed : sealer.sealJson aead nonce plaintext b = some text) :
    opener.openJson aead text b' = if b'.aad = b.aad then some plaintext else none := by
  unfold SealedCodec.sealJson at sealed
  cases nonce with
  | none => simp [first] at sealed
  | some nonce =>
    simp only [first, Option.bind_eq_bind, Option.bind_some, Option.bind_eq_some_iff,
      Option.some.injEq] at sealed
    obtain ⟨ciphertext, encrypted, rfl⟩ := sealed
    have dot : '.' ∉ base64Encode nonce.bytes := base64Encode_absent _ _ (by decide)
    have outer : splitOnce '.' ("v1.".toList ++ base64Encode nonce.bytes ++ '.' :: base64Encode ciphertext) =
        some ("v1".toList, base64Encode nonce.bytes ++ '.' :: base64Encode ciphertext) :=
      (splitOnce_eq_some _ _ _ _).mpr ⟨by simp, by decide⟩
    have tried : ∀ cipher ∈ opener.ciphers, aead.decrypt cipher nonce.bytes b'.aad ciphertext =
        if cipher = key ∧ b'.aad = b.aad then some plaintext else none :=
      fun cipher _ => ideal _ _ _ _ _ _ _ encrypted
    unfold SealedCodec.openJson
    simp only [outer, Option.bind_eq_bind, Option.bind_some, ne_eq, not_true_eq_false, if_false,
      splitOnce_append _ _ _ dot, base64Decode_encode, nonce.size]
    by_cases same : b'.aad = b.aad
    · rw [if_pos same]
      apply findSome?_of_mem _ _ key
      · rw [tried key listed, if_pos ⟨rfl, same⟩]
      · intro cipher member
        rw [tried cipher member]
        split
        · exact Or.inr rfl
        · exact Or.inl rfl
      · exact listed
    · rw [if_neg same, List.findSome?_eq_none_iff]
      intro cipher member
      rw [tried cipher member, if_neg (fun both => same both.2)]

omit ideal first listed [DecidableEq Key] in
/-- A sealed text may stand in a query. -/
theorem sealJson_chars (nonce : Option Nonce) (plaintext : Bytes) (binding : Binding) (text : Text)
    (sealed : sealer.sealJson aead nonce plaintext binding = some text) :
    ∀ c ∈ text, isSealedChar c = true := by
  unfold SealedCodec.sealJson at sealed
  simp only [Option.bind_eq_bind, Option.bind_eq_some_iff, Option.some.injEq] at sealed
  obtain ⟨cipher, -, nonce, -, ciphertext, -, rfl⟩ := sealed
  have encoded : ∀ bytes, ∀ c ∈ base64Encode bytes, isSealedChar c = true := by
    intro bytes c member
    simp [isSealedChar, base64Encode_chars bytes c member]
  intro c member
  simp only [List.mem_append, List.mem_cons] at member
  rcases member with (version | inNonce) | rfl | inCiphertext
  · exact List.all_eq_true.mp (show "v1.".toList.all isSealedChar = true by decide) c version
  · exact encoded _ c inNonce
  · rfl
  · exact encoded _ c inCiphertext

omit ideal first listed [DecidableEq Key] in
/-- A payload opens until it expires. -/
theorem openValue_of_ne (json : Serde) (text : Text) (binding : Binding) (now : Timestamp)
    (other : binding ≠ .loginState) :
    opener.openValue aead json text binding now =
      (((opener.openJson aead text binding).bind json.payloadFromSlice).filter
        fun payload => !now.isAtOrAfter payload.expiresAt).map .payload := by
  cases binding with
  | loginState => exact absurd rfl other
  | sso => rfl
  | hostBound host => rfl

omit ideal first listed [DecidableEq Key] in
theorem sealValue_payload (json : Serde) (payload : SealedPayload) (b : Binding) (nonce : Option Nonce)
    (text : Text) :
    sealer.sealValue aead json nonce (.payload payload) b = some text ↔
      b ≠ .loginState ∧ ∃ bytes, json.payloadToVec payload = some bytes ∧
        sealer.sealJson aead nonce bytes b = some text := by
  have route : sealer.sealValue aead json nonce (.payload payload) b =
      if b = .loginState then none
      else (json.payloadToVec payload).bind fun bytes => sealer.sealJson aead nonce bytes b := by
    cases b with
    | loginState => rfl
    | sso => rfl
    | hostBound host => rfl
  rw [route]
  by_cases login : b = .loginState
  · simp [login]
  · simp [login, Option.bind_eq_some_iff]

/-- What a payload sealed under `b` opens to. -/
theorem openValue_payload (json : Serde) (payload : SealedPayload) (b b' : Binding) (used : b.Used)
    (reads : json.Reads (.payload payload)) (nonce : Option Nonce) (text : Text) (now : Timestamp)
    (sealed : sealer.sealValue aead json nonce (.payload payload) b = some text) :
    opener.openValue aead json text b' now =
      if (b' = b ∨ (b = .sso ∧ b' = .hostBound ssoPurpose)) ∧ now.secs < payload.expiresAt.secs
      then some (.payload payload) else none := by
  obtain ⟨other, bytes, written, sealed⟩ := (sealValue_payload _ _ _ _ _ _ _).mp sealed
  have opens := openJson_sealJson sealer opener aead ideal key first listed nonce bytes text b b' sealed
  have bound := aad_eq_iff_of_used b b' used
  simp only [other, false_and, or_false] at bound
  by_cases login : b' = .loginState
  · subst login
    have apart : ¬ (Binding.loginState = b ∨ (b = .sso ∧ Binding.loginState = .hostBound ssoPurpose)) := by
      simp [Ne.symm other]
    rw [if_neg (fun same => apart (bound.mp same))] at opens
    rw [if_neg (fun both => apart both.1)]
    simp [SealedCodec.openValue, SealedCodec.openLoginState, opens]
  · rw [openValue_of_ne opener aead json text b' now login, opens]
    by_cases same : b'.aad = b.aad
    · by_cases live : now.secs < payload.expiresAt.secs
      · simp [same, bound.mp same, reads bytes written, live, Option.filter]
      · simp [same, reads bytes written, live, Option.filter]
    · simp [same, mt bound.mpr same]

/-- What a sign-in opens to. -/
theorem openValue_login (json : Serde) (state : LoginState) (b b' : Binding)
    (reads : json.Reads (.login state)) (nonce : Option Nonce) (text : Text) (now : Timestamp)
    (sealed : sealer.sealValue aead json nonce (.login state) b = some text) :
    b = .loginState ∧ opener.openValue aead json text b' now =
      if b' = .loginState ∧ now.secs < state.expiresAt.secs then some (.login state) else none := by
  cases b with
  | sso => cases sealed
  | hostBound host => cases sealed
  | loginState =>
    refine ⟨rfl, ?_⟩
    obtain ⟨bytes, written, sealed⟩ := Option.bind_eq_some_iff.mp sealed
    obtain ⟨back, foreign⟩ := reads bytes written
    have opens :=
      openJson_sealJson sealer opener aead ideal key first listed nonce bytes text .loginState b' sealed
    by_cases login : b' = .loginState
    · subst login
      by_cases live : now.secs < state.expiresAt.secs
      · simp [SealedCodec.openValue, SealedCodec.openLoginState, opens, back, live, Option.filter]
      · simp [SealedCodec.openValue, SealedCodec.openLoginState, opens, back, live, Option.filter]
    · -- The bytes are a sign-in's whatever host they were opened for: no payload is read there.
      rw [openValue_of_ne opener aead json text b' now login, opens]
      split
      · simp [foreign, login]
      · simp [login]

/-- A value sealed under `b` opens under `b'` exactly when `b'` is `b` and it has not
expired; the one other binding it opens under is a host that is spelt as the purpose of the
SSO cookie, which no host is. A value that carries a grant id opens no session. -/
theorem sealed_opens_only_bound (json : Serde) (value : SealedValue) (b : Binding) (used : b.Used)
    (reads : json.Reads value) (nonce : Option Nonce) (text : Text)
    (sealed : sealer.sealValue aead json nonce value b = some text) :
    (∀ (b' : Binding) (now : Timestamp), opener.openValue aead json text b' now =
      if (b' = b ∨ (b = .sso ∧ b' = .hostBound ssoPurpose)) ∧ now.secs < value.expiresAt.secs
      then some value else none) ∧
    (∀ payload, value = .payload payload → payload.grantId.isSome = true → ∀ (host : Host) (now : Timestamp),
      openHostSession (opener.openPayload aead json) host text now = none) := by
  refine ⟨?_, ?_⟩
  · intro b' now
    cases value with
    | payload payload =>
      exact openValue_payload sealer opener aead ideal key first listed json payload b b' used reads nonce
        text now sealed
    | login state =>
      obtain ⟨rfl, opens⟩ := openValue_login sealer opener aead ideal key first listed json state b b' reads
        nonce text now sealed
      simpa [SealedValue.expiresAt] using opens
  · rintro payload rfl grant host now
    cases opened : openHostSession (opener.openPayload aead json) host text now with
    | none => rfl
    | some session =>
      obtain ⟨other, bytes, written, sealed⟩ := (sealValue_payload _ _ _ _ _ _ _).mp sealed
      obtain ⟨found, opens, plain, -⟩ := (openHostSession_eq_some _ _ _ _ _).mp opened
      unfold SealedCodec.openPayload at opens
      rw [openJson_sealJson sealer opener aead ideal key first listed nonce bytes text b _ sealed] at opens
      split at opens
      · rw [Option.bind_some, reads bytes written] at opens
        cases opens
        rw [plain] at grant
        cases grant
      · cases opens

end Codec

/-! ## A session of alice's -/

/-- Bytes marked so that what follows them cannot be read as more of them. -/
def framed : Bytes → Bytes
  | [] => [0]
  | b :: rest => 1 :: b :: framed rest

theorem framed_append_inj (xs ys s t : Bytes) :
    framed xs ++ s = framed ys ++ t ↔ xs = ys ∧ s = t := by
  induction xs generalizing ys with
  | nil =>
    cases ys with
    | nil => simp [framed]
    | cons y ys => simp [framed]
  | cons x xs ih =>
    cases ys with
    | nil => simp [framed]
    | cons y ys => simp [framed, ih, and_assoc]

/-- Ciphertexts that show what they were sealed with. -/
def openAead : Aead Bytes where
  encrypt key nonce aad message := some (framed key ++ framed nonce ++ framed aad ++ message)
  decrypt key nonce aad ciphertext := ciphertext.dropPrefix? (framed key ++ framed nonce ++ framed aad)

theorem openAead_ideal : openAead.Ideal := by
  intro key other nonce aad aad' message ciphertext encrypted
  cases encrypted
  have opens : ∀ found, openAead.decrypt other nonce aad'
      (framed key ++ framed nonce ++ framed aad ++ message) = some found ↔
      key = other ∧ aad = aad' ∧ message = found := by
    intro found
    simp [openAead, List.dropPrefix?_eq_some_iff, List.append_assoc, framed_append_inj]
  by_cases same : other = key ∧ aad' = aad
  · rw [if_pos same]
    exact (opens message).mpr ⟨same.1.symm, same.2.symm, rfl⟩
  · rw [if_neg same, Option.eq_none_iff_forall_ne_some]
    intro found found_
    obtain ⟨rfl, rfl, -⟩ := (opens found).mp found_
    exact same ⟨rfl, rfl⟩

def aliceJson : Bytes :=
  utf8 "\x7b\"u\":\"alice\",\"g\":[],\"e\":43200,\"gen\":1,\"i\":0\x7d".toList

/-- What serde_json writes alice's session as, and reads it from. -/
def aliceSerde : Serde where
  payloadToVec payload := if payload = aliceSession then some aliceJson else none
  payloadFromSlice bytes := if bytes = aliceJson then some aliceSession else none
  loginToVec _ := none
  loginFromSlice _ := none

theorem aliceSerde_reads : aliceSerde.Reads (.payload aliceSession) := by
  intro bytes written
  simp only [aliceSerde, if_true, Option.some.injEq] at written ⊢
  simp [written]

def aliceNonce : Nonce := ⟨List.replicate 12 7, List.length_replicate⟩

/-- Two keys of which the older one sealed. -/
def aliceKeys : SealedCodec Bytes := ⟨[List.replicate 32 1, List.replicate 32 2]⟩
def olderKey : SealedCodec Bytes := ⟨[List.replicate 32 2]⟩

theorem aliceSession_sealed :
    ∃ text, olderKey.sealValue openAead aliceSerde (some aliceNonce) (.payload aliceSession) .sso = some text := by
  simp [SealedCodec.sealValue, sealPayload, aliceSerde, SealedCodec.sealJson, olderKey, openAead]

theorem sealed_opens_only_bound_alice :
    ∃ text, olderKey.sealValue openAead aliceSerde (some aliceNonce) (.payload aliceSession) .sso = some text ∧
      aliceKeys.openValue openAead aliceSerde text .sso ⟨100, by decide⟩ = some (.payload aliceSession) ∧
      aliceKeys.openValue openAead aliceSerde text (.hostBound endpointHost.text) ⟨100, by decide⟩ = none := by
  obtain ⟨text, sealed⟩ := aliceSession_sealed
  have opens := (sealed_opens_only_bound olderKey aliceKeys openAead openAead_ideal (List.replicate 32 2) rfl
    (by decide) aliceSerde (.payload aliceSession) .sso trivial aliceSerde_reads (some aliceNonce) text
    sealed).1
  refine ⟨text, sealed, ?_, ?_⟩
  · rw [opens, if_pos (by decide)]
  · rw [opens, if_neg (by decide)]

/-- A session sealed as such opens for the host `weebo-si/sso`. -/
theorem purpose_spelt_as_host :
    ¬ ∀ (sealer opener : SealedCodec Bytes) (aead : Aead Bytes) (json : Serde) (key : Bytes)
      (value : SealedValue) (b b' : Binding) (nonce : Option Nonce) (text : Text) (now : Timestamp),
      aead.Ideal → sealer.ciphers.head? = some key → key ∈ opener.ciphers → b.Used → json.Reads value →
      sealer.sealValue aead json nonce value b = some text →
      ((opener.openValue aead json text b' now).isSome = true ↔
        b' = b ∧ now.secs < value.expiresAt.secs) := by
  intro given
  obtain ⟨text, sealed⟩ := aliceSession_sealed
  have opened : (aliceKeys.openValue openAead aliceSerde text (.hostBound ssoPurpose)
      ⟨100, by decide⟩).isSome = true := by
    rw [openValue_payload olderKey aliceKeys openAead openAead_ideal (List.replicate 32 2) rfl
      (by decide) aliceSerde aliceSession .sso _ trivial aliceSerde_reads (some aliceNonce) text _ sealed,
      if_pos (by decide)]
    rfl
  have same := (given olderKey aliceKeys openAead aliceSerde (List.replicate 32 2) (.payload aliceSession)
    .sso (.hostBound ssoPurpose) (some aliceNonce) text ⟨100, by decide⟩ openAead_ideal rfl (by decide)
    trivial aliceSerde_reads sealed).mp opened
  exact absurd same.1 (by simp)

end WeeboSi.Gateway
