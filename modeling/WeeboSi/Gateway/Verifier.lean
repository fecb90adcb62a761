import WeeboSi.EndpointAuth.Application
import WeeboSi.EndpointAuth.Bearer

/-!
# Verifying a bearer token

Source: bins/endpoint-gateway/src/adapters/oidc.rs:505-543 and 690-792. Signature checks
and JSON decoding are third-party: `decodeVerified` is what they answer for a token under
the key set in force, the claim set or which check refused.
-/
namespace WeeboSi.Gateway
open WeeboSi.Lib WeeboSi.EndpointAuth

/-! ## Claim sets -/

inductive JsonNumber where
  | unsigned (value : UInt64)
  | negative (magnitude : Nat)
  | float (digits : Text)
  deriving DecidableEq, Repr

inductive Json where
  | null
  | bool (value : Bool)
  | number (value : JsonNumber)
  | string (value : Text)
  | array (items : List Json)
  | object (members : List (Text × Json))

namespace Json

def get (value : Json) (key : Text) : Option Json :=
  match value with
  | .object members => members.lookup key
  | _ => none

def asStr : Json → Option Text
  | .string value => some value
  | _ => none

def asArray : Json → Option (List Json)
  | .array items => some items
  | _ => none

/-- A non-negative integer, as seconds. -/
def asTimestamp : Json → Option Timestamp
  | .number (.unsigned value) => some ⟨value.toNat, Nat.le_pred_of_lt value.toNat_lt⟩
  | _ => none

end Json

def claimText (value : Json) (name : String) : Option Text := (value.get name.toList).bind Json.asStr

def claimTime (value : Json) (name : String) : Option Timestamp :=
  (value.get name.toList).bind Json.asTimestamp

/-- `aud` is a text or an array of them. -/
def audiencesOf (value : Json) : List Text :=
  match value.get "aud".toList with
  | some (.string one) => [one]
  | some (.array many) => many.filterMap Json.asStr
  | _ => []

def presentedFromClaims (value : Json) (party : Option Json) : PresentedToken where
  issuer := some ((claimText value "iss").getD [])
  audiences := audiencesOf value
  authorizedParty := party.bind Json.asStr
  tokenType := claimText value "typ"
  atHash := (value.get "at_hash".toList).isSome
  nonce := (value.get "nonce".toList).isSome
  expiresAt := claimTime value "exp"
  notBefore := claimTime value "nbf"
  session := claimText value "sid"
  active := true

def claimsFromValues (value : Json) (usernameClaim groupsClaim : Text) : Option (Claims × Timestamp) := do
  let username ← (value.get usernameClaim).bind Json.asStr
  let groups := (((value.get groupsClaim).bind Json.asArray).map fun groups =>
    groups.filterMap Json.asStr).getD []
  let expiresAt ← claimTime value "exp"
  some (⟨username, groups, none, claimText value "sid"⟩, expiresAt)

/-! ## The verifier -/

structure JwksVerifier where
  rules : Option BearerRules
  usernameClaim : Text
  groupsClaim : Text
  decodeVerified : Text → Except BearerResult Json

structure Examination where
  result : BearerResult
  identity : Option (Claims × Timestamp)

namespace JwksVerifier
variable (verifier : JwksVerifier) (isRevoked : SessionId → Bool)

def presentedFrom (value : Json) : PresentedToken := presentedFromClaims value (value.get "azp".toList)

def claimsFrom (value : Json) : Option (Claims × Timestamp) :=
  claimsFromValues value verifier.usernameClaim verifier.groupsClaim

def examine (token : Text) (now : Timestamp) : Examination :=
  match verifier.rules with
  | none => ⟨.foreign, none⟩
  | some rules =>
    match verifier.decodeVerified token with
    | .error result => ⟨result, none⟩
    | .ok value =>
      let result := rules.check (presentedFrom value) now isRevoked
      let identity := if result.isIdentity then verifier.claimsFrom value else none
      ⟨if result.isIdentity && identity.isNone then .unverifiable else result, identity⟩

def verify (token : Text) (now : Timestamp) : TokenOutcome :=
  let examination := verifier.examine isRevoked token now
  match examination.identity with
  | some (claims, expiresAt) =>
    if examination.result.isIdentity then .ours claims expiresAt
    else if examination.result = .foreign then .foreign
    else .invalid
  | none => if examination.result = .foreign then .foreign else .invalid

/-- What a token proves, but for its window and for the revocation set. -/
structure Proves (token : Text) (value : Json) (claims : Claims) (expiresAt : Timestamp) : Prop where
  rules : ∃ rules, verifier.rules = some rules ∧ rules.Ours (presentedFrom value)
  decoded : verifier.decodeVerified token = .ok value
  identity : verifier.claimsFrom value = some (claims, expiresAt)

theorem claimsFrom_agrees (value : Json) (claims : Claims) (expiresAt : Timestamp)
    (identity : verifier.claimsFrom value = some (claims, expiresAt)) :
    (presentedFrom value).session = claims.session ∧ (presentedFrom value).expiresAt = some expiresAt := by
  unfold claimsFrom claimsFromValues at identity
  simp only [Option.bind_eq_bind, Option.bind_eq_some_iff, Option.some.injEq, Prod.mk.injEq] at identity
  obtain ⟨username, -, exp, claimed, rfl, rfl⟩ := identity
  exact ⟨rfl, claimed⟩

/-- A bearer is ours exactly while it proves something, is inside its window and names no
revoked session. -/
theorem verify_eq_ours (token : Text) (now : Timestamp) (claims : Claims) (expiresAt : Timestamp) :
    verifier.verify isRevoked token now = .ours claims expiresAt ↔
      ∃ value, verifier.Proves token value claims expiresAt ∧
        BearerRules.InWindow (presentedFrom value) now ∧ claims.session.any isRevoked = false := by
  unfold verify examine
  cases hasRules : verifier.rules with
  | none =>
    simp only [if_true, reduceCtorEq, false_iff]
    rintro ⟨value, proves, -⟩
    obtain ⟨rules, some_, -⟩ := proves.rules
    rw [hasRules] at some_
    cases some_
  | some rules =>
    cases decoded : verifier.decodeVerified token with
    | error result =>
      have never : ¬ ∃ value, verifier.Proves token value claims expiresAt ∧
          BearerRules.InWindow (presentedFrom value) now ∧ claims.session.any isRevoked = false := by
        rintro ⟨value, proves, -⟩
        exact absurd (decoded.symm.trans proves.decoded) (by simp)
      simp only [never, iff_false]
      split
      · simp
      · simp
    | ok value =>
      have judged := rules.check_isIdentity (presentedFrom value) now isRevoked
      have only : ∀ other, verifier.Proves token other claims expiresAt → other = value :=
        fun other proves => Except.ok.inj (proves.decoded.symm.trans decoded)
      cases identity : (rules.check (presentedFrom value) now isRevoked).isIdentity with
      | false =>
        have never : ¬ ∃ other, verifier.Proves token other claims expiresAt ∧
            BearerRules.InWindow (presentedFrom other) now ∧ claims.session.any isRevoked = false := by
          rintro ⟨other, proves, window, live⟩
          obtain rfl := only other proves
          obtain ⟨rules', some_, ours⟩ := proves.rules
          obtain rfl := Option.some.inj (hasRules.symm.trans some_)
          rw [← (verifier.claimsFrom_agrees other claims expiresAt proves.identity).1] at live
          rw [judged.mpr ⟨ours, window, live⟩] at identity
          cases identity
        simp only [never, iff_false, identity, Bool.false_eq_true, if_false, Bool.false_and]
        split
        · simp
        · simp
      | true =>
        obtain ⟨ours, window, live⟩ := judged.mp identity
        cases read : verifier.claimsFrom value with
        | none =>
          simp only [identity, if_true, read, Option.isNone_none, Bool.and_self, reduceCtorEq, if_false,
            false_iff]
          rintro ⟨other, proves, -⟩
          obtain rfl := only other proves
          exact absurd (read.symm.trans proves.identity) (by simp)
        | some pair =>
          obtain ⟨found, until_⟩ := pair
          simp only [identity, if_true, read, Option.isNone_some, Bool.and_false, Bool.false_eq_true,
            if_false, TokenOutcome.ours.injEq]
          constructor
          · rintro ⟨rfl, rfl⟩
            refine ⟨value, ⟨⟨rules, hasRules, ours⟩, decoded, read⟩, window, ?_⟩
            rw [← (verifier.claimsFrom_agrees value found until_ read).1]
            exact live
          · rintro ⟨other, proves, -⟩
            obtain rfl := only other proves
            have same := Option.some.inj (read.symm.trans proves.identity)
            exact Prod.mk.inj same

end JwksVerifier

end WeeboSi.Gateway
