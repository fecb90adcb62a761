import WeeboSi.EndpointAuth.Identity

/-!
# What makes a bearer token ours

Source: crates/weebo-si-endpoint-auth/src/bearer.rs:60-422.
-/
namespace WeeboSi.EndpointAuth
open WeeboSi.Lib

inductive BearerResult where
  | accepted | acceptedAuthorizedParty | wrongAudience | idToken | expired | revoked | inactive
  | unverifiable | foreign
  deriving DecidableEq, Repr

def BearerResult.isIdentity : BearerResult → Bool
  | .accepted | .acceptedAuthorizedParty => true
  | _ => false

/-- The facts a verifier read off a token. -/
structure PresentedToken where
  issuer : Option Text
  audiences : List Text
  authorizedParty : Option Text
  tokenType : Option Text
  atHash : Bool
  nonce : Bool
  expiresAt : Option Timestamp
  notBefore : Option Timestamp
  session : Option SessionId
  active : Bool

def PresentedToken.isIdToken (token : PresentedToken) : Bool :=
  token.atHash || token.tokenType.any fun typ => typ.map Char.toLower == "id".toList

structure BearerRules where
  issuer : Text
  audiences : List Text
  authorizedParties : List Text
  named : audiences ≠ [] ∨ authorizedParties ≠ []

inductive RulesError where
  | noAudience
  deriving DecidableEq, Repr

namespace BearerRules

def new (issuer : Text) (audiences parties : List Text) : Except RulesError BearerRules :=
  if named : audiences ≠ [] ∨ parties ≠ [] then .ok ⟨issuer, audiences, parties, named⟩
  else .error .noAudience

def inAudience (rules : BearerRules) (token : PresentedToken) : Bool :=
  token.audiences.any rules.audiences.contains

def byParty (rules : BearerRules) (token : PresentedToken) : Bool :=
  token.authorizedParty.any rules.authorizedParties.contains

/-- The last two checks of the source, on the clock and on the revocation set. -/
def checkStanding (kind : BearerResult) (token : PresentedToken) (now : Timestamp)
    (isRevoked : SessionId → Bool) : BearerResult :=
  if !(token.expiresAt.any fun exp => !now.isAtOrAfter exp) then .expired
  else if token.notBefore.any fun nbf => !now.isAtOrAfter nbf then .expired
  else if token.session.any isRevoked then .revoked
  else kind

def check (rules : BearerRules) (token : PresentedToken) (now : Timestamp)
    (isRevoked : SessionId → Bool) : BearerResult :=
  if !token.active then .inactive
  else if token.issuer ≠ some rules.issuer then .foreign
  else if token.isIdToken then .idToken
  else if rules.inAudience token then checkStanding .accepted token now isRevoked
  else if rules.byParty token then checkStanding .acceptedAuthorizedParty token now isRevoked
  else .wrongAudience

/-- The checks that read neither the clock nor the revocation set. -/
def Ours (rules : BearerRules) (token : PresentedToken) : Prop :=
  token.active = true ∧ token.issuer = some rules.issuer ∧ token.isIdToken = false ∧
    (rules.inAudience token = true ∨ rules.byParty token = true)

/-- The clock is inside the token's own window. -/
def InWindow (token : PresentedToken) (now : Timestamp) : Prop :=
  (token.expiresAt.any fun exp => !now.isAtOrAfter exp) = true ∧
    (token.notBefore.any fun nbf => !now.isAtOrAfter nbf) = false

theorem checkStanding_isIdentity (kind : BearerResult) (token : PresentedToken) (now : Timestamp)
    (isRevoked : SessionId → Bool) (identity : kind.isIdentity = true) :
    (checkStanding kind token now isRevoked).isIdentity = true ↔
      InWindow token now ∧ token.session.any isRevoked = false := by
  unfold checkStanding InWindow
  cases token.expiresAt.any fun exp => !now.isAtOrAfter exp with
  | false => simp [BearerResult.isIdentity]
  | true =>
    cases token.notBefore.any fun nbf => !now.isAtOrAfter nbf with
    | true => simp [BearerResult.isIdentity]
    | false =>
      cases token.session.any isRevoked with
      | true => simp [BearerResult.isIdentity]
      | false => simp [identity]

/-- A token is an identity when it is ours, inside its window and of a live session. -/
theorem check_isIdentity (rules : BearerRules) (token : PresentedToken) (now : Timestamp)
    (isRevoked : SessionId → Bool) :
    (rules.check token now isRevoked).isIdentity = true ↔
      rules.Ours token ∧ InWindow token now ∧ token.session.any isRevoked = false := by
  unfold check Ours
  cases token.active with
  | false => simp [BearerResult.isIdentity]
  | true =>
    by_cases issuer : token.issuer = some rules.issuer
    · cases token.isIdToken with
      | true => simp [BearerResult.isIdentity, issuer]
      | false =>
        cases rules.inAudience token with
        | true => simp [issuer, checkStanding_isIdentity .accepted token now isRevoked rfl]
        | false =>
          cases rules.byParty token with
          | true =>
            simp [issuer, checkStanding_isIdentity .acceptedAuthorizedParty token now isRevoked rfl]
          | false => simp [BearerResult.isIdentity, issuer]
    · simp [BearerResult.isIdentity, issuer]

end BearerRules

end WeeboSi.EndpointAuth
