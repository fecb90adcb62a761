import WeeboSi.EndpointAuth.Application
import WeeboSi.Gateway.Config

/-!
# Sealed sessions and grants

Source: bins/endpoint-gateway/src/adapters/session.rs:33-130, 229-244, 324-343 and
http.rs:777-784. Decryption and JSON decoding are third-party: `openJson` is what the
ciphers open a sealed text to under a binding.
-/
namespace WeeboSi.Gateway
open WeeboSi.Lib WeeboSi.EndpointAuth

structure SealedPayload where
  username : Text
  groups : List Text
  session : Option Text
  expiresAt : Timestamp
  generation : Nat
  grantId : Option Text
  provedAt : Timestamp
  refresh : Option Text
  sessionExpiresAt : Option Timestamp
  deriving DecidableEq, Repr

def SealedPayload.claims (payload : SealedPayload) : Claims :=
  ⟨payload.username, payload.groups, none, payload.session⟩

inductive Binding where
  | sso | loginState
  | hostBound (host : Text)
  deriving DecidableEq, Repr

section Codec
variable (openJson : Text → Binding → Option SealedPayload)

def openSealed (sealed : Text) (binding : Binding) (now : Timestamp) : Option SealedPayload :=
  if binding = .loginState then none
  else (openJson sealed binding).filter fun payload => !now.isAtOrAfter payload.expiresAt

/-- A grant is not a session. -/
def openHostSession (host : Host) (sealed : Text) (now : Timestamp) : Option OpenedSession := do
  let payload ← openSealed openJson sealed (.hostBound host.text) now
  if payload.grantId.isSome then none else some ⟨payload.claims, payload.expiresAt⟩

/-- A host cookie opens while its payload has not expired, and always to the same claims. -/
theorem openHostSession_eq_some (host : Host) (sealed : Text) (now : Timestamp) (opened : OpenedSession) :
    openHostSession openJson host sealed now = some opened ↔
      ∃ payload, openJson sealed (.hostBound host.text) = some payload ∧ payload.grantId = none ∧
        now.secs < payload.expiresAt.secs ∧ opened = ⟨payload.claims, payload.expiresAt⟩ := by
  unfold openHostSession openSealed
  cases openJson sealed (.hostBound host.text) with
  | none => simp
  | some payload =>
    by_cases live : now.secs < payload.expiresAt.secs
    · cases grant : payload.grantId with
      | none =>
        simp only [reduceCtorEq, if_false, Option.filter, Timestamp.isAtOrAfter_eq_false _ _ |>.mpr live,
          Bool.not_false, if_true, Option.bind_eq_bind, Option.bind_some, grant, Option.isSome_none,
          Bool.false_eq_true, Option.some.injEq, exists_eq_left', true_and, live]
        exact eq_comm
      | some id => simp [live, Option.filter, grant]
    · simp [live, Option.filter]

end Codec

/-- The grant that `host_session` seals for a session. -/
def mintGrant (config : GatewayConfig) (sso : SealedPayload) (id : Text) (now : Timestamp) : SealedPayload :=
  { sso with
    expiresAt := now.plusSecs config.session.grantTtlSecs
    grantId := some id
    refresh := none
    sessionExpiresAt := some sso.expiresAt }

end WeeboSi.Gateway
