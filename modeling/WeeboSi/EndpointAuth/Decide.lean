import WeeboSi.EndpointAuth.Path
import WeeboSi.EndpointAuth.Policy

/-!
# The decision

Source: crates/weebo-si-endpoint-auth/src/decide.rs:15-345 and index.rs:65-73. The label
texts of reasons and verdicts are read by metrics only and are left out.
-/
namespace WeeboSi.EndpointAuth
open WeeboSi.Lib

inductive Scheme where
  | https | http
  deriving DecidableEq, Repr

inductive RequestShape where
  | navigation | framed | other
  deriving DecidableEq, Repr

structure AuthRequest where
  host : Host
  rawPath : Text
  method : Method
  scheme : Scheme
  shape : RequestShape
  preflight : Bool
  deriving DecidableEq, Repr

inductive Challenge where
  | redirect | framedPage | unauthorized
  deriving DecidableEq, Repr

inductive Verdict where
  | allow | deny
  | challenge (challenge : Challenge)
  deriving DecidableEq, Repr

inductive Reason where
  | owner | bearerVerified | delegated | anonymous | selfOrigin | bearerPassthrough | preflight
  | notOwner | noIdentity | revoked | hostConflict | unnormalisedPath | noPolicy | insecureScheme
  deriving DecidableEq, Repr

structure Decision where
  verdict : Verdict
  reason : Reason
  deriving DecidableEq, Repr

namespace Decision

def isAllow (decision : Decision) : Bool :=
  match decision.verdict with
  | .allow => true
  | _ => false

def allow (reason : Reason) : Decision := ⟨.allow, reason⟩
def deny (reason : Reason) : Decision := ⟨.deny, reason⟩

@[simp] theorem isAllow_allow (reason : Reason) : (allow reason).isAllow = true := rfl
@[simp] theorem isAllow_deny (reason : Reason) : (deny reason).isAllow = false := rfl

end Decision

/-- What the index knows about a host. -/
inductive CatalogLookup where
  | policy (policy : EndpointPolicy)
  | conflict
  | unknown
  deriving DecidableEq, Repr

def inOwnersTeam (policy : EndpointPolicy) (claims : Claims) : Bool :=
  match policy.team, claims.team with
  | some endpointTeam, some callerTeam => endpointTeam == callerTeam
  | _, _ => false

def namedByOwner (policy : EndpointPolicy) (claims : Claims) : Bool :=
  policy.allowUsers.contains claims.username
    || policy.allowGroups.any fun group => claims.groups.contains group

def authorise (policy : EndpointPolicy) (profile : AccessProfile) (claims : Claims)
    (ownerReason : Reason) : Decision :=
  if policy.isOwner claims.username then .allow ownerReason
  else if profile.delegation = [] then .deny .notOwner
  else if profile.delegates .team && inOwnersTeam policy claims then .allow .delegated
  else if profile.delegates .usersAndGroups && namedByOwner policy claims then .allow .delegated
  else .deny .notOwner

def challengeShape (request : AuthRequest) : Challenge :=
  match request.shape with
  | .navigation => .redirect
  | .framed => .framedPage
  | .other => .unauthorized

/-- The path before a query or a fragment. -/
def beforeQuery (rawPath : Text) : Text := rawPath.takeWhile fun c => c ≠ '?' && c ≠ '#'

def rawSelectsDifferently (policy : EndpointPolicy) (request : AuthRequest)
    (normalisedRule : Option Nat) : Bool :=
  (policy.select (beforeQuery request.rawPath) request.method).rule != normalisedRule

/-- What the selected profile answers a credential. -/
def answerCredential (request : AuthRequest) (policy : EndpointPolicy) (selected : Selected)
    (credential : Credential) : Decision :=
  match credential with
  | .session claims => authorise policy selected.profile claims .owner
  | .bearer claims => authorise policy selected.profile claims .bearerVerified
  | .serviceAccount name | .podOrigin name =>
    if name = policy.namespaceName then .allow .selfOrigin else .deny .notOwner
  | .foreignBearer =>
    if selected.bearer = .passthrough then .allow .bearerPassthrough
    else ⟨.challenge .unauthorized, .noIdentity⟩
  | .revokedSession => ⟨.challenge (challengeShape request), .revoked⟩
  | .none => ⟨.challenge (challengeShape request), .noIdentity⟩

def decide (request : AuthRequest) (scope : HostScope) (lookup : CatalogLookup)
    (credential : Credential) : Decision :=
  if request.scheme = .http then .deny .insecureScheme
  else if !scope.governs request.host then .deny .noPolicy
  else match lookup with
    | .conflict => .deny .hostConflict
    | .unknown => .deny .noPolicy
    | .policy policy =>
      if request.preflight then .allow .preflight
      else match normalise request.rawPath with
        | .error _ => .deny .unnormalisedPath
        | .ok path =>
          let selected := policy.select path request.method
          if rawSelectsDifferently policy request selected.rule then .deny .unnormalisedPath
          else if selected.profile.anonymous then .allow .anonymous
          else answerCredential request policy selected credential

/-! ## Who is let in -/

/-- The caller is the owner, or code of the endpoint's own namespace. -/
def isSelf (owner : Username) (home : NamespaceName) : Credential → Bool
  | .session claims | .bearer claims => owner == claims.username
  | .serviceAccount name | .podOrigin name => name == home
  | _ => false

/-- The caller is let in by the profile's delegation. -/
def isDelegated (policy : EndpointPolicy) (profile : AccessProfile) : Credential → Bool
  | .session claims | .bearer claims =>
    (profile.delegates .team && inOwnersTeam policy claims)
      || (profile.delegates .usersAndGroups && namedByOwner policy claims)
  | _ => false

/-- A credential of somebody else's making, on a path that hands it to the application. -/
def isPassedThrough (bearer : BearerMode) : Credential → Bool
  | .foreignBearer => bearer = .passthrough
  | _ => false

/-- Everything that gets a request through once its path has selected a profile. -/
def letsIn (policy : EndpointPolicy) (profile : AccessProfile) (bearer : BearerMode)
    (credential : Credential) : Bool :=
  profile.anonymous || isSelf policy.owner policy.namespaceName credential
    || isDelegated policy profile credential
    || isPassedThrough bearer credential

theorem authorise_isAllow (policy : EndpointPolicy) (profile : AccessProfile) (claims : Claims)
    (ownerReason : Reason) :
    (authorise policy profile claims ownerReason).isAllow =
      (policy.owner == claims.username
        || (profile.delegates .team && inOwnersTeam policy claims)
        || (profile.delegates .usersAndGroups && namedByOwner policy claims)) := by
  have nobody : profile.delegation = [] → ∀ kind, profile.delegates kind = false := by
    intro empty kind
    simp [AccessProfile.delegates, empty]
  unfold authorise
  by_cases owner : policy.isOwner claims.username
  · rw [if_pos owner]
    unfold EndpointPolicy.isOwner at owner
    simp [owner]
  · rw [if_neg owner]
    unfold EndpointPolicy.isOwner at owner
    rw [Bool.not_eq_true] at owner
    by_cases empty : profile.delegation = []
    · rw [if_pos empty]
      simp [owner, nobody empty]
    · rw [if_neg empty, owner, Bool.false_or]
      split
      · rename_i team
        simp [team]
      · rename_i team
        rw [Bool.not_eq_true] at team
        rw [team, Bool.false_or]
        split
        · rename_i named
          simp [named]
        · rename_i named
          simp [Bool.not_eq_true _ ▸ named]

theorem answerCredential_isAllow (request : AuthRequest) (policy : EndpointPolicy)
    (selected : Selected) (credential : Credential) :
    (selected.profile.anonymous || (answerCredential request policy selected credential).isAllow) =
      letsIn policy selected.profile selected.bearer credential := by
  unfold letsIn
  have workspace : ∀ name : NamespaceName,
      (if name = policy.namespaceName then Decision.allow .selfOrigin
        else .deny .notOwner).isAllow = (name == policy.namespaceName) := by
    intro name
    by_cases same : name = policy.namespaceName
    · simp [same]
    · simp [same]
  unfold answerCredential
  cases credential with
  | none => simp [isSelf, isDelegated, isPassedThrough, Decision.isAllow]
  | revokedSession => simp [isSelf, isDelegated, isPassedThrough, Decision.isAllow]
  | session claims => simp [isSelf, isDelegated, isPassedThrough, authorise_isAllow, Bool.or_assoc]
  | bearer claims => simp [isSelf, isDelegated, isPassedThrough, authorise_isAllow, Bool.or_assoc]
  | serviceAccount name => simp [isSelf, isDelegated, isPassedThrough, workspace]
  | podOrigin name => simp [isSelf, isDelegated, isPassedThrough, workspace]
  | foreignBearer =>
    by_cases passthrough : selected.bearer = .passthrough
    · simp [isSelf, isDelegated, isPassedThrough, passthrough]
    · simp [isSelf, isDelegated, isPassedThrough, passthrough, Decision.isAllow]

/-- Whether a request gets as far as the caller's credential. -/
def readsCredential (request : AuthRequest) (scope : HostScope) (lookup : CatalogLookup) : Bool :=
  match lookup with
  | .policy policy =>
    request.scheme = .https && scope.governs request.host && !request.preflight
      && match normalise request.rawPath with
        | .error _ => false
        | .ok path =>
          let selected := policy.select path request.method
          !rawSelectsDifferently policy request selected.rule && !selected.profile.anonymous
  | _ => false

/-- A request that does not is decided alike for every caller. -/
theorem decide_unread (request : AuthRequest) (scope : HostScope) (lookup : CatalogLookup)
    (credential other : Credential) (unread : readsCredential request scope lookup = false) :
    decide request scope lookup credential = decide request scope lookup other := by
  unfold decide
  cases scheme : request.scheme with
  | http => simp
  | https =>
    cases governed : scope.governs request.host with
    | false => simp
    | true =>
      cases lookup with
      | conflict => simp
      | unknown => simp
      | policy policy =>
        cases preflight : request.preflight with
        | true => simp
        | false =>
          cases normal : normalise request.rawPath with
          | error e => simp
          | ok path =>
            simp only [readsCredential, scheme, governed, preflight, normal, decide_true, Bool.not_false,
              Bool.true_and, Bool.and_eq_false_iff, Bool.not_eq_false'] at unread
            rcases unread with differs | anonymous
            · simp [differs]
            · simp [anonymous]

/-- The checks a request passes before a profile is asked about. -/
structure Reaches (scope : HostScope) (request : AuthRequest) (path : Text) : Prop where
  https : request.scheme = .https
  governed : scope.governs request.host = true
  plain : request.preflight = false
  normal : normalise request.rawPath = .ok path

/-- A request is allowed when it is a preflight, or when both readings of its path select
one rule and that rule's profile lets the caller in. -/
theorem decide_isAllow (request : AuthRequest) (scope : HostScope) (policy : EndpointPolicy)
    (credential : Credential) :
    (decide request scope (.policy policy) credential).isAllow = true ↔
      (request.scheme = .https ∧ scope.governs request.host = true ∧ request.preflight = true) ∨
        ∃ path, Reaches scope request path ∧
          (policy.select (beforeQuery request.rawPath) request.method).rule =
            (policy.select path request.method).rule ∧
          letsIn policy (policy.select path request.method).profile
            (policy.select path request.method).bearer credential = true := by
  unfold decide
  cases scheme : request.scheme with
  | http =>
    simp only [if_true, Decision.isAllow_deny, Bool.false_eq_true, reduceCtorEq, false_and,
      false_or, false_iff]
    rintro ⟨path, reaches, -⟩
    exact absurd reaches.https (by simp [scheme])
  | https =>
    cases governed : scope.governs request.host with
    | false =>
      simp only [reduceCtorEq, if_false, Bool.not_false, if_true, Decision.isAllow_deny,
        Bool.false_eq_true, false_and, and_false, false_or, false_iff]
      rintro ⟨path, reaches, -⟩
      exact absurd reaches.governed (by simp [governed])
    | true =>
      cases preflight : request.preflight with
      | true => simp
      | false =>
        cases normal : normalise request.rawPath with
        | error e =>
          simp only [reduceCtorEq, if_false, Bool.not_true, Bool.false_eq_true, Decision.isAllow_deny,
            and_false, false_or, false_iff]
          rintro ⟨path, reaches, -⟩
          exact absurd (normal.symm.trans reaches.normal) (by simp)
        | ok path =>
          have only : ∀ other, Reaches scope request other ↔ other = path := by
            intro other
            constructor
            · intro reaches
              exact Except.ok.inj (reaches.normal.symm.trans normal)
            · rintro rfl
              exact ⟨scheme, governed, preflight, normal⟩
          simp only [reduceCtorEq, if_false, Bool.not_true, Bool.false_eq_true, and_false, false_or, only,
            exists_eq_left, rawSelectsDifferently, bne_iff_ne, ne_eq]
          by_cases same : (policy.select (beforeQuery request.rawPath) request.method).rule =
              (policy.select path request.method).rule
          · rw [if_neg (not_not.mpr same), ← answerCredential_isAllow request]
            cases anonymous : (policy.select path request.method).profile.anonymous with
            | true => simp [same]
            | false => simp [same]
          · simp [same]

end WeeboSi.EndpointAuth
