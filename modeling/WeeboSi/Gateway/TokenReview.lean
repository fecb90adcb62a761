import WeeboSi.EndpointAuth.Application
import WeeboSi.Lib.Run

/-!
# Service-account tokens and their expiry

Source: bins/endpoint-gateway/src/adapters/kube_workload.rs:297-369, 499-569, 826-832,
adapters/oidc.rs:654-661 and state.rs:633-660. The reviewer caches an answer until the
token's own `exp`; the gateway copies it into a cache of its own, under an expiry counted
from the moment of copying. Decoding base64url and JSON is third-party: `payloadExp` is
the unsigned integer `exp` of the object a payload encodes.
-/
namespace WeeboSi.Gateway
open WeeboSi.Lib WeeboSi.EndpointAuth

/-- One hour: both caches' lifetime, and what an answer is given when it is handed on. -/
def reviewTtlSecs : Nat := 3600

section Reviewer
variable {K : Type} [DecidableEq K] (digest : List UInt8 → K) (payloadExp : Text → Option Timestamp)

/-- The `exp` a token claims, read without verifying anything. -/
def unverifiedExp (token : Text) : Option Timestamp := do
  let payload ← (token.splitOn '.')[1]?
  payloadExp (payload.reverse.dropWhile (· == '=')).reverse

def reviewLifetime (token : Text) (now : Timestamp) : Option Timestamp :=
  let ceiling := now.plusSecs reviewTtlSecs
  match unverifiedExp payloadExp token with
  | some exp =>
    if exp.secs ≤ now.secs then none
    else if exp.secs < ceiling.secs then some exp
    else some ceiling
  | none => some ceiling

/-- `TokenReviewer::cached`, the gateway's port. -/
def cachedReview (reviews : IdentityCache K NamespaceName) (token : Text) (now : Timestamp) :
    Option ServiceAccountIdentity × IdentityCache K NamespaceName :=
  let (hit, reviews) := reviews.get (fingerprint digest token) now
  (hit.map fun name => ⟨name, now.plusSecs reviewTtlSecs⟩, reviews)

/-- The end of `review_uncached`, once the apiserver vouched for the token. `now` is the
time the review was asked at. -/
def recordReview (reviews : IdentityCache K NamespaceName) (token : Text) (name : NamespaceName)
    (now : Timestamp) : IdentityCache K NamespaceName :=
  match reviewLifetime payloadExp token now with
  | some until_ => reviews.insert (fingerprint digest token) name until_ now
  | none => reviews

end Reviewer

/-! ## Runs -/

structure GateState (K : Type) where
  caches : Caches K
  reviews : IdentityCache K NamespaceName

inductive GateEvent (K : Type) where
  /-- A request, decided while the ports answer as they do. -/
  | request (ports : Ports) (enforcement : Enforcement) (request : AuthRequest)
      (presented : Presented) (now : Timestamp)
  /-- The apiserver, at `judged`, vouched for a token whose review was asked at `asked`. -/
  | reviewed (token : Text) (name : NamespaceName) (asked judged : Timestamp)
  /-- The reviewer reads its own cache before it asks. -/
  | lookedUp (token : Text) (now : Timestamp)
  /-- Whatever else happens to the session and bearer caches. -/
  | churned (sessions bearers : IdentityCache K Claims)

section Run
variable {K : Type} [DecidableEq K] (digest : List UInt8 → K) (payloadExp : Text → Option Timestamp)

/-- The ports, with the reviewer behind the workload port. -/
def reviewerPorts (reviews : IdentityCache K NamespaceName) (ports : Ports) : Ports :=
  { ports with
    namespaceOfServiceAccount := fun token now => (cachedReview digest reviews token now).1 }

def gateStep (s : GateState K) : GateEvent K → GateState K
  | .request ports enforcement request presented now =>
    let ports := reviewerPorts digest s.reviews ports
    { caches := (authorizeResolved digest ports enforcement s.caches request presented now).2
      reviews := match consulted digest ports s.caches request presented now with
        | some token => (cachedReview digest s.reviews token now).2
        | none => s.reviews }
  | .reviewed token name asked _ =>
    { s with reviews := recordReview digest payloadExp s.reviews token name asked }
  | .lookedUp token now => { s with reviews := (cachedReview digest s.reviews token now).2 }
  | .churned sessions bearers =>
    { s with caches := { s.caches with sessions, bearers } }

/-- The gateway at start: the caches are empty. -/
def gateStart (capacity reviewCapacity ttlSecs : Nat) : GateState K where
  caches :=
    { sessions := .new capacity ttlSecs
      bearers := .new capacity ttlSecs
      serviceAccounts := .new reviewCapacity reviewTtlSecs }
  reviews := .new reviewCapacity reviewTtlSecs

def GateEvent.time : GateEvent K → Option Timestamp
  | .request _ _ _ _ now | .lookedUp _ now | .reviewed _ _ _ now => some now
  | .churned _ _ => none

/-- The clock never goes back. -/
def InOrder (events : List (GateEvent K)) : Prop :=
  (events.filterMap GateEvent.time).Pairwise fun earlier later => earlier.secs ≤ later.secs

/-- The apiserver vouches for unexpired tokens only, and after it was asked. -/
def Vouched (_ : GateState K) : GateEvent K → Prop
  | .reviewed token _ asked judged =>
    asked.secs ≤ judged.secs ∧ ∀ exp, unverifiedExp payloadExp token = some exp → judged.secs < exp.secs
  | _ => True

/-- A token that the gateway takes over from the reviewer has an hour left. -/
def CopiedInTime (s : GateState K) : GateEvent K → Prop
  | .request ports _ request presented now =>
    ∀ token exp,
      consulted digest (reviewerPorts digest s.reviews ports) s.caches request presented now = some token →
      (cachedReview digest s.reviews token now).1.isSome → unverifiedExp payloadExp token = some exp →
      now.secs + reviewTtlSecs ≤ exp.secs
  | _ => True

/-- No token is taken for a workspace's at or after its own expiry. -/
def HonouredInTime (s : GateState K) : GateEvent K → Prop
  | .request ports enforcement request presented now =>
    ∀ token name exp, presented.token = some token →
      (authorizeResolved digest (reviewerPorts digest s.reviews ports) enforcement s.caches request
        presented now).1.credential = .serviceAccount name →
      unverifiedExp payloadExp token = some exp → now.secs < exp.secs
  | _ => True

/-- No entry outlives the expiry of the token it is for. -/
def Outlived (key : K) (entry : Entry NamespaceName) : Prop :=
  ∀ token exp, fingerprint digest token = key → unverifiedExp payloadExp token = some exp →
    entry.expiresAt.secs ≤ exp.secs

structure InTime (s : GateState K) : Prop where
  copies : s.caches.serviceAccounts.All (Outlived digest payloadExp)
  reviews : s.reviews.All (Outlived digest payloadExp)

theorem reviewLifetime_le (token : Text) (now until_ exp : Timestamp)
    (lifetime : reviewLifetime payloadExp token now = some until_)
    (claimed : unverifiedExp payloadExp token = some exp) : until_.secs ≤ exp.secs := by
  unfold reviewLifetime at lifetime
  simp only [claimed] at lifetime
  split at lifetime
  · cases lifetime
  · split at lifetime
    · rw [← Option.some.inj lifetime]
    · rw [← Option.some.inj lifetime]
      omega

theorem gateStep_inTime (collisionFree : Function.Injective digest) (s : GateState K)
    (event : GateEvent K) (inTime : InTime digest payloadExp s)
    (copied : CopiedInTime digest payloadExp s event) :
    InTime digest payloadExp (gateStep digest payloadExp s event) := by
  have same := fingerprint_injective digest collisionFree
  have lookups : ∀ token now, (cachedReview digest s.reviews token now).2.All (Outlived digest payloadExp) :=
    fun token now => IdentityCache.all_get _ _ _ _ inTime.reviews
  cases event with
  | request ports enforcement request presented now =>
    constructor
    · refine authorize_serviceAccounts digest _ request presented now enforcement s.caches _
        inTime.copies ?_
      intro token identity asked answer entry _ _ within other exp shared claimed
      obtain rfl := same shared
      have hit : (cachedReview digest s.reviews other now).1 = some identity := answer
      have hour := copied other exp asked (by rw [hit]; rfl) claimed
      obtain ⟨name, -, rfl⟩ := Option.map_eq_some_iff.mp hit
      simp only [Timestamp.plusSecs_secs] at within
      omega
    · unfold gateStep
      dsimp only
      split
      · exact lookups _ _
      · exact inTime.reviews
  | reviewed token name asked judged =>
    refine ⟨inTime.copies, ?_⟩
    unfold gateStep recordReview
    dsimp only
    split
    · rename_i until_ lifetime
      refine IdentityCache.all_insert _ _ _ _ _ _ inTime.reviews ?_
      intro entry _ _ within _ other exp shared claimed
      obtain rfl := same shared
      exact Nat.le_trans within (reviewLifetime_le payloadExp other asked until_ exp lifetime claimed)
    · exact inTime.reviews
  | lookedUp token now => exact ⟨inTime.copies, lookups token now⟩
  | churned sessions bearers => exact ⟨inTime.copies, inTime.reviews⟩

theorem honoured_of_inTime (s : GateState K) (event : GateEvent K)
    (inTime : InTime digest payloadExp s) : HonouredInTime digest payloadExp s event := by
  cases event with
  | request ports enforcement request presented now =>
    intro token name exp presentedToken credential claimed
    obtain ⟨token', presented', found⟩ := authorize_serviceAccount_cases digest _ request presented now
      enforcement s.caches name credential
    obtain rfl := Option.some.inj (presentedToken.symm.trans presented')
    have live : ∀ cache : IdentityCache K NamespaceName, cache.All (Outlived digest payloadExp) →
        ∀ value, (cache.get (fingerprint digest token) now).1 = some value → now.secs < exp.secs := by
      intro cache all value hit
      obtain ⟨entry, stored, alive, -⟩ := (IdentityCache.get_eq_some _ _ _ _).mp hit
      exact Nat.lt_of_lt_of_le alive (all _ entry stored token exp rfl claimed)
    rcases found with hit | ⟨-, identity, answer⟩
    · exact live _ inTime.copies name hit
    · obtain ⟨value, hit, -⟩ := Option.map_eq_some_iff.mp answer
      exact live _ inTime.reviews value hit
  | reviewed token name asked judged => trivial
  | lookedUp token now => trivial
  | churned sessions bearers => trivial

/-- In every run in which the gateway takes an answer over from the reviewer an hour or
more before the token expires, no expired token is honoured. -/
theorem serviceAccount_honoured_in_time (collisionFree : Function.Injective digest)
    (capacity reviewCapacity ttlSecs : Nat) (events : List (GateEvent K))
    (run : Along (gateStep digest payloadExp) (CopiedInTime digest payloadExp)
      (gateStart capacity reviewCapacity ttlSecs) events) :
    Along (gateStep digest payloadExp) (HonouredInTime digest payloadExp)
      (gateStart capacity reviewCapacity ttlSecs) events := by
  refine along_of_invariant _ (InTime digest payloadExp) (CopiedInTime digest payloadExp) _ ?_ ?_ _ ?_
    events run
  · exact fun s e inTime copied => gateStep_inTime digest payloadExp collisionFree s e inTime copied
  · exact fun s e inTime _ => honoured_of_inTime digest payloadExp s e inTime
  · exact ⟨IdentityCache.all_new _ _ _, IdentityCache.all_new _ _ _⟩

end Run

/-! ## A token honoured past its expiry -/

/-- The gateway of `api.weebo.si`, whose endpoint is private to `user-alice`. -/
def plainPorts : Ports where
  policyFor := fun _ => .policy
    { namespaceName := "user-alice".toList
      owner := "alice".toList
      team := none
      profile := .privateProfile
      allowUsers := []
      allowGroups := []
      bearer := .reject
      rules := []
      provenance := .author
      upstream := none
      generation := 1 }
  scope := ⟨".weebo.si".toList, [], by decide⟩
  openHostSession := fun _ _ _ => none
  verify := fun _ _ => .foreign
  namespaceOfAddress := fun _ => none
  namespaceOfServiceAccount := fun _ _ => none
  isRevoked := fun _ => false
  teamOf := fun _ => none

def plainRequest : AuthRequest :=
  ⟨⟨"api.weebo.si".toList, by decide, by decide, by decide⟩, "/".toList, .get, .https, .other, false⟩

/-- A token whose payload is the base64url text of an object with `exp` 4000. -/
def tokenOf4000 : Text := "e30.eyJleHAiOjQwMDB9.c2ln".toList

def expOf4000 (payload : Text) : Option Timestamp :=
  if payload = "eyJleHAiOjQwMDB9".toList then some ⟨4000, by decide⟩ else none

def plainBearer : Presented := ⟨none, some tokenOf4000, none⟩

/-- A review of the token asked at the start, and requests with it at the given times. -/
def reviewedThenUsed (times : List Timestamp) : List (GateEvent (List UInt8)) :=
  .reviewed tokenOf4000 "user-alice".toList ⟨0, Nat.zero_le u64Max⟩ ⟨0, Nat.zero_le u64Max⟩ ::
    times.map fun now => .request plainPorts .enforce plainRequest plainBearer now

theorem serviceAccount_honoured_in_time_early :
    Along (gateStep id expOf4000) (HonouredInTime id expOf4000) (gateStart 16 16 3600)
        (reviewedThenUsed [⟨100, by decide⟩]) ∧
      (authorizeResolved id
        (reviewerPorts id (after (gateStep id expOf4000) (gateStart 16 16 3600)
          (reviewedThenUsed [])).reviews plainPorts) .enforce
        (gateStart 16 16 3600).caches plainRequest plainBearer ⟨100, by decide⟩).1.credential =
          .serviceAccount "user-alice".toList := by
  refine ⟨serviceAccount_honoured_in_time id expOf4000 Function.injective_id 16 16 3600 _ ?_, ?_⟩
  · refine ⟨trivial, ?_, trivial⟩
    intro token exp asked _ claimed
    obtain rfl : token = tokenOf4000 :=
      (Option.some.inj (consulted_eq_some _ _ _ _ _ _ _ asked).1).symm.trans (by decide)
    have known : unverifiedExp expOf4000 tokenOf4000 = some ⟨4000, by decide⟩ := by decide
    rw [← Option.some.inj (known.symm.trans claimed)]
    decide
  · decide +kernel

/-- Reviewed at 0, copied at 3599, honoured at 5000: the token expired at 4000. -/
theorem expired_token_honoured :
    ¬ ∀ (capacity reviewCapacity ttlSecs : Nat) (events : List (GateEvent (List UInt8))),
      InOrder events →
      Along (gateStep id expOf4000) (Vouched expOf4000)
        (gateStart capacity reviewCapacity ttlSecs) events →
      Along (gateStep id expOf4000) (HonouredInTime id expOf4000)
        (gateStart capacity reviewCapacity ttlSecs) events := by
  intro honoured
  have known : unverifiedExp expOf4000 tokenOf4000 = some ⟨4000, by decide⟩ := by decide
  have vouched : Along (gateStep id expOf4000) (Vouched expOf4000) (gateStart 16 16 3600)
      (reviewedThenUsed [⟨3599, by decide⟩, ⟨5000, by decide⟩]) := by
    refine ⟨⟨Nat.le_refl _, ?_⟩, trivial, trivial, trivial⟩
    intro exp claimed
    rw [← Option.some.inj (known.symm.trans claimed)]
    decide
  have run := honoured 16 16 3600 (reviewedThenUsed [⟨3599, by decide⟩, ⟨5000, by decide⟩])
    (by unfold InOrder; decide) vouched
  have late := run.2.2.1 tokenOf4000 "user-alice".toList ⟨4000, by decide⟩ (by decide)
    (by decide +kernel) known
  exact absurd late (by decide)

end WeeboSi.Gateway
