import WeeboSi.Gateway.Session
import WeeboSi.Lib.Run

/-!
# One-time grants

Source: bins/endpoint-gateway/src/http.rs:630-686, 777-784, 1292-1304 and state.rs:633-660.
`redeem_grant` looks a grant up and inserts it under two separate locks, so concurrent
calls interleave between the two. The cache it uses holds an entry for five minutes at
most and 100,000 entries in all, and `validate` bounds neither a grant's lifetime nor the
number of redemptions.
-/
namespace WeeboSi.Gateway
open WeeboSi.Lib WeeboSi.EndpointAuth

def redeemedCapacity : Nat := 100000
def redeemedTtlSecs : Nat := 300

section Redeem
variable {K : Type} [DecidableEq K] (digest : List UInt8 → K) (config : GatewayConfig)

/-- Until when a redemption at `now` asks to be remembered. -/
def rememberUntil (now : Timestamp) : Timestamp := now.plusSecs (max config.session.grantTtlSecs 60)

/-- `redeem_grant`, undisturbed. -/
def redeemGrant (redeemed : IdentityCache K Unit) (id : Text) (now : Timestamp) :
    Bool × IdentityCache K Unit :=
  let (hit, redeemed) := redeemed.get (fingerprint digest id) now
  match hit with
  | some _ => (false, redeemed)
  | none => (true, redeemed.insert (fingerprint digest id) () (rememberUntil config now) now)

/-- The cache, the calls between their lookup and their insert, and the ids of the calls
that answered yes. -/
structure RedeemState (K : Type) where
  redeemed : IdentityCache K Unit
  waiting : List (Text × Timestamp)
  granted : List Text

inductive RedeemEvent where
  | lookup (id : Text) (now : Timestamp)
  | insert (id : Text) (now : Timestamp)
  deriving DecidableEq, Repr

def redeemStep (s : RedeemState K) : RedeemEvent → RedeemState K
  | .lookup id now =>
    let (hit, redeemed) := s.redeemed.get (fingerprint digest id) now
    match hit with
    | some _ => { s with redeemed }
    | none => { s with redeemed, waiting := (id, now) :: s.waiting }
  | .insert id now =>
    if (id, now) ∈ s.waiting then
      { redeemed := s.redeemed.insert (fingerprint digest id) () (rememberUntil config now) now
        waiting := s.waiting.erase (id, now)
        granted := id :: s.granted }
    else s

def redeemStart : RedeemState K := ⟨.new redeemedCapacity redeemedTtlSecs, [], []⟩

/-- A call that nothing comes between: its two steps are `redeem_grant`. -/
theorem redeemStep_undisturbed (s : RedeemState K) (id : Text) (now : Timestamp)
    (idle : (id, now) ∉ s.waiting) :
    (after (redeemStep digest config) s [.lookup id now, .insert id now]).redeemed =
        (redeemGrant digest config s.redeemed id now).2 ∧
      (after (redeemStep digest config) s [.lookup id now, .insert id now]).granted =
        if (redeemGrant digest config s.redeemed id now).1 then id :: s.granted else s.granted := by
  simp only [after, List.foldl_cons, List.foldl_nil]
  unfold redeemGrant
  cases hit : (s.redeemed.get (fingerprint digest id) now).1 with
  | some _ => simp [redeemStep, idle, hit]
  | none => simp [redeemStep, hit]

/-! ## One grant -/

variable (sso : SealedPayload) (id : Text) (sealedAt : Timestamp)

/-- When the grant stops opening. -/
def grantExpiry : Timestamp := (mintGrant config sso id sealedAt).expiresAt

/-- The grant is presented after it was sealed and while it opens. -/
def PresentedOpen (_ : RedeemState K) : RedeemEvent → Prop
  | .lookup other now =>
    other = id → sealedAt.secs ≤ now.secs ∧ now.secs < (grantExpiry config sso id sealedAt).secs
  | .insert _ _ => True

/-- No two calls for the grant overlap, the call that redeems it does so in the last five
minutes of its life, and no insert pushes it out of the cache. -/
def Undisturbed (s : RedeemState K) : RedeemEvent → Prop
  | .lookup other _ => other = id → ∀ earlier, (id, earlier) ∉ s.waiting
  | .insert other now =>
    (other = id → (grantExpiry config sso id sealedAt).secs ≤ now.secs + redeemedTtlSecs) ∧
      s.redeemed.pushedOut (fingerprint digest other) () (rememberUntil config now) now ≠
        some (fingerprint digest id)

def RedeemedOnce (s : RedeemState K) (event : RedeemEvent) : Prop :=
  (redeemStep digest config s event).granted.count id ≤ 1

/-- At most one call has said yes or is about to, and a yes is remembered until the grant
has stopped opening. -/
structure AtMostOnce (s : RedeemState K) : Prop where
  ttl : s.redeemed.ttlSecs = redeemedTtlSecs
  total : s.granted.count id + s.waiting.countP (·.1 = id) ≤ 1
  stamped : ∀ now, (id, now) ∈ s.waiting →
    sealedAt.secs ≤ now.secs ∧ now.secs < (grantExpiry config sso id sealedAt).secs
  remembered : id ∈ s.granted → ∃ entry, s.redeemed.entries.lookup (fingerprint digest id) = some entry ∧
    (grantExpiry config sso id sealedAt).secs ≤ entry.expiresAt.secs

/-- The deadline of a redemption at `now` is after `now` and not before the grant's end. -/
theorem remembered_until (sealed now grantTtl most cap : Nat) (later : sealed ≤ now)
    (opens : now < min (sealed + grantTtl) cap) (late : min (sealed + grantTtl) cap ≤ now + most) :
    now < min (min (now + max grantTtl 60) cap) (min (now + most) cap) ∧
      min (sealed + grantTtl) cap ≤ min (min (now + max grantTtl 60) cap) (min (now + most) cap) := by
  omega

theorem lookup_atMostOnce (s : RedeemState K) (other : Text) (now : Timestamp)
    (collisionFree : Function.Injective digest)
    (once : AtMostOnce digest config sso id sealedAt s)
    (opens : PresentedOpen config sso id sealedAt s (.lookup other now))
    (alone : Undisturbed digest config sso id sealedAt s (.lookup other now)) :
    AtMostOnce digest config sso id sealedAt (redeemStep digest config s (.lookup other now)) := by
  have distinct := fingerprint_injective digest collisionFree
  have kept : id ∈ s.granted → ∃ entry,
      (s.redeemed.get (fingerprint digest other) now).2.entries.lookup (fingerprint digest id) = some entry ∧
        (grantExpiry config sso id sealedAt).secs ≤ entry.expiresAt.secs := by
    intro granted
    obtain ⟨entry, stored, long⟩ := once.remembered granted
    by_cases same : other = id
    · subst same
      -- the grant opens now, so its entry is alive and the lookup hits
      have hit : (s.redeemed.get (fingerprint digest other) now).1 = some () := by
        rw [IdentityCache.get_eq_some]
        exact ⟨entry, stored, by have := (opens rfl).2; omega, rfl⟩
      rw [IdentityCache.get_hit _ _ _ _ hit]
      exact ⟨entry, stored, long⟩
    · rw [IdentityCache.lookup_get_ne _ _ _ _ fun shared => same (distinct shared).symm]
      exact ⟨entry, stored, long⟩
  unfold redeemStep
  dsimp only
  cases hit : (s.redeemed.get (fingerprint digest other) now).1 with
  | some _ => exact ⟨by simpa using once.ttl, once.total, once.stamped, kept⟩
  | none =>
    refine ⟨by simpa using once.ttl, ?_, ?_, kept⟩
    · by_cases same : other = id
      · subst same
        have unredeemed : other ∉ s.granted := by
          intro granted
          obtain ⟨entry, stored, long⟩ := once.remembered granted
          have found : (s.redeemed.get (fingerprint digest other) now).1 = some () :=
            (IdentityCache.get_eq_some _ _ _ _).mpr
              ⟨entry, stored, by have := (opens rfl).2; omega, rfl⟩
          rw [hit] at found
          cases found
        have idle : s.waiting.countP (·.1 = other) = 0 := by
          rw [List.countP_eq_zero]
          rintro ⟨first, earlier⟩ member
          simp only [decide_eq_true_eq]
          rintro rfl
          exact alone rfl earlier member
        simp [List.count_eq_zero_of_not_mem unredeemed, idle]
      · simpa [List.countP_cons, same] using once.total
    · intro stamp member
      rcases List.mem_cons.mp member with new | old
      · obtain ⟨rfl, rfl⟩ := Prod.mk.inj new
        exact opens rfl
      · exact once.stamped stamp old

theorem insert_atMostOnce (s : RedeemState K) (other : Text) (now : Timestamp)
    (collisionFree : Function.Injective digest)
    (once : AtMostOnce digest config sso id sealedAt s)
    (alone : Undisturbed digest config sso id sealedAt s (.insert other now)) :
    AtMostOnce digest config sso id sealedAt (redeemStep digest config s (.insert other now)) := by
  have distinct := fingerprint_injective digest collisionFree
  unfold redeemStep
  dsimp only
  by_cases called : (other, now) ∈ s.waiting
  · rw [if_pos called]
    have calls := (List.perm_cons_erase called).countP_eq (·.1 = id)
    rw [List.countP_cons] at calls
    have total := once.total
    refine ⟨by simpa using once.ttl, ?_, fun stamp member => once.stamped stamp (List.mem_of_mem_erase member),
      ?_⟩
    · by_cases same : other = id
      · simp only [same, decide_true, if_true] at calls
        simp only [List.count_cons, same, beq_self_eq_true, if_true]
        omega
      · simp only [same, decide_false, Bool.false_eq_true, if_false] at calls
        simp only [List.count_cons, beq_iff_eq, same, if_false]
        omega
    · intro granted
      by_cases same : other = id
      · subst same
        obtain ⟨later, opens⟩ := once.stamped now called
        have deadline : (s.redeemed.deadline (rememberUntil config now) now).secs =
            min (min (now.secs + max config.session.grantTtlSecs 60) u64Max)
              (min (now.secs + redeemedTtlSecs) u64Max) := by
          simp [IdentityCache.deadline, rememberUntil, once.ttl]
        have long := remembered_until sealedAt.secs now.secs config.session.grantTtlSecs redeemedTtlSecs
          u64Max later opens (alone.1 rfl)
        rw [← deadline] at long
        exact ⟨_, IdentityCache.lookup_insert_self _ _ _ _ _ long.1 alone.2, long.2⟩
      · have old : id ∈ s.granted := by
          rcases List.mem_cons.mp granted with rfl | old
          · exact absurd rfl same
          · exact old
        rw [IdentityCache.lookup_insert_ne _ _ _ _ _ _ (fun shared => same (distinct shared).symm) alone.2]
        exact once.remembered old
  · rw [if_neg called]
    exact once

/-- In every interleaving that leaves the grant undisturbed, it is redeemed at most once. -/
theorem grant_redeemed_once (collisionFree : Function.Injective digest) (events : List RedeemEvent)
    (opens : Along (redeemStep digest config) (PresentedOpen config sso id sealedAt) redeemStart events)
    (alone : Along (redeemStep digest config) (Undisturbed digest config sso id sealedAt) redeemStart events) :
    Along (redeemStep digest config) (RedeemedOnce digest config id) redeemStart events := by
  have step : ∀ s event, AtMostOnce digest config sso id sealedAt s →
      (PresentedOpen config sso id sealedAt s event ∧ Undisturbed digest config sso id sealedAt s event) →
      AtMostOnce digest config sso id sealedAt (redeemStep digest config s event) := by
    rintro s event once ⟨presented, undisturbed⟩
    cases event with
    | lookup other now =>
      exact lookup_atMostOnce digest config sso id sealedAt s other now collisionFree once presented undisturbed
    | insert other now =>
      exact insert_atMostOnce digest config sso id sealedAt s other now collisionFree once undisturbed
  refine along_of_invariant _ (AtMostOnce digest config sso id sealedAt) _ _ step ?_ _ ?_ events
    ((along_and _ _ _ _ _).mpr ⟨opens, alone⟩)
  · intro s event once admissible
    exact Nat.le_trans (Nat.le_add_right _ _) (step s event once admissible).total
  · exact ⟨rfl, by simp [redeemStart], by simp [redeemStart], by simp [redeemStart]⟩

end Redeem

/-! ## Redeemed twice -/

def plainConfig : GatewayConfig where
  issuer := "https://id.weebo.si".toList
  redirectUrl := "https://auth.weebo.si/oidc/callback".toList
  usernameClaim := "preferred_username".toList
  hostsSuffix := ".weebo.si".toList
  hostsExclude := []
  session := .standard
  verifyOwnIssuer := true
  audiences := ["endpoint-gateway".toList]
  authorizedParties := []
  trustedProxy := .off
  podNetwork := .off
  reverseProxy := false
  rejectUnnormalisedPath := true

def aliceSession : SealedPayload :=
  ⟨"alice".toList, [], none, ⟨43200, by decide⟩, 1, none, ⟨0, Nat.zero_le u64Max⟩, none, none⟩

def grantG : Text := "g".toList

theorem grant_redeemed_once_alone :
    Along (redeemStep id plainConfig) (RedeemedOnce id plainConfig grantG) redeemStart
        [.lookup grantG ⟨1, by decide⟩, .insert grantG ⟨1, by decide⟩, .lookup grantG ⟨2, by decide⟩] ∧
      (after (redeemStep id plainConfig) redeemStart
        [.lookup grantG ⟨1, by decide⟩, .insert grantG ⟨1, by decide⟩,
          .lookup grantG ⟨2, by decide⟩]).granted = [grantG] := by
  refine ⟨grant_redeemed_once id plainConfig aliceSession grantG ⟨0, by decide⟩ Function.injective_id _ ?_ ?_,
    by decide +kernel⟩
  · exact ⟨fun _ => by decide, trivial, fun _ => by decide, trivial⟩
  · refine ⟨fun _ earlier => by simp [redeemStart], ⟨fun _ => by decide, by decide +kernel⟩, ?_, trivial⟩
    intro _ earlier
    have idle : (after (redeemStep id plainConfig) redeemStart
        [.lookup grantG ⟨1, by decide⟩, .insert grantG ⟨1, by decide⟩]).waiting = [] := by decide +kernel
    change (grantG, earlier) ∉ (after (redeemStep id plainConfig) redeemStart
        [.lookup grantG ⟨1, by decide⟩, .insert grantG ⟨1, by decide⟩]).waiting
    simp [idle]

/-- Two calls look the grant up before either inserts it. -/
theorem overlapping_calls_redeem_twice :
    ¬ ∀ (config : GatewayConfig) (sso : SealedPayload) (grant : Text) (sealedAt : Timestamp)
      (events : List RedeemEvent), config.validate = .ok () →
      Along (redeemStep id config) (PresentedOpen config sso grant sealedAt) redeemStart events →
      Along (redeemStep id config) (RedeemedOnce id config grant) redeemStart events := by
  intro once
  have run := once plainConfig aliceSession grantG ⟨0, by decide⟩
    [.lookup grantG ⟨1, by decide⟩, .lookup grantG ⟨1, by decide⟩, .insert grantG ⟨1, by decide⟩,
      .insert grantG ⟨1, by decide⟩]
    (by decide +kernel) ⟨fun _ => by decide, fun _ => by decide, trivial, trivial, trivial⟩
  have twice : (after (redeemStep id plainConfig) redeemStart
      [.lookup grantG ⟨1, by decide⟩, .lookup grantG ⟨1, by decide⟩, .insert grantG ⟨1, by decide⟩,
        .insert grantG ⟨1, by decide⟩]).granted.count grantG = 2 := by decide +kernel
  have last : (after (redeemStep id plainConfig) redeemStart
      [.lookup grantG ⟨1, by decide⟩, .lookup grantG ⟨1, by decide⟩, .insert grantG ⟨1, by decide⟩,
        .insert grantG ⟨1, by decide⟩]).granted.count grantG ≤ 1 := run.2.2.2.1
  omega

end WeeboSi.Gateway
