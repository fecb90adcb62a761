import WeeboSi.Gateway.RateLimit

/-!
# Calls that reach the limiter out of order

Source: bins/endpoint-gateway/src/ratelimit.rs:87-141. A caller reads the clock before it
takes the lock, so a call may be stamped earlier than the one before it. Such a call adds
nothing to the bucket, but it sets back the second the bucket was last counted in, and the
seconds in between are then refilled twice.
-/
namespace WeeboSi.Gateway
open WeeboSi.Lib WeeboSi.EndpointAuth

/-! ## One bucket -/

namespace Rate
variable (rate : Rate)

def refill (bucket : Bucket) (now : Nat) : Nat :=
  min rate.ceiling (bucket.milliTokens + (now - bucket.touched) * rate.perSecond)

/-- The answer to one call, and the bucket after it. -/
def callOn (bucket : Bucket) (now : Nat) : Bool × Bucket :=
  if rate.refill bucket now < 1000 then (false, ⟨rate.refill bucket now, now⟩)
  else (true, ⟨rate.refill bucket now - 1000, now⟩)

/-- How many of the calls, in this order, the bucket allows. -/
def allowedOn (bucket : Bucket) : List Timestamp → Nat
  | [] => 0
  | now :: rest =>
    (if (rate.callOn bucket now.secs).1 then 1 else 0) + allowedOn (rate.callOn bucket now.secs).2 rest

theorem refill_le_ceiling (bucket : Bucket) (now : Nat) : rate.refill bucket now ≤ rate.ceiling :=
  Nat.min_le_left _ _

theorem refill_refilled (bucket : Bucket) (now : Nat) :
    rate.refill ⟨rate.refill bucket now, now⟩ now = rate.refill bucket now := by
  have bound := rate.refill_le_ceiling bucket now
  change min rate.ceiling (rate.refill bucket now + (now - now) * rate.perSecond) = _
  rw [Nat.sub_self, Nat.zero_mul]
  omega

theorem allowedOn_cons (bucket : Bucket) (now : Timestamp) (rest : List Timestamp) :
    rate.allowedOn bucket (now :: rest) =
      if rate.refill bucket now.secs < 1000 then
        rate.allowedOn ⟨rate.refill bucket now.secs, now.secs⟩ rest
      else rate.allowedOn ⟨rate.refill bucket now.secs - 1000, now.secs⟩ rest + 1 := by
  rw [allowedOn, callOn]
  split
  · simp
  · simp [Nat.add_comm]

/-- A bucket refilled before the call answers alike. -/
theorem allowedOn_refilled (bucket : Bucket) (now : Timestamp) (rest : List Timestamp) :
    rate.allowedOn bucket (now :: rest) =
      rate.allowedOn ⟨rate.refill bucket now.secs, now.secs⟩ (now :: rest) := by
  rw [allowedOn_cons, allowedOn_cons, refill_refilled]

/-- Being ahead by `lead` calls' worth is never worth more than that many calls. -/
theorem allowedOn_mono (times : List Timestamp) (more less touched lead : Nat)
    (ahead : more ≤ less + 1000 * lead) :
    rate.allowedOn ⟨more, touched⟩ times ≤ rate.allowedOn ⟨less, touched⟩ times + lead := by
  induction times generalizing more less touched lead with
  | nil => exact Nat.zero_le _
  | cons now rest ih =>
    have refilled : rate.refill ⟨more, touched⟩ now.secs ≤ rate.refill ⟨less, touched⟩ now.secs + 1000 * lead := by
      unfold refill
      dsimp only
      omega
    rw [allowedOn_cons, allowedOn_cons]
    generalize rate.refill ⟨more, touched⟩ now.secs = a at refilled
    generalize rate.refill ⟨less, touched⟩ now.secs = b at refilled
    split
    · split
      · exact ih a b now.secs lead refilled
      · -- Only the fuller bucket has paid; what it is short of is one call more of a lead.
        have := ih a (b - 1000) now.secs (lead + 1) (by omega)
        omega
    · split
      · obtain ⟨fewer, rfl⟩ : ∃ fewer, lead = fewer + 1 := ⟨lead - 1, by omega⟩
        have := ih (a - 1000) b now.secs fewer (by omega)
        omega
      · have := ih (a - 1000) (b - 1000) now.secs lead (by omega)
        omega

/-! ## Draining a bucket -/

/-- Calls enough within one second take every whole call out. -/
theorem allowedOn_drain (count tokens : Nat) (now : Timestamp) (rest : List Timestamp)
    (capped : tokens ≤ rate.ceiling) (enough : tokens / 1000 ≤ count) :
    rate.allowedOn ⟨tokens, now.secs⟩ (List.replicate count now ++ rest) =
      tokens / 1000 + rate.allowedOn ⟨tokens % 1000, now.secs⟩ rest := by
  induction count generalizing tokens with
  | zero =>
    have small : tokens < 1000 := by omega
    rw [Nat.mod_eq_of_lt small, Nat.div_eq_of_lt small]
    simp
  | succ count ih =>
    have same : rate.refill ⟨tokens, now.secs⟩ now.secs = tokens := by
      simp only [refill, Nat.sub_self, Nat.zero_mul, Nat.add_zero]
      omega
    rw [List.replicate_succ, List.cons_append, allowedOn_cons, same]
    split
    · rw [ih tokens capped (by omega)]
    · rw [ih (tokens - 1000) (by omega) (by omega)]
      have whole : tokens / 1000 = (tokens - 1000) / 1000 + 1 := by omega
      have part : tokens % 1000 = (tokens - 1000) % 1000 := by omega
      rw [whole, part]
      omega

def stampZero : Timestamp := ⟨0, Nat.zero_le _⟩

def stampOne : Timestamp := stampZero.plusSecs 1

theorem stampOne_secs : stampOne.secs = 1 := by decide

/-- A call stamped zero, which finds nothing, and then one second's worth of calls. -/
def tick : List Timestamp := stampZero :: List.replicate rate.burst.toNat stampOne

theorem allowedOn_tick (tokens touched : Nat) (rest : List Timestamp) (drained : tokens < 1000)
    (some_ : 0 < rate.burst.toNat) :
    rate.allowedOn ⟨tokens, touched⟩ (rate.tick ++ rest) =
      min rate.ceiling (tokens + rate.perSecond) / 1000 +
        rate.allowedOn ⟨min rate.ceiling (tokens + rate.perSecond) % 1000, 1⟩ rest := by
  have large : 1000 ≤ rate.ceiling := by
    unfold ceiling
    omega
  have nothing : rate.refill ⟨tokens, touched⟩ stampZero.secs = tokens := by
    have zero : stampZero.secs = 0 := rfl
    simp only [refill, zero, Nat.zero_sub, Nat.zero_mul, Nat.add_zero]
    omega
  have second : rate.refill ⟨tokens, 0⟩ stampOne.secs = min rate.ceiling (tokens + rate.perSecond) := by
    simp [refill, stampOne_secs]
  obtain ⟨count, calls⟩ : ∃ count, rate.burst.toNat = count + 1 := ⟨rate.burst.toNat - 1, by omega⟩
  have zero : stampZero.secs = 0 := rfl
  unfold tick
  rw [List.cons_append, allowedOn_cons, nothing, if_pos drained, zero, calls, List.replicate_succ,
    List.cons_append, allowedOn_refilled, second, ← List.cons_append, ← List.replicate_succ, stampOne_secs]
  have drain := rate.allowedOn_drain (count + 1) (min rate.ceiling (tokens + rate.perSecond)) stampOne rest
    (Nat.min_le_left _ _) (by unfold ceiling at *; omega)
  rw [stampOne_secs] at drain
  exact drain

/-! ## When one bucket is never ahead of another -/

/-- Whatever is called, the first bucket allows no more than the second. -/
def NeverAhead (a b : Bucket) : Prop := ∀ times, rate.allowedOn a times ≤ rate.allowedOn b times

section Ahead
variable (lead : Nat) (positive : 0 < lead) (burst : 0 < rate.burst.toNat)
  (uncapped : ∀ tokens, tokens + lead < 1000 → tokens + rate.perSecond < rate.ceiling)
include positive burst uncapped

/-- A lead of less than a call survives a second, and the buckets stay a lead apart. -/
theorem neverAhead_tick (tokens touched : Nat) (small : tokens + lead < 1000)
    (never : rate.NeverAhead ⟨tokens + lead, touched⟩ ⟨tokens, touched⟩) :
    (tokens + rate.perSecond) % 1000 + lead < 1000 ∧
      rate.NeverAhead ⟨(tokens + rate.perSecond) % 1000 + lead, 1⟩
        ⟨(tokens + rate.perSecond) % 1000, 1⟩ := by
  have below := uncapped tokens small
  have counts : ∀ rest, min rate.ceiling (tokens + lead + rate.perSecond) / 1000 +
      rate.allowedOn ⟨min rate.ceiling (tokens + lead + rate.perSecond) % 1000, 1⟩ rest ≤
        (tokens + rate.perSecond) / 1000 + rate.allowedOn ⟨(tokens + rate.perSecond) % 1000, 1⟩ rest := by
    intro rest
    have after := never (rate.tick ++ rest)
    rwa [allowedOn_tick rate _ _ _ small burst, allowedOn_tick rate _ _ _ (by omega) burst,
      Nat.min_eq_right (Nat.le_of_lt below)] at after
  have whole := counts []
  simp only [allowedOn, Nat.add_zero] at whole
  have room : tokens + lead + rate.perSecond < rate.ceiling := by
    unfold ceiling at whole below ⊢
    omega
  rw [Nat.min_eq_right (Nat.le_of_lt room)] at counts whole
  have same : (tokens + lead + rate.perSecond) / 1000 = (tokens + rate.perSecond) / 1000 := by omega
  have part : (tokens + lead + rate.perSecond) % 1000 = (tokens + rate.perSecond) % 1000 + lead := by omega
  refine ⟨by omega, fun times => ?_⟩
  have rest := counts times
  rw [same, part] at rest
  omega

theorem neverAhead_ticks (tokens touched : Nat) (small : tokens + lead < 1000)
    (never : rate.NeverAhead ⟨tokens + lead, touched⟩ ⟨tokens, touched⟩) (seconds : Nat) :
    (tokens + seconds * rate.perSecond) % 1000 + lead < 1000 ∧
      ∃ at_, rate.NeverAhead ⟨(tokens + seconds * rate.perSecond) % 1000 + lead, at_⟩
        ⟨(tokens + seconds * rate.perSecond) % 1000, at_⟩ := by
  induction seconds with
  | zero =>
    have whole : tokens % 1000 = tokens := Nat.mod_eq_of_lt (by omega)
    rw [Nat.zero_mul, Nat.add_zero, whole]
    exact ⟨small, touched, never⟩
  | succ seconds ih =>
    obtain ⟨bound, at_, still⟩ := ih
    have next := rate.neverAhead_tick lead positive burst uncapped _ at_ bound still
    have step : ((tokens + seconds * rate.perSecond) % 1000 + rate.perSecond) % 1000 =
        (tokens + (seconds + 1) * rate.perSecond) % 1000 := by
      rw [Nat.mod_add_mod, Nat.succ_mul, Nat.add_assoc]
    rw [step] at next
    exact ⟨next.1, 1, next.2⟩

/-- A lead that a number of seconds refills, up to whole calls, is gained again and again
and cannot stay less than a call. -/
theorem not_neverAhead (tokens touched seconds calls : Nat) (small : tokens + lead < 1000)
    (refills : seconds * rate.perSecond = lead + 1000 * calls) :
    ¬ rate.NeverAhead ⟨tokens + lead, touched⟩ ⟨tokens, touched⟩ := by
  intro never
  have rounds : ∀ count, (tokens + count * seconds * rate.perSecond) % 1000 = tokens + count * lead := by
    intro count
    induction count with
    | zero =>
      simp only [Nat.zero_mul, Nat.add_zero]
      exact Nat.mod_eq_of_lt (by omega)
    | succ count ih =>
      have bound := (rate.neverAhead_ticks lead positive burst uncapped tokens touched small never
        (count * seconds)).1
      have more : (count + 1) * seconds * rate.perSecond =
          count * seconds * rate.perSecond + lead + 1000 * calls := by
        rw [Nat.add_assoc, ← refills, Nat.succ_mul, Nat.add_mul]
      have once : (count + 1) * lead = count * lead + lead := Nat.succ_mul count lead
      rw [more, once]
      omega
  have last := (rate.neverAhead_ticks lead positive burst uncapped tokens touched small never
    (1000 * seconds)).1
  have full := rounds 1000
  omega

end Ahead

/-- A bucket that holds `tokens` at `now` against one that holds the same, less what an extra
call took, and is refilled for `seconds` more. -/
theorem neverAhead_refilled (tokens seconds taken : Nat) (now : Timestamp) (waits : 0 < seconds)
    (extra : taken = if tokens < 1000 then 0 else 1)
    (capped : tokens + 1000 * taken ≤ rate.ceiling)
    (never : ∀ times, rate.allowedOn
        ⟨min rate.ceiling (tokens - 1000 * taken + seconds * rate.perSecond), now.secs⟩ (now :: times) ≤
      rate.allowedOn ⟨tokens, now.secs⟩ (now :: times)) :
    min rate.ceiling (tokens - 1000 * taken + seconds * rate.perSecond) ≤ tokens := by
  by_contra ahead
  have burst : 0 < rate.burst.toNat := by
    unfold ceiling at ahead
    omega
  obtain ⟨count, calls⟩ : ∃ count, rate.burst.toNat = count + 1 := ⟨rate.burst.toNat - 1, by omega⟩
  generalize full : min rate.ceiling (tokens - 1000 * taken + seconds * rate.perSecond) = more at never ahead
  have bound : more ≤ rate.ceiling := by omega
  have counts : ∀ rest, more / 1000 + rate.allowedOn ⟨more % 1000, now.secs⟩ rest ≤
      tokens / 1000 + rate.allowedOn ⟨tokens % 1000, now.secs⟩ rest := by
    intro rest
    have drained := never (List.replicate count now ++ rest)
    rwa [← List.cons_append, ← List.replicate_succ, ← calls,
      allowedOn_drain rate _ _ _ _ bound (by unfold ceiling at bound; omega),
      allowedOn_drain rate _ _ _ _ (by omega) (by unfold ceiling at capped; omega)] at drained
  have whole := counts []
  simp only [allowedOn, Nat.add_zero] at whole
  have room : tokens - 1000 * taken + seconds * rate.perSecond < rate.ceiling := by
    unfold ceiling at full ⊢
    omega
  have once : rate.perSecond ≤ seconds * rate.perSecond := Nat.le_mul_of_pos_left _ waits
  have paid : 1000 * taken ≤ tokens ∧ 1000 + 1000 * taken ≤ rate.ceiling := by
    unfold ceiling at capped ⊢
    split at extra
    · omega
    · omega
  obtain ⟨lead, isLead⟩ : ∃ lead, more = tokens + lead := ⟨more - tokens, by omega⟩
  have same : more / 1000 = tokens / 1000 := by omega
  have part : more % 1000 = tokens % 1000 + lead := by omega
  refine rate.not_neverAhead lead (by omega) burst (fun left short => by omega) (tokens % 1000) now.secs
    seconds taken (by omega) (by omega) fun times => ?_
  have rest := counts times
  rw [same, part] at rest
  omega

end Rate

/-! ## The limiter -/

namespace RateLimiter

/-- How many of the calls of `key`, in this order, are allowed. -/
def allowedIn (limiter : RateLimiter) (key : Text) : List Timestamp → Nat
  | [] => 0
  | now :: rest =>
    (if (limiter.allow key now).1 then 1 else 0) + allowedIn (limiter.allow key now).2 key rest

section Bucket
variable (limiter : RateLimiter) (key : Text) (bucket : Bucket)
  (found : limiter.buckets.byKey.lookup key = some bucket)
include found

/-- A call of a key that has a bucket is answered by the bucket. -/
theorem allow_found (now : Timestamp) :
    (limiter.allow key now).1 = (limiter.rate.callOn bucket now.secs).1 ∧
      (limiter.allow key now).2.buckets.byKey.lookup key = some (limiter.rate.callOn bucket now.secs).2 := by
  have present : key ∈ limiter.buckets.byKey := AList.lookup_isSome.mp (by rw [found]; rfl)
  have answer : limiter.allowBuckets key now.secs = limiter.rate.spend limiter.buckets key now.secs :=
    if_pos present
  unfold allow
  rw [answer]
  unfold Rate.spend Rate.callOn Rate.refill
  simp only [found, Rate.min_toppedUp]
  split
  · exact ⟨rfl, AList.lookup_insert _⟩
  · exact ⟨rfl, AList.lookup_insert _⟩

theorem allowedIn_found (times : List Timestamp) :
    limiter.allowedIn key times = limiter.rate.allowedOn bucket times := by
  induction times generalizing limiter bucket with
  | nil => rfl
  | cons now rest ih =>
    obtain ⟨answer, left⟩ := limiter.allow_found key bucket found now
    rw [allowedIn, Rate.allowedOn, answer, ih _ _ left]
    rfl

end Bucket

/-- An extra call of `key` stamped `earlier` between two stamped `later` leads to no more
allowed calls afterwards, whatever is called then. -/
def ExtraNeverGains (limiter : RateLimiter) (key : Text) (earlier later : Timestamp) : Prop :=
  let first := (limiter.allow key later).2
  ∀ times, (first.allow key earlier).2.allowedIn key (later :: times) ≤ first.allowedIn key (later :: times)

theorem perSecond_eq_zero (rate : Rate) : rate.perSecond = 0 ↔ rate.perMinute.toNat = 0 := by
  unfold Rate.perSecond
  omega

/-- What is left after a call that finds `tokens`. -/
def leftOf (tokens : Nat) : Nat := if tokens < 1000 then tokens else tokens - 1000

theorem callOn_left (rate : Rate) (bucket : Bucket) (now : Nat) :
    (rate.callOn bucket now).2 = ⟨leftOf (rate.refill bucket now), now⟩ := by
  unfold Rate.callOn leftOf
  split
  · rfl
  · rfl

/-- The two runs, each as one bucket that holds its allowance at `later`. -/
theorem extraNeverGains_iff_buckets (limiter : RateLimiter) (key : Text) (bucket : Bucket)
    (found : limiter.buckets.byKey.lookup key = some bucket) (earlier later : Timestamp)
    (order : earlier.secs < later.secs) (tokens : Nat)
    (isLeft : tokens = leftOf (limiter.rate.refill bucket later.secs)) :
    limiter.ExtraNeverGains key earlier later ↔ ∀ times, limiter.rate.allowedOn
        ⟨min limiter.rate.ceiling (leftOf tokens + (later.secs - earlier.secs) * limiter.rate.perSecond),
          later.secs⟩ (later :: times) ≤
      limiter.rate.allowedOn ⟨tokens, later.secs⟩ (later :: times) := by
  obtain ⟨-, first⟩ := limiter.allow_found key bucket found later
  rw [callOn_left, ← isLeft] at first
  obtain ⟨-, extra⟩ := (limiter.allow key later).2.allow_found key _ first earlier
  have bound : tokens ≤ limiter.rate.ceiling := by
    have := limiter.rate.refill_le_ceiling bucket later.secs
    unfold leftOf at isLeft
    split at isLeft
    · omega
    · omega
  have nothing : limiter.rate.refill ⟨tokens, later.secs⟩ earlier.secs = tokens := by
    have back : earlier.secs - later.secs = 0 := by omega
    simp only [Rate.refill, back, Nat.zero_mul, Nat.add_zero]
    omega
  have same : (limiter.allow key later).2.rate = limiter.rate := rfl
  rw [same, callOn_left, nothing] at extra
  unfold ExtraNeverGains
  refine forall_congr' fun times => ?_
  rw [allowedIn_found _ key _ first, allowedIn_found _ key _ extra]
  change limiter.rate.allowedOn _ _ ≤ limiter.rate.allowedOn _ _ ↔ _
  rw [Rate.allowedOn_refilled]
  rfl

/-- The extra call never gains exactly when nothing is ever refilled or allowed, or when the
bucket pays for it and it sets the count back by no more than one call's worth. -/
theorem extraNeverGains_iff (limiter : RateLimiter) (key : Text) (present : key ∈ limiter.buckets.byKey)
    (earlier later : Timestamp) (order : earlier.secs < later.secs) :
    limiter.ExtraNeverGains key earlier later ↔
      limiter.rate.perMinute.toNat = 0 ∨ limiter.rate.burst.toNat = 0 ∨
        (2000 ≤ limiter.rate.allowance limiter.buckets key later.secs ∧
          (later.secs - earlier.secs) * limiter.rate.perSecond ≤ 1000) := by
  obtain ⟨bucket, found⟩ := Option.isSome_iff_exists.mp (AList.lookup_isSome.mpr present)
  have held : limiter.rate.allowance limiter.buckets key later.secs = limiter.rate.refill bucket later.secs := by
    rw [Rate.allowance, found]
    rfl
  have bound := limiter.rate.refill_le_ceiling bucket later.secs
  have still : (later.secs - earlier.secs) * limiter.rate.perSecond = 0 ↔ limiter.rate.perMinute.toNat = 0 := by
    rw [Nat.mul_eq_zero, perSecond_eq_zero]
    omega
  rw [held, extraNeverGains_iff_buckets limiter key bucket found earlier later order _ rfl]
  generalize limiter.rate.refill bucket later.secs = found at bound
  have least : (∀ times, limiter.rate.allowedOn
      ⟨min limiter.rate.ceiling (leftOf (leftOf found) + (later.secs - earlier.secs) * limiter.rate.perSecond),
        later.secs⟩ (later :: times) ≤
      limiter.rate.allowedOn ⟨leftOf found, later.secs⟩ (later :: times)) ↔
      min limiter.rate.ceiling (leftOf (leftOf found) + (later.secs - earlier.secs) * limiter.rate.perSecond) ≤
        leftOf found := by
    constructor
    · intro never
      have twice : leftOf (leftOf found) = leftOf found - 1000 * (if leftOf found < 1000 then 0 else 1) := by
        unfold leftOf
        split_ifs
        all_goals omega
      rw [twice] at never ⊢
      refine limiter.rate.neverAhead_refilled (leftOf found) _ _ later (by omega) rfl ?_ never
      unfold leftOf
      split_ifs
      all_goals omega
    · intro less times
      exact limiter.rate.allowedOn_mono (later :: times) _ _ later.secs 0 less
  rw [least]
  generalize (later.secs - earlier.secs) * limiter.rate.perSecond = refilled at still
  unfold Rate.ceiling at bound ⊢
  unfold leftOf
  split_ifs
  all_goals omega

/-- A full bucket of three, and an extra call one second back at one call a second. -/
theorem extraNeverGains_second :
    ExtraNeverGains ⟨⟨3, 60⟩, 8, ⟨AList.singleton "10.42.0.7".toList ⟨3000, 5⟩, ["10.42.0.7".toList]⟩⟩
      "10.42.0.7".toList ⟨9, by decide⟩ ⟨10, by decide⟩ :=
  (extraNeverGains_iff _ _ (by decide) _ _ (by decide)).mpr (by decide)

/-- One call a burst: the bucket is empty, and the extra call five seconds back refills it. -/
theorem extra_call_gains :
    ¬ ∀ (limiter : RateLimiter) (key : Text) (bucket : Bucket) (earlier later : Timestamp),
      limiter.buckets.byKey.lookup key = some bucket → bucket.touched ≤ earlier.secs →
      earlier.secs < later.secs → limiter.ExtraNeverGains key earlier later := by
  intro never
  have gains := never ⟨⟨1, 60⟩, 8, ⟨AList.singleton "10.42.0.7".toList ⟨1000, 5⟩, ["10.42.0.7".toList]⟩⟩
    "10.42.0.7".toList ⟨1000, 5⟩ ⟨5, by decide⟩ ⟨10, by decide⟩ (by decide) (by decide) (by decide) []
  exact absurd gains (by decide)

end RateLimiter

end WeeboSi.Gateway
