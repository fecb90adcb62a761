import Mathlib.Data.List.AList
import WeeboSi.EndpointAuth.Identity
import WeeboSi.Lib.Budget

/-!
# A token bucket for each client address

Source: bins/endpoint-gateway/src/ratelimit.rs:23-141. The map is an association list
without a repeated key. Nothing panics while the lock is held, so it is never poisoned and
the answer to a poisoned lock is left out.
-/
namespace WeeboSi.Gateway
open WeeboSi.Lib WeeboSi.EndpointAuth

def evictionSweep : Nat := 16

structure Rate where
  burst : UInt32
  perMinute : UInt32
  deriving DecidableEq, Repr

/-- Allowance left, in thousandths of a call, and the second it was last counted. -/
structure Bucket where
  milliTokens : Nat
  touched : Nat
  deriving DecidableEq, Repr

/-- Buckets by key, and the keys oldest first. -/
structure Buckets where
  byKey : AList (fun _ : Text => Bucket)
  order : List Text

structure RateLimiter where
  rate : Rate
  capacity : Nat
  buckets : Buckets

namespace Rate
variable (rate : Rate)

def ceiling : Nat := rate.burst.toNat * 1000

def perSecond : Nat := rate.perMinute.toNat * 1000 / 60

/-- The bucket's allowance at `now`, in saturating 64-bit arithmetic and before the ceiling. -/
def toppedUp (bucket : Bucket) (now : Nat) : Nat :=
  min (bucket.milliTokens + min ((now - bucket.touched) * rate.perSecond) u64Max) u64Max

/-- Examine `count` of the oldest keys: a refilled bucket goes, another goes to the back. -/
def sweep (now : Nat) : Nat → Buckets → Buckets
  | 0, buckets => buckets
  | count + 1, ⟨byKey, order⟩ =>
    match order with
    | [] => ⟨byKey, []⟩
    | oldest :: rest =>
      let refilled := match byKey.lookup oldest with
        | some bucket => decide (rate.ceiling ≤ rate.toppedUp bucket now)
        | none => true
      if refilled then sweep now count ⟨byKey.erase oldest, rest⟩
      else sweep now count ⟨byKey, rest ++ [oldest]⟩

/-- Refill the key's bucket and take one call out of it. -/
def spend (buckets : Buckets) (key : Text) (now : Nat) : Bool × Buckets :=
  match buckets.byKey.lookup key with
  | none => (true, buckets)
  | some bucket =>
    let milliTokens := min (rate.toppedUp bucket now) rate.ceiling
    if milliTokens < 1000 then
      (false, { buckets with byKey := buckets.byKey.insert key ⟨milliTokens, now⟩ })
    else (true, { buckets with byKey := buckets.byKey.insert key ⟨milliTokens - 1000, now⟩ })

/-- A full bucket for a key that has none. -/
def place (buckets : Buckets) (key : Text) (now : Nat) : Buckets :=
  ⟨buckets.byKey.insert key ⟨rate.ceiling, now⟩, buckets.order ++ [key]⟩

end Rate

namespace RateLimiter

/-- A limiter without buckets. -/
def idle (rate : Rate) (capacity : Nat) : RateLimiter := ⟨rate, capacity, ⟨∅, []⟩⟩

def new (rate : Rate) (capacity : Nat) : RateLimiter := idle rate (max capacity 1)

def allowBuckets (limiter : RateLimiter) (key : Text) (now : Nat) : Bool × Buckets :=
  if key ∈ limiter.buckets.byKey then limiter.rate.spend limiter.buckets key now
  else if limiter.capacity ≤ limiter.buckets.byKey.keys.length then
    let swept := limiter.rate.sweep now (min evictionSweep limiter.buckets.order.length) limiter.buckets
    if limiter.capacity ≤ swept.byKey.keys.length then (false, swept)
    else limiter.rate.spend (limiter.rate.place swept key now) key now
  else limiter.rate.spend (limiter.rate.place limiter.buckets key now) key now

def allow (limiter : RateLimiter) (key : Text) (now : Timestamp) : Bool × RateLimiter :=
  ((limiter.allowBuckets key now.secs).1,
    { limiter with buckets := (limiter.allowBuckets key now.secs).2 })

end RateLimiter

/-! ## What a key may still spend -/

namespace Rate
variable (rate : Rate)

theorem ceiling_le_u64Max : rate.ceiling ≤ u64Max := by
  have := rate.burst.toNat_lt
  unfold ceiling u64Max
  omega

/-- The allowance of a key at `now`: a key without a bucket has all of it. -/
def allowance (buckets : Buckets) (key : Text) (now : Nat) : Nat :=
  match buckets.byKey.lookup key with
  | none => rate.ceiling
  | some bucket => min rate.ceiling (bucket.milliTokens + (now - bucket.touched) * rate.perSecond)

/-- The saturating sum only differs from the exact one above every ceiling. -/
theorem min_toppedUp (bucket : Bucket) (now : Nat) :
    min (rate.toppedUp bucket now) rate.ceiling =
      min rate.ceiling (bucket.milliTokens + (now - bucket.touched) * rate.perSecond) := by
  have := rate.ceiling_le_u64Max
  unfold toppedUp
  omega

theorem allowance_le_ceiling (buckets : Buckets) (key : Text) (now : Nat) :
    rate.allowance buckets key now ≤ rate.ceiling := by
  unfold allowance
  split
  · exact Nat.le_refl _
  · exact Nat.min_le_left _ _

theorem allowance_refills (buckets : Buckets) (key : Text) (now later : Nat) (order : now ≤ later) :
    rate.allowance buckets key later ≤
      rate.allowance buckets key now + rate.perSecond * (later - now) := by
  unfold allowance
  split
  · exact Nat.le_add_right _ _
  · rename_i bucket _
    have elapsed : (later - bucket.touched) * rate.perSecond ≤
        (now - bucket.touched) * rate.perSecond + rate.perSecond * (later - now) := by
      rw [Nat.mul_comm rate.perSecond, ← Nat.add_mul]
      exact Nat.mul_le_mul_right _ (by omega)
    omega

/-- Dropping a refilled bucket forgets nothing. -/
theorem allowance_erase (buckets : Buckets) (dropped key : Text) (order : List Text) (now : Nat)
    (refilled : ∀ bucket, buckets.byKey.lookup dropped = some bucket →
      rate.ceiling ≤ rate.toppedUp bucket now) :
    rate.allowance ⟨buckets.byKey.erase dropped, order⟩ key now = rate.allowance buckets key now := by
  unfold allowance
  by_cases same : key = dropped
  · subst same
    rw [AList.lookup_erase]
    cases present : buckets.byKey.lookup key with
    | none => rfl
    | some bucket =>
      have full := refilled bucket present
      have exact := rate.min_toppedUp bucket now
      simp only
      omega
  · rw [AList.lookup_erase_ne same]

theorem allowance_sweep (now count : Nat) (buckets : Buckets) (key : Text) :
    rate.allowance (rate.sweep now count buckets) key now = rate.allowance buckets key now := by
  fun_induction sweep rate now count buckets with
  | case1 buckets => rfl
  | case2 count byKey => rfl
  | case3 count byKey oldest rest refilled dropped ih =>
    rw [ih]
    apply allowance_erase rate ⟨byKey, oldest :: rest⟩
    intro bucket present
    simpa [refilled, present] using dropped
  | case4 count byKey oldest rest refilled kept ih => rw [ih]; rfl

theorem allowance_insert (byKey : AList (fun _ : Text => Bucket)) (order : List Text)
    (key : Text) (bucket : Bucket) (now : Nat) (fresh : bucket.touched = now) :
    rate.allowance ⟨byKey.insert key bucket, order⟩ key now = min rate.ceiling bucket.milliTokens := by
  simp [allowance, fresh]

theorem allowance_insert_ne (byKey : AList (fun _ : Text => Bucket)) (order other : List Text)
    (key queried : Text) (bucket : Bucket) (now : Nat) (different : queried ≠ key) :
    rate.allowance ⟨byKey.insert key bucket, order⟩ queried now =
      rate.allowance ⟨byKey, other⟩ queried now := by
  simp [allowance, AList.lookup_insert_ne different]

theorem allowance_place (buckets : Buckets) (key queried : Text) (now : Nat)
    (absent : key ∉ buckets.byKey) :
    rate.allowance (rate.place buckets key now) queried now = rate.allowance buckets queried now := by
  by_cases same : queried = key
  · subst same
    rw [place, allowance_insert rate _ _ _ _ _ rfl]
    simp [allowance, AList.lookup_eq_none.mpr absent]
  · exact rate.allowance_insert_ne _ _ _ _ _ _ _ same

/-- One call of `key`, answered from its own bucket, is paid for by that bucket alone. -/
theorem spend_pays (buckets : Buckets) (key queried : Text) (now : Nat) (present : key ∈ buckets.byKey) :
    rate.allowance (rate.spend buckets key now).2 queried now +
      1000 * (if (key == queried) && (rate.spend buckets key now).1 then 1 else 0) ≤
    rate.allowance buckets queried now := by
  obtain ⟨bucket, found⟩ := Option.isSome_iff_exists.mp (AList.lookup_isSome.mpr present)
  have topped := rate.min_toppedUp bucket now
  have before : rate.allowance buckets key now = min (rate.toppedUp bucket now) rate.ceiling := by
    simp [allowance, found, topped]
  unfold spend
  rw [found]
  by_cases same : queried = key
  · subst same
    simp only
    split
    · rw [allowance_insert rate _ _ _ _ _ rfl]
      simp
      omega
    · rw [allowance_insert rate _ _ _ _ _ rfl]
      simp
      omega
  · have other : (key == queried) = false := by simp [Ne.symm same]
    simp only
    split
    · rw [rate.allowance_insert_ne _ _ buckets.order _ _ _ _ same]
      simp
    · rw [rate.allowance_insert_ne _ _ buckets.order _ _ _ _ same]
      simp [other]

end Rate

/-! ## The keys that are held -/

section
variable {K V : Type} [DecidableEq K] (map : AList (fun _ : K => V))

theorem perm_keys_erase (key : K) (rest : List K) (keys : (key :: rest).Perm map.keys) :
    rest.Perm (map.erase key).keys := by
  rw [AList.keys_erase]
  simpa using keys.erase key

theorem perm_keys_insert_of_mem (key : K) (value : V) (present : key ∈ map) :
    (map.insert key value).keys.Perm map.keys := by
  rw [AList.keys_insert]
  exact (List.perm_cons_erase present).symm

theorem keys_insert_of_not_mem (key : K) (value : V) (absent : key ∉ map) :
    (map.insert key value).keys = key :: map.keys := by
  rw [AList.keys_insert, List.erase_of_not_mem absent]

end

/-- `order` holds the map's keys, each once, and there are at most `capacity` of them. -/
structure Buckets.Sound (capacity : Nat) (buckets : Buckets) : Prop where
  keys : buckets.order.Perm buckets.byKey.keys
  room : buckets.byKey.keys.length ≤ capacity

namespace Rate
variable (rate : Rate)

theorem sweep_sound (capacity now count : Nat) (buckets : Buckets) (sound : buckets.Sound capacity) :
    (rate.sweep now count buckets).Sound capacity := by
  fun_induction sweep rate now count buckets with
  | case1 buckets => exact sound
  | case2 count byKey => exact sound
  | case3 count byKey oldest rest refilled dropped ih =>
    apply ih
    have keys := perm_keys_erase byKey oldest rest sound.keys
    have shorter : rest.length + 1 ≤ capacity := sound.keys.length_eq.trans_le sound.room
    exact ⟨keys, keys.length_eq ▸ Nat.le_of_succ_le shorter⟩
  | case4 count byKey oldest rest refilled kept ih =>
    apply ih
    exact ⟨List.perm_append_comm.trans sound.keys, sound.room⟩

theorem place_sound (capacity now : Nat) (buckets : Buckets) (key : Text)
    (sound : buckets.Sound capacity) (absent : key ∉ buckets.byKey)
    (room : buckets.byKey.keys.length < capacity) : (rate.place buckets key now).Sound capacity := by
  have keys : (rate.place buckets key now).byKey.keys = key :: buckets.byKey.keys :=
    keys_insert_of_not_mem buckets.byKey key _ absent
  constructor
  · rw [keys]
    exact List.perm_append_comm.trans (sound.keys.cons key)
  · rw [keys]
    exact room

/-- A bucket that is written again keeps its place. -/
theorem insert_sound (capacity : Nat) (buckets : Buckets) (key : Text) (bucket : Bucket)
    (sound : buckets.Sound capacity) (present : key ∈ buckets.byKey) :
    Buckets.Sound capacity { buckets with byKey := buckets.byKey.insert key bucket } := by
  have keys := perm_keys_insert_of_mem buckets.byKey key bucket present
  exact ⟨sound.keys.trans keys.symm, keys.length_eq ▸ sound.room⟩

theorem spend_sound (capacity now : Nat) (buckets : Buckets) (key : Text)
    (sound : buckets.Sound capacity) (present : key ∈ buckets.byKey) :
    (rate.spend buckets key now).2.Sound capacity := by
  unfold spend
  split
  · exact sound
  · simp only
    split
    · exact insert_sound capacity buckets key _ sound present
    · exact insert_sound capacity buckets key _ sound present

theorem mem_place (buckets : Buckets) (key : Text) (now : Nat) :
    key ∈ (rate.place buckets key now).byKey := by
  simp [place]

/-- Sweeping drops keys and adds none. -/
theorem mem_sweep (now count : Nat) (buckets : Buckets) (key : Text)
    (member : key ∈ (rate.sweep now count buckets).byKey) : key ∈ buckets.byKey := by
  fun_induction sweep rate now count buckets with
  | case1 buckets => exact member
  | case2 count byKey => exact member
  | case3 count byKey oldest rest refilled dropped ih => exact (AList.mem_erase.mp (ih member)).2
  | case4 count byKey oldest rest refilled kept ih => exact ih member

end Rate

/-! ## Runs -/

namespace RateLimiter

/-- A call is answered from the buckets as they are, as they are with a new bucket, or as
they are swept; a refusal for want of room only sweeps. -/
theorem allowBuckets_cases (limiter : RateLimiter) (key : Text) (now : Nat) :
    (key ∈ limiter.buckets.byKey ∧
      limiter.allowBuckets key now = limiter.rate.spend limiter.buckets key now) ∨
    (∃ count, limiter.allowBuckets key now = (false, limiter.rate.sweep now count limiter.buckets)) ∨
    ∃ count, let swept := limiter.rate.sweep now count limiter.buckets
      key ∉ swept.byKey ∧ swept.byKey.keys.length < limiter.capacity ∧
      limiter.allowBuckets key now = limiter.rate.spend (limiter.rate.place swept key now) key now := by
  unfold allowBuckets
  by_cases present : key ∈ limiter.buckets.byKey
  · exact .inl ⟨present, by rw [if_pos present]⟩
  · right
    rw [if_neg present]
    by_cases full : limiter.capacity ≤ limiter.buckets.byKey.keys.length
    · rw [if_pos full]
      simp only
      split
      · exact .inl ⟨_, rfl⟩
      · rename_i room
        exact .inr ⟨_, fun member => present (limiter.rate.mem_sweep _ _ _ _ member),
          Nat.lt_of_not_le room, rfl⟩
    · rw [if_neg full]
      exact .inr ⟨0, present, Nat.lt_of_not_le full, rfl⟩

theorem allowBuckets_pays (limiter : RateLimiter) (key queried : Text) (now : Nat) :
    limiter.rate.allowance (limiter.allowBuckets key now).2 queried now +
      1000 * (if (key == queried) && (limiter.allowBuckets key now).1 then 1 else 0) ≤
    limiter.rate.allowance limiter.buckets queried now := by
  obtain ⟨present, answer⟩ | ⟨count, answer⟩ | ⟨count, absent, _, answer⟩ :=
    limiter.allowBuckets_cases key now
  · rw [answer]
    exact limiter.rate.spend_pays _ _ _ _ present
  · rw [answer]
    simp [limiter.rate.allowance_sweep]
  · rw [answer, ← limiter.rate.allowance_sweep now count limiter.buckets queried,
      ← limiter.rate.allowance_place _ _ _ _ absent]
    exact limiter.rate.spend_pays _ _ _ _ (limiter.rate.mem_place _ _ _)

theorem allowBuckets_sound (limiter : RateLimiter) (key : Text) (now : Nat)
    (sound : limiter.buckets.Sound limiter.capacity) :
    (limiter.allowBuckets key now).2.Sound limiter.capacity := by
  obtain ⟨present, answer⟩ | ⟨count, answer⟩ | ⟨count, absent, room, answer⟩ :=
    limiter.allowBuckets_cases key now
  · rw [answer]
    exact limiter.rate.spend_sound _ _ _ _ sound present
  · rw [answer]
    exact limiter.rate.sweep_sound _ _ _ _ sound
  · rw [answer]
    apply limiter.rate.spend_sound
    · exact limiter.rate.place_sound _ _ _ _ (limiter.rate.sweep_sound _ _ _ _ sound) absent room
    · exact limiter.rate.mem_place _ _ _

end RateLimiter

/-- One call of `allow`. -/
structure Call where
  key : Text
  now : Timestamp
  deriving DecidableEq, Repr

namespace RateLimiter

def serve (limiter : RateLimiter) (call : Call) : Bool × RateLimiter := limiter.allow call.key call.now

def step (limiter : RateLimiter) (call : Call) : RateLimiter := (limiter.serve call).2

theorem after_rate (limiter : RateLimiter) (calls : List Call) :
    (after step limiter calls).rate = limiter.rate := by
  induction calls generalizing limiter with
  | nil => rfl
  | cons call rest ih => exact ih (limiter.step call)

theorem after_sound (limiter : RateLimiter) (calls : List Call)
    (sound : limiter.buckets.Sound limiter.capacity) :
    (after step limiter calls).buckets.Sound limiter.capacity := by
  induction calls generalizing limiter with
  | nil => exact sound
  | cons call rest ih => exact ih (limiter.step call) (limiter.allowBuckets_sound _ _ sound)

/-- What one key may still spend is a budget for the calls of that key. -/
theorem budget (rate : Rate) (key : Text) :
    Budget serve (fun call => call.now.secs) (fun call => call.key == key) 1000 rate.ceiling
      rate.perSecond (fun limiter => limiter.rate = rate)
      (fun limiter now => rate.allowance limiter.buckets key now) where
  keeps _ _ same := same
  bounded limiter now _ := rate.allowance_le_ceiling limiter.buckets key now
  refills limiter now later _ order := rate.allowance_refills limiter.buckets key now later order
  pays limiter call same := by
    subst same
    exact limiter.allowBuckets_pays call.key key call.now.secs

/-- The refill of whole seconds, counted in thousandths of a call, is no more than the
whole calls of that many seconds. -/
theorem calls_le_of_milli (rate : Rate) (calls elapsed : Nat)
    (paid : 1000 * calls ≤ rate.ceiling + rate.perSecond * elapsed) :
    calls ≤ rate.burst.toNat + elapsed * rate.perMinute.toNat / 60 := by
  have perSecond : rate.perSecond * 60 ≤ rate.perMinute.toNat * 1000 := Nat.div_mul_le_self _ _
  have refilled : rate.perSecond * elapsed * 60 ≤ elapsed * rate.perMinute.toNat * 1000 := by
    calc rate.perSecond * elapsed * 60 = rate.perSecond * 60 * elapsed := Nat.mul_right_comm _ _ _
      _ ≤ rate.perMinute.toNat * 1000 * elapsed := Nat.mul_le_mul_right _ perSecond
      _ = elapsed * rate.perMinute.toNat * 1000 := by ring
  unfold Rate.ceiling at paid
  generalize rate.perSecond * elapsed = milli at paid refilled
  generalize elapsed * rate.perMinute.toNat = whole at refilled ⊢
  omega

/-- Whatever came before and whichever buckets were dropped, a window of calls lets
through no more than the burst and what the window refills, and the keys held are those
of `order`, each once, and no more than `capacity`. -/
theorem allow_within_rate (rate : Rate) (capacity : Nat) :
    (∀ (key : Text) (earlier window : List Call) (first last : Nat),
      (earlier ++ window).Pairwise (fun call later => call.now.secs ≤ later.now.secs) →
      (∀ call ∈ window, first ≤ call.now.secs ∧ call.now.secs ≤ last) →
      granted serve (fun call => call.key == key) (after step (idle rate capacity) earlier) window ≤
        rate.burst.toNat + (last - first) * rate.perMinute.toNat / 60) ∧
    ∀ calls : List Call, let buckets := (after step (idle rate capacity) calls).buckets
      buckets.byKey.keys.length ≤ capacity ∧ buckets.order.Nodup ∧
        ∀ key, key ∈ buckets.order ↔ key ∈ buckets.byKey := by
  constructor
  · intro key earlier window first last ordered within
    apply calls_le_of_milli
    apply (budget rate key).granted_le_window
    · exact after_rate _ _
    · exact (List.pairwise_append.mp ordered).2.1
    · exact within
  · intro calls
    have sound := after_sound (idle rate capacity) calls ⟨.nil, Nat.zero_le _⟩
    refine ⟨sound.room, ?_, ?_⟩
    · exact sound.keys.nodup_iff.mpr (AList.keys_nodup _)
    · exact fun key => sound.keys.mem_iff

/-- Two at once and one a second: of four calls within a second three pass, with another
key's bucket dropped on the way. -/
theorem allow_within_rate_second :
    let asked (key : Char) (secs : Fin 10) : Call := ⟨[key], ⟨secs, by unfold u64Max; omega⟩⟩
    let before := after step (idle ⟨2, 60⟩ 1) [asked 'b' 0]
    let window := [asked 'a' 5, asked 'a' 5, asked 'a' 5, asked 'a' 6]
    granted serve (fun call => call.key == ['a']) before window ≤ 2 + (6 - 5) * 60 / 60 ∧
      granted serve (fun call => call.key == ['a']) before window = 3 := by
  constructor
  · exact (allow_within_rate ⟨2, 60⟩ 1).1 ['a'] _ _ 5 6 (by decide) (by decide)
  · decide

end RateLimiter

end WeeboSi.Gateway
