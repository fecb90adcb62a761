import Mathlib.Data.List.AList
import Mathlib.Data.List.MinMax
import WeeboSi.EndpointAuth.Identity

/-!
# The identity cache

Source: crates/weebo-si-endpoint-auth/src/cache.rs:127-280. Both maps of the source are
association lists without a repeated key. The lock is never poisoned, and the hit, miss
and eviction counters, which only metrics read, are left out.
-/
namespace WeeboSi.EndpointAuth
open WeeboSi.Lib

structure Entry (V : Type) where
  value : V
  expiresAt : Timestamp
  seq : Nat

/-- Entries by key, and the keys by insertion number, oldest first out. -/
structure IdentityCache (K V : Type) where
  capacity : Nat
  ttlSecs : Nat
  entries : AList (fun _ : K => Entry V)
  order : AList (fun _ : Nat => K)
  nextSeq : Nat

namespace IdentityCache
variable {K V : Type} [DecidableEq K]

def new (capacity ttlSecs : Nat) : IdentityCache K V := ⟨max capacity 1, ttlSecs, ∅, ∅, 0⟩

/-- Drop the entry of `key`, whose insertion number is `seq`. -/
def drop (cache : IdentityCache K V) (key : K) (seq : Nat) : IdentityCache K V :=
  { cache with entries := cache.entries.erase key, order := cache.order.erase seq }

def get (cache : IdentityCache K V) (key : K) (now : Timestamp) : Option V × IdentityCache K V :=
  match cache.entries.lookup key with
  | some entry =>
    if !now.isAtOrAfter entry.expiresAt then (some entry.value, cache)
    else (none, cache.drop key entry.seq)
  | none => (none, cache)

def oldest (cache : IdentityCache K V) : Option (Nat × K) :=
  (cache.order.entries.argmin fun entry => entry.1).map fun entry => (entry.1, entry.2)

def evict (cache : IdentityCache K V) : IdentityCache K V :=
  if cache.entries.entries.length > cache.capacity then
    match cache.oldest with
    | some (seq, key) => cache.drop key seq
    | none => cache
  else cache

/-- When an answer inserted at `now` stops being served. -/
def deadline (cache : IdentityCache K V) (expiresAt now : Timestamp) : Timestamp :=
  .earlier expiresAt (now.plusSecs cache.ttlSecs)

def place (cache : IdentityCache K V) (key : K) (value : V) (deadline : Timestamp) : IdentityCache K V :=
  let order := match cache.entries.lookup key with
    | some previous => cache.order.erase previous.seq
    | none => cache.order
  { cache with
    entries := cache.entries.insert key ⟨value, deadline, cache.nextSeq⟩
    order := order.insert cache.nextSeq key
    nextSeq := cache.nextSeq + 1 }

def insert (cache : IdentityCache K V) (key : K) (value : V) (expiresAt now : Timestamp) :
    IdentityCache K V :=
  if now.isAtOrAfter (cache.deadline expiresAt now) then cache
  else (cache.place key value (cache.deadline expiresAt now)).evict

def forget (cache : IdentityCache K V) (key : K) : IdentityCache K V :=
  match cache.entries.lookup key with
  | some entry => cache.drop key entry.seq
  | none => cache

def clear (cache : IdentityCache K V) : IdentityCache K V := { cache with entries := ∅, order := ∅ }

/-! ## What each operation leaves -/

@[simp] theorem get_ttlSecs (cache : IdentityCache K V) (key : K) (now : Timestamp) :
    (cache.get key now).2.ttlSecs = cache.ttlSecs := by
  unfold get
  split
  · split
    · rfl
    · rfl
  · rfl

@[simp] theorem insert_ttlSecs (cache : IdentityCache K V) (key : K) (value : V)
    (expiresAt now : Timestamp) : (cache.insert key value expiresAt now).ttlSecs = cache.ttlSecs := by
  unfold insert evict
  split
  · rfl
  · split
    · split
      · rfl
      · rfl
    · rfl

@[simp] theorem forget_ttlSecs (cache : IdentityCache K V) (key : K) :
    (cache.forget key).ttlSecs = cache.ttlSecs := by
  unfold forget
  split
  · rfl
  · rfl

theorem get_eq_some (cache : IdentityCache K V) (key : K) (now : Timestamp) (value : V) :
    (cache.get key now).1 = some value ↔
      ∃ entry, cache.entries.lookup key = some entry ∧ now.secs < entry.expiresAt.secs ∧
        entry.value = value := by
  unfold get
  cases cache.entries.lookup key with
  | none => simp
  | some entry =>
    by_cases live : now.secs < entry.expiresAt.secs
    · simp [Timestamp.isAtOrAfter_eq_false _ _ |>.mpr live, live]
    · simp [Timestamp.isAtOrAfter_eq_true _ _ |>.mpr (Nat.le_of_not_lt live), live]

/-- A hit leaves the cache as it is. -/
theorem get_hit (cache : IdentityCache K V) (key : K) (now : Timestamp) (value : V)
    (hit : (cache.get key now).1 = some value) : (cache.get key now).2 = cache := by
  unfold get at hit ⊢
  split at hit
  · split at hit
    · rename_i live
      simp only [live, if_true]
    · cases hit
  · cases hit

theorem lookup_drop (cache : IdentityCache K V) (key other : K) (seq : Nat) (entry : Entry V)
    (h : (cache.drop key seq).entries.lookup other = some entry) :
    cache.entries.lookup other = some entry := by
  unfold drop at h
  by_cases same : other = key
  · subst same
    simp [AList.lookup_erase] at h
  · simpa [AList.lookup_erase_ne same] using h

/-- A statement about every entry of a cache. -/
def All (P : K → Entry V → Prop) (cache : IdentityCache K V) : Prop :=
  ∀ key entry, cache.entries.lookup key = some entry → P key entry

variable (P : K → Entry V → Prop) (cache : IdentityCache K V)

theorem all_new (capacity ttlSecs : Nat) : (new capacity ttlSecs : IdentityCache K V).All P := by
  intro key entry h
  simp [new] at h

theorem all_drop (key : K) (seq : Nat) (all : cache.All P) : (cache.drop key seq).All P :=
  fun other entry h => all other entry (lookup_drop cache key other seq entry h)

theorem all_get (key : K) (now : Timestamp) (all : cache.All P) : (cache.get key now).2.All P := by
  unfold get
  split
  · split
    · exact all
    · exact all_drop P cache _ _ all
  · exact all

theorem all_forget (key : K) (all : cache.All P) : (cache.forget key).All P := by
  unfold forget
  split
  · exact all_drop P cache _ _ all
  · exact all

theorem all_clear : cache.clear.All P := by
  intro key entry h
  simp [clear] at h

theorem all_evict (all : cache.All P) : cache.evict.All P := by
  unfold evict
  split
  · split
    · exact all_drop P cache _ _ all
    · exact all
  · exact all

/-- What an insert adds is alive at `now` and expires with the value or the cache's own
lifetime, whichever is sooner. -/
theorem all_insert (key : K) (value : V) (expiresAt now : Timestamp) (all : cache.All P)
    (added : ∀ entry : Entry V, entry.value = value → now.secs < entry.expiresAt.secs →
      entry.expiresAt.secs ≤ expiresAt.secs → entry.expiresAt.secs ≤ now.secs + cache.ttlSecs →
      P key entry) :
    (cache.insert key value expiresAt now).All P := by
  unfold insert
  by_cases expired : now.isAtOrAfter (cache.deadline expiresAt now) = true
  · rw [if_pos expired]
    exact all
  · rw [if_neg expired]
    rw [Bool.not_eq_true, Timestamp.isAtOrAfter_eq_false] at expired
    apply all_evict
    intro other entry h
    by_cases same : other = key
    · subst same
      simp only [place, AList.lookup_insert, Option.some.injEq] at h
      subst h
      have bound : (cache.deadline expiresAt now).secs =
          min expiresAt.secs (min (now.secs + cache.ttlSecs) u64Max) := by
        simp [deadline]
      exact added _ rfl expired (by rw [bound]; omega) (by rw [bound]; omega)
    · simp only [place, AList.lookup_insert_ne same] at h
      exact all other entry h

/-! ## What stays -/

/-- The key that an overfull cache gives up. -/
def victim : Option K :=
  if cache.entries.entries.length > cache.capacity then cache.oldest.map Prod.snd else none

/-- The key that an insert pushes out. -/
def pushedOut (key : K) (value : V) (expiresAt now : Timestamp) : Option K :=
  (cache.place key value (cache.deadline expiresAt now)).victim

theorem lookup_drop_ne (key other : K) (seq : Nat) (different : other ≠ key) :
    (cache.drop key seq).entries.lookup other = cache.entries.lookup other :=
  AList.lookup_erase_ne different

theorem lookup_evict (key : K) (spared : cache.victim ≠ some key) :
    cache.evict.entries.lookup key = cache.entries.lookup key := by
  unfold victim at spared
  unfold evict
  split
  · rename_i overfull
    rw [if_pos overfull] at spared
    cases oldest : cache.oldest with
    | none => rfl
    | some entry =>
      rw [oldest] at spared
      exact lookup_drop_ne cache entry.2 key entry.1 fun same => spared (by rw [same]; rfl)
  · rfl

theorem lookup_get_ne (key other : K) (now : Timestamp) (different : other ≠ key) :
    (cache.get key now).2.entries.lookup other = cache.entries.lookup other := by
  unfold get
  split
  · split
    · rfl
    · exact lookup_drop_ne cache key other _ different
  · rfl

theorem lookup_insert_ne (key other : K) (value : V) (expiresAt now : Timestamp)
    (different : other ≠ key) (spared : cache.pushedOut key value expiresAt now ≠ some other) :
    (cache.insert key value expiresAt now).entries.lookup other = cache.entries.lookup other := by
  unfold insert
  split
  · rfl
  · rw [lookup_evict _ _ spared]
    exact AList.lookup_insert_ne different

theorem lookup_insert_self (key : K) (value : V) (expiresAt now : Timestamp)
    (live : now.secs < (cache.deadline expiresAt now).secs)
    (spared : cache.pushedOut key value expiresAt now ≠ some key) :
    (cache.insert key value expiresAt now).entries.lookup key =
      some ⟨value, cache.deadline expiresAt now, cache.nextSeq⟩ := by
  unfold insert
  rw [if_neg (by simpa using live), lookup_evict _ _ spared]
  exact AList.lookup_insert _

end IdentityCache

end WeeboSi.EndpointAuth
