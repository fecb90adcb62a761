import WeeboSi.EndpointAuth.Cache
import WeeboSi.Lib.KeyedFold
import WeeboSi.Lib.Run

/-!
# Runs of the identity cache

Source: crates/weebo-si-endpoint-auth/src/cache.rs:190-275. The cache after any sequence of
operations, against what that sequence says was inserted last. Insertion numbers are not
bounded here; the source would need 2^64 inserts to run out of them.
-/
namespace WeeboSi.EndpointAuth
open WeeboSi.Lib

inductive CacheOp (K V : Type) where
  | get (key : K) (now : Timestamp)
  | insert (key : K) (value : V) (expiresAt now : Timestamp)
  | forget (key : K)
  | clear

variable {K V : Type} [DecidableEq K]

def IdentityCache.apply (cache : IdentityCache K V) : CacheOp K V → IdentityCache K V
  | .get key now => (cache.get key now).2
  | .insert key value expiresAt now => cache.insert key value expiresAt now
  | .forget key => cache.forget key
  | .clear => cache.clear

/-- A new cache after these operations, in this order. -/
def cacheAfter (capacity ttlSecs : Nat) (history : List (CacheOp K V)) : IdentityCache K V :=
  after IdentityCache.apply (.new capacity ttlSecs) history

/-! ## What was inserted last -/

structure Insertion (V : Type) where
  position : Nat
  value : V
  expiresAt : Timestamp
  insertedAt : Timestamp

/-- What one operation makes of the latest insertion of `key`. `counts` says of an insert
whether it is one. -/
def recollect (counts : Timestamp → Timestamp → Bool) (key : K) (position : Nat)
    (known : Option (Insertion V)) : CacheOp K V → Option (Insertion V)
  | .get _ _ => known
  | .insert other value expiresAt now =>
    if other = key ∧ counts expiresAt now = true then some ⟨position, value, expiresAt, now⟩ else known
  | .forget other => if other = key then none else known
  | .clear => none

/-- The latest insertion of `key` that was not forgotten or cleared since. -/
def latest (counts : Timestamp → Timestamp → Bool) (key : K) (history : List (CacheOp K V)) :
    Option (Insertion V) :=
  (history.foldl (fun state op => (state.1 + 1, recollect counts key state.1 state.2 op)) (0, none)).2

theorem latest_snoc (counts : Timestamp → Timestamp → Bool) (key : K) (history : List (CacheOp K V))
    (op : CacheOp K V) :
    latest counts key (history ++ [op]) = recollect counts key history.length (latest counts key history) op := by
  have position : ∀ (ops : List (CacheOp K V)) (start : Nat × Option (Insertion V)),
      (ops.foldl (fun state op => (state.1 + 1, recollect counts key state.1 state.2 op)) start).1 =
        start.1 + ops.length := by
    intro ops
    induction ops with
    | nil => exact fun _ => rfl
    | cons op rest ih =>
      intro start
      rw [List.foldl_cons, ih, List.length_cons]
      omega
  unfold latest
  rw [List.foldl_append, List.foldl_cons, List.foldl_nil, position history]
  simp

theorem latest_position (counts : Timestamp → Timestamp → Bool) (key : K) (history : List (CacheOp K V))
    (insertion : Insertion V) (found : latest counts key history = some insertion) :
    insertion.position < history.length := by
  induction history using List.reverseRecOn generalizing insertion with
  | nil => cases found
  | append_singleton before op ih =>
    rw [latest_snoc] at found
    rw [List.length_append, List.length_singleton]
    have earlier : latest counts key before = some insertion → insertion.position < before.length + 1 :=
      fun known => Nat.lt_succ_of_lt (ih insertion known)
    cases op with
    | get other now => exact earlier found
    | insert other value expiresAt now =>
      simp only [recollect] at found
      split at found
      · cases found
        exact Nat.lt_succ_self _
      · exact earlier found
    | forget other =>
      simp only [recollect] at found
      split at found
      · cases found
      · exact earlier found
    | clear => cases found

/-- An insert that is not already past its deadline. -/
def lives (ttlSecs : Nat) (expiresAt now : Timestamp) : Bool :=
  !now.isAtOrAfter (.earlier expiresAt (now.plusSecs ttlSecs))

namespace IdentityCache

/-! ## The two maps -/

/-- Entries by key and keys by number are one relation, and no number is still to come. -/
structure Paired (cache : IdentityCache K V) : Prop where
  inverse : ∀ key seq, (∃ entry, cache.entries.lookup key = some entry ∧ entry.seq = seq) ↔
    cache.order.lookup seq = some key
  numbered : ∀ seq key, cache.order.lookup seq = some key → seq < cache.nextSeq

theorem paired_new (capacity ttlSecs : Nat) : (new capacity ttlSecs : IdentityCache K V).Paired where
  inverse := by simp [new]
  numbered := by simp [new]

theorem paired_clear (cache : IdentityCache K V) : cache.clear.Paired where
  inverse := by simp [clear]
  numbered := by simp [clear]

theorem paired_drop (cache : IdentityCache K V) (paired : cache.Paired) (key : K) (seq : Nat)
    (held : cache.order.lookup seq = some key) : (cache.drop key seq).Paired := by
  have kept : ∀ number other, (cache.drop key seq).order.lookup number = some other →
      cache.order.lookup number = some other := by
    intro number other found
    by_cases same : number = seq
    · subst same
      simp [drop] at found
    · simpa [drop, AList.lookup_erase_ne same] using found
  refine ⟨fun other number => ⟨?_, fun found => ?_⟩, fun number other found => ?_⟩
  · rintro ⟨entry, found, rfl⟩
    have before := lookup_drop cache key other seq entry found
    have listed := (paired.inverse other entry.seq).mp ⟨entry, before, rfl⟩
    have different : entry.seq ≠ seq := by
      rintro rfl
      rw [listed, Option.some.injEq] at held
      subst held
      simp [drop] at found
    simpa [drop, AList.lookup_erase_ne different] using listed
  · obtain ⟨entry, before, number_⟩ := (paired.inverse other number).mpr (kept number other found)
    refine ⟨entry, ?_, number_⟩
    have different : other ≠ key := by
      rintro rfl
      obtain ⟨mine, stored, mineSeq⟩ := (paired.inverse other seq).mpr held
      rw [before, Option.some.injEq] at stored
      subst stored
      rw [← number_, mineSeq] at found
      simp [drop] at found
    rw [lookup_drop_ne cache key other seq different]
    exact before
  · exact paired.numbered number other (kept number other found)

theorem paired_get (cache : IdentityCache K V) (paired : cache.Paired) (key : K) (now : Timestamp) :
    (cache.get key now).2.Paired := by
  unfold get
  split
  · rename_i entry found
    split
    · exact paired
    · exact paired_drop cache paired key entry.seq ((paired.inverse key entry.seq).mp ⟨entry, found, rfl⟩)
  · exact paired

theorem paired_forget (cache : IdentityCache K V) (paired : cache.Paired) (key : K) :
    (cache.forget key).Paired := by
  unfold forget
  split
  · rename_i entry found
    exact paired_drop cache paired key entry.seq ((paired.inverse key entry.seq).mp ⟨entry, found, rfl⟩)
  · exact paired

@[simp] theorem lookup_forget_self (cache : IdentityCache K V) (key : K) :
    (cache.forget key).entries.lookup key = none := by
  unfold forget
  split
  · exact AList.lookup_erase key _
  · assumption

theorem lookup_forget_ne (cache : IdentityCache K V) (key other : K) (different : other ≠ key) :
    (cache.forget key).entries.lookup other = cache.entries.lookup other := by
  unfold forget
  split
  · exact lookup_drop_ne cache key other _ different
  · rfl

@[simp] theorem forget_nextSeq (cache : IdentityCache K V) (key : K) :
    (cache.forget key).nextSeq = cache.nextSeq := by
  unfold forget
  split
  · rfl
  · rfl

/-- Placing is forgetting the key and numbering it anew. -/
theorem entries_place (cache : IdentityCache K V) (key other : K) (value : V) (deadline : Timestamp) :
    (cache.place key value deadline).entries.lookup other =
      if other = key then some ⟨value, deadline, cache.nextSeq⟩
      else (cache.forget key).entries.lookup other := by
  by_cases same : other = key
  · subst same
    rw [if_pos rfl]
    exact AList.lookup_insert _
  · rw [if_neg same, lookup_forget_ne cache key other same]
    exact AList.lookup_insert_ne same

theorem order_place (cache : IdentityCache K V) (key : K) (value : V) (deadline : Timestamp) (seq : Nat) :
    (cache.place key value deadline).order.lookup seq =
      if seq = cache.nextSeq then some key else (cache.forget key).order.lookup seq := by
  have base : (cache.place key value deadline).order =
      (cache.forget key).order.insert cache.nextSeq key := by
    unfold place forget
    cases cache.entries.lookup key with
    | none => rfl
    | some previous => rfl
  rw [base]
  exact lookup_insert_eq _ cache.nextSeq seq key

theorem paired_place (cache : IdentityCache K V) (paired : cache.Paired) (key : K) (value : V)
    (deadline : Timestamp) : (cache.place key value deadline).Paired := by
  have base := paired_forget cache paired key
  have fresh : ∀ seq other, (cache.forget key).order.lookup seq = some other → seq ≠ cache.nextSeq := by
    intro seq other found
    have := base.numbered seq other found
    rw [forget_nextSeq] at this
    exact Nat.ne_of_lt this
  refine ⟨fun other seq => ?_, fun seq other found => ?_⟩
  · rw [order_place]
    simp only [entries_place]
    by_cases same : other = key
    · subst same
      simp only [if_true, Option.some.injEq, exists_eq_left']
      by_cases new : seq = cache.nextSeq
      · simp [new]
      · rw [if_neg new, ← base.inverse, lookup_forget_self]
        simp [Ne.symm new]
    · simp only [if_neg same]
      rw [base.inverse]
      by_cases new : seq = cache.nextSeq
      · rw [if_pos new]
        exact iff_of_false (fun found => fresh seq other found new) (by simp [Ne.symm same])
      · rw [if_neg new]
  · change seq < cache.nextSeq + 1
    rw [order_place] at found
    split at found
    · omega
    · have := base.numbered seq other found
      rw [forget_nextSeq] at this
      omega

omit [DecidableEq K] in
theorem paired_oldest (cache : IdentityCache K V) (seq : Nat) (key : K)
    (first : cache.oldest = some (seq, key)) :
    cache.order.lookup seq = some key ∧ ∀ number other, cache.order.lookup number = some other → seq ≤ number := by
  unfold oldest at first
  obtain ⟨entry, smallest, same⟩ := Option.map_eq_some_iff.mp first
  cases same
  refine ⟨AList.mem_lookup_iff.mpr (List.argmin_mem smallest), fun number other found => ?_⟩
  exact List.le_of_mem_argmin (AList.mem_lookup_iff.mp found) smallest

theorem paired_evict (cache : IdentityCache K V) (paired : cache.Paired) : cache.evict.Paired := by
  unfold evict
  split
  · split
    · rename_i seq key first
      exact paired_drop cache paired key seq (paired_oldest cache seq key first).1
    · exact paired
  · exact paired

theorem paired_insert (cache : IdentityCache K V) (paired : cache.Paired) (key : K) (value : V)
    (expiresAt now : Timestamp) : (cache.insert key value expiresAt now).Paired := by
  unfold insert
  split
  · exact paired
  · exact paired_evict _ (paired_place cache paired key value _)

theorem paired_apply (cache : IdentityCache K V) (paired : cache.Paired) (op : CacheOp K V) :
    (cache.apply op).Paired := by
  cases op with
  | get key now => exact paired_get cache paired key now
  | insert key value expiresAt now => exact paired_insert cache paired key value expiresAt now
  | forget key => exact paired_forget cache paired key
  | clear => exact paired_clear cache

/-! ## The bound -/

def size (cache : IdentityCache K V) : Nat := cache.entries.entries.length

omit [DecidableEq K] in
theorem size_eq_keys (cache : IdentityCache K V) : cache.size = cache.entries.keys.length := by
  simp [size, AList.keys, List.keys]

theorem size_drop (cache : IdentityCache K V) (key : K) (seq : Nat) (entry : Entry V)
    (held : cache.entries.lookup key = some entry) : (cache.drop key seq).size + 1 = cache.size := by
  have member : key ∈ cache.entries.keys := AList.lookup_isSome.mp (by rw [held]; rfl)
  have some_ := List.length_pos_of_mem member
  rw [size_eq_keys, size_eq_keys, drop, AList.keys_erase, List.length_erase_of_mem member]
  omega

theorem size_drop_le (cache : IdentityCache K V) (key : K) (seq : Nat) :
    (cache.drop key seq).size ≤ cache.size := by
  rw [size_eq_keys, size_eq_keys, drop, AList.keys_erase]
  exact List.length_erase_le

theorem size_place (cache : IdentityCache K V) (key : K) (value : V) (deadline : Timestamp) :
    (cache.place key value deadline).size =
      if (cache.entries.lookup key).isSome then cache.size else cache.size + 1 := by
  rw [size_eq_keys, size_eq_keys, place, AList.keys_insert, List.length_cons]
  split
  · rename_i held
    have member : key ∈ cache.entries.keys := AList.lookup_isSome.mp held
    have some_ := List.length_pos_of_mem member
    rw [List.length_erase_of_mem member]
    omega
  · rename_i absent
    rw [AList.lookup_isSome] at absent
    rw [List.erase_of_not_mem absent]

/-- An overfull cache has an oldest entry, and gives it up. -/
theorem evict_overfull (cache : IdentityCache K V) (paired : cache.Paired) (overfull : cache.capacity < cache.size) :
    ∃ seq key entry, cache.oldest = some (seq, key) ∧ cache.entries.lookup key = some entry ∧
      entry.seq = seq ∧ cache.evict = cache.drop key seq := by
  obtain ⟨key, member⟩ : ∃ key, key ∈ cache.entries.keys := by
    rw [size_eq_keys] at overfull
    exact List.exists_mem_of_length_pos (by omega)
  obtain ⟨entry, held⟩ := Option.isSome_iff_exists.mp (AList.lookup_isSome.mpr member)
  have listed := (paired.inverse key entry.seq).mp ⟨entry, held, rfl⟩
  cases first : cache.oldest with
  | none =>
    unfold oldest at first
    rw [Option.map_eq_none_iff, List.argmin_eq_none] at first
    have inside := AList.mem_lookup_iff.mp listed
    rw [first] at inside
    cases inside
  | some pair =>
    obtain ⟨seq, oldestKey⟩ := pair
    obtain ⟨old, stored, number⟩ :=
      (paired.inverse oldestKey seq).mpr (paired_oldest cache seq oldestKey first).1
    refine ⟨seq, oldestKey, old, rfl, stored, number, ?_⟩
    have more : cache.entries.entries.length > cache.capacity := overfull
    unfold evict
    rw [if_pos more, first]

theorem size_evict (cache : IdentityCache K V) (paired : cache.Paired) (near : cache.size ≤ cache.capacity + 1) :
    cache.evict.size ≤ cache.capacity := by
  by_cases overfull : cache.capacity < cache.size
  · obtain ⟨seq, key, entry, -, held, -, evicted⟩ := evict_overfull cache paired overfull
    have smaller := size_drop cache key seq entry held
    rw [evicted]
    omega
  · have kept : cache.evict = cache := if_neg overfull
    rw [kept]
    omega

@[simp] theorem apply_capacity (cache : IdentityCache K V) (op : CacheOp K V) :
    (cache.apply op).capacity = cache.capacity := by
  cases op with
  | get key now =>
    simp only [apply, get]
    split
    · split
      · rfl
      · rfl
    · rfl
  | insert key value expiresAt now =>
    simp only [apply, insert, evict]
    split
    · rfl
    · split
      · split
        · rfl
        · rfl
      · rfl
  | forget key =>
    simp only [apply, forget]
    split
    · rfl
    · rfl
  | clear => rfl

theorem size_apply (cache : IdentityCache K V) (paired : cache.Paired) (bounded : cache.size ≤ cache.capacity)
    (op : CacheOp K V) : (cache.apply op).size ≤ cache.capacity := by
  cases op with
  | get key now =>
    simp only [apply, get]
    split
    · split
      · exact bounded
      · exact Nat.le_trans (size_drop_le cache key _) bounded
    · exact bounded
  | insert key value expiresAt now =>
    simp only [apply, insert]
    split
    · exact bounded
    · refine size_evict _ (paired_place cache paired key value _) ?_
      rw [size_place]
      change _ ≤ cache.capacity + 1
      split
      · omega
      · omega
  | forget key =>
    simp only [apply, forget]
    split
    · exact Nat.le_trans (size_drop_le cache key _) bounded
    · exact bounded
  | clear => exact Nat.zero_le _

/-! ## What the entries recall -/

theorem lookup_evict_some (cache : IdentityCache K V) (key : K) (entry : Entry V)
    (found : cache.evict.entries.lookup key = some entry) : cache.entries.lookup key = some entry := by
  unfold evict at found
  split at found
  · split at found
    · exact lookup_drop cache _ key _ entry found
    · exact found
  · exact found

/-- An entry is either an old one, of which the operation says nothing, or the one that the
operation inserts. -/
theorem lookup_apply (cache : IdentityCache K V) (op : CacheOp K V) (key : K) (entry : Entry V)
    (found : (cache.apply op).entries.lookup key = some entry) :
    (cache.entries.lookup key = some entry ∧
      ∀ position known, recollect (lives cache.ttlSecs) key position known op = known) ∨
    ∃ value expiresAt now, op = .insert key value expiresAt now ∧
      lives cache.ttlSecs expiresAt now = true ∧
      entry = ⟨value, cache.deadline expiresAt now, cache.nextSeq⟩ := by
  cases op with
  | get other now =>
    refine Or.inl ⟨?_, fun _ _ => rfl⟩
    simp only [apply, get] at found
    split at found
    · split at found
      · exact found
      · exact lookup_drop cache other key _ entry found
    · exact found
  | insert other value expiresAt now =>
    have alive : lives cache.ttlSecs expiresAt now = !now.isAtOrAfter (cache.deadline expiresAt now) := rfl
    simp only [apply, insert] at found
    split at found
    · rename_i expired
      refine Or.inl ⟨found, fun position known => ?_⟩
      rw [recollect, if_neg (by simp [alive, expired])]
    · rename_i inTime
      have placed := lookup_evict_some _ key entry found
      rw [entries_place] at placed
      split at placed
      · rename_i same
        subst same
        exact Or.inr ⟨value, expiresAt, now, rfl, by simp [alive, inTime], (Option.some.inj placed).symm⟩
      · rename_i different
        refine Or.inl ⟨?_, fun position known => ?_⟩
        · rwa [lookup_forget_ne cache other key different] at placed
        · rw [recollect, if_neg (by simp [Ne.symm different])]
  | forget other =>
    have different : other ≠ key := by
      rintro rfl
      simp [apply] at found
    refine Or.inl ⟨?_, fun position known => ?_⟩
    · rwa [apply, lookup_forget_ne cache other key (Ne.symm different)] at found
    · rw [recollect, if_neg different]
  | clear => simp [apply, clear] at found

/-- Every entry is the latest insertion of its key, and insertion numbers follow the run. -/
structure Dated (ttlSecs : Nat) (history : List (CacheOp K V)) (cache : IdentityCache K V) : Prop where
  recalled : ∀ key entry, cache.entries.lookup key = some entry →
    ∃ insertion, latest (lives ttlSecs) key history = some insertion ∧ entry.value = insertion.value ∧
      entry.expiresAt = .earlier insertion.expiresAt (insertion.insertedAt.plusSecs ttlSecs)
  ordered : ∀ key entry other later, cache.entries.lookup key = some entry →
    cache.entries.lookup other = some later → entry.seq < later.seq →
    ∀ one two, latest (lives ttlSecs) key history = some one →
      latest (lives ttlSecs) other history = some two → one.position < two.position

theorem dated_apply (cache : IdentityCache K V) (history : List (CacheOp K V)) (paired : cache.Paired)
    (dated : Dated cache.ttlSecs history cache) (op : CacheOp K V) :
    Dated cache.ttlSecs (history ++ [op]) (cache.apply op) := by
  have past : ∀ key entry, cache.entries.lookup key = some entry → entry.seq < cache.nextSeq := fun key entry held =>
    paired.numbered entry.seq key ((paired.inverse key entry.seq).mp ⟨entry, held, rfl⟩)
  constructor
  · intro key entry found
    rcases lookup_apply cache op key entry found with ⟨held, silent⟩ | ⟨value, expiresAt, now, rfl, alive, rfl⟩
    · rw [latest_snoc, silent]
      exact dated.recalled key entry held
    · refine ⟨⟨history.length, value, expiresAt, now⟩, ?_, rfl, rfl⟩
      rw [latest_snoc, recollect, if_pos ⟨rfl, alive⟩]
  · intro key entry other later found foundLater earlier one two isOne isTwo
    rw [latest_snoc] at isOne isTwo
    rcases lookup_apply cache op key entry found with ⟨held, silent⟩ | ⟨value, expiresAt, now, rfl, alive, rfl⟩
    · rw [silent] at isOne
      rcases lookup_apply cache op other later foundLater with
        ⟨heldLater, silentLater⟩ | ⟨value, expiresAt, now, rfl, alive, rfl⟩
      · rw [silentLater] at isTwo
        exact dated.ordered key entry other later held heldLater earlier one two isOne isTwo
      · rw [recollect, if_pos ⟨rfl, alive⟩] at isTwo
        cases isTwo
        exact latest_position _ _ _ _ isOne
    · rcases lookup_apply cache _ other later foundLater with
        ⟨heldLater, -⟩ | ⟨value', expiresAt', now', same, -, rfl⟩
      · exact absurd (past other later heldLater) (Nat.lt_asymm earlier)
      · exact absurd earlier (Nat.lt_irrefl _)

@[simp] theorem apply_ttlSecs (cache : IdentityCache K V) (op : CacheOp K V) :
    (cache.apply op).ttlSecs = cache.ttlSecs := by
  cases op with
  | get key now => exact get_ttlSecs cache key now
  | insert key value expiresAt now => exact insert_ttlSecs cache key value expiresAt now
  | forget key => exact forget_ttlSecs cache key
  | clear => rfl

/-! ## Whole runs -/

/-- What holds of the cache after every run from a new one. -/
structure Faithful (capacity ttlSecs : Nat) (history : List (CacheOp K V)) (cache : IdentityCache K V) :
    Prop where
  capped : cache.capacity = max capacity 1
  lifetime : cache.ttlSecs = ttlSecs
  paired : cache.Paired
  bounded : cache.size ≤ cache.capacity
  dated : Dated ttlSecs history cache

theorem faithful_cacheAfter (capacity ttlSecs : Nat) (history : List (CacheOp K V)) :
    Faithful capacity ttlSecs history (cacheAfter capacity ttlSecs history) := by
  induction history using List.reverseRecOn with
  | nil =>
    refine ⟨rfl, rfl, paired_new capacity ttlSecs, Nat.zero_le _, ?_, ?_⟩
    · intro key entry found
      simp [cacheAfter, after, new] at found
    · intro key entry other later found
      simp [cacheAfter, after, new] at found
  | append_singleton history op ih =>
    have step : cacheAfter capacity ttlSecs (history ++ [op]) =
        (cacheAfter capacity ttlSecs history).apply op := by
      rw [cacheAfter, after, List.foldl_append]
      rfl
    have dated : Dated (cacheAfter capacity ttlSecs history).ttlSecs history
        (cacheAfter capacity ttlSecs history) := by
      rw [ih.lifetime]
      exact ih.dated
    have next := dated_apply _ history ih.paired dated op
    rw [ih.lifetime] at next
    rw [step]
    refine ⟨?_, ?_, paired_apply _ ih.paired op, ?_, next⟩
    · rw [apply_capacity, ih.capped]
    · rw [apply_ttlSecs, ih.lifetime]
    · rw [apply_capacity]
      exact size_apply _ ih.paired ih.bounded op

/-! ## Eviction -/

/-- A key whose entry an operation has removed. -/
def Loses (before after : IdentityCache K V) (key : K) : Prop :=
  (before.entries.lookup key).isSome = true ∧ after.entries.lookup key = none

section Evicts
variable (cache : IdentityCache K V) (key : K) (value : V) (deadline : Timestamp)

/-- The other entries are where they were, under a new key. -/
theorem place_keeps (new : cache.entries.lookup key = none) (other : K) (entry : Entry V)
    (there : cache.entries.lookup other = some entry) :
    other ≠ key ∧ (cache.place key value deadline).entries.lookup other = some entry := by
  have different : other ≠ key := by
    rintro rfl
    rw [new] at there
    cases there
  rw [entries_place, if_neg different, lookup_forget_ne cache key other different]
  exact ⟨different, there⟩

/-- An insert that leaves the cache overfull is of a new key. -/
theorem place_overfull (bounded : cache.size ≤ cache.capacity)
    (overfull : cache.capacity < (cache.place key value deadline).size) :
    cache.entries.lookup key = none := by
  have grown := size_place cache key value deadline
  cases present : cache.entries.lookup key with
  | none => rfl
  | some entry =>
    rw [present, Option.isSome_some, if_pos rfl] at grown
    omega

variable (paired : cache.Paired) (bounded : cache.size ≤ cache.capacity)
include paired bounded

/-- Whatever an insert pushes out is older than every other entry. -/
theorem evict_place_lost (lost : K) (old : Entry V) (held : cache.entries.lookup lost = some old)
    (gone : (cache.place key value deadline).evict.entries.lookup lost = none) :
    lost ≠ key ∧ ∀ other entry, other ≠ lost → cache.entries.lookup other = some entry → old.seq < entry.seq := by
  have placed := paired_place cache paired key value deadline
  by_cases overfull : cache.capacity < (cache.place key value deadline).size
  · have new := place_overfull cache key value deadline bounded overfull
    have still := place_keeps cache key value deadline new
    obtain ⟨seq, victim, entry, first, stored, number, evicted⟩ := evict_overfull _ placed overfull
    obtain ⟨named, least⟩ := paired_oldest _ seq victim first
    obtain ⟨different, present⟩ := still lost old held
    have isVictim : lost = victim := by
      by_contra spared
      rw [evicted, lookup_drop_ne _ victim lost seq spared, present] at gone
      cases gone
    subst isVictim
    rw [present, Option.some.injEq] at stored
    subst stored
    refine ⟨different, fun other later apart there => ?_⟩
    have listed := (placed.inverse other later.seq).mp ⟨later, (still other later there).2, rfl⟩
    have atLeast := least later.seq other listed
    have apartSeq : later.seq ≠ seq := by
      intro same
      rw [same, named, Option.some.injEq] at listed
      exact apart listed.symm
    omega
  · have kept : (cache.place key value deadline).evict = cache.place key value deadline := if_neg overfull
    rw [kept, entries_place] at gone
    split at gone
    · cases gone
    · rename_i different
      rw [lookup_forget_ne cache key lost different, held] at gone
      cases gone

/-- What was just inserted stays: with room for one, another entry is older. -/
theorem evict_place_self (room : 0 < cache.capacity) :
    (cache.place key value deadline).evict.entries.lookup key = some ⟨value, deadline, cache.nextSeq⟩ := by
  have placed := paired_place cache paired key value deadline
  have mine : (cache.place key value deadline).entries.lookup key = some ⟨value, deadline, cache.nextSeq⟩ := by
    rw [entries_place, if_pos rfl]
  by_cases overfull : cache.capacity < (cache.place key value deadline).size
  · have new := place_overfull cache key value deadline bounded overfull
    obtain ⟨seq, victim, entry, first, stored, number, evicted⟩ := evict_overfull _ placed overfull
    have spared : key ≠ victim := by
      rintro rfl
      have grown := size_place cache key value deadline
      rw [new, Option.isSome_none, if_neg (by simp)] at grown
      have some_ : 0 < cache.size := by omega
      rw [size_eq_keys] at some_
      obtain ⟨other, member⟩ := List.exists_mem_of_length_pos some_
      obtain ⟨older, there⟩ := Option.isSome_iff_exists.mp (AList.lookup_isSome.mpr member)
      have listed := (paired.inverse other older.seq).mp ⟨older, there, rfl⟩
      have past := paired.numbered older.seq other listed
      have stays := (place_keeps cache key value deadline new other older there).2
      have least := (paired_oldest _ seq key first).2 older.seq other
        ((placed.inverse other older.seq).mp ⟨older, stays, rfl⟩)
      rw [mine, Option.some.injEq] at stored
      subst stored
      dsimp only at number
      omega
    rw [evicted, lookup_drop_ne _ victim key seq spared]
    exact mine
  · have kept : (cache.place key value deadline).evict = cache.place key value deadline := if_neg overfull
    rw [kept]
    exact mine

end Evicts

end IdentityCache

open IdentityCache

/-- After any run the two maps are inverse, the bound holds, a hit is the latest insertion
that was not past its deadline when it was made, and an insert pushes out the entry that
was inserted first, never the one it adds. -/
theorem identityCache_faithful (capacity ttlSecs : Nat) (history : List (CacheOp K V)) :
    let cache := cacheAfter capacity ttlSecs history
    (∀ key seq, (∃ entry, cache.entries.lookup key = some entry ∧ entry.seq = seq) ↔
        cache.order.lookup seq = some key) ∧
      cache.entries.entries.length ≤ max capacity 1 ∧
      (∀ key now value, (cache.get key now).1 = some value →
        ∃ insertion, latest (lives ttlSecs) key history = some insertion ∧ insertion.value = value ∧
          now.secs < insertion.expiresAt.secs ∧ now.secs < insertion.insertedAt.secs + ttlSecs) ∧
      ∀ key value expiresAt now,
        (lives ttlSecs expiresAt now = true →
          ∃ entry, (cache.insert key value expiresAt now).entries.lookup key = some entry ∧
            entry.value = value) ∧
        ∀ lost, Loses cache (cache.insert key value expiresAt now) lost →
          lost ≠ key ∧ ∀ other, other ≠ lost → (cache.entries.lookup other).isSome = true →
            ∃ one two, latest (lives ttlSecs) lost history = some one ∧
              latest (lives ttlSecs) other history = some two ∧ one.position < two.position := by
  intro cache
  have faithful := faithful_cacheAfter capacity ttlSecs history
  change Faithful capacity ttlSecs history cache at faithful
  have room : 0 < cache.capacity := by
    rw [faithful.capped]
    omega
  refine ⟨faithful.paired.inverse, faithful.capped ▸ faithful.bounded, ?_, ?_⟩
  · intro key now value hit
    obtain ⟨entry, held, alive, rfl⟩ := (get_eq_some cache key now value).mp hit
    obtain ⟨insertion, found, same, deadline⟩ := faithful.dated.recalled key entry held
    rw [deadline, Timestamp.earlier_secs, Timestamp.plusSecs_secs] at alive
    exact ⟨insertion, found, same.symm, by omega, by omega⟩
  · intro key value expiresAt now
    have alive : lives ttlSecs expiresAt now = !now.isAtOrAfter (cache.deadline expiresAt now) := by
      rw [← faithful.lifetime]
      rfl
    refine ⟨fun inTime => ?_, fun lost loses => ?_⟩
    · rw [alive, Bool.not_eq_true'] at inTime
      refine ⟨⟨value, cache.deadline expiresAt now, cache.nextSeq⟩, ?_, rfl⟩
      rw [IdentityCache.insert, if_neg (by simp [inTime])]
      exact evict_place_self cache key value _ faithful.paired faithful.bounded room
    · obtain ⟨present, gone⟩ := loses
      obtain ⟨old, held⟩ := Option.isSome_iff_exists.mp present
      unfold IdentityCache.insert at gone
      split at gone
      · rw [held] at gone
        cases gone
      · obtain ⟨different, older⟩ :=
          evict_place_lost cache key value _ faithful.paired faithful.bounded lost old held gone
        refine ⟨different, fun other apart there => ?_⟩
        obtain ⟨entry, stored⟩ := Option.isSome_iff_exists.mp there
        obtain ⟨one, isOne, -⟩ := faithful.dated.recalled lost old held
        obtain ⟨two, isTwo, -⟩ := faithful.dated.recalled other entry stored
        exact ⟨one, two, isOne, isTwo, faithful.dated.ordered lost old other entry held stored
          (older other entry apart stored) one two isOne isTwo⟩

/-- An insert that is past its deadline is not made: the value before it is still served. -/
theorem expired_insert_ignored :
    ¬ ∀ (capacity ttlSecs : Nat) (history : List (CacheOp Nat Nat)) (key : Nat) (now : Timestamp)
      (value : Nat), ((cacheAfter capacity ttlSecs history).get key now).1 = some value →
      ∃ insertion, latest (fun _ _ => true) key history = some insertion ∧ insertion.value = value := by
  intro newest
  obtain ⟨insertion, found, same⟩ := newest 4 60
    [.insert 0 1 ⟨100, by decide⟩ ⟨10, by decide⟩, .insert 0 2 ⟨5, by decide⟩ ⟨10, by decide⟩]
    0 ⟨20, by decide⟩ 1 (by decide)
  cases found
  exact absurd same (by decide)

end WeeboSi.EndpointAuth
