import WeeboSi.Lib.Run
import WeeboSi.PreauthProxy.Relay

/-!
# The credential cache under any schedule

Source: bins/preauth-proxy/src/domain/credential.rs:16-84, as exchange.rs:301-351 calls it. Reading
and writing `held`, taking and leaving the acquisition lock and the return of `acquire` are one
step each, and a task may be dropped in between. A task invalidates only what `get_or_acquire` has
returned.
-/
namespace WeeboSi.PreauthProxy.CredentialCache
open WeeboSi.Lib WeeboSi.PreauthProxy

/-- How far a task is in `get_or_acquire`. -/
inductive Phase where
  | idle
  /-- The first look found nothing. -/
  | waiting
  | rechecking
  | acquiring
  | writing (fresh : Credential)
  | returning (held : Credential)
  deriving DecidableEq

/-- The task holds the acquisition lock. -/
def Phase.inside : Phase → Bool
  | idle => false
  | waiting => false
  | _ => true

structure Cache where
  held : Option Credential
  /-- The task that holds `acquiring`. -/
  lock : Option Nat
  phase : Nat → Phase
  /-- What `acquire` has returned so far. -/
  issued : List Credential
  /-- What `get_or_acquire` has returned so far, and to whom. -/
  received : List (Nat × Credential)
  invalidated : List (Nat × Credential)

inductive CacheEvent where
  /-- `get_or_acquire` begins with a look at the cache. -/
  | look (task : Nat)
  | lock (task : Nat)
  | recheck (task : Nat)
  /-- `acquire` returns, with a credential or without. -/
  | acquired (task : Nat) (outcome : Option Credential)
  | write (task : Nat)
  /-- The lock is left and the credential returned. -/
  | leave (task : Nat)
  | invalidate (task : Nat) (stale : Credential)
  /-- The task's future is dropped. -/
  | drop (task : Nat)

def empty : Cache := ⟨none, none, fun _ => .idle, [], [], []⟩

namespace Cache
variable (s : Cache) (task : Nat)

def enter (phase : Phase) : Cache := { s with phase := Function.update s.phase task phase }

def release : Cache := { s.enter task .idle with lock := if s.lock = some task then none else s.lock }

/-- Compare and clear. -/
def invalidate (stale : Credential) : Cache :=
  { s with
    held := if s.held = some stale then none else s.held
    invalidated := (task, stale) :: s.invalidated }

end Cache

/-- An event out of its turn changes nothing. -/
def cacheStep (s : Cache) : CacheEvent → Cache
  | .look task =>
    if s.phase task = .idle then
      match s.held with
      | some held => { s with received := (task, held) :: s.received }
      | none => s.enter task .waiting
    else s
  | .lock task =>
    if s.phase task = .waiting ∧ s.lock = none then { s.enter task .rechecking with lock := some task } else s
  | .recheck task =>
    if s.phase task = .rechecking then
      match s.held with
      | some held => s.enter task (.returning held)
      | none => s.enter task .acquiring
    else s
  | .acquired task outcome =>
    if s.phase task = .acquiring then
      match outcome with
      | some fresh => { s.enter task (.writing fresh) with issued := fresh :: s.issued }
      | none => s.release task
    else s
  | .write task =>
    match s.phase task with
    | .writing fresh => { s.enter task (.returning fresh) with held := some fresh }
    | _ => s
  | .leave task =>
    match s.phase task with
    | .returning held => { s.release task with received := (task, held) :: s.received }
    | _ => s
  | .invalidate task stale => if s.phase task = .idle then s.invalidate task stale else s
  | .drop task => s.release task

/-- Credentials are pairwise distinct, and only what was returned is invalidated. -/
def Admissible (s : Cache) : CacheEvent → Prop
  | .acquired _ (some fresh) => fresh ∉ s.issued
  | .invalidate _ stale => ∃ task, (task, stale) ∈ s.received
  | _ => True

/-! ## The invariant -/

/-- At most one `acquire` is in progress. -/
def SingleFlight (s : Cache) : Prop :=
  ∀ one other, s.phase one = .acquiring → s.phase other = .acquiring → one = other

structure Tracked (s : Cache) : Prop where
  owner : ∀ task, (s.phase task).inside = true → s.lock = some task
  held : ∀ c, s.held = some c → c ∈ s.issued
  received : ∀ task c, (task, c) ∈ s.received → c ∈ s.issued
  /-- What was invalidated is not held, and will not be again. -/
  invalidated : ∀ task c, (task, c) ∈ s.invalidated → c ∈ s.issued ∧ s.held ≠ some c
  /-- What is about to be written was never seen by anyone. -/
  writing : ∀ task c, s.phase task = .writing c →
    c ∈ s.issued ∧ s.held ≠ some c ∧ (∀ other, (other, c) ∉ s.received) ∧ ∀ other, (other, c) ∉ s.invalidated
  returning : ∀ task c, s.phase task = .returning c → c ∈ s.issued ∧ (task, c) ∉ s.invalidated
  /-- Only the task that acquires could fill the cache. -/
  acquiring : ∀ task, s.phase task = .acquiring → s.held = none

theorem tracked_empty : Tracked empty := by
  constructor <;> simp [empty, Phase.inside]

theorem tracked_singleFlight (s : Cache) (tracked : Tracked s) : SingleFlight s := by
  intro one other first second
  have mine := tracked.owner one (by rw [first]; rfl)
  have yours := tracked.owner other (by rw [second]; rfl)
  rw [mine] at yours
  exact Option.some.inj yours

/-! ## What one step keeps -/

section Steps
variable (s : Cache) (task : Nat) (tracked : Tracked s)

theorem phase_enter (phase : Phase) (other : Nat) :
    (s.enter task phase).phase other = if other = task then phase else s.phase other :=
  Function.update_apply s.phase task phase other

include tracked

/-- Nobody else is inside while the task is. -/
theorem alone (inside : (s.phase task).inside = true) (other : Nat) (also : (s.phase other).inside = true) :
    other = task := by
  have mine := tracked.owner task inside
  rw [tracked.owner other also] at mine
  exact Option.some.inj mine

theorem tracked_enter (phase : Phase) (owner : phase.inside = true → s.lock = some task)
    (writing : ∀ c, phase = .writing c → c ∈ s.issued ∧ s.held ≠ some c ∧
      (∀ other, (other, c) ∉ s.received) ∧ ∀ other, (other, c) ∉ s.invalidated)
    (returning : ∀ c, phase = .returning c → c ∈ s.issued ∧ (task, c) ∉ s.invalidated)
    (acquiring : phase = .acquiring → s.held = none) : Tracked (s.enter task phase) := by
  refine ⟨?_, tracked.held, tracked.received, tracked.invalidated, ?_, ?_, ?_⟩
  · intro other inside
    rw [phase_enter] at inside
    split at inside
    · rename_i same
      rw [same]
      exact owner inside
    · exact tracked.owner other inside
  · intro other c writes
    rw [phase_enter] at writes
    split at writes
    · exact writing c writes
    · exact tracked.writing other c writes
  · intro other c returns
    rw [phase_enter] at returns
    split at returns
    · rename_i same
      rw [same]
      exact returning c returns
    · exact tracked.returning other c returns
  · intro other acquires
    rw [phase_enter] at acquires
    split at acquires
    · exact acquiring acquires
    · exact tracked.acquiring other acquires

theorem tracked_release : Tracked (s.release task) := by
  have idle := tracked_enter s task tracked .idle nofun nofun nofun nofun
  refine ⟨?_, idle.held, idle.received, idle.invalidated, idle.writing, idle.returning, idle.acquiring⟩
  intro other inside
  have mine := idle.owner other inside
  have apart : other ≠ task := by
    rintro rfl
    simp [Cache.release, phase_enter, Phase.inside] at inside
  change s.lock = some other at mine
  change (if s.lock = some task then none else s.lock) = some other
  rw [mine, if_neg (by simp [apart])]

theorem tracked_receive (c : Credential) (known : c ∈ s.issued)
    (unwritten : ∀ other, s.phase other ≠ .writing c) :
    Tracked { s with received := (task, c) :: s.received } := by
  refine ⟨tracked.owner, tracked.held, ?_, tracked.invalidated, ?_, tracked.returning, tracked.acquiring⟩
  · intro other d member
    rcases List.mem_cons.mp member with same | member
    · cases same
      exact known
    · exact tracked.received other d member
  · intro other d writes
    obtain ⟨issued, notHeld, unseen, valid⟩ := tracked.writing other d writes
    refine ⟨issued, notHeld, ?_, valid⟩
    intro someone member
    rcases List.mem_cons.mp member with same | member
    · cases same
      exact unwritten other writes
    · exact unseen someone member

theorem tracked_lock (free : s.lock = none) : Tracked { s.enter task .rechecking with lock := some task } := by
  have nobody : ∀ other, (s.phase other).inside = false := by
    intro other
    rw [Bool.eq_false_iff]
    intro inside
    have owned := tracked.owner other inside
    rw [free] at owned
    cases owned
  have taken : Tracked { s with lock := some task } := by
    refine ⟨?_, tracked.held, tracked.received, tracked.invalidated, tracked.writing, tracked.returning,
      tracked.acquiring⟩
    intro other inside
    rw [nobody other] at inside
    cases inside
  exact tracked_enter _ task taken .rechecking (fun _ => rfl) nofun nofun nofun

theorem tracked_issue (fresh : Credential) : Tracked { s with issued := fresh :: s.issued } := by
  refine ⟨tracked.owner, ?_, ?_, ?_, ?_, ?_, tracked.acquiring⟩
  · intro c held
    exact List.mem_cons_of_mem _ (tracked.held c held)
  · intro other c member
    exact List.mem_cons_of_mem _ (tracked.received other c member)
  · intro other c member
    exact (tracked.invalidated other c member).imp_left (List.mem_cons_of_mem _)
  · intro other c writes
    exact (tracked.writing other c writes).imp_left (List.mem_cons_of_mem _)
  · intro other c returns
    exact (tracked.returning other c returns).imp_left (List.mem_cons_of_mem _)

theorem tracked_hold (c : Credential) (known : c ∈ s.issued) (valid : ∀ other, (other, c) ∉ s.invalidated)
    (quiet : ∀ other, s.phase other ≠ .acquiring ∧ ∀ d, s.phase other ≠ .writing d) :
    Tracked { s with held := some c } := by
  refine ⟨tracked.owner, ?_, tracked.received, ?_, ?_, tracked.returning, ?_⟩
  · intro d held
    cases held
    exact known
  · intro other d member
    refine ⟨(tracked.invalidated other d member).1, ?_⟩
    intro held
    cases held
    exact valid other member
  · intro other d writes
    exact absurd writes ((quiet other).2 d)
  · intro other acquires
    exact absurd acquires (quiet other).1

theorem tracked_invalidate (stale : Credential) (returned : ∃ someone, (someone, stale) ∈ s.received)
    (idle : s.phase task = .idle) : Tracked (s.invalidate task stale) := by
  have cleared : ∀ c, (s.invalidate task stale).held = some c → s.held = some c ∧ c ≠ stale := by
    intro c held
    simp only [Cache.invalidate] at held
    split at held
    · cases held
    · rename_i other
      refine ⟨held, ?_⟩
      rintro rfl
      exact other held
  obtain ⟨someone, seen⟩ := returned
  refine ⟨tracked.owner, ?_, tracked.received, ?_, ?_, ?_, ?_⟩
  · intro c held
    exact tracked.held c (cleared c held).1
  · intro other c member
    rcases List.mem_cons.mp member with same | member
    · cases same
      exact ⟨tracked.received someone stale seen, fun held => (cleared stale held).2 rfl⟩
    · have before := tracked.invalidated other c member
      exact ⟨before.1, fun held => before.2 (cleared c held).1⟩
  · intro other c writes
    obtain ⟨issued, notHeld, unseen, valid⟩ := tracked.writing other c writes
    refine ⟨issued, fun held => notHeld (cleared c held).1, unseen, ?_⟩
    intro anyone member
    rcases List.mem_cons.mp member with same | member
    · cases same
      exact unseen someone seen
    · exact valid anyone member
  · intro other c returns
    have before := tracked.returning other c returns
    refine ⟨before.1, ?_⟩
    intro member
    rcases List.mem_cons.mp member with same | member
    · cases same
      change s.phase task = .returning stale at returns
      rw [idle] at returns
      cases returns
    · exact before.2 member
  · intro other acquires
    have nothing := tracked.acquiring other acquires
    simp [Cache.invalidate, nothing]

theorem look_tracked : Tracked (cacheStep s (.look task)) := by
  simp only [cacheStep]
  split
  · split
    · rename_i c held
      refine tracked_receive s task tracked c (tracked.held c held) ?_
      intro other writes
      exact (tracked.writing other c writes).2.1 held
    · exact tracked_enter s task tracked .waiting nofun nofun nofun nofun
  · exact tracked

theorem lock_tracked : Tracked (cacheStep s (.lock task)) := by
  simp only [cacheStep]
  split
  · rename_i turn
    exact tracked_lock s task tracked turn.2
  · exact tracked

theorem recheck_tracked : Tracked (cacheStep s (.recheck task)) := by
  simp only [cacheStep]
  split
  · rename_i turn
    have owner := tracked.owner task (by rw [turn]; rfl)
    cases held : s.held with
    | none => exact tracked_enter s task tracked .acquiring (fun _ => owner) nofun nofun (fun _ => held)
    | some c =>
      refine tracked_enter s task tracked (.returning c) (fun _ => owner) nofun ?_ nofun
      intro d same
      cases same
      exact ⟨tracked.held c held, fun member => (tracked.invalidated task c member).2 held⟩
  · exact tracked

theorem acquired_tracked (outcome : Option Credential) (admissible : Admissible s (.acquired task outcome)) :
    Tracked (cacheStep s (.acquired task outcome)) := by
  simp only [cacheStep]
  split
  · rename_i turn
    cases outcome with
    | none => exact tracked_release s task tracked
    | some fresh =>
      have new : fresh ∉ s.issued := admissible
      refine tracked_enter _ task (tracked_issue s tracked fresh) (.writing fresh) ?_ ?_ nofun nofun
      · intro _
        exact tracked.owner task (by rw [turn]; rfl)
      · intro c same
        cases same
        exact ⟨List.mem_cons_self, fun held => new (tracked.held fresh held),
          fun other member => new (tracked.received other fresh member),
          fun other member => new (tracked.invalidated other fresh member).1⟩
  · exact tracked

theorem write_tracked : Tracked (cacheStep s (.write task)) := by
  simp only [cacheStep]
  split
  · rename_i fresh turn
    have inside : (s.phase task).inside = true := by rw [turn]; rfl
    obtain ⟨issued, -, -, valid⟩ := tracked.writing task fresh turn
    have entered : Tracked (s.enter task (.returning fresh)) := by
      refine tracked_enter s task tracked _ (fun _ => tracked.owner task inside) nofun ?_ nofun
      intro c same
      cases same
      exact ⟨issued, valid task⟩
    -- nobody else holds the lock, so nobody else acquires or writes
    refine tracked_hold _ entered fresh issued valid ?_
    intro other
    rw [phase_enter]
    split
    · exact ⟨nofun, nofun⟩
    · rename_i apart
      have outside := mt (alone s task tracked inside other) apart
      refine ⟨?_, ?_⟩
      · intro acquires
        exact outside (by rw [acquires]; rfl)
      · intro d writes
        exact outside (by rw [writes]; rfl)
  · exact tracked

theorem leave_tracked : Tracked (cacheStep s (.leave task)) := by
  simp only [cacheStep]
  split
  · rename_i c turn
    have inside : (s.phase task).inside = true := by rw [turn]; rfl
    refine tracked_receive _ task (tracked_release s task tracked) c (tracked.returning task c turn).1 ?_
    intro other writes
    change (s.enter task .idle).phase other = .writing c at writes
    rw [phase_enter] at writes
    split at writes
    · cases writes
    · rename_i apart
      exact apart (alone s task tracked inside other (by rw [writes]; rfl))
  · exact tracked

theorem invalidate_tracked (stale : Credential) (admissible : Admissible s (.invalidate task stale)) :
    Tracked (cacheStep s (.invalidate task stale)) := by
  simp only [cacheStep]
  split
  · rename_i idle
    exact tracked_invalidate s task tracked stale admissible idle
  · exact tracked

end Steps

theorem cacheStep_tracked (s : Cache) (event : CacheEvent) (tracked : Tracked s)
    (admissible : Admissible s event) : Tracked (cacheStep s event) := by
  cases event with
  | look task => exact look_tracked s task tracked
  | lock task => exact lock_tracked s task tracked
  | recheck task => exact recheck_tracked s task tracked
  | acquired task outcome => exact acquired_tracked s task tracked outcome admissible
  | write task => exact write_tracked s task tracked
  | leave task => exact leave_tracked s task tracked
  | invalidate task stale => exact invalidate_tracked s task tracked stale admissible
  | drop task => exact tracked_release s task tracked

/-! ## Whole runs -/

/-- What one step promises in the state it is taken in. -/
structure Forward (s : Cache) (event : CacheEvent) : Prop where
  single : SingleFlight s
  /-- Nothing is held while a credential is being acquired, nor because that failed. -/
  failed : ∀ task, s.phase task = .acquiring →
    s.held = none ∧ (event = .acquired task none → (cacheStep s event).held = none)
  newer : ∀ task stale c, event = .invalidate task stale → s.held = some c → c ≠ stale →
    (cacheStep s event).held = some c
  renewed : ∀ task c, (cacheStep s event).received = (task, c) :: s.received → (task, c) ∉ s.invalidated

theorem cacheStep_newer (s : Cache) (task : Nat) (stale c : Credential) (held : s.held = some c)
    (newer : c ≠ stale) :
    (cacheStep s (.invalidate task stale)).held = some c := by
  simp only [cacheStep]
  split
  · simp [Cache.invalidate, held, newer]
  · exact held

/-- What a step returns is held, or was found under the lock. -/
theorem cacheStep_received (s : Cache) (event : CacheEvent) (task : Nat) (c : Credential)
    (received : (cacheStep s event).received = (task, c) :: s.received) :
    s.held = some c ∨ s.phase task = .returning c := by
  have unchanged : s.received ≠ (task, c) :: s.received := (List.cons_ne_self _ _).symm
  cases event with
  | look one =>
    simp only [cacheStep] at received
    split at received
    · split at received
      · rename_i held found
        obtain ⟨same, -⟩ := List.cons.inj received
        cases same
        exact .inl found
      · exact absurd received unchanged
    · exact absurd received unchanged
  | leave one =>
    simp only [cacheStep] at received
    split at received
    · rename_i held turn
      obtain ⟨same, -⟩ := List.cons.inj received
      cases same
      exact .inr turn
    · exact absurd received unchanged
  | drop one => exact absurd received unchanged
  | _ =>
    simp only [cacheStep] at received
    split at received
    · first
        | exact absurd received unchanged
        | split at received <;> exact absurd received unchanged
    · exact absurd received unchanged

theorem tracked_forward (s : Cache) (event : CacheEvent) (tracked : Tracked s) : Forward s event := by
  refine ⟨tracked_singleFlight s tracked, ?_, ?_, ?_⟩
  · intro task acquires
    refine ⟨tracked.acquiring task acquires, ?_⟩
    rintro rfl
    simpa [cacheStep, acquires, Cache.release, Cache.enter] using tracked.acquiring task acquires
  · rintro task stale c rfl held newer
    exact cacheStep_newer s task stale c held newer
  · intro task c received member
    rcases cacheStep_received s event task c received with held | returns
    · exact (tracked.invalidated task c member).2 held
    · exact (tracked.returning task c returns).2 member

/-- One acquisition at a time, in every state a run reaches, and a cache that only moves forward. -/
theorem single_flight_forward (events : List CacheEvent) (run : Along cacheStep Admissible empty events) :
    SingleFlight (after cacheStep empty events) ∧ Along cacheStep Forward empty events := by
  refine ⟨tracked_singleFlight _ ?_, ?_⟩
  · exact after_of_invariant cacheStep Tracked Admissible cacheStep_tracked empty tracked_empty events run
  · exact along_of_invariant cacheStep Tracked Admissible Forward cacheStep_tracked
      (fun s e tracked _ => tracked_forward s e tracked) empty tracked_empty events run

def expired : Credential := ⟨"sid=1".toList⟩
def renewed : Credential := ⟨"sid=2".toList⟩

/-- Two tasks miss together, one login fails, both are refused with the same credential, and the
second invalidation comes after the renewal. -/
def twoRefused : List CacheEvent :=
  [.look 0, .look 1, .lock 0, .lock 1, .recheck 0, .acquired 0 none,
    .lock 1, .recheck 1, .acquired 1 (some expired), .write 1, .leave 1, .look 0, .invalidate 1 expired,
    .look 1, .lock 1, .recheck 1, .acquired 1 (some renewed), .write 1, .leave 1, .invalidate 0 expired, .look 0]

theorem twoRefused_forward : (after cacheStep empty twoRefused).received =
      [(0, renewed), (1, renewed), (0, expired), (1, expired)] ∧
    SingleFlight (after cacheStep empty twoRefused) ∧ Along cacheStep Forward empty twoRefused := by
  refine ⟨by decide, single_flight_forward twoRefused ?_⟩
  refine ⟨trivial, trivial, trivial, trivial, trivial, trivial, trivial, trivial, ?_,
    trivial, trivial, trivial, ?_, trivial, trivial, trivial, ?_, trivial, trivial, ?_, trivial, trivial⟩
  · show expired ∉ _
    decide
  · exact ⟨1, by decide⟩
  · show renewed ∉ _
    decide
  · exact ⟨0, by decide⟩

end WeeboSi.PreauthProxy.CredentialCache
