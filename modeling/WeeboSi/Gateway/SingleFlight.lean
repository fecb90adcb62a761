import WeeboSi.EndpointAuth.Application
import WeeboSi.Lib.KeyedFold
import WeeboSi.Lib.Run

/-!
# One review per token

Source: bins/endpoint-gateway/src/adapters/kube_workload.rs:172, 217-256, 344-361. Callers
with the same token share a `OnceCell` through the in-flight map. Joining and leaving happen
under the map's lock and are one step each; the review runs in between, and a caller may be
dropped at any point of it. A cell is named by its fingerprint and a serial number, which
stands for the address `Arc::ptr_eq` compares. The caches and the offline check in front of
the map turn callers away before they join, so any caller may join here.
-/
namespace WeeboSi.Gateway.SingleFlight
open WeeboSi.Lib WeeboSi.EndpointAuth

/-- A `OnceCell`: one initialiser at a time, and a cell whose initialiser was dropped is
empty again. -/
inductive CellState (A : Type) where
  | empty
  | running (caller : Nat)
  | initialized (answer : A)
  deriving DecidableEq, Repr

def CellState.isInitialized {A : Type} : CellState A → Bool
  | .initialized _ => true
  | _ => false

structure InFlight (K A : Type) where
  /-- The map: the serial number of the current cell of a fingerprint. -/
  current : AList (fun _ : K => Nat)
  cells : K × Nat → CellState A
  next : Nat
  /-- The cell each caller's `InFlightEntry` holds. -/
  held : AList (fun _ : Nat => K × Nat)

inductive FlightEvent (A : Type) where
  | arrive (caller : Nat) (token : Text)
  /-- `get_or_init` begins the caller's review. -/
  | start (caller : Nat)
  | complete (caller : Nat) (answer : A)
  /-- The caller's review is dropped, before its entry is. -/
  | abandon (caller : Nat)
  /-- `InFlightEntry::drop`, with an answer or without. -/
  | leave (caller : Nat)

section System
variable {K A : Type} [DecidableEq K] (digest : List UInt8 → K)

def idle : InFlight K A := ⟨∅, fun _ => .empty, 0, ∅⟩

def holders (s : InFlight K A) (cell : K × Nat) : Nat := s.held.entries.countP fun entry => entry.2 = cell

/-- `Arc::strong_count`: the map's reference and those of the entries. -/
def strongCount (s : InFlight K A) (cell : K × Nat) : Nat :=
  (if s.current.lookup cell.1 = some cell.2 then 1 else 0) + holders s cell

def join (s : InFlight K A) (caller : Nat) (key : K) : InFlight K A :=
  match s.current.lookup key with
  | some serial => { s with held := s.held.insert caller (key, serial) }
  | none =>
    { current := s.current.insert key s.next
      cells := Function.update s.cells (key, s.next) .empty
      next := s.next + 1
      held := s.held.insert caller (key, s.next) }

def setCell (s : InFlight K A) (cell : K × Nat) (state : CellState A) : InFlight K A :=
  { s with cells := Function.update s.cells cell state }

/-- The entry goes with the answer, or with the last holder. -/
def drops (s : InFlight K A) (cell : K × Nat) : Bool :=
  s.current.lookup cell.1 = some cell.2 && ((s.cells cell).isInitialized || strongCount s cell ≤ 2)

def release (s : InFlight K A) (caller : Nat) (cell : K × Nat) : InFlight K A :=
  { s with
    current := if drops s cell then s.current.erase cell.1 else s.current
    held := s.held.erase caller }

/-- The caller's own review ends, and leaves its cell in `state`. -/
def endReview (s : InFlight K A) (caller : Nat) (state : CellState A) : InFlight K A :=
  match s.held.lookup caller with
  | some cell =>
    match s.cells cell with
    | .running runner => if runner = caller then setCell s cell state else s
    | _ => s
  | none => s

/-- An event out of its turn changes nothing. -/
def flightStep (s : InFlight K A) : FlightEvent A → InFlight K A
  | .arrive caller token =>
    if (s.held.lookup caller).isSome then s else join s caller (fingerprint digest token)
  | .start caller =>
    match s.held.lookup caller with
    | some cell =>
      match s.cells cell with
      | .empty => setCell s cell (.running caller)
      | _ => s
    | none => s
  | .complete caller answer => endReview s caller (.initialized answer)
  | .abandon caller => endReview s caller .empty
  | .leave caller =>
    match s.held.lookup caller with
    | some cell =>
      match s.cells cell with
      | .running runner => if runner = caller then s else release s caller cell
      | _ => release s caller cell
    | none => s

/-- At most one review of a fingerprint is in progress, and a fingerprint whose entries are
all gone is not in the map. -/
structure OneReview (s : InFlight K A) : Prop where
  single : ∀ key m n one other, s.cells (key, m) = .running one → s.cells (key, n) = .running other →
    m = n ∧ one = other
  empty : ∀ key, (∀ caller serial, s.held.lookup caller ≠ some (key, serial)) → s.current.lookup key = none

/-- The joint invariant: a cell that left the map has its answer, a cell in the map has a
holder, and a review is run by a holder. -/
structure Tracked (s : InFlight K A) : Prop where
  fresh : ∀ caller key serial, s.held.lookup caller = some (key, serial) → serial < s.next
  runner : ∀ cell caller, s.cells cell = .running caller → s.held.lookup caller = some cell
  settled : ∀ caller key serial, s.held.lookup caller = some (key, serial) →
    s.current.lookup key = some serial ∨ (s.cells (key, serial)).isInitialized = true
  needed : ∀ key serial, s.current.lookup key = some serial →
    ∃ caller, s.held.lookup caller = some (key, serial)

theorem tracked_oneReview (s : InFlight K A) (tracked : Tracked s) : OneReview s := by
  constructor
  · intro key m n one other runsOne runsOther
    have inMap : ∀ serial caller, s.cells (key, serial) = .running caller →
        s.current.lookup key = some serial := by
      intro serial caller runs
      refine (tracked.settled caller key serial (tracked.runner _ caller runs)).resolve_right ?_
      rw [runs]
      simp [CellState.isInitialized]
    have same : m = n := by
      have first := inMap m one runsOne
      rw [inMap n other runsOther] at first
      exact (Option.some.inj first).symm
    refine ⟨same, ?_⟩
    rw [same, runsOther] at runsOne
    exact (CellState.running.inj runsOne).symm
  · intro key gone
    cases found : s.current.lookup key with
    | none => rfl
    | some serial =>
      obtain ⟨caller, holds⟩ := tracked.needed key serial found
      exact absurd holds (gone caller serial)

theorem tracked_idle : Tracked (idle : InFlight K A) := by
  constructor
  · intro caller key serial holds
    cases holds
  · intro cell caller runs
    cases runs
  · intro caller key serial holds
    cases holds
  · intro key serial found
    cases found

/-! ## What one step keeps -/

variable (s : InFlight K A) (caller : Nat)

/-- The caller joins the cell the map has for its fingerprint. -/
theorem tracked_share (key : K) (serial : Nat) (tracked : Tracked s) (absent : s.held.lookup caller = none)
    (found : s.current.lookup key = some serial) :
    Tracked { s with held := s.held.insert caller (key, serial) } := by
  obtain ⟨first, holder⟩ := tracked.needed key serial found
  constructor
  · intro other key' serial' holds
    rcases lookup_insert_some _ _ _ _ _ holds with ⟨_, new⟩ | ⟨_, old⟩
    · cases new
      exact tracked.fresh first key serial holder
    · exact tracked.fresh other key' serial' old
  · intro cell other runs
    exact lookup_insert_absent _ _ _ _ _ absent (tracked.runner cell other runs)
  · intro other key' serial' holds
    rcases lookup_insert_some _ _ _ _ _ holds with ⟨_, new⟩ | ⟨_, old⟩
    · cases new
      exact .inl found
    · exact tracked.settled other key' serial' old
  · intro key' serial' inMap
    obtain ⟨other, old⟩ := tracked.needed key' serial' inMap
    exact ⟨other, lookup_insert_absent _ _ _ _ _ absent old⟩

/-- The caller puts a new cell into the map. Its serial number is above every held one, so
no cell that anyone holds is written to. -/
theorem tracked_default (key : K) (tracked : Tracked s) (absent : s.held.lookup caller = none)
    (missing : s.current.lookup key = none) :
    Tracked
      { current := s.current.insert key s.next
        cells := Function.update s.cells (key, s.next) .empty
        next := s.next + 1
        held := s.held.insert caller (key, s.next) } := by
  have apart : ∀ other key' serial', s.held.lookup other = some (key', serial') →
      (key', serial') ≠ (key, s.next) := by
    intro other key' serial' old same
    cases same
    exact Nat.lt_irrefl _ (tracked.fresh other key s.next old)
  constructor
  · intro other key' serial' holds
    rcases lookup_insert_some _ _ _ _ _ holds with ⟨_, new⟩ | ⟨_, old⟩
    · cases new
      exact Nat.lt_succ_self _
    · exact Nat.lt_succ_of_lt (tracked.fresh other key' serial' old)
  · intro cell other runs
    dsimp only at runs
    by_cases new : cell = (key, s.next)
    · rw [new, Function.update_self] at runs
      cases runs
    · rw [Function.update_of_ne new] at runs
      exact lookup_insert_absent _ _ _ _ _ absent (tracked.runner cell other runs)
  · intro other key' serial' holds
    rcases lookup_insert_some _ _ _ _ _ holds with ⟨_, new⟩ | ⟨_, old⟩
    · cases new
      exact .inl (AList.lookup_insert _)
    · dsimp only
      rw [Function.update_of_ne (apart other key' serial' old)]
      refine (tracked.settled other key' serial' old).imp_left ?_
      intro inMap
      exact lookup_insert_absent _ _ _ _ _ missing inMap
  · intro key' serial' inMap
    rcases lookup_insert_some _ _ _ _ _ inMap with ⟨rfl, rfl⟩ | ⟨_, old⟩
    · exact ⟨caller, AList.lookup_insert _⟩
    · obtain ⟨other, holds⟩ := tracked.needed key' serial' old
      exact ⟨other, lookup_insert_absent _ _ _ _ _ absent holds⟩

theorem join_tracked (key : K) (tracked : Tracked s) (absent : s.held.lookup caller = none) :
    Tracked (join s caller key) := by
  unfold join
  cases found : s.current.lookup key with
  | some serial => exact tracked_share s caller key serial tracked absent found
  | none => exact tracked_default s caller key tracked absent found

/-- A cell without an answer is in the map, and stays there when its state changes. -/
theorem setCell_tracked (cell : K × Nat) (state : CellState A) (tracked : Tracked s)
    (holds : s.held.lookup caller = some cell) (unanswered : (s.cells cell).isInitialized = false)
    (own : ∀ runner, state = .running runner → runner = caller) : Tracked (setCell s cell state) := by
  constructor
  · exact tracked.fresh
  · intro other runner runs
    simp only [setCell] at runs ⊢
    by_cases same : other = cell
    · rw [same, Function.update_self] at runs
      rw [same, own runner runs]
      exact holds
    · rw [Function.update_of_ne same] at runs
      exact tracked.runner other runner runs
  · intro other key serial held
    by_cases same : (key, serial) = cell
    · rw [← same] at unanswered
      refine .inl ((tracked.settled other key serial held).resolve_right ?_)
      rw [unanswered]
      exact Bool.false_ne_true
    · simp only [setCell]
      rw [Function.update_of_ne same]
      exact tracked.settled other key serial held
  · exact tracked.needed

theorem endReview_tracked (state : CellState A) (tracked : Tracked s)
    (ended : ∀ runner, state ≠ .running runner) : Tracked (endReview s caller state) := by
  unfold endReview
  split
  · rename_i cell holds
    split
    · rename_i runner runs
      split
      · apply setCell_tracked s caller cell state tracked holds
        · rw [runs]
          rfl
        · intro runner runs
          exact absurd runs (ended runner)
      · exact tracked
    · exact tracked
  · exact tracked

theorem endReview_held (state : CellState A) : (endReview s caller state).held = s.held := by
  unfold endReview
  split
  · split
    · split
      all_goals rfl
    · rfl
  · rfl

theorem update_initialized (cell : K × Nat) (state : CellState A) (other : K × Nat) (answer : A)
    (answered : Function.update s.cells cell state other = .initialized answer) :
    s.cells other = .initialized answer ∨ state = .initialized answer ∧ other = cell := by
  by_cases same : other = cell
  · rw [same, Function.update_self] at answered
    exact .inr ⟨answered, same⟩
  · rw [Function.update_of_ne same] at answered
    exact .inl answered

theorem endReview_answer (state : CellState A) (cell : K × Nat) (answer : A)
    (answered : (endReview s caller state).cells cell = .initialized answer) :
    s.cells cell = .initialized answer ∨ state = .initialized answer ∧ s.held.lookup caller = some cell := by
  unfold endReview at answered
  split at answered
  · rename_i own holds
    split at answered
    · split at answered
      · refine (update_initialized s own state cell answer answered).imp_right ?_
        rintro ⟨given, same⟩
        exact ⟨given, by rw [same]; exact holds⟩
      · exact .inl answered
    · exact .inl answered
  · exact .inl answered

/-! ## Leaving -/

theorem holders_pos_iff (cell : K × Nat) :
    0 < holders s cell ↔ ∃ other, s.held.lookup other = some cell := by
  unfold holders
  rw [List.countP_pos_iff]
  constructor
  · rintro ⟨⟨other, found⟩, member, same⟩
    refine ⟨other, ?_⟩
    rw [← of_decide_eq_true same]
    exact AList.mem_lookup_iff.mpr member
  · rintro ⟨other, found⟩
    exact ⟨⟨other, cell⟩, AList.mem_lookup_iff.mp found, decide_eq_true rfl⟩

/-- The count is exact: leaving takes one reference away. -/
theorem holders_release (cell : K × Nat) (holds : s.held.lookup caller = some cell) :
    holders s cell = holders (release s caller cell) cell + 1 := by
  have member : (⟨caller, cell⟩ : Sigma fun _ : Nat => K × Nat) ∈ s.held.entries :=
    AList.mem_lookup_iff.mp holds
  obtain ⟨found, before, rest, -, split, erased⟩ := List.exists_of_kerase (List.mem_keys_of_mem member)
  have same : found = cell := by
    have there : (⟨caller, found⟩ : Sigma fun _ : Nat => K × Nat) ∈ s.held.entries := by
      rw [split]
      simp
    have looked : s.held.lookup caller = some found := AList.mem_lookup_iff.mpr there
    rw [holds] at looked
    exact (Option.some.inj looked).symm
  have left : (release s caller cell).held.entries = before ++ rest := erased
  unfold holders
  rw [left, split, same]
  simp only [List.countP_append, List.countP_cons, decide_true, if_true]
  omega

theorem current_release (cell : K × Nat) (key : K) (serial : Nat)
    (inMap : (release s caller cell).current.lookup key = some serial) :
    s.current.lookup key = some serial ∧ ((key, serial) = cell → drops s cell = false) := by
  simp only [release] at inMap
  cases gone : drops s cell with
  | false =>
    rw [gone] at inMap
    exact ⟨inMap, fun _ => rfl⟩
  | true =>
    rw [gone, if_pos rfl] at inMap
    obtain ⟨different, old⟩ := lookup_erase_some _ _ _ _ inMap
    exact ⟨old, fun same => absurd (congrArg Prod.fst same) different⟩

/-- Leaving removes an entry only with its answer in, or with nobody left to wait for it. -/
theorem release_settled (cell : K × Nat) (tracked : Tracked s) (holds : s.held.lookup caller = some cell)
    (other : Nat) (key : K) (serial : Nat)
    (left : (release s caller cell).held.lookup other = some (key, serial)) :
    (release s caller cell).current.lookup key = some serial ∨
      (s.cells (key, serial)).isInitialized = true := by
  obtain ⟨_, old⟩ := lookup_erase_some s.held caller other _ left
  rcases tracked.settled other key serial old with inMap | answered
  · simp only [release]
    cases gone : drops s cell with
    | false => exact .inl inMap
    | true =>
      rw [if_pos rfl]
      by_cases same : key = cell.1
      · simp only [drops, Bool.and_eq_true, Bool.or_eq_true, decide_eq_true_eq] at gone
        obtain ⟨current, reason⟩ := gone
        have whole : cell = (key, serial) := by
          rw [same, current] at inMap
          exact Prod.ext same.symm (Option.some.inj inMap)
        rcases reason with answered | last
        · rw [← whole]
          exact .inr answered
        · -- the map's reference and the caller's leave no room for `other`'s
          have one : holders s cell ≤ 1 := by
            rw [strongCount, if_pos current] at last
            omega
          have another : 0 < holders (release s caller cell) cell :=
            (holders_pos_iff _ cell).mpr ⟨other, by rw [left, whole]⟩
          have count := holders_release s caller cell holds
          omega
      · left
        rw [AList.lookup_erase_ne same]
        exact inMap
  · exact .inr answered

theorem release_needed (cell : K × Nat) (tracked : Tracked s) (holds : s.held.lookup caller = some cell)
    (key : K) (serial : Nat) (inMap : (release s caller cell).current.lookup key = some serial) :
    ∃ other, (release s caller cell).held.lookup other = some (key, serial) := by
  obtain ⟨old, stays⟩ := current_release s caller cell key serial inMap
  by_cases same : (key, serial) = cell
  · -- the entry stayed, so the count was above two
    rw [same]
    apply (holders_pos_iff _ cell).mp
    have current : s.current.lookup cell.1 = some cell.2 := by
      rw [← same]
      exact old
    have more := stays same
    simp only [drops, current, decide_true, Bool.true_and, Bool.or_eq_false_iff,
      decide_eq_false_iff_not] at more
    have count := holders_release s caller cell holds
    have above := more.2
    rw [strongCount, if_pos current] at above
    omega
  · obtain ⟨other, held⟩ := tracked.needed key serial old
    have different : other ≠ caller := by
      intro equal
      rw [equal, holds] at held
      exact same (Option.some.inj held).symm
    refine ⟨other, ?_⟩
    simp only [release]
    rw [AList.lookup_erase_ne different]
    exact held

theorem release_tracked (cell : K × Nat) (tracked : Tracked s) (holds : s.held.lookup caller = some cell)
    (stopped : s.cells cell ≠ .running caller) : Tracked (release s caller cell) := by
  constructor
  · intro other key serial left
    exact tracked.fresh other key serial (lookup_erase_some s.held caller other _ left).2
  · intro other runner runs
    have held := tracked.runner other runner runs
    have different : runner ≠ caller := by
      intro equal
      rw [equal, holds] at held
      rw [← Option.some.inj held, equal] at runs
      exact stopped runs
    simp only [release]
    rw [AList.lookup_erase_ne different]
    exact held
  · exact release_settled s caller cell tracked holds
  · exact release_needed s caller cell tracked holds

/-! ## What one step can do -/

/-- A caller comes to hold a cell only by arriving with a token of its fingerprint. -/
theorem flightStep_held (event : FlightEvent A) (cell : K × Nat)
    (holds : (flightStep digest s event).held.lookup caller = some cell) :
    s.held.lookup caller = some cell ∨
      ∃ token, event = .arrive caller token ∧ cell.1 = fingerprint digest token := by
  cases event with
  | arrive other token =>
    simp only [flightStep] at holds
    split at holds
    · exact .inl holds
    · unfold join at holds
      split at holds
      all_goals
        rcases lookup_insert_some _ _ _ _ _ holds with ⟨rfl, rfl⟩ | ⟨_, old⟩
        · exact .inr ⟨token, rfl, rfl⟩
        · exact .inl old
  | start other =>
    simp only [flightStep] at holds
    split at holds
    · split at holds
      all_goals exact .inl holds
    · exact .inl holds
  | complete other answer => exact .inl (by rwa [flightStep, endReview_held] at holds)
  | abandon other => exact .inl (by rwa [flightStep, endReview_held] at holds)
  | leave other =>
    simp only [flightStep] at holds
    split at holds
    · split at holds
      · split at holds
        · exact .inl holds
        · exact .inl (lookup_erase_some s.held other caller _ holds).2
      · exact .inl (lookup_erase_some s.held other caller _ holds).2
    · exact .inl holds

/-- A cell gets its answer only from a holder that completes its review. -/
theorem flightStep_answer (event : FlightEvent A) (cell : K × Nat) (answer : A)
    (answered : (flightStep digest s event).cells cell = .initialized answer) :
    s.cells cell = .initialized answer ∨
      ∃ caller, event = .complete caller answer ∧ s.held.lookup caller = some cell := by
  cases event with
  | arrive other token =>
    simp only [flightStep] at answered
    split at answered
    · exact .inl answered
    · unfold join at answered
      split at answered
      · exact .inl answered
      · exact .inl ((update_initialized s _ _ cell answer answered).resolve_right (by simp))
  | start other =>
    simp only [flightStep] at answered
    split at answered
    · split at answered
      · exact .inl ((update_initialized s _ _ cell answer answered).resolve_right (by simp))
      · exact .inl answered
    · exact .inl answered
  | complete other given =>
    refine (endReview_answer s other _ cell answer answered).imp_right ?_
    rintro ⟨same, holds⟩
    exact ⟨other, by rw [CellState.initialized.inj same], holds⟩
  | abandon other =>
    refine .inl ((endReview_answer s other _ cell answer answered).resolve_right ?_)
    simp
  | leave other =>
    simp only [flightStep] at answered
    split at answered
    · split at answered
      · split at answered
        all_goals exact .inl answered
      · exact .inl answered
    · exact .inl answered

/-! ## Every interleaving -/

theorem flightStep_tracked (event : FlightEvent A) (tracked : Tracked s) :
    Tracked (flightStep digest s event) := by
  cases event with
  | arrive caller token =>
    simp only [flightStep]
    cases holds : s.held.lookup caller with
    | some _ => exact tracked
    | none => exact join_tracked s caller _ tracked holds
  | start caller =>
    simp only [flightStep]
    split
    · rename_i cell holds
      split
      · rename_i empty
        apply setCell_tracked s caller cell _ tracked holds
        · rw [empty]
          rfl
        · intro runner runs
          exact (CellState.running.inj runs).symm
      · exact tracked
    · exact tracked
  | complete caller answer => exact endReview_tracked s caller _ tracked (by simp)
  | abandon caller => exact endReview_tracked s caller _ tracked (by simp)
  | leave caller =>
    simp only [flightStep]
    split
    · rename_i cell holds
      split
      · rename_i runner runs
        split
        · exact tracked
        · rename_i another
          apply release_tracked s caller cell tracked holds
          intro own
          rw [runs] at own
          exact another (CellState.running.inj own)
      · rename_i stopped
        exact release_tracked s caller cell tracked holds (stopped caller)
    · exact tracked

/-- Single flight neither duplicates a review nor leaks an entry, however callers arrive,
are dropped and complete. -/
theorem singleFlight_oneReview (events : List (FlightEvent A)) :
    OneReview (after (flightStep digest) (idle : InFlight K A) events) := by
  apply tracked_oneReview
  apply after_of_invariant (flightStep digest) Tracked fun _ _ => True
  · intro s event tracked _
    exact flightStep_tracked digest s event tracked
  · exact tracked_idle
  · exact along_of_forall (flightStep digest) (fun _ => True) events (fun _ _ => trivial) idle

end System

end WeeboSi.Gateway.SingleFlight
