import WeeboSi.EndpointAuth.Identity
import WeeboSi.Lib.MergePatch
import WeeboSi.Lib.Run

/-!
# The shared revocation set

Source: bins/endpoint-gateway/src/adapters/kube_revocations.rs:34-103, 188-205 and 300-327.
The `ConfigMap` maps a session to the second its revocation ends at, written in decimal.
A replica plans a patch from the view its watch holds, which may be any earlier state of
the map, and the apiserver merges the patch atomically later on.
-/
namespace WeeboSi.Gateway
open WeeboSi.Lib WeeboSi.EndpointAuth

abbrev Revoked := AList fun _ : SessionId => Timestamp
abbrev RevocationPatch := AList fun _ : SessionId => Option Timestamp

def maxRevocations : Nat := 10000

inductive RevokeError where
  | full
  deriving DecidableEq, Repr

/-- Null for every entry that is expired at `now`. -/
def pruned (current : Revoked) (now : Timestamp) : RevocationPatch :=
  current.entries.foldl
    (fun data entry => if now.isAtOrAfter entry.2 then data.insert entry.1 none else data) ∅

/-- How many other sessions are still revoked at `now`. -/
def liveOthers (current : Revoked) (session : SessionId) (now : Timestamp) : Nat :=
  (current.entries.filter fun entry => !now.isAtOrAfter entry.2 && entry.1 != session).length

def planRevocation (current : Revoked) (session : SessionId) (until_ now : Timestamp) (cap : Nat) :
    Except RevokeError RevocationPatch :=
  if liveOthers current session now ≥ cap then .error .full
  else .ok ((pruned current now).insert session (some until_))

/-- The patch of `sweep`; with nothing expired nothing is written. -/
def planSweep (current : Revoked) (now : Timestamp) : Option RevocationPatch :=
  if current.entries.any fun entry => now.isAtOrAfter entry.2 then some (pruned current now) else none

/-- The view holds an entry of the session that is expired at `now`. -/
def ExpiredIn (view : Revoked) (now : Timestamp) (session : SessionId) : Prop :=
  ∃ expiry, view.lookup session = some expiry ∧ expiry.secs ≤ now.secs

theorem lookup_pruned (current : Revoked) (now : Timestamp) (session : SessionId) :
    (ExpiredIn current now session → (pruned current now).lookup session = some none) ∧
      (¬ ExpiredIn current now session → (pruned current now).lookup session = none) := by
  have loop : ∀ (entries : List (Sigma fun _ : SessionId => Timestamp)) (data : RevocationPatch),
      entries.NodupKeys →
      ((∃ expiry, entries.dlookup session = some expiry ∧ expiry.secs ≤ now.secs) →
        (entries.foldl (fun data entry =>
          if now.isAtOrAfter entry.2 then data.insert entry.1 none else data) data).lookup session =
            some none) ∧
      ((¬ ∃ expiry, entries.dlookup session = some expiry ∧ expiry.secs ≤ now.secs) →
        (entries.foldl (fun data entry =>
          if now.isAtOrAfter entry.2 then data.insert entry.1 none else data) data).lookup session =
            data.lookup session) := by
    intro entries
    induction entries with
    | nil => simp
    | cons entry rest ih =>
      intro data distinct
      obtain ⟨absent, distinct⟩ := List.nodupKeys_cons.mp distinct
      rw [List.foldl_cons]
      by_cases same : session = entry.1
      · subst same
        have later : ¬ ∃ expiry, rest.dlookup entry.1 = some expiry ∧ expiry.secs ≤ now.secs := by
          simp [List.dlookup_eq_none.mpr absent]
        rw [List.dlookup_cons_eq, (ih _ distinct).2 later]
        by_cases expired : entry.2.secs ≤ now.secs
        · simp [expired, (Timestamp.isAtOrAfter_eq_true now entry.2).mpr expired]
        · simp [expired, (Timestamp.isAtOrAfter_eq_false now entry.2).mpr (by omega)]
      · have untouched : (if now.isAtOrAfter entry.2 then data.insert entry.1 none else data).lookup session =
            data.lookup session := by
          split
          · exact AList.lookup_insert_ne same
          · rfl
        rw [List.dlookup_cons_ne _ _ same, ← untouched]
        exact ih _ distinct
  have whole := loop current.entries ∅ current.nodupKeys
  exact ⟨whole.1, fun fresh => (whole.2 fresh).trans (AList.lookup_empty session)⟩

/-! ## The replicas and the map -/

inductive Operation where
  | revoke (session : SessionId) (until_ : Timestamp)
  | sweep
  deriving DecidableEq

/-- One write of one replica: planned from `view` at one moment, merged at a later one. -/
structure Write where
  operation : Operation
  view : Revoked
  plannedAt : Timestamp
  appliedAt : Timestamp

inductive RevocationEvent where
  | write (write : Write)
  | tick (now : Timestamp)

def Write.patch (write : Write) : Option RevocationPatch :=
  match write.operation with
  | .revoke session until_ =>
    (planRevocation write.view session until_ write.plannedAt maxRevocations).toOption
  | .sweep => planSweep write.view write.plannedAt

/-- The map, every state it was ever in, the time, and the revocations written so far. -/
structure Cluster where
  data : Revoked
  history : List Revoked
  clock : Timestamp
  written : List (SessionId × Timestamp)

def Cluster.start (now : Timestamp) : Cluster := ⟨∅, [∅], now, []⟩

def Cluster.merge (s : Cluster) (operation : Operation) (patch : RevocationPatch) (now : Timestamp) :
    Cluster where
  data := mergePatch s.data patch
  history := mergePatch s.data patch :: s.history
  clock := now
  written := match operation with
    | .revoke session until_ => (session, until_) :: s.written
    | .sweep => s.written

def revocationStep (s : Cluster) : RevocationEvent → Cluster
  | .tick now => { s with clock := now }
  | .write write =>
    match write.patch with
    | some patch => s.merge write.operation patch write.appliedAt
    | none => { s with clock := write.appliedAt }

/-- A view is some state the map was in, and time moves forward. -/
def Possible (s : Cluster) : RevocationEvent → Prop
  | .tick now => s.clock.secs ≤ now.secs
  | .write write =>
    write.view ∈ s.history ∧ write.plannedAt.secs ≤ write.appliedAt.secs ∧
      s.clock.secs ≤ write.appliedAt.secs

/-- Every revocation written and not over yet is in the map, for as long as it was asked. -/
def Kept (s : Cluster) : Prop :=
  ∀ session until_, (session, until_) ∈ s.written → s.clock.secs < until_.secs →
    ∃ expiry, s.data.lookup session = some expiry ∧ until_.secs ≤ expiry.secs

/-- The write finds the map as its view showed it: an entry that it replaces ends no later
than the new one, and an entry that it nulls and that was written since is over. -/
def Fresh (s : Cluster) : RevocationEvent → Prop
  | .tick _ => True
  | .write write =>
    write.patch.isSome → ∀ session expiry, s.data.lookup session = some expiry →
      (∀ until_, write.operation = .revoke session until_ →
        expiry.secs ≤ until_.secs ∨ expiry.secs ≤ write.appliedAt.secs) ∧
      ((∀ until_, write.operation ≠ .revoke session until_) →
        ExpiredIn write.view write.plannedAt session →
        s.data.lookup session ≠ write.view.lookup session → expiry.secs ≤ write.appliedAt.secs)

/-- What a patch says of a session. -/
theorem Write.patch_lookup (write : Write) (patch : RevocationPatch) (h : write.patch = some patch)
    (session : SessionId) :
    (∃ until_, write.operation = .revoke session until_ ∧ patch.lookup session = some (some until_)) ∨
      ((∀ until_, write.operation ≠ .revoke session until_) ∧
        ((ExpiredIn write.view write.plannedAt session ∧ patch.lookup session = some none) ∨
          (¬ ExpiredIn write.view write.plannedAt session ∧ patch.lookup session = none))) := by
  have prunes := lookup_pruned write.view write.plannedAt session
  unfold Write.patch at h
  cases operation : write.operation with
  | sweep =>
    rw [operation] at h
    simp only [planSweep, Option.ite_none_right_eq_some, Option.some.injEq] at h
    refine Or.inr ⟨by simp, ?_⟩
    rw [← h.2]
    by_cases expired : ExpiredIn write.view write.plannedAt session
    · exact Or.inl ⟨expired, prunes.1 expired⟩
    · exact Or.inr ⟨expired, prunes.2 expired⟩
  | revoke revoked until_ =>
    rw [operation] at h
    have planned : patch = (pruned write.view write.plannedAt).insert revoked (some until_) := by
      simp only [planRevocation] at h
      split at h
      · cases h
      · exact (Option.some.inj h).symm
    subst planned
    by_cases same : session = revoked
    · subst same
      exact Or.inl ⟨until_, rfl, AList.lookup_insert _⟩
    · refine Or.inr ⟨fun _ equal => same (Operation.revoke.inj equal).1.symm, ?_⟩
      rw [AList.lookup_insert_ne same]
      by_cases expired : ExpiredIn write.view write.plannedAt session
      · exact Or.inl ⟨expired, prunes.1 expired⟩
      · exact Or.inr ⟨expired, prunes.2 expired⟩

/-! ## What a write does to the map -/

theorem merge_written (s : Cluster) (operation : Operation) (patch : RevocationPatch) (now : Timestamp)
    (session : SessionId) (until_ : Timestamp) :
    (session, until_) ∈ (s.merge operation patch now).written ↔
      operation = .revoke session until_ ∨ (session, until_) ∈ s.written := by
  cases operation with
  | sweep => simp [Cluster.merge]
  | revoke revoked expiry => simp [Cluster.merge, eq_comm]

/-- A fresh write keeps every revocation that is not over. -/
theorem merge_kept (s : Cluster) (write : Write) (patch : RevocationPatch) (h : write.patch = some patch)
    (kept : Kept s) (possible : Possible s (.write write)) (fresh : Fresh s (.write write)) :
    Kept (s.merge write.operation patch write.appliedAt) := by
  obtain ⟨-, planned, later⟩ := possible
  intro session until_ written open_
  have merged : (s.merge write.operation patch write.appliedAt).data.lookup session =
      (patch.lookup session).getD (s.data.lookup session) := lookup_mergePatch _ _ _
  rw [merged]
  have running : write.appliedAt.secs < until_.secs := open_
  have before : (session, until_) ∈ s.written →
      ∃ expiry, s.data.lookup session = some expiry ∧ until_.secs ≤ expiry.secs :=
    fun old => kept session until_ old (by omega)
  rcases write.patch_lookup patch h session with ⟨expiry, revokes, sets⟩ | ⟨spares, untouched⟩
  · rw [sets]
    refine ⟨expiry, rfl, ?_⟩
    rcases (merge_written _ _ _ _ _ _).mp written with new | old
    · rw [revokes] at new
      rw [(Operation.revoke.inj new).2]
    · obtain ⟨current, stored, long⟩ := before old
      have := (fresh (by rw [h]; rfl) session current stored).1 expiry revokes
      omega
  · have old := ((merge_written _ _ _ _ _ _).mp written).resolve_left (spares until_)
    obtain ⟨current, stored, long⟩ := before old
    rcases untouched with ⟨expired, nulls⟩ | ⟨-, leaves⟩
    · -- the nulled entry would be over, whether or not the view showed it
      by_cases seen : s.data.lookup session = write.view.lookup session
      · obtain ⟨shown, inView, ended⟩ := expired
        rw [← seen, stored] at inView
        cases inView
        omega
      · have := (fresh (by rw [h]; rfl) session current stored).2 spares expired seen
        omega
    · rw [leaves]
      exact ⟨current, stored, long⟩

theorem revocationStep_kept (s : Cluster) (event : RevocationEvent) (kept : Kept s)
    (possible : Possible s event) (fresh : Fresh s event) : Kept (revocationStep s event) := by
  cases event with
  | tick now =>
    intro session until_ written open_
    exact kept session until_ written (Nat.lt_of_le_of_lt possible open_)
  | write write =>
    unfold revocationStep
    dsimp only
    cases h : write.patch with
    | none =>
      intro session until_ written open_
      exact kept session until_ written (Nat.lt_of_le_of_lt possible.2.2 open_)
    | some patch => exact merge_kept s write patch h kept possible fresh

/-- Whatever the map holds was written as a revocation. -/
def Sourced (s : Cluster) : Prop :=
  ∀ session expiry, s.data.lookup session = some expiry → (session, expiry) ∈ s.written

theorem revocationStep_sourced (s : Cluster) (event : RevocationEvent) (sourced : Sourced s) :
    Sourced (revocationStep s event) := by
  cases event with
  | tick now => exact sourced
  | write write =>
    unfold revocationStep
    dsimp only
    cases h : write.patch with
    | none => exact sourced
    | some patch =>
      intro session expiry stored
      have merged : (s.merge write.operation patch write.appliedAt).data.lookup session =
          (patch.lookup session).getD (s.data.lookup session) := lookup_mergePatch _ _ _
      rw [merged] at stored
      rw [merge_written]
      rcases write.patch_lookup patch h session with
        ⟨until_, revokes, sets⟩ | ⟨-, ⟨-, nulls⟩ | ⟨-, leaves⟩⟩
      · rw [sets] at stored
        cases stored
        exact Or.inl revokes
      · rw [nulls] at stored
        cases stored
      · rw [leaves] at stored
        exact Or.inr (sourced session expiry stored)

/-- A write that is not fresh loses a revocation at once. -/
theorem fresh_of_kept (s : Cluster) (event : RevocationEvent) (sourced : Sourced s)
    (kept : Kept (revocationStep s event)) : Fresh s event := by
  cases event with
  | tick now => trivial
  | write write =>
    intro writes session expiry stored
    obtain ⟨patch, h⟩ := Option.isSome_iff_exists.mp writes
    have stepped : revocationStep s (.write write) = s.merge write.operation patch write.appliedAt := by
      simp [revocationStep, h]
    rw [stepped] at kept
    have merged : (s.merge write.operation patch write.appliedAt).data.lookup session =
        (patch.lookup session).getD (s.data.lookup session) := lookup_mergePatch _ _ _
    have held : write.appliedAt.secs < expiry.secs →
        ∃ current, (patch.lookup session).getD (s.data.lookup session) = some current ∧
          expiry.secs ≤ current.secs := by
      intro running
      rw [← merged]
      exact kept session expiry ((merge_written _ _ _ _ _ _).mpr (Or.inr (sourced _ _ stored))) running
    constructor
    · intro until_ revokes
      by_contra shorter
      rw [not_or] at shorter
      obtain ⟨current, found, long⟩ := held (by omega)
      rcases write.patch_lookup patch h session with ⟨other, again, sets⟩ | ⟨spares, -⟩
      · rw [sets] at found
        obtain rfl := Option.some.inj found
        rw [revokes] at again
        rw [← (Operation.revoke.inj again).2] at long
        omega
      · exact spares until_ revokes
    · intro spares expired _
      by_contra running
      obtain ⟨current, found, -⟩ := held (by omega)
      rcases write.patch_lookup patch h session with ⟨until_, revokes, -⟩ | ⟨-, ⟨-, nulls⟩ | ⟨unexpired, -⟩⟩
      · exact spares until_ revokes
      · rw [nulls] at found
        cases found
      · exact unexpired expired

/-- In every run, revocations survive every write exactly when every write is fresh. -/
theorem revocations_kept_iff (now : Timestamp) (events : List RevocationEvent)
    (run : Along revocationStep Possible (.start now) events) :
    Along revocationStep (fun s event => Kept (revocationStep s event)) (.start now) events ↔
      Along revocationStep Fresh (.start now) events := by
  constructor
  · intro kept
    refine along_of_invariant revocationStep Sourced (fun s event => Kept (revocationStep s event)) Fresh
      ?_ ?_ _ ?_ events kept
    · exact fun s event sourced _ => revocationStep_sourced s event sourced
    · exact fun s event sourced kept => fresh_of_kept s event sourced kept
    · intro session expiry stored
      simp [Cluster.start] at stored
  · intro fresh
    refine along_of_invariant revocationStep Kept (fun s event => Possible s event ∧ Fresh s event) _
      ?_ ?_ _ ?_ events ((along_and _ _ _ _ _).mpr ⟨run, fresh⟩)
    · exact fun s event kept step => revocationStep_kept s event kept step.1 step.2
    · exact fun s event kept step => revocationStep_kept s event kept step.1 step.2
    · intro session until_ written _
      simp [Cluster.start] at written

def sessionS : SessionId := "s".toList

def revokedUntil10 : Revoked := AList.singleton sessionS ⟨10, by decide⟩

/-- A first replica revokes the session until 10, from a view of the empty map. -/
def firstRevocation : RevocationEvent :=
  .write ⟨.revoke sessionS ⟨10, by decide⟩, ∅, ⟨0, by decide⟩, ⟨0, by decide⟩⟩

/-- A sweep planned at 12 from the map that revocation left, and merged at 13. -/
def laterSweep : RevocationEvent :=
  .write ⟨.sweep, revokedUntil10, ⟨12, by decide⟩, ⟨13, by decide⟩⟩

/-- A second replica revokes the session again, until 100, from the same map. -/
def secondRevocation : RevocationEvent :=
  .write ⟨.revoke sessionS ⟨100, by decide⟩, revokedUntil10, ⟨12, by decide⟩, ⟨12, by decide⟩⟩

theorem firstRevocation_data :
    (revocationStep (.start ⟨0, by decide⟩) firstRevocation).data = revokedUntil10 :=
  AList.ext (by decide +kernel)

theorem firstRevocation_possible : Possible (.start ⟨0, by decide⟩) firstRevocation :=
  ⟨by simp [Cluster.start], by decide, by decide⟩

theorem firstRevocation_seen :
    revokedUntil10 ∈ (revocationStep (.start ⟨0, by decide⟩) firstRevocation).history :=
  List.mem_cons.mpr (Or.inl firstRevocation_data.symm)

theorem revocations_kept_iff_swept :
    Along revocationStep (fun s event => Kept (revocationStep s event)) (.start ⟨0, by decide⟩)
      [firstRevocation, laterSweep] := by
  have possible : Along revocationStep Possible (.start ⟨0, by decide⟩) [firstRevocation, laterSweep] :=
    ⟨firstRevocation_possible, ⟨firstRevocation_seen, by decide, by decide⟩, trivial⟩
  refine (revocations_kept_iff _ _ possible).mpr ⟨?_, ?_, trivial⟩
  · intro _ session expiry stored
    cases stored
  · intro _ session expiry stored
    refine ⟨fun until_ revokes => (by cases revokes), fun _ _ changed => absurd ?_ changed⟩
    rw [firstRevocation_data]

/-- The sweep nulls the session that was revoked again after its view was taken. -/
theorem stale_sweep_loses_revocation :
    ¬ ∀ (now : Timestamp) (events : List RevocationEvent),
      Along revocationStep Possible (.start now) events →
      Along revocationStep (fun s event => Kept (revocationStep s event)) (.start now) events := by
  intro kept
  have possible : Along revocationStep Possible (.start ⟨0, by decide⟩)
      [firstRevocation, secondRevocation, laterSweep] :=
    ⟨firstRevocation_possible, ⟨firstRevocation_seen, by decide, by decide⟩,
      ⟨List.mem_cons_of_mem _ firstRevocation_seen, by decide, by decide +kernel⟩, trivial⟩
  obtain ⟨expiry, held, -⟩ := (kept _ _ possible).2.2.1 sessionS ⟨100, by decide⟩ (by decide +kernel)
    (by decide +kernel)
  have lost : (after revocationStep (.start ⟨0, by decide⟩)
      [firstRevocation, secondRevocation, laterSweep]).data.lookup sessionS = none := by decide +kernel
  exact absurd (lost.symm.trans held) (by simp)

end WeeboSi.Gateway
