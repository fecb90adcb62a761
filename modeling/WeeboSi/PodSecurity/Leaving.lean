import WeeboSi.Lib.Run
import WeeboSi.PodSecurity.Store

/-!
# Leaving

The restore is two writes, and the record it reads goes with the first of them. A namespace is
put back as it was exactly when no release goes through without its merge patch, or nothing
that was there depends on it.
-/
namespace WeeboSi.PodSecurity
open WeeboSi.Lib

/-- The feature has not written to the namespace: no record, and no field in its name. -/
structure Untouched (ns : Namespace) : Prop where
  previous : ns.value previousField = none
  owners : ∀ field, ours ∉ ns.owners field

/-- The namespace is as it was before the first write. -/
structure Restored (before ns : Namespace) : Prop where
  keys : fromNamespace ns = fromNamespace before
  previous : ns.value previousField = none
  rest : ∀ field, ¬Guarded field → ns.value field = before.value field

section Runs
variable (json : JsonText)

def reconcileStep (state : Namespace × Bool) (pass : Pass) : Namespace × Bool :=
  let (ns, wrote) := reconcile json pass state.1
  (ns, state.2 || wrote)

/-- The namespace after the passes, and whether one of them wrote. -/
def reconcileAll (passes : List Pass) (ns : Namespace) : Namespace × Bool :=
  after (reconcileStep json) (ns, false) passes

/-- Attempts until one returns `Ok`, each from the namespace as it then is: what is left, and
the writes sent. -/
def leave : List Answers → Namespace → Option (Namespace × Nat)
  | [], _ => none
  | answers :: rest, ns =>
    let attempt := teardown json answers ns
    if attempt.ok then some (attempt.ns, attempt.sent)
    else (leave rest attempt.ns).map fun result => (result.1, attempt.sent + result.2)

end Runs

/-! ## A namespace the feature writes to -/

/-- What holds before and after the first write: another owner of a key has the value that was
there, and the fields that are not the feature's stay. -/
structure Kept (before ns : Namespace) : Prop where
  shared : ∀ (key : Key) (owner : Owner), owner ∈ ns.owners key.field → owner ≠ ours →
    ns.value key.field = before.value key.field
  values : ∀ field, ¬Guarded field → ns.value field = before.value field
  owners : ∀ field, ¬Guarded field → ours ∉ ns.owners field

/-- What the passes keep of a namespace they have written to. -/
structure Written (json : JsonText) (before ns : Namespace) : Prop extends Kept before ns where
  previous : ns.value previousField = some (toPrevious json (fromNamespace before))
  recordOwner : ours ∈ ns.owners previousField
  recordAlone : ∀ owner ∈ ns.owners previousField, owner = ours
  owned : ∀ key : Key, ours ∈ ns.owners key.field

theorem Untouched.kept {ns : Namespace} (fresh : Untouched ns) : Kept ns ns where
  shared _ _ _ _ := rfl
  values _ _ := rfl
  owners field _ := fresh.owners field

section Passes
variable (json : JsonText) {before ns : Namespace}

theorem desired_full (level warnLevel : PodSecurityLevel) (version : PodSecurityVersion) (key : Key) :
    (PodSecurityLabels.desired level warnLevel version key).isSome = true := by
  cases key <;> rfl

/-- A write sends the record, whether or not it is there already. -/
theorem written_applied (kept : Kept before ns)
    (record : ns.value previousField = none ∨ ∀ owner ∈ ns.owners previousField, owner = ours)
    (level warnLevel : PodSecurityLevel) (version : PodSecurityVersion) :
    Written json before
      (applied ns (.desired level warnLevel version) (toPrevious json (fromNamespace before))) where
  shared key owner member other := by
    obtain ⟨value, given⟩ := Option.isSome_iff_exists.mp (desired_full level warnLevel version key)
    have body := (applyBody_field _ (toPrevious json (fromNamespace before)) key).trans given
    obtain ⟨owned, same⟩ := ns.other_apply_of_some ours _ key.field body member other
    rw [applied, ns.value_apply_of_some ours _ key.field body, ← same, kept.shared key owner owned other]
  values field outside := by
    rw [applied, ns.value_apply_of_not_owner ours _ field (applyBody_other _ _ field outside)
      (kept.owners field outside), kept.values field outside]
  owners field outside := ns.owner_apply_of_none ours _ field (applyBody_other _ _ field outside)
  previous := ns.value_apply_of_some ours _ previousField (applyBody_previous _ _)
  recordOwner := ns.owner_apply_of_some ours _ previousField (applyBody_previous _ _)
  recordAlone owner member := by
    by_contra other
    obtain ⟨owned, same⟩ := ns.other_apply_of_some ours _ previousField (applyBody_previous _ _) member other
    obtain absent | alone := record
    · rw [absent] at same
      cases same
    · exact other (alone owner owned)
  owned key := by
    obtain ⟨value, given⟩ := Option.isSome_iff_exists.mp (desired_full level warnLevel version key)
    exact ns.owner_apply_of_some ours _ key.field ((applyBody_field _ _ key).trans given)

/-- What a plan applies: the desired labels, with the record of the namespace. -/
theorem plan_apply (resolution : Resolution) (version : PodSecurityVersion) (backend : EffectiveBackend)
    (found : Found) (labels : PodSecurityLabels) (previous : Text) (current : PodSecurityLabels)
    (planned : (plan json resolution version backend found).plan = .apply labels previous current) :
    labels = .desired resolution.level resolution.warnLevel version ∧ previous = (recordFor json found).1 := by
  unfold plan at planned
  simp only at planned
  split at planned
  · cases planned
  · split at planned
    · cases planned
    · split at planned
      · cases planned
      · cases planned
        exact ⟨rfl, rfl⟩

/-- What a pass can do: nothing, or write its levels with the record of the namespace. -/
theorem reconcile_cases (pass : Pass) (ns : Namespace) :
    reconcile json pass ns = (ns, false) ∨
      ∃ level warnLevel version, reconcile json pass ns =
        (applied ns (.desired level warnLevel version) (recordFor json (found ns)).1, true) := by
  unfold reconcile
  split
  · next labels previous current planned =>
    obtain ⟨rfl, rfl⟩ := plan_apply json _ _ _ _ _ _ _ planned
    split
    · exact .inr ⟨_, _, _, rfl⟩
    · exact .inl rfl
  all_goals exact .inl rfl

theorem record_untouched (fresh : Untouched ns) :
    (recordFor json (found ns)).1 = toPrevious json (fromNamespace ns) := by
  have absent : (found ns).previous = none := fresh.previous
  have unowned : (found ns).owned = false := by simp [found, fresh.owners]
  simp only [recordFor, absent, unowned]
  rfl

theorem record_written (written : Written json before ns) :
    (recordFor json (found ns)).1 = toPrevious json (fromNamespace before) := by
  have present : (found ns).previous = some (toPrevious json (fromNamespace before)) := written.previous
  simp only [recordFor, present]

theorem reconcile_untouched (fresh : Untouched ns) (pass : Pass) :
    reconcile json pass ns = (ns, false) ∨
      ((reconcile json pass ns).2 = true ∧ Written json ns (reconcile json pass ns).1) := by
  obtain same | ⟨level, warnLevel, version, same⟩ := reconcile_cases json pass ns
  · exact .inl same
  · right
    rw [same, record_untouched json fresh]
    exact ⟨rfl, written_applied json fresh.kept (.inl fresh.previous) level warnLevel version⟩

theorem reconcile_written (written : Written json before ns) (pass : Pass) :
    Written json before (reconcile json pass ns).1 := by
  obtain same | ⟨level, warnLevel, version, same⟩ := reconcile_cases json pass ns
  · rw [same]
    exact written
  · rw [same, record_written json written]
    exact written_applied json written.toKept (.inr written.recordAlone) level warnLevel version

/-- The passes leave the namespace alone, or have written to it. -/
theorem reconcileAll_cases (fresh : Untouched ns) (passes : List Pass) :
    reconcileAll json passes ns = (ns, false) ∨
      ((reconcileAll json passes ns).2 = true ∧ Written json ns (reconcileAll json passes ns).1) := by
  refine after_of_invariant (reconcileStep json)
    (fun state => state = (ns, false) ∨ (state.2 = true ∧ Written json ns state.1)) (fun _ _ => True) ?_
    (ns, false) (.inl rfl) passes (along_of_forall _ (fun _ => True) passes (fun _ _ => trivial) _)
  intro state pass inv _
  obtain rfl | ⟨wrote, written⟩ := inv
  · obtain same | ⟨wrote, written⟩ := reconcile_untouched json fresh pass
    · exact .inl (by simp [reconcileStep, same])
    · exact .inr ⟨by simp [reconcileStep, wrote], written⟩
  · exact .inr ⟨by simp [reconcileStep, wrote], reconcile_written json written pass⟩

end Passes

/-! ## Leaving -/

/-- Every key that was there is still held by another manager. -/
def SharedKeys (before ns : Namespace) : Prop :=
  ∀ key : Key, (before.value key.field).isSome = true → ∃ owner ∈ ns.owners key.field, owner ≠ ours

section Leaving
variable (json : JsonText) {before ns : Namespace}

theorem restore_untouched (fresh : Untouched ns) : restore json (found ns) = none := by
  have absent : (found ns).previous = none := fresh.previous
  have unowned : (found ns).owned = false := by simp [found, fresh.owners]
  simp [restore, absent, unowned]

theorem leave_untouched (fresh : Untouched ns) (answers : Answers) (rest : List Answers) :
    leave json (answers :: rest) ns = some (ns, 0) := by
  simp [leave, teardown, restore_untouched json fresh]

section FromWritten
variable (written : Written json before ns)
include written

theorem restore_written (reads : json.Reads (fromNamespace before)) :
    restore json (found ns) = some ⟨fromNamespace before, false⟩ := by
  have present : (found ns).previous = some (toPrevious json (fromNamespace before)) := written.previous
  simp [restore, present, fromPrevious_toPrevious json _ reads]

/-- The release gives up every field, the record with them. -/
theorem untouched_released : Untouched (released ns) where
  previous := ns.value_apply_of_alone ours _ previousField rfl written.recordOwner written.recordAlone
  owners field := ns.owner_apply_of_none ours _ field rfl

theorem released_other (field : Field) (outside : ¬Guarded field) :
    (released ns).value field = before.value field := by
  rw [released, ns.value_apply_of_not_owner ours _ field rfl (written.owners field outside),
    written.values field outside]

theorem released_field (key : Key) :
    (released ns).value key.field =
      if ∀ owner ∈ ns.owners key.field, owner = ours then none else before.value key.field := by
  split
  · next alone => exact ns.value_apply_of_alone ours _ key.field rfl (written.owned key) alone
  · next shared =>
    push Not at shared
    obtain ⟨owner, member, other⟩ := shared
    rw [released, ns.value_apply_of_other ours _ key.field rfl member other,
      written.shared key owner member other]

theorem restored_putBack : Restored before (putBack (released ns) ⟨fromNamespace before, false⟩) where
  keys := by
    funext key
    simp [fromNamespace, putBack, ManagedObject.mergePatch]
  previous := by simp [putBack, ManagedObject.mergePatch]
  rest field outside := by
    simp [putBack, ManagedObject.mergePatch, restoreBody_other _ field outside,
      released_other json written field outside]

theorem restored_released_iff : Restored before (released ns) ↔ SharedKeys before ns := by
  constructor
  · intro restored key present
    by_contra alone
    push Not at alone
    have gone : (released ns).value key.field = none := by rw [released_field json written, if_pos alone]
    have same : (released ns).value key.field = before.value key.field := congrFun restored.keys key
    rw [← same, gone] at present
    cases present
  · intro shared
    refine ⟨?_, (untouched_released json written).previous, released_other json written⟩
    funext key
    change (released ns).value key.field = before.value key.field
    rw [released_field json written]
    split
    · next alone =>
      by_contra lost
      obtain ⟨owner, member, other⟩ := shared key (Option.isSome_iff_ne_none.mpr (Ne.symm lost))
      exact other (alone owner member)
    · rfl

/-- The first release that goes through decides what is left. -/
theorem leave_written (reads : json.Reads (fromNamespace before)) (attempts : List Answers)
    (final : Namespace) (sent : Nat) (left : leave json attempts ns = some (final, sent)) :
    ∃ answers, attempts.find? Answers.release = some answers ∧
      final = if answers.merge then putBack (released ns) ⟨fromNamespace before, false⟩ else released ns := by
  induction attempts generalizing sent with
  | nil => cases left
  | cons answers rest ih =>
    unfold leave at left
    cases release : answers.release with
    | false =>
      simp only [teardown, restore_written json written reads, release, Bool.not_false, if_true,
        Bool.false_eq_true, if_false, Option.map_eq_some_iff] at left
      obtain ⟨⟨last, more⟩, left, same⟩ := left
      cases same
      rw [List.find?_cons_of_neg (by simp [release])]
      exact ih more left
    | true =>
      refine ⟨answers, List.find?_cons_of_pos release, ?_⟩
      cases merge : answers.merge with
      | true =>
        simp only [teardown, restore_written json written reads, release, merge, Bool.not_true,
          Bool.false_eq_true, if_false, if_true, Option.some.injEq, Prod.mk.injEq] at left
        simp [left.1]
      | false =>
        simp only [teardown, restore_written json written reads, release, merge, Bool.not_true, Bool.not_false,
          Bool.false_eq_true, if_false, if_true, Option.map_eq_some_iff] at left
        obtain ⟨⟨last, more⟩, left, same⟩ := left
        cases same
        -- the next attempt finds neither the record nor a key of the feature's
        cases rest with
        | nil => cases left
        | cons next rest =>
          rw [leave_untouched json (untouched_released json written)] at left
          cases left
          simp

end FromWritten

/-- Leaving puts the namespace back exactly when nothing was written, or the first release that
goes through is followed by its merge patch, or every key that was there has kept another owner. -/
theorem leaving_restores_iff (fresh : Untouched ns) (reads : json.Reads (fromNamespace ns))
    (passes : List Pass) (attempts : List Answers) (final : Namespace) (sent : Nat)
    (left : leave json attempts (reconcileAll json passes ns).1 = some (final, sent)) :
    (Restored ns final ∧ ((reconcileAll json passes ns).2 = false → sent = 0)) ↔
      (reconcileAll json passes ns).2 = false ∨
        (∀ answers, attempts.find? Answers.release = some answers → answers.merge = true) ∨
        SharedKeys ns (reconcileAll json passes ns).1 := by
  obtain same | ⟨wrote, written⟩ := reconcileAll_cases json fresh passes
  · rw [same] at left ⊢
    refine iff_of_true ?_ (.inl rfl)
    cases attempts with
    | nil => cases left
    | cons answers rest =>
      rw [leave_untouched json fresh] at left
      cases left
      exact ⟨⟨rfl, fresh.previous, fun _ _ => rfl⟩, fun _ => rfl⟩
  · obtain ⟨answers, first, isFinal⟩ := leave_written json written reads attempts final sent left
    simp only [wrote, Bool.true_eq_false, false_implies, and_true, false_or, first, Option.some.injEq,
      forall_eq']
    cases merge : answers.merge with
    | true =>
      rw [isFinal, merge, if_pos rfl]
      exact iff_of_true (restored_putBack json written) (.inl rfl)
    | false =>
      rw [isFinal, merge, if_neg Bool.false_ne_true, restored_released_iff json written]
      simp

end Leaving

/-! ## A namespace that kept its own label -/

/-- A namespace with some labels, each set by hand. -/
def labelled (labels : PodSecurityLabels) : Namespace where
  value := labelOf labels
  owners field :=
    if (labelOf labels field).isSome then [⟨some "kubectl-label".toList, some "Update".toList⟩] else []

theorem untouched_labelled (labels : PodSecurityLabels) : Untouched (labelled labels) where
  previous := rfl
  owners field := by
    unfold labelled
    simp only
    split
    · decide
    · exact List.not_mem_nil

def restrictedPass : Pass where
  config := ⟨⟨.restricted, .baseline, "latest".toList, .labels, []⟩, []⟩
  servesScc := false
  teams := []
  labels := []
  mode := .enforce
  accepted := true

/-- Prints one value and reads it back. -/
def printed (text : Text) (value : Json) : JsonText := ⟨fun _ => text, fun _ => .ok value⟩

def privilegedLabels : PodSecurityLabels
  | .enforce => some PodSecurityLevel.privileged.asStr
  | _ => none

def privilegedJson : JsonText :=
  printed "\x7b\"pod-security.kubernetes.io/enforce\":\"privileged\"\x7d".toList (toObject privilegedLabels)

theorem leaving_restores_iff_retried : ∃ final sent,
    leave privilegedJson [⟨false, true⟩, ⟨true, true⟩]
        (reconcileAll privilegedJson [restrictedPass] (labelled privilegedLabels)).1 = some (final, sent) ∧
      Restored (labelled privilegedLabels) final := by
  have ends : (leave privilegedJson [⟨false, true⟩, ⟨true, true⟩]
      (reconcileAll privilegedJson [restrictedPass] (labelled privilegedLabels)).1).isSome = true := by
    decide +kernel
  obtain ⟨⟨final, sent⟩, left⟩ := Option.isSome_iff_exists.mp ends
  refine ⟨final, sent, left, ?_⟩
  refine ((leaving_restores_iff privilegedJson (untouched_labelled privilegedLabels) ?_ [restrictedPass]
    [⟨false, true⟩, ⟨true, true⟩] final sent left).mpr (.inr (.inl ?_))).1
  · rfl
  · intro answers first
    cases first
    rfl

/-- The release takes the label and the record with it, the merge patch is refused, and the next
attempt finds nothing to do. -/
theorem release_alone_loses_label : ∃ final sent,
    leave privilegedJson [⟨true, false⟩, ⟨true, true⟩]
        (reconcileAll privilegedJson [restrictedPass] (labelled privilegedLabels)).1 = some (final, sent) ∧
      Untouched (labelled privilegedLabels) ∧ privilegedJson.Reads privilegedLabels ∧
      ¬Restored (labelled privilegedLabels) final := by
  refine ⟨_, _, rfl, untouched_labelled privilegedLabels, rfl, ?_⟩
  intro restored
  exact absurd (congrFun restored.keys .enforce) (by decide +kernel)

end WeeboSi.PodSecurity
