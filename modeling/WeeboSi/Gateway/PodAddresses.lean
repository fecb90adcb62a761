import WeeboSi.EndpointAuth.Identity
import WeeboSi.Lib.KeyedFold

/-!
# Which namespace a pod address belongs to

Source: bins/endpoint-gateway/src/adapters/kube_workload.rs:517-558. Of a pod, the index
reads its namespace, whether it is being deleted, its phase and its addresses, the list of
them and the single one.
-/
namespace WeeboSi.Gateway
open WeeboSi.Lib WeeboSi.EndpointAuth

structure PodStatus where
  phase : Option Text
  podIps : Option (List Text)
  podIp : Option Text
  deriving DecidableEq, Repr

structure Pod where
  namespaceName : Option NamespaceName
  deletionTimestamp : Option Timestamp
  status : Option PodStatus
  deriving DecidableEq, Repr

def running : Text := "Running".toList

def Pod.phase (pod : Pod) : Option Text := pod.status.bind PodStatus.phase

/-- The addresses a pod reports; one may be listed more than once. -/
def Pod.addresses (pod : Pod) : List Text :=
  (pod.status.bind PodStatus.podIps).getD [] ++ (pod.status.bind PodStatus.podIp).toList

/-- The index while it is rebuilt: the first namespace to claim an address, and the
addresses that a second one claimed. -/
structure AddressClaims where
  rebuilt : AList fun _ : Text => NamespaceName
  contested : List Text

def AddressClaims.empty : AddressClaims := ⟨∅, []⟩

def claimAddress (name : NamespaceName) (s : AddressClaims) (ip : Text) : AddressClaims :=
  match s.rebuilt.lookup ip with
  | some existing =>
    if existing ≠ name then { s with contested := ip :: s.contested }
    else { s with rebuilt := s.rebuilt.insert ip name }
  | none => { s with rebuilt := s.rebuilt.insert ip name }

def claimPod (s : AddressClaims) (pod : Pod) : AddressClaims :=
  match pod.namespaceName with
  | none => s
  | some name =>
    if pod.deletionTimestamp.isSome then s
    else if pod.phase ≠ some running then s
    else pod.addresses.foldl (claimAddress name) s

def addressIndex (pods : List Pod) : AList fun _ : Text => NamespaceName :=
  let s := pods.foldl claimPod .empty
  s.contested.foldl (fun rebuilt ip => rebuilt.erase ip) s.rebuilt

/-! ## What a pod reports -/

/-- A pod of `name` that owns its addresses reports this one. -/
structure Pod.Reports (pod : Pod) (name : NamespaceName) (ip : Text) : Prop where
  inside : pod.namespaceName = some name
  kept : pod.deletionTimestamp = none
  runs : pod.phase = some running
  listed : ip ∈ pod.addresses

/-- The claims a pod makes, in order. -/
def Pod.claims (pod : Pod) : List (NamespaceName × Text) :=
  match pod.namespaceName with
  | none => []
  | some name =>
    if pod.deletionTimestamp = none ∧ pod.phase = some running then
      pod.addresses.map fun ip => (name, ip)
    else []

theorem mem_claims (pod : Pod) (name : NamespaceName) (ip : Text) :
    (name, ip) ∈ pod.claims ↔ pod.Reports name ip := by
  unfold Pod.claims
  constructor
  · intro member
    cases inside : pod.namespaceName with
    | none =>
      rw [inside] at member
      cases member
    | some own =>
      simp only [inside] at member
      split at member
      · rename_i owns
        obtain ⟨listed, isListed, same⟩ := List.mem_map.mp member
        cases same
        exact ⟨inside, owns.1, owns.2, isListed⟩
      · cases member
  · intro reports
    simp only [reports.inside, reports.kept, reports.runs, and_self, if_true]
    exact List.mem_map_of_mem reports.listed

theorem claimPod_eq (s : AddressClaims) (pod : Pod) :
    claimPod s pod = pod.claims.foldl (fun s (name, ip) => claimAddress name s ip) s := by
  unfold claimPod Pod.claims
  cases pod.namespaceName with
  | none => rfl
  | some name =>
    cases pod.deletionTimestamp with
    | some _ => simp
    | none =>
      by_cases runs : pod.phase = some running
      · simp [runs, List.foldl_map]
      · simp [runs]

theorem foldl_claimPod (pods : List Pod) (s : AddressClaims) :
    pods.foldl claimPod s =
      (pods.flatMap Pod.claims).foldl (fun s (name, ip) => claimAddress name s ip) s := by
  rw [List.foldl_flatMap]
  congr 1
  funext s pod
  exact claimPod_eq s pod

/-! ## The fold -/

/-- What the two structures hold after the claims of `done`: the holder of an address is one
of its claimants, and it is contested once another one claimed it. -/
structure ClaimsRead (s : AddressClaims) (done : List (NamespaceName × Text)) : Prop where
  holder : ∀ ip name, s.rebuilt.lookup ip = some name → (name, ip) ∈ done
  claimed : ∀ ip, s.rebuilt.lookup ip = none → ∀ name, (name, ip) ∉ done
  contested : ∀ ip, ip ∈ s.contested ↔ ∃ name, (name, ip) ∈ done ∧ s.rebuilt.lookup ip ≠ some name

theorem claimsRead_empty : ClaimsRead .empty [] := by
  refine ⟨?_, ?_, ?_⟩
  · intro ip name held
    simp [AddressClaims.empty] at held
  · simp
  · simp [AddressClaims.empty]

section Step
variable {s : AddressClaims} {done : List (NamespaceName × Text)} (inv : ClaimsRead s done)
include inv

/-- A claim of the namespace that holds the address, or of a first one. -/
theorem ClaimsRead.settle (name : NamespaceName) (ip : Text)
    (free : ∀ holder, s.rebuilt.lookup ip = some holder → holder = name) :
    ClaimsRead { s with rebuilt := s.rebuilt.insert ip name } (done ++ [(name, ip)]) := by
  have reads : ∀ other, (s.rebuilt.insert ip name).lookup other =
      if other = ip then some name else s.rebuilt.lookup other := by
    intro other
    exact lookup_insert_eq s.rebuilt ip other name
  -- Only the address of the claim is read differently, and there only when it was free.
  have taken : s.rebuilt.lookup ip = none ∨ s.rebuilt.lookup ip = some name := by
    cases held : s.rebuilt.lookup ip with
    | none => exact Or.inl rfl
    | some holder => exact Or.inr (congrArg some (free holder held))
  refine ⟨?_, ?_, ?_⟩
  · intro other holder held
    rw [reads] at held
    by_cases same : other = ip
    · rw [if_pos same, Option.some.injEq] at held
      simp [same, held]
    · rw [if_neg same] at held
      exact List.mem_append_left _ (inv.holder other holder held)
  · intro other absent claimant
    rw [reads] at absent
    by_cases same : other = ip
    · simp [same] at absent
    · rw [if_neg same] at absent
      simpa [same] using inv.claimed other absent claimant
  · intro other
    change other ∈ s.contested ↔ _
    rw [inv.contested other, reads]
    by_cases same : other = ip
    · subst same
      rw [if_pos rfl]
      rcases taken with absent | held
      · have unclaimed := inv.claimed other absent
        simp [unclaimed]
      · simp [held]
    · simp [same]

/-- A claim of another namespace. -/
theorem ClaimsRead.contest (name holder : NamespaceName) (ip : Text) (held : s.rebuilt.lookup ip = some holder)
    (other : holder ≠ name) :
    ClaimsRead { s with contested := ip :: s.contested } (done ++ [(name, ip)]) := by
  refine ⟨?_, ?_, ?_⟩
  · exact fun ip' name' held' => List.mem_append_left _ (inv.holder ip' name' held')
  · intro ip' absent claimant member
    rcases List.mem_append.mp member with earlier | single
    · exact inv.claimed ip' absent claimant earlier
    · cases List.mem_singleton.mp single
      rw [show s.rebuilt.lookup ip = none from absent] at held
      cases held
  · intro ip'
    rw [List.mem_cons, inv.contested ip']
    by_cases same : ip' = ip
    · subst same
      simp only [true_or, true_iff]
      exact ⟨name, by simp, by simp [held, other]⟩
    · simp [same]

theorem ClaimsRead.claim (name : NamespaceName) (ip : Text) :
    ClaimsRead (claimAddress name s ip) (done ++ [(name, ip)]) := by
  unfold claimAddress
  cases held : s.rebuilt.lookup ip with
  | none => exact inv.settle name ip fun holder found => by simp [held] at found
  | some holder =>
    by_cases other : holder = name
    · simp only [other, ne_eq, not_true_eq_false, if_false]
      exact inv.settle name ip fun again found => by simp_all
    · simp only [ne_eq, other, not_false_eq_true, if_true]
      exact inv.contest name holder ip held other

theorem ClaimsRead.claims (todo : List (NamespaceName × Text)) :
    ClaimsRead (todo.foldl (fun s (name, ip) => claimAddress name s ip) s) (done ++ todo) := by
  induction todo generalizing s done with
  | nil => simpa using inv
  | cons pair todo ih =>
    obtain ⟨name, ip⟩ := pair
    have rest := ih (inv.claim name ip)
    rwa [List.append_assoc] at rest

end Step

/-! ## The index -/

theorem lookup_erased (contested : List Text) (m : AList fun _ : Text => NamespaceName) (ip : Text) :
    (contested.foldl (fun m ip => m.erase ip) m).lookup ip = if ip ∈ contested then none else m.lookup ip := by
  induction contested generalizing m with
  | nil => rfl
  | cons first rest ih =>
    rw [List.foldl_cons, ih]
    by_cases later : ip ∈ rest
    · simp [later]
    · by_cases same : ip = first
      · subst same
        simp
      · simp [later, same, AList.lookup_erase_ne same]

/-- Of every list of pods, in every order: an address is that of the one namespace whose
running pods report it. -/
theorem addressIndex_sole_namespace (pods ordered : List Pod) (order : ordered.Perm pods) (ip : Text)
    (name : NamespaceName) :
    (addressIndex ordered).lookup ip = some name ↔
      (∃ pod ∈ pods, pod.Reports name ip) ∧ ∀ pod ∈ pods, ∀ other, pod.Reports other ip → other = name := by
  have claims : ∀ name, (name, ip) ∈ ordered.flatMap Pod.claims ↔ ∃ pod ∈ pods, pod.Reports name ip := by
    intro name
    simp only [List.mem_flatMap, mem_claims, order.mem_iff]
  have read := claimsRead_empty.claims (ordered.flatMap Pod.claims)
  rw [← foldl_claimPod, List.nil_append] at read
  unfold addressIndex
  dsimp only
  rw [lookup_erased]
  generalize ordered.foldl claimPod .empty = s at read
  constructor
  · intro found
    split at found
    · cases found
    · rename_i settled
      refine ⟨(claims name).mp (read.holder ip name found), ?_⟩
      intro pod member other reports
      by_contra differs
      apply settled
      refine (read.contested ip).mpr ⟨other, (claims other).mpr ⟨pod, member, reports⟩, ?_⟩
      rw [found, ne_eq, Option.some.injEq]
      exact Ne.symm differs
  · rintro ⟨⟨pod, member, reports⟩, sole⟩
    have claimed := (claims name).mpr ⟨pod, member, reports⟩
    have held : s.rebuilt.lookup ip = some name := by
      cases holder : s.rebuilt.lookup ip with
      | none => exact absurd claimed (read.claimed ip holder name)
      | some own =>
        obtain ⟨owner, isPod, owns⟩ := (claims own).mp (read.holder ip own holder)
        rw [sole owner isPod own owns]
    have settled : ip ∉ s.contested := by
      intro contested
      obtain ⟨other, claimant, differs⟩ := (read.contested ip).mp contested
      obtain ⟨owner, isPod, owns⟩ := (claims other).mp claimant
      rw [sole owner isPod other owns] at differs
      exact differs held
    rw [if_neg settled, held]

/-- A running pod with one address, listed twice. -/
def podAt (name : NamespaceName) (ip : Text) : Pod := ⟨some name, none, some ⟨some running, some [ip], some ip⟩⟩

theorem addressIndex_sole_namespace_swapped :
    (addressIndex [podAt ['b'] ['2'], podAt ['a'] ['1']]).lookup ['1'] = some ['a'] :=
  (addressIndex_sole_namespace [podAt ['a'] ['1'], podAt ['b'] ['2']] [podAt ['b'] ['2'], podAt ['a'] ['1']]
    (List.Perm.swap _ _ _) ['1'] ['a']).mpr
    ⟨⟨podAt ['a'] ['1'], by simp, ⟨rfl, rfl, rfl, by decide⟩⟩, by
      intro pod member other reports
      rcases List.mem_cons.mp member with rfl | second
      · exact (Option.some.inj reports.inside).symm
      · cases List.mem_singleton.mp second
        exact absurd reports.listed (by decide)⟩

end WeeboSi.Gateway
