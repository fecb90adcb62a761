import WeeboSi.EndpointAuth.Decide
import WeeboSi.Lib.KeyedFold

/-!
# The host index

Source: crates/weebo-si-endpoint-auth/src/index.rs:22-170. The hash map is a list of
entries without a repeated host, and a shared policy is its value.
-/
namespace WeeboSi.EndpointAuth
open WeeboSi.Lib

structure ObjectRef where
  namespaceName : NamespaceName
  name : Text
  deriving DecidableEq, Repr

structure IndexedEndpoint where
  host : Host
  object : ObjectRef
  policy : EndpointPolicy
  deriving DecidableEq, Repr

structure HostConflict where
  host : Host
  claimants : List ObjectRef
  deriving DecidableEq, Repr

inductive HostEntry where
  | one (object : ObjectRef) (policy : EndpointPolicy)
  | conflict (claimants : List ObjectRef)
  deriving DecidableEq, Repr

structure HostIndex where
  generation : Nat
  entries : AList fun _ : Host => HostEntry
  conflicts : List HostConflict

/-- What a claim makes of the entry of its host: the same object replaces itself, a
different one contests the host. -/
def HostEntry.claim (endpoint : IndexedEndpoint) : Option HostEntry → HostEntry
  | none => .one endpoint.object endpoint.policy
  | some (.one existing _) =>
    if existing = endpoint.object then .one endpoint.object endpoint.policy
    else .conflict [existing, endpoint.object]
  | some (.conflict claimants) =>
    if claimants.contains endpoint.object then .conflict claimants
    else .conflict (claimants ++ [endpoint.object])

namespace HostIndex

def conflictOf (host : Host) : HostEntry → Option HostConflict
  | .conflict claimants => some ⟨host, claimants⟩
  | .one _ _ => none

def build (generation : Nat) (endpoints : List IndexedEndpoint) : HostIndex :=
  let entries := foldByKey IndexedEndpoint.host HostEntry.claim ∅ endpoints
  let conflicts := entries.entries.filterMap fun entry => conflictOf entry.1 entry.2
  ⟨generation, entries, conflicts.insertionSort fun a b => textLe a.host.text b.host.text = true⟩

def lookup (index : HostIndex) (host : Host) : CatalogLookup :=
  match index.entries.lookup host with
  | some (.one _ policy) => .policy policy
  | some (.conflict _) => .conflict
  | none => .unknown

end HostIndex

/-! ## What the claims of one host amount to -/

/-- The entry that a host's claims, in any order, leave: nothing without a claim, a policy
while one object claims, and otherwise a conflict. -/
inductive Summarises (claims : List IndexedEndpoint) : Option HostEntry → Prop
  | unclaimed : claims = [] → Summarises claims none
  | sole (object : ObjectRef) (policy : EndpointPolicy) : (∃ claim ∈ claims, claim.policy = policy) →
      (∀ claim ∈ claims, claim.object = object) → Summarises claims (some (.one object policy))
  | contested (claimants : List ObjectRef) :
      (∃ a ∈ claims, ∃ b ∈ claims, a.object ≠ b.object) → Summarises claims (some (.conflict claimants))

theorem summarises_claim (claims : List IndexedEndpoint) (endpoint : IndexedEndpoint)
    (entry : Option HostEntry) (summary : Summarises claims entry) :
    Summarises (claims ++ [endpoint]) (some (.claim endpoint entry)) := by
  cases summary with
  | unclaimed none_ =>
    subst none_
    exact .sole _ _ ⟨endpoint, by simp, rfl⟩ (by simp)
  | sole object policy carried only =>
    simp only [HostEntry.claim]
    by_cases same : object = endpoint.object
    · rw [if_pos same]
      refine .sole _ _ ⟨endpoint, by simp, rfl⟩ ?_
      intro claim member
      rcases List.mem_append.mp member with old | new
      · rw [only claim old, same]
      · rw [List.mem_singleton.mp new]
    · rw [if_neg same]
      obtain ⟨claim, member, -⟩ := carried
      refine .contested _ ⟨claim, by simp [member], endpoint, by simp, ?_⟩
      rw [only claim member]
      exact same
  | contested claimants two =>
    have still : ∃ a ∈ claims ++ [endpoint], ∃ b ∈ claims ++ [endpoint], a.object ≠ b.object := by
      obtain ⟨a, inA, b, inB, different⟩ := two
      exact ⟨a, by simp [inA], b, by simp [inB], different⟩
    simp only [HostEntry.claim]
    split
    · exact .contested _ still
    · exact .contested _ still

/-- The whole fold: what is summarised grows by one claim a step. -/
theorem summarises_foldl (rest seen : List IndexedEndpoint) (entry : Option HostEntry)
    (summary : Summarises seen entry) :
    Summarises (seen ++ rest)
      (rest.foldl (fun entry endpoint => some (HostEntry.claim endpoint entry)) entry) := by
  induction rest generalizing seen entry with
  | nil => simpa using summary
  | cons endpoint rest ih =>
    have next := ih (seen ++ [endpoint]) _ (summarises_claim seen endpoint entry summary)
    rwa [List.append_assoc] at next

namespace HostIndex

def claimsOf (endpoints : List IndexedEndpoint) (host : Host) : List IndexedEndpoint :=
  endpoints.filter fun endpoint => endpoint.host = host

theorem summarises_build (generation : Nat) (endpoints : List IndexedEndpoint) (host : Host) :
    Summarises (claimsOf endpoints host) ((build generation endpoints).entries.lookup host) := by
  have empty : (∅ : AList fun _ : Host => HostEntry).lookup host = none := AList.lookup_empty host
  unfold build claimsOf
  simp only [lookup_foldByKey, empty]
  simpa using summarises_foldl (endpoints.filter fun endpoint => endpoint.host = host) [] none (.unclaimed rfl)

/-- A policy the index answers with is one that was claimed for the host. -/
theorem claimed_of_lookup (generation : Nat) (endpoints : List IndexedEndpoint) (host : Host)
    (policy : EndpointPolicy) (found : (build generation endpoints).lookup host = .policy policy) :
    ∃ endpoint ∈ endpoints, endpoint.host = host ∧ endpoint.policy = policy := by
  have summary := summarises_build generation endpoints host
  unfold lookup at found
  generalize (build generation endpoints).entries.lookup host = entry at found summary
  cases summary with
  | unclaimed none_ => cases found
  | contested claimants two => cases found
  | sole object claimed carried only =>
    obtain ⟨endpoint, member, same⟩ := carried
    rw [claimsOf, List.mem_filter, decide_eq_true_eq] at member
    cases found
    exact ⟨endpoint, member.1, member.2, same⟩

/-! ## The order of the claims -/

/-- One object carries one policy for a host. -/
def Consistent (endpoints : List IndexedEndpoint) : Prop :=
  ∀ a ∈ endpoints, ∀ b ∈ endpoints, a.host = b.host → a.object = b.object → a.policy = b.policy

/-- What the claims say of a host, whatever their order. -/
structure Answers (endpoints : List IndexedEndpoint) (host : Host) (answer : CatalogLookup) : Prop where
  conflict : answer = .conflict ↔
    ∃ a ∈ endpoints, ∃ b ∈ endpoints, a.host = host ∧ b.host = host ∧ a.object ≠ b.object
  policy : ∀ policy, answer = .policy policy ↔
    ∃ a ∈ endpoints, a.host = host ∧ a.policy = policy ∧
      ∀ b ∈ endpoints, b.host = host → b.object = a.object
  unknown : answer = .unknown ↔ ∀ a ∈ endpoints, a.host ≠ host

theorem answers_of_summary (endpoints : List IndexedEndpoint) (consistent : Consistent endpoints)
    (host : Host) (index : HostIndex)
    (summary : Summarises (claimsOf endpoints host) (index.entries.lookup host)) :
    Answers endpoints host (index.lookup host) := by
  have claimed : ∀ a, a ∈ claimsOf endpoints host ↔ a ∈ endpoints ∧ a.host = host := by
    simp [claimsOf]
  unfold lookup
  generalize index.entries.lookup host = entry at summary
  cases summary with
  | unclaimed none_ =>
    have absent : ∀ a ∈ endpoints, a.host ≠ host := by
      intro a member here
      exact List.not_mem_nil (none_ ▸ (claimed a).mpr ⟨member, here⟩)
    refine ⟨iff_of_false (by simp) ?_, fun policy => iff_of_false (by simp) ?_, iff_of_true rfl absent⟩
    · rintro ⟨a, member, -, -, here, -⟩
      exact absent a member here
    · rintro ⟨a, member, here, -⟩
      exact absent a member here
  | sole object policy carried only =>
    obtain ⟨first, inside, carries⟩ := carried
    obtain ⟨member, here⟩ := (claimed first).mp inside
    have all : ∀ a ∈ endpoints, a.host = host → a.object = object := fun a inA atHost =>
      only a ((claimed a).mpr ⟨inA, atHost⟩)
    refine ⟨iff_of_false (by simp) ?_, fun other => ?_, iff_of_false (by simp) fun none_ => none_ first member here⟩
    · rintro ⟨a, inA, b, inB, atA, atB, different⟩
      exact different ((all a inA atA).trans (all b inB atB).symm)
    · constructor
      · intro same
        refine ⟨first, member, here, carries.trans (CatalogLookup.policy.inj same), ?_⟩
        intro b inB atB
        rw [all b inB atB, all first member here]
      · rintro ⟨a, inA, atA, carriesA, -⟩
        have objects : first.object = a.object := (all first member here).trans (all a inA atA).symm
        rw [← carries, ← carriesA, consistent first member a inA (here.trans atA.symm) objects]
  | contested claimants two =>
    obtain ⟨a, insideA, b, insideB, different⟩ := two
    obtain ⟨inA, atA⟩ := (claimed a).mp insideA
    obtain ⟨inB, atB⟩ := (claimed b).mp insideB
    refine ⟨iff_of_true rfl ⟨a, inA, b, inB, atA, atB, different⟩, fun policy => iff_of_false (by simp) ?_,
      iff_of_false (by simp) fun none_ => none_ a inA atA⟩
    rintro ⟨c, -, -, -, sole⟩
    exact different ((sole a inA atA).trans (sole b inB atB).symm)

theorem Answers.unique (endpoints : List IndexedEndpoint) (host : Host) (one other : CatalogLookup)
    (first : Answers endpoints host one) (second : Answers endpoints host other) : one = other := by
  cases one with
  | policy policy => exact ((second.policy policy).mpr ((first.policy policy).mp rfl)).symm
  | conflict => exact (second.conflict.mpr (first.conflict.mp rfl)).symm
  | unknown => exact (second.unknown.mpr (first.unknown.mp rfl)).symm

theorem Answers.of_perm (endpoints shuffled : List IndexedEndpoint) (perm : endpoints.Perm shuffled)
    (host : Host) (answer : CatalogLookup) (answers : Answers shuffled host answer) :
    Answers endpoints host answer where
  conflict := by simpa only [perm.mem_iff] using answers.conflict
  policy := by simpa only [perm.mem_iff] using answers.policy
  unknown := by simpa only [perm.mem_iff] using answers.unknown

/-- The index answers for a host what the claims say of it, and it says so whatever order
the informer lists them in. -/
theorem lookup_build_perm (endpoints : List IndexedEndpoint) (consistent : Consistent endpoints)
    (shuffled : List IndexedEndpoint) (perm : endpoints.Perm shuffled) (generation : Nat) (host : Host) :
    (build generation shuffled).lookup host = (build generation endpoints).lookup host ∧
      Answers endpoints host ((build generation endpoints).lookup host) := by
  have same : Consistent shuffled := by
    intro a inA b inB
    exact consistent a (perm.mem_iff.mpr inA) b (perm.mem_iff.mpr inB)
  have answers := answers_of_summary endpoints consistent host _ (summarises_build generation endpoints host)
  have moved := answers_of_summary shuffled same host _ (summarises_build generation shuffled host)
  have returned := Answers.of_perm endpoints shuffled perm host _ moved
  exact ⟨Answers.unique endpoints host _ _ returned answers, answers⟩

def policyFor (namespaceName owner : Text) : EndpointPolicy :=
  ⟨namespaceName, owner, none, .privateProfile, [], [], .reject, [], .author, none, 1⟩

def apiHost : Host := ⟨"alice-ws-api.weebo.si".toList, by decide, by decide, by decide⟩

/-- A second developer claims the host of the first. -/
def contestedClaims : List IndexedEndpoint :=
  [⟨apiHost, ⟨"user-alice".toList, "api".toList⟩, policyFor "user-alice".toList "alice".toList⟩,
    ⟨apiHost, ⟨"user-bob".toList, "api".toList⟩, policyFor "user-bob".toList "bob".toList⟩]

theorem lookup_build_contested :
    Consistent contestedClaims ∧ (build 1 contestedClaims.reverse).lookup apiHost = .conflict ∧
      (build 1 contestedClaims).lookup apiHost = .conflict := by
  have consistent : Consistent contestedClaims := by
    unfold Consistent
    decide
  obtain ⟨same, answers⟩ := lookup_build_perm contestedClaims consistent contestedClaims.reverse
    (List.reverse_perm _).symm 1 apiHost
  have conflict := answers.conflict.mpr (by decide)
  exact ⟨consistent, same.trans conflict, conflict⟩

end HostIndex

end WeeboSi.EndpointAuth
