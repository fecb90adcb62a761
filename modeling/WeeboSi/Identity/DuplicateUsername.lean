import WeeboSi.Crd.Identity
import WeeboSi.Identity.UsernameHolder

/-!
# Two detectors of one clash

Source: crates/weebo-si-crd/src/identity.rs:470-511 beside crates/weebo-si-identity-adapters'
controller.rs:306-313 and 459-470. The configuration's status compares usernames as they are
written, the loop over the people without case.
-/
namespace WeeboSi.Identity
open WeeboSi.Lib WeeboSi.Crd

/-! ## People as both see them -/

structure ListedUser where
  user : WeeboSiUser
  uid : Option Text
  created : Option Int
  deleted : Bool

def claimant (listed : ListedUser) : Option Claimant := do
  let name ← listed.user.metadataName
  let uid ← listed.uid
  some ⟨name, uid, listed.user.username, listed.created⟩

/-- Whom the loop compares with. -/
def claimants (users : List ListedUser) : List Claimant :=
  (users.filter fun listed => !listed.deleted).filterMap claimant

def refused (users : List ListedUser) (listed : ListedUser) : Bool :=
  ((claimant listed).bind fun me => usernameHolder me (claimants users)).isSome

def usernames (users : List ListedUser) : List Text := users.map fun listed => listed.user.username

def duplicated : IdentityConfigViolation → Option Text
  | .duplicateUsername user => some user
  | _ => none

/-- The usernames reported as duplicates. -/
def reports (config : IdentityConfig) (teams : List ProvisioningTeam) (users : List ListedUser) : List Text :=
  (config.validate teams (users.map ListedUser.user)).filterMap duplicated

/-! ## What is reported -/

section Reported
variable (config : IdentityConfig) (teams : List ProvisioningTeam)

theorem templateViolations_silent (team : ProvisioningTeam) :
    ∀ violation ∈ config.templateViolations team, duplicated violation = none := by
  intro violation member
  unfold IdentityConfig.templateViolations at member
  cases che : team.che with
  | none => simp [che] at member
  | some template =>
    simp only [che, List.mem_append, List.mem_map] at member
    rcases member with (⟨_, -, rfl⟩ | project) | repo
    · rfl
    · split at project
      · cases project
      · rw [List.mem_singleton.mp project]
        rfl
    · split at repo
      · cases repo
      · rw [List.mem_singleton.mp repo]
        rfl

theorem teamViolations_silent (team : ProvisioningTeam) :
    ∀ violation ∈ config.teamViolations team, duplicated violation = none := by
  intro violation member
  rcases List.mem_append.mp member with template | group
  · exact templateViolations_silent config team violation template
  · obtain ⟨_, -, rfl⟩ := List.mem_map.mp group
    rfl

theorem authentikPlan_silent (user : WeeboSiUser) (team : Option ProvisioningTeam)
    (found : List IdentityConfigViolation) (refused : config.authentikPlan user team = .error found) :
    ∀ violation ∈ found, duplicated violation = none := by
  unfold IdentityConfig.authentikPlan at refused
  split at refused
  · cases refused
    intro violation member
    rw [List.mem_singleton.mp member]
    rfl
  · dsimp only at refused
    split at refused
    · cases refused
      intro violation member
      obtain ⟨_, -, rfl⟩ := List.mem_map.mp member
      rfl
    · cases refused

theorem applicationPlan_silent (user : WeeboSiUser) (team : Option ProvisioningTeam)
    (found : List IdentityConfigViolation) (refused : config.applicationPlan user team = .error found) :
    ∀ violation ∈ found, duplicated violation = none := by
  have single : ∀ violation : IdentityConfigViolation, duplicated violation = none →
      ∀ other ∈ [violation], duplicated other = none := by
    intro violation silent other member
    rw [List.mem_singleton.mp member]
    exact silent
  cases team with
  | none =>
    cases refused
    exact single _ rfl
  | some team =>
    unfold IdentityConfig.applicationPlan at refused
    dsimp only at refused
    split at refused
    · cases refused
      exact single _ rfl
    · split at refused
      · cases refused
        exact single _ rfl
      · split at refused
        · cases refused
          exact templateViolations_silent config team
        · split at refused
          · cases refused
            exact single _ rfl
          · split at refused
            · cases refused
              exact single _ rfl
            · cases refused

theorem half_silent {P : Type} (wanted : Bool) (plan : Except (List IdentityConfigViolation) P)
    (silent : ∀ found, plan = .error found → ∀ violation ∈ found, duplicated violation = none) :
    ∀ violation ∈ (IdentityConfig.half wanted plan).2, duplicated violation = none := by
  unfold IdentityConfig.half
  split
  · split
    · simp
    · exact silent _ rfl
  · simp

theorem userViolations_silent (user : WeeboSiUser) :
    ∀ violation ∈ config.userViolations teams user, duplicated violation = none := by
  intro violation member
  unfold IdentityConfig.userViolations at member
  rcases List.mem_append.mp member with unknown | plan
  · obtain ⟨_, -, rfl⟩ := List.mem_map.mp unknown
    rfl
  · split at plan
    · cases plan
    · rename_i found refused
      unfold IdentityConfig.planFor at refused
      dsimp only at refused
      split at refused
      · cases refused
      · cases refused
        rcases List.mem_append.mp plan with groups | workspace
        · exact half_silent _ _ (authentikPlan_silent config user _) violation groups
        · exact half_silent _ _ (applicationPlan_silent config user _) violation workspace

/-- The loop, as far as it reports duplicates. -/
def duplicates : List Text → List Text → List Text → List Text
  | _, _, [] => []
  | seen, reported, name :: names =>
    let repeated := seen.contains name && !reported.contains name
    (if repeated then [name] else []) ++
      duplicates (name :: seen) (if repeated then name :: reported else reported) names

theorem filterMap_silent (violations : List IdentityConfigViolation)
    (silent : ∀ violation ∈ violations, duplicated violation = none) : violations.filterMap duplicated = [] :=
  List.filterMap_eq_nil_iff.mpr silent

theorem validateUsers_duplicates (seen reported : List Text) (users : List WeeboSiUser) :
    (config.validateUsers teams seen reported users).filterMap duplicated =
      duplicates seen reported (users.map WeeboSiUser.username) := by
  induction users generalizing seen reported with
  | nil => rfl
  | cons user users ih =>
    rw [IdentityConfig.validateUsers, List.filterMap_append, List.filterMap_append,
      filterMap_silent _ (userViolations_silent config teams user), ih, List.append_nil, List.map_cons, duplicates]
    congr 1
    split <;> rfl

theorem reports_eq (users : List ListedUser) :
    reports config teams users = duplicates [] [] (usernames users) := by
  unfold reports IdentityConfig.validate usernames
  rw [List.filterMap_append, filterMap_silent, List.nil_append, validateUsers_duplicates, List.map_map]
  · rfl
  · intro violation member
    obtain ⟨team, -, inside⟩ := List.mem_flatMap.mp member
    exact teamViolations_silent config team violation inside

end Reported

/-- A name is reported once when it stands there for the second time. -/
theorem count_duplicates (seen reported names : List Text) (name : Text) :
    (duplicates seen reported names).count name =
      if name ∈ reported then 0
      else if 2 ≤ names.count name + (if name ∈ seen then 1 else 0) then 1 else 0 := by
  induction names generalizing seen reported with
  | nil =>
    have atMost : ¬ 2 ≤ [].count name + (if name ∈ seen then 1 else 0) := by
      split <;> simp
    rw [if_neg atMost]
    simp [duplicates]
  | cons first names ih =>
    rw [duplicates, List.count_append, ih]
    by_cases same : first = name
    · subst same
      by_cases known : first ∈ reported
      · simp [known]
      · by_cases before : first ∈ seen
        · simp [known, before]
        · simp [known, before]
    · have other : name ≠ first := Ne.symm same
      have listed :
          List.count name (if seen.contains first && !reported.contains first then [first] else []) = 0 := by
        split <;> simp [same]
      have reportedNow : name ∈ (if seen.contains first && !reported.contains first then first :: reported
          else reported) ↔ name ∈ reported := by
        split <;> simp [other]
      rw [listed, if_congr reportedNow rfl rfl]
      simp [same, other]

theorem mem_reports (config : IdentityConfig) (teams : List ProvisioningTeam) (users : List ListedUser)
    (name : Text) : name ∈ reports config teams users ↔ 2 ≤ (usernames users).count name := by
  rw [reports_eq, ← List.count_pos_iff, count_duplicates]
  by_cases twice : 2 ≤ (usernames users).count name
  · simp [twice]
  · simp [twice]

theorem nodup_reports (config : IdentityConfig) (teams : List ProvisioningTeam) (users : List ListedUser) :
    (reports config teams users).Nodup := by
  rw [reports_eq, List.nodup_iff_count_le_one]
  intro name
  rw [count_duplicates]
  split
  · exact Nat.zero_le _
  · split
    · exact Nat.le_refl _
    · exact Nat.zero_le _

/-! ## What is refused -/

/-- At least two people claim the username, in whatever spelling. -/
def Clashes (users : List ListedUser) (username : Text) : Prop :=
  2 ≤ (usernames users).countP fun name => eqIgnoreAsciiCase name username

/-- Everybody has a name and a uid of their own and nobody is being deleted. -/
structure Stamped (users : List ListedUser) : Prop where
  present : ∀ listed ∈ users, listed.deleted = false ∧ (claimant listed).isSome = true
  distinct : Distinct (claimants users)

theorem claimant_username (listed : ListedUser) (me : Claimant) (claims : claimant listed = some me) :
    me.username = listed.user.username := by
  unfold claimant at claims
  simp only [Option.bind_eq_bind, Option.bind_eq_some_iff] at claims
  obtain ⟨_, _, _, _, made⟩ := claims
  cases made
  rfl

theorem claimants_usernames (users : List ListedUser)
    (present : ∀ listed ∈ users, listed.deleted = false ∧ (claimant listed).isSome = true) :
    (claimants users).map Claimant.username = usernames users := by
  induction users with
  | nil => rfl
  | cons listed users ih =>
    rw [List.forall_mem_cons] at present
    obtain ⟨me, claims⟩ := Option.isSome_iff_exists.mp present.1.2
    have rest := ih present.2
    unfold claimants usernames at rest ⊢
    rw [List.filter_cons_of_pos (by simp [present.1.1]), List.filterMap_cons_some claims, List.map_cons, rest,
      claimant_username listed me claims, List.map_cons]

theorem mem_claimants (users : List ListedUser) (stamped : Stamped users) (me : Claimant) :
    me ∈ claimants users ↔ ∃ listed ∈ users, claimant listed = some me := by
  unfold claimants
  simp only [List.mem_filterMap, List.mem_filter]
  constructor
  · rintro ⟨listed, member, claims⟩
    exact ⟨listed, member.1, claims⟩
  · rintro ⟨listed, member, claims⟩
    exact ⟨listed, ⟨member, by simp [(stamped.present listed member).1]⟩, claims⟩

theorem clashes_iff (users : List ListedUser) (stamped : Stamped users) (username : Text) :
    Clashes users username ↔ ∃ a ∈ claimants users, ∃ b ∈ claimants users, a ≠ b ∧
      eqIgnoreAsciiCase a.username username = true ∧ eqIgnoreAsciiCase b.username username = true := by
  have people : (claimants users).Nodup := stamped.distinct.uids.of_map
  unfold Clashes
  rw [← claimants_usernames users stamped.present, List.countP_map, List.countP_eq_length_filter,
    ← List.toFinset_card_of_nodup (people.filter _), Nat.succ_le_iff, Finset.one_lt_card]
  simp only [List.mem_toFinset, List.mem_filter, Function.comp_apply]
  constructor
  · rintro ⟨a, ⟨first, claims⟩, b, ⟨second, also⟩, different⟩
    exact ⟨a, first, b, second, different, claims, also⟩
  · rintro ⟨a, first, b, second, different, claims, also⟩
    exact ⟨a, ⟨first, claims⟩, b, ⟨second, also⟩, different⟩

theorem refused_iff (users : List ListedUser) (stamped : Stamped users) :
    (∃ listed ∈ users, refused users listed = true) ↔
      ∃ me ∈ claimants users, usernameHolder me (claimants users) ≠ none := by
  constructor
  · rintro ⟨listed, member, no⟩
    obtain ⟨holder, held⟩ := Option.isSome_iff_exists.mp no
    obtain ⟨me, claims, held⟩ := Option.bind_eq_some_iff.mp held
    exact ⟨me, (mem_claimants users stamped me).mpr ⟨listed, member, claims⟩, by simp [held]⟩
  · rintro ⟨me, member, held⟩
    obtain ⟨listed, inside, claims⟩ := (mem_claimants users stamped me).mp member
    refine ⟨listed, inside, ?_⟩
    rw [refused, claims, Option.bind_some]
    exact Option.isSome_iff_ne_none.mpr held

/-- Somebody is refused exactly when some username is claimed twice, in whatever spelling. -/
theorem refused_iff_clashes (users : List ListedUser) (stamped : Stamped users) :
    (∃ listed ∈ users, refused users listed = true) ↔ ∃ username, Clashes users username := by
  rw [refused_iff users stamped]
  constructor
  · rintro ⟨me, member, held⟩
    obtain ⟨found, held⟩ := Option.ne_none_iff_exists'.mp held
    obtain ⟨inside, other, same, -⟩ := mem_usernameHolder me found held
    refine ⟨me.username, (clashes_iff users stamped _).mpr ⟨found, inside, me, member, ?_, same, ?_⟩⟩
    · rintro rfl
      exact other rfl
    · simp [eqIgnoreAsciiCase]
  · rintro ⟨username, clash⟩
    obtain ⟨a, first, b, second, different, claims, also⟩ := (clashes_iff users stamped username).mp clash
    obtain ⟨holder, least⟩ := least_exists a first
    have holds := holds_of_least stamped.distinct least
    by_cases held : a = holder
    · refine ⟨b, second, ?_⟩
      rw [holds.refuses b second (eqIgnoreAsciiCase_joined also claims) fun same => different (held.trans same.symm)]
      simp
    · refine ⟨a, first, ?_⟩
      rw [holds.refuses a first (by simp [eqIgnoreAsciiCase]) held]
      simp

/-! ## Agreement -/

/-- The status names a duplicate exactly when somebody is refused, and each clash once. -/
structure ReportsClashes (config : IdentityConfig) (teams : List ProvisioningTeam) (users : List ListedUser) :
    Prop where
  some_ : (∃ user, .duplicateUsername user ∈ config.validate teams (users.map ListedUser.user)) ↔
    ∃ listed ∈ users, refused users listed = true
  once : ∀ username, Clashes users username →
    ((reports config teams users).countP fun name => eqIgnoreAsciiCase name username) = 1

theorem countP_eq_one_iff {α : Type} [DecidableEq α] (xs : List α) (distinct : xs.Nodup) (p : α → Bool) :
    xs.countP p = 1 ↔ ∃! x, p x = true ∧ x ∈ xs := by
  rw [List.countP_eq_length_filter, ← List.toFinset_card_of_nodup (distinct.filter _), Finset.card_eq_one]
  constructor
  · rintro ⟨x, only⟩
    have member : ∀ y, y ∈ (xs.filter p).toFinset ↔ y = x := by simp [only]
    simp only [List.mem_toFinset, List.mem_filter] at member
    refine ⟨x, ⟨((member x).mpr rfl).2, ((member x).mpr rfl).1⟩, ?_⟩
    rintro y ⟨holds, inside⟩
    exact (member y).mp ⟨inside, holds⟩
  · rintro ⟨x, ⟨holds, inside⟩, unique⟩
    refine ⟨x, ?_⟩
    ext y
    simp only [List.mem_toFinset, List.mem_filter, Finset.mem_singleton]
    exact ⟨fun given => unique y ⟨given.2, given.1⟩, fun same => by rw [same]; exact ⟨inside, holds⟩⟩

theorem duplicateUsername_mem (config : IdentityConfig) (teams : List ProvisioningTeam) (users : List ListedUser)
    (user : Text) :
    .duplicateUsername user ∈ config.validate teams (users.map ListedUser.user) ↔
      user ∈ reports config teams users := by
  unfold reports
  rw [List.mem_filterMap]
  constructor
  · intro member
    exact ⟨_, member, rfl⟩
  · rintro ⟨violation, member, named⟩
    cases violation with
    | duplicateUsername other =>
      cases named
      exact member
    | _ => cases named

/-- The two agree exactly when in every clash one spelling, and only one, is used twice. -/
theorem reportsClashes_iff (config : IdentityConfig) (teams : List ProvisioningTeam) (users : List ListedUser)
    (stamped : Stamped users) :
    ReportsClashes config teams users ↔
      ∀ username, Clashes users username →
        ∃! spelling, eqIgnoreAsciiCase spelling username = true ∧ 2 ≤ (usernames users).count spelling := by
  have once : (∀ username, Clashes users username →
      ((reports config teams users).countP fun name => eqIgnoreAsciiCase name username) = 1) ↔
      ∀ username, Clashes users username →
        ∃! spelling, eqIgnoreAsciiCase spelling username = true ∧ 2 ≤ (usernames users).count spelling := by
    refine forall₂_congr fun username _ => ?_
    rw [countP_eq_one_iff _ (nodup_reports config teams users)]
    simp only [mem_reports]
  constructor
  · intro agrees
    exact once.mp agrees.once
  · intro spelt
    refine ⟨?_, once.mpr spelt⟩
    rw [refused_iff_clashes users stamped]
    simp only [duplicateUsername_mem, mem_reports]
    constructor
    · rintro ⟨user, twice⟩
      refine ⟨user, Nat.le_trans twice ?_⟩
      rw [List.count_eq_countP]
      refine List.countP_mono_left fun name _ same => ?_
      rw [eq_of_beq same]
      simp [eqIgnoreAsciiCase]
    · rintro ⟨username, clash⟩
      obtain ⟨spelling, ⟨-, twice⟩, -⟩ := spelt username clash
      exact ⟨spelling, twice⟩

/-- A person without anything to provision. -/
def listedUser (name uid username : Text) : ListedUser where
  user := ⟨some name, username, none, none, none, true, none, none⟩
  uid := some uid
  created := none
  deleted := false

def emptyConfig : IdentityConfig := ⟨[], ⟨[], [], []⟩⟩

/-- One spelling used twice is reported. -/
theorem ivan_twice_reported :
    ReportsClashes emptyConfig [] [listedUser "ivan-work".toList "uid-1".toList "ivan".toList,
      listedUser "ivan-home".toList "uid-2".toList "ivan".toList] := by
  refine (reportsClashes_iff _ _ _ ⟨by simp [listedUser, claimant], ⟨by decide, by decide⟩⟩).mpr ?_
  intro username clash
  have claims : eqIgnoreAsciiCase "ivan".toList username = true := by
    obtain ⟨name, member, claims⟩ := List.countP_pos_iff.mp (Nat.lt_of_lt_of_le (by decide) clash)
    have spelt : name = "ivan".toList := by simpa [usernames, listedUser] using member
    rwa [spelt] at claims
  refine ⟨"ivan".toList, ⟨claims, by decide⟩, ?_⟩
  rintro spelling ⟨-, twice⟩
  have member := List.count_pos_iff.mp (Nat.lt_of_lt_of_le (by decide) twice)
  simpa [usernames, listedUser] using member

/-- `Ivan` and `ivan` are one login to the loop, and two to the status. -/
theorem spellings_not_reported :
    ¬ ∀ (config : IdentityConfig) (teams : List ProvisioningTeam) (users : List ListedUser),
      Stamped users → ReportsClashes config teams users := by
  intro claimed
  let users := [listedUser "ivan-work".toList "uid-1".toList "Ivan".toList,
    listedUser "ivan-home".toList "uid-2".toList "ivan".toList]
  have agrees := claimed emptyConfig [] users ⟨by simp [users, listedUser, claimant], ⟨by decide, by decide⟩⟩
  have nothing : emptyConfig.validate [] (users.map ListedUser.user) = [] := by decide +kernel
  have someone : users.any (refused users) = true := by decide +kernel
  obtain ⟨listed, member, no⟩ := List.any_eq_true.mp someone
  obtain ⟨user, reported⟩ := agrees.some_.mpr ⟨listed, member, no⟩
  rw [nothing] at reported
  cases reported

end WeeboSi.Identity
