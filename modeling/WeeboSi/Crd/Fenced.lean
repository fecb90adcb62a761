import WeeboSi.Crd.Identity

/-!
# A plan stays inside the allow-lists

The allow-list compares spellings, and a server reads a URL its own way: it decodes it, perhaps more
than once, and removes dot segments. A URL that passes the checks is decoded to its end after a few
passes and leads up in none of them, so however often it is decoded it stays behind the prefix that
let it in.
-/
namespace WeeboSi.Crd
open WeeboSi.Lib

/-! ## Decoding -/

/-- What is refused up to the last pass is refused in all of them, since the last changes nothing. -/
theorem climbsOutLoop_level (passes : Nat) (current : Bytes) (stays : climbsOutLoop passes current = false)
    (n : Nat) : hasDotDotSegment (percentDecode^[n] current) = false := by
  induction passes generalizing current n with
  | zero => cases stays
  | succ passes ih =>
    rw [climbsOutLoop] at stays
    split at stays
    · cases stays
    · next level =>
      split at stays
      · next fixed =>
        rw [Function.iterate_fixed fixed]
        exact Bool.eq_false_iff.mpr level
      · cases n with
        | zero => exact Bool.eq_false_iff.mpr level
        | succ n => exact ih (percentDecode current) stays n

theorem dotDot_not_mem (bytes : Bytes) (level : hasDotDotSegment bytes = false) :
    dotDot ∉ bytes.splitOnP isDelim := by
  intro member
  rw [hasDotDotSegment, Bool.eq_false_iff] at level
  exact level (List.any_eq_true.mpr ⟨dotDot, member, beq_self_eq_true dotDot⟩)

/-- A URL behind a fence that does not climb out stays there, however a server reads it. -/
theorem fenced_of_not_climbsOut (url fence : Text) (stays : climbsOut url = false) (starts : fence <+: url)
    (fenced : Fence (utf8 fence)) (n : Nat) :
    utf8 fence <+: removeDotSegmentsOf (percentDecode^[n] (utf8 url)) := by
  obtain ⟨more, rfl⟩ := starts
  have level := dotDot_not_mem _ (climbsOutLoop_level maxDecodePasses _ stays n)
  rw [utf8_append, iterate_percentDecode_append _ _ fenced.noPercent] at level ⊢
  exact Fence.keeps _ _ fenced level

/-! ## Plans -/

namespace IdentityConfig
variable (config : IdentityConfig) (user : WeeboSiUser) (team : Option ProvisioningTeam)

theorem authentikPlan_allowed (plan : AuthentikUserPlan) (planned : config.authentikPlan user team = .ok plan) :
    ∀ group ∈ plan.groupRefs, allowListed config.allowedGroupRefs group = true := by
  rw [authentikPlan] at planned
  split at planned
  · cases planned
  · dsimp only at planned
    split at planned
    · cases planned
    · next none_ =>
      cases planned
      intro group member
      have listed := List.filter_eq_nil_iff.mp (not_not.mp none_) group member
      simpa using listed

theorem templateViolations_project (owner : ProvisioningTeam) (template : ApplicationTemplate)
    (described : owner.che = some template) (sound : config.templateViolations owner = []) :
    allowListed config.che.allowedProjects template.project = true := by
  simp only [templateViolations, described, List.append_eq_nil_iff] at sound
  have project := sound.1.2
  split at project
  · next listed => exact listed
  · cases project

theorem applicationPlan_allowed (application : RenderedApplication)
    (planned : config.applicationPlan user team = .ok application) :
    allowListed config.che.allowedProjects application.project = true ∧
      climbsOut application.source.repoUrl = false ∧
      allowListed config.che.allowedRepoUrls application.source.repoUrl = true := by
  cases team with
  | none => cases planned
  | some owner =>
    rw [applicationPlan] at planned
    split at planned
    · cases planned
    · next template described =>
      split at planned
      · cases planned
      · split at planned
        · cases planned
        · next sound =>
          split at planned
          · cases planned
          · next rendered outcome =>
            split at planned
            · cases planned
            · next checked =>
              cases planned
              have project := template.render_project _ _ _ _ _ outcome
              simp only [Bool.or_eq_true, Bool.not_eq_true', not_or, Bool.not_eq_true,
                Bool.not_eq_false] at checked
              refine ⟨?_, checked.1, checked.2⟩
              rw [project]
              exact config.templateViolations_project owner template described (not_not.mp sound)

theorem half_eq_some {P : Type} (wanted : Bool) (outcome : Except (List IdentityConfigViolation) P) (plan : P)
    (found : (half wanted outcome).1 = some plan) : outcome = .ok plan := by
  unfold half at found
  split at found
  · cases outcome with
    | ok planned =>
      cases found
      rfl
    | error violations => cases found
  · cases found

theorem planFor_halves (plan : UserPlan) (planned : config.planFor user team = .ok plan) :
    plan = ⟨(half user.wantsAuthentik (config.authentikPlan user team)).1,
      (half user.wantsChe (config.applicationPlan user team)).1⟩ := by
  rw [planFor] at planned
  dsimp only at planned
  split at planned
  · cases planned
    rfl
  · cases planned

/-- Every planned group and the project are allow-listed, and the repository stays behind every
prefix that lets it in, however often it is decoded before its dot segments go. -/
theorem planFor_fenced (plan : UserPlan) (planned : config.planFor user team = .ok plan) :
    (∀ authentik, plan.authentik = some authentik →
        ∀ group ∈ authentik.groupRefs, allowListed config.allowedGroupRefs group = true) ∧
      ∀ application, plan.application = some application →
        allowListed config.che.allowedProjects application.project = true ∧
          allowListed config.che.allowedRepoUrls application.source.repoUrl = true ∧
          ∀ fence, fence ++ ['*'] ∈ config.che.allowedRepoUrls → fence <+: application.source.repoUrl →
            Fence (utf8 fence) → ∀ n,
              utf8 fence <+: removeDotSegmentsOf (percentDecode^[n] (utf8 application.source.repoUrl)) := by
  obtain rfl := planFor_halves config user team plan planned
  constructor
  · intro authentik found
    exact config.authentikPlan_allowed user team authentik (half_eq_some _ _ _ found)
  · intro application found
    obtain ⟨project, stays, listed⟩ :=
      config.applicationPlan_allowed user team application (half_eq_some _ _ _ found)
    refine ⟨project, listed, ?_⟩
    intro fence _ starts fenced n
    exact fenced_of_not_climbsOut _ fence stays starts fenced n

end IdentityConfig

/-! ## A plan with a repository of one's own -/

namespace Sample

def fence : Text := "https://git.weebo.io/org/".toList

def provisioning : IdentityConfig where
  allowedGroupRefs := ["team-*".toList]
  che := ⟨"argocd".toList, ["workspaces".toList], [fence ++ ['*']]⟩

def template : ApplicationTemplate where
  mode := .ensure
  name := none
  project := "workspaces".toList
  source := ⟨fence ++ defaultNameTemplate, none, some "che".toList, "main".toList, none⟩
  destination := ⟨some "https://kubernetes.default.svc".toList, none, "che".toList⟩
  syncPolicy := none

def team : ProvisioningTeam := ⟨"platform".toList, ["team-platform".toList], some template⟩

/-- The object's name is what the repository is rendered from. -/
def user (objectName : Text) : WeeboSiUser where
  metadataName := some objectName
  username := "max".toList
  displayName := none
  email := some "max@weebo.io".toList
  team := some "platform".toList
  active := true
  authentik := some ⟨.ensure, none, []⟩
  che := some ⟨.ensure, none, none⟩

def application (objectName : Text) : RenderedApplication where
  name := objectName
  namespaceName := "argocd".toList
  project := "workspaces".toList
  source := ⟨fence ++ objectName, none, some "che".toList, "main".toList, none⟩
  destination := ⟨some "https://kubernetes.default.svc".toList, none, "che".toList⟩
  syncPolicy := none

def plan (objectName : Text) : UserPlan where
  authentik := some ⟨objectName, "max".toList, "max".toList, "max@weebo.io".toList, true,
    ["team-platform".toList]⟩
  application := some (application objectName)

end Sample

theorem fence_sample : Fence (utf8 Sample.fence) where
  past := ⟨utf8 "https://git.weebo.io".toList, utf8 "/org/".toList, by decide, by decide,
    by unfold DotFree; decide⟩
  slash := by decide
  noPercent := by decide

/-- A person whose repository is spelled with an encoded dot: it stays behind the prefix when the dot
is decoded and its segment goes. -/
theorem planFor_fenced_dot :
    Sample.provisioning.planFor (Sample.user "%2E/app".toList) (some Sample.team) =
        .ok (Sample.plan "%2E/app".toList) ∧
      percentDecode^[2] (utf8 (Sample.application "%2E/app".toList).source.repoUrl) =
        utf8 (Sample.fence ++ "./app".toList) ∧
      utf8 Sample.fence <+: removeDotSegmentsOf
        (percentDecode^[2] (utf8 (Sample.application "%2E/app".toList).source.repoUrl)) := by
  have planned : Sample.provisioning.planFor (Sample.user "%2E/app".toList) (some Sample.team) =
      .ok (Sample.plan "%2E/app".toList) := by
    decide +kernel
  have fenced := (Sample.provisioning.planFor_fenced _ _ _ planned).2 (Sample.application "%2E/app".toList) rfl
  exact ⟨planned, by decide +kernel, fenced.2.2 Sample.fence (by decide) (by decide +kernel) fence_sample 2⟩

end WeeboSi.Crd
