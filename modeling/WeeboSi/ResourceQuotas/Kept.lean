import WeeboSi.Lib.Run
import WeeboSi.ResourceQuotas.Reconcile

/-!
# What a sequence of passes leaves of the quotas

Source: crates/weebo-si-resource-quotas/src/application.rs:115-198, feature/resource_quotas.rs:88-203
and crates/weebo-si-resource-quotas-adapters/src/quota_stores.rs:266-300, 390-408. Between two passes
anything the feature reads may change; the managed objects change by the passes alone.
-/
namespace WeeboSi.ResourceQuotas
open WeeboSi.Lib WeeboSi.Crd WeeboSi.Chassis
open WeeboSi.NetworkProfiles (TemplateRef)

/-- The managed objects of a namespace, one a kind and name. -/
structure LiveQuotas (namespaceName : Text) where
  objects : List ManagedQuotaObject
  distinct : (objects.map place).Nodup
  here : ∀ object ∈ objects, object.key.namespaceName = namespaceName

/-- `managed_in`: the quotas, then the limit ranges. -/
def listed (objects : List ManagedQuotaObject) : List ManagedQuotaObject :=
  objects.filter (fun object => object.kind = .resourceQuota) ++
    objects.filter (fun object => object.kind = .limitRange)

theorem mem_listed (objects : List ManagedQuotaObject) (object : ManagedQuotaObject) :
    object ∈ listed objects ↔ object ∈ objects := by
  cases kind : object.kind <;> simp [listed, kind]

/-- One pass, with all it reads besides the managed objects. -/
structure Pass where
  feature : ResourceQuotasFeature
  teams : List Team
  labels : Labels
  annotated : Option Text
  usage : Option QuotaUsage
  foreign : ForeignObjects
  mode : FeatureMode

section Passes
variable (render : Json → Text) (storage : Storage ManagedQuotaObject) {namespaceName : Text}

/-- What the pass wants of the namespace. -/
def Pass.wants (namespaceName : Text) (pass : Pass) : Except DomainError DesiredState :=
  pass.feature.desired render ⟨namespaceName, pass.annotated⟩ pass.teams pass.labels

/-- The store of a pass: every apply succeeds. -/
def Pass.store (pass : Pass) (live : LiveQuotas namespaceName) : ManagedQuotaStore where
  managedIn _ := listed live.objects
  usageIn _ := pass.usage
  foreignIn _ := pass.foreign
  apply lines := .ok (tally lines)

/-- What the pass gives the store to apply. -/
def Pass.lines (live : LiveQuotas namespaceName) (pass : Pass) : List Line :=
  (reconcile (fun subject => pass.feature.desired render subject pass.teams pass.labels)
    ⟨namespaceName, pass.annotated⟩ pass.mode (pass.store live)).2

/-- The diff a pass computes when it neither fails nor holds. -/
def diffOfPass (state : DesiredState) (live : LiveQuotas namespaceName) : List Line :=
  computeDiff state.objects (listed live.objects)

theorem anyWrite_eq_false (lines : List Line) :
    anyWrite lines = false ↔ ∀ line ∈ lines, linePlace line = none := by
  unfold anyWrite
  rw [List.any_eq_false]
  refine forall_congr' fun line => forall_congr' fun _ => ?_
  cases line <;> simp [isWrite, isDelete, linePlace]

/-- A pass that fails, holds or does not enforce gives the store nothing; one that enforces
gives it the diff, unless that writes nothing. -/
theorem lines_cases (live : LiveQuotas namespaceName) (pass : Pass) :
    pass.lines render live = [] ∨
      pass.mode = .enforce ∧ ∃ state, pass.wants render namespaceName = .ok state ∧ state.hold = false ∧
        pass.lines render live = diffOfPass state live := by
  unfold Pass.lines reconcile
  cases wants : pass.wants render namespaceName with
  | error error =>
    have read : pass.feature.desired render ⟨namespaceName, pass.annotated⟩ pass.teams pass.labels =
      .error error := wants
    simp only [read]
    split <;> exact Or.inl rfl
  | ok state =>
    have read : pass.feature.desired render ⟨namespaceName, pass.annotated⟩ pass.teams pass.labels =
      .ok state := wants
    simp only [read]
    split
    · exact Or.inl rfl
    · split
      · rename_i enforced
        refine Or.inr ⟨enforced.1, state, rfl, ?_⟩
        cases held : state.hold with
        | true => simp [passLines, held, anyWrite] at enforced
        | false => exact ⟨rfl, by simp [Pass.store, passLines, held, diffOfPass]⟩
      · split <;> exact Or.inl rfl

/-- An enforcing pass that neither fails nor holds. -/
theorem lines_of_enforce (live : LiveQuotas namespaceName) (pass : Pass) (state : DesiredState)
    (enforces : pass.mode = .enforce) (wants : pass.wants render namespaceName = .ok state)
    (applies : state.hold = false) :
    pass.lines render live =
      if anyWrite (diffOfPass state live) = true then diffOfPass state live else [] := by
  have read : pass.feature.desired render ⟨namespaceName, pass.annotated⟩ pass.teams pass.labels = .ok state :=
    wants
  have diff : passLines state (listed live.objects) = diffOfPass state live := by
    simp [passLines, applies, diffOfPass]
  unfold Pass.lines reconcile
  simp only [enforces, read, reduceCtorEq, if_false, Pass.store, diff, true_and, if_true]
  split <;> rfl

/-! ## The profile a pass applies -/

/-- The template a profile refers to for a kind. -/
def QuotaProfile.ref (profile : QuotaProfile) : QuotaKind → Option TemplateRef
  | .resourceQuota => profile.quotaRef
  | .limitRange => profile.limitRangeRef

/-- The `spec` of the template that is visible for a kind. -/
def ResourceQuotasFeature.specOf (feature : ResourceQuotasFeature) (profile : QuotaProfile) :
    QuotaKind → Option Json
  | .resourceQuota => (feature.quotaOf profile).map QuotaTemplate.spec
  | .limitRange => (feature.limitsOf profile).map LimitRangeTemplate.spec

/-- The profile the pass resolves is in the catalogue and valid against the visible templates. -/
structure Pass.Applies (pass : Pass) (profile : QuotaProfile) : Prop where
  resolved : ∃ config provenance, pass.feature.config = some config ∧
    resolve pass.teams config pass.labels pass.annotated = .ok provenance ∧
    config.config.profile provenance.profile = some profile
  valid : ∃ valid, pass.feature.checkProfile render profile = .ok valid

theorem wants_applies (pass : Pass) (state : DesiredState) (wants : pass.wants render namespaceName = .ok state)
    (applies : state.hold = false) :
    ∃ profile, pass.Applies render profile ∧
      state.objects = ResourceQuotasFeature.objectsOf namespaceName
        ⟨profile.key, pass.feature.quotaOf profile, pass.feature.limitsOf profile⟩ := by
  unfold Pass.wants ResourceQuotasFeature.desired at wants
  cases loaded : pass.feature.config with
  | none => simp [loaded] at wants
  | some config =>
    simp only [loaded] at wants
    cases outcome : resolve pass.teams config pass.labels pass.annotated with
    | error refused =>
      simp only [outcome, Except.ok.injEq] at wants
      rw [← wants] at applies
      cases applies
    | ok provenance =>
      simp only [outcome] at wants
      split at wants
      · cases wants
      · unfold ResourceQuotasFeature.check at wants
        cases found : config.config.profile provenance.profile with
        | none => simp_all
        | some profile =>
          simp only [found] at wants
          cases checked : pass.feature.checkProfile render profile with
          | error violations =>
            simp only [checked, Except.ok.injEq] at wants
            rw [← wants] at applies
            cases applies
          | ok valid =>
            simp only [checked, Except.ok.injEq] at wants
            have kept := ((check_ok_iff _ _ _ _ _ _).mp checked).2
            refine ⟨profile, ⟨⟨config, provenance, loaded, outcome, found⟩, valid, checked⟩, ?_⟩
            rw [← wants, kept]

/-- A profile that passed has a template for every reference. -/
theorem Pass.Applies.visible {render : Json → Text} {pass : Pass} {profile : QuotaProfile}
    (applies : pass.Applies render profile) (kind : QuotaKind) (refers : profile.ref kind ≠ none) :
    ∃ spec, pass.feature.specOf profile kind = some spec := by
  obtain ⟨valid, checked⟩ := applies.valid
  have none_ := ((check_ok_iff _ _ _ _ _ _).mp checked).1
  unfold validate at none_
  simp only [List.append_eq_nil_iff] at none_
  have found : ∀ (of : TemplateKind) (template : Option TemplateRef) (found : Bool), template ≠ none →
      refViolations of template found pass.feature.templateNamespace = [] → found = true := by
    intro of template found refers passed
    cases template with
    | none => exact absurd rfl refers
    | some template =>
      unfold refViolations at passed
      cases found with
      | true => rfl
      | false =>
        exfalso
        revert passed
        dsimp only
        split <;> simp
  cases kind with
  | resourceQuota =>
    have there := found _ _ _ refers none_.1.1.1
    obtain ⟨quota, isQuota⟩ := Option.isSome_iff_exists.mp there
    exact ⟨quota.spec, by simp [ResourceQuotasFeature.specOf, isQuota]⟩
  | limitRange =>
    have there := found _ _ _ refers none_.1.1.2
    obtain ⟨limits, isLimits⟩ := Option.isSome_iff_exists.mp there
    exact ⟨limits.spec, by simp [ResourceQuotasFeature.specOf, isLimits]⟩

/-- What the profile puts into a namespace: for each kind, the visible template under the
fixed name. -/
theorem mem_objectsOf (feature : ResourceQuotasFeature) (profile : QuotaProfile) (object : ManagedQuotaObject) :
    object ∈ ResourceQuotasFeature.objectsOf namespaceName
        ⟨profile.key, feature.quotaOf profile, feature.limitsOf profile⟩ ↔
      ∃ kind spec, feature.specOf profile kind = some spec ∧
        object = .desired namespaceName kind profile.key spec := by
  unfold ResourceQuotasFeature.objectsOf
  constructor
  · intro member
    rcases List.mem_append.mp member with ofQuota | ofLimits
    · obtain ⟨quota, isQuota, rfl⟩ := List.mem_map.mp ofQuota
      exact ⟨.resourceQuota, quota.spec, congrArg (Option.map _) (Option.mem_toList.mp isQuota), rfl⟩
    · obtain ⟨limits, isLimits, rfl⟩ := List.mem_map.mp ofLimits
      exact ⟨.limitRange, limits.spec, congrArg (Option.map _) (Option.mem_toList.mp isLimits), rfl⟩
  · rintro ⟨kind, spec, visible, rfl⟩
    cases kind with
    | resourceQuota =>
      obtain ⟨quota, isQuota, rfl⟩ := Option.map_eq_some_iff.mp visible
      exact List.mem_append_left _ (List.mem_map.mpr ⟨quota, Option.mem_toList.mpr isQuota, rfl⟩)
    | limitRange =>
      obtain ⟨limits, isLimits, rfl⟩ := Option.map_eq_some_iff.mp visible
      exact List.mem_append_right _ (List.mem_map.mpr ⟨limits, Option.mem_toList.mpr isLimits, rfl⟩)

theorem fixed_objectsOf (feature : ResourceQuotasFeature) (profile : QuotaProfile) :
    ∀ object ∈ ResourceQuotasFeature.objectsOf namespaceName
        ⟨profile.key, feature.quotaOf profile, feature.limitsOf profile⟩,
      object.key = ⟨namespaceName, object.kind.objectName⟩ := by
  intro object inside
  obtain ⟨kind, spec, -, rfl⟩ := (mem_objectsOf feature profile object).mp inside
  rfl

/-- Every reference of an applied profile puts its object into the namespace. -/
theorem Pass.Applies.wanted {render : Json → Text} {pass : Pass} {profile : QuotaProfile}
    (applies : pass.Applies render profile) (kind : QuotaKind) (refers : profile.ref kind ≠ none) :
    ∃ spec, ManagedQuotaObject.desired namespaceName kind profile.key spec ∈
      ResourceQuotasFeature.objectsOf namespaceName
        ⟨profile.key, pass.feature.quotaOf profile, pass.feature.limitsOf profile⟩ := by
  obtain ⟨spec, visible⟩ := applies.visible kind refers
  exact ⟨spec, (mem_objectsOf pass.feature profile _).mpr ⟨kind, spec, visible, rfl⟩⟩

/-! ## The diff of a pass -/

theorem contentEq_iff (a b : ManagedQuotaObject) : Managed.contentEq a b = true ↔
    a.kind = b.kind ∧ a.profile = b.profile ∧ a.spec = b.spec := by
  simp [Managed.contentEq]

/-- Equal content is of one kind, so no object of the other kind passes for a wanted one. -/
theorem diffOf_pass (state : DesiredState) (live : LiveQuotas namespaceName) :
    DiffOf state.objects live.objects (diffOfPass state live) := by
  refine (diffOf_computeDiff state.objects (listed live.objects) ?_).reordered (mem_listed live.objects)
  intro object _ current _ _ same
  exact ((contentEq_iff current object).mp same).1

theorem objects_agree (feature : ResourceQuotasFeature) (profile : QuotaProfile) :
    ∀ a ∈ ResourceQuotasFeature.objectsOf namespaceName
        ⟨profile.key, feature.quotaOf profile, feature.limitsOf profile⟩,
      ∀ b ∈ ResourceQuotasFeature.objectsOf namespaceName
          ⟨profile.key, feature.quotaOf profile, feature.limitsOf profile⟩,
        place a = place b → a = b := by
  intro a aIn b bIn same
  obtain ⟨kind, spec, visible, rfl⟩ := (mem_objectsOf feature profile a).mp aIn
  obtain ⟨kind', spec', visible', rfl⟩ := (mem_objectsOf feature profile b).mp bIn
  have oneKind : kind = kind' := congrArg Prod.fst same
  subst oneKind
  cases visible.symm.trans visible'
  rfl

/-- What a pass writes is an object of its kind under the fixed name. -/
theorem lines_write (live : LiveQuotas namespaceName) (pass : Pass) (line : Line)
    (member : line ∈ pass.lines render live) (object : ManagedQuotaObject)
    (writes : lineWrites line = some object) :
    object.key = ⟨namespaceName, object.kind.objectName⟩ := by
  rcases lines_cases render live pass with nothing | ⟨-, state, wants, applies, lines⟩
  · rw [nothing] at member
    cases member
  · rw [lines] at member
    have wanted := (diffOf_pass state live).writes line member object writes
    obtain ⟨profile, -, objects⟩ := wants_applies render pass state wants applies
    rw [objects] at wanted
    obtain ⟨kind, spec, -, rfl⟩ := (mem_objectsOf pass.feature profile object).mp wanted
    rfl

/-! ## The run -/

/-- What is there after a pass was there before, or is of its kind under the fixed name. -/
theorem after_cases (live : LiveQuotas namespaceName) (pass : Pass) (object : ManagedQuotaObject)
    (member : object ∈ storage.store.applyLines (pass.lines render live) live.objects) :
    object ∈ live.objects ∨ object.key = ⟨namespaceName, object.kind.objectName⟩ := by
  rcases storage.store.mem_applyLines_cases _ _ object member with before |
    ⟨line, inLines, written, writes, -, rfl⟩
  · exact Or.inl before
  · have key : (storage.stored written).key = written.key := congrArg Prod.snd (storage.samePlace written)
    have kind : (storage.stored written).kind = written.kind := congrArg Prod.fst (storage.samePlace written)
    right
    rw [key, kind]
    exact lines_write render live pass line inLines written writes

/-- The namespace after the pass. -/
def Pass.step (live : LiveQuotas namespaceName) (pass : Pass) : LiveQuotas namespaceName where
  objects := storage.store.applyLines (pass.lines render live) live.objects
  distinct := storage.store.nodup_applyLines _ _ live.distinct
  here := by
    intro object member
    rcases after_cases render storage live pass object member with before | fixed
    · exact live.here object before
    · rw [fixed]

/-- A managed object under the fixed name of its kind goes only in an enforcing pass whose
valid profile has no template of that kind. -/
def RemovesOnlyUnreferenced (live : LiveQuotas namespaceName) (pass : Pass) : Prop :=
  ∀ object ∈ live.objects, object.key.name = object.kind.objectName →
    (∀ other ∈ (pass.step render storage live).objects, place other ≠ place object) →
      pass.mode = .enforce ∧ ∃ profile, pass.Applies render profile ∧ profile.ref object.kind = none

theorem removesOnlyUnreferenced (live : LiveQuotas namespaceName) (pass : Pass) :
    RemovesOnlyUnreferenced render storage live pass := by
  intro object inside named gone
  rcases lines_cases render live pass with nothing | ⟨enforces, state, wants, applies, lines⟩
  · have still : object ∈ (pass.step render storage live).objects := by
      change object ∈ storage.store.applyLines (pass.lines render live) live.objects
      rw [nothing]
      exact inside
    exact absurd rfl (gone object still)
  · obtain ⟨profile, resolves, objects⟩ := wants_applies render pass state wants applies
    refine ⟨enforces, profile, resolves, ?_⟩
    by_contra refers
    obtain ⟨spec, wanted⟩ := resolves.wanted object.kind refers
    rw [← objects] at wanted
    obtain ⟨other, isLive, at_, -⟩ := (storage.store.applyLines_wanted (diffOf_pass state live)
      (objects ▸ objects_agree pass.feature profile) (List.Subset.refl _) live.distinct _ wanted).2
    rw [← lines] at isLive
    refine gone other isLive (at_.trans (Prod.ext rfl ?_))
    change ObjectKey.mk namespaceName object.kind.objectName = object.key
    rw [← named, ← live.here object inside]

/-- No managed object has the fixed name of the other kind. -/
def LiveQuotas.Uncrossed (live : LiveQuotas namespaceName) : Prop :=
  ∀ object ∈ live.objects, ∀ kind : QuotaKind, object.key.name = kind.objectName → object.kind = kind

theorem objectName_injective (a b : QuotaKind) (same : a.objectName = b.objectName) : a = b := by
  revert same
  cases a <;> cases b <;> decide

theorem step_uncrossed (live : LiveQuotas namespaceName) (pass : Pass) (uncrossed : live.Uncrossed) :
    (pass.step render storage live).Uncrossed := by
  intro object member kind named
  rcases after_cases render storage live pass object member with before | fixed
  · exact uncrossed object before kind named
  · rw [fixed] at named
    exact objectName_injective _ _ named

/-- The object is the profile's template of its kind, under the fixed name. -/
structure IsCopy (namespaceName : Text) (pass : Pass) (profile : QuotaProfile) (object : ManagedQuotaObject) :
    Prop where
  key : object.key = ⟨namespaceName, object.kind.objectName⟩
  label : object.profile = profile.key
  spec : pass.feature.specOf profile object.kind = some object.spec

/-- The objects are the templates of the profile, one for every reference. -/
structure Mirrors (namespaceName : Text) (pass : Pass) (profile : QuotaProfile)
    (objects : List ManagedQuotaObject) : Prop where
  every : ∀ kind, profile.ref kind ≠ none → ∃ object ∈ objects, object.kind = kind
  only : ∀ object ∈ objects, IsCopy namespaceName pass profile object

/-- An enforcing pass that neither fails nor holds leaves exactly the templates of its profile,
and repeated it gives the store nothing. -/
def AppliesExactly (live : LiveQuotas namespaceName) (pass : Pass) : Prop :=
  pass.mode = .enforce → ∀ state, pass.wants render namespaceName = .ok state → state.hold = false →
    (∃ profile, pass.Applies render profile ∧
      Mirrors namespaceName pass profile (pass.step render storage live).objects) ∧
    pass.lines render (pass.step render storage live) = []

theorem plain_of_uncrossed (live : LiveQuotas namespaceName) (uncrossed : live.Uncrossed)
    (wanted : List ManagedQuotaObject)
    (fixed : ∀ object ∈ wanted, object.key = ⟨namespaceName, object.kind.objectName⟩) :
    ∀ object ∈ wanted, ∀ current ∈ listed live.objects, Managed.key current = Managed.key object →
      Managed.backend current = Managed.backend object := by
  intro object inside current isCurrent same
  apply uncrossed current ((mem_listed live.objects current).mp isCurrent) object.kind
  have key : current.key = object.key := same
  rw [key, fixed object inside]

/-- The store is given the whole diff, or a diff that changes nothing. -/
theorem step_objects (live : LiveQuotas namespaceName) (pass : Pass) (state : DesiredState)
    (enforces : pass.mode = .enforce) (wants : pass.wants render namespaceName = .ok state)
    (applies : state.hold = false) :
    (pass.step render storage live).objects = storage.store.applyLines (diffOfPass state live) live.objects := by
  change storage.store.applyLines (pass.lines render live) live.objects = _
  rw [lines_of_enforce render live pass state enforces wants applies]
  split
  · rfl
  · rename_i silent
    have unchanged := (anyWrite_eq_false _).mp (by simpa using silent)
    rw [storage.store.applyLines_unchanged _ _ unchanged]
    rfl

theorem mirrors_of_carries (pass : Pass) (profile : QuotaProfile) (objects : List ManagedQuotaObject)
    (resolves : pass.Applies render profile)
    (carries : Carries (ResourceQuotasFeature.objectsOf namespaceName
      ⟨profile.key, pass.feature.quotaOf profile, pass.feature.limitsOf profile⟩) objects) :
    Mirrors namespaceName pass profile objects := by
  refine ⟨?_, ?_⟩
  · intro kind refers
    obtain ⟨spec, wanted⟩ := resolves.wanted kind refers
    obtain ⟨object, inside, at_, -⟩ := carries.present _ wanted
    exact ⟨object, inside, congrArg Prod.fst at_⟩
  · intro object inside
    obtain ⟨wanted, isWanted, at_, same⟩ := carries.only object inside
    obtain ⟨kind, spec, visible, rfl⟩ := (mem_objectsOf pass.feature profile wanted).mp isWanted
    obtain ⟨ofKind, label, copied⟩ := (contentEq_iff object _).mp same
    have key : object.key = ⟨namespaceName, kind.objectName⟩ := congrArg Prod.snd at_
    have kindEq : object.kind = kind := ofKind
    exact ⟨by rw [key, kindEq], label, by rw [kindEq, visible, copied]; rfl⟩

/-- A namespace that carries what is wanted is given nothing. -/
theorem anyWrite_of_carries (state : DesiredState) (live : LiveQuotas namespaceName)
    (uncrossed : live.Uncrossed)
    (fixed : ∀ object ∈ state.objects, object.key = ⟨namespaceName, object.kind.objectName⟩)
    (agree : ∀ a ∈ state.objects, ∀ b ∈ state.objects, place a = place b → a = b)
    (carries : Carries state.objects live.objects) : anyWrite (diffOfPass state live) = false := by
  have carriesListed : Carries state.objects (listed live.objects) := by
    refine ⟨?_, ?_⟩
    · intro object inside
      obtain ⟨current, isCurrent, here⟩ := carries.present object inside
      exact ⟨current, (mem_listed live.objects current).mpr isCurrent, here⟩
    · exact fun current isCurrent => carries.only current ((mem_listed live.objects current).mp isCurrent)
  rw [anyWrite_eq_false]
  intro line member
  obtain ⟨key, rfl⟩ := computeDiff_unchanged state.objects (listed live.objects)
    (plain_of_uncrossed live uncrossed _ fixed) agree carriesListed line member
  rfl

theorem appliesExactly (live : LiveQuotas namespaceName) (pass : Pass) (uncrossed : live.Uncrossed) :
    AppliesExactly render storage live pass := by
  intro enforces state wants applies
  obtain ⟨profile, resolves, objects⟩ := wants_applies render pass state wants applies
  have agree : ∀ a ∈ state.objects, ∀ b ∈ state.objects, place a = place b → a = b :=
    objects ▸ objects_agree pass.feature profile
  have fixed : ∀ object ∈ state.objects, object.key = ⟨namespaceName, object.kind.objectName⟩ :=
    objects ▸ fixed_objectsOf pass.feature profile
  have clears : Clears state.objects live.objects (diffOfPass state live) := fun current isCurrent =>
    clears_computeDiff state.objects (listed live.objects) (plain_of_uncrossed live uncrossed _ fixed) current
      ((mem_listed live.objects current).mpr isCurrent)
  have carries := (diffOf_pass state live).carries storage agree live.distinct clears
  rw [← step_objects render storage live pass state enforces wants applies] at carries
  refine ⟨⟨profile, resolves, mirrors_of_carries render pass profile _ resolves (objects ▸ carries)⟩, ?_⟩
  have next := step_uncrossed render storage live pass uncrossed
  rw [lines_of_enforce render _ pass state enforces wants applies,
    anyWrite_of_carries state _ next fixed agree carries]
  rfl

/-- Over every sequence of passes from any managed objects: one under its kind's fixed name goes
only by an enforcing pass whose valid profile has no template of that kind. Where no object has
the other kind's fixed name, every enforcing pass that neither fails nor holds leaves exactly the
templates of its profile, and nothing for its repetition. -/
theorem quotas_kept_along (start : LiveQuotas namespaceName) (passes : List Pass) :
    Along (Pass.step render storage) (RemovesOnlyUnreferenced render storage) start passes ∧
      (start.Uncrossed → Along (Pass.step render storage) (AppliesExactly render storage) start passes) := by
  have all : ∀ live : LiveQuotas namespaceName,
      Along (Pass.step render storage) (fun _ _ => True) live passes :=
    along_of_forall _ (fun _ => True) passes fun _ _ => trivial
  constructor
  · exact along_of_invariant (Pass.step render storage) (fun _ => True) (fun _ _ => True) _
      (fun _ _ _ _ => trivial) (fun live pass _ _ => removesOnlyUnreferenced render storage live pass)
      start trivial passes (all start)
  · intro uncrossed
    exact along_of_invariant (Pass.step render storage) LiveQuotas.Uncrossed (fun _ _ => True) _
      (fun live pass inv _ => step_uncrossed render storage live pass inv)
      (fun live pass inv _ => appliesExactly render storage live pass inv) start uncrossed passes (all start)

end Passes

/-! ## Other names -/

/-- A store that keeps objects as they were written. -/
def plainStorage : Storage ManagedQuotaObject where
  stored := id
  samePlace _ := rfl
  sameContent object := (contentEq_iff object object).mpr ⟨rfl, rfl, rfl⟩

/-- The namespace of the examples. -/
def exampleNamespace : Text := "user-bob".toList

def emptyTemplate : TemplateRef := ⟨"t".toList, "templates".toList⟩

/-- An enforcing pass under a catalogue of one profile, whose templates are empty. -/
def passOf (profile : QuotaProfile) : Pass where
  feature := ⟨some ⟨⟨[profile], profile.key, .deny⟩, []⟩,
    ⟨fun _ => some ⟨.object []⟩, fun _ => some ⟨.object []⟩⟩, "templates".toList⟩
  teams := []
  labels := []
  annotated := none
  usage := none
  foreign := ⟨0, 0⟩
  mode := .enforce

def quotaProfile : QuotaProfile := ⟨"p".toList, some emptyTemplate, none⟩

def limitsProfile : QuotaProfile := ⟨"p".toList, none, some emptyTemplate⟩

/-- A namespace with one managed quota of this name. -/
def oneQuota (name : Text) : LiveQuotas exampleNamespace where
  objects := [⟨⟨exampleNamespace, name⟩, .resourceQuota, "p".toList, .object [], none⟩]
  distinct := by simp
  here := by simp

theorem quotas_kept_one :
    AppliesExactly (fun _ => []) plainStorage (oneQuota quotaName) (passOf limitsProfile) :=
  ((quotas_kept_along (fun _ => []) plainStorage (oneQuota quotaName) [passOf limitsProfile]).2
    (by
      intro object member kind named
      cases List.mem_singleton.mp member
      exact objectName_injective .resourceQuota kind named)).1

/-- The only profile of the catalogue is the one that is resolved. -/
theorem applies_passOf (profile other : QuotaProfile) (applies : (passOf profile).Applies (fun _ => []) other) :
    other = profile := by
  obtain ⟨config, provenance, loaded, resolved, found⟩ := applies.resolved
  cases loaded
  cases resolved
  have first := List.mem_of_find?_eq_some found
  exact List.mem_singleton.mp first

/-- A managed quota under another name goes though the profile has a quota, and one under the
name of the limit range is met as it on every pass. -/
theorem other_names_not_kept :
    (¬ ∀ object ∈ (oneQuota "old".toList).objects,
      (∀ other ∈ ((passOf quotaProfile).step (fun _ => []) plainStorage (oneQuota "old".toList)).objects,
        place other ≠ place object) →
      (passOf quotaProfile).mode = .enforce ∧
        ∃ profile, (passOf quotaProfile).Applies (fun _ => []) profile ∧ profile.ref object.kind = none) ∧
    ¬ AppliesExactly (fun _ => []) plainStorage (oneQuota limitsName) (passOf limitsProfile) := by
  constructor
  · intro claim
    have gone : ∀ other ∈ ((passOf quotaProfile).step (fun _ => []) plainStorage (oneQuota "old".toList)).objects,
        place other ≠ place (⟨⟨exampleNamespace, "old".toList⟩, .resourceQuota, "p".toList, .object [], none⟩ :
          ManagedQuotaObject) := by decide +kernel
    obtain ⟨-, profile, applies, none_⟩ := claim _ List.mem_cons_self gone
    rw [applies_passOf quotaProfile profile applies] at none_
    cases none_
  · intro claim
    have again := (claim rfl _ rfl rfl).2
    exact absurd again (by decide +kernel)

end WeeboSi.ResourceQuotas
