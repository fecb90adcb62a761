import WeeboSi.RegistryConfig.Desired

/-!
# What a pass takes away

Source: crates/weebo-si-registry-config/src/model/diff.rs:114-152 and application.rs:59-97. A copy
is deleted because a pass found it neither wanted nor held. A pass that resolved the request wants
or holds every source of every resolved key; a pass that refused it wants and holds nothing, and
so takes every copy the namespace has.
-/
namespace WeeboSi.RegistryConfig
open WeeboSi.Lib WeeboSi.Crd WeeboSi.Chassis
open WeeboSi.NetworkProfiles (TemplateRef)

abbrev Line := Diff ManagedObject SourceKind

/-- One diff a kind, less what is held. -/
def computeHeldDiff (wanted : List ManagedObject) (held : List ObjectKey) (existing : List ManagedObject) :
    List Line :=
  let live := existing.filter fun object => !held.contains object.key
  let kinds := ((wanted ++ live).map ManagedObject.kind).eraseDups
  kinds.flatMap fun kind =>
    computeDiff (wanted.filter fun object => object.kind = kind) (live.filter fun object => object.kind = kind)

structure ObjectStore where
  managedEverywhere : List ManagedObject
  apply : List Line → Except DomainError Applied

def ObjectStore.managedIn (store : ObjectStore) (namespaceName : Text) : List ManagedObject :=
  store.managedEverywhere.filter fun object => object.key.namespaceName = namespaceName

structure ReconcileOutcome where
  namespaceName : Text
  diffs : List Line
  applied : Option Applied
  team : Option Text
  notGranted : List RegistryKey
  refused : List RefusedTemplate
  held : List ObjectKey
  ready : Bool
  deriving DecidableEq, Repr

def ReconcileOutcome.of (subject : NamespaceSubject) (state : DesiredState) (diffs : List Line)
    (applied : Option Applied) : ReconcileOutcome :=
  ⟨subject.namespaceName, diffs, applied, state.team, state.notGranted, state.refused, state.held,
    state.isReady⟩

/-- The outcome of a pass, with the lines it gave the store to apply. -/
def reconcile (feature : NamespaceSubject → Except DomainError DesiredState) (subject : NamespaceSubject)
    (mode : FeatureMode) (store : ObjectStore) : Except DomainError ReconcileOutcome × List Line :=
  if mode = .off then
    (.error (.invalidConfiguration
      ("reconcile called with mode Off — the caller must skip reconciling an Off feature " ++
        "rather than call this function at all").toList), [])
  else
    match feature subject with
    | .error error => (.error error, [])
    | .ok state =>
      let diffs := computeHeldDiff state.objects state.held (store.managedIn subject.namespaceName)
      if mode = .enforce then
        match store.apply diffs with
        | .error error => (.error error, diffs)
        | .ok applied => (.ok (.of subject state diffs (some applied)), diffs)
      else (.ok (.of subject state diffs none), [])

/-! ## The lines of a diff -/

/-- A live copy is deleted exactly when it is neither held nor wanted in its own kind. -/
theorem delete_mem_computeHeldDiff (wanted : List ManagedObject) (held : List ObjectKey)
    (existing : List ManagedObject) (copy : ManagedObject) (live : copy ∈ existing) :
    Diff.delete copy.key copy.kind none ∈ computeHeldDiff wanted held existing ↔
      copy.key ∉ held ∧ ∀ object ∈ wanted, object.kind = copy.kind → object.key ≠ copy.key := by
  simp only [computeHeldDiff, List.mem_flatMap, delete_mem_computeDiff]
  constructor
  · rintro ⟨kind, -, present, inLive, free, sameKey, sameKind, -⟩
    obtain ⟨unheld, isKind⟩ := List.mem_filter.mp inLive
    have notHeld := (List.mem_filter.mp unheld).2
    change present.key = copy.key at sameKey
    change present.kind = copy.kind at sameKind
    have own : kind = copy.kind := (of_decide_eq_true isKind).symm.trans sameKind
    constructor
    · rw [← sameKey]
      simpa using notHeld
    · intro object inWanted ofKind taken
      have listed : object ∈ wanted.filter fun object => object.kind = kind :=
        List.mem_filter.mpr ⟨inWanted, decide_eq_true (ofKind.trans own.symm)⟩
      exact free object listed (taken.trans sameKey.symm)
  · rintro ⟨unheld, free⟩
    have inLive : copy ∈ existing.filter fun object => !held.contains object.key :=
      List.mem_filter.mpr ⟨live, by simpa using unheld⟩
    refine ⟨copy.kind, ?_, copy, ?_, ?_, rfl, rfl, rfl⟩
    · exact List.mem_eraseDups.mpr (List.mem_map_of_mem (List.mem_append_right _ inLive))
    · exact List.mem_filter.mpr ⟨inLive, decide_eq_true rfl⟩
    · intro object listed
      obtain ⟨inWanted, ofKind⟩ := List.mem_filter.mp listed
      exact free object inWanted (of_decide_eq_true ofKind)

/-! ## What a pass wants or holds -/

/-- A copy of this kind is among the objects, or its key is held. -/
def DesiredState.Covers (state : DesiredState) (key : ObjectKey) (kind : SourceKind) : Prop :=
  key ∈ state.held ∨ ∃ object ∈ state.objects, object.key = key ∧ object.kind = kind

section Covered
variable (templates : TemplateStore) (namespaceName : Text)

theorem copySource_cases (key : RegistryKey) (state : DesiredState) (source : RegistrySource) :
    (∃ refusal, copySource templates namespaceName key state source =
        state.hold namespaceName key source refusal) ∨
      ∃ object, copySource templates namespaceName key state source =
          { state with objects := state.objects ++ [object] } ∧
        object.key = copyKey namespaceName key source ∧ object.kind = source.kind := by
  rw [copySource]
  split
  · exact Or.inl ⟨none, rfl⟩
  · split
    · next refusal _ => exact Or.inl ⟨some refusal, rfl⟩
    · exact Or.inr ⟨_, rfl, rfl, rfl⟩

theorem copySource_keeps (key : RegistryKey) (state : DesiredState) (source : RegistrySource)
    (place : ObjectKey) (kind : SourceKind) (covered : state.Covers place kind) :
    (copySource templates namespaceName key state source).Covers place kind := by
  obtain ⟨refusal, same⟩ | ⟨object, same, -, -⟩ := copySource_cases templates namespaceName key state source
  · rw [same]
    exact covered.imp (List.mem_append_left _) id
  · rw [same]
    obtain held | ⟨other, inside, its⟩ := covered
    · exact Or.inl held
    · exact Or.inr ⟨other, List.mem_append_left _ inside, its⟩

theorem copySource_covers (key : RegistryKey) (state : DesiredState) (source : RegistrySource) :
    (copySource templates namespaceName key state source).Covers (copyKey namespaceName key source)
      source.kind := by
  obtain ⟨refusal, same⟩ | ⟨object, same, its⟩ := copySource_cases templates namespaceName key state source
  · rw [same]
    exact Or.inl (List.mem_append_right _ List.mem_cons_self)
  · rw [same]
    exact Or.inr ⟨object, List.mem_append_right _ List.mem_cons_self, its⟩

theorem foldl_copySource_keeps (key : RegistryKey) (sources : List RegistrySource) (state : DesiredState)
    (place : ObjectKey) (kind : SourceKind) (covered : state.Covers place kind) :
    (sources.foldl (copySource templates namespaceName key) state).Covers place kind := by
  induction sources generalizing state with
  | nil => exact covered
  | cons source sources ih => exact ih _ (copySource_keeps templates namespaceName key state source _ _ covered)

theorem foldl_copySource_covers (key : RegistryKey) (sources : List RegistrySource) (state : DesiredState)
    (source : RegistrySource) (member : source ∈ sources) :
    (sources.foldl (copySource templates namespaceName key) state).Covers
      (copyKey namespaceName key source) source.kind := by
  induction sources generalizing state with
  | nil => cases member
  | cons first sources ih =>
    rw [List.foldl_cons]
    obtain rfl | later := List.mem_cons.mp member
    · exact foldl_copySource_keeps templates namespaceName key sources _ _ _
        (copySource_covers templates namespaceName key state source)
    · exact ih _ later

variable (config : RegistryConfigSpec)

theorem copyKeys_keeps (keys : List RegistryKey) (state after : DesiredState) (place : ObjectKey)
    (kind : SourceKind) (done : copyKeys templates namespaceName config keys state = .ok after)
    (covered : state.Covers place kind) : after.Covers place kind := by
  induction keys generalizing state with
  | nil =>
    cases done
    exact covered
  | cons key keys ih =>
    rw [copyKeys] at done
    split at done
    · cases done
    · exact ih _ done (foldl_copySource_keeps templates namespaceName key _ state _ _ covered)

/-- Every source of every key is covered when the loop ends. -/
theorem copyKeys_covers (keys : List RegistryKey) (state after : DesiredState)
    (done : copyKeys templates namespaceName config keys state = .ok after) (key : RegistryKey)
    (member : key ∈ keys) (entry : RegistryEntry) (found : config.entry key = some entry)
    (source : RegistrySource) (inside : source ∈ entry.sources) :
    after.Covers (copyKey namespaceName key source) source.kind := by
  induction keys generalizing state with
  | nil => cases member
  | cons first keys ih =>
    rw [copyKeys] at done
    split at done
    · cases done
    · next expanded here =>
      obtain rfl | later := List.mem_cons.mp member
      · cases here.symm.trans found
        exact copyKeys_keeps templates namespaceName config keys _ _ _ _ done
          (foldl_copySource_covers templates namespaceName key entry.sources state source inside)
      · exact ih _ done later

end Covered

/-! ## Refusals -/

section Refusal
variable (teams : List Team) (config : ResolvedRegistryConfig) (labels : Labels) (annotated : Option Text)

/-- The request names a key that is not granted, and such a request is denied. -/
def Refused : Prop :=
  config.config.onNotGranted = .deny ∧
    ∃ key ∈ (requestedKeys annotated (grantOf teams config labels)).1,
      key ∉ (grantOf teams config labels).allowed

theorem refused_iff : Refused teams config labels annotated ↔
    ∃ notGranted, resolve teams config labels annotated = .error notGranted := by
  have named : ((requestedKeys annotated (grantOf teams config labels)).1.filter fun key =>
      !(grantOf teams config labels).allowed.contains key) = [] ↔
        ¬∃ key ∈ (requestedKeys annotated (grantOf teams config labels)).1,
          key ∉ (grantOf teams config labels).allowed := by
    simp [List.filter_eq_nil_iff]
  rw [Refused, resolve]
  dsimp only
  split
  · next granted => exact iff_of_false (fun refused => named.mp granted refused.2) (by simp)
  · next some_ =>
    have outside := not_not.mp (mt named.mpr some_)
    cases config.config.onNotGranted with
    | deny => exact iff_of_true ⟨rfl, outside⟩ ⟨_, rfl⟩
    | default => simp

/-- The request was resolved, and no source of a resolved key has the copy's kind and name. -/
def Unconfigured (copy : ManagedObject) : Prop :=
  ∃ provenance, resolve teams config labels annotated = .ok provenance ∧
    ∀ key ∈ provenance.resolved, ∀ entry, config.config.entry key = some entry →
      ∀ source ∈ entry.sources,
        ¬(source.kind = copy.kind ∧ copyName key source.templateRef.name = copy.key.name)

end Refusal

/-! ## The result -/

section Pass
variable (templates : TemplateStore) (loaded : Option ResolvedRegistryConfig) (subject : NamespaceSubject)
variable (teams : List Team) (labels : Labels) (store : ObjectStore)

/-- The lines an enforcing pass gives the store. -/
def enforced : List Line :=
  (reconcile (fun subject => desired templates loaded subject teams labels) subject .enforce store).2

/-- A live copy is deleted only when it is not configured any more. -/
def RemovesOnlyUnconfigured : Prop :=
  ∀ copy ∈ store.managedIn subject.namespaceName,
    Diff.delete copy.key copy.kind none ∈ enforced templates loaded subject teams labels store →
      ∃ config, loaded = some config ∧ Unconfigured teams config labels subject.annotated copy

/-- What an enforcing pass applies is the diff of what it wants. -/
theorem enforced_cases : (∃ error, desired templates loaded subject teams labels = .error error ∧
      enforced templates loaded subject teams labels store = []) ∨
    ∃ state, desired templates loaded subject teams labels = .ok state ∧
      enforced templates loaded subject teams labels store =
        computeHeldDiff state.objects state.held (store.managedIn subject.namespaceName) := by
  rw [enforced, reconcile, if_neg (by decide)]
  cases wants : desired templates loaded subject teams labels with
  | error error => exact Or.inl ⟨error, rfl, rfl⟩
  | ok state =>
    refine Or.inr ⟨state, rfl, ?_⟩
    dsimp only
    rw [if_pos rfl]
    split <;> rfl

/-- A pass that resolved the request covers what is configured, so what it deletes is not. -/
theorem unconfigured_of_deleted (config : ResolvedRegistryConfig) (provenance : Provenance)
    (resolved : resolve teams config labels subject.annotated = .ok provenance) (copy : ManagedObject)
    (live : copy ∈ store.managedIn subject.namespaceName)
    (deleted : Diff.delete copy.key copy.kind none ∈
      enforced templates (some config) subject teams labels store) :
    Unconfigured teams config labels subject.annotated copy := by
  obtain ⟨error, -, nothing⟩ | ⟨state, wants, lines⟩ :=
    enforced_cases templates (some config) subject teams labels store
  · rw [nothing] at deleted
    cases deleted
  · rw [lines, delete_mem_computeHeldDiff _ _ _ _ live] at deleted
    simp only [desired, resolved] at wants
    refine ⟨provenance, resolved, ?_⟩
    rintro key listed entry found source inside ⟨sameKind, sameName⟩
    have place : copyKey subject.namespaceName key source = copy.key := by
      have here := of_decide_eq_true (List.mem_filter.mp live).2
      rw [copyKey, sameName, ← here]
    have covered := copyKeys_covers templates subject.namespaceName config.config _ _ _ wants key listed entry
      found source inside
    rw [place, sameKind] at covered
    obtain held | ⟨object, wanted, ofKey, ofKind⟩ := covered
    · exact deleted.1 held
    · exact deleted.2 object wanted ofKind ofKey

/-- A pass that refused the request deletes every copy. -/
theorem refused_deletes (config : ResolvedRegistryConfig) (notGranted : NotGranted)
    (refused : resolve teams config labels subject.annotated = .error notGranted) (copy : ManagedObject)
    (live : copy ∈ store.managedIn subject.namespaceName) :
    Diff.delete copy.key copy.kind none ∈ enforced templates (some config) subject teams labels store := by
  have wants : desired templates (some config) subject teams labels =
      .ok ⟨[], notGranted.team, notGranted.requested, [], []⟩ := by
    simp only [desired, refused]
  obtain ⟨error, failed, -⟩ | ⟨state, found, lines⟩ :=
    enforced_cases templates (some config) subject teams labels store
  · cases failed.symm.trans wants
  · cases found.symm.trans wants
    rw [lines, delete_mem_computeHeldDiff _ _ _ _ live]
    exact ⟨List.not_mem_nil, fun object member => absurd member List.not_mem_nil⟩

/-- A pass takes only unconfigured copies away exactly when it does not refuse the request of a
namespace that has copies. -/
theorem removesOnlyUnconfigured_iff :
    RemovesOnlyUnconfigured templates loaded subject teams labels store ↔
      ∀ config, loaded = some config → Refused teams config labels subject.annotated →
        store.managedIn subject.namespaceName = [] := by
  constructor
  · rintro sound config rfl refused
    obtain ⟨notGranted, denied⟩ := (refused_iff teams config labels subject.annotated).mp refused
    refine List.eq_nil_iff_forall_not_mem.mpr fun copy live => ?_
    have deleted := refused_deletes templates subject teams labels store config notGranted denied copy live
    obtain ⟨same, loaded, provenance, resolved, -⟩ := sound copy live deleted
    cases loaded
    cases denied.symm.trans resolved
  · intro unrefused copy live deleted
    cases loaded with
    | none =>
      obtain ⟨error, -, nothing⟩ | ⟨state, wants, -⟩ :=
        enforced_cases templates none subject teams labels store
      · rw [nothing] at deleted
        cases deleted
      · cases wants
    | some config =>
      refine ⟨config, rfl, ?_⟩
      cases outcome : resolve teams config labels subject.annotated with
      | error notGranted =>
        have refused := (refused_iff teams config labels subject.annotated).mpr ⟨_, outcome⟩
        have empty := unrefused config rfl refused
        rw [empty] at live
        cases live
      | ok provenance =>
        exact unconfigured_of_deleted templates subject teams labels store config provenance outcome copy live
          deleted

end Pass

/-! ## A refused request -/

namespace Sample

def npmrc : TemplateRef := ⟨"weebo-npmrc".toList, "weebo-si".toList⟩

def config : ResolvedRegistryConfig where
  config := ⟨[⟨"internal-npm".toList, [⟨.configMap, npmrc⟩]⟩], .deny⟩
  grants := [("team1".toList, ⟨["internal-npm".toList], ["internal-npm".toList]⟩)]

def team : Team := ⟨"team1".toList, ⟨[], []⟩⟩

def template : Template where
  labels := [(mountToDevworkspaceKey, "true".toList)]
  annotations := [(mountAsKey, "subpath".toList)]
  body := [1]

def templates : TemplateStore := fun _ _ => some template

def copy : ManagedObject where
  key := ⟨"user-alice".toList, "weebo-si-internal-npm-weebo-npmrc".toList⟩
  kind := .configMap
  entry := "internal-npm".toList
  labels := template.labels
  annotations := template.annotations
  body := template.body

def store : ObjectStore where
  managedEverywhere := [copy]
  apply := fun _ => .ok ⟨0, 0, 0, 0⟩

end Sample

/-- An annotation with a key that is not granted takes the granted copy away. -/
theorem refused_request_removes :
    enforced Sample.templates (some Sample.config) ⟨"user-alice".toList, none⟩ [Sample.team] [] Sample.store =
        [.unchanged Sample.copy.key] ∧
      enforced Sample.templates (some Sample.config) ⟨"user-alice".toList, some "nope".toList⟩ [Sample.team] []
          Sample.store = [.delete Sample.copy.key .configMap none] ∧
      ¬RemovesOnlyUnconfigured Sample.templates (some Sample.config)
        ⟨"user-alice".toList, some "nope".toList⟩ [Sample.team] [] Sample.store := by
  have deleted : enforced Sample.templates (some Sample.config) ⟨"user-alice".toList, some "nope".toList⟩
      [Sample.team] [] Sample.store = [.delete Sample.copy.key .configMap none] := by
    decide
  refine ⟨by decide, deleted, fun sound => ?_⟩
  obtain ⟨config, loaded, provenance, resolved, -⟩ :=
    sound Sample.copy (by decide) (deleted ▸ List.mem_singleton_self _)
  cases loaded
  have denied : resolve [Sample.team] Sample.config [] (some "nope".toList) =
      .error ⟨some "team1".toList, ["nope".toList]⟩ := by
    decide
  cases denied.symm.trans resolved

end WeeboSi.RegistryConfig
