import WeeboSi.Chassis.Apply
import WeeboSi.RegistryConfig.Removal

/-!
# One copy a source

Source: crates/weebo-si-crd/src/registry_config.rs:384-568, feature/registry_config.rs:116-182 and
model/diff.rs:111-152. `validate` keeps two records of a catalogue: the sources of one entry with
their template namespaces, and the names of copies with the entry that claimed them. A copy's
name has no template namespace in it.
-/
namespace WeeboSi.RegistryConfig
open WeeboSi.Lib WeeboSi.Crd WeeboSi.Chassis
open WeeboSi.NetworkProfiles (TemplateRef)

inductive RegistryConfigViolation where
  | duplicateRegistryKey (key : RegistryKey)
  | entryHasNoSources (key : RegistryKey)
  | entryHasDuplicateSource (entry : RegistryKey) (kind : SourceKind) (name : Text)
  | duplicateCopyName (name : Text) (entry : RegistryKey)
  | grantDefaultOutsideAllowed (team : Text) (key : RegistryKey)
  | grantAllowedUnknownKey (team : Text) (key : RegistryKey)
  | grantNamesUndeclaredTeam (team : Text)
  deriving DecidableEq, Repr

def SourceKind.asStr : SourceKind → Text
  | .configMap => "ConfigMap".toList
  | .secret => "Secret".toList

def RegistryConfigViolation.display : RegistryConfigViolation → Text
  | .duplicateRegistryKey key => "registry key ".toList ++ key ++ " is declared twice".toList
  | .entryHasNoSources key => "registry entry ".toList ++ key ++ " has no sources".toList
  | .entryHasDuplicateSource entry kind name =>
    "registry entry ".toList ++ entry ++ " names the same ".toList ++ kind.asStr ++ " source ".toList ++ name
      ++ " more than once".toList
  | .duplicateCopyName name entry =>
    "registry entry ".toList ++ entry ++ " would write a copy named ".toList ++ name
      ++ ", which another entry already claims".toList
  | .grantDefaultOutsideAllowed team key =>
    "grant for team ".toList ++ team ++ " defaults to ".toList ++ key
      ++ ", which is outside its own allowed set".toList
  | .grantAllowedUnknownKey team key =>
    "grant for team ".toList ++ team ++ " allows uncatalogued key ".toList ++ key
  | .grantNamesUndeclaredTeam team =>
    "grant names team ".toList ++ team ++ ", which no WeeboSiTeam declares".toList

/-! ## The checks -/

structure CatalogScan where
  seenKeys : List RegistryKey
  seenCopyNames : List (Text × RegistryKey)
  violations : List RegistryConfigViolation

def CatalogScan.report (scan : CatalogScan) (violation : RegistryConfigViolation) : CatalogScan :=
  { scan with violations := scan.violations ++ [violation] }

/-- A name belongs to the first entry that claims it. -/
def CatalogScan.claim (scan : CatalogScan) (key : RegistryKey) (name : Text) : CatalogScan :=
  match scan.seenCopyNames.lookup name with
  | some claimed =>
    if claimed ≠ key then scan.report (.duplicateCopyName name key)
    else { scan with seenCopyNames := (name, key) :: scan.seenCopyNames }
  | none => { scan with seenCopyNames := (name, key) :: scan.seenCopyNames }

/-- The sources of the entry so far go along with the scan. -/
def scanSource (key : RegistryKey) (state : CatalogScan × List RegistrySource) (source : RegistrySource) :
    CatalogScan × List RegistrySource :=
  let scan := if state.2.contains source then
      state.1.report (.entryHasDuplicateSource key source.kind source.templateRef.name)
    else state.1
  (scan.claim key (copyName key source.templateRef.name), source :: state.2)

def scanEntry (scan : CatalogScan) (entry : RegistryEntry) : CatalogScan :=
  let scan := if scan.seenKeys.contains entry.key then scan.report (.duplicateRegistryKey entry.key)
    else { scan with seenKeys := entry.key :: scan.seenKeys }
  let scan := if entry.sources = [] then scan.report (.entryHasNoSources entry.key) else scan
  (entry.sources.foldl (scanSource entry.key) (scan, [])).1

def grantViolations (config : ResolvedRegistryConfig) (teams : List Team) (grant : Text × RegistryGrant) :
    List RegistryConfigViolation :=
  (if (teams.map Team.name).contains grant.1 then [] else [.grantNamesUndeclaredTeam grant.1])
    ++ ((grant.2.allowed.filter fun key => (config.config.entry key).isNone).map
      (.grantAllowedUnknownKey grant.1))
    ++ ((grant.2.default.filter fun key => !grant.2.allowed.contains key).map
      (.grantDefaultOutsideAllowed grant.1))

/-- Every violation of the catalogue, then of the grants in the order of their teams. -/
def validate (config : ResolvedRegistryConfig) (teams : List Team) : List RegistryConfigViolation :=
  (config.config.catalog.foldl scanEntry ⟨[], [], []⟩).violations
    ++ (config.grants.insertionSort fun a b => textLe a.1 b.1 = true).flatMap (grantViolations config teams)

/-! ## What a clean scan has seen -/

/-- The scan reported nothing, and the names of `done` belong to their entries. -/
structure Claimed (scan : CatalogScan) (done : List (RegistryKey × RegistrySource)) : Prop where
  clean : scan.violations = []
  names : ∀ pair ∈ done, scan.seenCopyNames.lookup (copyName pair.1 pair.2.templateRef.name) = some pair.1

theorem report_not_clean (scan : CatalogScan) (violation : RegistryConfigViolation) :
    (scan.report violation).violations ≠ [] := by
  simp [CatalogScan.report]

theorem claim_clean (scan : CatalogScan) (key : RegistryKey) (name : Text)
    (clean : (scan.claim key name).violations = []) :
    scan.violations = [] ∧ (scan.claim key name).seenCopyNames = (name, key) :: scan.seenCopyNames ∧
      ∀ claimed, scan.seenCopyNames.lookup name = some claimed → claimed = key := by
  unfold CatalogScan.claim at clean ⊢
  cases found : scan.seenCopyNames.lookup name with
  | none =>
    simp only [found] at clean
    exact ⟨clean, rfl, by simp⟩
  | some claimed =>
    simp only [found] at clean ⊢
    by_cases other : claimed = key
    · simp only [other, ne_eq, not_true_eq_false, if_false] at clean ⊢
      exact ⟨clean, by simp⟩
    · simp only [ne_eq, other, not_false_eq_true, if_true] at clean
      exact absurd clean (report_not_clean _ _)

/-- One source of a clean scan. -/
theorem scanSource_clean (key : RegistryKey) (state : CatalogScan × List RegistrySource)
    (source : RegistrySource) (clean : (scanSource key state source).1.violations = []) :
    state.1.violations = [] ∧
      ∀ done, Claimed state.1 done → Claimed (scanSource key state source).1 (done ++ [(key, source)]) := by
  unfold scanSource at clean ⊢
  dsimp only at clean ⊢
  obtain ⟨before, names, own⟩ := claim_clean _ key _ clean
  by_cases again : state.2.contains source = true
  · rw [if_pos again] at before
    exact absurd before (report_not_clean _ _)
  · rw [if_neg again] at before clean names own ⊢
    refine ⟨before, fun done claimed => ⟨clean, ?_⟩⟩
    intro pair member
    rw [names, List.lookup_cons]
    by_cases same : copyName pair.1 pair.2.templateRef.name = copyName key source.templateRef.name
    · rw [beq_iff_eq.mpr same]
      rcases List.mem_append.mp member with earlier | last
      · have held := claimed.names pair earlier
        rw [same] at held
        rw [own pair.1 held]
      · cases List.mem_singleton.mp last
        rfl
    · have apart :
          (copyName pair.1 pair.2.templateRef.name == copyName key source.templateRef.name) = false := by
        simpa using same
      rcases List.mem_append.mp member with earlier | last
      · rw [apart]
        exact claimed.names pair earlier
      · cases List.mem_singleton.mp last
        exact absurd rfl same

theorem scanSources_clean (key : RegistryKey) (sources : List RegistrySource)
    (state : CatalogScan × List RegistrySource)
    (clean : (sources.foldl (scanSource key) state).1.violations = []) :
    state.1.violations = [] ∧ ∀ done, Claimed state.1 done →
      Claimed (sources.foldl (scanSource key) state).1 (done ++ sources.map fun source => (key, source)) := by
  induction sources generalizing state with
  | nil => exact ⟨clean, fun done claimed => by simpa using claimed⟩
  | cons source rest ih =>
    obtain ⟨next, later⟩ := ih (scanSource key state source) clean
    obtain ⟨before, here⟩ := scanSource_clean key state source next
    refine ⟨before, fun done claimed => ?_⟩
    have whole := later _ (here done claimed)
    rwa [List.append_assoc] at whole

/-- Every source of an entry, with the key of the entry. -/
def RegistryEntry.claims (entry : RegistryEntry) : List (RegistryKey × RegistrySource) :=
  entry.sources.map fun source => (entry.key, source)

theorem scanEntry_clean (scan : CatalogScan) (entry : RegistryEntry)
    (clean : (scanEntry scan entry).violations = []) :
    scan.violations = [] ∧
      ∀ done, Claimed scan done → Claimed (scanEntry scan entry) (done ++ entry.claims) := by
  unfold scanEntry at clean ⊢
  dsimp only at clean ⊢
  obtain ⟨before, later⟩ := scanSources_clean entry.key entry.sources _ clean
  have named : entry.sources ≠ [] := by
    intro empty
    rw [if_pos empty] at before
    exact report_not_clean _ _ before
  simp only [if_neg named] at before later ⊢
  by_cases again : scan.seenKeys.contains entry.key = true
  · rw [if_pos again] at before
    exact absurd before (report_not_clean _ _)
  · rw [if_neg again] at before later ⊢
    exact ⟨before, fun done claimed => later done ⟨claimed.clean, claimed.names⟩⟩

theorem scanEntries_clean (entries : List RegistryEntry) (scan : CatalogScan)
    (clean : (entries.foldl scanEntry scan).violations = []) :
    scan.violations = [] ∧ ∀ done, Claimed scan done →
      Claimed (entries.foldl scanEntry scan) (done ++ entries.flatMap RegistryEntry.claims) := by
  induction entries generalizing scan with
  | nil => exact ⟨clean, fun done claimed => by simpa using claimed⟩
  | cons entry rest ih =>
    obtain ⟨next, later⟩ := ih (scanEntry scan entry) clean
    obtain ⟨before, here⟩ := scanEntry_clean scan entry next
    refine ⟨before, fun done claimed => ?_⟩
    have whole := later _ (here done claimed)
    rwa [List.append_assoc] at whole

/-- Two entries of a catalogue that passes never claim one name. -/
theorem validate_names (config : ResolvedRegistryConfig) (teams : List Team)
    (valid : validate config teams = []) (a b : RegistryEntry) (aIn : a ∈ config.config.catalog)
    (bIn : b ∈ config.config.catalog) (s t : RegistrySource) (sIn : s ∈ a.sources) (tIn : t ∈ b.sources)
    (same : copyName a.key s.templateRef.name = copyName b.key t.templateRef.name) : a.key = b.key := by
  have clean := (List.append_eq_nil_iff.mp valid).1
  obtain ⟨-, all⟩ := scanEntries_clean config.config.catalog ⟨[], [], []⟩ clean
  have claimed := all [] ⟨rfl, by simp⟩
  rw [List.nil_append] at claimed
  have first := claimed.names (a.key, s)
    (List.mem_flatMap.mpr ⟨a, aIn, List.mem_map_of_mem sIn⟩)
  have second := claimed.names (b.key, t)
    (List.mem_flatMap.mpr ⟨b, bIn, List.mem_map_of_mem tIn⟩)
  dsimp only at first second
  rw [same, second] at first
  exact (Option.some.inj first).symm

/-! ## What a namespace reaches -/

section Reach
variable (teams : List Team) (config : ResolvedRegistryConfig) (labels : Labels)

/-- Some annotation makes the namespace resolve this key. -/
def Reaches (key : RegistryKey) : Prop :=
  ∃ annotated provenance, resolve teams config labels annotated = .ok provenance ∧ key ∈ provenance.resolved

/-- A source the namespace gets a copy of, under the key it is reached by. -/
structure ReachableSource (key : RegistryKey) (source : RegistrySource) : Prop where
  reached : Reaches teams config labels key
  listed : ∃ entry, config.config.entry key = some entry ∧ source ∈ entry.sources

/-- Different sources have different copies. -/
def DistinctCopies : Prop :=
  ∀ key source other source', ReachableSource teams config labels key source →
    ReachableSource teams config labels other source' → (key, source) ≠ (other, source') →
      (source.kind, copyName key source.templateRef.name) ≠
        (source'.kind, copyName other source'.templateRef.name)

/-- Every template is there and may be copied. -/
def Available (templates : TemplateStore) : Prop :=
  ∀ key source, ReachableSource teams config labels key source →
    ∃ template, templates source.kind source.templateRef = some template ∧
      admitTemplate template.labels template.annotations = .ok ()

/-- The diff of one pass, applied, leaves nothing for the next one. -/
def Settles : Prop :=
  ∀ (storage : Storage ManagedObject) (templates : TemplateStore) (subject : NamespaceSubject)
    (state : DesiredState) (live : List ManagedObject), Available teams config labels templates →
    (live.map fun object => (object.kind, object.key)).Nodup →
    desired templates (some config) subject teams labels = .ok state →
    ∀ line ∈ computeHeldDiff state.objects state.held
        (storage.store.applyLines (computeHeldDiff state.objects state.held live) live),
      ∃ key, line = .unchanged key

/-- No two sources of the entry differ in the template namespace alone. -/
def RegistryEntry.TwinFree (entry : RegistryEntry) : Prop :=
  ∀ s ∈ entry.sources, ∀ t ∈ entry.sources, s.kind = t.kind → s.templateRef.name = t.templateRef.name → s = t

/-- The entries the namespace reaches have no such sources. -/
def ReachesNoTwins : Prop :=
  ∀ key, Reaches teams config labels key → ∀ entry, config.config.entry key = some entry → entry.TwinFree

theorem entry_spec (spec : RegistryConfigSpec) (key : RegistryKey) (entry : RegistryEntry)
    (found : spec.entry key = some entry) : entry ∈ spec.catalog ∧ entry.key = key := by
  exact ⟨List.mem_of_find?_eq_some found, by simpa using List.find?_some found⟩

theorem twins_of_distinctCopies (distinct : DistinctCopies teams config labels) :
    ReachesNoTwins teams config labels := by
  intro key reached entry found s sIn t tIn kind name
  by_contra other
  apply distinct key s key t ⟨reached, entry, found, sIn⟩ ⟨reached, entry, found, tIn⟩
  · exact fun same => other (Prod.mk.inj same).2
  · rw [kind, name]

theorem distinctCopies_of_twins (valid : validate config teams = [])
    (twinFree : ReachesNoTwins teams config labels) : DistinctCopies teams config labels := by
  rintro key source other source' ⟨reached, entry, found, inside⟩ ⟨_, entry', found', inside'⟩ differ same
  obtain ⟨kind, name⟩ := Prod.mk.inj same
  obtain ⟨inCatalog, ownKey⟩ := entry_spec config.config key entry found
  obtain ⟨inCatalog', ownKey'⟩ := entry_spec config.config other entry' found'
  have oneKey : entry.key = entry'.key := by
    apply validate_names config teams valid entry entry' inCatalog inCatalog' source source' inside inside'
    rw [ownKey, ownKey', name]
  rw [ownKey, ownKey'] at oneKey
  subst oneKey
  cases found.symm.trans found'
  -- Under one key, the rest of the name is the template's.
  have oneName : source.templateRef.name = source'.templateRef.name :=
    List.append_cancel_left name
  exact differ (by rw [twinFree key reached entry found source inside source' inside' kind oneName])

end Reach

/-! ## The copies of a pass -/

section Copies
variable (teams : List Team) (config : ResolvedRegistryConfig) (labels : Labels) (templates : TemplateStore)
  (namespaceName : Text)

/-- The copy of a source that can be copied. -/
structure CopyOf (object : ManagedObject) (key : RegistryKey) (source : RegistrySource) : Prop where
  reachable : ReachableSource teams config labels key source
  content : ∃ template, templates source.kind source.templateRef = some template ∧
    object = ⟨copyKey namespaceName key source, source.kind, key, template.labels, template.annotations,
      template.body⟩

/-- Nothing is held, and every object is a copy of a reachable source. -/
structure AllCopied (state : DesiredState) : Prop where
  held : state.held = []
  copies : ∀ object ∈ state.objects, ∃ key source,
    CopyOf teams config labels templates namespaceName object key source

variable (available : Available teams config labels templates)
include available

theorem copySource_allCopied (key : RegistryKey) (source : RegistrySource) (state : DesiredState)
    (reachable : ReachableSource teams config labels key source)
    (inv : AllCopied teams config labels templates namespaceName state) :
    AllCopied teams config labels templates namespaceName
      (copySource templates namespaceName key state source) := by
  obtain ⟨template, found, admitted⟩ := available key source reachable
  have step : copySource templates namespaceName key state source =
      { state with
        objects := state.objects ++ [⟨copyKey namespaceName key source, source.kind, key, template.labels,
          template.annotations, template.body⟩] } := by
    simp only [copySource, found, admitted]
  rw [step]
  refine ⟨inv.held, ?_⟩
  intro object member
  rcases List.mem_append.mp member with earlier | last
  · exact inv.copies object earlier
  · exact ⟨key, source, reachable, template, found, List.mem_singleton.mp last⟩

theorem copySources_allCopied (key : RegistryKey) (sources : List RegistrySource) (state : DesiredState)
    (reachable : ∀ source ∈ sources, ReachableSource teams config labels key source)
    (inv : AllCopied teams config labels templates namespaceName state) :
    AllCopied teams config labels templates namespaceName
      (sources.foldl (copySource templates namespaceName key) state) := by
  induction sources generalizing state with
  | nil => exact inv
  | cons source rest ih =>
    have first := copySource_allCopied teams config labels templates namespaceName available key source state
      (reachable source List.mem_cons_self) inv
    exact ih _ (fun other member => reachable other (List.mem_cons_of_mem _ member)) first

theorem copyKeys_allCopied (keys : List RegistryKey) (state after : DesiredState)
    (reached : ∀ key ∈ keys, Reaches teams config labels key)
    (done : copyKeys templates namespaceName config.config keys state = .ok after)
    (inv : AllCopied teams config labels templates namespaceName state) :
    AllCopied teams config labels templates namespaceName after := by
  induction keys generalizing state with
  | nil =>
    cases done
    exact inv
  | cons key keys ih =>
    rw [copyKeys] at done
    split at done
    · cases done
    · next entry found =>
      have sources := copySources_allCopied teams config labels templates namespaceName available key
        entry.sources state
        (fun source inside => ⟨reached key List.mem_cons_self, entry, found, inside⟩) inv
      exact ih _ (fun other member => reached other (List.mem_cons_of_mem _ member)) done sources

theorem desired_allCopied (subject : NamespaceSubject) (state : DesiredState)
    (wants : desired templates (some config) subject teams labels = .ok state) :
    AllCopied teams config labels templates subject.namespaceName state := by
  unfold desired at wants
  dsimp only at wants
  cases outcome : resolve teams config labels subject.annotated with
  | error notGranted =>
    simp only [outcome, Except.ok.injEq] at wants
    subst wants
    exact ⟨rfl, by simp⟩
  | ok provenance =>
    simp only [outcome] at wants
    exact copyKeys_allCopied teams config labels templates subject.namespaceName available _ _ state
      (fun key member => ⟨subject.annotated, provenance, outcome, member⟩) wants ⟨rfl, by simp⟩

end Copies

/-! ## The diff of a pass -/

section ByKind
variable (wanted live : List ManagedObject)

theorem of_kind {objects : List ManagedObject} {kind : SourceKind} {object : ManagedObject}
    (inside : object ∈ objects.filter fun other => other.kind = kind) : object ∈ objects ∧ object.kind = kind :=
  ⟨(List.mem_filter.mp inside).1, of_decide_eq_true (List.mem_filter.mp inside).2⟩

theorem in_kind {objects : List ManagedObject} {object : ManagedObject} (inside : object ∈ objects) :
    object ∈ objects.filter fun other => other.kind = object.kind :=
  List.mem_filter.mpr ⟨inside, decide_eq_true rfl⟩

/-- The lines of one kind. -/
def kindDiff (kind : SourceKind) : List Line :=
  computeDiff (wanted.filter fun object => object.kind = kind) (live.filter fun object => object.kind = kind)

theorem mem_computeHeldDiff (line : Line) : line ∈ computeHeldDiff wanted [] live ↔
    ∃ object ∈ wanted ++ live, line ∈ kindDiff wanted live object.kind := by
  have whole : (live.filter fun object => !([] : List ObjectKey).contains object.key) = live := by simp
  unfold computeHeldDiff
  dsimp only
  rw [whole]
  constructor
  · intro member
    obtain ⟨kind, listed, inKind⟩ := List.mem_flatMap.mp member
    obtain ⟨object, inside, rfl⟩ := List.mem_map.mp (List.mem_eraseDups.mp listed)
    exact ⟨object, inside, inKind⟩
  · rintro ⟨object, inside, inKind⟩
    exact List.mem_flatMap.mpr ⟨object.kind, List.mem_eraseDups.mpr (List.mem_map_of_mem inside), inKind⟩

theorem plain_of_kind (kind : SourceKind) :
    ∀ object ∈ wanted.filter (fun object => object.kind = kind),
      ∀ current ∈ live.filter (fun object => object.kind = kind),
        Managed.key current = Managed.key object → Managed.backend current = Managed.backend object :=
  fun _ inWanted _ inLive _ => (of_kind inLive).2.trans (of_kind inWanted).2.symm

theorem diffOf_kind (kind : SourceKind) : DiffOf (wanted.filter fun object => object.kind = kind)
    (live.filter fun object => object.kind = kind) (kindDiff wanted live kind) :=
  diffOf_computeDiff _ _ fun object inWanted current inLive key _ =>
    plain_of_kind wanted live kind object inWanted current inLive key

/-- One diff a kind is a diff of all kinds. -/
theorem diffOf_computeHeldDiff : DiffOf wanted live (computeHeldDiff wanted [] live) := by
  refine ⟨?_, ?_, ?_, ?_⟩
  · intro object inside
    rcases (diffOf_kind wanted live object.kind).brought object (in_kind inside) with
      ⟨line, member, writes⟩ | same
    · exact Or.inl ⟨line, (mem_computeHeldDiff wanted live line).mpr
        ⟨object, List.mem_append_left _ inside, member⟩, writes⟩
    · obtain ⟨current, isCurrent, here⟩ := same
      exact Or.inr ⟨current, (of_kind isCurrent).1, here⟩
  · intro line member object writes
    obtain ⟨of, -, inKind⟩ := (mem_computeHeldDiff wanted live line).mp member
    exact (of_kind ((diffOf_kind wanted live of.kind).writes line inKind object writes)).1
  · intro line member silent object inside at_
    obtain ⟨of, -, inKind⟩ := (mem_computeHeldDiff wanted live line).mp member
    -- A delete among the lines of a kind acts on an object of that kind.
    obtain ⟨current, isCurrent, here⟩ := (diffOf_kind wanted live of.kind).aims line inKind silent _ at_
    have own : object.kind = of.kind := (congrArg Prod.fst here).symm.trans (of_kind isCurrent).2
    exact (diffOf_kind wanted live of.kind).deletes line inKind silent object (own ▸ in_kind inside) at_
  · intro line member silent at_ acts
    obtain ⟨of, -, inKind⟩ := (mem_computeHeldDiff wanted live line).mp member
    obtain ⟨current, isCurrent, here⟩ := (diffOf_kind wanted live of.kind).aims line inKind silent at_ acts
    exact ⟨current, (of_kind isCurrent).1, here⟩

theorem clears_computeHeldDiff : Clears wanted live (computeHeldDiff wanted [] live) := by
  intro current isCurrent free
  obtain ⟨line, member, at_⟩ := clears_computeDiff _ _ (plain_of_kind wanted live current.kind) current
    (in_kind isCurrent) fun object inside => free object (of_kind inside).1
  exact ⟨line, (mem_computeHeldDiff wanted live line).mpr
    ⟨current, List.mem_append_right _ isCurrent, member⟩, at_⟩

theorem computeHeldDiff_unchanged (agree : ∀ a ∈ wanted, ∀ b ∈ wanted, place a = place b → a = b)
    (carries : Carries wanted live) (line : Line) (member : line ∈ computeHeldDiff wanted [] live) :
    ∃ key, line = .unchanged key := by
  obtain ⟨of, -, inKind⟩ := (mem_computeHeldDiff wanted live line).mp member
  have transfer : ∀ {a b : ManagedObject}, place a = place b → b.kind = of.kind → a.kind = of.kind :=
    fun here own => (congrArg Prod.fst here).trans own
  refine computeDiff_unchanged _ _ (plain_of_kind wanted live of.kind) ?_ ⟨?_, ?_⟩ line inKind
  · exact fun a aIn b bIn => agree a (of_kind aIn).1 b (of_kind bIn).1
  · intro object inWanted
    obtain ⟨current, isCurrent, here, same⟩ := carries.present object (of_kind inWanted).1
    have inKind := decide_eq_true (transfer here (of_kind inWanted).2)
    exact ⟨current, List.mem_filter.mpr ⟨isCurrent, inKind⟩, here, same⟩
  · intro current inLive
    obtain ⟨object, inside, here, same⟩ := carries.only current (of_kind inLive).1
    have inKind := decide_eq_true (transfer here.symm (of_kind inLive).2)
    exact ⟨object, List.mem_filter.mpr ⟨inside, inKind⟩, here, same⟩

end ByKind

/-! ## The result -/

section Result
variable (teams : List Team) (config : ResolvedRegistryConfig) (labels : Labels)

theorem settles_of_distinctCopies (distinct : DistinctCopies teams config labels) :
    Settles teams config labels := by
  intro storage templates subject state live available places wants
  obtain ⟨held, copies⟩ := desired_allCopied teams config labels templates available subject state wants
  have agree : ∀ a ∈ state.objects, ∀ b ∈ state.objects, place a = place b → a = b := by
    intro a aIn b bIn here
    obtain ⟨key, source, reachable, template, found, rfl⟩ := copies a aIn
    obtain ⟨other, source', reachable', template', found', rfl⟩ := copies b bIn
    obtain ⟨kind, name⟩ := Prod.mk.inj here
    have one : (key, source) = (other, source') := by
      by_contra differ
      apply distinct key source other source' reachable reachable' differ
      exact Prod.ext kind (congrArg ObjectKey.name name)
    obtain ⟨rfl, rfl⟩ := Prod.mk.inj one
    cases found.symm.trans found'
    rfl
  rw [held]
  intro line member
  have carries := (diffOf_computeHeldDiff state.objects live).carries storage agree places
    (clears_computeHeldDiff state.objects live)
  exact computeHeldDiff_unchanged state.objects _ agree carries line member

/-- Of a configuration that passes `validate`: different sources of a namespace have different
copies, and a pass over available templates settles, exactly when no entry the namespace reaches
names one kind and template name from two template namespaces. -/
theorem copies_distinct_iff (valid : validate config teams = []) :
    (DistinctCopies teams config labels ∧ Settles teams config labels) ↔ ReachesNoTwins teams config labels := by
  constructor
  · exact fun both => twins_of_distinctCopies teams config labels both.1
  · intro twinFree
    have distinct := distinctCopies_of_twins teams config labels valid twinFree
    exact ⟨distinct, settles_of_distinctCopies teams config labels distinct⟩

end Result

/-- A catalogue of one entry that every namespace is granted. -/
def oneEntryConfig (sources : List RegistrySource) : ResolvedRegistryConfig :=
  ⟨⟨[⟨"npm".toList, sources⟩], .deny⟩, [("devs".toList, ⟨["npm".toList], ["npm".toList]⟩)]⟩

def devsTeam : Team := ⟨"devs".toList, ⟨[], []⟩⟩

theorem oneEntry_reached (sources : List RegistrySource) :
    Reaches [devsTeam] (oneEntryConfig sources) [] "npm".toList :=
  ⟨none, ⟨some "devs".toList, .grantDefault, ["npm".toList], []⟩, by rfl, by simp⟩

/-- The template `npmrc` of a namespace. -/
def npmrcIn (namespaceName : Text) : RegistrySource := ⟨.configMap, ⟨"npmrc".toList, namespaceName⟩⟩

/-- The same template name in two namespaces, as a `ConfigMap` and as a `Secret`. -/
def npmrcAndToken : List RegistrySource := [npmrcIn ['a'], ⟨.secret, ⟨"npmrc".toList, ['b']⟩⟩]

theorem copies_distinct_two_kinds :
    (∀ source ∈ npmrcAndToken,
      ReachableSource [devsTeam] (oneEntryConfig npmrcAndToken) [] "npm".toList source) ∧
    DistinctCopies [devsTeam] (oneEntryConfig npmrcAndToken) [] ∧
    Settles [devsTeam] (oneEntryConfig npmrcAndToken) [] := by
  refine ⟨fun source inside => ⟨oneEntry_reached npmrcAndToken, _, by rfl, inside⟩, ?_⟩
  refine (copies_distinct_iff [devsTeam] (oneEntryConfig npmrcAndToken) [] (by decide)).mpr ?_
  intro key _ entry found s sIn t tIn kind _
  cases List.mem_singleton.mp (entry_spec _ key entry found).1
  simp only [npmrcAndToken, List.mem_cons, List.not_mem_nil, or_false] at sIn tIn
  rcases sIn with rfl | rfl <;> rcases tIn with rfl | rfl
  · rfl
  · cases kind
  · cases kind
  · rfl

/-- Two templates of one name in two namespaces pass the check and share a copy. -/
theorem twin_templates_share_copy :
    validate (oneEntryConfig [npmrcIn ['a'], npmrcIn ['b']]) [devsTeam] = [] ∧
      ¬ (DistinctCopies [devsTeam] (oneEntryConfig [npmrcIn ['a'], npmrcIn ['b']]) [] ∧
        Settles [devsTeam] (oneEntryConfig [npmrcIn ['a'], npmrcIn ['b']]) []) := by
  refine ⟨by decide, ?_⟩
  intro both
  have listed : ∀ source ∈ [npmrcIn ['a'], npmrcIn ['b']],
      ReachableSource [devsTeam] (oneEntryConfig [npmrcIn ['a'], npmrcIn ['b']]) [] "npm".toList source :=
    fun source inside => ⟨oneEntry_reached _, _, by rfl, inside⟩
  exact both.1 _ (npmrcIn ['a']) _ (npmrcIn ['b']) (listed _ (by simp)) (listed _ (by simp)) (by decide) rfl

end WeeboSi.RegistryConfig
