import WeeboSi.DwocPin.Settle
import WeeboSi.NetworkProfiles.Resolve

/-!
# What a team reaches

Source: crates/weebo-si-crd/src/dwoc_pin.rs:200-248, network_profiles.rs:325-371 and the two
resolutions. A grant's default is taken from the team's block as it is written: `validate`
reports one outside the grant, and it is served all the same.
-/
namespace WeeboSi.NetworkProfiles
open WeeboSi.Lib WeeboSi.Crd WeeboSi.Chassis WeeboSi.DwocPin

/-! ## dwoc-pin -/

section Chosen
variable (teams : List Team) (config : ResolvedDwocPinConfig) (facts : NamespaceFacts)

theorem baseKey_allowed_iff :
    baseKey teams config facts ∈ (matchedGrant teams config facts).allowed ↔
      (∃ value, facts.selectionAnnotated = some value ∧ value ∈ (matchedGrant teams config facts).allowed) ∨
        (matchedGrant teams config facts).default ∈ (matchedGrant teams config facts).allowed := by
  unfold baseKey
  cases facts.selectionAnnotated with
  | none => simp
  | some value =>
    by_cases inside : value ∈ (matchedGrant teams config facts).allowed
    · simp [inside]
    · simp [inside]

theorem chosenKey_allowed_iff (current : Option DwocRef) :
    chosenKey teams config facts current ∈ (matchedGrant teams config facts).allowed ↔
      (∃ reference, current = some reference ∧ Kept teams config facts reference) ∨
        baseKey teams config facts ∈ (matchedGrant teams config facts).allowed := by
  by_cases kept : ∃ reference, current = some reference ∧ Kept teams config facts reference
  · refine iff_of_true ?_ (Or.inl kept)
    obtain ⟨reference, rfl, key, inside, named⟩ := kept
    simp [chosenKey, named, inside]
  · rw [chosenKey_of_not_kept teams config facts current kept]
    simp [kept]

/-- What `resolve` returns is granted, or it returns nothing. -/
theorem resolve_granted_iff (current : Option DwocRef) :
    (∀ provenance key, DwocPin.resolve teams config facts current = .ok provenance →
        provenance.resolvedKey = some key → key ∈ (matchedGrant teams config facts).allowed) ↔
      AnnotationRefused teams config facts ∨
        chosenKey teams config facts current ∈ (matchedGrant teams config facts).allowed := by
  by_cases refused : AnnotationRefused teams config facts
  · refine iff_of_true ?_ (Or.inl refused)
    obtain ⟨unknown, failed⟩ := resolve_refused teams config facts current refused
    intro provenance key resolved
    rw [failed] at resolved
    cases resolved
  · obtain ⟨provenance, resolved, key⟩ := DwocPin.resolve_ok teams config facts current refused
    constructor
    · intro all
      exact Or.inr (all provenance _ resolved key)
    · rintro (no | inside) other otherKey resolvedOther keyOther
      · exact absurd no refused
      · rw [resolved] at resolvedOther
        cases resolvedOther
        rw [key] at keyOther
        cases keyOther
        exact inside

end Chosen

section Pin
variable (config : DwocPinConfig) (teams : List (WeeboSiTeam TeamDwocPin)) (facts : NamespaceFacts)
  (current : Option DwocRef) (block : TeamDwocPin)

/-- The keys of a team's own block, and the cluster's default. -/
def PinReach (key : Text) : Prop := key ∈ block.catalog.map CatalogEntry.key ∨ key = config.default

/-- Every key `resolve` returns is one the team reaches. -/
def PinWithin : Prop :=
  ∀ provenance key, DwocPin.resolve (teamViews teams) (config.resolve teams).1 facts current =
    .ok provenance → provenance.resolvedKey = some key → PinReach config block key

/-- The block's default is reached, or something before it answers. -/
def PinWithinWhen : Prop :=
  PinReach config block block.default ∨
  (∃ value, facts.selectionAnnotated = some value ∧
    (PinReach config block value ∨ config.onUnknownKey = .deny)) ∨
  ∃ reference key, current = some reference ∧
    (config.resolve teams).1.config.catalog.resolveRef reference = some key ∧ PinReach config block key

section First
variable (team : WeeboSiTeam TeamDwocPin) (distinct : (teams.map WeeboSiTeam.name).Nodup)
  (first : firstTeam teams facts.labels = some team) (own : team.features = some block)
include distinct first own

theorem matchedGrant_block :
    matchedGrant (teamViews teams) (config.resolve teams).1 facts = block.grant config.default := by
  have view : matchedTeam (teamViews teams) facts = some team.asTeam := by
    unfold matchedTeam
    rw [find_teamViews, first]
    rfl
  have found := teamGrants_lookup teams (TeamDwocPin.grant config.default) distinct facts.labels team block
    first own
  unfold matchedGrant teamGrant
  rw [view]
  change ((teamGrants teams (TeamDwocPin.grant config.default)).lookup team.name).getD _ = _
  rw [found]
  rfl

theorem mem_matchedGrant (key : Text) :
    key ∈ (matchedGrant (teamViews teams) (config.resolve teams).1 facts).allowed ↔
      PinReach config block key := by
  rw [matchedGrant_block config teams facts block team distinct first own]
  exact mem_widened _ _ _

theorem pinWithin_iff : PinWithin config teams facts current block ↔
    PinWithinWhen config teams facts current block := by
  have reach := mem_matchedGrant config teams facts block team distinct first own
  have default : (matchedGrant (teamViews teams) (config.resolve teams).1 facts).default = block.default := by
    rw [matchedGrant_block config teams facts block team distinct first own]
    rfl
  have granted := resolve_granted_iff (teamViews teams) (config.resolve teams).1 facts current
  rw [chosenKey_allowed_iff, baseKey_allowed_iff, default] at granted
  simp only [reach, AnnotationRefused, Kept] at granted
  unfold PinWithin
  rw [granted]
  constructor
  · rintro (⟨deny, value, annotated, _⟩ | ⟨reference, present, key, inside, named⟩ |
      ⟨value, annotated, inside⟩ | inside)
    · exact Or.inr (Or.inl ⟨value, annotated, Or.inr deny⟩)
    · exact Or.inr (Or.inr ⟨reference, key, present, named, inside⟩)
    · exact Or.inr (Or.inl ⟨value, annotated, Or.inl inside⟩)
    · exact Or.inl inside
  · rintro (inside | ⟨value, annotated, either⟩ | ⟨reference, key, present, named, inside⟩)
    · exact Or.inr (Or.inr (Or.inr inside))
    · by_cases inside : PinReach config block value
      · exact Or.inr (Or.inr (Or.inl ⟨value, annotated, inside⟩))
      · exact Or.inl ⟨either.resolve_left inside, value, annotated, inside⟩
    · exact Or.inr (Or.inl ⟨reference, present, key, inside, named⟩)

end First

end Pin

/-! ## network-profiles -/

section Profiles
variable (config : NetworkProfilesConfig) (teams : List (WeeboSiTeam TeamNetworkProfiles)) (labels : Labels)
  (annotated attributed : Option Text) (block : TeamNetworkProfiles)

/-- The keys of a team's own block, and the cluster's baseline. -/
def ProfileReach (key : ProfileKey) : Prop := key ∈ block.catalog.map Profile.key ∨ key = config.baseline

def ProfilesWithin : Prop :=
  ∀ provenance, resolve (teamViews teams) (config.resolve teams).1 labels annotated attributed =
    .ok provenance → ∀ key ∈ provenance.resolved, ProfileReach config block key

/-- The block's defaults are reached, or what is not granted is refused, or all that the
workspace or else the namespace asks for is reached. -/
def ProfilesWithinWhen : Prop :=
  (∀ key ∈ block.default, ProfileReach config block key) ∨ config.onNotGranted = .deny ∨
  ∃ raw, (attributed <|> annotated) = some raw ∧ ∀ key ∈ parseKeys raw, ProfileReach config block key

section First
variable (team : WeeboSiTeam TeamNetworkProfiles) (distinct : (teams.map WeeboSiTeam.name).Nodup)
  (first : firstTeam teams labels = some team) (own : team.features = some block)
include distinct first own

theorem grantFor_block :
    grantFor (config.resolve teams).1
        ((teamViews teams).find? fun team => team.namespaceSelector.matchesLabels labels) =
      block.grant config.baseline := by
  have found := teamGrants_lookup teams (TeamNetworkProfiles.grant config.baseline) distinct labels team block
    first own
  rw [find_teamViews, first]
  change ((teamGrants teams (TeamNetworkProfiles.grant config.baseline)).lookup team.name).getD _ = _
  rw [found]
  rfl

theorem profilesWithin_iff : ProfilesWithin config teams labels annotated attributed block ↔
    ProfilesWithinWhen config annotated attributed block := by
  have within := resolve_within_iff (teamViews teams) (config.resolve teams).1 labels annotated attributed _
    (grantFor_block config teams labels block team distinct first own)
  have reach : ∀ key, key ∈ (block.grant config.baseline).allowed ↔ ProfileReach config block key :=
    fun key => mem_widened _ _ key
  have default : (block.grant config.baseline).default = block.default := rfl
  have onNotGranted : (config.resolve teams).1.config.onNotGranted = config.onNotGranted := rfl
  simp only [reach, default, onNotGranted] at within
  unfold ProfilesWithin ProfilesWithinWhen
  rw [within]
  cases attributed with
  | some raw => simp [requestedKeys]
  | none =>
    cases annotated with
    | some raw => simp [requestedKeys]
    | none =>
      -- Asking for nothing is asking for the default.
      simp only [requestedKeys, default, Option.orElse_eq_orElse, Option.orElse_none, reduceCtorEq, false_and,
        exists_false, or_false]
      tauto

end First

end Profiles

/-! ## Both features -/

/-- A team stays within its own block exactly when its default does, or is not what answers. -/
theorem team_within_own_iff (pins : DwocPinConfig) (pinTeams : List (WeeboSiTeam TeamDwocPin))
    (facts : NamespaceFacts) (current : Option DwocRef) (pinTeam : WeeboSiTeam TeamDwocPin)
    (pinBlock : TeamDwocPin) (profiles : NetworkProfilesConfig)
    (profileTeams : List (WeeboSiTeam TeamNetworkProfiles)) (labels : Labels)
    (annotated attributed : Option Text) (profileTeam : WeeboSiTeam TeamNetworkProfiles)
    (profileBlock : TeamNetworkProfiles) :
    ((pinTeams.map WeeboSiTeam.name).Nodup → firstTeam pinTeams facts.labels = some pinTeam →
      pinTeam.features = some pinBlock →
      (PinWithin pins pinTeams facts current pinBlock ↔ PinWithinWhen pins pinTeams facts current pinBlock)) ∧
    ((profileTeams.map WeeboSiTeam.name).Nodup → firstTeam profileTeams labels = some profileTeam →
      profileTeam.features = some profileBlock →
      (ProfilesWithin profiles profileTeams labels annotated attributed profileBlock ↔
        ProfilesWithinWhen profiles annotated attributed profileBlock)) := by
  constructor
  · intro distinct first own
    exact pinWithin_iff pins pinTeams facts current pinBlock pinTeam distinct first own
  · intro distinct first own
    exact profilesWithin_iff profiles profileTeams labels annotated attributed profileBlock profileTeam distinct
      first own

/-- Team `a` catalogues `own` and takes by default whatever `default` says. -/
def pinTeam (default : Text) : WeeboSiTeam TeamDwocPin :=
  ⟨"a".toList, 1, ⟨[], []⟩, some ⟨[⟨"own".toList, ⟨"a-config".toList, "eclipse-che".toList⟩⟩], default⟩⟩

def profileTeam (default : List Text) : WeeboSiTeam TeamNetworkProfiles :=
  ⟨"a".toList, 1, ⟨[], []⟩, some ⟨[⟨"own".toList, []⟩], default⟩⟩

/-- A cluster that catalogues an entry for somebody else. -/
def sharedPin : DwocPinConfig :=
  ⟨[⟨"baseline".toList, hardenedRef⟩, ⟨"gpu".toList, ⟨"gpu-config".toList, "eclipse-che".toList⟩⟩],
    "baseline".toList, .default, .skip⟩

theorem team_within_own_iff_own :
    PinWithin sharedPin [pinTeam "own".toList] ⟨[], none⟩ none
        ⟨[⟨"own".toList, ⟨"a-config".toList, "eclipse-che".toList⟩⟩], "own".toList⟩ ∧
      ProfilesWithin ⟨[], "baseline".toList, .default⟩ [profileTeam ["own".toList]] [] none none
        ⟨[⟨"own".toList, []⟩], ["own".toList]⟩ := by
  obtain ⟨pinIff, profilesIff⟩ := team_within_own_iff sharedPin [pinTeam "own".toList] ⟨[], none⟩ none
    (pinTeam "own".toList) _ ⟨[], "baseline".toList, .default⟩ [profileTeam ["own".toList]] [] none none
    (profileTeam ["own".toList]) _
  constructor
  · exact (pinIff (by decide) rfl rfl).mpr (Or.inl (Or.inl (by decide)))
  · refine (profilesIff (by decide) rfl rfl).mpr (Or.inl ?_)
    intro key member
    exact Or.inl (by simpa using member)

/-- A team that names `gpu` as its default is given the cluster's entry for it. -/
theorem default_reaches_foreign :
    ¬ ((∀ (config : DwocPinConfig) (teams : List (WeeboSiTeam TeamDwocPin)) (facts : NamespaceFacts)
      (current : Option DwocRef) (team : WeeboSiTeam TeamDwocPin) (block : TeamDwocPin),
      (teams.map WeeboSiTeam.name).Nodup → firstTeam teams facts.labels = some team →
      team.features = some block → PinWithin config teams facts current block) ∧
    ∀ (config : NetworkProfilesConfig) (teams : List (WeeboSiTeam TeamNetworkProfiles)) (labels : Labels)
      (annotated attributed : Option Text) (team : WeeboSiTeam TeamNetworkProfiles)
      (block : TeamNetworkProfiles),
      (teams.map WeeboSiTeam.name).Nodup → firstTeam teams labels = some team →
      team.features = some block → ProfilesWithin config teams labels annotated attributed block) := by
  rintro ⟨given, _⟩
  have within := given sharedPin [pinTeam "gpu".toList] ⟨[], none⟩ none _ _ (by decide) rfl rfl
  have reached := within ⟨some "a".toList, .grantDefault, some "gpu".toList, none⟩ "gpu".toList (by decide) rfl
  rcases reached with own | shared
  · exact absurd own (by decide)
  · exact absurd shared (by decide)

end WeeboSi.NetworkProfiles
