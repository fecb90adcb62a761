import WeeboSi.EndpointAuth.CompileSpec

/-!
# The grant as a ceiling

Source: crates/weebo-si-endpoint-auth/src/compile.rs:264-426. Whatever the annotations ask
for, the profiles of a compiled endpoint come out of the catalogue, through the grant and
the override that applies.
-/
namespace WeeboSi.EndpointAuth
open WeeboSi.Lib

/-- A profile that the grant, the override and the catalogue all cover. -/
structure UnderCeiling (catalogue : Catalogue) (grant : Grant) (override : Option Override)
    (profile : AccessProfile) : Prop where
  granted : profile.key ∈ grant.allowed
  narrowed : ∀ narrower, override.bind Override.allowed = some narrower → profile.key ∈ narrower
  catalogued : ∃ entry, catalogue.profile profile.key = some entry ∧
    profile.anonymous = entry.anonymous ∧ profile.delegation ⊆ entry.delegation
  capped : ∀ ceiling, override.bind Override.delegation = some ceiling → profile.delegation ⊆ ceiling

theorem Catalogue.key_of_profile (catalogue : Catalogue) (key : CatalogueKey) (entry : AccessProfile)
    (found : catalogue.profile key = some entry) : entry.key = key := by
  obtain ⟨before, after, split, -⟩ := List.lookup_eq_some_iff.mp found
  have member : (key, entry) ∈ catalogue.entries := by
    rw [split]
    simp
  exact (catalogue.sound (key, entry) member).1

theorem mem_bounds_allowed (grant : Grant) (override : Option Override) (key : CatalogueKey) :
    key ∈ (bounds grant override).allowed ↔
      key ∈ grant.allowed ∧ ∀ narrower, override.bind Override.allowed = some narrower → key ∈ narrower := by
  unfold bounds
  cases override.bind Override.allowed with
  | none => simp
  | some narrower => simp

@[simp] theorem capped_key (profile : AccessProfile) (ceiling : Option (List Delegation)) :
    (profile.capped ceiling).key = profile.key := by
  cases ceiling <;> rfl

@[simp] theorem capped_anonymous (profile : AccessProfile) (ceiling : Option (List Delegation)) :
    (profile.capped ceiling).anonymous = profile.anonymous := by
  cases ceiling <;> rfl

theorem mem_capped_delegation (profile : AccessProfile) (ceiling : Option (List Delegation))
    (kind : Delegation) :
    kind ∈ (profile.capped ceiling).delegation ↔
      kind ∈ profile.delegation ∧ ∀ most, ceiling = some most → kind ∈ most := by
  cases ceiling with
  | none => simp [AccessProfile.capped]
  | some most => simp [AccessProfile.capped]

/-- A key the bounds grant is resolved to a profile under the ceiling. -/
theorem underCeiling_profileWithin (catalogue : Catalogue) (grant : Grant) (override : Option Override)
    (key : CatalogueKey) (granted : keyGranted catalogue (bounds grant override) key) :
    UnderCeiling catalogue grant override (profileWithin catalogue (bounds grant override) key) := by
  obtain ⟨⟨entry, found⟩, allowed⟩ := granted
  have named : (profileWithin catalogue (bounds grant override) key).key = key := by
    simp [profileWithin, found, catalogue.key_of_profile key entry found]
  have delegated := mem_capped_delegation entry (bounds grant override).ceiling
  obtain ⟨inGrant, inOverride⟩ := (mem_bounds_allowed grant override key).mp allowed
  refine ⟨?_, ?_, ⟨entry, ?_, ?_, ?_⟩, ?_⟩
  · rwa [named]
  · rwa [named]
  · rwa [named]
  · simp [profileWithin, found]
  · intro kind member
    rw [profileWithin, found] at member
    exact ((delegated kind).mp member).1
  · intro most applies kind member
    rw [profileWithin, found] at member
    exact ((delegated kind).mp member).2 most applies

section Endpoint
variable (yaml : Text → Except Text (List WireRule)) (raw : RawEndpoint) (settings : CompileSettings)

/-- The rules of the annotation, as the document lists them. -/
def writtenRules : List WireRule :=
  match trimmed raw.rules with
  | none => []
  | some document => (yaml document).toOption.getD []

theorem readRules_eq_ok (wire : List WireRule) (read : readRules yaml raw settings = .ok wire) :
    wire = writtenRules yaml raw ∧ wire.length ≤ settings.maxRules := by
  unfold readRules at read
  unfold writtenRules
  generalize trimmed raw.rules = written at read ⊢
  cases written with
  | none =>
    cases read
    exact ⟨rfl, Nat.zero_le _⟩
  | some document =>
    cases parsed : yaml document with
    | error why => simp [parsed] at read
    | ok rules =>
      simp only [parsed, guard_eq_ok, Except.ok.injEq] at read
      obtain ⟨short, rfl⟩ := read
      refine ⟨?_, Nat.le_of_not_lt short⟩
      simp only [parsed]
      rfl

/-- A compiled rule is the written one, its key resolved. -/
structure Renders (wire : WireRule) (rule : PathRule) : Prop where
  path : rule.path = wire.path
  kind : rule.kind = wire.kind
  methods : rule.methods = wire.methodSet
  access : rule.profile.key = wire.access
  bearer : rule.bearer = wire.bearer

/-- Whatever compiles is under the ceiling: the endpoint's profile and every rule's. The
rules are those of the document, in its order, and no more than the admin's bound. -/
theorem compile_underCeiling (catalogue : Catalogue) (grant : Grant) (overrides : List Override)
    (generation : Nat) (policy : EndpointPolicy)
    (compiled : compile yaml raw catalogue grant overrides settings generation = .ok policy) :
    UnderCeiling catalogue grant (applicable raw overrides) policy.profile ∧
      (∀ rule ∈ policy.rules, UnderCeiling catalogue grant (applicable raw overrides) rule.profile) ∧
      policy.rules.length ≤ settings.maxRules ∧
      List.Forall₂ Renders (writtenRules yaml raw) policy.rules := by
  obtain ⟨key, wire, compiles, rfl⟩ :=
    (compileWithin_eq_ok yaml raw catalogue settings generation _ policy).mp compiled
  obtain ⟨rfl, short⟩ := readRules_eq_ok yaml raw settings wire compiles.read
  have resolved := underCeiling_profileWithin catalogue grant (applicable raw overrides)
  refine ⟨resolved key compiles.granted, ?_, ?_, ?_⟩
  · intro rule member
    obtain ⟨written, inside, rfl⟩ := List.mem_map.mp member
    exact resolved written.access (compiles.rules written inside).2
  · simpa [policyWithin] using short
  · change List.Forall₂ Renders _ (List.map (ruleWithin catalogue _) _)
    rw [List.forall₂_map_right_iff, List.forall₂_same]
    intro written inside
    obtain ⟨⟨entry, found⟩, -⟩ := (compiles.rules written inside).2
    refine ⟨rfl, rfl, rfl, ?_, rfl⟩
    simp [ruleWithin, profileWithin, found, catalogue.key_of_profile _ entry found]

end Endpoint

/-- A catalogue of two, of which only the second is shared. -/
def sharedCatalogue : Catalogue where
  entries := [("private".toList, .privateProfile),
    ("shared".toList, ⟨"shared".toList, false, [.team, .usersAndGroups]⟩)]
  sound := by decide

def sharedGrant : Grant := ⟨["private".toList, "shared".toList], "private".toList⟩

/-- Alice may share within her team only. -/
def teamOnly : Override := ⟨.users ["alice".toList], none, none, some [.team]⟩

def sharedEndpoint : RawEndpoint where
  namespaceName := "user-alice".toList
  owner := "alice".toList
  team := some "red".toList
  access := some "shared".toList
  allowUsers := none
  allowGroups := none
  rules := some "- path: /admin".toList
  upstream := none
  provenance := .author

def adminRule : WireRule := ⟨"/admin".toList, .pathPrefix, "private".toList, none, none⟩

def sharedPolicy : EndpointPolicy where
  namespaceName := "user-alice".toList
  owner := "alice".toList
  team := some "red".toList
  profile := ⟨"shared".toList, false, [.team]⟩
  allowUsers := []
  allowGroups := []
  bearer := .reject
  rules := [⟨"/admin".toList, .pathPrefix, .any, .privateProfile, none⟩]
  provenance := .author
  upstream := none
  generation := 1

theorem compile_shared :
    compile (fun _ => .ok [adminRule]) sharedEndpoint sharedCatalogue sharedGrant [teamOnly] .standard 1 =
      .ok sharedPolicy := by decide +kernel

theorem compile_underCeiling_shared :
    UnderCeiling sharedCatalogue sharedGrant (some teamOnly) ⟨"shared".toList, false, [.team]⟩ :=
  (compile_underCeiling _ _ _ _ _ _ _ _ compile_shared).1

end WeeboSi.EndpointAuth
