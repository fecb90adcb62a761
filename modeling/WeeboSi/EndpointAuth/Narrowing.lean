import WeeboSi.EndpointAuth.CompileSpec

/-!
# Whether an override narrows

Source: crates/weebo-si-endpoint-auth/src/compile.rs:111-126, 264-349 and 443-460. An
override is documented as an intersection throughout. The allowed keys and the delegation
ceiling are one; the default is a replacement, and a policy closed by the override has no
rules left that could refuse an ambiguous path.
-/
namespace WeeboSi.EndpointAuth
open WeeboSi.Lib

/-- Ordered by what they let in: `narrow` anonymous only where `wide` is, and delegating
to no kind of caller that `wide` does not. -/
def AccessProfile.Within (narrow wide : AccessProfile) : Prop :=
  (narrow.anonymous = true → wide.anonymous = true) ∧
    ∀ kind, narrow.delegates kind = true → wide.delegates kind = true

theorem capped_within (profile : AccessProfile) (ceiling : Option (List Delegation)) :
    (profile.capped ceiling).Within profile := by
  cases ceiling with
  | none => exact ⟨id, fun _ => id⟩
  | some ceiling =>
    refine ⟨id, fun kind delegates => ?_⟩
    simp only [AccessProfile.capped, AccessProfile.delegates, List.contains_iff_mem, List.mem_filter]
      at delegates ⊢
    exact delegates.1

theorem letsIn_mono (policy : EndpointPolicy) (narrow wide : AccessProfile) (bearer : BearerMode)
    (credential : Credential) (within : narrow.Within wide)
    (h : letsIn policy narrow bearer credential = true) :
    letsIn policy wide bearer credential = true := by
  have delegated : isDelegated policy narrow credential = true →
      isDelegated policy wide credential = true := by
    cases credential with
    | session claims | bearer claims =>
      simp only [isDelegated, Bool.or_eq_true, Bool.and_eq_true]
      exact Or.imp (And.imp_left (within.2 .team)) (And.imp_left (within.2 .usersAndGroups))
    | _ => exact id
  unfold letsIn at h ⊢
  simp only [Bool.or_eq_true] at h ⊢
  rcases h with ((anonymous | self) | named) | passed
  · exact Or.inl (Or.inl (Or.inl (within.1 anonymous)))
  · exact Or.inl (Or.inl (Or.inr self))
  · exact Or.inl (Or.inr (delegated named))
  · exact Or.inr passed

theorem letsIn_self (policy : EndpointPolicy) (profile : AccessProfile) (bearer : BearerMode)
    (credential : Credential) (self : isSelf policy.owner policy.namespaceName credential = true) :
    letsIn policy profile bearer credential = true := by
  simp [letsIn, self]

section Override
variable (yaml : Text → Except Text (List WireRule)) (raw : RawEndpoint) (catalogue : Catalogue)
  (grant : Grant) (overrides : List Override) (settings : CompileSettings) (generation : Nat)

/-- The policy indexed for the endpoint under these overrides. -/
def servedPolicy : EndpointPolicy :=
  match compile yaml raw catalogue grant overrides settings generation with
  | .ok policy => policy
  | .error _ => .closed raw generation

def granted : Bounds := bounds grant none

def overridden : Bounds := bounds grant (applicable raw overrides)

def CompilesSomehow (within : Bounds) : Prop :=
  ∃ key wire, Compiles yaml raw catalogue settings within key wire

/-- The three kinds of request that an override lets through and the grant alone refuses. -/
inductive Widens (scope : HostScope) (request : AuthRequest) (credential : Credential) : Prop
  /-- The override closes the endpoint. The owner, or code of the workspace, asks for a
  path whose two readings select different rules: the closed policy has no rules. -/
  | closed (path : Text) (key : CatalogueKey) (wire : List WireRule)
      (refused : ¬ CompilesSomehow yaml raw catalogue settings (overridden raw grant overrides))
      (compiles : Compiles yaml raw catalogue settings (granted grant) key wire)
      (reaches : Reaches scope request path)
      (ambiguous : ruleIndex wire (beforeQuery request.rawPath) request.method ≠
        ruleIndex wire path request.method)
      (self : isSelf raw.owner raw.namespaceName credential = true)
  /-- No rule answers, so the endpoint's own profile does: the override's default lets the
  caller in and the grant's does not. -/
  | defaulted (path : Text) (narrowKey wideKey : CatalogueKey) (wire : List WireRule)
      (narrow : Compiles yaml raw catalogue settings (overridden raw grant overrides) narrowKey wire)
      (wide : Compiles yaml raw catalogue settings (granted grant) wideKey wire)
      (reaches : Reaches scope request path)
      (rawUnruled : ruleIndex wire (beforeQuery request.rawPath) request.method = none)
      (unruled : ruleIndex wire path request.method = none)
      (admits : letsIn (callersOf raw generation)
        (profileWithin catalogue (overridden raw grant overrides) narrowKey)
        settings.foreignBearer credential = true)
      (refuses : letsIn (callersOf raw generation) (profileWithin catalogue (granted grant) wideKey)
        settings.foreignBearer credential = false)
  /-- The grant's own default does not compile, and the override's does. -/
  | repaired (path : Text) (key : CatalogueKey) (wire : List WireRule)
      (narrow : Compiles yaml raw catalogue settings (overridden raw grant overrides) key wire)
      (refused : ¬ CompilesSomehow yaml raw catalogue settings (granted grant))
      (reaches : Reaches scope request path)
      (same : ruleIndex wire (beforeQuery request.rawPath) request.method =
        ruleIndex wire path request.method)
      (admits : Admits raw catalogue settings generation (overridden raw grant overrides) key wire path
        request.method credential)
      (other : isSelf raw.owner raw.namespaceName credential = false)

theorem applied_unruled (key : CatalogueKey) (wire : List WireRule) (path : Text) (method : Method)
    (unruled : ruleIndex wire path method = none) :
    appliedKey wire key path method = key ∧
      appliedBearer settings wire path method = settings.foreignBearer := by
  have none_ : wire.find? (fun rule => rule.answers path method) = none := by
    rw [ruleIndex, List.findIdx?_eq_none_iff] at unruled
    exact List.find?_eq_none.mpr fun rule member => by simp [unruled rule member]
  simp [appliedKey, appliedBearer, none_]

/-- Under a rule the override's ceiling only takes away. -/
theorem admits_of_rule (narrowKey wideKey : CatalogueKey) (wire : List WireRule) (path : Text)
    (method : Method) (credential : Credential) (index : Nat)
    (ruled : ruleIndex wire path method = some index)
    (admits : Admits raw catalogue settings generation (overridden raw grant overrides) narrowKey wire
      path method credential) :
    Admits raw catalogue settings generation (granted grant) wideKey wire path method credential := by
  obtain ⟨rule, found⟩ : ∃ rule, wire.find? (fun rule => rule.answers path method) = some rule := by
    have isRuled : (wire.findIdx? fun rule => rule.answers path method).isSome := by
      unfold ruleIndex at ruled
      simp [ruled]
    rw [List.findIdx?_isSome] at isRuled
    exact Option.isSome_iff_exists.mp (by simpa [List.find?_isSome] using isRuled)
  unfold Admits appliedKey at admits ⊢
  rw [found] at admits ⊢
  exact letsIn_mono _ _ _ _ _ (capped_within _ _) admits

variable (scope : HostScope) (request : AuthRequest) (credential : Credential)

theorem Reaches.unique (path other : Text) (a : Reaches scope request path)
    (b : Reaches scope request other) : path = other :=
  Except.ok.inj (a.normal.symm.trans b.normal)

theorem Reaches.not_preflight (path : Text) (a : Reaches scope request path) :
    ¬ PreflightAllowed scope request := by
  rintro ⟨-, -, preflight⟩
  rw [a.plain] at preflight
  cases preflight

/-- Both compile: only the endpoint's own profile can differ. -/
theorem narrows_of_both (narrowKey wideKey : CatalogueKey) (wire : List WireRule)
    (narrow : Compiles yaml raw catalogue settings (overridden raw grant overrides) narrowKey wire)
    (wide : Compiles yaml raw catalogue settings (granted grant) wideKey wire)
    (safe : ¬ Widens yaml raw catalogue grant overrides settings generation scope request credential)
    (path : Text) (reaches : Reaches scope request path)
    (same : ruleIndex wire (beforeQuery request.rawPath) request.method =
      ruleIndex wire path request.method)
    (admits : Admits raw catalogue settings generation (overridden raw grant overrides) narrowKey wire
      path request.method credential) :
    Admits raw catalogue settings generation (granted grant) wideKey wire path request.method
      credential := by
  cases ruled : ruleIndex wire path request.method with
  | some index =>
    exact admits_of_rule raw catalogue grant overrides settings generation narrowKey wideKey wire path
      request.method credential index ruled admits
  | none =>
    by_contra refused
    have narrowApplied := applied_unruled settings narrowKey wire path request.method ruled
    have wideApplied := applied_unruled settings wideKey wire path request.method ruled
    rw [Admits, narrowApplied.1, narrowApplied.2] at admits
    rw [Admits, wideApplied.1, wideApplied.2, Bool.not_eq_true] at refused
    exact safe (.defaulted path narrowKey wideKey wire narrow wide reaches (same.trans ruled) ruled
      admits refused)

/-- A request that the override lets through is let through without it, unless it is of
one of the three kinds. -/
theorem override_narrows_iff :
    ((decide request scope (.policy (servedPolicy yaml raw catalogue grant overrides settings generation))
        credential).isAllow = true →
      (decide request scope (.policy (servedPolicy yaml raw catalogue grant [] settings generation))
        credential).isAllow = true) ↔
      ¬ Widens yaml raw catalogue grant overrides settings generation scope request credential := by
  have narrowEq : servedPolicy yaml raw catalogue grant overrides settings generation =
      indexedPolicy yaml raw catalogue settings generation (overridden raw grant overrides) := rfl
  have wideEq : servedPolicy yaml raw catalogue grant [] settings generation =
      indexedPolicy yaml raw catalogue settings generation (granted grant) := rfl
  rw [narrowEq, wideEq]
  constructor
  · intro narrows widens
    cases widens with
    | closed path key wire refused compiles reaches ambiguous self =>
      rw [indexed_isAllow_closed yaml raw catalogue settings generation _ refused,
        indexed_isAllow_compiled yaml raw catalogue settings generation _ key wire compiles] at narrows
      rcases narrows (Or.inr ⟨path, reaches, self⟩) with preflight | ⟨other, again, same, -⟩
      · exact reaches.not_preflight _ _ _ preflight
      · rw [again.unique _ _ _ _ reaches] at same
        exact ambiguous same
    | defaulted path narrowKey wideKey wire narrow wide reaches rawUnruled unruled admits refuses =>
      rw [indexed_isAllow_compiled yaml raw catalogue settings generation _ narrowKey wire narrow,
        indexed_isAllow_compiled yaml raw catalogue settings generation _ wideKey wire wide] at narrows
      have narrowApplied := applied_unruled settings narrowKey wire path request.method unruled
      have wideApplied := applied_unruled settings wideKey wire path request.method unruled
      have admitted : Admits raw catalogue settings generation (overridden raw grant overrides) narrowKey
          wire path request.method credential := by
        rw [Admits, narrowApplied.1, narrowApplied.2]
        exact admits
      rcases narrows (Or.inr ⟨path, reaches, rawUnruled.trans unruled.symm, admitted⟩) with
        preflight | ⟨other, again, -, let_in⟩
      · exact reaches.not_preflight _ _ _ preflight
      · rw [again.unique _ _ _ _ reaches, Admits, wideApplied.1, wideApplied.2, refuses] at let_in
        cases let_in
    | repaired path key wire narrow refused reaches same admits other =>
      rw [indexed_isAllow_compiled yaml raw catalogue settings generation _ key wire narrow,
        indexed_isAllow_closed yaml raw catalogue settings generation _ refused] at narrows
      rcases narrows (Or.inr ⟨path, reaches, same, admits⟩) with preflight | ⟨-, -, self⟩
      · exact reaches.not_preflight _ _ _ preflight
      · rw [other] at self
        cases self
  · intro safe
    by_cases narrow : CompilesSomehow yaml raw catalogue settings (overridden raw grant overrides)
    · obtain ⟨narrowKey, wire, narrow⟩ := narrow
      rw [indexed_isAllow_compiled yaml raw catalogue settings generation _ narrowKey wire narrow]
      by_cases wide : CompilesSomehow yaml raw catalogue settings (granted grant)
      · obtain ⟨wideKey, wire', wide⟩ := wide
        obtain rfl : wire' = wire := Except.ok.inj (wide.read.symm.trans narrow.read)
        rw [indexed_isAllow_compiled yaml raw catalogue settings generation _ wideKey wire' wide]
        rintro (preflight | ⟨path, reaches, same, admits⟩)
        · exact Or.inl preflight
        · exact Or.inr ⟨path, reaches, same, narrows_of_both yaml raw catalogue grant overrides settings
            generation scope request credential narrowKey wideKey wire' narrow wide safe path reaches same
            admits⟩
      · rw [indexed_isAllow_closed yaml raw catalogue settings generation _ wide]
        rintro (preflight | ⟨path, reaches, same, admits⟩)
        · exact Or.inl preflight
        · refine Or.inr ⟨path, reaches, ?_⟩
          by_contra other
          rw [Bool.not_eq_true] at other
          exact safe (.repaired path narrowKey wire narrow wide reaches same admits other)
    · rw [indexed_isAllow_closed yaml raw catalogue settings generation _ narrow]
      by_cases wide : CompilesSomehow yaml raw catalogue settings (granted grant)
      · obtain ⟨wideKey, wire, wide⟩ := wide
        rw [indexed_isAllow_compiled yaml raw catalogue settings generation _ wideKey wire wide]
        rintro (preflight | ⟨path, reaches, self⟩)
        · exact Or.inl preflight
        · refine Or.inr ⟨path, reaches, ?_, letsIn_self _ _ _ _ self⟩
          by_contra ambiguous
          exact safe (.closed path wideKey wire narrow wide reaches ambiguous self)
      · rw [indexed_isAllow_closed yaml raw catalogue settings generation _ wide]
        exact id

end Override

/-! ## An override that opens -/

/-- The endpoint of `alice`, with no annotation of its own. -/
def plainEndpoint : RawEndpoint where
  namespaceName := "user-alice".toList
  owner := "alice".toList
  team := none
  access := none
  allowUsers := none
  allowGroups := none
  rules := none
  upstream := none
  provenance := .author

def twoProfiles : Catalogue where
  entries := [("private".toList, ⟨"private".toList, false, []⟩), ("open".toList, ⟨"open".toList, true, []⟩)]
  sound := by decide

/-- Both keys are granted and `private` is the grant's default; the override names `open`. -/
theorem override_default_opens :
    ¬ ∀ (yaml : Text → Except Text (List WireRule)) (raw : RawEndpoint) (catalogue : Catalogue)
      (grant : Grant) (overrides : List Override) (settings : CompileSettings) (generation : Nat)
      (scope : HostScope) (request : AuthRequest) (credential : Credential),
      (decide request scope
        (.policy (servedPolicy yaml raw catalogue grant overrides settings generation))
        credential).isAllow = true →
      (decide request scope (.policy (servedPolicy yaml raw catalogue grant [] settings generation))
        credential).isAllow = true := by
  intro narrows
  have opened := narrows (fun _ => .ok []) plainEndpoint twoProfiles
    ⟨["private".toList, "open".toList], "private".toList⟩
    [⟨.users ["alice".toList], none, some "open".toList, none⟩] .standard 1
    ⟨".weebo.si".toList, [], by decide⟩
    ⟨⟨"api.weebo.si".toList, by decide, by decide, by decide⟩, "/".toList, .get, .https, .navigation, false⟩
    .none (by decide +kernel)
  exact absurd opened (by decide +kernel)

end WeeboSi.EndpointAuth
