import WeeboSi.EndpointAuth.Compile
import WeeboSi.EndpointAuth.Decide

/-!
# What a compiled endpoint permits

Source: crates/weebo-si-endpoint-auth/src/compile.rs:264-460 read through decide.rs:198-325.
When an endpoint compiles, and which requests its policy lets through, told from the
annotations, the catalogue and the bounds alone.
-/
namespace WeeboSi.EndpointAuth
open WeeboSi.Lib

/-! ## Rules as written -/

def WireRule.methodSet (wire : WireRule) : MethodSet :=
  match wire.methods with
  | none => .any
  | some listed => .of (listed.map Method.parse)

def WireRule.answers (wire : WireRule) (path : Text) (method : Method) : Bool :=
  wire.methodSet.contains method && wire.kind.matchesPath wire.path path

/-- A rule the gate could match: its path is normal and it lists known methods only. -/
structure WireRule.WellFormed (wire : WireRule) : Prop where
  path : normalise wire.path = .ok wire.path
  methods : ∀ listed, wire.methods = some listed →
    listed ≠ [] ∧ ∀ method ∈ listed, Method.parse method ≠ .other

theorem compileMethods_eq_ok (wire : WireRule) (set : MethodSet) :
    compileMethods wire.path wire.methods = .ok set ↔
      (∀ listed, wire.methods = some listed →
        listed ≠ [] ∧ ∀ method ∈ listed, Method.parse method ≠ .other) ∧ set = wire.methodSet := by
  unfold WireRule.methodSet
  cases wire.methods with
  | none => simp [compileMethods, eq_comm]
  | some listed =>
    have loop : ∀ (names : List Text) (parsed : List Method),
        names.mapM (fun method => if Method.parse method = .other then
          Except.error (CompileError.unknownMethod method) else .ok (Method.parse method)) = .ok parsed ↔
        (∀ method ∈ names, Method.parse method ≠ .other) ∧ parsed = names.map Method.parse := by
      intro names
      induction names with
      | nil => simp [pure, Except.pure, eq_comm]
      | cons name rest ih =>
        intro parsed
        simp only [List.mapM_cons, bind_eq_ok, guard_eq_ok, ih, pure, Except.pure, Except.ok.injEq,
          List.mem_cons, forall_eq_or_imp, List.map_cons]
        constructor
        · rintro ⟨first, ⟨known, rfl⟩, more, ⟨others, rfl⟩, rfl⟩
          exact ⟨⟨known, others⟩, rfl⟩
        · rintro ⟨⟨known, others⟩, rfl⟩
          exact ⟨_, ⟨known, rfl⟩, _, ⟨others, rfl⟩, rfl⟩
    simp only [compileMethods, guard_eq_ok, bind_eq_ok, loop, Except.ok.injEq, Option.some.injEq,
      forall_eq']
    constructor
    · rintro ⟨some_, parsed, ⟨known, rfl⟩, rfl⟩
      exact ⟨⟨some_, known⟩, rfl⟩
    · rintro ⟨⟨some_, known⟩, rfl⟩
      exact ⟨some_, _, ⟨known, rfl⟩, rfl⟩

theorem resolveProfile_eq_ok (key : CatalogueKey) (catalogue : Catalogue) (within : Bounds)
    (profile : AccessProfile) :
    resolveProfile key catalogue within = .ok profile ↔
      ∃ entry, catalogue.profile key = some entry ∧ key ∈ within.allowed ∧
        profile = entry.capped within.ceiling := by
  unfold resolveProfile
  cases catalogue.profile key with
  | none => simp
  | some entry =>
    simp only [guard_eq_ok, not_not, Except.ok.injEq, Option.some.injEq, exists_eq_left']
    exact and_congr_right fun _ => eq_comm

theorem compileRule_eq_ok (catalogue : Catalogue) (within : Bounds) (wire : WireRule)
    (rule : PathRule) :
    compileRule catalogue within wire = .ok rule ↔
      wire.WellFormed ∧ ∃ entry, catalogue.profile wire.access = some entry ∧
        wire.access ∈ within.allowed ∧
        rule = ⟨wire.path, wire.kind, wire.methodSet, entry.capped within.ceiling, wire.bearer⟩ := by
  unfold compileRule
  simp only [bind_eq_ok, guard_eq_ok, compileMethods_eq_ok, resolveProfile_eq_ok, Except.ok.injEq, not_not]
  constructor
  · rintro ⟨path, normal, rfl, set, ⟨methods, rfl⟩, profile, ⟨entry, defined, granted, rfl⟩, rfl⟩
    refine ⟨⟨?_, methods⟩, entry, defined, granted, rfl⟩
    cases path : normalise wire.path with
    | error e =>
      rw [path] at normal
      cases normal
    | ok value =>
      rw [path] at normal
      rw [← Except.ok.inj normal]
  · rintro ⟨shape, entry, defined, granted, rfl⟩
    refine ⟨wire.path, by rw [shape.path]; rfl, rfl, _, ⟨shape.methods, rfl⟩, _,
      ⟨entry, defined, granted, rfl⟩, rfl⟩

/-! ## When an endpoint compiles -/

def keyGranted (catalogue : Catalogue) (within : Bounds) (key : CatalogueKey) : Prop :=
  (∃ entry, catalogue.profile key = some entry) ∧ key ∈ within.allowed

section Endpoint
variable (yaml : Text → Except Text (List WireRule)) (raw : RawEndpoint) (catalogue : Catalogue)
  (settings : CompileSettings) (generation : Nat)

/-- The key the endpoint asks for, its rules and the bounds fit together. -/
structure Compiles (within : Bounds) (key : CatalogueKey) (wire : List WireRule) : Prop where
  default : within.default ∈ within.allowed
  chosen : chosenKey raw catalogue settings within.default = .ok key
  granted : keyGranted catalogue within key
  read : readRules yaml raw settings = .ok wire
  rules : ∀ rule ∈ wire, rule.WellFormed ∧ keyGranted catalogue within rule.access

/-- The endpoint's annotations, without a profile. -/
def callersOf : EndpointPolicy :=
  { EndpointPolicy.closed raw generation with
    allowUsers := splitNames raw.allowUsers
    allowGroups := splitNames raw.allowGroups }

/-- The profile a granted key stands for within the bounds. -/
def profileWithin (within : Bounds) (key : CatalogueKey) : AccessProfile :=
  ((catalogue.profile key).getD .privateProfile).capped within.ceiling

def ruleWithin (within : Bounds) (wire : WireRule) : PathRule :=
  ⟨wire.path, wire.kind, wire.methodSet, profileWithin catalogue within wire.access, wire.bearer⟩

theorem compileRules_granted (within : Bounds) (wire : List WireRule)
    (granted : ∀ rule ∈ wire, rule.WellFormed ∧ keyGranted catalogue within rule.access) :
    wire.mapM (compileRule catalogue within) = .ok (wire.map (ruleWithin catalogue within)) := by
  rw [mapM_eq_ok, List.forall₂_map_right_iff, List.forall₂_same]
  intro rule member
  obtain ⟨shape, ⟨entry, defined⟩, allowed⟩ := granted rule member
  rw [compileRule_eq_ok]
  exact ⟨shape, entry, defined, allowed, by simp [ruleWithin, profileWithin, defined]⟩

theorem compileRules_refused (within : Bounds) (wire : List WireRule) (rules : List PathRule)
    (h : wire.mapM (compileRule catalogue within) = .ok rules) :
    ∀ rule ∈ wire, rule.WellFormed ∧ keyGranted catalogue within rule.access := by
  rw [mapM_eq_ok] at h
  intro rule member
  induction h with
  | nil => simp at member
  | cons first _ ih =>
    rcases List.mem_cons.mp member with rfl | member
    · obtain ⟨shape, entry, defined, allowed, -⟩ := (compileRule_eq_ok _ _ _ _).mp first
      exact ⟨shape, ⟨entry, defined⟩, allowed⟩
    · exact ih member

/-- The policy of an endpoint that compiles. -/
def policyWithin (within : Bounds) (key : CatalogueKey) (wire : List WireRule) : EndpointPolicy :=
  { callersOf raw generation with
    profile := profileWithin catalogue within key
    bearer := settings.foreignBearer
    rules := wire.map (ruleWithin catalogue within) }

theorem compileWithin_eq_ok (within : Bounds) (policy : EndpointPolicy) :
    compileWithin yaml raw catalogue within settings generation = .ok policy ↔
      ∃ key wire, Compiles yaml raw catalogue settings within key wire ∧
        policy = policyWithin raw catalogue settings generation within key wire := by
  unfold compileWithin compileRules
  simp only [guard_eq_ok, not_not, bind_eq_ok, resolveProfile_eq_ok, Except.ok.injEq]
  constructor
  · rintro ⟨default, key, chosen, profile, ⟨entry, defined, allowed, rfl⟩, rules, ⟨wire, read, compiled⟩, rfl⟩
    have granted := compileRules_refused catalogue within wire rules compiled
    have rulesEq := (compileRules_granted catalogue within wire granted).symm.trans compiled
    refine ⟨key, wire, ⟨default, chosen, ⟨⟨entry, defined⟩, allowed⟩, read, granted⟩, ?_⟩
    rw [← Except.ok.inj rulesEq]
    simp [policyWithin, callersOf, EndpointPolicy.closed, profileWithin, defined]
  · rintro ⟨key, wire, compiles, rfl⟩
    obtain ⟨⟨entry, defined⟩, allowed⟩ := compiles.granted
    refine ⟨compiles.default, key, compiles.chosen, _, ⟨entry, defined, allowed, rfl⟩, _,
      ⟨wire, compiles.read, compileRules_granted catalogue within wire compiles.rules⟩, ?_⟩
    simp [policyWithin, callersOf, EndpointPolicy.closed, profileWithin, defined]

/-! ## Which requests are let through -/

/-- The position of the first written rule that answers. -/
def ruleIndex (wire : List WireRule) (path : Text) (method : Method) : Option Nat :=
  wire.findIdx? fun rule => rule.answers path method

/-- The key a path resolves to: the first answering rule's, else the endpoint's own. -/
def appliedKey (wire : List WireRule) (key : CatalogueKey) (path : Text) (method : Method) :
    CatalogueKey :=
  ((wire.find? fun rule => rule.answers path method).map WireRule.access).getD key

def appliedBearer (wire : List WireRule) (path : Text) (method : Method) : BearerMode :=
  ((wire.find? fun rule => rule.answers path method).bind WireRule.bearer).getD settings.foreignBearer

theorem selectFrom_within (policy : EndpointPolicy) (within : Bounds) (path : Text) (method : Method)
    (wire : List WireRule) (index : Nat) :
    policy.selectFrom path method index (wire.map (ruleWithin catalogue within)) =
      match wire.find? fun rule => rule.answers path method with
      | some rule => ⟨(ruleIndex wire path method).map (· + index),
          profileWithin catalogue within rule.access, rule.bearer.getD policy.bearer⟩
      | none => ⟨(ruleIndex wire path method).map (· + index), policy.profile, policy.bearer⟩ := by
  unfold ruleIndex
  induction wire generalizing index with
  | nil => rfl
  | cons rule rest ih =>
    have same : (ruleWithin catalogue within rule).answers path method = rule.answers path method := rfl
    cases answers : rule.answers path method with
    | true =>
      simp only [List.map_cons, EndpointPolicy.selectFrom, same, answers, if_true, List.find?_cons,
        List.findIdx?_cons, Option.map_some, Nat.zero_add]
      rfl
    | false =>
      simp only [List.map_cons, EndpointPolicy.selectFrom, same, answers, Bool.false_eq_true, if_false,
        List.find?_cons, List.findIdx?_cons, ih, Option.map_map]
      have shift : (fun position : Nat => position + (index + 1)) = (· + index) ∘ (· + 1) := by
        funext position
        simp only [Function.comp]
        omega
      rw [shift]

theorem select_within (within : Bounds) (key : CatalogueKey) (wire : List WireRule) (path : Text)
    (method : Method) :
    (policyWithin raw catalogue settings generation within key wire).select path method =
      ⟨ruleIndex wire path method, profileWithin catalogue within (appliedKey wire key path method),
        appliedBearer settings wire path method⟩ := by
  have zero : (fun position : Nat => position + 0) = id := rfl
  unfold EndpointPolicy.select
  rw [policyWithin, selectFrom_within, zero]
  unfold appliedKey appliedBearer
  cases wire.find? fun rule => rule.answers path method with
  | none => simp
  | some rule => simp

theorem letsIn_within (within : Bounds) (key : CatalogueKey) (wire : List WireRule)
    (profile : AccessProfile) (bearer : BearerMode) (credential : Credential) :
    letsIn (policyWithin raw catalogue settings generation within key wire) profile bearer credential =
      letsIn (callersOf raw generation) profile bearer credential := rfl

/-- The bounds let the caller in on this path. -/
def Admits (within : Bounds) (key : CatalogueKey) (wire : List WireRule) (path : Text)
    (method : Method) (credential : Credential) : Prop :=
  letsIn (callersOf raw generation) (profileWithin catalogue within (appliedKey wire key path method))
    (appliedBearer settings wire path method) credential = true

/-- A preflight of a governed host, which any policy allows. -/
def PreflightAllowed (scope : HostScope) (request : AuthRequest) : Prop :=
  request.scheme = .https ∧ scope.governs request.host = true ∧ request.preflight = true

/-- The policy indexed for an endpoint: closed where it does not compile. -/
def indexedPolicy (within : Bounds) : EndpointPolicy :=
  match compileWithin yaml raw catalogue within settings generation with
  | .ok policy => policy
  | .error _ => .closed raw generation

theorem indexed_isAllow_compiled (within : Bounds) (key : CatalogueKey) (wire : List WireRule)
    (compiles : Compiles yaml raw catalogue settings within key wire) (scope : HostScope)
    (request : AuthRequest) (credential : Credential) :
    (decide request scope (.policy (indexedPolicy yaml raw catalogue settings generation within))
        credential).isAllow = true ↔
      PreflightAllowed scope request ∨ ∃ path, Reaches scope request path ∧
        ruleIndex wire (beforeQuery request.rawPath) request.method =
          ruleIndex wire path request.method ∧
        Admits raw catalogue settings generation within key wire path request.method credential := by
  have compiled := (compileWithin_eq_ok yaml raw catalogue settings generation within _).mpr
    ⟨key, wire, compiles, rfl⟩
  rw [indexedPolicy, compiled]
  simp only [decide_isAllow, select_within, letsIn_within]
  rfl

theorem indexed_isAllow_closed (within : Bounds)
    (refused : ¬ ∃ key wire, Compiles yaml raw catalogue settings within key wire) (scope : HostScope)
    (request : AuthRequest) (credential : Credential) :
    (decide request scope (.policy (indexedPolicy yaml raw catalogue settings generation within))
        credential).isAllow = true ↔
      PreflightAllowed scope request ∨ ∃ path, Reaches scope request path ∧
        isSelf raw.owner raw.namespaceName credential = true := by
  have closed : indexedPolicy yaml raw catalogue settings generation within = .closed raw generation := by
    unfold indexedPolicy
    cases compiled : compileWithin yaml raw catalogue within settings generation with
    | error e => rfl
    | ok policy =>
      obtain ⟨key, wire, compiles, -⟩ :=
        (compileWithin_eq_ok yaml raw catalogue settings generation within policy).mp compiled
      exact absurd ⟨key, wire, compiles⟩ refused
  have nobody : letsIn (.closed raw generation) .privateProfile .reject credential =
      isSelf raw.owner raw.namespaceName credential := by
    have delegated : isDelegated (.closed raw generation) .privateProfile credential = false := by
      cases credential with
      | session claims | bearer claims => rfl
      | _ => rfl
    have passed : isPassedThrough .reject credential = false := by
      cases credential with
      | foreignBearer => rfl
      | _ => rfl
    rw [letsIn, delegated, passed, Bool.or_false, Bool.or_false]
    rfl
  have whole : ∀ path method, (EndpointPolicy.closed raw generation).select path method =
      ⟨none, .privateProfile, .reject⟩ := fun _ _ => rfl
  rw [closed]
  simp only [decide_isAllow, whole, nobody, true_and]
  rfl

end Endpoint

end WeeboSi.EndpointAuth
