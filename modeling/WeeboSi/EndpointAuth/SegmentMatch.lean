import WeeboSi.EndpointAuth.Ceiling
import WeeboSi.EndpointAuth.NormalPath

/-!
# Rules match on segments

Source: crates/weebo-si-endpoint-auth/src/policy.rs:207-229, 323-338. The source compares
texts; between normal paths that is a comparison of lists of segments.
-/
namespace WeeboSi.EndpointAuth
open WeeboSi.Lib

/-- What a rule's segments have to be for a path's. -/
def MatchKind.Covers (kind : MatchKind) (rule path : List Text) : Prop :=
  match kind with
  | .exactPath => rule = path
  | .pathPrefix => rule <+: path

/-- The rule covers the method and the path's segments. -/
def PathRule.Applies (rule : PathRule) (path : Text) (method : Method) : Prop :=
  rule.methods.contains method = true ∧ rule.kind.Covers (segmentsOf rule.path) (segmentsOf path)

theorem joinSegments_inj (a b : List Text) (aFree : SlashFree a) (bFree : SlashFree b)
    (same : joinSegments a = joinSegments b) : a = b := by
  have parts := congrArg (List.splitOn '/') same
  rw [splitOn_join a aFree, splitOn_join b bFree] at parts
  exact (List.cons.inj parts).2

/-- A joined prefix that ends at a slash is a prefix of the segments. -/
theorem joinSegments_prefix (a b : List Text) (aFree : SlashFree a) (bFree : SlashFree b) (more : Text) :
    joinSegments b = joinSegments a ++ '/' :: more → a <+: b := by
  intro same
  have rest := joinSegments_splitOn more
  rw [← rest, ← joinSegments_append] at same
  have free : SlashFree (a ++ more.splitOn '/') := by
    intro s member
    rcases List.mem_append.mp member with inside | after
    · exact aFree s inside
    · exact slashFree_splitOn more s after
  exact ⟨more.splitOn '/', (joinSegments_inj b _ bFree free same).symm⟩

theorem matchesPath_joined (kind : MatchKind) (rulePath path : Text) (a b : List Text)
    (aFree : SlashFree a) (bFree : SlashFree b) (ruleJoined : stripLast '/' rulePath = joinSegments a)
    (pathJoined : stripLast '/' path = joinSegments b) :
    kind.matchesPath rulePath path = true ↔ kind.Covers a b := by
  unfold MatchKind.matchesPath
  simp only [ruleJoined, pathJoined]
  cases kind with
  | exactPath =>
    rw [beq_iff_eq]
    exact ⟨joinSegments_inj a b aFree bFree, congrArg joinSegments⟩
  | pathPrefix =>
    simp only [Bool.or_eq_true, Bool.and_eq_true, beq_iff_eq, List.isPrefixOf_iff_prefix]
    constructor
    · rintro ((root | same) | ⟨⟨rest, split⟩, slash⟩)
      · rw [joinSegments_inj a [] aFree (by simp [SlashFree]) root]
        exact List.nil_prefix
      · rw [joinSegments_inj b a bFree aFree same]
        exact List.prefix_rfl
      · rw [← split, List.drop_left] at slash
        obtain ⟨more, rfl⟩ := List.head?_eq_some_iff.mp slash
        exact joinSegments_prefix a b aFree bFree more split.symm
    · rintro ⟨rest, rfl⟩
      rw [joinSegments_append]
      cases rest with
      | nil => simp
      | cons s more => simp

theorem matchesPath_normal (kind : MatchKind) (rulePath path : Text) (a b : List Text) (s t : Bool)
    (rule : NormalPath rulePath a s) (candidate : NormalPath path b t) :
    kind.matchesPath rulePath path = true ↔ kind.Covers (segmentsOf rulePath) (segmentsOf path) := by
  rw [rule.segmentsOf rulePath a s, candidate.segmentsOf path b t]
  exact matchesPath_joined kind rulePath path a b (rule.slashFree rulePath a s)
    (candidate.slashFree path b t) (rule.stripLast rulePath a s) (candidate.stripLast path b t)

/-! ## Selection -/

/-- The first rule that answers is the one selected. -/
theorem selectFrom_cases (policy : EndpointPolicy) (path : Text) (method : Method) (rules : List PathRule)
    (index : Nat) :
    (∃ before rule after, rules = before ++ rule :: after ∧
      (∀ other ∈ before, other.answers path method = false) ∧ rule.answers path method = true ∧
      policy.selectFrom path method index rules =
        ⟨some (index + before.length), rule.profile, rule.bearer.getD policy.bearer⟩) ∨
    (∀ other ∈ rules, other.answers path method = false) ∧
      policy.selectFrom path method index rules = ⟨none, policy.profile, policy.bearer⟩ := by
  induction rules generalizing index with
  | nil => exact Or.inr ⟨by simp, rfl⟩
  | cons rule rest ih =>
    cases answers : rule.answers path method with
    | true =>
      refine Or.inl ⟨[], rule, rest, rfl, by simp, answers, ?_⟩
      simp [EndpointPolicy.selectFrom, answers]
    | false =>
      have later : policy.selectFrom path method index (rule :: rest) =
          policy.selectFrom path method (index + 1) rest := by
        simp [EndpointPolicy.selectFrom, answers]
      rw [later]
      rcases ih (index + 1) with ⟨before, found, after, split, earlier, here, selected⟩ | ⟨nobody, selected⟩
      · refine Or.inl ⟨rule :: before, found, after, by rw [split]; rfl, ?_, here, ?_⟩
        · simpa [answers] using earlier
        · rw [selected, List.length_cons]
          congr 2
          omega
      · exact Or.inr ⟨by simpa [answers] using nobody, selected⟩

/-- A path is read without its closing slash. -/
theorem select_congr (policy : EndpointPolicy) (path other : Text) (method : Method)
    (same : stripLast '/' path = stripLast '/' other) :
    policy.select path method = policy.select other method := by
  have answers : ∀ rule : PathRule, rule.answers path method = rule.answers other method := by
    intro rule
    simp only [PathRule.answers, MatchKind.matchesPath, same]
  have loop : ∀ (rules : List PathRule) (index : Nat),
      policy.selectFrom path method index rules = policy.selectFrom other method index rules := by
    intro rules
    induction rules with
    | nil => exact fun _ => rfl
    | cons rule rest ih =>
      intro index
      simp only [EndpointPolicy.selectFrom, answers, ih]
  exact loop policy.rules 0

/-- What `select` is for: the first rule that applies, and else the endpoint's own answer. -/
inductive Selects (policy : EndpointPolicy) (path : Text) (method : Method) : Selected → Prop
  | first (before : List PathRule) (rule : PathRule) (after : List PathRule) :
      policy.rules = before ++ rule :: after → (∀ other ∈ before, ¬ other.Applies path method) →
      rule.Applies path method →
      Selects policy path method ⟨some before.length, rule.profile, rule.bearer.getD policy.bearer⟩
  | none_ : (∀ other ∈ policy.rules, ¬ other.Applies path method) →
      Selects policy path method ⟨none, policy.profile, policy.bearer⟩

section Compiled
variable (yaml : Text → Except Text (List WireRule)) (raw : RawEndpoint) (catalogue : Catalogue)
  (grant : Grant) (overrides : List Override) (settings : CompileSettings) (generation : Nat)

theorem compiled_rule_normal (policy : EndpointPolicy)
    (compiled : compile yaml raw catalogue grant overrides settings generation = .ok policy)
    (rule : PathRule) (member : rule ∈ policy.rules) :
    ∃ segments trailing, NormalPath rule.path segments trailing := by
  obtain ⟨key, wire, compiles, rfl⟩ :=
    (compileWithin_eq_ok yaml raw catalogue settings generation _ policy).mp compiled
  obtain ⟨written, inside, rfl⟩ := List.mem_map.mp member
  exact (normalise_normal written.path written.path (compiles.rules written inside).1.path).1

/-- On a normalised path the rules of a compiled policy match by segments, the first of them
is selected, and a closing slash makes no difference. -/
theorem compiled_rules_match (policy : EndpointPolicy)
    (compiled : compile yaml raw catalogue grant overrides settings generation = .ok policy)
    (rawPath path : Text) (normalised : normalise rawPath = .ok path) (method : Method) :
    (∀ rule ∈ policy.rules, rule.answers path method = true ↔ rule.Applies path method) ∧
      Selects policy path method (policy.select path method) ∧
      policy.select (stripLast '/' path) method = policy.select path method ∧
      policy.select (stripLast '/' path ++ ['/']) method = policy.select path method := by
  obtain ⟨⟨segments, trailing, normal⟩, -⟩ := normalise_normal rawPath path normalised
  have rules : ∀ rule ∈ policy.rules, rule.answers path method = true ↔ rule.Applies path method := by
    intro rule member
    obtain ⟨own, closed, shape⟩ := compiled_rule_normal yaml raw catalogue grant overrides settings
      generation policy compiled rule member
    rw [PathRule.answers, Bool.and_eq_true, matchesPath_normal _ _ _ own segments closed trailing shape normal]
    rfl
  have silent : ∀ rule ∈ policy.rules, rule.answers path method = false → ¬ rule.Applies path method := by
    intro rule member quiet applies
    rw [(rules rule member).mpr applies] at quiet
    cases quiet
  have once : stripLast '/' (stripLast '/' path) = stripLast '/' path := by
    rw [normal.stripLast path segments trailing]
    apply stripLast_absent
    intro last
    cases segments with
    | nil => cases last
    | cons s rest =>
      have ends := (getLast_join _ (normal.slashFree path _ trailing) (by simp)).mp last
      exact (normal.2 [] (List.mem_of_getLast? ends)).nonempty rfl
  refine ⟨rules, ?_, select_congr policy _ _ method once,
    select_congr policy _ _ method (stripLast_append '/' _)⟩
  unfold EndpointPolicy.select
  rcases selectFrom_cases policy path method policy.rules 0 with
    ⟨before, rule, after, split, earlier, here, selected⟩ | ⟨nobody, selected⟩
  · rw [selected, Nat.zero_add]
    refine .first before rule after split ?_ ((rules rule (by rw [split]; simp)).mp here)
    exact fun other member => silent other (by rw [split]; simp [member]) (earlier other member)
  · rw [selected]
    exact .none_ fun other member => silent other member (nobody other member)

end Compiled

theorem compiled_rules_match_admin :
    sharedPolicy.select "/admin/users".toList .get = sharedPolicy.select "/admin/users/".toList .get ∧
      Selects sharedPolicy "/admin/users/".toList .get ⟨some 0, .privateProfile, .reject⟩ := by
  have normalised : normalise "/admin//users/".toList = .ok "/admin/users/".toList := by decide +kernel
  obtain ⟨-, selects, without, -⟩ :=
    compiled_rules_match _ _ _ _ _ _ _ sharedPolicy compile_shared _ _ normalised .get
  exact ⟨without, selects⟩

end WeeboSi.EndpointAuth
