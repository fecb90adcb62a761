import WeeboSi.Crd.Attachment
import WeeboSi.EndpointAuth.CompileSpec

/-!
# Annotations that admission accepts

Source: crates/weebo-si-endpoint-auth-adapters/src/endpoint_auth.rs:518-593 beside
bins/endpoint-gateway/src/adapters/kube_catalog.rs:245-274, 511-568. The text of an error is
left to the error.
-/
namespace WeeboSi.EndpointAuthAdapters
open WeeboSi.Lib WeeboSi.Crd WeeboSi.EndpointAuth WeeboSi.Gateway

/-- The part of the configuration that is compiled from. -/
def featureOf (resolved : ResolvedEndpointAuthSpec) : ResolvedEndpointAuthConfig :=
  ⟨resolved.config.toEndpointAuthConfig, resolved.grants⟩

def catalogueEntries (catalog : List AccessEntry) : List (CatalogueKey × Bool × List Delegation) :=
  catalog.map fun entry => (entry.key, entry.anonymous, entry.delegation.map translateDelegation)

/-- Stricter than the gateway on one point: a key nobody defined is refused. -/
def admissionSettings : CompileSettings := ⟨.reject, 16, .deny⟩

def admissionEndpoint (annotations : List (Text × Text)) (ns : Text) (owner team : Option Text) : RawEndpoint where
  namespaceName := ns
  owner := owner.getD []
  team := team
  access := annotations.lookup accessAnnotationKey
  allowUsers := annotations.lookup allowUsersAnnotationKey
  allowGroups := annotations.lookup allowGroupsAnnotationKey
  rules := annotations.lookup rulesAnnotationKey
  upstream := none
  provenance := .author

def compileError (yaml : Text → Except Text (List WireRule)) (resolved : ResolvedEndpointAuthSpec)
    (annotations : List (Text × Text)) (ns : Text) (owner team : Option Text) : Option CompileError :=
  if developerAnnotations.all fun key => (annotations.lookup key).isNone then none
  else match Catalogue.new (catalogueEntries resolved.config.catalog) with
    | .error _ => none
    | .ok catalogue =>
      match compile yaml (admissionEndpoint annotations ns owner team) catalogue
          (grantFor (featureOf resolved) team) [] admissionSettings 0 with
      | .ok _ => none
      | .error problem => some problem

/-! ## What validation promises -/

/-- The keys of the catalogue, as far as compiling needs them. -/
structure KeysKnown (resolved : ResolvedEndpointAuthSpec) : Prop where
  sound : ∀ entry ∈ resolved.config.catalog, ¬ (entry.anonymous = true ∧ entry.delegation ≠ [])
  default : resolved.config.default ∈ resolved.config.catalog.map AccessEntry.key
  grants : ∀ granted ∈ resolved.grants, granted.2.default ∈ resolved.config.catalog.map AccessEntry.key
  overrides : ∀ declared ∈ resolved.config.overrides, ∀ key, declared.default = some key →
    key ∈ resolved.config.catalog.map AccessEntry.key

theorem violationUnless_eq_nil (holds : Bool) (violation : EndpointAuthConfigViolation) :
    violationUnless holds violation = [] ↔ holds = true := by
  cases holds <;> simp [violationUnless]

theorem catalogViolations_eq_nil (seen : List AccessKey) (catalog : List AccessEntry)
    (none_ : catalogViolations seen catalog = []) :
    ∀ entry ∈ catalog, ¬ (entry.anonymous = true ∧ entry.delegation ≠ []) := by
  induction catalog generalizing seen with
  | nil => simp
  | cons entry rest ih =>
    simp only [catalogViolations, List.append_eq_nil_iff, violationUnless_eq_nil] at none_
    intro other member
    rcases List.mem_cons.mp member with rfl | member
    · rintro ⟨anonymous, delegating⟩
      simp [anonymous, delegating] at none_
    · exact ih _ none_.2 other member

theorem keysKnown_of_validate (usable : Text → Bool) (resolved : ResolvedEndpointAuthSpec) (teams : List Team)
    (valid : resolved.validate usable teams = []) : KeysKnown resolved := by
  unfold ResolvedEndpointAuthSpec.validate at valid
  simp only [List.append_eq_nil_iff, List.flatMap_eq_nil_iff, violationUnless_eq_nil, List.contains_iff_mem,
    and_assoc] at valid
  obtain ⟨catalog, default, grants, overrides, -⟩ := valid
  refine ⟨catalogViolations_eq_nil [] _ catalog, default, ?_, ?_⟩
  · intro granted member
    exact (grants granted member).2.2.1
  · intro declared member key written
    exact (overrides declared member).2.2 key (by simp [written])

/-! ## One catalogue -/

/-- A catalogue of sound entries defines the keys that are written. -/
theorem newFrom_sound (start : Catalogue) (entries : List (CatalogueKey × Bool × List Delegation))
    (sound : ∀ entry ∈ entries, ¬ (entry.2.1 = true ∧ entry.2.2 ≠ [])) :
    ∃ catalogue, Catalogue.newFrom start entries = .ok catalogue ∧
      ∀ key, (catalogue.profile key).isSome = true ↔
        key ∈ entries.map Prod.fst ∨ (start.profile key).isSome = true := by
  induction entries generalizing start with
  | nil => exact ⟨start, rfl, by simp⟩
  | cons entry rest ih =>
    obtain ⟨key, anonymous, delegation⟩ := entry
    have one := sound (key, anonymous, delegation) (by simp)
    unfold Catalogue.newFrom
    rw [dif_neg one]
    obtain ⟨catalogue, built, defines⟩ := ih _ fun entry member => sound entry (by simp [member])
    refine ⟨catalogue, built, ?_⟩
    intro other
    rw [defines other]
    by_cases same : other = key
    · simp [Catalogue.profile, same]
    · simp [Catalogue.profile, List.lookup_cons, beq_false_of_ne same, same]

/-- Admission and the gateway build the same catalogue, with the keys of the configuration. -/
theorem catalogue_agrees (resolved : ResolvedEndpointAuthSpec) (known : KeysKnown resolved) :
    ∃ catalogue, Catalogue.new (catalogueEntries resolved.config.catalog) = .ok catalogue ∧
      (Gateway.translate (featureOf resolved)).1 = catalogue ∧
      ∀ key, key ∈ resolved.config.catalog.map AccessEntry.key → ∃ entry, catalogue.profile key = some entry := by
  have sound : ∀ entry ∈ catalogueEntries resolved.config.catalog, ¬ (entry.2.1 = true ∧ entry.2.2 ≠ []) := by
    intro entry member
    obtain ⟨declared, listed, rfl⟩ := List.mem_map.mp member
    have one := known.sound declared listed
    simpa using one
  obtain ⟨catalogue, built, defines⟩ := newFrom_sound .empty _ sound
  refine ⟨catalogue, built, ?_, ?_⟩
  · change catalogueFrom (catalogueEntries resolved.config.catalog) = catalogue
    have kept : (catalogueEntries resolved.config.catalog).filter
        (fun entry => !(entry.2.1 && entry.2.2 ≠ [])) = catalogueEntries resolved.config.catalog := by
      rw [List.filter_eq_self]
      intro entry member
      have one := sound entry member
      cases anonymous : entry.2.1 with
      | false => rfl
      | true =>
        have none_ : entry.2.2 = [] := by
          by_contra some_
          exact one ⟨anonymous, some_⟩
        simp [none_]
    unfold catalogueFrom
    dsimp only
    rw [kept, Catalogue.new, built]
  · intro key member
    rw [← Option.isSome_iff_exists, defines key]
    left
    simpa [catalogueEntries] using member

/-! ## Where the two calls agree -/

/-- The override the gateway compiles an endpoint of `owner` under. -/
def ownerOverride (resolved : ResolvedEndpointAuthSpec) (owner : Text) : Option EndpointOverride :=
  resolved.config.overrides.find? fun declared => declared.matcher.matchesUser owner

/-- The first override that names the owner leaves the default, the key the endpoint asks for
and the keys of its rules. -/
def OverrideFits (yaml : Text → Except Text (List WireRule)) (resolved : ResolvedEndpointAuthSpec)
    (annotations : List (Text × Text)) (owner : Owner) : Prop :=
  ∀ declared, ownerOverride resolved owner.username = some declared →
    let grant := endpointGrantFor (featureOf resolved) owner.team
    let default := declared.default.getD grant.default
    default ∈ grant.allowed ∧ ∀ keys, declared.allowed = some keys →
      default ∈ keys ∧
      (∀ access, trimmed (annotations.lookup accessAnnotationKey) = some access → access ∈ keys) ∧
      ∀ document wire, trimmed (annotations.lookup rulesAnnotationKey) = some document → yaml document = .ok wire →
        ∀ rule ∈ wire, rule.access ∈ keys

/-- What the accepted endpoint compiled to under no override. -/
theorem accepted_compiles (yaml : Text → Except Text (List WireRule)) (resolved : ResolvedEndpointAuthSpec)
    (known : KeysKnown resolved) (annotations : List (Text × Text)) (ns : Text) (owner team : Option Text)
    (annotated : ∃ key ∈ developerAnnotations, (annotations.lookup key).isSome = true)
    (accepted : compileError yaml resolved annotations ns owner team = none) :
    ∃ key wire, Compiles yaml (admissionEndpoint annotations ns owner team)
      (Gateway.translate (featureOf resolved)).1 admissionSettings (bounds (grantFor (featureOf resolved) team) none)
      key wire := by
  obtain ⟨catalogue, built, same, -⟩ := catalogue_agrees resolved known
  obtain ⟨key, developer, written⟩ := annotated
  have some_ : ¬ (developerAnnotations.all fun key => (annotations.lookup key).isNone) = true := by
    intro none_
    have absent := List.all_eq_true.mp none_ key developer
    rw [Option.isNone_iff_eq_none.mp absent] at written
    cases written
  unfold compileError at accepted
  rw [if_neg some_, built] at accepted
  dsimp only at accepted
  cases compiled : compile yaml (admissionEndpoint annotations ns owner team) catalogue
      (grantFor (featureOf resolved) team) [] admissionSettings 0 with
  | error problem =>
    rw [compiled] at accepted
    cases accepted
  | ok policy =>
    obtain ⟨key, wire, compiles, -⟩ := (compileWithin_eq_ok _ _ _ _ _ _ _).mp compiled
    exact ⟨key, wire, same ▸ compiles⟩

/-- Once admission has refused unknown keys, both choose the key that is written, or their
default. -/
theorem chosenKey_admitted (written chosen : RawEndpoint) (same : chosen.access = written.access)
    (catalogue : Catalogue) (default other key : CatalogueKey)
    (accepted : chosenKey written catalogue admissionSettings default = .ok key) :
    key = (trimmed written.access).getD default ∧
      chosenKey chosen catalogue .standard other = .ok ((trimmed written.access).getD other) := by
  unfold chosenKey at accepted ⊢
  rw [same]
  cases access : trimmed written.access with
  | none =>
    rw [access] at accepted
    cases accepted
    exact ⟨rfl, rfl⟩
  | some asked =>
    simp only [access] at accepted ⊢
    split_ifs at accepted ⊢ with unknown
    · cases accepted
    · cases accepted
      exact ⟨rfl, rfl⟩

theorem grant_default_known (resolved : ResolvedEndpointAuthSpec) (known : KeysKnown resolved)
    (team : Option Text) :
    (endpointGrantFor (featureOf resolved) team).default ∈ resolved.config.catalog.map AccessEntry.key := by
  unfold endpointGrantFor
  cases found : team.bind fun name => (featureOf resolved).grants.lookup name with
  | none => exact known.default
  | some grant =>
    obtain ⟨name, -, listed⟩ := Option.bind_eq_some_iff.mp found
    obtain ⟨before, after, members, -⟩ := List.lookup_eq_some_iff.mp listed
    refine known.grants (name, grant) ?_
    change (name, grant) ∈ (featureOf resolved).grants
    rw [members]
    simp

/-- Only overrides that name the owner are compiled under. -/
theorem applicable_owner (resolved : ResolvedEndpointAuthSpec) (ns : Namespace) (ingress : Ingress)
    (owner : Owner) :
    applicable (rawEndpoint ns ingress owner) (Gateway.translate (featureOf resolved)).2 =
      (ownerOverride resolved owner.username).map translateOverride := by
  simp only [applicable, Gateway.translate, List.find?_map]
  rfl

theorem mem_bounds_allowed (grant : Grant) (override : Option Override) (key : CatalogueKey) :
    key ∈ (bounds grant override).allowed ↔
      key ∈ grant.allowed ∧ ∀ keys, override.bind Override.allowed = some keys → key ∈ keys := by
  unfold bounds
  cases override.bind Override.allowed with
  | none => simp
  | some keys => simp

section Agreement
variable (yaml : Text → Except Text (List WireRule)) (resolved : ResolvedEndpointAuthSpec) (ns : Namespace)
  (ingress : Ingress) (owner : Owner)

/-- What the gateway compiles the object within. -/
def gatewayBounds : Bounds :=
  bounds (grantFor (featureOf resolved) owner.team) ((ownerOverride resolved owner.username).map translateOverride)

/-- Both read the same rules. -/
theorem readRules_agree :
    readRules yaml (rawEndpoint ns ingress owner) .standard =
      readRules yaml (admissionEndpoint ingress.annotations ns.name (some owner.username) owner.team)
        admissionSettings := rfl

/-- Rules that were read are those of the document, if there is one. -/
theorem readRules_document (wire : List WireRule)
    (read : readRules yaml (rawEndpoint ns ingress owner) .standard = .ok wire) :
    (trimmed (ingress.annotations.lookup rulesAnnotationKey) = none → wire = []) ∧
      ∀ document, trimmed (ingress.annotations.lookup rulesAnnotationKey) = some document →
        yaml document = .ok wire := by
  have rules : (rawEndpoint ns ingress owner).rules = ingress.annotations.lookup rulesAnnotationKey := rfl
  unfold readRules at read
  rw [rules] at read
  cases written : trimmed (ingress.annotations.lookup rulesAnnotationKey) with
  | none =>
    rw [written] at read
    simpa [eq_comm] using read
  | some document =>
    simp only [written] at read
    cases parsed : yaml document with
    | error why =>
      rw [parsed] at read
      cases read
    | ok listed =>
      simp only [parsed, guard_eq_ok, Except.ok.injEq] at read
      simp [parsed, read.2]

/-- The gateway's bounds within those that admission compiled in. -/
theorem mem_gatewayBounds (key : CatalogueKey) :
    key ∈ (gatewayBounds resolved owner).allowed ↔
      key ∈ (endpointGrantFor (featureOf resolved) owner.team).allowed ∧
        ∀ declared, ownerOverride resolved owner.username = some declared →
          ∀ keys, declared.allowed = some keys → key ∈ keys := by
  unfold gatewayBounds
  rw [mem_bounds_allowed]
  refine and_congr_right fun _ => ?_
  cases ownerOverride resolved owner.username with
  | none => simp
  | some declared => simp [translateOverride]

theorem gatewayBounds_default_known (known : KeysKnown resolved) :
    (gatewayBounds resolved owner).default ∈ resolved.config.catalog.map AccessEntry.key := by
  unfold gatewayBounds bounds
  cases found : ownerOverride resolved owner.username with
  | none => exact grant_default_known resolved known owner.team
  | some declared =>
    cases written : declared.default with
    | none => simpa [translateOverride, written, grantFor] using grant_default_known resolved known owner.team
    | some key =>
      have listed : declared ∈ resolved.config.overrides := List.mem_of_find?_eq_some found
      simpa [translateOverride, written] using known.overrides declared listed key written

/-- What is left to agree on is what the override narrows. -/
theorem overrideFits_iff (granted : (endpointGrantFor (featureOf resolved) owner.team).default ∈
      (endpointGrantFor (featureOf resolved) owner.team).allowed) :
    OverrideFits yaml resolved ingress.annotations owner ↔
      (gatewayBounds resolved owner).default ∈ (gatewayBounds resolved owner).allowed ∧
      ∀ declared, ownerOverride resolved owner.username = some declared → ∀ keys, declared.allowed = some keys →
        (∀ access, trimmed (ingress.annotations.lookup accessAnnotationKey) = some access → access ∈ keys) ∧
        ∀ document wire, trimmed (ingress.annotations.lookup rulesAnnotationKey) = some document →
          yaml document = .ok wire → ∀ rule ∈ wire, rule.access ∈ keys := by
  rw [mem_gatewayBounds]
  unfold OverrideFits gatewayBounds bounds
  cases ownerOverride resolved owner.username with
  | none => simpa [grantFor] using granted
  | some declared =>
    simp only [Option.some.injEq, forall_eq', Option.map_some, Option.bind_some, translateOverride]
    constructor
    · intro fits
      refine ⟨⟨fits.1, fun keys written => (fits.2 keys written).1⟩, ?_⟩
      exact fun keys written => (fits.2 keys written).2
    · intro fits
      exact ⟨fits.1.1, fun keys written => ⟨fits.1.2 keys written, fits.2 keys written⟩⟩

theorem gateway_compiles_iff (known : KeysKnown resolved) (key : CatalogueKey) (wire : List WireRule)
    (accepted : Compiles yaml (admissionEndpoint ingress.annotations ns.name (some owner.username) owner.team)
      (Gateway.translate (featureOf resolved)).1 admissionSettings
      (bounds (grantFor (featureOf resolved) owner.team) none) key wire) :
    (∃ chosen rules, Compiles yaml (rawEndpoint ns ingress owner) (Gateway.translate (featureOf resolved)).1
      .standard (gatewayBounds resolved owner) chosen rules) ↔ OverrideFits yaml resolved ingress.annotations owner := by
  let access := trimmed (ingress.annotations.lookup accessAnnotationKey)
  have admitted : key = access.getD (grantFor (featureOf resolved) owner.team).default ∧
      chosenKey (rawEndpoint ns ingress owner) (Gateway.translate (featureOf resolved)).1 .standard
        (gatewayBounds resolved owner).default = .ok (access.getD (gatewayBounds resolved owner).default) :=
    chosenKey_admitted _ _ rfl _ _ _ _ accepted.chosen
  have read := accepted.read
  rw [← readRules_agree] at read
  have document := readRules_document yaml ns ingress owner wire read
  rw [overrideFits_iff yaml resolved ingress owner accepted.default]
  constructor
  · rintro ⟨chosen, rules, compiles⟩
    refine ⟨compiles.default, ?_⟩
    intro declared named keys narrowed
    have within : ∀ other, other ∈ (gatewayBounds resolved owner).allowed → other ∈ keys := fun other allowed =>
      ((mem_gatewayBounds resolved owner other).mp allowed).2 declared named keys narrowed
    constructor
    · intro asked written
      have picked := Except.ok.inj (admitted.2.symm.trans compiles.chosen)
      rw [show access = some asked from written, Option.getD_some] at picked
      exact within asked (picked ▸ compiles.granted.2)
    · intro text listed written parsed rule member
      have rulesEq : rules = listed := by
        have parsedAs := (readRules_document yaml ns ingress owner rules compiles.read).2 text written
        exact Except.ok.inj (parsedAs.symm.trans parsed)
      exact within rule.access (compiles.rules rule (rulesEq ▸ member)).2.2
  · intro fits
    refine ⟨_, wire, ⟨fits.1, admitted.2, ?_, read, ?_⟩⟩
    · cases written : access with
      | none =>
        obtain ⟨catalogue, -, same, defines⟩ := catalogue_agrees resolved known
        rw [same]
        exact ⟨defines _ (gatewayBounds_default_known resolved owner known), fits.1⟩
      | some asked =>
        have granted := accepted.granted
        rw [admitted.1, written] at granted
        refine ⟨granted.1, (mem_gatewayBounds resolved owner asked).mpr ⟨granted.2, ?_⟩⟩
        intro declared named keys narrowed
        exact (fits.2 declared named keys narrowed).1 asked written
    · intro rule member
      obtain ⟨shape, defined, allowed⟩ := accepted.rules rule member
      refine ⟨shape, defined, (mem_gatewayBounds resolved owner rule.access).mpr ⟨allowed, ?_⟩⟩
      intro declared named keys narrowed
      cases written : trimmed (ingress.annotations.lookup rulesAnnotationKey) with
      | none =>
        rw [document.1 written] at member
        cases member
      | some text =>
        have parsed := document.2 text written
        exact (fits.2 declared named keys narrowed).2 text wire written parsed rule member

/-- An annotated object that admission accepts is compiled by the gateway exactly when the
first override that names its owner leaves what it asks for. -/
theorem admitted_compiles_iff (usable : Text → Bool) (teams : List Team) (generation : Nat)
    (valid : resolved.validate usable teams = [])
    (annotated : ∃ key ∈ developerAnnotations, (ingress.annotations.lookup key).isSome = true)
    (accepted : compileError yaml resolved ingress.annotations ns.name (some owner.username) owner.team = none) :
    (∃ policy, compile yaml (rawEndpoint ns ingress owner) (Gateway.translate (featureOf resolved)).1
      (grantFor (featureOf resolved) owner.team) (Gateway.translate (featureOf resolved)).2 .standard generation =
        .ok policy) ↔ OverrideFits yaml resolved ingress.annotations owner := by
  have known := keysKnown_of_validate usable resolved teams valid
  obtain ⟨key, wire, compiles⟩ := accepted_compiles yaml resolved known ingress.annotations ns.name
    (some owner.username) owner.team annotated accepted
  rw [← gateway_compiles_iff yaml resolved ns ingress owner known key wire compiles]
  unfold compile
  rw [applicable_owner]
  simp only [compileWithin_eq_ok]
  constructor
  · rintro ⟨policy, chosen, rules, compiled, -⟩
    exact ⟨chosen, rules, compiled⟩
  · rintro ⟨chosen, rules, compiled⟩
    exact ⟨_, chosen, rules, compiled, rfl⟩

end Agreement

/-! ## An override for one user -/

def accessPrivate : AccessKey := "private".toList
def accessShared : AccessKey := "shared".toList

/-- The platform team may share; alice is held to `private`. -/
def heldSpec : ResolvedEndpointAuthSpec where
  config :=
    { clusterSpec .traefik with
      catalog := [⟨accessPrivate, false, []⟩, ⟨accessShared, false, [.team]⟩]
      overrides := [⟨⟨["alice".toList], none⟩, some [accessPrivate], none, none⟩] }
  grants := [("platform".toList, ⟨[accessPrivate, accessShared], accessPrivate⟩)]

def platformTeam : Team := ⟨"platform".toList, ⟨[], []⟩⟩
def aliceNamespace : Namespace := ⟨"user-alice".toList, [], []⟩
def aliceOwner : Owner := ⟨"alice".toList, some "platform".toList⟩

def askingFor (access : AccessKey) : Ingress := ⟨[(accessAnnotationKey, access)], []⟩

theorem admitted_compiles_private :
    ∃ policy, compile (fun _ => .error []) (rawEndpoint aliceNamespace (askingFor accessPrivate) aliceOwner)
      (Gateway.translate (featureOf heldSpec)).1 (grantFor (featureOf heldSpec) aliceOwner.team)
      (Gateway.translate (featureOf heldSpec)).2 .standard 0 = .ok policy := by
  refine (admitted_compiles_iff (fun _ => .error []) heldSpec aliceNamespace (askingFor accessPrivate) aliceOwner
    (fun _ => false) [platformTeam] 0 (by decide) ⟨accessAnnotationKey, by decide, rfl⟩ (by decide)).mpr ?_
  intro declared named
  obtain rfl := Option.some.inj named
  refine ⟨by decide, ?_⟩
  intro keys narrowed
  obtain rfl := Option.some.inj narrowed
  refine ⟨by decide, ?_, ?_⟩
  · intro access written
    obtain rfl := Option.some.inj written
    decide
  · intro document wire written
    cases written

/-- Alice asks for `shared`: it is admitted, and her endpoint is indexed closed. -/
theorem admitted_shared_closed :
    ¬ ∀ (yaml : Text → Except Text (List WireRule)) (usable : Text → Bool) (resolved : ResolvedEndpointAuthSpec)
      (teams : List Team) (ns : Namespace) (ingress : Ingress) (owner : Owner) (generation : Nat),
      resolved.validate usable teams = [] →
      (∃ key ∈ developerAnnotations, (ingress.annotations.lookup key).isSome = true) →
      compileError yaml resolved ingress.annotations ns.name (some owner.username) owner.team = none →
      ∃ policy, compile yaml (rawEndpoint ns ingress owner) (Gateway.translate (featureOf resolved)).1
        (grantFor (featureOf resolved) owner.team) (Gateway.translate (featureOf resolved)).2 .standard generation =
          .ok policy := by
  intro given
  obtain ⟨policy, compiled⟩ := given (fun _ => .error []) (fun _ => false) heldSpec [platformTeam] aliceNamespace
    (askingFor accessShared) aliceOwner 0 (by decide) ⟨accessAnnotationKey, by decide, rfl⟩ (by decide)
  have refused : compile (fun _ => .error []) (rawEndpoint aliceNamespace (askingFor accessShared) aliceOwner)
      (Gateway.translate (featureOf heldSpec)).1 (grantFor (featureOf heldSpec) aliceOwner.team)
      (Gateway.translate (featureOf heldSpec)).2 .standard 0 = .error (.notGranted accessShared) := rfl
  rw [refused] at compiled
  cases compiled

end WeeboSi.EndpointAuthAdapters
