import WeeboSi.DwocPin.Config

/-!
# Where pinning settles

Source: crates/weebo-si-dwoc-pin/src/resolve.rs:70-146, feature.rs:47-178. A reference is read
back to the first key of the catalogue that names its target, so two keys of one target are
told apart by their order and not by the grant.
-/
namespace WeeboSi.DwocPin
open WeeboSi.Lib WeeboSi.Crd WeeboSi.Chassis

/-- The reference a workspace has once the mutations are applied. -/
def referenceAfter (current : Option DwocRef) (mutations : List Mutation) : Option DwocRef :=
  mutations.foldl (fun reference mutation => match mutation with
    | .setConfigRef target => some target
    | _ => reference) current

section Settle
variable (teams : List Team) (config : ResolvedDwocPinConfig) (facts : NamespaceFacts)
  (resolves : DwocRef → Bool)

def matchedGrant : Grant := teamGrant config (matchedTeam teams facts)

/-- The annotation names no key of the grant, and that is refused. -/
def AnnotationRefused : Prop :=
  config.config.onUnknownKey = .deny ∧
    ∃ value, facts.selectionAnnotated = some value ∧ value ∉ (matchedGrant teams config facts).allowed

/-- The key without the workspace's own reference. -/
def baseKey : Text :=
  match facts.selectionAnnotated with
  | some value =>
    if (matchedGrant teams config facts).allowed.contains value then value
    else (matchedGrant teams config facts).default
  | none => (matchedGrant teams config facts).default

/-- The first key that names the reference is granted. -/
def Kept (reference : DwocRef) : Prop :=
  ∃ key ∈ (matchedGrant teams config facts).allowed,
    config.config.catalog.resolveRef reference = some key

/-- A granted key names the reference. -/
def Granted (reference : DwocRef) : Prop :=
  ∃ key ∈ (matchedGrant teams config facts).allowed, config.config.catalog.target key = some reference

/-- The target of the key that `resolve` settles on is there. -/
def TargetExists (current : Option DwocRef) : Prop :=
  ∃ provenance key target, resolve teams config facts current = .ok provenance ∧
    provenance.resolvedKey = some key ∧ config.config.catalog.target key = some target ∧
    resolves target = true

/-- A granted target is reached, a granted reference is left alone, and a second evaluation
changes nothing. -/
def Settles (namespaceName : Text) (current : Option DwocRef) : Prop :=
  ∀ decision, evaluate (some config) ⟨namespaceName, current⟩ ⟨teams, facts, resolves⟩ = .ok decision →
    decision.denial = none → TargetExists teams config facts resolves current →
    (∃ reference, referenceAfter current decision.mutations = some reference ∧
      Granted teams config facts reference) ∧
    (∀ reference, current = some reference → Granted teams config facts reference →
      decision.mutations = []) ∧
    ∃ again, evaluate (some config) ⟨namespaceName, referenceAfter current decision.mutations⟩
        ⟨teams, facts, resolves⟩ = .ok again ∧ again.denial = none ∧ again.mutations = []

/-- The condition on the input. -/
def SettlesWhen (current : Option DwocRef) : Prop :=
  AnnotationRefused teams config facts ∨
  (∃ reference, current = some reference ∧ Kept teams config facts reference) ∨
  ∃ target, config.config.catalog.target (baseKey teams config facts) = some target ∧
    (resolves target = false ∨
      (∀ reference, current = some reference → ¬ Granted teams config facts reference) ∧
        Kept teams config facts target)

/-! ## Resolution -/

/-- The key of a kept reference, else the key without it. -/
def chosenKey (current : Option DwocRef) : Text :=
  match current.bind config.config.catalog.resolveRef with
  | some key =>
    if (matchedGrant teams config facts).allowed.contains key then key else baseKey teams config facts
  | none => baseKey teams config facts

theorem baseline_refused (team : Option Text) (refused : AnnotationRefused teams config facts) :
    ∃ unknown, baseline config team (matchedGrant teams config facts) facts.selectionAnnotated =
      .error unknown := by
  obtain ⟨onUnknown, value, annotated, outside⟩ := refused
  exact ⟨⟨team, value⟩, by simp [baseline, annotated, outside, onUnknown]⟩

theorem baseline_ok (team : Option Text) (accepted : ¬ AnnotationRefused teams config facts) :
    ∃ base, baseline config team (matchedGrant teams config facts) facts.selectionAnnotated = .ok base ∧
      base.resolvedKey = some (baseKey teams config facts) := by
  unfold baseline baseKey
  cases annotated : facts.selectionAnnotated with
  | none => exact ⟨_, rfl, rfl⟩
  | some value =>
    by_cases inside : value ∈ (matchedGrant teams config facts).allowed
    · simp [inside]
    · cases onUnknown : config.config.onUnknownKey with
      | deny => exact absurd ⟨onUnknown, value, annotated, inside⟩ accepted
      | default => simp [inside]

theorem resolve_refused (current : Option DwocRef) (refused : AnnotationRefused teams config facts) :
    ∃ unknown, resolve teams config facts current = .error unknown := by
  obtain ⟨unknown, failed⟩ := baseline_refused teams config facts
    ((matchedTeam teams facts).map Team.name) refused
  refine ⟨unknown, ?_⟩
  unfold matchedGrant at failed
  simp only [resolve, failed]
  rfl

theorem resolve_ok (current : Option DwocRef) (accepted : ¬ AnnotationRefused teams config facts) :
    ∃ provenance, resolve teams config facts current = .ok provenance ∧
      provenance.resolvedKey = some (chosenKey teams config facts current) := by
  obtain ⟨base, based, key⟩ := baseline_ok teams config facts
    ((matchedTeam teams facts).map Team.name) accepted
  unfold matchedGrant at based
  have step : resolve teams config facts current =
      (ownKey config (matchedGrant teams config facts) base current).elim (.ok base) fun key =>
        .ok ⟨(matchedTeam teams facts).map Team.name, .workspaceAttribute, some key, none⟩ := by
    simp only [resolve, based]
    unfold matchedGrant
    cases own : ownKey config (teamGrant config (matchedTeam teams facts)) base current <;>
      simp [bind, Except.bind, own]
  rw [step]
  unfold ownKey chosenKey
  -- A reference that names the base key itself is credited to the base.
  cases current with
  | none => exact ⟨base, rfl, key⟩
  | some reference =>
    simp only [Option.bind_eq_bind, Option.bind_some]
    cases config.config.catalog.resolveRef reference with
    | none => exact ⟨base, rfl, key⟩
    | some own =>
      by_cases inside : own ∈ (matchedGrant teams config facts).allowed
      · by_cases same : some own = base.resolvedKey
        · simp [inside, ← same]
        · simp [inside, same]
      · simp [inside, key]

/-! ## Evaluation -/

/-- What evaluation does once resolution has settled on a target that is there. -/
theorem evaluate_ok (namespaceName : Text) (current : Option DwocRef) (target : DwocRef)
    (accepted : ¬ AnnotationRefused teams config facts)
    (named : config.config.catalog.target (chosenKey teams config facts current) = some target)
    (there : resolves target = true) :
    ∃ decision team, evaluate (some config) ⟨namespaceName, current⟩ ⟨teams, facts, resolves⟩ =
        .ok decision ∧ decision.denial = none ∧
      decision.mutations =
        if current.bind config.config.catalog.resolveRef = some (chosenKey teams config facts current) then []
        else pinned target current team (chosenKey teams config facts current) := by
  obtain ⟨provenance, resolved, key⟩ := resolve_ok teams config facts current accepted
  have decided : ∃ note result, evaluate (some config) ⟨namespaceName, current⟩ ⟨teams, facts, resolves⟩ =
      .ok (.allow (DwocPin.decide current (chosenKey teams config facts current) target provenance.step
        provenance.team config).2 provenance.team note result) := by
    simp only [evaluate, resolved, key, named, there]
    exact ⟨_, _, rfl⟩
  obtain ⟨note, result, decided⟩ := decided
  refine ⟨_, provenance.team, decided, rfl, ?_⟩
  simp only [Decision.allow]
  cases current with
  | none => simp [DwocPin.decide]
  | some reference =>
    simp only [DwocPin.decide, Option.bind_some]
    split <;> rfl

/-! ## Valid configurations -/

theorem chosenKey_of_not_kept (current : Option DwocRef)
    (other : ¬ ∃ reference, current = some reference ∧ Kept teams config facts reference) :
    chosenKey teams config facts current = baseKey teams config facts := by
  unfold chosenKey
  split
  · rename_i key first
    obtain ⟨reference, present, first⟩ := Option.bind_eq_some_iff.mp first
    split_ifs with inside
    · exact absurd ⟨reference, present, key, by simpa using inside, first⟩ other
    · rfl
  · rfl

theorem targetExists_iff (current : Option DwocRef) (target : DwocRef)
    (accepted : ¬ AnnotationRefused teams config facts)
    (named : config.config.catalog.target (chosenKey teams config facts current) = some target) :
    TargetExists teams config facts resolves current ↔ resolves target = true := by
  obtain ⟨provenance, resolved, key⟩ := resolve_ok teams config facts current accepted
  constructor
  · rintro ⟨other, otherKey, otherTarget, resolvedOther, keyOther, namedOther, there⟩
    rw [resolved] at resolvedOther
    cases resolvedOther
    rw [key] at keyOther
    cases keyOther
    rw [named] at namedOther
    cases namedOther
    exact there
  · intro there
    exact ⟨provenance, _, target, resolved, key, named, there⟩

section Checked
variable (valid : Valid config)
include valid

theorem matchedGrant_valid :
    (matchedGrant teams config facts).default ∈ (matchedGrant teams config facts).allowed ∧
      ∀ key ∈ (matchedGrant teams config facts).allowed, config.config.catalog.hasKey key = true := by
  have synthetic : (syntheticGrant config.config.default).default ∈
      (syntheticGrant config.config.default).allowed ∧
      ∀ key ∈ (syntheticGrant config.config.default).allowed, config.config.catalog.hasKey key = true := by
    simp [syntheticGrant, valid.default]
  unfold matchedGrant teamGrant
  cases matchedTeam teams facts with
  | none => exact synthetic
  | some team =>
    cases found : config.grants.lookup team.name with
    | none => simpa [found] using synthetic
    | some grant => simpa [found] using valid.grants team.name grant found

theorem baseKey_allowed : baseKey teams config facts ∈ (matchedGrant teams config facts).allowed := by
  have default := (matchedGrant_valid teams config facts valid).1
  unfold baseKey
  split
  · split_ifs with inside
    · simpa using inside
    · exact default
  · exact default

theorem chosenKey_allowed (current : Option DwocRef) :
    chosenKey teams config facts current ∈ (matchedGrant teams config facts).allowed := by
  have base := baseKey_allowed teams config facts valid
  unfold chosenKey
  split
  · split_ifs with inside
    · simpa using inside
    · exact base
  · exact base

theorem target_of_allowed (key : Text) (inside : key ∈ (matchedGrant teams config facts).allowed) :
    ∃ target, config.config.catalog.target key = some target :=
  (hasKey_iff _ _).mp ((matchedGrant_valid teams config facts valid).2 key inside)

/-- Reading a reference back and forth gives it again. -/
theorem target_resolveRef (reference : DwocRef) (key : Text)
    (first : config.config.catalog.resolveRef reference = some key) :
    config.config.catalog.target key = some reference := by
  unfold Catalog.resolveRef at first
  obtain ⟨entry, found, rfl⟩ := Option.map_eq_some_iff.mp first
  have named := valid.unique entry (List.mem_of_find?_eq_some found)
  have same : entry.target = reference := by simpa using List.find?_some found
  rw [named, same]

theorem granted_of_kept (reference : DwocRef) (kept : Kept teams config facts reference) :
    Granted teams config facts reference := by
  obtain ⟨key, inside, first⟩ := kept
  exact ⟨key, inside, target_resolveRef config valid reference key first⟩

/-- Nothing is patched exactly when the reference is kept. -/
theorem chosenKey_kept_iff (current : Option DwocRef) :
    current.bind config.config.catalog.resolveRef = some (chosenKey teams config facts current) ↔
      ∃ reference, current = some reference ∧ Kept teams config facts reference := by
  constructor
  · intro same
    obtain ⟨reference, present, first⟩ := Option.bind_eq_some_iff.mp same
    exact ⟨reference, present, _, chosenKey_allowed teams config facts valid current, first⟩
  · rintro ⟨reference, rfl, key, inside, first⟩
    simp [chosenKey, first, inside]

/-- A kept reference is what its key names. -/
theorem target_of_kept (reference : DwocRef) (kept : Kept teams config facts reference) :
    config.config.catalog.target (chosenKey teams config facts (some reference)) = some reference := by
  have same := (chosenKey_kept_iff teams config facts valid (some reference)).mpr ⟨reference, rfl, kept⟩
  exact target_resolveRef config valid reference _ same

/-- A kept reference stays as it is. -/
theorem settles_of_kept (namespaceName : Text) (reference : DwocRef)
    (accepted : ¬ AnnotationRefused teams config facts) (kept : Kept teams config facts reference) :
    Settles teams config facts resolves namespaceName (some reference) := by
  intro decision evaluated _ exists_
  have named := target_of_kept teams config facts valid reference kept
  have there := (targetExists_iff teams config facts resolves _ reference accepted named).mp exists_
  obtain ⟨other, team, decided, admitted, mutations⟩ :=
    evaluate_ok teams config facts resolves namespaceName (some reference) reference accepted named there
  rw [evaluated] at decided
  cases decided
  rw [if_pos ((chosenKey_kept_iff teams config facts valid _).mpr ⟨reference, rfl, kept⟩)] at mutations
  have after : referenceAfter (some reference) decision.mutations = some reference := by
    rw [mutations]
    rfl
  refine ⟨⟨reference, after, granted_of_kept teams config facts valid reference kept⟩, ?_, ?_⟩
  · intro _ _ _
    exact mutations
  · rw [after]
    exact ⟨decision, evaluated, admitted, mutations⟩

/-- A second evaluation of a target that was pinned changes nothing exactly when it is kept. -/
theorem again_iff (namespaceName : Text) (target : DwocRef)
    (accepted : ¬ AnnotationRefused teams config facts)
    (named : config.config.catalog.target (baseKey teams config facts) = some target)
    (there : resolves target = true) :
    (∃ again, evaluate (some config) ⟨namespaceName, some target⟩ ⟨teams, facts, resolves⟩ = .ok again ∧
      again.denial = none ∧ again.mutations = []) ↔ Kept teams config facts target := by
  have kept_iff := chosenKey_kept_iff teams config facts valid (some target)
  by_cases kept : Kept teams config facts target
  · have named := target_of_kept teams config facts valid target kept
    obtain ⟨again, team, evaluated, admitted, mutations⟩ :=
      evaluate_ok teams config facts resolves namespaceName (some target) target accepted named there
    rw [if_pos (kept_iff.mpr ⟨target, rfl, kept⟩)] at mutations
    exact iff_of_true ⟨again, evaluated, admitted, mutations⟩ kept
  · refine iff_of_false ?_ kept
    have other : ¬ ∃ reference, some target = some reference ∧ Kept teams config facts reference := by
      rintro ⟨reference, same, keptOther⟩
      cases same
      exact kept keptOther
    rw [← chosenKey_of_not_kept teams config facts (some target) other] at named
    obtain ⟨decision, team, evaluated, _, mutations⟩ :=
      evaluate_ok teams config facts resolves namespaceName (some target) target accepted named there
    rw [if_neg (fun same => other (kept_iff.mp same))] at mutations
    rintro ⟨again, evaluatedAgain, _, none_⟩
    rw [evaluated] at evaluatedAgain
    cases evaluatedAgain
    rw [mutations] at none_
    cases none_

/-- A reference that is not kept is replaced, once exactly under the condition. -/
theorem settles_of_not_kept_iff (namespaceName : Text) (current : Option DwocRef) (target : DwocRef)
    (accepted : ¬ AnnotationRefused teams config facts)
    (other : ¬ ∃ reference, current = some reference ∧ Kept teams config facts reference)
    (named : config.config.catalog.target (baseKey teams config facts) = some target)
    (there : resolves target = true) :
    Settles teams config facts resolves namespaceName current ↔
      (∀ reference, current = some reference → ¬ Granted teams config facts reference) ∧
        Kept teams config facts target := by
  have chosen := chosenKey_of_not_kept teams config facts current other
  have namedChosen := named
  rw [← chosen] at namedChosen
  obtain ⟨decision, team, evaluated, admitted, mutations⟩ :=
    evaluate_ok teams config facts resolves namespaceName current target accepted namedChosen there
  rw [if_neg (fun same => other ((chosenKey_kept_iff teams config facts valid _).mp same))] at mutations
  have after : referenceAfter current decision.mutations = some target := by
    rw [mutations]
    rfl
  have exists_ := (targetExists_iff teams config facts resolves current target accepted namedChosen).mpr there
  have granted : Granted teams config facts target :=
    ⟨_, baseKey_allowed teams config facts valid, named⟩
  have again := again_iff teams config facts resolves valid namespaceName target accepted named there
  constructor
  · intro settles
    obtain ⟨_, untouched, second⟩ := settles decision evaluated admitted exists_
    rw [after, again] at second
    refine ⟨?_, second⟩
    intro reference present grantedReference
    have none_ := untouched reference present grantedReference
    rw [mutations] at none_
    cases none_
  · rintro ⟨ungranted, kept⟩ found evaluatedFound _ _
    rw [evaluated] at evaluatedFound
    cases evaluatedFound
    rw [after]
    refine ⟨⟨target, rfl, granted⟩, ?_, again.mpr kept⟩
    intro reference present grantedReference
    exact absurd grantedReference (ungranted reference present)

end Checked

/-- Under a validated configuration pinning settles exactly under the condition. -/
theorem settles_iff (namespaceName : Text) (current : Option DwocRef)
    (clean : validate config teams = []) :
    Settles teams config facts resolves namespaceName current ↔
      SettlesWhen teams config facts resolves current := by
  have valid := valid_of_validate config teams clean
  by_cases refused : AnnotationRefused teams config facts
  · refine iff_of_true ?_ (Or.inl refused)
    rintro decision _ _ ⟨provenance, _, _, resolved, _⟩
    obtain ⟨unknown, failed⟩ := resolve_refused teams config facts current refused
    rw [failed] at resolved
    cases resolved
  · by_cases kept : ∃ reference, current = some reference ∧ Kept teams config facts reference
    · refine iff_of_true ?_ (Or.inr (Or.inl kept))
      obtain ⟨reference, rfl, kept⟩ := kept
      exact settles_of_kept teams config facts resolves valid namespaceName reference refused kept
    · obtain ⟨target, named⟩ := target_of_allowed teams config facts valid _
        (baseKey_allowed teams config facts valid)
      have split_ : SettlesWhen teams config facts resolves current ↔ (resolves target = false ∨
          (∀ reference, current = some reference → ¬ Granted teams config facts reference) ∧
            Kept teams config facts target) := by
        simp [SettlesWhen, refused, kept, named]
      rw [split_]
      cases there : resolves target with
      | false =>
        refine iff_of_true ?_ (Or.inl rfl)
        intro _ _ _ exists_
        have chosen := chosenKey_of_not_kept teams config facts current kept
        rw [← chosen] at named
        have found := (targetExists_iff teams config facts resolves current target refused named).mp exists_
        rw [there] at found
        cases found
      | true =>
        rw [settles_of_not_kept_iff teams config facts resolves valid namespaceName current target refused
          kept named there]
        simp

end Settle

/-! ## Two keys of one configuration -/

def hardenedRef : DwocRef := ⟨"weebo-hardened-config".toList, "eclipse-che".toList⟩

/-- A catalogue in which `legacy` was kept beside the default. -/
def aliasedPin (legacy : DwocRef) : ResolvedDwocPinConfig :=
  ⟨⟨[⟨"legacy".toList, legacy⟩, ⟨"baseline".toList, hardenedRef⟩], "baseline".toList, .default, .skip⟩, []⟩

theorem settles_iff_added :
    Settles [] (aliasedPin ⟨"old-config".toList, "eclipse-che".toList⟩) ⟨[], none⟩ (fun _ => true)
      "user-alice".toList none := by
  refine (settles_iff [] _ ⟨[], none⟩ _ _ none (by decide)).mpr (Or.inr (Or.inr ⟨hardenedRef, rfl, Or.inr ?_⟩))
  refine ⟨?_, "baseline".toList, by decide, by decide⟩
  intro reference present
  cases present

/-- A workspace that already runs what its only key names is patched at every admission. -/
theorem alias_patched_again :
    ¬ ∀ (teams : List Team) (config : ResolvedDwocPinConfig) (facts : NamespaceFacts)
      (resolves : DwocRef → Bool) (namespaceName : Text) (current : Option DwocRef),
      validate config teams = [] → Settles teams config facts resolves namespaceName current := by
  intro given
  have settles := given [] (aliasedPin hardenedRef) ⟨[], none⟩ (fun _ => true) "user-alice".toList
    (some hardenedRef) (by decide)
  have granted : Granted [] (aliasedPin hardenedRef) ⟨[], none⟩ hardenedRef :=
    ⟨"baseline".toList, by decide, by decide⟩
  obtain ⟨_, untouched, _⟩ := settles _ rfl rfl ⟨_, _, _, rfl, rfl, rfl, rfl⟩
  have none_ := untouched hardenedRef rfl granted
  cases none_

end WeeboSi.DwocPin
