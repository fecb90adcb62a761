import WeeboSi.Webhook.Render

/-!
# What the DevWorkspace route answers

Source: crates/weebo-si-webhook/src/router.rs:109-262 and
crates/weebo-si-chassis/src/admit.rs:34-85. The route admits its subject to two registries,
`network-profiles` first, and the first refusal is the answer. Which registries, features and
subjects these are is left open.
-/
namespace WeeboSi.Webhook
open WeeboSi.Lib WeeboSi.Crd WeeboSi.Chassis

/-- A registry and the subject it is asked about. -/
structure Admission where
  Subject : Type
  namespaceOf : Subject → Text
  registry : List (Feature Subject)
  subject : Subject

inductive Answer where
  | allow (mutations : List Mutation)
  | deny (reason : Text)
  deriving DecidableEq, Repr

def answerOf : Except DomainError AdmitOutcome → Answer
  | .ok (.allow mutations) => .allow mutations
  | .ok (.deny reason) => .deny reason
  | .error problem => .deny (DomainError.message problem)

def Answer.refusal : Answer → Option Text
  | .allow _ => none
  | .deny reason => some reason

section Route
variable (gate : FeatureGate) (view : Text → Option NamespaceFacts) (resolves : DwocRef → Bool)

def Admission.answer (admission : Admission) : Answer :=
  answerOf (admitSubject admission.namespaceOf gate view resolves admission.registry admission.subject)

/-- `first` is absent where `network-profiles` is not wired. -/
def routeAnswer (first : Option Admission) (second : Admission) : Answer :=
  match first.bind fun admission => (admission.answer gate view resolves).refusal with
  | some reason => .deny reason
  | none => second.answer gate view resolves

/-! ## Stages -/

/-- One feature's evaluation, which does not know the mode it runs in. -/
structure Stage where
  id : Text
  namespaceName : Text
  outcome : Except DomainError Decision

/-- The namespace has to be observed before a feature is evaluated. -/
def outcomeOf {S : Type} (teams : List Team) (namespaceName : Text) (subject : S) (feature : Feature S) :
    Except DomainError Decision :=
  match view namespaceName with
  | none => .error (.namespaceNotObserved namespaceName)
  | some facts => feature.evaluate subject ⟨teams, facts, resolves⟩

def Admission.stages (admission : Admission) : List Stage :=
  admission.registry.map fun feature =>
    ⟨feature.id, admission.namespaceOf admission.subject,
      outcomeOf view resolves gate.teams (admission.namespaceOf admission.subject) admission.subject feature⟩

def Stage.failure (stage : Stage) : Option Text :=
  match stage.outcome with
  | .error problem => some (DomainError.message problem)
  | .ok _ => none

def Stage.denial (stage : Stage) : Option Text :=
  match stage.outcome with
  | .error _ => none
  | .ok decision => decision.denial

def Stage.mode (stage : Stage) : FeatureMode := gate.modeForAdmission stage.id stage.namespaceName

/-- What a stage refuses with in its mode. -/
def Stage.stop (stage : Stage) : Option Text :=
  match stage.mode gate with
  | .off => none
  | .dryRun => stage.failure
  | .enforce => stage.failure.or stage.denial

/-- What a stage that did not refuse leaves to be applied. -/
def Stage.applied (stage : Stage) : List Mutation :=
  match stage.mode gate, stage.outcome with
  | .enforce, .ok decision => decision.mutations
  | _, _ => []

/-- What the first stage that stops says, else everything that is applied. -/
def runStages (stages : List Stage) (mutations : List Mutation) : Answer :=
  match stages.findSome? (Stage.stop gate) with
  | some reason => .deny reason
  | none => .allow (mutations ++ stages.flatMap (Stage.applied gate))

theorem runStages_cons (stage : Stage) (rest : List Stage) (mutations : List Mutation) :
    runStages gate (stage :: rest) mutations =
      (stage.stop gate).elim (runStages gate rest (mutations ++ stage.applied gate)) Answer.deny := by
  unfold runStages
  rw [List.findSome?_cons]
  cases stage.stop gate with
  | some reason => rfl
  | none => simp

/-- The loop is a run over the stages. -/
theorem admitLoop_eq {S : Type} (namespaceOf : S → Text) (subject : S) (registry : List (Feature S))
    (mutations : List Mutation) :
    answerOf (admitLoop namespaceOf gate view resolves subject registry mutations) =
      runStages gate (Admission.stages gate view resolves ⟨S, namespaceOf, registry, subject⟩) mutations := by
  induction registry generalizing mutations with
  | nil => simp [admitLoop, answerOf, runStages, Admission.stages]
  | cons feature rest ih =>
    have stages_ : Admission.stages gate view resolves ⟨S, namespaceOf, feature :: rest, subject⟩ =
        ⟨feature.id, namespaceOf subject,
          outcomeOf view resolves gate.teams (namespaceOf subject) subject feature⟩ ::
        Admission.stages gate view resolves ⟨S, namespaceOf, rest, subject⟩ := rfl
    rw [stages_, runStages_cons, admitLoop]
    simp only [Stage.stop, Stage.applied, Stage.mode, Stage.failure, Stage.denial, outcomeOf]
    cases mode : gate.modeForAdmission feature.id (namespaceOf subject) with
    | off => simp [ih]
    | dryRun =>
      cases seen : view (namespaceOf subject) with
      | none => rfl
      | some facts =>
        cases evaluated : feature.evaluate subject ⟨gate.teams, facts, resolves⟩ with
        | error problem => simp [evaluated, bind, Except.bind, answerOf]
        | ok decision =>
          cases denial : decision.denial <;> simp [evaluated, denial, bind, Except.bind, ih]
    | enforce =>
      cases seen : view (namespaceOf subject) with
      | none => rfl
      | some facts =>
        cases evaluated : feature.evaluate subject ⟨gate.teams, facts, resolves⟩ with
        | error problem => simp [evaluated, bind, Except.bind, answerOf]
        | ok decision =>
          cases denial : decision.denial with
          | some reason => simp [evaluated, denial, bind, Except.bind, answerOf]
          | none => simp [evaluated, denial, bind, Except.bind, ih]

theorem Admission.answer_eq (admission : Admission) :
    admission.answer gate view resolves = runStages gate (admission.stages gate view resolves) [] :=
  admitLoop_eq gate view resolves admission.namespaceOf admission.subject admission.registry []

/-- Every stage of the route, in the order it runs them. -/
def routeStages (first : Option Admission) (second : Admission) : List Stage :=
  (first.map (Admission.stages gate view resolves)).getD [] ++ second.stages gate view resolves

theorem runStages_refusal (stages : List Stage) (mutations : List Mutation) :
    (runStages gate stages mutations).refusal = stages.findSome? (Stage.stop gate) := by
  unfold runStages
  cases stages.findSome? (Stage.stop gate) <;> rfl

/-- The route answers as one run over both registries, of which only the second is applied. -/
theorem routeAnswer_eq (first : Option Admission) (second : Admission) :
    routeAnswer gate view resolves first second =
      ((routeStages gate view resolves first second).findSome? (Stage.stop gate)).elim
        (.allow ((second.stages gate view resolves).flatMap (Stage.applied gate))) Answer.deny := by
  have tail : second.answer gate view resolves =
      ((second.stages gate view resolves).findSome? (Stage.stop gate)).elim
        (.allow ((second.stages gate view resolves).flatMap (Stage.applied gate))) Answer.deny := by
    rw [Admission.answer_eq, runStages]
    cases (second.stages gate view resolves).findSome? (Stage.stop gate) <;> rfl
  unfold routeAnswer routeStages
  cases first with
  | none => simp [tail]
  | some admission =>
    simp only [Option.bind_some, Option.map_some, Option.getD_some, List.findSome?_append,
      Admission.answer_eq gate view resolves admission, runStages_refusal]
    cases (admission.stages gate view resolves).findSome? (Stage.stop gate) with
    | some reason => rfl
    | none => simpa using tail

end Route

/-! ## Turning a feature from Off to DryRun -/

/-- The gate with one feature's mode changed. -/
def withMode (gate : FeatureGate) (id : Text) (mode : FeatureMode) : FeatureGate :=
  { gate with modeForAdmission := fun feature namespaceName =>
      if feature = id then mode else gate.modeForAdmission feature namespaceName }

theorem mode_withMode (gate : FeatureGate) (id : Text) (mode : FeatureMode) (stage : Stage) :
    stage.mode (withMode gate id mode) = if stage.id = id then mode else stage.mode gate :=
  rfl

theorem stop_dryRun (gate : FeatureGate) (id : Text) :
    Stage.stop (withMode gate id .dryRun) = fun stage =>
      if stage.id = id then stage.failure else stage.stop gate := by
  funext stage
  rw [Stage.stop, mode_withMode]
  by_cases same : stage.id = id
  · simp only [if_pos same]
  · simp only [if_neg same, Stage.stop]

theorem stop_off (gate : FeatureGate) (id : Text) :
    Stage.stop (withMode gate id .off) = fun stage => if stage.id = id then none else stage.stop gate := by
  funext stage
  rw [Stage.stop, mode_withMode]
  by_cases same : stage.id = id
  · simp only [if_pos same]
  · simp only [if_neg same, Stage.stop]

/-- Neither mode applies anything of its own. -/
theorem applied_dryRun (gate : FeatureGate) (id : Text) :
    Stage.applied (withMode gate id .dryRun) = Stage.applied (withMode gate id .off) := by
  funext stage
  rw [Stage.applied, Stage.applied, mode_withMode, mode_withMode]
  by_cases same : stage.id = id
  · simp only [if_pos same]
  · simp only [if_neg same]

theorem elim_deny_inj (mutations : List Mutation) (a b : Option Text) :
    a.elim (Answer.allow mutations) Answer.deny = b.elim (Answer.allow mutations) Answer.deny ↔ a = b := by
  cases a <;> cases b <;> simp

/-- No evaluation of the feature fails; or, at the first one that does, an earlier feature has
refused already, or the next refusal without it has the same text. -/
def FailureShielded (gate : FeatureGate) (id : Text) (stages : List Stage) : Prop :=
  (∀ stage ∈ stages, stage.id = id → stage.failure = none) ∨
  ∃ before stage after text, stages = before ++ stage :: after ∧ stage.id = id ∧ stage.failure = some text ∧
    (∀ earlier ∈ before, earlier.id = id → earlier.failure = none) ∧
    (findOther (fun s => s.id = id) (Stage.stop gate) before ≠ none ∨
      findOther (fun s => s.id = id) (Stage.stop gate) after = some text)

/-- A feature in `DryRun` is answered as one that is `Off` exactly when its failures are shielded. -/
theorem dryRun_answers_as_off_iff (gate : FeatureGate) (view : Text → Option NamespaceFacts)
    (resolves : DwocRef → Bool) (first : Option Admission) (second : Admission) (id : Text) :
    routeAnswer (withMode gate id .dryRun) view resolves first second =
        routeAnswer (withMode gate id .off) view resolves first second ↔
      FailureShielded gate id (routeStages gate view resolves first second) := by
  have stages_ : ∀ mode, routeStages (withMode gate id mode) view resolves first second =
      routeStages gate view resolves first second := fun _ => rfl
  have second_ : ∀ mode, second.stages (withMode gate id mode) view resolves =
      second.stages gate view resolves := fun _ => rfl
  rw [routeAnswer_eq, routeAnswer_eq, stages_, stages_, second_, second_, applied_dryRun, elim_deny_inj,
    stop_dryRun, stop_off]
  exact findShown_iff (fun stage : Stage => stage.id = id) Stage.failure (Stage.stop gate) _

/-! ## A catalogue without its default -/

def danglingPin : DwocPin.ResolvedDwocPinConfig :=
  ⟨⟨[], "baseline".toList, .default, .skip⟩, []⟩

/-- A workspace that `dwoc-pin` alone is asked about. -/
def pinAdmission (config : Option DwocPin.ResolvedDwocPinConfig) : Admission where
  Subject := DwocPin.Workspace
  namespaceOf := DwocPin.Workspace.namespaceName
  registry := [DwocPin.feature config]
  subject := ⟨"user-alice".toList, none⟩

/-- A `DryRun` that cannot be evaluated refuses the workspace. -/
theorem dryRun_refuses :
    ¬ ∀ (gate : FeatureGate) (view : Text → Option NamespaceFacts) (resolves : DwocRef → Bool)
      (first : Option Admission) (second : Admission) (id : Text),
      routeAnswer (withMode gate id .dryRun) view resolves first second =
        routeAnswer (withMode gate id .off) view resolves first second := by
  intro given
  have same := given enforced (fun _ => some ⟨[], none⟩) (fun _ => true) none
    (pinAdmission (some danglingPin)) "dwoc-pin".toList
  have refused : routeAnswer (withMode enforced "dwoc-pin".toList .dryRun) (fun _ => some ⟨[], none⟩)
      (fun _ => true) none (pinAdmission (some danglingPin)) =
      .deny "invalid configuration: resolved catalogue key baseline is not present in the catalog".toList := by
    decide +kernel
  have admitted : routeAnswer (withMode enforced "dwoc-pin".toList .off) (fun _ => some ⟨[], none⟩)
      (fun _ => true) none (pinAdmission (some danglingPin)) = .allow [] := by
    decide +kernel
  rw [refused, admitted] at same
  cases same

/-! ## The response -/

/-- What the route makes of its answer. -/
def renderAnswer (object : Json) : Answer → Response
  | .allow [] => .allowed []
  | .allow mutations => .allowed (renderPatch object mutations)
  | .deny reason => .denied reason

/-- `mutate_devworkspaces` renders the answer of the two registries. -/
theorem mutateDevworkspaces_eq (data : Members → Members) (gate : FeatureGate)
    (view : Text → Option NamespaceFacts) (resolves : DwocRef → Bool)
    (config : Option DwocPin.ResolvedDwocPinConfig) (first : Option Admission) (namespaceName : Text)
    (object : Submitted) :
    mutateDevworkspaces data gate view resolves config
        (first.bind fun admission => (admission.answer gate view resolves).refusal) namespaceName
        (some object) =
      renderAnswer (.object (data object.members)) (routeAnswer gate view resolves first
        ⟨DwocPin.Workspace, DwocPin.Workspace.namespaceName, [DwocPin.feature config],
          workspaceFromObject namespaceName (.object (data object.members))⟩) := by
  unfold mutateDevworkspaces routeAnswer
  cases first.bind fun admission => (admission.answer gate view resolves).refusal with
  | some reason => rfl
  | none =>
    simp only [Admission.answer]
    cases admitSubject DwocPin.Workspace.namespaceName gate view resolves [DwocPin.feature config]
        (workspaceFromObject namespaceName (.object (data object.members))) with
    | error problem => rfl
    | ok outcome =>
      cases outcome with
      | deny reason => rfl
      | allow mutations => cases mutations <;> rfl

end WeeboSi.Webhook
