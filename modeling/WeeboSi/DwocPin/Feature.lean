import WeeboSi.Chassis.Admit

/-!
# Pinning the configuration of a workspace

Source: crates/weebo-si-dwoc-pin/src/resolve.rs:14-147, feature.rs:47-218, workspace.rs:10-20
and crates/weebo-si-crd/src/dwoc_pin.rs:43-103, 121-186. The workspace's own name is only
logged and is left out.
-/
namespace WeeboSi.DwocPin
open WeeboSi.Lib WeeboSi.Crd WeeboSi.Chassis

structure CatalogEntry where
  key : Text
  target : DwocRef
  deriving DecidableEq, Repr

abbrev Catalog := List CatalogEntry

def Catalog.target (catalog : Catalog) (key : Text) : Option DwocRef :=
  (catalog.find? fun entry => entry.key = key).map CatalogEntry.target

def Catalog.resolveRef (catalog : Catalog) (target : DwocRef) : Option Text :=
  (catalog.find? fun entry => entry.target = target).map CatalogEntry.key

structure Grant where
  allowed : List Text
  default : Text
  deriving DecidableEq, Repr

inductive OnUnknownKey where
  | default | deny
  deriving DecidableEq, Repr

inductive OnMissingTarget where
  | skip | deny
  deriving DecidableEq, Repr

structure DwocPinConfig where
  catalog : Catalog
  default : Text
  onUnknownKey : OnUnknownKey
  onMissingTarget : OnMissingTarget
  deriving DecidableEq, Repr

abbrev ResolvedDwocPinConfig := Resolved DwocPinConfig Grant

structure Workspace where
  namespaceName : Text
  configRef : Option DwocRef
  deriving DecidableEq, Repr

/-! ## Resolution -/

inductive ResolutionStep where
  | teamGrant | workspaceAttribute | annotatedNamespace | grantDefault
  deriving DecidableEq, Repr

def ResolutionStep.name : ResolutionStep → Text
  | teamGrant => "TeamGrant".toList
  | workspaceAttribute => "WorkspaceAttribute".toList
  | annotatedNamespace => "NamespaceAnnotation".toList
  | grantDefault => "GrantDefault".toList

structure Provenance where
  team : Option Text
  step : ResolutionStep
  resolvedKey : Option Text
  unknownKey : Option Text
  deriving DecidableEq, Repr

structure UnknownKey where
  team : Option Text
  annotationValue : Text
  deriving DecidableEq, Repr

def syntheticGrant (default : Text) : Grant := ⟨[default], default⟩

def matchedTeam (teams : List Team) (facts : NamespaceFacts) : Option Team :=
  teams.find? fun team => team.namespaceSelector.matchesLabels facts.labels

def teamGrant (config : ResolvedDwocPinConfig) (team : Option Team) : Grant :=
  match team with
  | some team => (config.grants.lookup team.name).getD (syntheticGrant config.config.default)
  | none => syntheticGrant config.config.default

/-- Steps 3 and 4: the answer without the workspace's own attribute. -/
def baseline (config : ResolvedDwocPinConfig) (team : Option Text) (grant : Grant) (annotated : Option Text) :
    Except UnknownKey Provenance :=
  match annotated with
  | some value =>
    if grant.allowed.contains value then .ok ⟨team, .annotatedNamespace, some value, none⟩
    else match config.config.onUnknownKey with
      | .deny => .error ⟨team, value⟩
      | .default => .ok ⟨team, .grantDefault, some grant.default, some value⟩
  | none => .ok ⟨team, .grantDefault, some grant.default, none⟩

/-- Step 2: the key of the workspace's own attribute, where it is granted and another one. -/
def ownKey (config : ResolvedDwocPinConfig) (grant : Grant) (base : Provenance) (current : Option DwocRef) :
    Option Text := do
  let key ← config.config.catalog.resolveRef (← current)
  if grant.allowed.contains key ∧ some key ≠ base.resolvedKey then some key else none

def resolve (teams : List Team) (config : ResolvedDwocPinConfig) (facts : NamespaceFacts)
    (current : Option DwocRef) : Except UnknownKey Provenance := do
  let team := matchedTeam teams facts
  let grant := teamGrant config team
  let base ← baseline config (team.map Team.name) grant facts.selectionAnnotated
  match ownKey config grant base current with
  | some key => .ok ⟨team.map Team.name, .workspaceAttribute, some key, none⟩
  | none => .ok base

/-! ## Messages -/

def hexDigit (n : Nat) : Char := if n < 10 then Char.ofNat (48 + n) else Char.ofNat (87 + n)

/-- At least four hexadecimal digits; a control character needs no more. -/
def hex4 (n : Nat) : Text :=
  [hexDigit (n / 4096 % 16), hexDigit (n / 256 % 16), hexDigit (n / 16 % 16), hexDigit (n % 16)]

/-- The Unicode category Cc. -/
def isControl (c : Char) : Bool := c.toNat < 0x20 || (0x7f ≤ c.toNat && c.toNat ≤ 0x9f)

def maxEchoedValue : Nat := 128

def escapeChar (c : Char) : Text :=
  if c = '"' then ['\\', '"'] else if c = '\\' then ['\\', '\\']
  else if c = '\n' then ['\\', 'n'] else if c = '\r' then ['\\', 'r'] else if c = '\t' then ['\\', 't']
  else if isControl c then ['\\', 'u', '\x7b'] ++ hex4 c.toNat ++ ['\x7d'] else [c]

def escapeAnnotationValue (value : Text) : Text :=
  ['"'] ++ (value.take maxEchoedValue).flatMap escapeChar ++ ['"']
    ++ (if value.length > maxEchoedValue then "…(truncated)".toList else [])

/-- A verb followed by pairs `k=v`. -/
def auditValue (previous : Option DwocRef) (team : Option Text) (key : Text) : Text :=
  let attributed := ";team=".toList ++ team.getD "<none>".toList ++ ";key=".toList ++ key
  match previous with
  | none => "added".toList ++ attributed
  | some prev => "replaced:".toList ++ prev.namespaceName ++ "/".toList ++ prev.name ++ attributed

/-! ## The decision -/

def auditAnnotationKey : Text := "hardening.weebo.io/dwoc-pin".toList

/-- The patch and its audit trail. -/
def pinned (target : DwocRef) (previous : Option DwocRef) (team : Option Text) (key : Text) : List Mutation :=
  [.setConfigRef target, .annotate auditAnnotationKey (auditValue previous team key)]

def decide (current : Option DwocRef) (resolvedKey : Text) (target : DwocRef) (step : ResolutionStep)
    (team : Option Text) (config : ResolvedDwocPinConfig) : Text × List Mutation :=
  match current with
  | none => ("added".toList, pinned target none team resolvedKey)
  | some currentRef =>
    if config.config.catalog.resolveRef currentRef = some resolvedKey then
      (if step = .workspaceAttribute then "allowed_override".toList else "already_pinned".toList, [])
    else ("replaced".toList, pinned target (some currentRef) team resolvedKey)

def missingTarget (config : ResolvedDwocPinConfig) (key : Text) (target : DwocRef) (team : Option Text) :
    Decision :=
  let note := some ("catalogue entry ".toList ++ key ++ " does not resolve".toList)
  match config.config.onMissingTarget with
  | .skip => .allow [] team note "target_missing".toList
  | .deny =>
    .deny ("catalogue entry ".toList ++ key ++ " points at ".toList ++ target.namespaceName ++ "/".toList
      ++ target.name ++ ", which does not exist".toList) team note "target_missing".toList

def evaluate (config : Option ResolvedDwocPinConfig) (subject : Workspace) (ctx : Context) :
    Except DomainError Decision :=
  match config with
  | none =>
    .error (.invalidConfiguration "dwoc-pin evaluated with no spec.features.dwocPin configured".toList)
  | some config =>
    match resolve ctx.teams config ctx.facts subject.configRef with
    | .error unknown =>
      let value := escapeAnnotationValue unknown.annotationValue
      .ok (.deny ("the namespace annotation names a catalogue key outside this namespace's grant: ".toList
        ++ value) unknown.team (some ("unreachable key ".toList ++ value)) "unknown_key".toList)
    | .ok provenance =>
      match provenance.resolvedKey with
      | none => .error (.invalidConfiguration "resolution succeeded without a resolved key".toList)
      | some key =>
        match config.config.catalog.target key with
        | none =>
          .error (.invalidConfiguration ("resolved catalogue key ".toList ++ key
            ++ " is not present in the catalog".toList))
        | some target =>
          if !ctx.resolves target then .ok (missingTarget config key target provenance.team)
          else
            let (result, mutations) :=
              decide subject.configRef key target provenance.step provenance.team config
            .ok (.allow mutations provenance.team
              (some ("resolved=".toList ++ key ++ " step=".toList ++ provenance.step.name)) result)

/-- The feature as it is registered. -/
def feature (config : Option ResolvedDwocPinConfig) : Feature Workspace :=
  ⟨"dwoc-pin".toList, evaluate config⟩

/-! ## What the feature mutates -/

theorem decide_mutations (current : Option DwocRef) (key : Text) (target : DwocRef) (step : ResolutionStep)
    (team : Option Text) (config : ResolvedDwocPinConfig) :
    (decide current key target step team config).2 = [] ∨
      (decide current key target step team config).2 = pinned target current team key := by
  cases current with
  | none => exact Or.inr rfl
  | some currentRef =>
    simp only [DwocPin.decide]
    by_cases same : config.config.catalog.resolveRef currentRef = some key
    · rw [if_pos same]
      exact Or.inl rfl
    · rw [if_neg same]
      exact Or.inr rfl

theorem missingTarget_mutations (config : ResolvedDwocPinConfig) (key : Text) (target : DwocRef)
    (team : Option Text) : (missingTarget config key target team).mutations = [] := by
  unfold missingTarget
  cases config.config.onMissingTarget with
  | skip => rfl
  | deny => rfl

/-- Nothing, or one reference and its audit trail. -/
theorem evaluate_mutations (config : Option ResolvedDwocPinConfig) (subject : Workspace) (ctx : Context)
    (decision : Decision) (evaluated : evaluate config subject ctx = .ok decision) :
    decision.mutations = [] ∨
      ∃ target value, decision.mutations = [.setConfigRef target, .annotate auditAnnotationKey value] := by
  unfold evaluate at evaluated
  split at evaluated
  · cases evaluated
  · split at evaluated
    · cases evaluated
      exact Or.inl rfl
    · split at evaluated
      · cases evaluated
      · split at evaluated
        · cases evaluated
        · split_ifs at evaluated
          · cases evaluated
            exact Or.inl (missingTarget_mutations _ _ _ _)
          · cases evaluated
            rcases decide_mutations _ _ _ _ _ _ with nothing | both
            · exact Or.inl nothing
            · exact Or.inr ⟨_, _, both⟩

end WeeboSi.DwocPin
