import WeeboSi.Chassis.Apply
import WeeboSi.ResourceQuotas.PlainPod

/-!
# A pass over the quotas of a namespace

Source: crates/weebo-si-resource-quotas/src/resolve.rs:49-92, feature/resource_quotas.rs:30-203,
application.rs:60-198, model/object.rs:11-142, model/quantity.rs:125-131 and
crates/weebo-si-crd/src/resource_quotas.rs:82-118. The configuration is read once a pass, and the
template store is what the watch caches hold then.
-/
namespace WeeboSi.ResourceQuotas
open WeeboSi.Lib WeeboSi.Crd WeeboSi.Chassis
open WeeboSi.NetworkProfiles (OnNotGranted TemplateRef)

structure QuotaGrant where
  allowed : List Text
  default : Text
  deriving DecidableEq, Repr

structure ResourceQuotasConfig where
  catalog : List QuotaProfile
  default : Text
  onNotGranted : OnNotGranted
  deriving DecidableEq, Repr

abbrev ResolvedResourceQuotasConfig := Resolved ResourceQuotasConfig QuotaGrant

def ResourceQuotasConfig.profile (config : ResourceQuotasConfig) (key : Text) : Option QuotaProfile :=
  config.catalog.find? fun entry => entry.key = key

/-! ## Resolution -/

inductive ResolutionStep where
  | annotatedNamespace | default
  deriving DecidableEq, Repr

structure Provenance where
  team : Option Text
  profile : Text
  step : ResolutionStep
  notGranted : Option Text
  deriving DecidableEq, Repr

structure NotGranted where
  team : Option Text
  requested : Text
  deriving DecidableEq, Repr

/-- The annotated key; an empty annotation names none. -/
def requestedKey (annotated : Option Text) : Option Text := (annotated.map trim).filter fun raw => raw ≠ []

def resolve (teams : List Team) (config : ResolvedResourceQuotasConfig) (labels : Labels)
    (annotated : Option Text) : Except NotGranted Provenance :=
  let team := (teams.find? fun team => team.namespaceSelector.matchesLabels labels).map Team.name
  let grant : QuotaGrant := match team.bind fun name => config.grants.lookup name with
    | some grant => grant
    | none => ⟨[config.config.default], config.config.default⟩
  match requestedKey annotated with
  | some key =>
    if grant.allowed.contains key then .ok ⟨team, key, .annotatedNamespace, none⟩
    else match config.config.onNotGranted with
      | .deny => .error ⟨team, key⟩
      | .default => .ok ⟨team, grant.default, .default, some key⟩
  | none => .ok ⟨team, grant.default, .default, none⟩

/-! ## Objects -/

def quotaName : Text := "weebo-quota".toList
def limitsName : Text := "weebo-limits".toList

inductive QuotaKind where
  | resourceQuota | limitRange
  deriving DecidableEq, Repr

def QuotaKind.objectName : QuotaKind → Text
  | .resourceQuota => quotaName
  | .limitRange => limitsName

structure ManagedQuotaObject where
  key : ObjectKey
  kind : QuotaKind
  profile : Text
  spec : Json
  uid : Option Text
  deriving DecidableEq

/-- The object of a kind that a profile writes into a namespace. -/
def ManagedQuotaObject.desired (namespaceName : Text) (kind : QuotaKind) (profile : Text) (spec : Json) :
    ManagedQuotaObject :=
  ⟨⟨namespaceName, kind.objectName⟩, kind, profile, spec, none⟩

instance : Managed ManagedQuotaObject QuotaKind where
  key := ManagedQuotaObject.key
  backend := ManagedQuotaObject.kind
  contentEq a b := a.kind = b.kind ∧ a.profile = b.profile ∧ a.spec = b.spec
  uid := ManagedQuotaObject.uid

abbrev Line := Diff ManagedQuotaObject QuotaKind

/-! ## The feature -/

structure TemplateStore where
  quota : TemplateRef → Option QuotaTemplate
  limitRange : TemplateRef → Option LimitRangeTemplate

structure NamespaceSubject where
  namespaceName : Text
  annotated : Option Text
  deriving DecidableEq, Repr

structure DesiredState where
  team : Option Text
  profile : Option Text
  objects : List ManagedQuotaObject
  hold : Bool
  notGranted : Option Text
  violations : List ProfileViolation
  deriving DecidableEq

structure ResourceQuotasFeature where
  config : Option ResolvedResourceQuotasConfig
  templates : TemplateStore
  templateNamespace : Text

namespace ResourceQuotasFeature
variable (render : Json → Text) (feature : ResourceQuotasFeature)

/-- The templates of a profile that are visible. -/
def quotaOf (profile : QuotaProfile) : Option QuotaTemplate := profile.quotaRef.bind feature.templates.quota

def limitsOf (profile : QuotaProfile) : Option LimitRangeTemplate :=
  profile.limitRangeRef.bind feature.templates.limitRange

def checkProfile (profile : QuotaProfile) : Except (List ProfileViolation) ValidProfile :=
  ValidProfile.check render profile (feature.quotaOf profile) (feature.limitsOf profile) feature.templateNamespace

def check (config : ResolvedResourceQuotasConfig) (key : Text) : Except (List ProfileViolation) ValidProfile :=
  match config.config.profile key with
  | none => .error []
  | some profile => feature.checkProfile render profile

/-- What a valid profile puts into a namespace. -/
def objectsOf (namespaceName : Text) (valid : ValidProfile) : List ManagedQuotaObject :=
  (valid.quota.toList.map fun quota => .desired namespaceName .resourceQuota valid.key quota.spec)
    ++ valid.limits.toList.map fun limits => .desired namespaceName .limitRange valid.key limits.spec

def desired (subject : NamespaceSubject) (teams : List Team) (labels : Labels) :
    Except DomainError DesiredState :=
  match feature.config with
  | none =>
    .error (.invalidConfiguration
      "resource-quotas evaluated with no spec.features.resourceQuotas configured".toList)
  | some config =>
    match resolve teams config labels subject.annotated with
    | .error refused => .ok ⟨refused.team, none, [], true, some refused.requested, []⟩
    | .ok provenance =>
      if (config.config.profile provenance.profile).isNone then
        .error (.invalidConfiguration
          ("resolved quota profile ".toList ++ provenance.profile ++ " is not in the catalog".toList))
      else match feature.check render config provenance.profile with
        | .error violations =>
          .ok ⟨provenance.team, some provenance.profile, [], true, provenance.notGranted, violations⟩
        | .ok valid =>
          .ok ⟨provenance.team, some provenance.profile, objectsOf subject.namespaceName valid, false,
            provenance.notGranted, []⟩

end ResourceQuotasFeature

/-! ## Saturation -/

inductive SaturationBand where
  | under80 | from80To99 | atLimit
  deriving DecidableEq, Repr

/-- A fraction in thousandths, rounded towards zero. -/
def Quantity.perMilleOf (usage limit : Quantity) : Option Int :=
  if limit.nanos = 0 then none else (checked128 (usage.nanos * 1000)).map fun scaled => scaled.tdiv limit.nanos

/-- A resource without a ratio counts once something uses it. -/
def resourcePerMille (used : StringMap) (hard : Text × Text) : Option Int :=
  match (Quantity.parse hard.2).toOption,
    (used.lookup hard.1).bind fun value => (Quantity.parse value).toOption with
  | some limit, some usage =>
    match usage.perMilleOf limit with
    | some perMille => some perMille
    | none => if 0 < usage.nanos then some 1000 else none
  | _, _ => none

def saturation (hard used : StringMap) : Option SaturationBand :=
  let worst := (hard.filterMap (resourcePerMille used)).foldl
    (fun worst perMille => some (match worst with
      | some worst => max worst perMille
      | none => perMille)) none
  worst.map fun perMille =>
    if perMille < 800 then .under80 else if perMille < 1000 then .from80To99 else .atLimit

/-! ## One pass -/

structure ForeignObjects where
  quotas : Nat
  limitRanges : Nat
  deriving DecidableEq, Repr

structure QuotaUsage where
  hard : StringMap
  used : StringMap
  deriving DecidableEq, Repr

structure ManagedQuotaStore where
  managedIn : Text → List ManagedQuotaObject
  usageIn : Text → Option QuotaUsage
  foreignIn : Text → ForeignObjects
  apply : List Line → Except DomainError Applied

inductive ReconcileResult where
  | applied | unchanged | deleted | notGranted | invalid
  deriving DecidableEq, Repr

inductive NamespaceState where
  | applied | pending | foreignQuota | foreignLimitRange
  deriving DecidableEq, Repr

structure ReconcileOutcome where
  namespaceName : Text
  team : Option Text
  profile : Option Text
  diffs : List Line
  applied : Option Applied
  results : List ReconcileResult
  notGranted : Option Text
  violations : List ProfileViolation
  foreign : ForeignObjects
  saturation : Option SaturationBand
  state : NamespaceState
  deriving DecidableEq

def isWrite : Line → Bool
  | .create _ | .update _ => true
  | _ => false

def isDelete : Line → Bool
  | .delete _ _ _ => true
  | _ => false

/-- A held namespace has no lines at all. -/
def passLines (state : DesiredState) (managed : List ManagedQuotaObject) : List Line :=
  if state.hold then [] else computeDiff state.objects managed

/-- Whether the lines change anything. -/
def anyWrite (lines : List Line) : Bool := lines.any fun line => isWrite line || isDelete line

def passResults (state : DesiredState) (lines : List Line) : List ReconcileResult :=
  let results := (if state.notGranted.isSome then [.notGranted] else [])
    ++ (if state.violations.isEmpty then [] else [.invalid])
    ++ (if lines.any isWrite then [.applied] else [])
    ++ (if lines.any isDelete then [.deleted] else [])
  if !state.hold && results.all (· == .notGranted) then results ++ [.unchanged] else results

def namespaceState (foreign : ForeignObjects) (carriesProfile : Bool) : NamespaceState :=
  if 0 < foreign.limitRanges then .foreignLimitRange
  else if 0 < foreign.quotas then .foreignQuota
  else if carriesProfile then .applied
  else .pending

def ReconcileOutcome.of (subject : NamespaceSubject) (state : DesiredState) (mode : FeatureMode)
    (store : ManagedQuotaStore) (lines : List Line) (applied : Option Applied) : ReconcileOutcome :=
  let foreign := store.foreignIn subject.namespaceName
  ⟨subject.namespaceName, state.team, state.profile, lines, applied, passResults state lines, state.notGranted,
    state.violations, foreign,
    (store.usageIn subject.namespaceName).bind fun usage => ResourceQuotas.saturation usage.hard usage.used,
    namespaceState foreign (!state.hold && (mode = .enforce || !anyWrite lines))⟩

/-- The outcome of a pass, with the lines it gave the store to apply. -/
def reconcile (desired : NamespaceSubject → Except DomainError DesiredState) (subject : NamespaceSubject)
    (mode : FeatureMode) (store : ManagedQuotaStore) : Except DomainError ReconcileOutcome × List Line :=
  if mode = .off then
    (.error (.invalidConfiguration
      ("reconcile called with mode Off — the caller must tear down an Off feature rather " ++
        "than reconcile it").toList), [])
  else match desired subject with
    | .error error => (.error error, [])
    | .ok state =>
      let lines := passLines state (store.managedIn subject.namespaceName)
      if mode = .enforce ∧ anyWrite lines = true then
        match store.apply lines with
        | .error error => (.error error, lines)
        | .ok applied => (.ok (.of subject state mode store lines (some applied)), lines)
      else if mode = .enforce then (.ok (.of subject state mode store lines (some (tally lines))), [])
      else (.ok (.of subject state mode store lines none), [])

end WeeboSi.ResourceQuotas
