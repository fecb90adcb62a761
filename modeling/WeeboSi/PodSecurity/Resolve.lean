import WeeboSi.Chassis.Admit
import WeeboSi.PodSecurity.Labels

/-!
# The levels of a namespace

Source: crates/weebo-si-pod-security/src/resolve.rs:9-109, model/backend.rs:7-31 and
crates/weebo-si-crd/src/pod_security.rs:113-192. A team contributes a level; the annotation of
the namespace wins where it names a stricter one.
-/
namespace WeeboSi.PodSecurity
open WeeboSi.Lib WeeboSi.Crd

inductive PodSecurityBackend where
  | auto | labels | observeSynced
  deriving DecidableEq, Repr

inductive EffectiveBackend where
  | labels | observeSynced
  deriving DecidableEq, Repr

def effectiveBackend (configured : PodSecurityBackend) (servesScc : Bool) : EffectiveBackend :=
  match configured with
  | .labels => .labels
  | .observeSynced => .observeSynced
  | .auto => if servesScc then .observeSynced else .labels

structure TeamPodSecurity where
  level : Option PodSecurityLevel
  warnLevel : Option PodSecurityLevel
  deriving DecidableEq, Repr

/-- `selectionKey` is the annotation that names a level; the empty text disables it. -/
structure PodSecurityConfig where
  default : PodSecurityLevel
  ceiling : PodSecurityLevel
  version : PodSecurityVersion
  backend : PodSecurityBackend
  selectionKey : Text
  deriving DecidableEq, Repr

abbrev ResolvedPodSecurityConfig := Resolved PodSecurityConfig TeamPodSecurity

inductive Note where
  | clamped (from_ : PodSecurityLevel)
  | notTightening (requested : PodSecurityLevel)
  | unknown (raw : Text)
  | warnRaised (from_ : PodSecurityLevel)
  deriving DecidableEq, Repr

structure Resolution where
  team : Option Text
  level : PodSecurityLevel
  warnLevel : PodSecurityLevel
  notes : List Note
  deriving DecidableEq, Repr

/-- The level after the annotation, and what there is to note of it. -/
def tightened (teamLevel : PodSecurityLevel) (annotated : Option Text) : PodSecurityLevel × List Note :=
  match annotated with
  | none => (teamLevel, [])
  | some raw =>
    match PodSecurityLevel.parse raw with
    | none => (teamLevel, [.unknown raw])
    | some requested =>
      if teamLevel < requested then (requested, [])
      else if requested < teamLevel then (teamLevel, [.notTightening requested])
      else (teamLevel, [])

def resolve (teams : List Team) (config : ResolvedPodSecurityConfig) (labels : Labels)
    (annotated : Option Text) : Resolution :=
  let team := (teams.find? fun team => team.namespaceSelector.matchesLabels labels).map Team.name
  let grant := (team.bind fun name => config.grants.lookup name).getD ⟨none, none⟩
  let teamLevel := grant.level.getD config.config.default
  let (asked, notes) := tightened teamLevel annotated
  let (level, notes) :=
    if asked < config.config.ceiling then (config.config.ceiling, notes ++ [.clamped asked]) else (asked, notes)
  let warnLevel := max (grant.warnLevel.getD teamLevel) level
  let raised := match grant.warnLevel with
    | some configured => if configured < level then [Note.warnRaised configured] else []
    | none => []
  ⟨team, level, warnLevel, notes ++ raised⟩

theorem tightened_ge (teamLevel : PodSecurityLevel) (annotated : Option Text) :
    teamLevel ≤ (tightened teamLevel annotated).1 := by
  unfold tightened
  split
  · exact le_rfl
  · split
    · exact le_rfl
    · split
      · next stricter => exact stricter.le
      · split <;> exact le_rfl

/-- The annotation can only tighten. -/
theorem resolve_level_le (teams : List Team) (config : ResolvedPodSecurityConfig) (labels : Labels)
    (annotated : Option Text) :
    (resolve teams config labels none).level ≤ (resolve teams config labels annotated).level := by
  have level_eq : ∀ annotated, (resolve teams config labels annotated).level =
      max (tightened
        ((((teams.find? fun team => team.namespaceSelector.matchesLabels labels).map Team.name).bind
          fun name => config.grants.lookup name).getD ⟨none, none⟩ |>.level.getD config.config.default)
        annotated).1
        config.config.ceiling := by
    intro annotated
    unfold resolve
    simp only
    split
    · next looser => exact (max_eq_right looser.le).symm
    · next stricter => exact (max_eq_left (not_lt.mp stricter)).symm
  rw [level_eq, level_eq]
  exact max_le_max (tightened_ge _ annotated) le_rfl

end WeeboSi.PodSecurity
