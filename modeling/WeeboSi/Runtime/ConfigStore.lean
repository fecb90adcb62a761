import WeeboSi.Lib.Run
import WeeboSi.Runtime.Features

/-!
# The configuration every process reads

Source: crates/weebo-si-runtime/src/config_store.rs:48-245, 665-812, 815-978,
crates/weebo-si-network-profiles/src/backend.rs and crates/weebo-si-kubearmor-policy/src/backend.rs.
One task follows the watches of the configuration and of the teams; after every event it resolves
what the caches hold and writes the handles the features read, one lock after the other. The first
sync of a process runs beside that task, and between any two writes of either the other may write.
A cache lists its objects in no particular order.
-/
namespace WeeboSi.Runtime
open WeeboSi.Lib WeeboSi.Crd WeeboSi.Chassis

/-! ## Resolving -/

def singletonName : Text := "cluster".toList

structure ConfigObject where
  name : Option Text
  features : Features

/-- What one sync works with. -/
structure Snapshot where
  declared : List TeamObject
  features : ResolvedFeatures

/-- No singleton reads as an empty configuration. -/
def resolveStore (configs : List ConfigObject) (teams : List TeamObject) : Snapshot :=
  match configs.find? fun config => config.name = some singletonName with
  | none => ⟨teams, .default⟩
  | some config => ⟨teams, config.features.resolveTeams teams⟩

/-- What the apiserver offers, found out once at boot. -/
structure Capabilities where
  network : NetworkProfiles.Backend → Bool
  runtime : KubearmorPolicy.RuntimeBackend → Bool

/-- An explicit backend is never replaced by another. -/
def resolveBackend (capabilities : Capabilities) : EnforcementBackend → Option NetworkProfiles.Backend
  | .auto => [.cilium, .networkPolicy].find? capabilities.network
  | .networkPolicy => if capabilities.network .networkPolicy then some .networkPolicy else none
  | .cilium => if capabilities.network .cilium then some .cilium else none

def resolveRuntimeBackend (capabilities : Capabilities) :
    RuntimeEnforcementBackend → Option KubearmorPolicy.RuntimeBackend
  | .auto => [.kubeArmor].find? capabilities.runtime
  | .kubeArmor => if capabilities.runtime .kubeArmor then some .kubeArmor else none

/-! ## The handles -/

structure Handles where
  teams : List Team
  features : ResolvedFeatures
  runtimeBackend : KubearmorPolicy.RuntimeBackend
  backend : NetworkProfiles.Backend
  selectionKey : Text

inductive Handle where
  | teams | dwocPin | networkProfiles | policyGuard | imagePolicy | kubearmorPolicy | registryConfig
  | endpointAuth | podSecurity | resourceQuotas | identity | runtimeBackend | backend | selectionKey
  deriving DecidableEq, Repr

/-- The order `apply_config` takes the locks in. -/
def writeOrder : List Handle :=
  [.teams, .dwocPin, .networkProfiles, .policyGuard, .imagePolicy, .kubearmorPolicy, .registryConfig,
    .endpointAuth, .podSecurity, .resourceQuotas, .identity, .runtimeBackend, .backend, .selectionKey]

def defaultSelection : Text := "hardening.weebo.io/dwoc".toList

namespace Snapshot
variable (snapshot : Snapshot)

def networkPreference : EnforcementBackend :=
  (snapshot.features.networkProfiles.map NetworkProfilesBlock.enforcement).getD .auto

def runtimePreference : RuntimeEnforcementBackend :=
  (snapshot.features.kubearmorPolicy.map KubeArmorBlock.enforcement).getD .auto

def selectionKey : Text := (snapshot.features.dwocPin.map DwocPinBlock.selection).getD defaultSelection

end Snapshot

section Sync
variable (capabilities : Capabilities)

/-- One lock taken and written. A backend that is not offered leaves the last one in place. -/
def Handles.write (snapshot : Snapshot) (handles : Handles) : Handle → Handles
  | .teams => { handles with teams := teamViews snapshot.declared }
  | .dwocPin => { handles with features.dwocPin := snapshot.features.dwocPin }
  | .networkProfiles => { handles with features.networkProfiles := snapshot.features.networkProfiles }
  | .policyGuard => { handles with features.policyGuard := snapshot.features.policyGuard }
  | .imagePolicy => { handles with features.imagePolicy := snapshot.features.imagePolicy }
  | .kubearmorPolicy => { handles with features.kubearmorPolicy := snapshot.features.kubearmorPolicy }
  | .registryConfig => { handles with features.registryConfig := snapshot.features.registryConfig }
  | .endpointAuth => { handles with features.endpointAuth := snapshot.features.endpointAuth }
  | .podSecurity => { handles with features.podSecurity := snapshot.features.podSecurity }
  | .resourceQuotas => { handles with features.resourceQuotas := snapshot.features.resourceQuotas }
  | .identity => { handles with features.identity := snapshot.features.identity }
  | .runtimeBackend => { handles with runtimeBackend :=
      (resolveRuntimeBackend capabilities snapshot.runtimePreference).getD handles.runtimeBackend }
  | .backend => { handles with
      backend := (resolveBackend capabilities snapshot.networkPreference).getD handles.backend }
  | .selectionKey => { handles with selectionKey := snapshot.selectionKey }

/-- A process: its caches, its handles, and what is left of each of its two syncs. -/
structure Process where
  configs : List ConfigObject
  teams : List TeamObject
  handles : Handles
  sync : Option (Snapshot × List Handle)
  first : Option (Snapshot × List Handle)
  started : Bool

/-- As a process is before its caches hold anything. -/
def Process.boot (selectionKey : Text) : Process where
  configs := []
  teams := []
  handles := ⟨[], .default, .kubeArmor, .networkPolicy, selectionKey⟩
  sync := none
  first := none
  started := false

inductive Event where
  | configs (listed : List ConfigObject)
  | teams (listed : List TeamObject)
  | write
  | begin
  | writeFirst

/-- The next lock of a sync that is on its way. -/
def Process.advance (s : Process) : Option (Snapshot × List Handle) → Handles × Option (Snapshot × List Handle)
  | some (snapshot, handle :: rest) =>
    (s.handles.write capabilities snapshot handle, if rest = [] then none else some (snapshot, rest))
  | _ => (s.handles, none)

/-- The task takes no event while it syncs; the first sync happens once. -/
def step (s : Process) : Event → Process
  | .configs listed =>
    if s.sync.isSome then s
    else { s with configs := listed, sync := some (resolveStore listed s.teams, writeOrder) }
  | .teams listed =>
    if s.sync.isSome then s
    else { s with teams := listed, sync := some (resolveStore s.configs listed, writeOrder) }
  | .write =>
    let (handles, sync) := s.advance capabilities s.sync
    { s with handles := handles, sync := sync }
  | .begin =>
    if s.started then s
    else { s with first := some (resolveStore s.configs s.teams, writeOrder), started := true }
  | .writeFirst =>
    let (handles, first) := s.advance capabilities s.first
    { s with handles := handles, first := first }

end Sync

/-! ## The gate -/

/-- Mode and scope of a feature, by its kebab-case name; `none` for one that is not configured. -/
def Handles.scopeOf (handles : Handles) (feature : Text) : Option (FeatureMode × Option Selector) :=
  let governed {C : Type} (block : Option (Governed C)) : Option (FeatureMode × Option Selector) :=
    block.map fun block => (block.mode, block.namespaceSelector)
  if feature = "dwoc-pin".toList then governed (handles.features.dwocPin.map DwocPinBlock.toGoverned)
  else if feature = "network-profiles".toList then
    governed (handles.features.networkProfiles.map NetworkProfilesBlock.toGoverned)
  else if feature = "policy-guard".toList then governed handles.features.policyGuard
  else if feature = "image-policy".toList then governed handles.features.imagePolicy
  else if feature = "kubearmor-policy".toList then
    handles.features.kubearmorPolicy.map fun block => (block.config.config.mode, block.namespaceSelector)
  else if feature = "registry-config".toList then governed handles.features.registryConfig
  else if feature = "endpoint-auth".toList then governed handles.features.endpointAuth
  else if feature = "resource-quotas".toList then governed handles.features.resourceQuotas
  else if feature = "pod-security".toList then governed handles.features.podSecurity
  else none

/-- `labels` is `none` for a namespace the watch has not seen. -/
def Handles.resolveMode (handles : Handles) (labels : Option Labels) (unobservedIsOff : Bool) (feature : Text) :
    FeatureMode :=
  match handles.scopeOf feature with
  | none => .off
  | some (mode, none) => mode
  | some (mode, some selector) =>
    match labels with
    | some labels => if selector.matchesLabels labels then mode else .off
    | none => if unobservedIsOff then .off else mode

/-! ## What a finished sync leaves -/

section Shows
variable (capabilities : Capabilities)

/-- The handle holds what the snapshot says; a backend does where one is offered. -/
def Handles.Shows (snapshot : Snapshot) (handles : Handles) : Handle → Prop
  | .teams => handles.teams = teamViews snapshot.declared
  | .dwocPin => handles.features.dwocPin = snapshot.features.dwocPin
  | .networkProfiles => handles.features.networkProfiles = snapshot.features.networkProfiles
  | .policyGuard => handles.features.policyGuard = snapshot.features.policyGuard
  | .imagePolicy => handles.features.imagePolicy = snapshot.features.imagePolicy
  | .kubearmorPolicy => handles.features.kubearmorPolicy = snapshot.features.kubearmorPolicy
  | .registryConfig => handles.features.registryConfig = snapshot.features.registryConfig
  | .endpointAuth => handles.features.endpointAuth = snapshot.features.endpointAuth
  | .podSecurity => handles.features.podSecurity = snapshot.features.podSecurity
  | .resourceQuotas => handles.features.resourceQuotas = snapshot.features.resourceQuotas
  | .identity => handles.features.identity = snapshot.features.identity
  | .runtimeBackend => ∀ found ∈ resolveRuntimeBackend capabilities snapshot.runtimePreference,
      handles.runtimeBackend = found
  | .backend => ∀ found ∈ resolveBackend capabilities snapshot.networkPreference, handles.backend = found
  | .selectionKey => handles.selectionKey = snapshot.selectionKey

theorem shows_write (snapshot : Snapshot) (handles : Handles) (handle : Handle) :
    (handles.write capabilities snapshot handle).Shows capabilities snapshot handle := by
  cases handle with
  | runtimeBackend | backend =>
    intro found offered
    simp only [Handles.write, Option.mem_def.mp offered, Option.getD_some]
  | _ => rfl

/-- A write is seen at its own handle alone. -/
theorem shows_write_other (snapshot : Snapshot) (handles : Handles) (handle other : Handle)
    (shown : handles.Shows capabilities snapshot other) :
    (handles.write capabilities snapshot handle).Shows capabilities snapshot other := by
  by_cases same : handle = other
  · rw [same]
    exact shows_write capabilities snapshot handles other
  · cases handle <;> cases other <;> first | exact absurd rfl same | exact shown

end Shows

/-- Handles that all show a snapshot hold its features. -/
theorem features_of_shows (capabilities : Capabilities) (snapshot : Snapshot) (handles : Handles)
    (shown : ∀ handle, handles.Shows capabilities snapshot handle) : handles.features = snapshot.features :=
  ResolvedFeatures.ext (shown .dwocPin) (shown .networkProfiles) (shown .policyGuard) (shown .imagePolicy)
    (shown .kubearmorPolicy) (shown .registryConfig) (shown .endpointAuth) (shown .identity) (shown .podSecurity)
    (shown .resourceQuotas)

/-! ## After the last event -/

def Event.delivers : Event → Bool
  | .configs _ | .teams _ => true
  | _ => false

section Settled
variable (capabilities : Capabilities)

/-- The last event came when nothing was being written, the first sync was over, and its own
sync went through. -/
structure Settles (selectionKey : Text) (early : List Event) (last : Event) (late : List Event) : Prop where
  delivers : last.delivers = true
  quiet : ∀ event ∈ late, event.delivers = false
  idle : (after (step capabilities) (.boot selectionKey) early).sync = none
  started : (after (step capabilities) (.boot selectionKey) early).started = true
  first : (after (step capabilities) (.boot selectionKey) early).first = none
  finished : (after (step capabilities) (.boot selectionKey) (early ++ last :: late)).sync = none

/-- The sync of a snapshot is under way and nothing else writes. -/
structure Syncing (snapshot : Snapshot) (s : Process) : Prop where
  holds : resolveStore s.configs s.teams = snapshot
  started : s.started = true
  first : s.first = none
  written : ∃ done rest, writeOrder = done ++ rest ∧ s.sync = (if rest = [] then none else some (snapshot, rest)) ∧
    ∀ handle ∈ done, s.handles.Shows capabilities snapshot handle

variable {capabilities}

theorem Syncing.advance {snapshot : Snapshot} {s : Process} (syncing : Syncing capabilities snapshot s) :
    Syncing capabilities snapshot (step capabilities s .write) := by
  obtain ⟨done, rest, order, sync, shown⟩ := syncing.written
  cases rest with
  | nil =>
    have ended : s.sync = none := sync
    have same : step capabilities s .write = s := by
      simp only [step, Process.advance, ended]
      rw [← ended]
    rwa [same]
  | cons handle rest =>
    have going : s.sync = some (snapshot, handle :: rest) := sync
    refine ⟨syncing.holds, syncing.started, syncing.first, done ++ [handle], rest, by simpa using order, ?_, ?_⟩
    · simp only [step, Process.advance, going]
    · intro other member
      simp only [step, Process.advance, going]
      rcases List.mem_append.mp member with before | now
      · exact shows_write_other capabilities snapshot s.handles handle other (shown other before)
      · rw [List.mem_singleton.mp now]
        exact shows_write capabilities snapshot s.handles handle

theorem Syncing.step {snapshot : Snapshot} {s : Process} (syncing : Syncing capabilities snapshot s) (event : Event)
    (quiet : event.delivers = false) : Syncing capabilities snapshot (step capabilities s event) := by
  cases event with
  | configs listed => cases quiet
  | teams listed => cases quiet
  | write => exact syncing.advance
  | begin => rwa [Runtime.step, if_pos syncing.started]
  | writeFirst =>
    have same : Runtime.step capabilities s .writeFirst = s := by
      simp only [Runtime.step, Process.advance, syncing.first]
      rw [← syncing.first]
    rwa [same]

theorem syncing_of_delivery (capabilities : Capabilities) (s : Process) (event : Event)
    (delivers : event.delivers = true) (idle : s.sync = none) (started : s.started = true) (first : s.first = none) :
    ∃ snapshot, Syncing capabilities snapshot (step capabilities s event) := by
  cases event with
  | configs listed =>
    refine ⟨resolveStore listed s.teams, ?_⟩
    simp only [step, idle, Option.isSome_none, Bool.false_eq_true, if_false]
    exact ⟨rfl, started, first, [], writeOrder, rfl, rfl, by simp⟩
  | teams listed =>
    refine ⟨resolveStore s.configs listed, ?_⟩
    simp only [step, idle, Option.isSome_none, Bool.false_eq_true, if_false]
    exact ⟨rfl, started, first, [], writeOrder, rfl, rfl, by simp⟩
  | write => cases delivers
  | begin => cases delivers
  | writeFirst => cases delivers

/-- A process that has settled shows what its caches hold. -/
theorem shows_of_settles {selectionKey : Text} {early late : List Event} {last : Event}
    (settles : Settles capabilities selectionKey early last late) (handle : Handle) :
    (after (step capabilities) (.boot selectionKey) (early ++ last :: late)).handles.Shows capabilities
      (resolveStore (after (step capabilities) (.boot selectionKey) (early ++ last :: late)).configs
        (after (step capabilities) (.boot selectionKey) (early ++ last :: late)).teams) handle := by
  have unrolled : after (step capabilities) (.boot selectionKey) (early ++ last :: late) =
      after (step capabilities) (step capabilities (after (step capabilities) (.boot selectionKey) early) last) late :=
    after_append _ _ _ _
  have finished := settles.finished
  rw [unrolled] at finished ⊢
  obtain ⟨snapshot, begins⟩ := syncing_of_delivery capabilities _ last settles.delivers settles.idle settles.started
    settles.first
  have ends := after_of_invariant (step capabilities) (Syncing capabilities snapshot)
    (fun _ event => event.delivers = false) (fun s event syncing quiet => syncing.step event quiet) _ begins late
    (along_of_forall _ _ late settles.quiet _)
  obtain ⟨done, rest, order, sync, shown⟩ := ends.written
  have all : rest = [] := by
    by_contra left
    rw [if_neg left] at sync
    exact absurd (finished.symm.trans sync) (by simp)
  rw [all, List.append_nil] at order
  have everywhere : handle ∈ writeOrder := by cases handle <;> decide
  rw [ends.holds]
  exact shown handle (order ▸ everywhere)

end Settled

/-! ## Two processes -/

/-- Every reader of the one sees what the same reader of the other sees; the backends agree where
the cluster offers what is asked for. -/
structure Agree (capabilities : Capabilities) (p q : Process) : Prop where
  teams : p.handles.teams = q.handles.teams
  features : p.handles.features = q.handles.features
  selectionKey : p.handles.selectionKey = q.handles.selectionKey
  modes : ∀ labels unobservedIsOff feature,
    p.handles.resolveMode labels unobservedIsOff feature = q.handles.resolveMode labels unobservedIsOff feature
  backend : (resolveBackend capabilities (resolveStore p.configs p.teams).networkPreference).isSome = true →
    p.handles.backend = q.handles.backend
  runtimeBackend :
    (resolveRuntimeBackend capabilities (resolveStore p.configs p.teams).runtimePreference).isSome = true →
    p.handles.runtimeBackend = q.handles.runtimeBackend

/-- At most one object has a name, so any order finds the same. -/
theorem find_perm {α : Type} (p : α → Bool) (xs ys : List α) (same : xs.Perm ys)
    (unique : ∀ a ∈ xs, ∀ b ∈ xs, p a = true → p b = true → a = b) : xs.find? p = ys.find? p := by
  cases found : xs.find? p with
  | none =>
    refine (List.find?_eq_none.mpr ?_).symm
    intro b inside
    exact List.find?_eq_none.mp found b (same.mem_iff.mpr inside)
  | some a =>
    have member := List.mem_of_find?_eq_some found
    have meets := List.find?_some found
    cases other : ys.find? p with
    | none => exact absurd meets (List.find?_eq_none.mp other a (same.mem_iff.mp member))
    | some b =>
      have alike := unique a member b (same.mem_iff.mpr (List.mem_of_find?_eq_some other)) meets
        (List.find?_some other)
      rw [alike]

theorem resolveStore_perm (configs otherConfigs : List ConfigObject) (teams otherTeams : List TeamObject)
    (sameConfigs : configs.Perm otherConfigs) (sameTeams : teams.Perm otherTeams)
    (names : (configs.map ConfigObject.name).Nodup) (distinct : (teams.map WeeboSiTeam.name).Nodup) :
    (resolveStore configs teams).features = (resolveStore otherConfigs otherTeams).features ∧
      teamViews (resolveStore configs teams).declared = teamViews (resolveStore otherConfigs otherTeams).declared := by
  have found : configs.find? (fun config => config.name = some singletonName) =
      otherConfigs.find? (fun config => config.name = some singletonName) := by
    apply find_perm _ _ _ sameConfigs
    intro a inA b inB isA isB
    exact List.inj_on_of_nodup_map names inA inB ((of_decide_eq_true isA).trans (of_decide_eq_true isB).symm)
  have views : teamViews teams = teamViews otherTeams :=
    congrArg (List.map WeeboSiTeam.asTeam) (resolutionOrder_perm teams otherTeams sameTeams distinct)
  unfold resolveStore
  rw [found]
  cases otherConfigs.find? fun config => config.name = some singletonName with
  | none => exact ⟨rfl, views⟩
  | some config => exact ⟨resolveTeams_perm config.features teams otherTeams sameTeams distinct, views⟩

/-- Two processes that have settled on the same objects answer alike, whatever each of them went
through before: in whatever order its watches brought what, however its cache lists it, and
wherever the first sync wrote in between. -/
theorem replicas_agree (capabilities : Capabilities) (selectionKey otherKey : Text) (early late : List Event)
    (last : Event) (otherEarly otherLate : List Event) (otherLast : Event) (p q : Process)
    (isP : p = after (step capabilities) (.boot selectionKey) (early ++ last :: late))
    (isQ : q = after (step capabilities) (.boot otherKey) (otherEarly ++ otherLast :: otherLate))
    (settles : Settles capabilities selectionKey early last late)
    (otherSettles : Settles capabilities otherKey otherEarly otherLast otherLate)
    (sameConfigs : p.configs.Perm q.configs) (sameTeams : p.teams.Perm q.teams)
    (names : (p.configs.map ConfigObject.name).Nodup) (distinct : (p.teams.map WeeboSiTeam.name).Nodup) :
    Agree capabilities p q := by
  have mine : ∀ handle, p.handles.Shows capabilities (resolveStore p.configs p.teams) handle := by
    rw [isP]
    exact shows_of_settles settles
  have its : ∀ handle, q.handles.Shows capabilities (resolveStore q.configs q.teams) handle := by
    rw [isQ]
    exact shows_of_settles otherSettles
  obtain ⟨features, views⟩ := resolveStore_perm p.configs q.configs p.teams q.teams sameConfigs sameTeams names distinct
  have same : p.handles.features = q.handles.features :=
    (features_of_shows capabilities _ _ mine).trans (features.trans (features_of_shows capabilities _ _ its).symm)
  have modes : ∀ labels unobservedIsOff feature, p.handles.resolveMode labels unobservedIsOff feature =
      q.handles.resolveMode labels unobservedIsOff feature := by
    intro labels unobservedIsOff feature
    simp only [Handles.resolveMode, Handles.scopeOf, same]
  refine ⟨(mine .teams).trans (views.trans (its .teams).symm), same, ?_, modes, ?_, ?_⟩
  · have keys : (resolveStore p.configs p.teams).selectionKey = (resolveStore q.configs q.teams).selectionKey := by
      rw [Snapshot.selectionKey, features, Snapshot.selectionKey]
    exact (mine .selectionKey).trans (keys.trans (its .selectionKey).symm)
  · intro offered
    have wanted : (resolveStore p.configs p.teams).networkPreference =
        (resolveStore q.configs q.teams).networkPreference := by
      rw [Snapshot.networkPreference, features, Snapshot.networkPreference]
    obtain ⟨found, isFound⟩ := Option.isSome_iff_exists.mp offered
    exact (mine .backend found isFound).trans (its .backend found (wanted ▸ isFound)).symm
  · intro offered
    have wanted : (resolveStore p.configs p.teams).runtimePreference =
        (resolveStore q.configs q.teams).runtimePreference := by
      rw [Snapshot.runtimePreference, features, Snapshot.runtimePreference]
    obtain ⟨found, isFound⟩ := Option.isSome_iff_exists.mp offered
    exact (mine .runtimeBackend found isFound).trans (its .runtimeBackend found (wanted ▸ isFound)).symm

/-! ## One restart -/

def restricted : Features :=
  ⟨none, none, some ⟨.enforce, none, ["argo".toList]⟩, none, none, none, none, none, none, none⟩

def cluster : ConfigObject := ⟨some singletonName, restricted⟩

def quietTeam (name : Text) : TeamObject := ⟨name, 1, ⟨[], []⟩, none⟩

def bothTeams : List TeamObject := [quietTeam ['a'], quietTeam ['b']]

def everything : Capabilities := ⟨fun _ => true, fun _ => true⟩

/-- The writes of one sync. -/
def writes (event : Event) : List Event := List.replicate 14 event

/-- A process that saw the singleton before the teams, and whose first sync wrote late. -/
def longRunning : List Event :=
  [.begin, .configs [cluster]] ++ writes .write ++ writes .writeFirst

def restarted : List Event := [.teams bothTeams.reverse] ++ writes .write ++ [.begin] ++ writes .writeFirst

def before : Process := after (step everything) (.boot []) (longRunning ++ .teams bothTeams :: writes .write)

def afterwards : Process :=
  after (step everything) (.boot ['k']) (restarted ++ .configs [cluster] :: writes .write)

theorem replicas_agree_restart : Agree everything before afterwards := by
  have hasTeams : before.teams = bothTeams := rfl
  have hasOthers : afterwards.teams = bothTeams.reverse := rfl
  have hasConfig : before.configs = [cluster] := rfl
  have hasOther : afterwards.configs = [cluster] := rfl
  refine replicas_agree everything [] ['k'] longRunning (writes .write) (.teams bothTeams) restarted (writes .write)
    (.configs [cluster]) before afterwards rfl rfl ?_ ?_ ?_ ?_ ?_ ?_
  · exact ⟨rfl, by decide, rfl, rfl, rfl, rfl⟩
  · exact ⟨rfl, by decide, rfl, rfl, rfl, rfl⟩
  · rw [hasConfig, hasOther]
  · rw [hasTeams, hasOthers]
    exact (List.reverse_perm bothTeams).symm
  · rw [hasConfig]
    exact List.nodup_singleton _
  · rw [hasTeams]
    decide

end WeeboSi.Runtime
