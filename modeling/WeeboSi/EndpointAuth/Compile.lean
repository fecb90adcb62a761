import WeeboSi.EndpointAuth.Path
import WeeboSi.EndpointAuth.Policy

/-!
# Compiling a routing object

Source: crates/weebo-si-endpoint-auth/src/compile.rs:31-460. The YAML reader of the
`rules` annotation is a third-party crate: `yaml` is its answer on a document, the wire
rules or the text of its error.
-/
namespace WeeboSi.EndpointAuth
open WeeboSi.Lib

inductive CompileError where
  | anonymousWithDelegation (key : CatalogueKey)
  | unknownKey (key : CatalogueKey)
  | notGranted (key : CatalogueKey)
  | defaultNotAllowed (key : CatalogueKey)
  | unparseableRules (why : Text)
  | tooManyRules (found max : Nat)
  | rulePath (path : Text)
  | unknownMethod (method : Text)
  | emptyMethods (path : Text)
  deriving DecidableEq, Repr

/-- The admin's catalogue: a key names itself, and no entry is both anonymous and
delegating. The last entry of a key stands first. -/
structure Catalogue where
  entries : List (CatalogueKey × AccessProfile)
  sound : ∀ entry ∈ entries, entry.2.key = entry.1 ∧ (entry.2.anonymous = true → entry.2.delegation = [])

namespace Catalogue

def empty : Catalogue := ⟨[], by simp⟩

def newFrom (catalogue : Catalogue) :
    List (CatalogueKey × Bool × List Delegation) → Except CompileError Catalogue
  | [] => .ok catalogue
  | (key, anonymous, delegation) :: rest =>
    if both : anonymous = true ∧ delegation ≠ [] then .error (.anonymousWithDelegation key)
    else
      newFrom ⟨(key, ⟨key, anonymous, delegation⟩) :: catalogue.entries, by
        intro entry member
        rcases List.mem_cons.mp member with rfl | member
        · exact ⟨rfl, fun open_ => not_not.mp fun some_ => both ⟨open_, some_⟩⟩
        · exact catalogue.sound entry member⟩ rest

def new (entries : List (CatalogueKey × Bool × List Delegation)) : Except CompileError Catalogue :=
  newFrom empty entries

def profile (catalogue : Catalogue) (key : CatalogueKey) : Option AccessProfile :=
  catalogue.entries.lookup key

end Catalogue

structure Grant where
  allowed : List CatalogueKey
  default : CatalogueKey
  deriving DecidableEq, Repr

inductive OverrideMatch where
  | users (patterns : List Text)
  | namespaces (names : List NamespaceName)
  deriving DecidableEq, Repr

/-- `OverrideMatch::matches`: a username is written out or as a prefix before `*`. -/
def OverrideMatch.covers (matcher : OverrideMatch) (owner : Username) (ns : NamespaceName) : Bool :=
  match matcher with
  | .users patterns =>
    patterns.any fun pattern =>
      if pattern.getLast? = some '*' then pattern.dropLast.isPrefixOf owner else pattern == owner
  | .namespaces names => names.contains ns

structure Override where
  matcher : OverrideMatch
  allowed : Option (List CatalogueKey)
  default : Option CatalogueKey
  delegation : Option (List Delegation)
  deriving DecidableEq, Repr

structure RawEndpoint where
  namespaceName : NamespaceName
  owner : Username
  team : Option TeamName
  access : Option Text
  allowUsers : Option Text
  allowGroups : Option Text
  rules : Option Text
  upstream : Option Text
  provenance : Provenance
  deriving DecidableEq, Repr

inductive UnknownKey where
  | default | deny
  deriving DecidableEq, Repr

structure CompileSettings where
  foreignBearer : BearerMode
  maxRules : Nat
  onUnknownKey : UnknownKey
  deriving DecidableEq, Repr

def CompileSettings.standard : CompileSettings := ⟨.reject, 16, .default⟩

structure WireRule where
  path : Text
  kind : MatchKind
  access : Text
  methods : Option (List Text)
  bearer : Option BearerMode
  deriving DecidableEq, Repr

/-! ## What a grant and an override leave -/

/-- The keys, the default and the delegation ceiling an endpoint is compiled within. -/
structure Bounds where
  allowed : List CatalogueKey
  default : CatalogueKey
  ceiling : Option (List Delegation)
  deriving DecidableEq, Repr

def applicable (raw : RawEndpoint) (overrides : List Override) : Option Override :=
  overrides.find? fun o => o.matcher.covers raw.owner raw.namespaceName

def bounds (grant : Grant) (override : Option Override) : Bounds where
  allowed := match override.bind Override.allowed with
    | some narrower => grant.allowed.filter narrower.contains
    | none => grant.allowed
  default := (override.bind Override.default).getD grant.default
  ceiling := override.bind Override.delegation

def trimmed (value : Option Text) : Option Text := (value.map trim).filter (· ≠ [])

def chosenKey (raw : RawEndpoint) (catalogue : Catalogue) (settings : CompileSettings)
    (default : CatalogueKey) : Except CompileError CatalogueKey :=
  match trimmed raw.access with
  | some key =>
    if (catalogue.profile key).isNone then
      match settings.onUnknownKey with
      | .default => .ok default
      | .deny => .error (.unknownKey key)
    else .ok key
  | none => .ok default

def AccessProfile.capped (profile : AccessProfile) (ceiling : Option (List Delegation)) : AccessProfile :=
  match ceiling with
  | some ceiling => { profile with delegation := profile.delegation.filter ceiling.contains }
  | none => profile

def resolveProfile (key : CatalogueKey) (catalogue : Catalogue) (within : Bounds) :
    Except CompileError AccessProfile :=
  match catalogue.profile key with
  | none => .error (.unknownKey key)
  | some profile =>
    if key ∉ within.allowed then .error (.notGranted key) else .ok (profile.capped within.ceiling)

/-! ## Rules -/

def compileMethods (path : Text) : Option (List Text) → Except CompileError MethodSet
  | none => .ok .any
  | some listed =>
    if listed = [] then .error (.emptyMethods path)
    else do
      let parsed ← listed.mapM fun method =>
        if Method.parse method = .other then .error (.unknownMethod method)
        else .ok (Method.parse method)
      .ok (.of parsed)

def compileRule (catalogue : Catalogue) (within : Bounds) (wire : WireRule) :
    Except CompileError PathRule := do
  let normalised ← (normalise wire.path).mapError fun _ => CompileError.rulePath wire.path
  if normalised ≠ wire.path then .error (.rulePath wire.path)
  else do
    let methods ← compileMethods wire.path wire.methods
    let profile ← resolveProfile wire.access catalogue within
    .ok ⟨normalised, wire.kind, methods, profile, wire.bearer⟩

section Compile
variable (yaml : Text → Except Text (List WireRule))

/-- The rules as written, before any of them means something. -/
def readRules (raw : RawEndpoint) (settings : CompileSettings) : Except CompileError (List WireRule) :=
  match trimmed raw.rules with
  | none => .ok []
  | some document =>
    match yaml document with
    | .error why => .error (.unparseableRules why)
    | .ok wire =>
      if wire.length > settings.maxRules then .error (.tooManyRules wire.length settings.maxRules)
      else .ok wire

def compileRules (raw : RawEndpoint) (catalogue : Catalogue) (within : Bounds)
    (settings : CompileSettings) : Except CompileError (List PathRule) := do
  let wire ← readRules yaml raw settings
  wire.mapM (compileRule catalogue within)

def splitNames (raw : Option Text) : List Text :=
  (((raw.getD []).splitOn ',').map trim).filter (· ≠ [])

/-- The body of `compile` once the grant and the override are intersected. -/
def compileWithin (raw : RawEndpoint) (catalogue : Catalogue) (within : Bounds)
    (settings : CompileSettings) (generation : Nat) : Except CompileError EndpointPolicy :=
  if within.default ∉ within.allowed then .error (.defaultNotAllowed within.default)
  else do
    let key ← chosenKey raw catalogue settings within.default
    let profile ← resolveProfile key catalogue within
    let rules ← compileRules yaml raw catalogue within settings
    .ok
      { namespaceName := raw.namespaceName
        owner := raw.owner
        team := raw.team
        profile
        allowUsers := splitNames raw.allowUsers
        allowGroups := splitNames raw.allowGroups
        bearer := settings.foreignBearer
        rules
        provenance := raw.provenance
        upstream := raw.upstream.bind Upstream.parse
        generation }

def compile (raw : RawEndpoint) (catalogue : Catalogue) (grant : Grant) (overrides : List Override)
    (settings : CompileSettings) (generation : Nat) : Except CompileError EndpointPolicy :=
  compileWithin yaml raw catalogue (bounds grant (applicable raw overrides)) settings generation

end Compile

/-- The policy of an endpoint that did not compile. -/
def EndpointPolicy.closed (raw : RawEndpoint) (generation : Nat) : EndpointPolicy where
  namespaceName := raw.namespaceName
  owner := raw.owner
  team := raw.team
  profile := .privateProfile
  allowUsers := []
  allowGroups := []
  bearer := .reject
  rules := []
  provenance := raw.provenance
  upstream := raw.upstream.bind Upstream.parse
  generation

end WeeboSi.EndpointAuth
