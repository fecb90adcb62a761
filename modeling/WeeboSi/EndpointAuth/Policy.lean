import WeeboSi.EndpointAuth.Identity

/-!
# Compiled endpoint policies

Source: crates/weebo-si-endpoint-auth/src/policy.rs:19-344.
-/
namespace WeeboSi.EndpointAuth
open WeeboSi.Lib

abbrev CatalogueKey := Text

inductive Delegation where
  | team | usersAndGroups
  deriving DecidableEq, Repr

inductive BearerMode where
  | reject | passthrough
  deriving DecidableEq, Repr

structure AccessProfile where
  key : CatalogueKey
  anonymous : Bool
  delegation : List Delegation
  deriving DecidableEq, Repr

namespace AccessProfile

def privateProfile : AccessProfile := ⟨"private".toList, false, []⟩

def delegates (profile : AccessProfile) (kind : Delegation) : Bool := profile.delegation.contains kind

end AccessProfile

/-! ## Methods -/

inductive Method where
  | get | head | post | put | patch | delete | options | connect | trace | other
  deriving DecidableEq, Repr

def Method.parse (raw : Text) : Method :=
  if raw = "GET".toList then .get
  else if raw = "HEAD".toList then .head
  else if raw = "POST".toList then .post
  else if raw = "PUT".toList then .put
  else if raw = "PATCH".toList then .patch
  else if raw = "DELETE".toList then .delete
  else if raw = "OPTIONS".toList then .options
  else if raw = "CONNECT".toList then .connect
  else if raw = "TRACE".toList then .trace
  else .other

/-- The discriminant, in the order the source declares the methods. -/
def Method.index : Method → Nat
  | .get => 0 | .head => 1 | .post => 2 | .put => 3 | .patch => 4
  | .delete => 5 | .options => 6 | .connect => 7 | .trace => 8 | .other => 9

def Method.bit (method : Method) : BitVec 16 := 1#16 <<< method.index

structure MethodSet where
  bits : BitVec 16
  deriving DecidableEq, Repr

namespace MethodSet

def any : MethodSet := ⟨BitVec.allOnes 16⟩

def of (methods : List Method) : MethodSet := ⟨methods.foldl (fun acc m => acc ||| m.bit) 0⟩

/-- `HEAD` is answered by whatever answers `GET`. -/
def contains (set : MethodSet) (method : Method) : Bool :=
  set.bits &&& method.bit != 0 || (method == .head && set.bits &&& Method.get.bit != 0)

end MethodSet

/-! ## Rules -/

inductive MatchKind where
  | exactPath | pathPrefix
  deriving DecidableEq, Repr

/-- How a rule compares a path: a trailing slash is ignored and a prefix ends at a segment. -/
def MatchKind.matchesPath (kind : MatchKind) (rulePath path : Text) : Bool :=
  let rule := stripLast '/' rulePath
  let candidate := stripLast '/' path
  match kind with
  | .exactPath => rule == candidate
  | .pathPrefix =>
    rule == [] || candidate == rule ||
      (rule.isPrefixOf candidate && (candidate.drop rule.length).head? == some '/')

structure PathRule where
  path : Text
  kind : MatchKind
  methods : MethodSet
  profile : AccessProfile
  bearer : Option BearerMode
  deriving DecidableEq, Repr

/-- `PathRule::matches`. -/
def PathRule.answers (rule : PathRule) (path : Text) (method : Method) : Bool :=
  rule.methods.contains method && rule.kind.matchesPath rule.path path

/-! ## Upstreams -/

structure Upstream where
  service : Text
  port : Nat
  fits : 0 < port ∧ port < 2 ^ 16
  deriving DecidableEq, Repr

def decimal (digits : Text) : Nat := digits.foldl (fun acc c => acc * 10 + (c.toNat - '0'.toNat)) 0

/-- `u16::from_str`: digits with an optional `+`. -/
def parseU16 (raw : Text) : Option Nat :=
  let digits := match raw with
    | '+' :: rest => rest
    | other => other
  if digits ≠ [] ∧ digits.all Char.isDigit ∧ decimal digits < 2 ^ 16 then some (decimal digits)
  else none

def Upstream.parse (raw : Text) : Option Upstream := do
  let (service, port) ← rsplitOnce ':' (trim raw)
  let port ← parseU16 port
  if service = [] then none
  else if fits : 0 < port ∧ port < 2 ^ 16 then some ⟨service, port, fits⟩
  else none

/-- The in-cluster address of a backend. -/
def Upstream.url (upstream : Upstream) (namespaceName : NamespaceName) : Text :=
  "http://".toList ++ upstream.service ++ '.' :: namespaceName ++ ".svc:".toList ++
    Nat.toDigits 10 upstream.port

/-! ## Policies -/

inductive Provenance where
  | devfile | author
  deriving DecidableEq, Repr

structure EndpointPolicy where
  namespaceName : NamespaceName
  owner : Username
  team : Option TeamName
  profile : AccessProfile
  allowUsers : List Username
  allowGroups : List GroupName
  bearer : BearerMode
  rules : List PathRule
  provenance : Provenance
  upstream : Option Upstream
  generation : Nat
  deriving DecidableEq, Repr

structure Selected where
  rule : Option Nat
  profile : AccessProfile
  bearer : BearerMode
  deriving DecidableEq, Repr

namespace EndpointPolicy

/-- The first rule from position `index` on that answers. -/
def selectFrom (policy : EndpointPolicy) (path : Text) (method : Method) :
    Nat → List PathRule → Selected
  | _, [] => ⟨none, policy.profile, policy.bearer⟩
  | index, rule :: rest =>
    if rule.answers path method then ⟨some index, rule.profile, rule.bearer.getD policy.bearer⟩
    else selectFrom policy path method (index + 1) rest

def select (policy : EndpointPolicy) (path : Text) (method : Method) : Selected :=
  policy.selectFrom path method 0 policy.rules

def isOwner (policy : EndpointPolicy) (username : Username) : Bool := policy.owner == username

end EndpointPolicy

end WeeboSi.EndpointAuth
