import WeeboSi.Lib.Outcome
import WeeboSi.Lib.Text

/-!
# Times, names, hosts and credentials

Source: crates/weebo-si-endpoint-auth/src/time.rs:15-42, identity.rs:45-148 and
host.rs:18-133. A set of names is the list of its elements, read by membership only.
-/
namespace WeeboSi.EndpointAuth
open WeeboSi.Lib

def u64Max : Nat := 2 ^ 64 - 1

/-- The second the examples start at. -/
theorem hundred_le_u64Max : 100 ≤ u64Max := by decide

/-- Seconds since the epoch, a 64-bit count. -/
@[ext] structure Timestamp where
  secs : Nat
  fits : secs ≤ u64Max
  deriving DecidableEq, Repr

namespace Timestamp

def plusSecs (t : Timestamp) (secs : Nat) : Timestamp := ⟨min (t.secs + secs) u64Max, Nat.min_le_right _ _⟩

def isAtOrAfter (t deadline : Timestamp) : Bool := deadline.secs ≤ t.secs

/-- The earlier of two deadlines. -/
def earlier (a b : Timestamp) : Timestamp := if a.secs ≤ b.secs then a else b

@[simp] theorem plusSecs_secs (t : Timestamp) (secs : Nat) :
    (t.plusSecs secs).secs = min (t.secs + secs) u64Max := rfl

@[simp] theorem isAtOrAfter_eq_true (t deadline : Timestamp) :
    t.isAtOrAfter deadline = true ↔ deadline.secs ≤ t.secs := by simp [isAtOrAfter]

@[simp] theorem isAtOrAfter_eq_false (t deadline : Timestamp) :
    t.isAtOrAfter deadline = false ↔ t.secs < deadline.secs := by simp [isAtOrAfter]

@[simp] theorem earlier_secs (a b : Timestamp) : (earlier a b).secs = min a.secs b.secs := by
  unfold earlier
  split <;> omega

end Timestamp

abbrev Username := Text
abbrev GroupName := Text
abbrev TeamName := Text
abbrev NamespaceName := Text
abbrev SessionId := Text

structure Claims where
  username : Username
  groups : List GroupName
  team : Option TeamName
  session : Option SessionId
  deriving DecidableEq, Repr

/-- What the request presented, once the ports have had their say. -/
inductive Credential where
  | none
  | session (claims : Claims)
  | bearer (claims : Claims)
  | foreignBearer
  | serviceAccount (name : NamespaceName)
  | podOrigin (name : NamespaceName)
  | revokedSession
  deriving DecidableEq, Repr

/-! ## Hosts -/

def maxHostLen : Nat := 253

/-- What a hostname may carry once it is lowercased. -/
def isHostChar (c : Char) : Bool := c.isLower || c.isDigit || c == '.' || c == '-'

/-- A normalised host name: the one constructor of the source is `Host.parse`. -/
structure Host where
  text : Text
  nonempty : text ≠ []
  short : text.length ≤ maxHostLen
  usable : text.all isHostChar = true
  deriving DecidableEq, Repr

inductive HostError where
  | empty | notAHostname | tooLong
  deriving DecidableEq, Repr

/-- The text before a numeric port. -/
def withoutPort (s : Text) : Text :=
  match rsplitOnce ':' s with
  | some (head, tail) => if tail ≠ [] ∧ tail.all Char.isDigit then head else s
  | none => s

def Host.parse (raw : Text) : Except HostError Host :=
  let withoutDot := stripLast '.' (withoutPort (trim raw))
  if empty : withoutDot = [] then .error .empty
  else if long : byteLen withoutDot > maxHostLen then .error .tooLong
  else
    let lowered := withoutDot.map Char.toLower
    if usable : lowered.all isHostChar = true then
      .ok ⟨lowered, by simpa [lowered] using empty,
        by simpa [lowered] using Nat.le_trans (length_le_byteLen _) (Nat.le_of_not_gt long), usable⟩
    else .error .notAHostname

/-- One dotted suffix, minus the excluded hosts. -/
structure HostScope where
  suffix : Text
  exclude : List Host
  dotted : suffix.head? = some '.'

inductive ScopeError where
  | suffixNotDotted | suffixTooBroad
  | exclusion (error : HostError)
  deriving DecidableEq, Repr

def HostScope.new (suffix : Text) (exclude : List Text) : Except ScopeError HostScope :=
  let suffix := (trim suffix).map Char.toLower
  if dotted : suffix.head? = some '.' then
    if ((suffix.dropWhile (· == '.')).splitOn '.').length < 2 then .error .suffixTooBroad
    else do
      let exclude ← exclude.mapM fun raw => (Host.parse raw).mapError ScopeError.exclusion
      .ok ⟨suffix, exclude, dotted⟩
  else .error .suffixNotDotted

def HostScope.governs (scope : HostScope) (host : Host) : Bool :=
  scope.suffix.isSuffixOf host.text && !scope.exclude.contains host

end WeeboSi.EndpointAuth
