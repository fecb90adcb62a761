import WeeboSi.Lib.Text

/-!
# Teams, selectors and merged catalogues

Source: crates/weebo-si-crd/src/selector.rs:12-86, team.rs:37-258, merge.rs:1-65 and
resolved.rs. A map of the source is a list of pairs read by its first match; `mapOf`
is how one is collected, the last pair of a key winning.
-/
namespace WeeboSi.Crd
open WeeboSi.Lib

abbrev Labels := List (Text × Text)

def mapOf {V : Type} (pairs : List (Text × V)) : List (Text × V) := pairs.reverse

inductive Operator where
  | isIn | notIn | exists | doesNotExist
  deriving DecidableEq, Repr

structure Expression where
  key : Text
  operator : Operator
  values : List Text
  deriving DecidableEq, Repr

/-- Both halves are conjoined; the empty selector matches everything. -/
structure Selector where
  matchLabels : Labels
  matchExpressions : List Expression
  deriving DecidableEq, Repr

namespace Selector

def expressionMatches (expr : Expression) (labels : Labels) : Bool :=
  match expr.operator with
  | .isIn => (labels.lookup expr.key).any expr.values.contains
  | .notIn => !(labels.lookup expr.key).any expr.values.contains
  | .exists => (labels.lookup expr.key).isSome
  | .doesNotExist => (labels.lookup expr.key).isNone

def matchesLabels (selector : Selector) (labels : Labels) : Bool :=
  (selector.matchLabels.all fun (key, value) => labels.lookup key == some value)
    && selector.matchExpressions.all fun expr => expressionMatches expr labels

end Selector

/-- A team as the features see it. -/
structure Team where
  name : Text
  namespaceSelector : Selector
  deriving DecidableEq, Repr

/-- The object: `features` is what one feature reads of `spec.features`. -/
structure WeeboSiTeam (features : Type) where
  name : Text
  priority : Int
  namespaceSelector : Selector
  features : Option features

namespace WeeboSiTeam
variable {features : Type}

def asTeam (team : WeeboSiTeam features) : Team := ⟨team.name, team.namespaceSelector⟩

/-- Lowest priority first, ties broken by name. -/
def resolutionLe (a b : WeeboSiTeam features) : Bool :=
  a.priority < b.priority || (a.priority == b.priority && textLe a.name b.name)

end WeeboSiTeam

def resolutionOrder {features : Type} (teams : List (WeeboSiTeam features)) :
    List (WeeboSiTeam features) :=
  teams.insertionSort fun a b => a.resolutionLe b = true

def teamViews {features : Type} (teams : List (WeeboSiTeam features)) : List Team :=
  (resolutionOrder teams).map WeeboSiTeam.asTeam

/-! ## Merging -/

structure CatalogConflict (K : Type) where
  team : Text
  key : K
  deriving DecidableEq, Repr

section Merge
variable {T K : Type} [DecidableEq T] [DecidableEq K]

/-- `seen` is the index of the first entry of a key. -/
structure MergeState (T K : Type) where
  merged : List T
  seen : K → Option Nat
  conflicts : List (CatalogConflict K)

def mergeEntry (keyOf : T → K) (team : Text) (s : MergeState T K) (entry : T) : MergeState T K :=
  match s.seen (keyOf entry) with
  | some index =>
    if s.merged[index]? ≠ some entry then
      { s with conflicts := s.conflicts ++ [⟨team, keyOf entry⟩] }
    else s
  | none =>
    { s with
      seen := fun key => if key = keyOf entry then some s.merged.length else s.seen key
      merged := s.merged ++ [entry] }

def mergeCatalogs (cluster : List T) (teams : List (Text × List T)) (keyOf : T → K) :
    List T × List (CatalogConflict K) :=
  let start : MergeState T K :=
    { merged := cluster, seen := fun key => cluster.findIdx? fun entry => keyOf entry = key,
      conflicts := [] }
  let done := teams.foldl (fun s (team, entries) => entries.foldl (mergeEntry keyOf team) s) start
  (done.merged, done.conflicts)

end Merge

/-- A configuration with the grants derived from the team objects. -/
structure Resolved (C G : Type) where
  config : C
  grants : List (Text × G)

end WeeboSi.Crd
