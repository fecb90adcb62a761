import WeeboSi.Lib.Text

/-!
# Leftmost-first regular expressions

An expression over characters with one capturing group. `hits` lists every way to match
from a position in the order in which a backtracking engine tries them, so the first is
the one it reports; a search tries the positions from the left. Alternatives at the top
level are kept as a list: that is the level at which an anchor binds to one of them only.
-/
namespace WeeboSi.Lib

inductive Regex where
  | empty
  | char (accepts : Char → Bool)
  /-- Matches nothing, at the positions it looks for. -/
  | look (holds : Text → Nat → Bool)
  | seq (first second : Regex)
  | alt (first second : Regex)
  | star (greedy : Bool) (inner : Regex)
  | group (inner : Regex)

/-- Where a match ends, and what the group holds by then. -/
structure Hit where
  stop : Nat
  captured : Option Text
  deriving DecidableEq, Repr

/-- What stands from one position to another. -/
def between (text : Text) (start stop : Nat) : Text := (text.drop start).take (stop - start)

/-- An iteration that consumes nothing ends a repetition. -/
def repeatHits (greedy : Bool) (once : Hit → List Hit) : Nat → Hit → List Hit
  | 0, hit => [hit]
  | fuel + 1, hit =>
    let more := (once hit).flatMap fun next =>
      if hit.stop < next.stop then repeatHits greedy once fuel next else []
    if greedy then more ++ [hit] else hit :: more

namespace Regex

/-- The ways to match on from `hit`, the preferred one first. -/
def hits (text : Text) : Regex → Hit → List Hit
  | empty, hit => [hit]
  | char accepts, hit =>
    match text[hit.stop]? with
    | some c => if accepts c then [{ hit with stop := hit.stop + 1 }] else []
    | none => []
  | look holds, hit => if holds text hit.stop then [hit] else []
  | seq first second, hit => (first.hits text hit).flatMap fun next => second.hits text next
  | alt first second, hit => first.hits text hit ++ second.hits text hit
  | star greedy inner, hit => repeatHits greedy (inner.hits text) text.length hit
  | group inner, hit =>
    (inner.hits text hit).map fun next =>
      { next with captured := some (between text hit.stop next.stop) }

def literal (text : Text) : Regex := text.foldr (fun c rest => seq (char (· == c)) rest) empty

def plus (inner : Regex) : Regex := seq inner (star true inner)

def startOfText (_ : Text) (at_ : Nat) : Bool := at_ = 0

end Regex

/-! ## Searching -/

/-- Every match of the alternatives from a position. -/
def hitsFrom (alternatives : List Regex) (text : Text) (start : Nat) : List Hit :=
  alternatives.flatMap fun regex => regex.hits text ⟨start, none⟩

/-- The match an engine reports. -/
def searchFirst (alternatives : List Regex) (text : Text) : Option Hit :=
  (List.range (text.length + 1)).findSome? fun start => (hitsFrom alternatives text start).head?

end WeeboSi.Lib
