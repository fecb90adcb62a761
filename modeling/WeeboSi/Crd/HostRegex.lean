import WeeboSi.Crd.Hosts

/-!
# Anchoring an ownership expression

Source: crates/weebo-si-crd/src/endpoint_auth.rs:338-368. The anchors are characters put
around the text of the pattern. The regex crate binds them tighter than alternation, so
each reaches one top-level alternative only, and none is put where the text already has one.
What the crate reads in the `$` is up to the text before it: the end of the stem, the end of
a line where the pattern ends in multi-line mode, nothing where it ends in a comment.
-/
namespace WeeboSi.Crd
open WeeboSi.Lib

section Anchored
variable (pattern : Text) (dollar : Option (Text → Nat → Bool)) (alternatives : List Regex)

/-- The `^` that reaches an alternative. -/
def addedBefore (index : Nat) : Option (Text → Nat → Bool) :=
  if index = 0 ∧ pattern.head? ≠ some '^' then some Regex.startOfText else none

/-- The `$` that reaches an alternative. -/
def addedBehind (count index : Nat) : Option (Text → Nat → Bool) :=
  if index + 1 = count ∧ pattern.getLast? ≠ some '$' then dollar else none

/-- A match of an alternative that the added anchors leave standing. -/
def stands (stem : Text) (start index : Nat) (hit : Hit) : Bool :=
  (addedBefore pattern index).all (fun holds => holds stem start) &&
    (addedBehind pattern dollar alternatives.length index).all fun holds => holds stem hit.stop

end Anchored

section Engine
variable (compile : Text → Option (List Regex))

end Engine

/-! ## An alternative that is not anchored -/

end WeeboSi.Crd
