import WeeboSi.Lib.Text

/-!
# Texts with holes

A template is characters and holes. It is cut at a character in the same places before and after
its holes are filled, as long as the character stands in nothing they are filled with.
-/
namespace WeeboSi.Lib

inductive Symbol where
  | char (c : Char)
  | hole (name : Text)
  deriving DecidableEq, Repr

section Fill
variable (value : Text → Text)

def plug : Symbol → Text
  | .char c => [c]
  | .hole name => value name

def fillHoles (symbols : List Symbol) : Text := symbols.flatMap (plug value)

@[simp] theorem fillHoles_append (one other : List Symbol) :
    fillHoles value (one ++ other) = fillHoles value one ++ fillHoles value other :=
  List.flatMap_append

@[simp] theorem fillHoles_nil : fillHoles value [] = [] := rfl

@[simp] theorem fillHoles_char (c : Char) (symbols : List Symbol) :
    fillHoles value (.char c :: symbols) = c :: fillHoles value symbols := rfl

@[simp] theorem fillHoles_hole (name : Text) (symbols : List Symbol) :
    fillHoles value (.hole name :: symbols) = value name ++ fillHoles value symbols := rfl

@[simp] theorem fillHoles_map_char (text : Text) : fillHoles value (text.map .char) = text := by
  induction text with
  | nil => rfl
  | cons c text ih => rw [List.map_cons, fillHoles_char, ih]

end Fill

section Cut
variable {α β : Type} (f : α → List β) (sep : α) (mark : β)
  (here : f sep = [mark]) (elsewhere : ∀ x, x ≠ sep → mark ∉ f x)
include elsewhere

theorem not_mem_flatMap (xs : List α) (absent : sep ∉ xs) : mark ∉ xs.flatMap f := by
  intro member
  obtain ⟨x, inside, found⟩ := List.mem_flatMap.mp member
  refine elsewhere x ?_ found
  rintro rfl
  exact absent inside

variable [DecidableEq α] [DecidableEq β]
include here

theorem splitOnce_flatMap (xs : List α) :
    splitOnce mark (xs.flatMap f) =
      (splitOnce sep xs).map fun cut => (cut.1.flatMap f, cut.2.flatMap f) := by
  cases cut : splitOnce sep xs with
  | none =>
    have absent := (splitOnce_eq_none sep xs).mp cut
    exact splitOnce_absent mark _ (not_mem_flatMap f sep mark elsewhere xs absent)
  | some parts =>
    obtain ⟨before, after⟩ := parts
    obtain ⟨rfl, absent⟩ := (splitOnce_eq_some sep xs before after).mp cut
    rw [List.flatMap_append, List.flatMap_cons, here, List.singleton_append]
    exact splitOnce_append mark _ _ (not_mem_flatMap f sep mark elsewhere before absent)

theorem splitOn_flatMap (xs : List α) :
    (xs.flatMap f).splitOn mark = (xs.splitOn sep).map (List.flatMap f) := by
  rcases splitOn_cases sep xs with ⟨absent, single⟩ | ⟨before, after, whole, absent, parts⟩
  · rw [single, List.splitOn_eq_singleton (not_mem_flatMap f sep mark elsewhere xs absent)]
    rfl
  · have rest := splitOn_flatMap after
    rw [parts, whole, List.flatMap_append, List.flatMap_cons, here, List.singleton_append,
      splitOn_append mark _ _ (not_mem_flatMap f sep mark elsewhere before absent), rest]
    rfl
termination_by xs.length
decreasing_by
  simp only [whole, List.length_append, List.length_cons]
  omega

end Cut

end WeeboSi.Lib
