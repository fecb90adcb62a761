import Mathlib.Data.List.DropRight
import WeeboSi.Lib.Text

/-!
# Trimming

What is left of a list when a kind of element is removed from both of its ends.
-/
namespace WeeboSi.Lib

section Trim
variable {α : Type} (p : α → Bool)

def trimBy (s : List α) : List α := (s.dropWhile p).rdropWhile p

/-- Neither end is to be trimmed. -/
structure Solid (s : List α) : Prop where
  front : ∀ x, s.head? = some x → p x = false
  back : ∀ x, s.getLast? = some x → p x = false

theorem trim_eq_trimBy (s : Text) : trim s = trimBy isWhite s := rfl

theorem rdropWhile_cut (c : α) (kept : p c = false) (a b : List α) :
    (a ++ c :: b).rdropWhile p = a ++ c :: b.rdropWhile p := by
  have reversed : (b.reverse ++ c :: a.reverse).dropWhile p = b.reverse.dropWhile p ++ c :: a.reverse := by
    rw [List.dropWhile_append]
    split
    · rename_i empty
      rw [List.isEmpty_iff.mp empty, List.dropWhile_cons_of_neg (by simp [kept]), List.nil_append]
    · rfl
  unfold List.rdropWhile
  rw [List.reverse_append, List.reverse_cons, List.append_assoc, List.singleton_append, reversed]
  simp

/-- Trimming around an element that stays. -/
theorem trimBy_cut (c : α) (kept : p c = false) (a b : List α) :
    trimBy p (a ++ c :: b) = a.dropWhile p ++ c :: b.rdropWhile p := by
  have left : (a ++ c :: b).dropWhile p = a.dropWhile p ++ c :: b := by
    rw [List.dropWhile_append]
    split
    · rename_i empty
      rw [List.isEmpty_iff.mp empty, List.dropWhile_cons_of_neg (by simp [kept]), List.nil_append]
    · rfl
  rw [trimBy, left, rdropWhile_cut p c kept]

theorem trimBy_eq_nil (s : List α) : trimBy p s = [] ↔ ∀ x ∈ s, p x = true := by
  unfold trimBy
  rw [List.rdropWhile_eq_nil_iff]
  constructor
  · intro all x member
    by_contra kept
    obtain ⟨a, b, rfl⟩ := List.append_of_mem member
    have left : x ∈ (a ++ x :: b).dropWhile p := by
      rw [List.dropWhile_append]
      split
      · simp [List.dropWhile_cons_of_neg kept]
      · simp
    exact kept (all x left)
  · exact fun all x member => all x ((List.dropWhile_suffix p).subset member)

theorem dropWhile_front (s : List α) (x : α) (first : (s.dropWhile p).head? = some x) : p x = false := by
  have kept := List.head?_dropWhile_not p s
  rw [first] at kept
  exact kept

theorem solid_trimBy (s : List α) : Solid p (trimBy p s) := by
  constructor
  · intro x first
    obtain ⟨rest, whole⟩ := List.rdropWhile_prefix p (s.dropWhile p)
    apply dropWhile_front p s x
    rw [← whole, List.head?_append]
    exact Option.or_eq_some_iff.mpr (Or.inl first)
  · intro x last
    apply dropWhile_front p (s.dropWhile p).reverse x
    rw [← List.getLast?_reverse]
    exact last

theorem trimBy_of_solid (s : List α) (solid : Solid p s) : trimBy p s = s := by
  have left : s.dropWhile p = s := by
    cases s with
    | nil => rfl
    | cons x rest => exact List.dropWhile_cons_of_neg (by simp [solid.front x rfl])
  rw [trimBy, left, List.rdropWhile_eq_self_iff]
  intro nonempty
  simp [solid.back _ (List.getLast?_eq_some_getLast nonempty)]

@[simp] theorem trimBy_trimBy (s : List α) : trimBy p (trimBy p s) = trimBy p s :=
  trimBy_of_solid p _ (solid_trimBy p s)

theorem dropWhile_map_congr {β : Type} (f : β → α) (q : β → Bool) (s : List β)
    (agree : ∀ x ∈ s, p (f x) = q x) : (s.map f).dropWhile p = (s.dropWhile q).map f := by
  induction s with
  | nil => rfl
  | cons x s ih =>
    have rest := ih fun y member => agree y (List.mem_cons_of_mem x member)
    rw [List.map_cons, List.dropWhile_cons, List.dropWhile_cons, agree x List.mem_cons_self, rest]
    split <;> rfl

/-- Trimming what a map has made of a list, as the list is trimmed. -/
theorem trimBy_map {β : Type} (f : β → α) (q : β → Bool) (s : List β) (agree : ∀ x ∈ s, p (f x) = q x) :
    trimBy p (s.map f) = (trimBy q s).map f := by
  have back : ∀ x ∈ (s.dropWhile q).reverse, p (f x) = q x := fun x member =>
    agree x ((List.dropWhile_suffix q).subset (List.mem_reverse.mp member))
  rw [trimBy, trimBy, dropWhile_map_congr p f q s agree, List.rdropWhile, List.rdropWhile, ← List.map_reverse,
    dropWhile_map_congr p f q _ back, List.map_reverse]

theorem trimBy_dropWhile (s : List α) : trimBy p (s.dropWhile p) = trimBy p s := by
  rw [trimBy, trimBy, List.dropWhile_idempotent]

/-- What is trimmed away on either side. -/
theorem trimBy_parts (s : List α) : ∃ before after, (∀ x ∈ before, p x = true) ∧
    (∀ x ∈ after, p x = true) ∧ s = before ++ trimBy p s ++ after := by
  refine ⟨s.takeWhile p, (s.dropWhile p).rtakeWhile p, ?_, ?_, ?_⟩
  · exact fun x member => List.mem_takeWhile_imp member
  · exact fun x member => List.mem_rtakeWhile_imp member
  · rw [List.append_assoc, trimBy, List.rdropWhile_append_rtakeWhile, List.takeWhile_append_dropWhile]

theorem mem_of_mem_trimBy (s : List α) (x : α) (member : x ∈ trimBy p s) : x ∈ s := by
  obtain ⟨before, after, -, -, whole⟩ := trimBy_parts p s
  rw [whole, List.append_assoc]
  exact List.mem_append_right _ (List.mem_append_left _ member)

/-- What is left of a list with a solid part is that part. -/
theorem trimBy_around (before s after : List α) (solid : Solid p s) (nonempty : s ≠ [])
    (left : ∀ x ∈ before, p x = true) (right : ∀ x ∈ after, p x = true) :
    trimBy p (before ++ s ++ after) = s := by
  have front : (before ++ s ++ after).dropWhile p = s ++ after := by
    rw [List.append_assoc, List.dropWhile_append_of_pos left]
    cases s with
    | nil => exact absurd rfl nonempty
    | cons x rest => exact List.dropWhile_cons_of_neg (by simp [solid.front x rfl])
  have back : (s ++ after).reverse.dropWhile p = s.reverse := by
    rw [List.reverse_append, List.dropWhile_append_of_pos (by simpa using right)]
    cases last : s.reverse with
    | nil => rfl
    | cons x rest =>
      apply List.dropWhile_cons_of_neg
      have isLast : s.getLast? = some x := by
        rw [List.getLast?_eq_head?_reverse, last]
        rfl
      simp [solid.back x isLast]
  rw [trimBy, front, List.rdropWhile, back, List.reverse_reverse]

end Trim

end WeeboSi.Lib
