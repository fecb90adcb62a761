import Mathlib.Tactic

/-!
# Checked computations

How success of a sequence of fallible steps decomposes, and the loop whose body
is a check.
-/
namespace WeeboSi.Lib

theorem bind_eq_ok {ε α β : Type} (step : Except ε α) (next : α → Except ε β) (value : β) :
    (step >>= next) = .ok value ↔ ∃ x, step = .ok x ∧ next x = .ok value := by
  cases step with
  | error e => simp [bind, Except.bind]
  | ok x => simp [bind, Except.bind]

theorem bind_eq_error {ε α β : Type} (step : Except ε α) (next : α → Except ε β) (e : ε) :
    (step >>= next) = .error e ↔ step = .error e ∨ ∃ x, step = .ok x ∧ next x = .error e := by
  cases step with
  | error other => simp [bind, Except.bind]
  | ok x => simp [bind, Except.bind]

theorem map_eq_ok {ε α β : Type} (f : α → β) (step : Except ε α) (value : β) :
    step.map f = .ok value ↔ ∃ x, step = .ok x ∧ f x = value := by
  cases step <;> simp [Except.map]

/-- A check passes exactly when its test does. -/
@[simp] theorem check_eq_ok {ε α : Type} (test : Prop) [Decidable test] (value : α) (e : ε) (x : α) :
    (if test then Except.ok value else .error e) = .ok x ↔ test ∧ value = x := by
  by_cases h : test <;> simp [h]

@[simp] theorem guard_eq_ok {ε α : Type} (test : Prop) [Decidable test] (rest : Except ε α) (e : ε)
    (x : α) : (if test then Except.error e else rest) = .ok x ↔ ¬ test ∧ rest = .ok x := by
  by_cases h : test <;> simp [h]

/-- The loop `for x in xs { check(x)?; }`: the first refusal ends it. -/
def forEach {ε α : Type} (check : α → Except ε Unit) : List α → Except ε Unit
  | [] => .ok ()
  | x :: xs => do
    check x
    forEach check xs

@[simp] theorem forEach_eq_ok {ε α : Type} (check : α → Except ε Unit) (xs : List α) (done : Unit) :
    forEach check xs = .ok done ↔ ∀ x ∈ xs, check x = .ok () := by
  induction xs with
  | nil => simp [forEach]
  | cons x xs ih =>
    simp only [forEach, bind_eq_ok, ih, List.mem_cons, forall_eq_or_imp, exists_and_right]
    constructor
    · rintro ⟨⟨_, hx⟩, hxs⟩
      exact ⟨hx, hxs⟩
    · rintro ⟨hx, hxs⟩
      exact ⟨⟨(), hx⟩, hxs⟩

/-- A mapped check succeeds exactly when each element does. -/
theorem mapM_eq_ok {ε α β : Type} (f : α → Except ε β) (xs : List α) (ys : List β) :
    xs.mapM f = .ok ys ↔ List.Forall₂ (fun x y => f x = .ok y) xs ys := by
  induction xs generalizing ys with
  | nil =>
    cases ys with
    | nil => simp [pure, Except.pure]
    | cons y ys => simp [pure, Except.pure]
  | cons x xs ih =>
    simp only [List.mapM_cons, bind_eq_ok, ih, pure, Except.pure, Except.ok.injEq]
    constructor
    · rintro ⟨y, hy, rest, hrest, rfl⟩
      exact .cons hy hrest
    · intro h
      cases h with
      | cons hy hrest => exact ⟨_, hy, _, hrest, rfl⟩

/-- A mapped check is refused by one of its elements. -/
theorem mapM_eq_error {ε α β : Type} (f : α → Except ε β) (xs : List α) (e : ε)
    (refused : xs.mapM f = .error e) : ∃ x ∈ xs, f x = .error e := by
  induction xs with
  | nil => cases refused
  | cons x xs ih =>
    simp only [List.mapM_cons, bind_eq_error] at refused
    rcases refused with here | ⟨y, -, later | ⟨ys, -, never⟩⟩
    · exact ⟨x, by simp, here⟩
    · obtain ⟨other, member, refuses⟩ := ih later
      exact ⟨other, by simp [member], refuses⟩
    · cases never

/-- Every result of a mapped check is the result of some element. -/
theorem forall₂_mem_right {α β : Type} (rel : α → β → Prop) (xs : List α) (ys : List β)
    (pairs : List.Forall₂ rel xs ys) (y : β) (member : y ∈ ys) : ∃ x ∈ xs, rel x y := by
  induction pairs with
  | nil => cases member
  | @cons x z xs ys one _ ih =>
    rcases List.mem_cons.mp member with rfl | inside
    · exact ⟨x, by simp, one⟩
    · obtain ⟨other, isIn, related⟩ := ih inside
      exact ⟨other, by simp [isIn], related⟩

theorem mapM_eq_some {α β : Type} (f : α → Option β) (xs : List α) (ys : List β) :
    xs.mapM f = some ys ↔ List.Forall₂ (fun x y => f x = some y) xs ys := by
  induction xs generalizing ys with
  | nil =>
    cases ys with
    | nil => simp
    | cons y ys => simp
  | cons x xs ih =>
    simp only [List.mapM_cons, Option.bind_eq_bind, Option.bind_eq_some_iff, ih, pure,
      Option.some.injEq]
    constructor
    · rintro ⟨y, hy, rest, hrest, rfl⟩
      exact .cons hy hrest
    · intro h
      cases h with
      | cons hy hrest => exact ⟨_, hy, _, hrest, rfl⟩

end WeeboSi.Lib
