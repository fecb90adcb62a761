import Mathlib.Data.List.Basic
import Mathlib.Tactic

/-!
# Greedy wildcard matching with one backtrack point

A wildcard pattern is a list of items: a `block` consumes a run of fixed width
whose content it accepts, a `star` consumes any run. `greedy` is the two-pointer
loop that remembers only the last star it passed. `Splits` says what the pattern
means: the input falls into consecutive runs, one for each item in order.

The loop decides `Splits` (`greedy_iff`) because block widths are fixed: once a
second star is reached, whatever an earlier star could still give up the second
one can absorb. A star takes at least `low` elements; `low` is 0 or 1.
-/
namespace WeeboSi.Lib

/-- A run of `width` elements that `holds` accepts. -/
structure Block (α : Type) where
  width : Nat
  holds : List α → Bool

inductive Item (α : Type) where
  | star
  | block (b : Block α)

/-- The input after one block, when the block accepts what stands in front. -/
def Block.consume {α : Type} (b : Block α) (xs : List α) : Option (List α) :=
  if b.width ≤ xs.length ∧ b.holds (xs.take b.width) then some (xs.drop b.width) else none

theorem Block.consume_eq_some {α : Type} (b : Block α) (xs rest : List α) :
    b.consume xs = some rest ↔
      ∃ run, xs = run ++ rest ∧ run.length = b.width ∧ b.holds run = true := by
  unfold Block.consume
  constructor
  · intro h
    split at h
    · rename_i accepted
      cases h
      exact ⟨xs.take b.width, by simp, by simp [accepted.1], accepted.2⟩
    · cases h
  · rintro ⟨run, rfl, hlen, hrun⟩
    rw [if_pos ⟨by simp [hlen], by simp [← hlen, hrun]⟩]
    simp [← hlen]

section Meaning
variable {α : Type}

/-- The input falls into consecutive runs, one for each item of the pattern. -/
inductive Splits (low : Nat) : List (Item α) → List α → Prop where
  | done : Splits low [] []
  | star {rest : List (Item α)} {run xs : List α} (enough : low ≤ run.length)
      (after : Splits low rest xs) : Splits low (.star :: rest) (run ++ xs)
  | block {b : Block α} {rest : List (Item α)} {run xs : List α} (fits : run.length = b.width)
      (accepted : b.holds run = true) (after : Splits low rest xs) :
      Splits low (.block b :: rest) (run ++ xs)

theorem splits_nil_iff (low : Nat) (xs : List α) : Splits low [] xs ↔ xs = [] := by
  constructor
  · intro h
    cases h
    rfl
  · rintro rfl
    exact .done

theorem splits_star_iff (low : Nat) (rest : List (Item α)) (xs : List α) :
    Splits low (.star :: rest) xs ↔
      ∃ k, low ≤ k ∧ k ≤ xs.length ∧ Splits low rest (xs.drop k) := by
  constructor
  · intro h
    cases h with
    | star enough after => exact ⟨_, enough, by simp, by simpa using after⟩
  · rintro ⟨k, hlow, hk, h⟩
    have enough : low ≤ (xs.take k).length := by
      simp only [List.length_take]
      omega
    have whole := Splits.star enough h
    simpa using whole

theorem splits_block_iff (low : Nat) (b : Block α) (rest : List (Item α)) (xs : List α) :
    Splits low (.block b :: rest) xs ↔ ∃ ys, b.consume xs = some ys ∧ Splits low rest ys := by
  constructor
  · intro h
    cases h with
    | block fits accepted after =>
      exact ⟨_, (b.consume_eq_some _ _).mpr ⟨_, rfl, fits, accepted⟩, after⟩
  · rintro ⟨ys, h, after⟩
    obtain ⟨run, rfl, fits, accepted⟩ := (b.consume_eq_some _ _).mp h
    exact .block fits accepted after

/-- What one item takes. -/
def Item.Takes (low : Nat) : Item α → List α → Prop
  | .star, run => low ≤ run.length
  | .block b, run => run.length = b.width ∧ b.holds run = true

/-- The runs of a split, written out. -/
theorem splits_iff_runs (low : Nat) (items : List (Item α)) (xs : List α) :
    Splits low items xs ↔ ∃ runs, List.Forall₂ (Item.Takes low) items runs ∧ xs = runs.flatten := by
  constructor
  · intro h
    induction h with
    | done => exact ⟨[], .nil, rfl⟩
    | star enough _ ih =>
      obtain ⟨runs, taken, rfl⟩ := ih
      exact ⟨_ :: runs, .cons enough taken, rfl⟩
    | block fits accepted _ ih =>
      obtain ⟨runs, taken, rfl⟩ := ih
      exact ⟨_ :: runs, .cons ⟨fits, accepted⟩ taken, rfl⟩
  · rintro ⟨runs, taken, rfl⟩
    induction taken with
    | nil => exact .done
    | @cons item run _ _ one _ ih =>
      cases item with
      | star => exact .star one ih
      | block b => exact .block one.1 one.2 ih

/-- A star absorbs whatever precedes an input it already accepts. -/
theorem splits_star_absorb (low : Nat) (rest : List (Item α)) (xs : List α) (k : Nat)
    (h : Splits low (.star :: rest) (xs.drop k)) : Splits low (.star :: rest) xs := by
  obtain ⟨m, hlow, hm, h⟩ := (splits_star_iff low rest _).mp h
  rcases Nat.lt_or_ge xs.length k with hk | hk
  · refine (splits_star_iff low rest xs).mpr ⟨xs.length, ?_, Nat.le_refl _, ?_⟩
    · simp only [List.length_drop] at hm
      omega
    · simpa [List.drop_drop, List.drop_eq_nil_of_le (by omega : xs.length ≤ k + m)] using h
  · refine (splits_star_iff low rest xs).mpr ⟨k + m, by omega, ?_, ?_⟩
    · simp only [List.length_drop] at hm
      omega
    · simpa [List.drop_drop] using h

def blocksWidth (bs : List (Block α)) : Nat := (bs.map Block.width).sum

/-- Blocks in front of a pattern take exactly their widths off the input. -/
theorem splits_blocks (low : Nat) (bs : List (Block α)) (rest : List (Item α)) (xs : List α)
    (h : Splits low (bs.map .block ++ rest) xs) :
    blocksWidth bs ≤ xs.length ∧ Splits low rest (xs.drop (blocksWidth bs)) := by
  induction bs generalizing xs with
  | nil => simpa [blocksWidth] using h
  | cons b bs ih =>
    obtain ⟨ys, hc, after⟩ := (splits_block_iff low b _ xs).mp h
    obtain ⟨run, rfl, fits, -⟩ := (b.consume_eq_some _ _).mp hc
    obtain ⟨hle, after⟩ := ih ys after
    have hw : blocksWidth (b :: bs) = run.length + blocksWidth bs := by simp [blocksWidth, fits]
    refine ⟨by simp only [hw, List.length_append]; omega, ?_⟩
    rw [hw, ← List.drop_drop]
    simpa using after

end Meaning

section Loop
variable {α : Type}

/-- Whether what is left of the pattern accepts the empty input: nothing is left,
or only stars that may take nothing. -/
def leftover (low : Nat) : List (Item α) → Bool
  | [] => true
  | .star :: rest => low = 0 && leftover low rest
  | .block _ :: _ => false

/-- Give the marked star one more element and retry what follows it. -/
def extend (next : List (Item α) → List α → Option (List (Item α) × List α) → Option Bool) :
    Option (List (Item α) × List α) → Option Bool
  | none => some false
  | some (after, held) => next after held.tail (some (after, held.tail))

/-- The loop. `mark` is the last star passed: the pattern after it and the input
it has not taken yet. `none` means the fuel ran out. -/
def greedy (low : Nat) :
    Nat → List (Item α) → List α → Option (List (Item α) × List α) → Option Bool
  | 0, _, _, _ => none
  | _ + 1, items, [], _ => some (leftover low items)
  | fuel + 1, items, x :: xs, mark =>
    match items with
    | .star :: rest =>
      let held := (x :: xs).drop low
      greedy low fuel rest held (some (rest, held))
    | .block b :: rest =>
      match b.consume (x :: xs) with
      | some ys => greedy low fuel rest ys mark
      | none => extend (greedy low fuel) mark
    | [] => extend (greedy low fuel) mark

/-- What the loop still has to decide: the current pair, or a longer run for the
marked star. -/
def Answer (low : Nat) (items : List (Item α)) (xs : List α) :
    Option (List (Item α) × List α) → Prop
  | none => Splits low items xs
  | some (after, held) =>
    Splits low items xs ∨ ∃ k, 1 ≤ k ∧ k ≤ held.length ∧ Splits low after (held.drop k)

/-- Since the marked star only blocks were passed, and they took their widths. -/
def Marked (items : List (Item α)) (xs : List α) : Option (List (Item α) × List α) → Prop
  | none => True
  | some (after, held) => ∃ bs : List (Block α), after = bs.map .block ++ items ∧
      blocksWidth bs ≤ held.length ∧ xs = held.drop (blocksWidth bs)

def Positive (items : List (Item α)) : Prop := ∀ b, .block b ∈ items → 0 < b.width

theorem leftover_iff (low : Nat) (items : List (Item α)) (positive : Positive items) :
    leftover low items = true ↔ Splits low items [] := by
  induction items with
  | nil => simp [leftover, splits_nil_iff]
  | cons item items ih =>
    have ih := ih (fun b hb => positive b (by simp [hb]))
    cases item with
    | star =>
      rw [splits_star_iff]
      simp only [leftover, Bool.and_eq_true, decide_eq_true_eq, ih]
      constructor
      · rintro ⟨rfl, h⟩
        exact ⟨0, Nat.le_refl _, by simp, by simpa using h⟩
      · rintro ⟨k, hlow, hk, h⟩
        simp only [List.length_nil, Nat.le_zero] at hk
        subst hk
        exact ⟨by omega, by simpa using h⟩
    | block b =>
      have hw := positive b (by simp)
      simp only [leftover, Bool.false_eq_true, splits_block_iff, false_iff, not_exists, not_and]
      intro ys hc
      obtain ⟨run, hr, fits, -⟩ := (b.consume_eq_some _ _).mp hc
      have empty : run = [] := (List.append_eq_nil_iff.mp hr.symm).1
      simp only [empty, List.length_nil] at fits
      omega

/-- Reading on from a fresh star is choosing how much more it takes. -/
theorem answer_mark (low : Nat) (rest : List (Item α)) (xs : List α) :
    Answer low rest xs (some (rest, xs)) ↔
      ∃ k, k ≤ xs.length ∧ Splits low rest (xs.drop k) := by
  simp only [Answer]
  constructor
  · rintro (h | ⟨k, -, hk, h⟩)
    · exact ⟨0, Nat.zero_le _, by simpa using h⟩
    · exact ⟨k, hk, h⟩
  · rintro ⟨k, hk, h⟩
    cases k with
    | zero => exact Or.inl (by simpa using h)
    | succ k => exact Or.inr ⟨k + 1, by omega, hk, h⟩

theorem answer_star (low : Nat) (small : low ≤ 1) (rest : List (Item α)) (x : α) (xs : List α)
    (mark : Option (List (Item α) × List α)) (marked : Marked (.star :: rest) (x :: xs) mark) :
    Answer low (.star :: rest) (x :: xs) mark ↔
      Answer low rest ((x :: xs).drop low) (some (rest, (x :: xs).drop low)) := by
  -- an earlier star is never needed again: this one absorbs what that one would give up
  have forget : Answer low (.star :: rest) (x :: xs) mark ↔ Splits low (.star :: rest) (x :: xs) := by
    cases mark with
    | none => rfl
    | some pair =>
      obtain ⟨after, held⟩ := pair
      obtain ⟨bs, rfl, hle, hxs⟩ := marked
      simp only [Answer]
      constructor
      · rintro (h | ⟨k, -, -, h⟩)
        · exact h
        · obtain ⟨-, h⟩ := splits_blocks low bs _ _ h
          rw [List.drop_drop, Nat.add_comm, ← List.drop_drop, ← hxs] at h
          exact splits_star_absorb low rest _ k h
      · exact Or.inl
  rw [forget, answer_mark, splits_star_iff]
  constructor
  · rintro ⟨k, hlow, hk, h⟩
    refine ⟨k - low, ?_, ?_⟩
    · simp only [List.length_drop]
      omega
    · rwa [List.drop_drop, Nat.add_sub_cancel' hlow]
  · rintro ⟨k, hk, h⟩
    simp only [List.length_drop, List.length_cons] at hk
    refine ⟨low + k, by omega, by simp only [List.length_cons]; omega, ?_⟩
    rwa [List.drop_drop] at h

theorem answer_block (low : Nat) (b : Block α) (rest : List (Item α)) (xs ys : List α)
    (mark : Option (List (Item α) × List α)) (taken : b.consume xs = some ys) :
    Answer low (.block b :: rest) xs mark ↔ Answer low rest ys mark := by
  have step : Splits low (.block b :: rest) xs ↔ Splits low rest ys := by
    rw [splits_block_iff]
    constructor
    · rintro ⟨zs, hz, h⟩
      rw [taken] at hz
      cases hz
      exact h
    · intro h
      exact ⟨ys, taken, h⟩
  cases mark with
  | none => exact step
  | some pair => simp only [Answer, step]

theorem marked_block (b : Block α) (rest : List (Item α)) (xs ys : List α)
    (mark : Option (List (Item α) × List α)) (taken : b.consume xs = some ys)
    (marked : Marked (.block b :: rest) xs mark) : Marked rest ys mark := by
  cases mark with
  | none => trivial
  | some pair =>
    obtain ⟨after, held⟩ := pair
    obtain ⟨bs, rfl, hle, hxs⟩ := marked
    obtain ⟨run, hr, fits, -⟩ := (b.consume_eq_some _ _).mp taken
    have hw : blocksWidth (bs ++ [b]) = blocksWidth bs + run.length := by simp [blocksWidth, fits]
    have hlen := congrArg List.length (hxs.symm.trans hr)
    simp only [List.length_drop, List.length_append] at hlen
    refine ⟨bs ++ [b], by simp, by omega, ?_⟩
    rw [hw, ← List.drop_drop, ← hxs, hr]
    simp

/-- A pair that cannot go on leaves only longer runs of the marked star. -/
theorem answer_extend (low : Nat) (items : List (Item α)) (x : α) (xs : List α)
    (after : List (Item α)) (held : List α) (stuck : ¬ Splits low items (x :: xs))
    (marked : Marked items (x :: xs) (some (after, held))) :
    Answer low items (x :: xs) (some (after, held)) ↔
      Answer low after held.tail (some (after, held.tail)) := by
  obtain ⟨bs, -, -, hxs⟩ := marked
  have nonempty : held ≠ [] := by
    rintro rfl
    simp at hxs
  obtain ⟨y, ys, rfl⟩ := List.exists_cons_of_ne_nil nonempty
  rw [List.tail_cons, answer_mark]
  simp only [Answer, stuck, false_or, List.length_cons]
  constructor
  · rintro ⟨k, hk, hle, h⟩
    obtain ⟨m, rfl⟩ := Nat.exists_eq_add_of_le' hk
    exact ⟨m, by omega, by simpa using h⟩
  · rintro ⟨m, hm, h⟩
    exact ⟨m + 1, by omega, by omega, by simpa using h⟩

/-- The input is used up: only what is left of the pattern decides, because a longer
run for the marked star leaves too little for the blocks already placed. -/
theorem answer_empty (low : Nat) (items : List (Item α)) (mark : Option (List (Item α) × List α))
    (marked : Marked items [] mark) : Answer low items [] mark ↔ Splits low items [] := by
  cases mark with
  | none => rfl
  | some pair =>
    obtain ⟨after, held⟩ := pair
    obtain ⟨bs, rfl, hle, hxs⟩ := marked
    have hlen := congrArg List.length hxs
    simp only [List.length_nil, List.length_drop] at hlen
    simp only [Answer]
    constructor
    · rintro (h | ⟨k, hk, hkl, h⟩)
      · exact h
      · obtain ⟨hwide, -⟩ := splits_blocks low bs _ _ h
        simp only [List.length_drop] at hwide
        omega
    · exact Or.inl

/-- Whatever the loop answers is right. -/
theorem greedy_sound (low : Nat) (small : low ≤ 1) (fuel : Nat) (items : List (Item α))
    (xs : List α) (mark : Option (List (Item α) × List α)) (answer : Bool)
    (positive : Positive items) (positiveMark : ∀ pair ∈ mark, Positive pair.1)
    (marked : Marked items xs mark) (h : greedy low fuel items xs mark = some answer) :
    answer = true ↔ Answer low items xs mark := by
  induction fuel generalizing items xs mark with
  | zero => simp [greedy] at h
  | succ fuel ih =>
    cases xs with
    | nil =>
      simp only [greedy, Option.some.injEq] at h
      rw [answer_empty low items mark marked, ← leftover_iff low items positive, h]
    | cons x xs =>
      have retry : ¬ Splits low items (x :: xs) →
          extend (greedy low fuel) mark = some answer →
          (answer = true ↔ Answer low items (x :: xs) mark) := by
        intro stuck h
        cases mark with
        | none =>
          simp only [extend, Option.some.injEq] at h
          simp [← h, Answer, stuck]
        | some pair =>
          obtain ⟨after, held⟩ := pair
          rw [answer_extend low items x xs after held stuck marked]
          have hp := positiveMark (after, held) rfl
          exact ih after held.tail _ hp (by rintro _ ⟨⟩; exact hp)
            ⟨[], by simp, by simp [blocksWidth], by simp [blocksWidth]⟩ h
      cases items with
      | nil => exact retry (by simp [splits_nil_iff]) (by simpa [greedy] using h)
      | cons item rest =>
        have hrest : Positive rest := fun b hb => positive b (by simp [hb])
        cases item with
        | star =>
          simp only [greedy] at h
          rw [answer_star low small rest x xs mark marked]
          exact ih rest _ _ hrest (by rintro _ ⟨⟩; exact hrest)
            ⟨[], by simp, by simp [blocksWidth], by simp [blocksWidth]⟩ h
        | block b =>
          cases taken : b.consume (x :: xs) with
          | none =>
            refine retry ?_ (by simpa [greedy, taken] using h)
            simp [splits_block_iff, taken]
          | some ys =>
            simp only [greedy, taken] at h
            rw [answer_block low b rest _ ys mark taken]
            exact ih rest ys mark hrest positiveMark (marked_block b rest _ ys mark taken marked) h

/-- Steps left: every extension of the marked star shortens what it holds, and
between two extensions the pattern shortens. -/
def stepsLeft (size : Nat) (items : List (Item α)) (xs : List α) :
    Option (List (Item α) × List α) → Nat
  | none => (xs.length + 1) * (size + 1) + items.length
  | some (_, held) => held.length * (size + 1) + items.length

theorem greedy_terminates (low size : Nat) (fuel : Nat) (items : List (Item α)) (xs : List α)
    (mark : Option (List (Item α) × List α)) (fits : items.length ≤ size)
    (fitsMark : ∀ pair ∈ mark, pair.1.length ≤ size ∧ xs.length ≤ pair.2.length)
    (enough : stepsLeft size items xs mark < fuel) :
    ∃ answer, greedy low fuel items xs mark = some answer := by
  induction fuel generalizing items xs mark with
  | zero => omega
  | succ fuel ih =>
    cases xs with
    | nil => exact ⟨_, rfl⟩
    | cons x xs =>
      have retry : ∃ answer, extend (greedy low fuel) mark = some answer := by
        cases mark with
        | none => exact ⟨false, rfl⟩
        | some pair =>
          obtain ⟨after, held⟩ := pair
          have hafter : after.length ≤ size := (fitsMark (after, held) rfl).1
          have hheld : (x :: xs).length ≤ held.length := (fitsMark (after, held) rfl).2
          cases held with
          | nil => simp at hheld
          | cons y ys =>
            apply ih after ys _ hafter
            · rintro _ ⟨⟩
              exact ⟨hafter, Nat.le_refl _⟩
            · simp only [stepsLeft, List.length_cons, List.tail_cons, Nat.succ_mul] at enough ⊢
              omega
      cases items with
      | nil => simpa [greedy] using retry
      | cons item rest =>
        simp only [List.length_cons] at fits
        cases item with
        | star =>
          simp only [greedy]
          apply ih rest _ _ (by omega)
          · rintro _ ⟨⟩
            exact ⟨by simp only; omega, Nat.le_refl _⟩
          · have hdrop : ((x :: xs).drop low).length ≤ (x :: xs).length := by simp
            cases mark with
            | none =>
              have := Nat.mul_le_mul_right (size + 1) (Nat.le_succ_of_le hdrop)
              simp only [stepsLeft, List.length_cons, Nat.succ_eq_add_one] at enough this ⊢
              omega
            | some pair =>
              have hheld := (fitsMark pair rfl).2
              have := Nat.mul_le_mul_right (size + 1) (Nat.le_trans hdrop hheld)
              simp only [stepsLeft, List.length_cons] at enough this ⊢
              omega
        | block b =>
          cases taken : b.consume (x :: xs) with
          | none => simpa [greedy, taken] using retry
          | some ys =>
            have hys : ys.length ≤ (x :: xs).length := by
              obtain ⟨run, hr, -, -⟩ := (b.consume_eq_some _ _).mp taken
              simp [hr]
            simp only [greedy, taken]
            apply ih rest ys mark (by omega)
            · intro pair hpair
              obtain ⟨h1, h2⟩ := fitsMark pair hpair
              exact ⟨h1, Nat.le_trans hys h2⟩
            · cases mark with
              | none =>
                have := Nat.mul_le_mul_right (size + 1) (Nat.succ_le_succ hys)
                simp only [stepsLeft, List.length_cons, Nat.succ_eq_add_one] at enough this ⊢
                omega
              | some pair =>
                simp only [stepsLeft, List.length_cons] at enough ⊢
                omega

/-- Enough fuel for a pattern and an input of these lengths. -/
def greedyFuel (items input : Nat) : Nat := (input + 2) * (items + 1)

theorem greedy_answers (low : Nat) (items : List (Item α)) (xs : List α) :
    ∃ answer, greedy low (greedyFuel items.length xs.length) items xs none = some answer := by
  apply greedy_terminates low items.length _ items xs none (Nat.le_refl _) (by simp)
  simp only [stepsLeft, greedyFuel, Nat.add_mul]
  omega

/-- The loop answers what the pattern means. -/
theorem greedy_iff (low : Nat) (small : low ≤ 1) (items : List (Item α)) (xs : List α)
    (positive : Positive items) :
    greedy low (greedyFuel items.length xs.length) items xs none = some true ↔
      Splits low items xs := by
  obtain ⟨answer, h⟩ := greedy_answers low items xs
  have sound := greedy_sound low small _ items xs none answer positive (by simp) trivial h
  rw [h, Option.some.injEq, sound]
  rfl

end Loop

end WeeboSi.Lib
