import Mathlib.Computability.Language
import WeeboSi.Lib.Text

/-!
# Regular languages of words

Character classes, repetitions and separated groups in Mathlib's Kleene algebra of
languages, each with what membership says about the characters of a word.
-/
namespace WeeboSi.Lib
open scoped Computability

variable {α : Type}

/-- `[p]`: one character of a class. -/
def oneOf (p : α → Bool) : Language α := {w | ∃ c, w = [c] ∧ p c = true}

/-- `[p]+`. -/
def someOf (p : α → Bool) : Language α := oneOf p * (oneOf p)∗

/-- `l(sep l)*`. -/
def separated (sep l : Language α) : Language α := l * (sep * l)∗

theorem mem_oneOf (p : α → Bool) (w : List α) : w ∈ oneOf p ↔ ∃ c, w = [c] ∧ p c = true := Iff.rfl

theorem mem_literal (v w : List α) : w ∈ ({v} : Language α) ↔ w = v := Iff.rfl

theorem mem_oneOf_mul (p : α → Bool) (l : Language α) (w : List α) :
    w ∈ oneOf p * l ↔ ∃ c rest, w = c :: rest ∧ p c = true ∧ rest ∈ l := by
  simp only [Language.mem_mul, mem_oneOf]
  constructor
  · rintro ⟨a, ⟨c, rfl, hc⟩, b, hb, rfl⟩
    exact ⟨c, b, rfl, hc, hb⟩
  · rintro ⟨c, rest, rfl, hc, hrest⟩
    exact ⟨[c], ⟨c, rfl, hc⟩, rest, hrest, rfl⟩

theorem mem_literal_mul (v : List α) (l : Language α) (w : List α) :
    w ∈ ({v} : Language α) * l ↔ ∃ rest ∈ l, w = v ++ rest := by
  simp only [Language.mem_mul, mem_literal]
  constructor
  · rintro ⟨a, rfl, b, hb, rfl⟩
    exact ⟨b, hb, rfl⟩
  · rintro ⟨rest, hrest, rfl⟩
    exact ⟨v, rfl, rest, hrest, rfl⟩

theorem mem_oneOf_kstar (p : α → Bool) (w : List α) : w ∈ (oneOf p)∗ ↔ ∀ c ∈ w, p c = true := by
  induction w with
  | nil => simp [Language.nil_mem_kstar]
  | cons x rest ih =>
    have unfold : (oneOf p)∗ = 1 + oneOf p * (oneOf p)∗ := (Language.one_add_self_mul_kstar_eq_kstar _).symm
    rw [unfold, Language.mem_add, Language.mem_one, mem_oneOf_mul, List.forall_mem_cons, ← ih]
    constructor
    · rintro (absurd | ⟨c, tail, same, hc, htail⟩)
      · cases absurd
      · cases same
        exact ⟨hc, htail⟩
    · rintro ⟨hc, htail⟩
      exact Or.inr ⟨x, rest, rfl, hc, htail⟩

theorem mem_someOf (p : α → Bool) (w : List α) : w ∈ someOf p ↔ w ≠ [] ∧ ∀ c ∈ w, p c = true := by
  rw [someOf, mem_oneOf_mul]
  simp only [mem_oneOf_kstar]
  constructor
  · rintro ⟨c, rest, rfl, hc, hrest⟩
    exact ⟨by simp, List.forall_mem_cons.mpr ⟨hc, hrest⟩⟩
  · rintro ⟨nonempty, all⟩
    obtain ⟨c, rest, rfl⟩ := List.exists_cons_of_ne_nil nonempty
    obtain ⟨hc, hrest⟩ := List.forall_mem_cons.mp all
    exact ⟨c, rest, rfl, hc, hrest⟩

/-- `[p]{n}`. -/
theorem mem_oneOf_pow (p : α → Bool) (n : Nat) (w : List α) :
    w ∈ oneOf p ^ n ↔ w.length = n ∧ ∀ c ∈ w, p c = true := by
  induction n generalizing w with
  | zero => simp +contextual [Language.mem_one]
  | succ n ih =>
    rw [pow_succ', mem_oneOf_mul]
    cases w with
    | nil => simp
    | cons x rest => simp [ih, and_left_comm]

/-- `[p]{0,n}`. -/
theorem mem_optional_pow (p : α → Bool) (n : Nat) (w : List α) :
    w ∈ (1 + oneOf p) ^ n ↔ w.length ≤ n ∧ ∀ c ∈ w, p c = true := by
  induction n generalizing w with
  | zero => simp +contextual [Language.mem_one]
  | succ n ih =>
    rw [pow_succ', add_mul, one_mul, Language.mem_add, ih, mem_oneOf_mul]
    cases w with
    | nil => simp
    | cons x rest =>
      simp only [List.length_cons, List.forall_mem_cons, List.cons.injEq, ih]
      constructor
      · rintro (⟨short, all⟩ | ⟨c, tail, ⟨rfl, rfl⟩, hc, short, all⟩)
        · exact ⟨by omega, all⟩
        · exact ⟨by omega, hc, all⟩
      · rintro ⟨short, hc, all⟩
        exact Or.inr ⟨x, rest, ⟨rfl, rfl⟩, hc, by omega, all⟩

/-- A list of words of `l`, each without the separator, is read back by splitting. -/
theorem mem_separated (c : α) [DecidableEq α] (l : Language α) (free : ∀ w ∈ l, c ∉ w) (w : List α) :
    w ∈ separated {[c]} l ↔ ∀ part ∈ w.splitOn c, part ∈ l := by
  have unfold : separated {[c]} l = l + l * ({[c]} * separated {[c]} l) := by
    rw [separated, ← mul_assoc {[c]} l, ← mul_one_add, Language.one_add_self_mul_kstar_eq_kstar]
  rw [unfold, Language.mem_add, Language.mem_mul]
  rcases splitOn_cases c w with ⟨absent, single⟩ | ⟨a, b, rfl, absent, parts⟩
  · rw [single, List.forall_mem_singleton]
    constructor
    · rintro (whole | ⟨a, ha, b, hb, rfl⟩)
      · exact whole
      · obtain ⟨rest, -, rfl⟩ := (mem_literal_mul _ _ _).mp hb
        simp at absent
    · exact Or.inl
  · have rest := mem_separated c l free b
    rw [parts, List.forall_mem_cons, ← rest]
    constructor
    · rintro (whole | ⟨a', ha, b', hb, join⟩)
      · exact absurd (by simp) (free _ whole)
      · obtain ⟨tail, htail, rfl⟩ := (mem_literal_mul _ _ _).mp hb
        have same := splitOnce_append c a' tail (free a' ha)
        rw [List.singleton_append] at join
        rw [join, splitOnce_append c a b absent] at same
        cases same
        exact ⟨ha, htail⟩
    · rintro ⟨ha, hb⟩
      exact Or.inr ⟨a, ha, c :: b, (mem_literal_mul _ _ _).mpr ⟨b, hb, rfl⟩, rfl⟩
termination_by w.length

/-! ## Groups of one class, separated by words outside it -/

section Groups
variable (group : α → Bool) (sep : Language α)

/-- What may follow a character of a group. -/
def afterGroup : Language α := (oneOf group)∗ * (sep * someOf group)∗

theorem separated_someOf : separated sep (someOf group) = oneOf group * afterGroup group sep := by
  rw [separated, afterGroup]
  conv_lhs => rw [someOf, mul_assoc]
  rfl

theorem afterGroup_unfold :
    afterGroup group sep =
      1 + oneOf group * afterGroup group sep + sep * separated sep (someOf group) := by
  have more : (oneOf group)∗ = 1 + oneOf group * (oneOf group)∗ :=
    (Language.one_add_self_mul_kstar_eq_kstar _).symm
  have again : (sep * someOf group)∗ = 1 + sep * separated sep (someOf group) := by
    rw [separated, ← mul_assoc, Language.one_add_self_mul_kstar_eq_kstar]
  calc
    afterGroup group sep = (1 + oneOf group * (oneOf group)∗) * (sep * someOf group)∗ := by
      rw [afterGroup, ← more]
    _ = (sep * someOf group)∗ + oneOf group * afterGroup group sep := by
      rw [add_mul, one_mul, mul_assoc, ← afterGroup]
    _ = 1 + oneOf group * afterGroup group sep + sep * separated sep (someOf group) := by
      rw [again, add_right_comm]

theorem mem_separated_cons (c : α) (rest : List α) :
    c :: rest ∈ separated sep (someOf group) ↔ group c = true ∧ rest ∈ afterGroup group sep := by
  rw [separated_someOf, mem_oneOf_mul]
  constructor
  · rintro ⟨d, tail, same, hd, htail⟩
    cases same
    exact ⟨hd, htail⟩
  · rintro ⟨hc, hrest⟩
    exact ⟨c, rest, rfl, hc, hrest⟩

theorem separated_ne_nil : [] ∉ separated sep (someOf group) := by
  rw [separated_someOf, mem_oneOf_mul]
  rintro ⟨c, rest, same, -⟩
  cases same

variable (apart : ∀ s ∈ sep, s ≠ [] ∧ ∀ c ∈ s, group c = false)

/-- Two cuts at the first character of a group are one. -/
theorem first_group_unique (s t rest tail : List α) (x y : α) (hs : ∀ c ∈ s, group c = false)
    (ht : ∀ c ∈ t, group c = false) (hx : group x = true) (hy : group y = true)
    (same : s ++ x :: rest = t ++ y :: tail) : s = t ∧ x = y ∧ rest = tail := by
  have left := List.splitOnP_append_cons_of_forall_mem hs x hx rest
  have right := List.splitOnP_append_cons_of_forall_mem ht y hy tail
  rw [same, right, List.cons.injEq] at left
  obtain ⟨rfl, -⟩ := left
  have tails := List.append_cancel_left same
  rw [List.cons.injEq] at tails
  exact ⟨rfl, tails⟩

include apart in
/-- Up to the next character of a group stands nothing or one separator. -/
theorem mem_afterGroup_append (s rest : List α) (x : α) (hs : ∀ c ∈ s, group c = false)
    (hx : group x = true) :
    s ++ x :: rest ∈ afterGroup group sep ↔ (s = [] ∨ s ∈ sep) ∧ rest ∈ afterGroup group sep := by
  conv_lhs => rw [afterGroup_unfold]
  rw [Language.mem_add, Language.mem_add, Language.mem_one, mem_oneOf_mul, Language.mem_mul]
  constructor
  · rintro ((empty | ⟨c, tail, join, hc, htail⟩) | ⟨t, ht, b, hb, join⟩)
    · simp at empty
    · obtain ⟨rfl, rfl, rfl⟩ := first_group_unique group s [] rest tail x c hs (by simp) hx hc join
      exact ⟨Or.inl rfl, htail⟩
    · cases b with
      | nil => exact absurd hb (separated_ne_nil group sep)
      | cons y tail =>
        obtain ⟨hy, htail⟩ := (mem_separated_cons group sep y tail).mp hb
        obtain ⟨rfl, rfl, rfl⟩ := first_group_unique group t s tail rest y x (apart t ht).2 hs hy hx join
        exact ⟨Or.inr ht, htail⟩
  · rintro ⟨rfl | hsep, hrest⟩
    · exact Or.inl (Or.inr ⟨x, rest, rfl, hx, hrest⟩)
    · exact Or.inr ⟨s, hsep, x :: rest, (mem_separated_cons group sep x rest).mpr ⟨hx, hrest⟩, rfl⟩

theorem mem_afterGroup_absent (w : List α) (hw : ∀ c ∈ w, group c = false) :
    w ∈ afterGroup group sep ↔ w = [] := by
  rw [afterGroup_unfold, Language.mem_add, Language.mem_add, Language.mem_one, mem_oneOf_mul, Language.mem_mul]
  constructor
  · rintro ((empty | ⟨c, tail, rfl, hc, -⟩) | ⟨t, -, b, hb, rfl⟩)
    · exact empty
    · rw [hw c (by simp)] at hc
      cases hc
    · cases b with
      | nil => exact absurd hb (separated_ne_nil group sep)
      | cons y tail =>
        have hy := ((mem_separated_cons group sep y tail).mp hb).1
        rw [hw y (by simp)] at hy
        cases hy
  · exact fun empty => Or.inl (Or.inl empty)

/-- A word is free of group characters, or is cut at the first of them. -/
theorem first_group_cases (w : List α) :
    (∀ c ∈ w, group c = false) ∨
      ∃ s x rest, w = s ++ x :: rest ∧ (∀ c ∈ s, group c = false) ∧ group x = true := by
  induction w with
  | nil => simp
  | cons c tail ih =>
    cases hc : group c with
    | true => exact Or.inr ⟨[], c, tail, rfl, by simp, hc⟩
    | false =>
      rcases ih with none | ⟨s, x, rest, rfl, hs, hx⟩
      · exact Or.inl (List.forall_mem_cons.mpr ⟨hc, none⟩)
      · exact Or.inr ⟨c :: s, x, rest, rfl, List.forall_mem_cons.mpr ⟨hc, hs⟩, hx⟩

/-- A character outside the groups stands in a gap between them. -/
theorem mem_gap (w : List α) (c : α) (member : c ∈ w) (outside : group c = false) :
    ∃ run ∈ w.splitOnP group, c ∈ run := by
  rcases first_group_cases group w with none | ⟨s, x, rest, hw, hs, hx⟩
  · rw [List.splitOnP_eq_singleton none]
    exact ⟨w, by simp, member⟩
  · rw [hw, List.mem_append, List.mem_cons] at member
    rw [hw, List.splitOnP_append_cons_of_forall_mem hs x hx]
    rcases member with inside | rfl | later
    · exact ⟨s, by simp, inside⟩
    · rw [hx] at outside
      cases outside
    · obtain ⟨run, found, inside⟩ := mem_gap rest c later outside
      exact ⟨run, List.mem_cons_of_mem _ found, inside⟩
termination_by w.length
decreasing_by
  simp only [hw, List.length_append, List.length_cons]
  omega

include apart in
/-- After a group: the word ends in a group, and every stretch outside the groups is a separator. -/
theorem mem_afterGroup (w : List α) :
    w ∈ afterGroup group sep ↔
      (∀ c ∈ w.getLast?, group c = true) ∧ ∀ run ∈ w.splitOnP group, run = [] ∨ run ∈ sep := by
  rcases first_group_cases group w with none | ⟨s, x, rest, hw, hs, hx⟩
  · rw [mem_afterGroup_absent group sep w none, List.splitOnP_eq_singleton none,
      List.forall_mem_singleton]
    constructor
    · rintro rfl
      simp
    · rintro ⟨last, -⟩
      by_contra nonempty
      have inGroup := last _ (List.getLast?_eq_some_getLast nonempty)
      rw [none _ (List.getLast_mem nonempty)] at inGroup
      cases inGroup
  · have tail := mem_afterGroup rest
    have last : (∀ c ∈ w.getLast?, group c = true) ↔ ∀ c ∈ rest.getLast?, group c = true := by
      rw [hw, List.getLast?_append_of_ne_nil _ (by simp), List.getLast?_cons]
      cases rest.getLast? with
      | none => simp [hx]
      | some c => simp
    rw [last, hw, List.splitOnP_append_cons_of_forall_mem hs x hx, List.forall_mem_cons,
      mem_afterGroup_append group sep apart s rest x hs hx, tail, and_left_comm]
termination_by w.length
decreasing_by
  simp only [hw, List.length_append, List.length_cons]
  omega

include apart in
/-- Separated groups: the word starts and ends in a group, with a separator in every gap. -/
theorem mem_groups (w : List α) :
    w ∈ separated sep (someOf group) ↔
      (∃ c, w.head? = some c ∧ group c = true) ∧ (∃ c, w.getLast? = some c ∧ group c = true) ∧
        ∀ run ∈ w.splitOnP group, run = [] ∨ run ∈ sep := by
  cases w with
  | nil => simp [separated_ne_nil group sep]
  | cons x rest =>
    rw [mem_separated_cons, List.head?_cons]
    have cut := mem_afterGroup_append group sep apart [] rest x (by simp)
    constructor
    · rintro ⟨hx, hrest⟩
      have whole := (cut hx).mpr ⟨Or.inl rfl, hrest⟩
      obtain ⟨last, gaps⟩ := (mem_afterGroup group sep apart _).mp whole
      have final := List.getLast?_eq_some_getLast (List.cons_ne_nil x rest)
      exact ⟨⟨x, rfl, hx⟩, ⟨_, final, last _ final⟩, gaps⟩
    · rintro ⟨⟨c, same, hx⟩, ⟨d, final, hd⟩, gaps⟩
      cases same
      refine ⟨hx, ((cut hx).mp ((mem_afterGroup group sep apart _).mpr ⟨?_, gaps⟩)).2⟩
      rintro e found
      rw [List.nil_append, final] at found
      cases found
      exact hd

end Groups

end WeeboSi.Lib
