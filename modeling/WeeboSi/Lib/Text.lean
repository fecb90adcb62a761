import Mathlib.Data.List.Basic
import Mathlib.Data.List.TakeWhile
import Mathlib.Tactic

/-!
# Splitting sequences at a separator

First-occurrence and last-occurrence splits over lists, the byte length, the trimming
and the order of a text. A text is a list of characters: a byte index that a scan
returns is always the index of an ASCII separator, so cutting there and cutting the
character list agree.
-/
namespace WeeboSi.Lib

abbrev Text := List Char

/-- The number of bytes the UTF-8 encoding of a text takes. -/
def byteLen (s : Text) : Nat := (s.map Char.utf8Size).sum

@[simp] theorem byteLen_nil : byteLen [] = 0 := rfl

@[simp] theorem byteLen_cons (c : Char) (s : Text) : byteLen (c :: s) = c.utf8Size + byteLen s := rfl

@[simp] theorem byteLen_append (s t : Text) : byteLen (s ++ t) = byteLen s + byteLen t := by
  simp [byteLen]

theorem length_le_byteLen (s : Text) : s.length ≤ byteLen s := by
  induction s with
  | nil => simp
  | cons c s ih =>
    have := c.utf8Size_pos
    simp only [List.length_cons, byteLen_cons]
    omega

theorem byteLen_le (s : Text) : byteLen s ≤ 4 * s.length := by
  induction s with
  | nil => simp
  | cons c s ih =>
    have := c.utf8Size_le_four
    simp only [List.length_cons, byteLen_cons]
    omega

/-- An ASCII text has one byte a character. -/
theorem byteLen_of_ascii (s : Text) (ascii : ∀ c ∈ s, c.utf8Size = 1) : byteLen s = s.length := by
  induction s with
  | nil => rfl
  | cons c s ih =>
    rw [byteLen_cons, ascii c (by simp), ih (fun d member => ascii d (by simp [member]))]
    simp [Nat.add_comm]

/-! ## Character classes -/

theorem isUpper_iff (c : Char) : c.isUpper = true ↔ 65 ≤ c.toNat ∧ c.toNat ≤ 90 := decide_eq_true_iff

theorem isLower_iff (c : Char) : c.isLower = true ↔ 97 ≤ c.toNat ∧ c.toNat ≤ 122 := by
  have bounds : c.isLower = (decide (97 ≤ c.toNat) && decide (c.toNat ≤ 122)) := rfl
  simp [bounds]

theorem isAlpha_iff (c : Char) : c.isAlpha = true ↔ c.isUpper = true ∨ c.isLower = true := by
  have either : c.isAlpha = (c.isUpper || c.isLower) := rfl
  simp [either]

theorem isDigit_iff (c : Char) : c.isDigit = true ↔ 48 ≤ c.toNat ∧ c.toNat ≤ 57 := by
  have bounds : c.isDigit = (decide (48 ≤ c.toNat) && decide (c.toNat ≤ 57)) := rfl
  simp [bounds]

theorem toLower_of_not_isUpper (c : Char) (h : ¬ c.isUpper = true) : c.toLower = c :=
  dif_neg fun upper => h (decide_eq_true upper)

theorem toNat_toLower_of_isUpper (c : Char) (h : c.isUpper = true) : c.toLower.toNat = c.toNat + 32 := by
  have raised : c.toLower = ⟨c.val + 32, _⟩ := dif_pos (of_decide_eq_true h)
  have bound : c.val.toNat ≤ 90 := ((isUpper_iff c).mp h).2
  rw [raised]
  change (c.val + 32).toNat = c.val.toNat + 32
  rw [UInt32.toNat_add]
  exact Nat.mod_eq_of_lt (Nat.lt_of_le_of_lt (Nat.add_le_add_right bound 32) (by decide))

/-- The Unicode property White_Space, which trimming removes. -/
def isWhite (c : Char) : Bool :=
  (0x09 ≤ c.toNat && c.toNat ≤ 0x0d) || (0x2000 ≤ c.toNat && c.toNat ≤ 0x200a)
    || [0x20, 0x85, 0xa0, 0x1680, 0x2028, 0x2029, 0x202f, 0x205f, 0x3000].contains c.toNat

def trim (s : Text) : Text := ((s.dropWhile isWhite).reverse.dropWhile isWhite).reverse

/-- Texts in the order of their code points, which is the order of their bytes. -/
def textLe : Text → Text → Bool
  | [], _ => true
  | _ :: _, [] => false
  | a :: s, b :: t => a.toNat < b.toNat || (a == b && textLe s t)

section Split
variable {α : Type} [DecidableEq α]

/-- Cut at the first `c`, which belongs to neither side. -/
def splitOnce (c : α) : List α → Option (List α × List α)
  | [] => none
  | x :: xs => if x = c then some ([], xs) else (splitOnce c xs).map fun (a, b) => (x :: a, b)

/-- Cut at the last `c`. -/
def rsplitOnce (c : α) (s : List α) : Option (List α × List α) :=
  (splitOnce c s.reverse).map fun (a, b) => (b.reverse, a.reverse)

/-- `s` without one trailing `c`, or `s` itself. -/
def stripLast (c : α) (s : List α) : List α :=
  if s.getLast? = some c then s.dropLast else s

theorem splitOnce_eq_some (c : α) (s a b : List α) :
    splitOnce c s = some (a, b) ↔ s = a ++ c :: b ∧ c ∉ a := by
  induction s generalizing a b with
  | nil => simp [splitOnce]
  | cons x xs ih =>
    by_cases hx : x = c
    · subst hx
      cases a with
      | nil => simp [splitOnce]
      | cons y a => simp [splitOnce]; tauto
    · cases a with
      | nil => simp [splitOnce, hx]
      | cons y a =>
        simp only [splitOnce, if_neg hx, Option.map_eq_some_iff, Prod.exists, Prod.mk.injEq,
          List.cons.injEq, List.cons_append, List.mem_cons, not_or]
        constructor
        · rintro ⟨a', b', h, ⟨rfl, rfl⟩, rfl⟩
          obtain ⟨rfl, ha⟩ := (ih a' b').mp h
          exact ⟨⟨rfl, rfl⟩, Ne.symm hx, ha⟩
        · rintro ⟨⟨rfl, rfl⟩, -, ha⟩
          exact ⟨a, b, (ih a b).mpr ⟨rfl, ha⟩, ⟨rfl, rfl⟩, rfl⟩

theorem splitOnce_eq_none (c : α) (s : List α) : splitOnce c s = none ↔ c ∉ s := by
  induction s with
  | nil => simp [splitOnce]
  | cons x xs ih =>
    by_cases hx : x = c
    · simp [splitOnce, hx]
    · simp [splitOnce, hx, ih, Ne.symm hx]

theorem splitOnce_length (c : α) (s a b : List α) (cut : splitOnce c s = some (a, b)) : b.length < s.length := by
  obtain ⟨rfl, -⟩ := (splitOnce_eq_some c s a b).mp cut
  rw [List.length_append, List.length_cons]
  omega

theorem rsplitOnce_eq_some (c : α) (s a b : List α) :
    rsplitOnce c s = some (a, b) ↔ s = a ++ c :: b ∧ c ∉ b := by
  simp only [rsplitOnce, Option.map_eq_some_iff, Prod.exists, Prod.mk.injEq]
  constructor
  · rintro ⟨x, y, h, rfl, rfl⟩
    obtain ⟨hs, hx⟩ := (splitOnce_eq_some c _ x y).mp h
    refine ⟨?_, by simpa using hx⟩
    have := congrArg List.reverse hs
    simpa using this
  · rintro ⟨rfl, hb⟩
    refine ⟨b.reverse, a.reverse, ?_, by simp, by simp⟩
    exact (splitOnce_eq_some c _ _ _).mpr ⟨by simp, by simpa using hb⟩

theorem rsplitOnce_eq_none (c : α) (s : List α) : rsplitOnce c s = none ↔ c ∉ s := by
  simp [rsplitOnce, splitOnce_eq_none]

/-- Nothing to cut where the separator is absent. -/
theorem splitOnce_absent (c : α) (s : List α) (h : c ∉ s) : splitOnce c s = none :=
  (splitOnce_eq_none c s).mpr h

theorem splitOnce_append (c : α) (a b : List α) (h : c ∉ a) :
    splitOnce c (a ++ c :: b) = some (a, b) :=
  (splitOnce_eq_some c _ a b).mpr ⟨rfl, h⟩

theorem rsplitOnce_absent (c : α) (s : List α) (h : c ∉ s) : rsplitOnce c s = none :=
  (rsplitOnce_eq_none c s).mpr h

theorem rsplitOnce_append (c : α) (a b : List α) (h : c ∉ b) :
    rsplitOnce c (a ++ c :: b) = some (a, b) :=
  (rsplitOnce_eq_some c _ a b).mpr ⟨rfl, h⟩

theorem stripLast_append (c : α) (s : List α) : stripLast c (s ++ [c]) = s := by
  simp [stripLast]

theorem stripLast_absent (c : α) (s : List α) (h : s.getLast? ≠ some c) : stripLast c s = s := by
  simp [stripLast, h]

/-- Either the separator closed the text and was removed, or nothing changed. -/
theorem stripLast_cases (c : α) (s : List α) :
    s = stripLast c s ++ [c] ∨ (stripLast c s = s ∧ s.getLast? ≠ some c) := by
  by_cases h : s.getLast? = some c
  · left
    rw [stripLast, if_pos h]
    exact (List.dropLast_append_getLast? c h).symm
  · exact Or.inr ⟨stripLast_absent c s h, h⟩

/-- Splitting goes part by part: up to the first separator, then the rest. -/
theorem splitOn_cases (c : α) (s : List α) :
    (c ∉ s ∧ s.splitOn c = [s]) ∨
      ∃ a b, s = a ++ c :: b ∧ c ∉ a ∧ s.splitOn c = a :: b.splitOn c := by
  cases cut : splitOnce c s with
  | none =>
    have absent := (splitOnce_eq_none c s).mp cut
    exact Or.inl ⟨absent, List.splitOn_eq_singleton absent⟩
  | some pair =>
    obtain ⟨rfl, absent⟩ := (splitOnce_eq_some c s _ _).mp cut
    exact Or.inr ⟨_, _, rfl, absent, List.splitOn_append_cons_self_of_not_mem absent _⟩

theorem splitOn_append (c : α) (a b : List α) (absent : c ∉ a) :
    (a ++ c :: b).splitOn c = a :: b.splitOn c :=
  List.splitOn_append_cons_self_of_not_mem absent b

/-- The first part is what stands before the first separator. -/
theorem head?_splitOn (c : α) (s : List α) :
    (s.splitOn c).head? = some (s.takeWhile fun x => x != c) := by
  obtain ⟨absent, split⟩ | ⟨before, after, rfl, absent, split⟩ := splitOn_cases c s
  · have whole : ∀ x ∈ s, (x != c) = true := fun x member => bne_iff_ne.mpr fun same => absent (same ▸ member)
    rw [split, List.head?_cons, List.takeWhile_eq_self_iff.mpr whole]
  · have whole : ∀ x ∈ before, (x != c) = true := fun x member =>
      bne_iff_ne.mpr fun same => absent (same ▸ member)
    rw [split, List.head?_cons, List.takeWhile_append_of_pos whole, List.takeWhile_cons_of_neg (by simp),
      List.append_nil]

/-- What stands in the parts is what stands in the text, less the separator. -/
theorem mem_splitOn (c x : α) (s : List α) :
    (∃ part ∈ s.splitOn c, x ∈ part) ↔ x ∈ s ∧ x ≠ c := by
  rcases splitOn_cases c s with ⟨absent, single⟩ | ⟨a, b, hs, absent, parts⟩
  · rw [single]
    simp only [List.mem_singleton, exists_eq_left]
    constructor
    · intro member
      exact ⟨member, fun same => absent (same ▸ member)⟩
    · exact fun h => h.1
  · have rest := mem_splitOn c x b
    rw [parts]
    simp only [List.mem_cons, exists_eq_or_imp, rest, hs, List.mem_append]
    constructor
    · rintro (member | ⟨member, ne⟩)
      · exact ⟨Or.inl member, fun same => absent (same ▸ member)⟩
      · exact ⟨Or.inr (Or.inr member), ne⟩
    · rintro ⟨member | same | member, ne⟩
      · exact Or.inl member
      · exact absurd same ne
      · exact Or.inr ⟨member, ne⟩
termination_by s.length
decreasing_by
  simp only [hs, List.length_append, List.length_cons]
  omega

/-- Splitting commutes with renaming the elements. -/
theorem splitOn_map {β : Type} [DecidableEq β] (f : α → β) (injective : Function.Injective f) (c : α)
    (s : List α) : (s.map f).splitOn (f c) = (s.splitOn c).map (List.map f) := by
  rcases splitOn_cases c s with ⟨absent, single⟩ | ⟨a, b, hs, absent, parts⟩
  · have absentMap : f c ∉ s.map f := mt (List.mem_map_of_injective injective).mp absent
    rw [single, List.splitOn_eq_singleton absentMap]
    rfl
  · have absentMap : f c ∉ a.map f := mt (List.mem_map_of_injective injective).mp absent
    have rest := splitOn_map f injective c b
    rw [parts, hs, List.map_append, List.map_cons, splitOn_append (f c) _ _ absentMap, rest]
    rfl
termination_by s.length
decreasing_by
  simp only [hs, List.length_append, List.length_cons]
  omega

end Split

end WeeboSi.Lib
