import Mathlib.Data.List.Chain
import Mathlib.Tactic

/-!
# Patterns with a wildcard character

What a list with wildcards stands for, which of these instances have prescribed edges,
and how short the shortest of them is.
-/
namespace WeeboSi.Lib

section Wildcard
variable {α : Type} [DecidableEq α] (star : α)

/-- `text` is `pattern` with a run in the place of each `star`. -/
def Wild : List α → List α → Prop
  | [], text => text = []
  | c :: pattern, text =>
    if c = star then ∃ run rest, text = run ++ rest ∧ Wild pattern rest
    else ∃ rest, text = c :: rest ∧ Wild pattern rest

/-- What a pattern demands whatever the wildcards take. -/
def plain (pattern : List α) : List α := pattern.filter (· ≠ star)

/-- No two wildcards stand side by side. -/
def Isolated (pattern : List α) : Prop := pattern.IsChain fun a b => ¬ (a = star ∧ b = star)

@[simp] theorem wild_nil (text : List α) : Wild star [] text ↔ text = [] := Iff.rfl

@[simp] theorem wild_star (pattern text : List α) :
    Wild star (star :: pattern) text ↔ ∃ run rest, text = run ++ rest ∧ Wild star pattern rest := by
  simp [Wild]

/-- A run without wildcards stands for itself. -/
theorem wild_run (run pattern text : List α) (fixed : star ∉ run) :
    Wild star (run ++ pattern) text ↔ ∃ rest, text = run ++ rest ∧ Wild star pattern rest := by
  induction run generalizing text with
  | nil => simp
  | cons c run ih =>
    simp only [List.mem_cons, not_or] at fixed
    rw [List.cons_append, Wild, if_neg (Ne.symm fixed.1)]
    constructor
    · intro given
      obtain ⟨more, here, meaning⟩ := given
      obtain ⟨rest, rfl, taken⟩ := (ih more fixed.2).mp meaning
      exact ⟨rest, here, taken⟩
    · intro given
      obtain ⟨rest, here, taken⟩ := given
      exact ⟨run ++ rest, here, (ih _ fixed.2).mpr ⟨rest, rfl, taken⟩⟩

omit [DecidableEq α] in
theorem isolated_of_absent (text : List α) (fixed : star ∉ text) : Isolated star text := by
  induction text with
  | nil => simp [Isolated]
  | cons c text ih =>
    simp only [List.mem_cons, not_or] at fixed
    refine List.isChain_cons.mpr ⟨?_, ih fixed.2⟩
    intro _ _ pair
    exact fixed.1 pair.1.symm

theorem wild_plain (pattern : List α) : Wild star pattern (plain star pattern) := by
  induction pattern with
  | nil => rfl
  | cons c pattern ih =>
    by_cases wildcard : c = star
    · subst wildcard
      rw [wild_star]
      exact ⟨[], plain c pattern, by simp [plain], ih⟩
    · rw [Wild, if_neg wildcard]
      exact ⟨plain star pattern, by simp [plain, wildcard], ih⟩

theorem plain_sublist (pattern text : List α) (meaning : Wild star pattern text) :
    (plain star pattern).Sublist text := by
  induction pattern generalizing text with
  | nil => simp [plain]
  | cons c pattern ih =>
    by_cases wildcard : c = star
    · subst wildcard
      obtain ⟨run, rest, rfl, taken⟩ := (wild_star c pattern text).mp meaning
      have inRest := ih rest taken
      simpa [plain] using inRest.trans (List.sublist_append_right run rest)
    · rw [Wild, if_neg wildcard] at meaning
      obtain ⟨rest, rfl, taken⟩ := meaning
      simpa [plain, wildcard] using ih rest taken

/-- A leading wildcard takes more in front. -/
theorem wild_more_front (pattern text more : List α) (first : pattern.head? = some star)
    (meaning : Wild star pattern text) : Wild star pattern (more ++ text) := by
  cases pattern with
  | nil => cases first
  | cons c pattern =>
    cases first
    obtain ⟨run, rest, rfl, taken⟩ := (wild_star star pattern text).mp meaning
    exact (wild_star star pattern _).mpr ⟨more ++ run, rest, by simp, taken⟩

/-- A trailing wildcard takes more at the end. -/
theorem wild_more_back (pattern text more : List α) (last : pattern.getLast? = some star)
    (meaning : Wild star pattern text) : Wild star pattern (text ++ more) := by
  induction pattern generalizing text with
  | nil => cases last
  | cons c pattern ih =>
    cases pattern with
    | nil =>
      obtain rfl : c = star := by simpa using last
      exact (wild_star c [] _).mpr ⟨text ++ more, [], by simp, rfl⟩
    | cons d pattern =>
      have inner : (d :: pattern).getLast? = some star := by simpa using last
      by_cases wildcard : c = star
      · subst wildcard
        obtain ⟨run, rest, rfl, taken⟩ := (wild_star c _ _).mp meaning
        exact (wild_star c _ _).mpr ⟨run, rest ++ more, by simp, ih rest inner taken⟩
      · rw [Wild, if_neg wildcard] at meaning ⊢
        obtain ⟨rest, rfl, taken⟩ := meaning
        exact ⟨rest ++ more, rfl, ih rest inner taken⟩

/-! ## Instances with prescribed edges -/

variable (edge : α → Bool)

/-- One more element is needed where what is fixed opens (or closes) with no edge. -/
def padding (outer : Option α) : Nat := if outer.all edge then 0 else 1

/-- The length of the shortest instance that opens and closes with an edge. -/
def shortest (pattern : List α) : Nat :=
  max 1 (padding edge (plain star pattern).head? + (plain star pattern).length
    + padding edge (plain star pattern).getLast?)

omit [DecidableEq α] in
theorem padding_le_one (outer : Option α) : padding edge outer ≤ 1 := by
  unfold padding
  split <;> omega

omit [DecidableEq α] in
/-- What opens with no edge is part of what follows the opening edge. -/
theorem sublist_past_head (inner text : List α) (sub : inner.Sublist text)
    (first : text.head?.any edge = true) :
    padding edge inner.head? + inner.length ≤ text.length := by
  have whole := sub.length_le
  cases inner with
  | nil => simp [padding]
  | cons c inner =>
    cases text with
    | nil => cases first
    | cons d text =>
      simp only [List.head?_cons, Option.any_some] at first
      by_cases opens : edge c = true
      · simpa [padding, opens] using whole
      · rcases List.cons_sublist_cons'.mp sub with past | ⟨rfl, -⟩
        · have one := padding_le_one edge (c :: inner).head?
          have inside := past.length_le
          have size : (d :: text).length = text.length + 1 := rfl
          omega
        · exact absurd first opens

theorem shortest_le (pattern text : List α) (meaning : Wild star pattern text)
    (first : text.head?.any edge = true) (last : text.getLast?.any edge = true) :
    shortest star edge pattern ≤ text.length := by
  have sub := plain_sublist star pattern text meaning
  have some_ : 0 < text.length := by
    cases text with
    | nil => cases first
    | cons c text => simp
  unfold shortest
  generalize plain star pattern = inner at sub
  have front := sublist_past_head edge inner text sub first
  cases closing : text.reverse with
  | nil => simp [List.reverse_eq_nil_iff.mp closing] at some_
  | cons c backwards =>
  have lastEdge : edge c = true := by
    rw [← List.head?_reverse, closing] at last
    simpa using last
  have reversed := sub.reverse
  rw [closing] at reversed
  have size : text.length = backwards.length + 1 := by
    rw [← List.length_reverse, closing, List.length_cons]
  -- an inner text closed by no edge is already part of the text without its last element
  by_cases closed : inner.getLast?.all edge = true
  · simp only [padding, closed, if_true]
    simp only [padding] at front
    omega
  · have opens : ∃ d rest, inner.reverse = d :: rest ∧ edge d = false := by
      cases backward : inner.reverse with
      | nil => simp [List.reverse_eq_nil_iff.mp backward] at closed
      | cons d rest =>
        refine ⟨d, rest, rfl, ?_⟩
        rw [← List.head?_reverse, backward] at closed
        simpa using closed
    obtain ⟨d, rest, backward, notEdge⟩ := opens
    rw [backward] at reversed
    have shorter : inner.Sublist backwards.reverse := by
      rcases List.cons_sublist_cons'.mp reversed with past | ⟨rfl, -⟩
      · rw [← backward] at past
        simpa using past.reverse
      · rw [lastEdge] at notEdge
        cases notEdge
    have whole : text = backwards.reverse ++ [c] := by
      rw [← List.reverse_reverse text, closing, List.reverse_cons]
    have nonempty : backwards.reverse ≠ [] := by
      intro empty
      rw [empty, List.sublist_nil] at shorter
      simp [shorter] at closed
    have firstInner : backwards.reverse.head?.any edge = true := by
      rw [whole, List.head?_append_of_ne_nil _ nonempty] at first
      exact first
    have inside := sublist_past_head edge inner _ shorter firstInner
    have one := padding_le_one edge inner.getLast?
    rw [List.length_reverse] at inside
    omega

/-- One `filler` for each wildcard. -/
theorem wild_fill (filler : α) (pattern : List α) :
    Wild star pattern (pattern.map fun c => if c = star then filler else c) := by
  induction pattern with
  | nil => rfl
  | cons c pattern ih =>
    by_cases wildcard : c = star
    · subst wildcard
      rw [wild_star]
      exact ⟨[filler], _, by simp, ih⟩
    · rw [Wild, if_neg wildcard]
      exact ⟨_, by simp [wildcard], ih⟩

/-- The shortest text of a pattern with legal edges is no longer than the pattern. -/
theorem shortest_le_length (filler : α) (filled : edge filler = true) (pattern : List α)
    (first : pattern.head?.any (fun c => edge c || c == star) = true)
    (last : pattern.getLast?.any (fun c => edge c || c == star) = true) :
    shortest star edge pattern ≤ pattern.length := by
  have outer : ∀ outer : Option α, outer.any (fun c => edge c || c == star) = true →
      (outer.map fun c => if c = star then filler else c).any edge = true := by
    intro outer legal
    cases outer with
    | none => cases legal
    | some c =>
      by_cases wildcard : c = star
      · simpa [wildcard] using filled
      · simpa [wildcard] using legal
  have bound := shortest_le star edge pattern _ (wild_fill star filler pattern)
    (by rw [List.head?_map]; exact outer _ first) (by rw [List.getLast?_map]; exact outer _ last)
  simpa using bound

/-- The shortest instance, padded with `filler` where it has to be. -/
def shortestText (filler : α) (pattern : List α) : List α :=
  if plain star pattern = [] then [filler]
  else List.replicate (padding edge (plain star pattern).head?) filler ++ plain star pattern
    ++ List.replicate (padding edge (plain star pattern).getLast?) filler

theorem shortestText_length (filler : α) (pattern : List α) :
    (shortestText star edge filler pattern).length = shortest star edge pattern := by
  unfold shortestText shortest
  split
  · rename_i empty
    simp [empty, padding]
  · rename_i some_
    have := List.length_pos_of_ne_nil some_
    simp only [List.length_append, List.length_replicate]
    omega

theorem shortestText_mem (filler : α) (pattern : List α) (c : α)
    (member : c ∈ shortestText star edge filler pattern) : c = filler ∨ (c ∈ pattern ∧ c ≠ star) := by
  unfold shortestText at member
  split at member
  · exact Or.inl (List.mem_singleton.mp member)
  · simp only [List.mem_append, List.mem_replicate, plain, List.mem_filter, decide_eq_true_eq] at member
    rcases member with (⟨-, same⟩ | inside) | ⟨-, same⟩
    · exact Or.inl same
    · exact Or.inr inside
    · exact Or.inl same

theorem shortestText_head (filler : α) (filled : edge filler = true) (pattern : List α) :
    (shortestText star edge filler pattern).head?.any edge = true := by
  unfold shortestText
  split
  · simpa using filled
  · rename_i some_
    obtain ⟨c, rest, inner⟩ := List.exists_cons_of_ne_nil some_
    by_cases opens : edge c = true
    · simp [inner, padding, opens]
    · simp [inner, padding, opens, filled]

theorem shortestText_last (filler : α) (filled : edge filler = true) (pattern : List α) :
    (shortestText star edge filler pattern).getLast?.any edge = true := by
  unfold shortestText
  split
  · simpa using filled
  · rename_i some_
    obtain ⟨front, c, inner⟩ := (List.eq_nil_or_concat (plain star pattern)).resolve_left some_
    rw [List.concat_eq_append] at inner
    by_cases closes : edge c = true
    · simp [inner, padding, closes]
    · simp [inner, padding, closes, filled]

/-- Where the pattern opens and closes with an edge or a wildcard, the shortest text is
an instance of it. -/
theorem shortestText_wild (filler : α) (pattern : List α) (nonempty : pattern ≠ [])
    (first : pattern.head?.any (fun c => edge c || c == star) = true)
    (last : pattern.getLast?.any (fun c => edge c || c == star) = true) :
    Wild star pattern (shortestText star edge filler pattern) := by
  have meaning := wild_plain star pattern
  have opening : ∀ text more, Wild star pattern text →
      padding edge (plain star pattern).head? = 0 ∨ Wild star pattern (more ++ text) := by
    intro text more inside
    obtain ⟨c, rest, rfl⟩ := List.exists_cons_of_ne_nil nonempty
    by_cases wildcard : c = star
    · exact Or.inr (wild_more_front star _ text more (by simp [wildcard]) inside)
    · have opens : edge c = true := by simpa [wildcard] using first
      exact Or.inl (by simp [plain, wildcard, padding, opens])
  have closing : ∀ text more, Wild star pattern text →
      padding edge (plain star pattern).getLast? = 0 ∨ Wild star pattern (text ++ more) := by
    intro text more inside
    obtain ⟨front, c, rfl⟩ := (List.eq_nil_or_concat pattern).resolve_left nonempty
    rw [List.concat_eq_append] at inside last ⊢
    by_cases wildcard : c = star
    · exact Or.inr (wild_more_back star _ text more (by simp [wildcard]) inside)
    · have closes : edge c = true := by simpa [wildcard] using last
      exact Or.inl (by simp [plain, wildcard, padding, closes])
  unfold shortestText
  split
  · rename_i empty
    rw [empty] at meaning
    have wildcard : pattern.head? = some star := by
      obtain ⟨c, rest, rfl⟩ := List.exists_cons_of_ne_nil nonempty
      by_contra other
      have : c ∈ plain star (c :: rest) := by simpa [plain] using other
      rw [empty] at this
      cases this
    simpa using wild_more_front star pattern [] [filler] wildcard meaning
  · have back : Wild star pattern
        (plain star pattern ++ List.replicate (padding edge (plain star pattern).getLast?) filler) := by
      rcases closing _ (List.replicate _ filler) meaning with none | more
      · simpa [none] using meaning
      · exact more
    rw [List.append_assoc]
    rcases opening _ (List.replicate _ filler) back with none | more
    · simpa [none] using back
    · exact more

end Wildcard

end WeeboSi.Lib
