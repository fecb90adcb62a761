import Mathlib.Tactic

/-!
# Searching and filtering lists
-/
namespace WeeboSi.Lib

/-- Two filters of which the second lets everything of the first through agree only when
it lets nothing else through. -/
theorem filter_map_eq_iff {α β : Type} (f : α → β) (p q : α → Bool) (xs : List α)
    (weaker : ∀ x, p x = true → q x = true) :
    (xs.filter p).map f = (xs.filter q).map f ↔ ∀ x ∈ xs, q x = true → p x = true := by
  constructor
  · intro same
    have nested : xs.filter p = (xs.filter q).filter p := by
      rw [List.filter_filter]
      apply List.filter_congr
      intro x _
      cases held : p x with
      | true => simp [weaker x held]
      | false => simp
    have lengths := congrArg List.length same
    rw [List.length_map, List.length_map, nested, List.length_filter_eq_length_iff] at lengths
    exact fun x member selected => lengths x (List.mem_filter.mpr ⟨member, selected⟩)
  · intro all
    have same : xs.filter p = xs.filter q := by
      apply List.filter_congr
      intro x member
      exact Bool.eq_iff_iff.mpr ⟨weaker x, all x member⟩
    rw [same]

theorem findSome?_of_mem {α β : Type} (f : α → Option β) (xs : List α) (x : α) (y : β)
    (hit : f x = some y) (only : ∀ z ∈ xs, f z = none ∨ f z = some y) (member : x ∈ xs) :
    xs.findSome? f = some y := by
  induction xs with
  | nil => cases member
  | cons z zs ih =>
    rw [List.findSome?_cons]
    rcases only z (by simp) with missed | found
    · rw [missed]
      refine ih (fun w isIn => only w (by simp [isIn])) ?_
      rcases List.mem_cons.mp member with rfl | later
      · rw [hit] at missed
        cases missed
      · exact later
    · rw [found]

theorem dropWhile_of_head {α : Type} (p : α → Bool) (xs : List α) (first : ∀ x ∈ xs.head?, p x = false) :
    xs.dropWhile p = xs := by
  cases xs with
  | nil => rfl
  | cons x xs => exact List.dropWhile_cons_of_neg (by simp [first x rfl])

theorem mem_intercalate {α : Type} (sep : List α) (parts : List (List α)) (x : α)
    (member : x ∈ sep.intercalate parts) : x ∈ sep ∨ ∃ part ∈ parts, x ∈ part := by
  induction parts with
  | nil => cases member
  | cons part parts ih =>
    cases parts with
    | nil => exact .inr ⟨part, List.mem_singleton_self part, by simpa using member⟩
    | cons next parts =>
      rw [List.intercalate_cons_cons, List.mem_append, List.mem_append] at member
      obtain (inPart | inSep) | later := member
      · exact .inr ⟨part, List.mem_cons_self, inPart⟩
      · exact .inl inSep
      · obtain inSep | ⟨other, otherMem, inOther⟩ := ih later
        · exact .inl inSep
        · exact .inr ⟨other, List.mem_cons_of_mem part otherMem, inOther⟩

/-- Reading what a filter on the keys has left. -/
theorem lookup_filter {K V : Type} [BEq K] [LawfulBEq K] (p : K → Bool) (members : List (K × V)) (key : K) :
    (members.filter fun member => p member.1).lookup key = if p key then members.lookup key else none := by
  induction members with
  | nil => simp
  | cons member members ih =>
    obtain ⟨k, v⟩ := member
    by_cases same : key = k
    · subst same
      by_cases kept : p key = true
      · simp [kept]
      · simp [kept, ih]
    · by_cases kept : p k = true
      · simp [kept, List.lookup_cons, beq_false_of_ne same, ih]
      · simp [kept, List.lookup_cons, beq_false_of_ne same, ih]

/-! ## Searching with some elements left out -/

section Masked
variable {α β : Type} (chosen : α → Prop) [DecidablePred chosen] (shown other : α → Option β)

/-- A search that shows the chosen elements. -/
def findShown (xs : List α) : Option β := xs.findSome? fun x => if chosen x then shown x else other x

/-- A search that leaves the chosen elements out. -/
def findOther (xs : List α) : Option β := xs.findSome? fun x => if chosen x then none else other x

theorem findShown_of_silent (xs : List α) (silent : ∀ x ∈ xs, chosen x → shown x = none) :
    findShown chosen shown other xs = findOther chosen other xs := by
  induction xs with
  | nil => rfl
  | cons x xs ih =>
    have rest := ih fun y member => silent y (List.mem_cons_of_mem x member)
    unfold findShown findOther at rest ⊢
    by_cases here : chosen x
    · have none_ := silent x List.mem_cons_self here
      simp only [List.findSome?_cons, if_pos here, none_, rest]
    · simp only [List.findSome?_cons, if_neg here, rest]

/-- Where the first chosen element that shows something stands. -/
theorem findShown_iff_at (before after : List α) (x : α) (b : β) (here : chosen x) (shows : shown x = some b)
    (silent : ∀ y ∈ before, chosen y → shown y = none) :
    findShown chosen shown other (before ++ x :: after) = findOther chosen other (before ++ x :: after) ↔
      findOther chosen other before ≠ none ∨ findOther chosen other after = some b := by
  have left := findShown_of_silent chosen shown other before silent
  unfold findShown findOther at left ⊢
  rw [List.findSome?_append, List.findSome?_append, left]
  simp only [List.findSome?_cons, if_pos here, shows]
  cases before.findSome? fun y => if chosen y then none else other y with
  | some c => simp
  | none =>
    simp only [Option.none_or, ne_eq, not_true, false_or]
    exact eq_comm

/-- Showing the chosen elements changes what is found, unless they show nothing, something is
found before them anyway, or the same is found after them. -/
theorem findShown_iff (xs : List α) :
    findShown chosen shown other xs = findOther chosen other xs ↔
      (∀ x ∈ xs, chosen x → shown x = none) ∨
      ∃ before x after b, xs = before ++ x :: after ∧ chosen x ∧ shown x = some b ∧
        (∀ y ∈ before, chosen y → shown y = none) ∧
        (findOther chosen other before ≠ none ∨ findOther chosen other after = some b) := by
  constructor
  · intro same
    cases first : xs.find? fun x => chosen x ∧ (shown x).isSome with
    | none =>
      left
      intro x member here
      have quiet := List.find?_eq_none.mp first x member
      simpa [here] using quiet
    | some x =>
      right
      obtain ⟨found, before, after, rfl, earlier⟩ := List.find?_eq_some_iff_append.mp first
      simp only [decide_eq_true_eq] at found
      obtain ⟨here, shows⟩ := found
      obtain ⟨b, shows⟩ := Option.isSome_iff_exists.mp shows
      have silent : ∀ y ∈ before, chosen y → shown y = none := by
        intro y member chosenY
        simpa [chosenY] using earlier y member
      exact ⟨before, x, after, b, rfl, here, shows, silent,
        (findShown_iff_at chosen shown other before after x b here shows silent).mp same⟩
  · rintro (silent | ⟨before, x, after, b, rfl, here, shows, silent, either⟩)
    · exact findShown_of_silent chosen shown other xs silent
    · exact (findShown_iff_at chosen shown other before after x b here shows silent).mpr either

end Masked

end WeeboSi.Lib
