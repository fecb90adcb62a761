import Mathlib.Data.List.Nodup
import WeeboSi.Lib.Json

/-!
# Objects with their keys in order

The values of a library that keeps the members of an object in the order of their keys, one a key.
Two such lists of members are the same when they read the same.
-/
namespace WeeboSi.Lib

/-! ## The order of texts -/

theorem textLe_total (s t : Text) : textLe s t = true ∨ textLe t s = true := by
  induction s generalizing t with
  | nil => exact Or.inl rfl
  | cons a s ih =>
    cases t with
    | nil => exact Or.inr rfl
    | cons b t =>
      simp only [textLe, Bool.or_eq_true, decide_eq_true_eq, Bool.and_eq_true, beq_iff_eq]
      rcases Nat.lt_trichotomy a.toNat b.toNat with less | same | more
      · exact Or.inl (Or.inl less)
      · have equal : a = b := Char.toNat_inj.mp same
        subst equal
        rcases ih t with below | above
        · exact Or.inl (Or.inr ⟨rfl, below⟩)
        · exact Or.inr (Or.inr ⟨rfl, above⟩)
      · exact Or.inr (Or.inl more)

theorem textLe_antisymm (s t : Text) (below : textLe s t = true) (above : textLe t s = true) : s = t := by
  induction s generalizing t with
  | nil =>
    cases t with
    | nil => rfl
    | cons b t => cases above
  | cons a s ih =>
    cases t with
    | nil => cases below
    | cons b t =>
      simp only [textLe, Bool.or_eq_true, decide_eq_true_eq, Bool.and_eq_true, beq_iff_eq] at below above
      rcases below with less | ⟨rfl, below⟩
      · rcases above with more | ⟨rfl, -⟩
        · omega
        · omega
      · rcases above with more | ⟨-, above⟩
        · omega
        · rw [ih t below above]

theorem textLe_trans (s t u : Text) (first : textLe s t = true) (second : textLe t u = true) :
    textLe s u = true := by
  induction s generalizing t u with
  | nil => rfl
  | cons a s ih =>
    cases t with
    | nil => cases first
    | cons b t =>
      cases u with
      | nil => cases second
      | cons c u =>
        simp only [textLe, Bool.or_eq_true, decide_eq_true_eq, Bool.and_eq_true, beq_iff_eq] at first second ⊢
        rcases first with less | ⟨rfl, first⟩
        · rcases second with more | ⟨rfl, -⟩
          · exact Or.inl (by omega)
          · exact Or.inl less
        · rcases second with more | ⟨rfl, second⟩
          · exact Or.inl more
          · exact Or.inr ⟨rfl, ih t u first second⟩

def TextLt (s t : Text) : Prop := textLe s t = true ∧ s ≠ t

theorem TextLt.trans {s t u : Text} (first : TextLt s t) (second : TextLt t u) : TextLt s u := by
  refine ⟨textLe_trans s t u first.1 second.1, ?_⟩
  rintro rfl
  exact first.2 (textLe_antisymm s t first.1 second.1)

theorem textLt_of_not_le (s t : Text) (above : textLe t s ≠ true) : TextLt s t := by
  refine ⟨(textLe_total s t).resolve_right above, ?_⟩
  rintro rfl
  exact above ((textLe_total s s).elim id id)

/-! ## Members in order -/

section Members
variable {V : Type}

def KeysOrdered (members : List (Text × V)) : Prop := (members.map Prod.fst).Pairwise TextLt

theorem KeysOrdered.nodup {members : List (Text × V)} (ordered : KeysOrdered members) :
    (members.map Prod.fst).Nodup := ordered.imp fun less => less.2

theorem keysOrdered_cons (member : Text × V) (members : List (Text × V)) :
    KeysOrdered (member :: members) ↔ (∀ other ∈ members, TextLt member.1 other.1) ∧ KeysOrdered members := by
  simp [KeysOrdered, List.pairwise_cons]

theorem mem_setMember (key : Text) (value : V) (members : List (Text × V)) (member : Text × V)
    (inside : member ∈ setMember key value members) : member = (key, value) ∨ member ∈ members := by
  induction members with
  | nil => exact Or.inl (List.mem_singleton.mp inside)
  | cons first members ih =>
    obtain ⟨k, v⟩ := first
    unfold setMember at inside
    split at inside
    · rename_i same
      rcases List.mem_cons.mp inside with rfl | rest
      · exact Or.inl (by rw [same])
      · exact Or.inr (List.mem_cons_of_mem _ rest)
    · split at inside
      · exact List.mem_cons.mp inside
      · rcases List.mem_cons.mp inside with rfl | rest
        · exact Or.inr List.mem_cons_self
        · exact (ih rest).imp id (List.mem_cons_of_mem _)

theorem keysOrdered_setMember (key : Text) (value : V) (members : List (Text × V))
    (ordered : KeysOrdered members) : KeysOrdered (setMember key value members) := by
  induction members with
  | nil => simp [setMember, KeysOrdered]
  | cons first members ih =>
    obtain ⟨k, v⟩ := first
    obtain ⟨least, rest⟩ := (keysOrdered_cons _ _).mp ordered
    unfold setMember
    split
    · exact (keysOrdered_cons _ _).mpr ⟨least, rest⟩
    · rename_i different
      split
      · rename_i before
        have less : TextLt key k := ⟨before, fun same => different same.symm⟩
        refine (keysOrdered_cons _ _).mpr ⟨?_, ordered⟩
        rintro other member
        rcases List.mem_cons.mp member with rfl | member
        · exact less
        · exact less.trans (least other member)
      · rename_i behind
        refine (keysOrdered_cons _ _).mpr ⟨?_, ih rest⟩
        intro other member
        rcases mem_setMember key value members other member with rfl | member
        · exact textLt_of_not_le k key behind
        · exact least other member

/-- No member in front of the first key reads it. -/
theorem lookup_of_less (members : List (Text × V)) (key : Text)
    (less : ∀ other ∈ members, TextLt key other.1) : members.lookup key = none := by
  rw [List.lookup_eq_none_iff]
  intro other member
  rw [bne_iff_ne]
  exact (less other member).2

/-- Members in order are the same when every key reads the same. -/
theorem keysOrdered_ext (xs ys : List (Text × V)) (orderedX : KeysOrdered xs) (orderedY : KeysOrdered ys)
    (same : ∀ key, xs.lookup key = ys.lookup key) : xs = ys := by
  induction xs generalizing ys with
  | nil =>
    cases ys with
    | nil => rfl
    | cons y ys =>
      obtain ⟨l, w⟩ := y
      have first := same l
      simp at first
  | cons x xs ih =>
    obtain ⟨leastX, restX⟩ := (keysOrdered_cons _ _).mp orderedX
    cases ys with
    | nil =>
      obtain ⟨k, v⟩ := x
      have first := same k
      simp at first
    | cons y ys =>
      obtain ⟨leastY, restY⟩ := (keysOrdered_cons _ _).mp orderedY
      obtain ⟨k, v⟩ := x
      obtain ⟨l, w⟩ := y
      have key : k = l := by
        by_contra apart
        -- the smaller of the two first keys is read on its side alone
        by_cases less : textLe k l = true
        · have absent : ((l, w) :: ys).lookup k = none := by
            apply lookup_of_less
            intro other member
            rcases List.mem_cons.mp member with rfl | member
            · exact ⟨less, apart⟩
            · exact TextLt.trans ⟨less, apart⟩ (leastY other member)
          rw [← same] at absent
          simp at absent
        · have more := textLt_of_not_le l k less
          have absent : ((k, v) :: xs).lookup l = none := by
            apply lookup_of_less
            intro other member
            rcases List.mem_cons.mp member with rfl | member
            · exact more
            · exact more.trans (leastX other member)
          rw [same] at absent
          simp at absent
      cases key
      have value := same k
      simp only [List.lookup_cons_self, Option.some.injEq] at value
      rw [value, ih ys restX restY]
      intro other
      by_cases here : other = k
      · rw [here, lookup_of_less xs k leastX, lookup_of_less ys k leastY]
      · have rest := same other
        simpa [List.lookup_cons, beq_false_of_ne here] using rest

end Members

/-! ## Values -/

namespace Json

def isObject : Json → Bool
  | object _ => true
  | _ => false

theorem isObject_iff {value : Json} : value.isObject = true ↔ ∃ members, value = object members := by
  cases value <;> simp [isObject]

mutual

/-- Every object in the value has its keys in order. -/
def Ordered : Json → Prop
  | object members => KeysOrdered members ∧ OrderedMembers members
  | array items => OrderedItems items
  | _ => True

def OrderedItems : List Json → Prop
  | [] => True
  | item :: items => Ordered item ∧ OrderedItems items

def OrderedMembers : Members → Prop
  | [] => True
  | (_, value) :: members => Ordered value ∧ OrderedMembers members

end

theorem orderedMembers_iff (members : Members) :
    OrderedMembers members ↔ ∀ member ∈ members, Ordered member.2 := by
  induction members with
  | nil => simp [OrderedMembers]
  | cons member members ih => simp [OrderedMembers, ih]

theorem ordered_object (members : Members) :
    Ordered (object members) ↔ KeysOrdered members ∧ ∀ member ∈ members, Ordered member.2 := by
  rw [Ordered, orderedMembers_iff]

mutual

/-- Induction over the objects in a value; what else there is, is not looked into. -/
theorem object_induct {P : Json → Prop} (other : ∀ value : Json, value.isObject = false → P value)
    (objects : ∀ members : Members, (∀ member ∈ members, P member.2) → P (object members)) :
    ∀ value : Json, P value
  | object members => objects members (members_induct other objects members)
  | null => other null rfl
  | bool value => other (bool value) rfl
  | number literal => other (number literal) rfl
  | string text => other (string text) rfl
  | array items => other (array items) rfl

theorem members_induct {P : Json → Prop} (other : ∀ value : Json, value.isObject = false → P value)
    (objects : ∀ members : Members, (∀ member ∈ members, P member.2) → P (object members)) :
    ∀ members : Members, ∀ member ∈ members, P member.2
  | [] => nofun
  | (key, value) :: members => fun member inside => by
    rcases List.mem_cons.mp inside with rfl | rest
    · exact object_induct other objects value
    · exact members_induct other objects members member rest

end

end Json

end WeeboSi.Lib
