import Mathlib.Data.Char
import Mathlib.Data.List.Lex
import Mathlib.Data.List.MinMax
import Mathlib.Data.Prod.Lex
import WeeboSi.Crd.Hosts

/-!
# Who holds a username

Source: crates/weebo-si-identity/src/application.rs:85-120, as crates/weebo-si-identity-adapters'
controller.rs:306-347 asks it for every person. Texts compare by code points, which is the order of
their bytes.
-/
namespace WeeboSi.Identity
open WeeboSi.Lib WeeboSi.Crd

structure Claimant where
  name : Text
  uid : Text
  username : Text
  /-- In seconds; an object that is not stamped yet has none. -/
  created : Option Int
  deriving DecidableEq, Repr

/-- A time, then a name. -/
def ClaimOrder : Type := ℤ ×ₗ Text

instance : LinearOrder ClaimOrder := @Prod.Lex.instLinearOrder ℤ Text Int.instLinearOrder inferInstance

namespace Claimant
variable (me : Claimant)

/-- An object without a time stamp sorts last. -/
def createdAt : Int := me.created.getD (2 ^ 63 - 1)

/-- The oldest first, then the lowest name. -/
def order : ClaimOrder := toLex (me.createdAt, me.name)

end Claimant

/-- `eq_ignore_ascii_case`. -/
def eqIgnoreAsciiCase (a b : Text) : Bool := lowerText a == lowerText b

/-- `min_by` returns the first of the least. -/
def usernameHolder (me : Claimant) (everybody : List Claimant) : Option Claimant :=
  (((everybody.filter fun other => other.uid ≠ me.uid).filter
      fun other => eqIgnoreAsciiCase other.username me.username).filter
    fun other => other.order < me.order).argmin Claimant.order

/-! ## Distinct claimants -/

/-- No two claimants share a uid or a name. -/
structure Distinct (everybody : List Claimant) : Prop where
  uids : (everybody.map Claimant.uid).Nodup
  names : (everybody.map Claimant.name).Nodup

section Claimants
variable {everybody : List Claimant}

theorem Distinct.of_uid (distinct : Distinct everybody) {a b : Claimant} (first : a ∈ everybody)
    (second : b ∈ everybody) (same : a.uid = b.uid) : a = b :=
  List.inj_on_of_nodup_map distinct.uids first second same

theorem order_lt_of_created (a b : Claimant) (later : a.createdAt < b.createdAt) : a.order < b.order :=
  Prod.Lex.toLex_lt_toLex.mpr (Or.inl later)

theorem name_of_order (a b : Claimant) (same : a.order = b.order) : a.name = b.name :=
  congrArg (fun order : ℤ ×ₗ Text => (ofLex order).2) same

theorem Distinct.of_order (distinct : Distinct everybody) {a b : Claimant} (first : a ∈ everybody)
    (second : b ∈ everybody) (same : a.order = b.order) : a = b :=
  List.inj_on_of_nodup_map distinct.names first second (name_of_order a b same)

theorem Distinct.perm (distinct : Distinct everybody) {reordered : List Claimant}
    (permuted : reordered.Perm everybody) : Distinct reordered :=
  ⟨(permuted.map _).nodup_iff.mpr distinct.uids, (permuted.map _).nodup_iff.mpr distinct.names⟩

theorem Distinct.cons (distinct : Distinct everybody) (newcomer : Claimant)
    (uid : newcomer.uid ∉ everybody.map Claimant.uid) (name : newcomer.name ∉ everybody.map Claimant.name) :
    Distinct (newcomer :: everybody) :=
  ⟨List.nodup_cons.mpr ⟨uid, distinct.uids⟩, List.nodup_cons.mpr ⟨name, distinct.names⟩⟩

end Claimants

/-! ## The holder -/

/-- One claimant of the username has no holder, and it is everybody else's. -/
structure Holds (everybody : List Claimant) (username : Text) (holder : Claimant) : Prop where
  member : holder ∈ everybody
  claims : eqIgnoreAsciiCase holder.username username = true
  free : usernameHolder holder everybody = none
  refuses : ∀ other ∈ everybody, eqIgnoreAsciiCase other.username username = true → other ≠ holder →
    usernameHolder other everybody = some holder

/-- The least of those who claim the username. -/
structure Least (everybody : List Claimant) (username : Text) (holder : Claimant) : Prop where
  member : holder ∈ everybody
  claims : eqIgnoreAsciiCase holder.username username = true
  first : ∀ other ∈ everybody, eqIgnoreAsciiCase other.username username = true → holder.order ≤ other.order

theorem eqIgnoreAsciiCase_joined {a b c : Text} (first : eqIgnoreAsciiCase a c = true)
    (second : eqIgnoreAsciiCase b c = true) : eqIgnoreAsciiCase a b = true := by
  simp only [eqIgnoreAsciiCase, beq_iff_eq] at first second ⊢
  rw [first, second]

theorem eqIgnoreAsciiCase_trans {a b c : Text} (first : eqIgnoreAsciiCase a b = true)
    (second : eqIgnoreAsciiCase b c = true) : eqIgnoreAsciiCase a c = true := by
  simp only [eqIgnoreAsciiCase, beq_iff_eq] at first second ⊢
  rw [first, second]

section Holder
variable {everybody : List Claimant} {username : Text} {holder : Claimant}

theorem mem_usernameHolder (me found : Claimant) (held : usernameHolder me everybody = some found) :
    found ∈ everybody ∧ found.uid ≠ me.uid ∧ eqIgnoreAsciiCase found.username me.username = true ∧
      found.order < me.order := by
  have member := List.argmin_mem held
  simp only [List.mem_filter, decide_eq_true_eq] at member
  exact ⟨member.1.1.1, member.1.1.2, member.1.2, member.2⟩

/-- The least claimant holds the username. -/
theorem holds_of_least (distinct : Distinct everybody) (least : Least everybody username holder) :
    Holds everybody username holder := by
  refine ⟨least.member, least.claims, ?_, ?_⟩
  · -- somebody who came before would be smaller than the least
    cases held : usernameHolder holder everybody with
    | none => rfl
    | some found =>
      obtain ⟨member, -, same, before⟩ := mem_usernameHolder holder found held
      exact absurd before (not_lt.mpr (least.first found member (eqIgnoreAsciiCase_trans same least.claims)))
  · intro other member claims different
    have before : holder.order < other.order := by
      refine lt_of_le_of_ne (least.first other member claims) ?_
      intro same
      exact different (distinct.of_order least.member member same).symm
    have candidate : holder ∈ ((everybody.filter fun person => person.uid ≠ other.uid).filter
        fun person => eqIgnoreAsciiCase person.username other.username).filter
        fun person => person.order < other.order := by
      simp only [List.mem_filter, decide_eq_true_eq]
      exact ⟨⟨⟨least.member, fun same => different (distinct.of_uid least.member member same).symm⟩,
        eqIgnoreAsciiCase_joined least.claims claims⟩, before⟩
    cases held : usernameHolder other everybody with
    | none =>
      rw [usernameHolder, List.argmin_eq_none] at held
      rw [held] at candidate
      cases candidate
    | some found =>
      have atMost : found.order ≤ holder.order := List.le_of_mem_argmin candidate held
      obtain ⟨inside, -, same, -⟩ := mem_usernameHolder other found held
      have atLeast := least.first found inside (eqIgnoreAsciiCase_trans same claims)
      rw [distinct.of_order inside least.member (le_antisymm atMost atLeast)]

theorem least_exists (someone : Claimant) (member : someone ∈ everybody) :
    ∃ holder, Least everybody someone.username holder := by
  have candidate : someone ∈ everybody.filter
      fun other => eqIgnoreAsciiCase other.username someone.username := by
    simp [member, eqIgnoreAsciiCase]
  cases least : (everybody.filter fun other => eqIgnoreAsciiCase other.username someone.username).argmin
      Claimant.order with
  | none =>
    rw [List.argmin_eq_none] at least
    rw [least] at candidate
    cases candidate
  | some holder =>
    have inside := List.mem_filter.mp (List.argmin_mem least)
    refine ⟨holder, inside.1, inside.2, ?_⟩
    intro other there claims
    exact List.le_of_mem_argmin (List.mem_filter.mpr ⟨there, claims⟩) least

theorem Least.perm (least : Least everybody username holder) {reordered : List Claimant}
    (permuted : reordered.Perm everybody) : Least reordered username holder :=
  ⟨permuted.mem_iff.mpr least.member, least.claims,
    fun other member claims => least.first other (permuted.mem_iff.mp member) claims⟩

theorem Least.cons (least : Least everybody username holder) (newcomer : Claimant)
    (later : holder.createdAt < newcomer.createdAt) : Least (newcomer :: everybody) username holder := by
  refine ⟨List.mem_cons_of_mem _ least.member, least.claims, ?_⟩
  intro other member claims
  rcases List.mem_cons.mp member with rfl | member
  · exact (order_lt_of_created holder other later).le
  · exact least.first other member claims

end Holder

/-- Of those who claim one username exactly one holds it, whatever the order they are listed in, and
who comes later does not take it. -/
theorem username_held_once (everybody : List Claimant) (distinct : Distinct everybody) (someone : Claimant)
    (member : someone ∈ everybody) :
    ∃ holder, Holds everybody someone.username holder ∧
      (∀ other ∈ everybody, eqIgnoreAsciiCase other.username someone.username = true →
        usernameHolder other everybody = none → other = holder) ∧
      (∀ reordered : List Claimant, reordered.Perm everybody → Holds reordered someone.username holder) ∧
      (∀ (newcomer : Claimant) (reordered : List Claimant), newcomer.uid ∉ everybody.map Claimant.uid →
        newcomer.name ∉ everybody.map Claimant.name → holder.createdAt < newcomer.createdAt →
        reordered.Perm (newcomer :: everybody) → Holds reordered someone.username holder) := by
  obtain ⟨holder, least⟩ := least_exists someone member
  have holds := holds_of_least distinct least
  refine ⟨holder, holds, ?_, ?_, ?_⟩
  · intro other inside claims free
    by_contra different
    rw [holds.refuses other inside claims different] at free
    cases free
  · intro reordered permuted
    exact holds_of_least (distinct.perm permuted) (least.perm permuted)
  · intro newcomer reordered uid name later permuted
    exact holds_of_least ((distinct.cons newcomer uid name).perm permuted) ((least.cons newcomer later).perm permuted)

/-- Two spellings of one login; the second object is not stamped yet. -/
def ivans : List Claimant :=
  [⟨"ivan-home".toList, "uid-2".toList, "ivan".toList, none⟩,
    ⟨"ivan-work".toList, "uid-1".toList, "Ivan".toList, some 100⟩]

/-- The older one holds it, in either order. -/
theorem ivans_held_once :
    usernameHolder ⟨"ivan-home".toList, "uid-2".toList, "ivan".toList, none⟩ ivans =
        some ⟨"ivan-work".toList, "uid-1".toList, "Ivan".toList, some 100⟩ ∧
      ∃ holder, Holds ivans "ivan".toList holder ∧ Holds ivans.reverse "ivan".toList holder := by
  refine ⟨by decide +kernel, ?_⟩
  obtain ⟨holder, holds, -, reordered, -⟩ := username_held_once ivans ⟨by decide, by decide⟩
    ⟨"ivan-home".toList, "uid-2".toList, "ivan".toList, none⟩ (by simp [ivans])
  exact ⟨holder, holds, reordered ivans.reverse (List.reverse_perm ivans)⟩

end WeeboSi.Identity
