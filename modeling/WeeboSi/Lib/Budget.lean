import WeeboSi.Lib.Run

/-!
# Budgets

A server answers each event of a run with yes or no. When an allowance pays for every
yes that counts, and time tops the allowance up at a fixed rate under a ceiling, the
yeses of a window are bounded by its length.
-/
namespace WeeboSi.Lib

variable {σ ε : Type} (serve : σ → ε → Bool × σ)

/-- How many events of the run from `s` are counted and answered with a yes. -/
def granted (counts : ε → Bool) : σ → List ε → Nat
  | _, [] => 0
  | s, e :: rest => (if counts e && (serve s e).1 then 1 else 0) + granted counts (serve s e).2 rest

/-- `allowance s t` is what may still be spent in `s` at time `t`, in the states that meet `inv`. -/
structure Budget (time : ε → Nat) (counts : ε → Bool) (cost ceiling rate : Nat)
    (inv : σ → Prop) (allowance : σ → Nat → Nat) : Prop where
  keeps : ∀ s e, inv s → inv (serve s e).2
  bounded : ∀ s t, inv s → allowance s t ≤ ceiling
  refills : ∀ s t later, inv s → t ≤ later → allowance s later ≤ allowance s t + rate * (later - t)
  pays : ∀ s e, inv s → allowance (serve s e).2 (time e) +
    cost * (if counts e && (serve s e).1 then 1 else 0) ≤ allowance s (time e)

variable {serve} {time : ε → Nat} {counts : ε → Bool} {cost ceiling rate : Nat} {inv : σ → Prop}
  {allowance : σ → Nat → Nat}

theorem Budget.granted_le_from (budget : Budget serve time counts cost ceiling rate inv allowance)
    (s : σ) (valid : inv s) (first last : Nat) (events : List ε) (order : first ≤ last)
    (ordered : events.Pairwise fun e later => time e ≤ time later)
    (within : ∀ e ∈ events, first ≤ time e ∧ time e ≤ last) :
    cost * granted serve counts s events ≤ allowance s first + rate * (last - first) := by
  -- The allowance carries the bound from one event to the next.
  induction events generalizing s first with
  | nil => simp [granted]
  | cons e rest ih =>
    obtain ⟨begun, ended⟩ := within e (by simp)
    rw [List.pairwise_cons] at ordered
    have later := ih (serve s e).2 (budget.keeps s e valid) (time e) ended ordered.2
      (fun other member => ⟨ordered.1 other member, (within other (by simp [member])).2⟩)
    have paid := budget.pays s e valid
    have refilled := budget.refills s first (time e) valid begun
    have split : rate * (last - first) = rate * (last - time e) + rate * (time e - first) := by
      rw [← Nat.mul_add, Nat.sub_add_sub_cancel ended begun]
    rw [granted, Nat.mul_add]
    omega

theorem Budget.granted_le_window (budget : Budget serve time counts cost ceiling rate inv allowance)
    (s : σ) (valid : inv s) (first last : Nat) (events : List ε)
    (ordered : events.Pairwise fun e later => time e ≤ time later)
    (within : ∀ e ∈ events, first ≤ time e ∧ time e ≤ last) :
    cost * granted serve counts s events ≤ ceiling + rate * (last - first) := by
  by_cases order : first ≤ last
  · have spent := budget.granted_le_from s valid first last events order ordered within
    have started := budget.bounded s first valid
    omega
  · cases events with
    | nil => simp [granted]
    | cons e rest =>
      obtain ⟨begun, ended⟩ := within e (by simp)
      omega

end WeeboSi.Lib
