import Mathlib.Tactic

/-!
# Runs

A system is a step function on states; a run is the list of its events, each of which
carries whatever the system did not decide. `Along` says something of every step of a
run, in the state the step is taken in, and `along_of_foresight` is the rule by
which such statements are proved.
-/
namespace WeeboSi.Lib

variable {σ ε : Type} (step : σ → ε → σ)

/-- The state after a run. -/
def after (s : σ) (events : List ε) : σ := events.foldl step s

/-- Every event of the run from `s` meets `P` in the state it happens in. -/
def Along (P : σ → ε → Prop) : σ → List ε → Prop
  | _, [] => True
  | s, e :: rest => P s e ∧ Along P (step s e) rest

theorem along_and (P Q : σ → ε → Prop) (s : σ) (events : List ε) :
    Along step (fun s e => P s e ∧ Q s e) s events ↔ Along step P s events ∧ Along step Q s events := by
  induction events generalizing s with
  | nil => simp [Along]
  | cons e rest ih =>
    simp only [Along, ih]
    exact and_and_and_comm

theorem after_append (s : σ) (front back : List ε) :
    after step s (front ++ back) = after step (after step s front) back := List.foldl_append

theorem along_append (P : σ → ε → Prop) (s : σ) (front back : List ε) :
    Along step P s (front ++ back) ↔ Along step P s front ∧ Along step P (after step s front) back := by
  induction front generalizing s with
  | nil => simp [Along, after]
  | cons e rest ih =>
    rw [List.cons_append, Along, Along, ih, and_assoc]
    rfl

theorem along_of_forall (P : ε → Prop) (events : List ε) (holds : ∀ e ∈ events, P e) (s : σ) :
    Along step (fun _ e => P e) s events := by
  induction events generalizing s with
  | nil => trivial
  | cons e rest ih =>
    exact ⟨holds e (by simp), ih (fun other member => holds other (by simp [member])) (step s e)⟩

/-- A statement that every admissible step makes true from the invariant, and an
invariant that every admissible step keeps. The invariant may speak of the events to come. -/
theorem along_of_foresight (inv : σ → List ε → Prop) (admissible P : σ → ε → Prop)
    (keeps : ∀ s e rest, inv s (e :: rest) → admissible s e → inv (step s e) rest)
    (holds : ∀ s e rest, inv s (e :: rest) → admissible s e → P s e)
    (s : σ) (events : List ε) (start : inv s events) (run : Along step admissible s events) :
    Along step P s events := by
  induction events generalizing s with
  | nil => trivial
  | cons e rest ih => exact ⟨holds s e rest start run.1, ih (step s e) (keeps s e rest start run.1) run.2⟩

theorem along_of_invariant (inv : σ → Prop) (admissible P : σ → ε → Prop)
    (keeps : ∀ s e, inv s → admissible s e → inv (step s e))
    (holds : ∀ s e, inv s → admissible s e → P s e)
    (s : σ) (start : inv s) (events : List ε) (run : Along step admissible s events) :
    Along step P s events :=
  along_of_foresight step (fun s _ => inv s) admissible P (fun s e _ => keeps s e)
    (fun s e _ => holds s e) s events start run

theorem after_of_invariant (inv : σ → Prop) (admissible : σ → ε → Prop)
    (keeps : ∀ s e, inv s → admissible s e → inv (step s e))
    (s : σ) (start : inv s) (events : List ε) (run : Along step admissible s events) :
    inv (after step s events) := by
  induction events generalizing s with
  | nil => exact start
  | cons e rest ih => exact ih (step s e) (keeps s e start run.1) run.2

/-- Where a step keeps the invariant exactly when it is admissible, the states a run reaches
all have it exactly when its steps all are. What every step keeps may be assumed. -/
theorem reached_iff_along (always inv : σ → Prop) (context admissible : σ → ε → Prop)
    (keeps : ∀ s e, always s → context s e → always (step s e))
    (exact_ : ∀ s e, always s → inv s → context s e → (inv (step s e) ↔ admissible s e))
    (s : σ) (base : always s) (start : inv s) (events : List ε) (run : Along step context s events) :
    (∀ done, done <+: events → inv (after step s done)) ↔ Along step admissible s events := by
  induction events generalizing s with
  | nil =>
    refine iff_of_true ?_ trivial
    intro done reached
    rw [List.prefix_nil.mp reached]
    exact start
  | cons e rest ih =>
    have next := keeps s e base run.1
    constructor
    · intro reached
      have first : inv (step s e) := reached [e] ⟨rest, rfl⟩
      refine ⟨(exact_ s e base start run.1).mp first, (ih (step s e) next first run.2).mp ?_⟩
      intro done more
      exact reached (e :: done) (List.cons_prefix_cons.mpr ⟨rfl, more⟩)
    · rintro ⟨one, more⟩ done reached
      have first := (exact_ s e base start run.1).mpr one
      cases done with
      | nil => exact start
      | cons d done =>
        obtain ⟨rfl, onwards⟩ := List.cons_prefix_cons.mp reached
        exact (ih (step s d) next first run.2).mpr more done onwards

end WeeboSi.Lib
