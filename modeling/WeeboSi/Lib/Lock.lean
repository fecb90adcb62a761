import WeeboSi.Lib.Run

/-!
# Reading and writing under one lock

A process takes the lock when it is free, reads the file, changes it by what it has read, and
lets the lock go when it stops, which it may do at any point. Processes interleave freely. What
a process has read is what the file still holds, so every run of the system is a run of
processes that each read and write at once.
-/
namespace WeeboSi.Lib.Lock

variable {P F : Type} [DecidableEq P]

inductive Phase (F : Type) where
  | waiting
  | locked
  | read (contents : F)
  | wrote
  | stopped

/-- Where a process is between taking the lock and letting it go. -/
def Phase.Inside : Phase F → Prop
  | .locked | .read _ | .wrote => True
  | .waiting | .stopped => False

structure State (P F : Type) where
  file : F
  holder : Option P
  phase : P → Phase F

inductive Event (P : Type) where
  | lock (p : P)
  | read (p : P)
  | write (p : P)
  | stop (p : P)

def start (file : F) : State P F := ⟨file, none, fun _ => .waiting⟩

def State.become (s : State P F) (p : P) (phase : Phase F) : State P F :=
  { s with phase := Function.update s.phase p phase }

section System
-- the file a process leaves, from what it has read and what the file holds
variable (write : P → F → F → F)

def step (s : State P F) : Event P → State P F
  | .lock p =>
    match s.holder, s.phase p with
    | none, .waiting => { s.become p .locked with holder := some p }
    | _, _ => s
  | .read p =>
    match s.phase p with
    | .locked => s.become p (.read s.file)
    | _ => s
  | .write p =>
    match s.phase p with
    | .read contents => { s.become p .wrote with file := write p contents s.file }
    | _ => s
  | .stop p => { s.become p .stopped with holder := if s.holder = some p then none else s.holder }

/-- Only the holder is inside, and what it has read is still there. -/
structure Exclusive (s : State P F) : Prop where
  holds : ∀ p, (s.phase p).Inside → s.holder = some p
  fresh : ∀ p contents, s.phase p = .read contents → contents = s.file

omit [DecidableEq P] in
theorem exclusive_start (file : F) : Exclusive (start file : State P F) where
  holds _ inside := inside.elim
  fresh _ _ isRead := by cases isRead

/-- One process moves on; another that is inside keeps the lock and the file. -/
theorem exclusive_become {s : State P F} (inv : Exclusive s) (p : P) (phase : Phase F) (file : F)
    (holder : Option P) (others : ∀ q, q ≠ p → s.holder = some q → holder = some q ∧ file = s.file)
    (holds : phase.Inside → holder = some p) (fresh : ∀ contents, phase = .read contents → contents = file) :
    Exclusive { s.become p phase with file := file, holder := holder } := by
  constructor
  · intro q inside
    by_cases same : q = p
    · subst same
      simp only [State.become, Function.update_self] at inside
      exact holds inside
    · simp only [State.become, Function.update_of_ne same] at inside
      exact (others q same (inv.holds q inside)).1
  · intro q contents isRead
    by_cases same : q = p
    · subst same
      simp only [State.become, Function.update_self] at isRead
      exact fresh contents isRead
    · simp only [State.become, Function.update_of_ne same] at isRead
      have inside : (s.phase q).Inside := by
        rw [isRead]
        trivial
      rw [(others q same (inv.holds q inside)).2]
      exact inv.fresh q contents isRead

omit [DecidableEq P] in
/-- A process inside is the only one. -/
theorem only_holder {s : State P F} {p : P} (holds : s.holder = some p) (holder : Option P) (file : F) :
    ∀ q, q ≠ p → s.holder = some q → holder = some q ∧ file = s.file := by
  intro q other isHolder
  rw [holds, Option.some.injEq] at isHolder
  exact absurd isHolder.symm other

theorem exclusive_step (s : State P F) (e : Event P) (inv : Exclusive s) : Exclusive (step write s e) := by
  cases e with
  | lock p =>
    simp only [step]
    split
    · next free _ =>
      refine exclusive_become inv p .locked s.file (some p) ?_ (fun _ => rfl) (fun _ isRead => by cases isRead)
      intro q _ isHolder
      rw [free] at isHolder
      cases isHolder
    · exact inv
  | read p =>
    simp only [step]
    split
    · next isLocked =>
      have holds := inv.holds p (by rw [isLocked]; trivial)
      refine exclusive_become inv p (.read s.file) s.file s.holder (only_holder holds _ _) (fun _ => holds) ?_
      intro contents isRead
      cases isRead
      rfl
    · exact inv
  | write p =>
    simp only [step]
    split
    · next contents isRead =>
      have holds := inv.holds p (by rw [isRead]; trivial)
      exact exclusive_become inv p .wrote _ s.holder (only_holder holds _ _) (fun _ => holds)
        (fun _ isRead => by cases isRead)
    · exact inv
  | stop p =>
    refine exclusive_become inv p .stopped s.file _ ?_ False.elim (fun _ isRead => by cases isRead)
    intro q other isHolder
    have notHolder : s.holder ≠ some p := fun holds => other (Option.some.inj (isHolder.symm.trans holds))
    rw [if_neg notHolder]
    exact ⟨isHolder, rfl⟩

theorem exclusive_after (s : State P F) (inv : Exclusive s) (events : List (Event P)) :
    Exclusive (after (step write) s events) := by
  induction events generalizing s with
  | nil => exact inv
  | cons e rest ih => exact ih (step write s e) (exclusive_step write s e inv)

/-- A step leaves the file, or writes by what the file holds. -/
theorem file_step (s : State P F) (e : Event P) (inv : Exclusive s) :
    (step write s e).file = s.file ∨ ∃ p, e = .write p ∧ (step write s e).file = write p s.file s.file := by
  cases e with
  | lock p =>
    left
    simp only [step]
    split <;> rfl
  | read p =>
    left
    simp only [step]
    split <;> rfl
  | write p =>
    simp only [step]
    split
    · next contents isRead =>
      right
      exact ⟨p, rfl, by rw [inv.fresh p contents isRead]⟩
    · exact .inl rfl
  | stop p => exact .inl rfl

/-- What every process keeps that reads and writes at once, every run keeps. -/
theorem file_after (rel : F → F → Prop) (refl : ∀ file, rel file file)
    (trans : ∀ {a b c}, rel a b → rel b c → rel a c) (keeps : ∀ p file, rel file (write p file file))
    (s : State P F) (inv : Exclusive s) (events : List (Event P)) :
    rel s.file (after (step write) s events).file := by
  induction events generalizing s with
  | nil => exact refl s.file
  | cons e rest ih =>
    refine trans ?_ (ih (step write s e) (exclusive_step write s e inv))
    obtain same | ⟨p, _, written⟩ := file_step write s e inv
    · rw [same]
      exact refl s.file
    · rw [written]
      exact keeps p s.file

end System
end WeeboSi.Lib.Lock
