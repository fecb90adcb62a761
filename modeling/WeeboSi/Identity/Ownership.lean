import WeeboSi.Identity.Provision
import WeeboSi.Lib.Run

/-!
# A provisioned object stays with its owner

Source: crates/weebo-si-identity/src/application.rs:54-82 and 122-160 and
crates/weebo-si-identity-adapters/src/controller.rs:212-460. Passes over different people run at
once; an apply is forced, so nothing but the decision before it protects an object. What a
server-side apply makes of an object is left open but for one thing: an object of a person,
applied for that person, stays that person's.
-/
namespace WeeboSi.Identity
open WeeboSi.Lib WeeboSi.Crd WeeboSi.Chassis

/-- The provisioned objects, and the passes on their way. -/
structure World where
  cells : Place → Option Held
  flights : List Flight

/-- A server-side apply. -/
structure Applying where
  stored : Option Held → DesiredObject → Held
  kept : ∀ held desired, desired.owner.kind = ownerKind → desired.owner.apiVersion = ownerApiVersion →
    held.ownerUid = some desired.owner.uid → (stored (some held) desired).ownerUid = some desired.owner.uid

inductive Event where
  | begin (pass : Pass)
  | observe (index : Nat) (answer : Answer)
  | write (index : Nat) (answer : Flight.WriteAnswer)
  | outside (place : Place) (cell : Option Held)

section Step
variable (shown : IdentityConfigViolation → Text) (applying : Applying)

def World.store (w : World) (desired : DesiredObject) : Place → Option Held := fun place =>
  if place = desired.place then some (applying.stored (w.cells place) desired) else w.cells place

/-- Passes set out, look and write in any order; others write and delete what they like. -/
def step (w : World) : Event → World
  | .begin pass =>
    match pass.start shown with
    | .inl _ => w
    | .inr flight => { w with flights := w.flights ++ [flight] }
  | .observe index answer =>
    match w.flights[index]? with
    | none => w
    | some flight => { w with flights := w.flights.set index (flight.observe answer w.cells) }
  | .write index answer =>
    match w.flights[index]? with
    | none => w
    | some flight =>
      let (flight, written) := flight.write answer
      { cells := (written.map fun desired => w.store applying desired).getD w.cells
        flights := w.flights.set index flight }
  | .outside place cell => { w with cells := fun other => if other = place then cell else w.cells other }

end Step

/-! ## What a pass may write -/

/-- The pass provisions the target for the person with the uid: the plan is within the
configuration, and nobody holds the username before them. -/
structure Provides (pass : Pass) (uid : Text) (desired : DesiredObject) : Prop where
  enforced : ∃ config plan, pass.config = some (.enforce, config) ∧
    config.planFor pass.me.user pass.team = .ok plan ∧ desired ∈ pass.targets uid plan
  person : pass.me.uid = some uid
  first : refused pass.users pass.me = false

theorem targets_owner (pass : Pass) (uid : Text) (plan : UserPlan) (desired : DesiredObject)
    (member : desired ∈ pass.targets uid plan) : desired.owner = pass.owner uid := by
  simp only [Pass.targets, List.mem_append, Option.mem_toList, Option.map_eq_some_iff] at member
  rcases member with ⟨_, -, rfl⟩ | ⟨_, -, rfl⟩ <;> rfl

theorem Provides.owner {pass : Pass} {uid : Text} {desired : DesiredObject} (provides : Provides pass uid desired) :
    desired.owner = pass.owner uid := by
  obtain ⟨config, plan, -, -, member⟩ := provides.enforced
  exact targets_owner pass uid plan desired member

/-- Everything left to a flight is what its pass provides, if it enforces. -/
def Honest (flight : Flight) : Prop :=
  flight.enforces = true → ∀ desired ∈ flight.pending, Provides flight.pass flight.uid desired

theorem start_honest (shown : IdentityConfigViolation → Text) (pass : Pass) (flight : Flight)
    (started : pass.start shown = .inr flight) :
    flight.pass = pass ∧ flight.decided = none ∧ Honest flight := by
  unfold Pass.start at started
  cases configured : pass.config with
  | none => simp [configured] at started
  | some found =>
    obtain ⟨mode, config⟩ := found
    simp only [configured] at started
    split at started
    · cases started
    · cases planned : config.planFor pass.me.user pass.team with
      | error violations => simp [planned] at started
      | ok plan =>
        cases named : pass.me.uid with
        | none => simp [planned, named] at started
        | some uid =>
          cases holder : (claimant pass.me).bind fun me => usernameHolder me (claimants pass.users) with
          | some other => simp [planned, named, holder] at started
          | none =>
            simp only [planned, named, holder, Sum.inr.injEq] at started
            subst started
            refine ⟨rfl, rfl, ?_⟩
            intro enforces desired member
            have enforced : mode = .enforce := of_decide_eq_true enforces
            subst enforced
            exact ⟨⟨config, plan, configured, planned, member⟩, named, by simp [refused, holder]⟩

/-! ## The invariant at one place -/

section Place
variable (applying : Applying) (begun : Pass → Prop) (place : Place) (first : Held)

/-- A write of a pass that provides for the owner. -/
def OwnWrite (before now : Held) : Prop :=
  ∃ pass uid desired, begun pass ∧ first.ownerUid = some uid ∧ Provides pass uid desired ∧
    desired.place = place ∧ now = applying.stored (some before) desired

/-- A flight that writes at the place only for the owner of what is there. -/
structure Tame (flight : Flight) : Prop where
  begun : ∀ desired ∈ flight.pending, desired.place = place → begun flight.pass
  honest : flight.enforces = true → ∀ desired ∈ flight.pending, desired.place = place →
    Provides flight.pass flight.uid desired
  decided : ∀ desired rest, flight.pending = desired :: rest → flight.decided.isSome = true →
    desired.place = place → flight.enforces = true ∧ first.ownerUid = some flight.uid

structure Stays (w : World) : Prop where
  now : ∃ held, w.cells place = some held ∧ held.ownerUid = first.ownerUid ∧
    Relation.ReflTransGen (OwnWrite applying begun place first) first held
  flights : ∀ flight ∈ w.flights, Tame begun place first flight

variable {applying begun place first}

/-- A flight that is done with a target is left with less. -/
theorem Tame.rest {flight after : Flight} (tame : Tame begun place first flight) (pass : after.pass = flight.pass)
    (uid : after.uid = flight.uid) (mode : after.mode = flight.mode) (less : after.pending ⊆ flight.pending)
    (undecided : after.decided = none) : Tame begun place first after := by
  have enforces : after.enforces = flight.enforces := by rw [Flight.enforces, mode, Flight.enforces]
  constructor
  · rw [pass]
    exact fun desired member => tame.begun desired (less member)
  · rw [enforces, pass, uid]
    exact fun enforced desired member => tame.honest enforced desired (less member)
  · rw [undecided]
    intro desired rest _ some_
    cases some_

/-- Where an object stands, a pass decides to write only for its owner. -/
theorem decideAction_writes (answer : Answer) (desired : DesiredObject) (held : Held) (seen : Observation) (uid : Text)
    (observed : observation answer desired (some held) = .ok seen)
    (writes : (decideAction desired seen uid).writes = true) : held.ownerUid = some uid := by
  unfold observation at observed
  cases failure : answer.failure with
  | some why =>
    simp only [failure] at observed
    split at observed
    · cases observed
    · cases observed
      cases writes
  | none =>
    simp only [failure] at observed
    cases observed
    cases owner : held.ownerUid with
    | none => simp [decideAction, owner, Action.writes] at writes
    | some other =>
      by_cases same : other = uid
      · rw [same]
      · simp [decideAction, owner, same, Action.writes] at writes

theorem Tame.observe {flight : Flight} (tame : Tame begun place first flight) (answer : Answer)
    (cells : Place → Option Held) (held : Held) (there : cells place = some held)
    (owner : held.ownerUid = first.ownerUid) : Tame begun place first (flight.observe answer cells) := by
  unfold Flight.observe
  split
  · next desired rest pending undecided =>
    have less : rest ⊆ flight.pending := by
      rw [pending]
      exact List.subset_cons_self _ _
    cases observed : observation answer desired (cells desired.place) with
    | error error => exact tame.rest rfl rfl rfl less rfl
    | ok seen =>
      simp only
      split
      · next writes =>
        rw [Bool.and_eq_true] at writes
        refine ⟨tame.begun, tame.honest, ?_⟩
        intro other more same _ here
        obtain ⟨rfl, -⟩ := List.cons.inj (pending.symm.trans same)
        rw [here, there] at observed
        exact ⟨writes.2, owner ▸ decideAction_writes answer desired held seen flight.uid observed writes.1⟩
      · exact tame.rest rfl rfl rfl less rfl
  · exact tame

/-- A write leaves less to do, and stores the target the pass decided about. -/
theorem write_cases (flight : Flight) (answer : Flight.WriteAnswer) :
    (flight.write answer).1 = flight ∧ (flight.write answer).2 = none ∨
      ∃ desired rest after, flight.pending = desired :: rest ∧ flight.decided.isSome = true ∧
        (flight.write answer).1 = after ∧ after.pass = flight.pass ∧ after.uid = flight.uid ∧
        after.mode = flight.mode ∧ after.pending = rest ∧ after.decided = none ∧
        ∀ written ∈ (flight.write answer).2, written = desired := by
  unfold Flight.write
  split
  · next desired rest action pending decided =>
    refine Or.inr ⟨desired, rest, _, pending, by simp [decided], rfl, ?_⟩
    cases answer <;> simp [Flight.report, Flight.fail]
  · exact Or.inl ⟨rfl, rfl⟩

/-- What a tame flight stores at the place is its owner's again. -/
theorem now_stored {w : World} (stays : Stays applying begun place first w) {flight : Flight}
    (tame : Tame begun place first flight) (desired : DesiredObject) (rest : List DesiredObject)
    (pending : flight.pending = desired :: rest) (decided : flight.decided.isSome = true) :
    ∃ held, w.store applying desired place = some held ∧ held.ownerUid = first.ownerUid ∧
      Relation.ReflTransGen (OwnWrite applying begun place first) first held := by
  obtain ⟨held, there, owner, chain⟩ := stays.now
  unfold World.store
  by_cases here : place = desired.place
  · obtain ⟨enforces, mine⟩ := tame.decided desired rest pending decided here.symm
    have inside : desired ∈ flight.pending := by
      rw [pending]
      exact List.mem_cons_self
    have provides := tame.honest enforces desired inside here.symm
    have byOwner := provides.owner
    have kept := applying.kept held desired (by rw [byOwner]; rfl) (by rw [byOwner]; rfl)
      (by rw [byOwner, owner, mine]; rfl)
    refine ⟨applying.stored (some held) desired, by rw [if_pos here, there], ?_, ?_⟩
    · rw [kept, byOwner, mine]
      rfl
    · exact chain.tail ⟨flight.pass, flight.uid, desired, tame.begun desired inside here.symm, mine, provides,
        here.symm, rfl⟩
  · exact ⟨held, by rw [if_neg here, there], owner, chain⟩

theorem stays_write {w : World} (stays : Stays applying begun place first w) (shown : IdentityConfigViolation → Text)
    (index : Nat) (answer : Flight.WriteAnswer) :
    Stays applying begun place first (step shown applying w (.write index answer)) := by
  simp only [step]
  cases found : w.flights[index]? with
  | none => exact stays
  | some flight =>
    have tame := stays.flights flight (List.mem_of_getElem? found)
    rcases write_cases flight answer with ⟨same, nothing⟩ | ⟨desired, rest, after, pending, decided, is, ofPass, ofUid,
      ofMode, left, undecided, only⟩
    · simp only [same, nothing]
      refine ⟨stays.now, ?_⟩
      intro other member
      exact (List.mem_or_eq_of_mem_set member).elim (stays.flights other) fun isIt => isIt ▸ tame
    · have less : after.pending ⊆ flight.pending := by
        rw [left, pending]
        exact List.subset_cons_self _ _
      refine ⟨?_, ?_⟩
      · simp only
        cases written : (flight.write answer).2 with
        | none => exact stays.now
        | some stored =>
          rw [only stored (by simp [written])]
          exact now_stored stays tame desired rest pending decided
      · intro other member
        rcases List.mem_or_eq_of_mem_set member with before | isIt
        · exact stays.flights other before
        · rw [isIt, is]
          exact tame.rest ofPass ofUid ofMode less undecided

/-- Every event but somebody else's write at the place keeps the invariant. -/
theorem step_stays {w : World} (stays : Stays applying begun place first w) (shown : IdentityConfigViolation → Text)
    (event : Event) (starts : ∀ pass, event = .begin pass → begun pass)
    (away : ∀ cell, event ≠ .outside place cell) : Stays applying begun place first (step shown applying w event) := by
  cases event with
  | begin pass =>
    simp only [step]
    cases started : pass.start shown with
    | inl status => exact stays
    | inr flight =>
      obtain ⟨ofPass, undecided, honest⟩ := start_honest shown pass flight started
      refine ⟨stays.now, ?_⟩
      intro other member
      rcases List.mem_append.mp member with before | new
      · exact stays.flights other before
      · rw [List.mem_singleton.mp new]
        refine ⟨fun _ _ _ => ofPass ▸ starts pass rfl, fun enforces desired inside _ => honest enforces desired inside, ?_⟩
        rw [undecided]
        intro _ _ _ some_
        cases some_
  | observe index answer =>
    simp only [step]
    cases found : w.flights[index]? with
    | none => exact stays
    | some flight =>
      obtain ⟨held, there, owner, -⟩ := stays.now
      refine ⟨stays.now, ?_⟩
      intro other member
      rcases List.mem_or_eq_of_mem_set member with before | isIt
      · exact stays.flights other before
      · rw [isIt]
        exact (stays.flights flight (List.mem_of_getElem? found)).observe answer w.cells held there owner
  | write index answer => exact stays_write stays shown index answer
  | outside other cell =>
    have apart : place ≠ other := fun same => away cell (by rw [same])
    refine ⟨?_, stays.flights⟩
    obtain ⟨held, there, rest⟩ := stays.now
    exact ⟨held, by rw [step]; simpa [apart] using there, rest⟩

end Place

/-- Whatever the passes over any people do, in any order and failing anywhere, an object they
find belongs to whom it belonged to: nobody else's pass writes it, one that is no person's is
never written at all, and what becomes of a person's is what passes that provide for them wrote. -/
theorem target_stays_with_owner (shown : IdentityConfigViolation → Text) (applying : Applying) (start : World)
    (place : Place) (first : Held) (there : start.cells place = some first)
    (idle : ∀ flight ∈ start.flights, ∀ desired ∈ flight.pending, desired.place ≠ place) (events : List Event)
    (away : ∀ cell, .outside place cell ∉ events) :
    ∃ now, (after (step shown applying) start events).cells place = some now ∧ now.ownerUid = first.ownerUid ∧
      (first.ownerUid = none → now = first) ∧
      Relation.ReflTransGen (OwnWrite applying (fun pass => .begin pass ∈ events) place first) first now := by
  have begins : Stays applying (fun pass => .begin pass ∈ events) place first start := by
    refine ⟨⟨first, there, rfl, .refl⟩, ?_⟩
    intro flight member
    have clear := idle flight member
    exact ⟨fun desired inside here => absurd here (clear desired inside),
      fun _ desired inside here => absurd here (clear desired inside),
      fun desired rest pending _ here => absurd here (clear desired (by simp [pending]))⟩
  have ends := after_of_invariant (step shown applying)
    (Stays applying (fun pass => .begin pass ∈ events) place first) (fun _ event => event ∈ events)
    (fun w event stays member => step_stays stays shown event (fun pass isBegin => isBegin ▸ member)
      (fun cell isOutside => away cell (isOutside ▸ member)))
    start begins events (along_of_forall _ _ events (fun event member => member) start)
  obtain ⟨now, isNow, owner, chain⟩ := ends.now
  refine ⟨now, isNow, owner, ?_, chain⟩
  intro nobody
  rcases chain.cases_tail with same | ⟨before, -, pass, uid, desired, -, mine, -⟩
  · exact same
  · rw [nobody] at mine
    cases mine

/-! ## One account, two people -/

theorem ownerUid_single (owner : ObjectOwner) (spec : Json) (kind : owner.kind = ownerKind)
    (version : owner.apiVersion = ownerApiVersion) : (⟨[owner], spec⟩ : Held).ownerUid = some owner.uid := by
  simp [Held.ownerUid, kind, version]

/-- The only manager of an object replaces it. -/
def replacing : Applying where
  stored _ desired := ⟨[desired.owner], desired.spec⟩
  kept _ desired kind version _ := ownerUid_single desired.owner desired.spec kind version

/-- A person who asks for the account named `max`. -/
def claimsMax (name uid : Text) : Pass where
  me := ⟨⟨some name, name, none, some "e".toList, none, true, some ⟨.ensure, some "max".toList, []⟩, none⟩,
    some uid, some 0, false⟩
  config := some (.enforce, emptyConfig)
  teams := []
  users := []

def maxPlace : Place := ⟨.authentikUser, none, "max".toList⟩

def maxHeld : Held := ⟨[(claimsMax "max".toList ['1']).owner ['1']], .null⟩

def bothClaim : List Event :=
  [.begin (claimsMax "eve".toList ['2']), .observe 0 ⟨none, true⟩, .begin (claimsMax "max".toList ['1']),
    .observe 1 ⟨none, true⟩, .write 0 .done, .write 1 .done]

theorem target_stays_with_owner_max :
    ∃ now, (after (step (fun _ => []) replacing) ⟨fun _ => some maxHeld, []⟩ bothClaim).cells maxPlace = some now ∧
      now.ownerUid = some ['1'] ∧ (some ['1'] = none → now = maxHeld) ∧
      Relation.ReflTransGen (OwnWrite replacing (fun pass => .begin pass ∈ bothClaim) maxPlace maxHeld) maxHeld now :=
  target_stays_with_owner (fun _ => []) replacing ⟨fun _ => some maxHeld, []⟩ maxPlace maxHeld rfl (by simp) bothClaim
    (by simp [bothClaim])

end WeeboSi.Identity
