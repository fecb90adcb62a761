import WeeboSi.Gateway.Transparency
import WeeboSi.Lib.KeyedFold

/-!
# Key rotation

Source: bins/endpoint-gateway/src/state.rs:326-335, adapters/oidc.rs:136-155, 600-640,
http.rs:401-403 and crates/weebo-si-endpoint-auth/src/application.rs:210-249. Requests run
concurrently: reading the generation, recording it, clearing the cache, the lookup, the
verification, the insert and the last check are separate steps. `verify` is the verifier
over a key set. Each entry of the bearer cache is tagged with the generation it was verified
under, `newest` is the newest generation a request recorded and `sets` the key set of each
generation; nothing in the source reads these three.
-/
namespace WeeboSi.Gateway
open WeeboSi.Lib WeeboSi.EndpointAuth

inductive Phase where
  | begun
  | recorded (last : Nat)
  | dropped
  | missed
  | verified (claims : Claims) (expiresAt : Timestamp) (generation : Nat)
  | resolved (claims : Claims) (generation : Nat)
  | refused
  | answered (credential : Credential)
  deriving DecidableEq, Repr

/-- A request between its begin and its answer; `current` is the generation it read. -/
structure Flight where
  token : Text
  now : Timestamp
  current : Nat
  phase : Phase
  deriving DecidableEq, Repr

/-- The request has recorded a new generation and is about to clear the cache. -/
def Flight.clears (flight : Flight) : Bool :=
  match flight.phase with
  | .recorded last => last ≠ flight.current && last ≠ 0
  | _ => false

structure RotationState (K Key : Type) where
  keys : Option (List Key)
  generation : Nat
  keysGeneration : Nat
  bearers : IdentityCache K (Claims × Nat)
  flights : AList (fun _ : Nat => Flight)
  newest : Nat
  sets : Nat → List Key

/-- What a request does next. -/
inductive Action where
  | record | clear | lookup | verify | insert
  | answer (isRevoked : SessionId → Bool)

inductive RotationEvent (Key : Type) where
  | store (keys : List Key)
  | begin (id : Nat) (token : Text) (now : Timestamp)
  | step (id : Nat) (action : Action)

section Rotation
variable {K Key : Type} [DecidableEq K] (digest : List UInt8 → K)
  (verify : List Key → Text → Timestamp → TokenOutcome)

def rotationStart (capacity ttlSecs : Nat) : RotationState K Key where
  keys := none
  generation := 0
  keysGeneration := 0
  bearers := .new capacity ttlSecs
  flights := ∅
  newest := 0
  sets := fun _ => []

/-- `JwksCache::store`: the generation is bumped only when the set changed. -/
def storeKeys [DecidableEq Key] (s : RotationState K Key) (keys : List Key) : RotationState K Key :=
  if s.keys = some keys then s
  else
    { s with
      keys := some keys
      generation := s.generation + 1
      sets := fun generation => if generation = s.generation + 1 then keys else s.sets generation }

def setPhase (s : RotationState K Key) (id : Nat) (flight : Flight) (phase : Phase) :
    RotationState K Key :=
  { s with flights := s.flights.insert id { flight with phase } }

/-- One step of a request; an action out of its turn changes nothing. -/
def flightStep (s : RotationState K Key) (id : Nat) (flight : Flight) (action : Action) :
    RotationState K Key :=
  match action, flight.phase with
  | .record, .begun =>
    { setPhase s id flight (.recorded s.keysGeneration) with
      keysGeneration := flight.current
      newest := max s.newest flight.current }
  | .clear, .recorded _ =>
    { setPhase s id flight .dropped with
      bearers := if flight.clears then s.bearers.clear else s.bearers }
  | .lookup, .dropped =>
    let (hit, bearers) := s.bearers.get (fingerprint digest flight.token) flight.now
    match hit with
    | some (claims, generation) =>
      { setPhase s id flight (.resolved claims generation) with bearers }
    | none => { setPhase s id flight .missed with bearers }
  | .verify, .missed =>
    match s.keys.map fun keys => verify keys flight.token flight.now with
    | some (.ours claims expiresAt) =>
      setPhase s id flight (.verified claims expiresAt s.generation)
    | _ => setPhase s id flight .refused
  | .insert, .verified claims expiresAt generation =>
    { setPhase s id flight (.resolved claims generation) with
      bearers := s.bearers.insert (fingerprint digest flight.token) (claims, generation) expiresAt
        flight.now }
  | .answer isRevoked, .resolved claims _ =>
    if claims.session.any isRevoked then
      { setPhase s id flight (.answered .revokedSession) with
        bearers := s.bearers.forget (fingerprint digest flight.token) }
    else setPhase s id flight (.answered (.bearer claims))
  | _, _ => s

def rotationStep [DecidableEq Key] (s : RotationState K Key) : RotationEvent Key → RotationState K Key
  | .store keys => storeKeys s keys
  | .begin id token now =>
    if (s.flights.lookup id).isSome then s
    else { s with flights := s.flights.insert id ⟨token, now, s.generation, .begun⟩ }
  | .step id action =>
    match s.flights.lookup id with
    | some flight => flightStep digest verify s id flight action
    | none => s

/-! ## Retired keys, and when a run refuses them -/

/-- Only a key set with `key` lets the token through. -/
def SignedUnder (key : Key) (token : Text) : Prop :=
  ∀ keys now claims expiresAt, verify keys token now = .ours claims expiresAt → key ∈ keys

/-- No request is answered with a bearer that was signed under a key which no key set held
since the request began. -/
def RefusesRetired (s : RotationState K Key) : Prop :=
  ∀ id flight key, s.flights.lookup id = some flight → SignedUnder verify key flight.token →
    (∀ generation, flight.current ≤ generation → generation ≤ s.generation → key ∉ s.sets generation) →
    ∀ claims, flight.phase ≠ .answered (.bearer claims)

/-- Some request has recorded a generation and not cleared the cache yet. -/
def clearPending (s : RotationState K Key) : Bool := s.flights.entries.any fun entry => entry.2.clears

/-- The cache holds a bearer verified under an older generation. -/
def holdsOlder (s : RotationState K Key) (generation : Nat) : Bool :=
  s.bearers.entries.entries.any fun entry => entry.2.value.2 < generation

/-- No request records its generation over the initial 0 while the cache holds an older
bearer, none looks a bearer up while another is about to clear the cache, and none inserts a
bearer it verified before the newest generation that was recorded. -/
def orderly (s : RotationState K Key) : RotationEvent Key → Bool
  | .step id action =>
    match s.flights.lookup id with
    | some flight =>
      match action, flight.phase with
      | .record, .begun => s.keysGeneration ≠ 0 || !holdsOlder s flight.current
      | .lookup, .dropped => !clearPending s
      | .insert, .verified _ _ generation => s.newest ≤ generation
      | _, _ => true
    | none => true
  | _ => true

/-! ## What holds along an orderly run -/

/-- The key set of `generation`, current or past, proves `claims` by the token. -/
def ProvedUnder (s : RotationState K Key) (token : Text) (claims : Claims) (generation : Nat) : Prop :=
  generation ≤ s.generation ∧ ∃ now expiresAt, verify (s.sets generation) token now = .ours claims expiresAt

/-- How far each request has got: what it holds was proved since it began. -/
def Sound (s : RotationState K Key) (flight : Flight) : Prop :=
  flight.current ≤ s.generation ∧
  match flight.phase with
  | .recorded _ | .dropped => flight.current ≤ s.newest
  | .verified claims _ generation | .resolved claims generation =>
    flight.current ≤ generation ∧ ProvedUnder verify s flight.token claims generation
  | .answered (.bearer claims) =>
    ∃ generation, flight.current ≤ generation ∧ ProvedUnder verify s flight.token claims generation
  | _ => True

structure InForce (s : RotationState K Key) : Prop where
  recorded : s.keysGeneration ≤ s.newest
  published : ∀ keys, s.keys = some keys → s.sets s.generation = keys
  stored : s.bearers.All fun key entry => ∃ token, fingerprint digest token = key ∧
    ProvedUnder verify s token entry.value.1 entry.value.2
  fresh : clearPending s = true ∨ s.bearers.All fun _ entry => s.newest ≤ entry.value.2
  flights : ∀ id flight, s.flights.lookup id = some flight → Sound verify s flight

omit [DecidableEq K] in
theorem clearPending_iff (s : RotationState K Key) :
    clearPending s = true ↔ ∃ id flight, s.flights.lookup id = some flight ∧ flight.clears = true := by
  unfold clearPending
  rw [List.any_eq_true]
  constructor
  · intro given
    obtain ⟨⟨id, flight⟩, member, clears⟩ := given
    exact ⟨id, flight, AList.mem_lookup_iff.mpr member, clears⟩
  · intro given
    obtain ⟨id, flight, found, clears⟩ := given
    exact ⟨⟨id, flight⟩, AList.mem_lookup_iff.mp found, clears⟩

theorem all_of_not_holdsOlder (s : RotationState K Key) (generation : Nat)
    (young : holdsOlder s generation = false) :
    s.bearers.All fun _ entry => generation ≤ entry.value.2 := by
  intro key entry found
  unfold holdsOlder at young
  rw [List.any_eq_false] at young
  have := young ⟨key, entry⟩ (AList.mem_lookup_iff.mp found)
  simpa using this

omit [DecidableEq K] in
/-- Nothing that was proved is unproved by a later key set. -/
theorem ProvedUnder.mono {s s' : RotationState K Key} {token : Text} {claims : Claims} {generation : Nat}
    (later : s.generation ≤ s'.generation)
    (sets : ∀ generation ≤ s.generation, s'.sets generation = s.sets generation)
    (proved : ProvedUnder verify s token claims generation) :
    ProvedUnder verify s' token claims generation := by
  obtain ⟨past, now, expiresAt, ours⟩ := proved
  exact ⟨Nat.le_trans past later, now, expiresAt, by rw [sets generation past]; exact ours⟩

omit [DecidableEq K] in
theorem Sound.mono {s s' : RotationState K Key} {flight : Flight}
    (later : s.generation ≤ s'.generation) (newest : s.newest ≤ s'.newest)
    (sets : ∀ generation ≤ s.generation, s'.sets generation = s.sets generation)
    (sound : Sound verify s flight) : Sound verify s' flight := by
  obtain ⟨began, held⟩ := sound
  refine ⟨Nat.le_trans began later, ?_⟩
  split at held
  · exact Nat.le_trans held newest
  · exact Nat.le_trans held newest
  · exact ⟨held.1, held.2.mono verify later sets⟩
  · exact ⟨held.1, held.2.mono verify later sets⟩
  · obtain ⟨generation, since, proved⟩ := held
    exact ⟨generation, since, proved.mono verify later sets⟩
  · trivial

omit [DecidableEq K] in
theorem lookup_setPhase (s : RotationState K Key) (id other : Nat) (flight found : Flight) (phase : Phase)
    (h : (setPhase s id flight phase).flights.lookup other = some found) :
    other = id ∧ found = { flight with phase } ∨ other ≠ id ∧ s.flights.lookup other = some found :=
  lookup_insert_some s.flights id other { flight with phase } found h

omit [DecidableEq K] in
/-- A clear that is due stays due while another request takes a step. -/
theorem clearPending_setPhase (s : RotationState K Key) (id : Nat) (flight : Flight) (phase : Phase)
    (found : s.flights.lookup id = some flight) (idle : flight.clears = false)
    (pending : clearPending s = true) : clearPending (setPhase s id flight phase) = true := by
  rw [clearPending_iff] at pending ⊢
  obtain ⟨other, waiting, there, clears⟩ := pending
  refine ⟨other, waiting, ?_, clears⟩
  have different : other ≠ id := by
    intro same
    rw [same, found] at there
    cases there
    rw [clears] at idle
    cases idle
  rw [setPhase, AList.lookup_insert_ne different]
  exact there

variable (s : RotationState K Key) (id : Nat) (flight : Flight)

/-- A request moves on to a sound phase, and the bearer cache loses entries or gains proved
and fresh ones. -/
theorem InForce.advance (phase : Phase) (bearers : IdentityCache K (Claims × Nat))
    (inForce : InForce digest verify s)
    (stored : bearers.All fun key entry => ∃ token, fingerprint digest token = key ∧
      ProvedUnder verify s token entry.value.1 entry.value.2)
    (fresh : clearPending (setPhase s id flight phase) = true ∨
      bearers.All fun _ entry => s.newest ≤ entry.value.2)
    (sound : Sound verify s { flight with phase }) :
    InForce digest verify { setPhase s id flight phase with bearers } := by
  refine ⟨inForce.recorded, inForce.published, stored, fresh, ?_⟩
  intro other found there
  obtain ⟨rfl, rfl⟩ | ⟨_, old⟩ := lookup_setPhase s id other flight found phase there
  · exact sound
  · exact inForce.flights other found old

/-- As `advance`, with the cache as it was or with fewer entries. -/
theorem InForce.advance_kept (phase : Phase) (bearers : IdentityCache K (Claims × Nat))
    (inForce : InForce digest verify s) (there : s.flights.lookup id = some flight)
    (idle : flight.clears = false)
    (kept : ∀ P : K → Entry (Claims × Nat) → Prop, s.bearers.All P → bearers.All P)
    (sound : Sound verify s { flight with phase }) :
    InForce digest verify { setPhase s id flight phase with bearers } := by
  apply inForce.advance digest verify s id flight phase bearers
  · exact kept _ inForce.stored
  · rcases inForce.fresh with pending | young
    · exact .inl (clearPending_setPhase s id flight phase there idle pending)
    · exact .inr (kept _ young)
  · exact sound

theorem record_inForce (inForce : InForce digest verify s) (there : s.flights.lookup id = some flight)
    (phase : flight.phase = .begun)
    (young : s.keysGeneration ≠ 0 ∨ holdsOlder s flight.current = false) :
    InForce digest verify (flightStep digest verify s id flight .record) := by
  have began := (inForce.flights id flight there).1
  unfold flightStep
  rw [phase]
  refine ⟨Nat.le_max_right _ _, inForce.published, inForce.stored, ?_, ?_⟩
  · by_cases clears : s.keysGeneration ≠ flight.current ∧ s.keysGeneration ≠ 0
    · -- the request itself is about to clear the cache
      left
      rw [clearPending_iff]
      refine ⟨id, _, AList.lookup_insert _, ?_⟩
      simpa [Flight.clears] using clears
    · have idle : flight.clears = false := by simp [Flight.clears, phase]
      rcases inForce.fresh with pending | fresh
      · exact .inl (clearPending_setPhase s id flight _ there idle pending)
      · right
        have current : s.bearers.All fun _ entry => flight.current ≤ entry.value.2 := by
          rcases young with started | young
          · have same : s.keysGeneration = flight.current := by
              by_contra different
              exact clears ⟨different, started⟩
            intro key entry found
            exact Nat.le_trans (same ▸ inForce.recorded) (fresh key entry found)
          · exact all_of_not_holdsOlder s flight.current young
        intro key entry found
        exact Nat.max_le.mpr ⟨fresh key entry found, current key entry found⟩
  · intro other found lookup
    obtain ⟨rfl, rfl⟩ | ⟨_, old⟩ := lookup_setPhase s id other flight found _ lookup
    · exact ⟨began, Nat.le_max_right _ _⟩
    · refine Sound.mono verify ?_ ?_ ?_ (inForce.flights other found old)
      · exact Nat.le_refl _
      · exact Nat.le_max_left _ _
      · exact fun _ _ => rfl

theorem clear_inForce (inForce : InForce digest verify s) (there : s.flights.lookup id = some flight)
    (last : Nat) (phase : flight.phase = .recorded last) :
    InForce digest verify (flightStep digest verify s id flight .clear) := by
  have sound := inForce.flights id flight there
  unfold Sound at sound
  rw [phase] at sound
  unfold flightStep
  rw [phase]
  cases clears : flight.clears with
  | true =>
    apply inForce.advance digest verify s id flight .dropped
    · exact IdentityCache.all_clear _ _
    · exact .inr (IdentityCache.all_clear _ _)
    · exact sound
  | false =>
    exact inForce.advance_kept digest verify s id flight .dropped _ there clears (fun _ all => all) sound

theorem lookup_inForce (collisionFree : Function.Injective digest) (inForce : InForce digest verify s)
    (there : s.flights.lookup id = some flight) (phase : flight.phase = .dropped)
    (quiet : clearPending s = false) :
    InForce digest verify (flightStep digest verify s id flight .lookup) := by
  have sound := inForce.flights id flight there
  unfold Sound at sound
  rw [phase] at sound
  have idle : flight.clears = false := by simp [Flight.clears, phase]
  have kept : ∀ P : K → Entry (Claims × Nat) → Prop, s.bearers.All P →
      (s.bearers.get (fingerprint digest flight.token) flight.now).2.All P :=
    fun P all => IdentityCache.all_get P _ _ _ all
  unfold flightStep
  rw [phase]
  dsimp only
  cases hit : (s.bearers.get (fingerprint digest flight.token) flight.now).1 with
  | none => exact inForce.advance_kept digest verify s id flight .missed _ there idle kept ⟨sound.1, trivial⟩
  | some value =>
    obtain ⟨claims, generation⟩ := value
    apply inForce.advance_kept digest verify s id flight _ _ there idle kept
    obtain ⟨entry, found, -, same⟩ := (IdentityCache.get_eq_some _ _ _ _).mp hit
    obtain ⟨token, shared, proved⟩ := inForce.stored _ entry found
    obtain rfl := fingerprint_injective digest collisionFree shared
    rw [same] at proved
    -- nobody is about to clear the cache, so what it holds is as new as what was recorded
    have young : s.newest ≤ generation := by
      rcases inForce.fresh with pending | young
      · rw [quiet] at pending
        cases pending
      · have newest : s.newest ≤ entry.value.2 := young _ entry found
        rwa [same] at newest
    exact ⟨sound.1, Nat.le_trans sound.2 young, proved⟩

theorem verify_inForce (inForce : InForce digest verify s) (there : s.flights.lookup id = some flight)
    (phase : flight.phase = .missed) :
    InForce digest verify (flightStep digest verify s id flight .verify) := by
  have began := (inForce.flights id flight there).1
  have idle : flight.clears = false := by simp [Flight.clears, phase]
  unfold flightStep
  rw [phase]
  dsimp only
  split
  · rename_i claims expiresAt answer
    obtain ⟨keys, loaded, ours⟩ := Option.map_eq_some_iff.mp answer
    apply inForce.advance_kept digest verify s id flight _ _ there idle (fun _ all => all)
    refine ⟨began, began, Nat.le_refl _, flight.now, expiresAt, ?_⟩
    rw [inForce.published keys loaded]
    exact ours
  · exact inForce.advance_kept digest verify s id flight .refused _ there idle (fun _ all => all)
      ⟨began, trivial⟩

theorem insert_inForce (inForce : InForce digest verify s) (there : s.flights.lookup id = some flight)
    (claims : Claims) (expiresAt : Timestamp) (generation : Nat)
    (phase : flight.phase = .verified claims expiresAt generation) (young : s.newest ≤ generation) :
    InForce digest verify (flightStep digest verify s id flight .insert) := by
  have sound := inForce.flights id flight there
  unfold Sound at sound
  rw [phase] at sound
  have idle : flight.clears = false := by simp [Flight.clears, phase]
  unfold flightStep
  rw [phase]
  apply inForce.advance digest verify s id flight
  · apply IdentityCache.all_insert _ _ _ _ _ _ inForce.stored
    intro entry same _ _ _
    rw [same]
    exact ⟨flight.token, rfl, sound.2.2⟩
  · rcases inForce.fresh with pending | fresh
    · exact .inl (clearPending_setPhase s id flight _ there idle pending)
    · right
      apply IdentityCache.all_insert _ _ _ _ _ _ fresh
      intro entry same _ _ _
      rw [same]
      exact young
  · exact sound

theorem answer_inForce (inForce : InForce digest verify s) (there : s.flights.lookup id = some flight)
    (claims : Claims) (generation : Nat) (isRevoked : SessionId → Bool)
    (phase : flight.phase = .resolved claims generation) :
    InForce digest verify (flightStep digest verify s id flight (.answer isRevoked)) := by
  have sound := inForce.flights id flight there
  unfold Sound at sound
  rw [phase] at sound
  have idle : flight.clears = false := by simp [Flight.clears, phase]
  unfold flightStep
  rw [phase]
  dsimp only
  split
  · exact inForce.advance_kept digest verify s id flight _ _ there idle
      (fun P all => IdentityCache.all_forget P _ _ all) ⟨sound.1, trivial⟩
  · exact inForce.advance_kept digest verify s id flight _ _ there idle (fun _ all => all)
      ⟨sound.1, generation, sound.2.1, sound.2.2⟩

theorem begin_inForce (inForce : InForce digest verify s) (token : Text) (now : Timestamp)
    (absent : s.flights.lookup id = none) :
    InForce digest verify
      { s with flights := s.flights.insert id ⟨token, now, s.generation, .begun⟩ } := by
  refine ⟨inForce.recorded, inForce.published, inForce.stored, ?_, ?_⟩
  · rcases inForce.fresh with pending | fresh
    · left
      rw [clearPending_iff] at pending ⊢
      obtain ⟨other, waiting, there, clears⟩ := pending
      exact ⟨other, waiting, lookup_insert_absent _ id other _ waiting absent there, clears⟩
    · exact .inr fresh
  · intro other found there
    rcases lookup_insert_some _ id other _ found there with ⟨_, rfl⟩ | ⟨_, old⟩
    · exact ⟨Nat.le_refl _, trivial⟩
    · exact inForce.flights other found old

theorem flightStep_inForce (collisionFree : Function.Injective digest) (action : Action)
    (inForce : InForce digest verify s) (there : s.flights.lookup id = some flight)
    (turn : orderly s (.step id action) = true) :
    InForce digest verify (flightStep digest verify s id flight action) := by
  simp only [orderly, there] at turn
  -- the seven steps a request has, in its order, and every action out of its turn
  cases action with
  | record =>
    cases phase : flight.phase with
    | begun =>
      simp only [phase, Bool.or_eq_true, decide_eq_true_eq, Bool.not_eq_true'] at turn
      exact record_inForce digest verify s id flight inForce there phase turn
    | _ => simpa [flightStep, phase] using inForce
  | clear =>
    cases phase : flight.phase with
    | recorded last => exact clear_inForce digest verify s id flight inForce there last phase
    | _ => simpa [flightStep, phase] using inForce
  | lookup =>
    cases phase : flight.phase with
    | dropped =>
      simp only [phase, Bool.not_eq_true'] at turn
      exact lookup_inForce digest verify s id flight collisionFree inForce there phase turn
    | _ => simpa [flightStep, phase] using inForce
  | verify =>
    cases phase : flight.phase with
    | missed => exact verify_inForce digest verify s id flight inForce there phase
    | _ => simpa [flightStep, phase] using inForce
  | insert =>
    cases phase : flight.phase with
    | verified claims expiresAt generation =>
      simp only [phase, decide_eq_true_eq] at turn
      exact insert_inForce digest verify s id flight inForce there claims expiresAt generation phase turn
    | _ => simpa [flightStep, phase] using inForce
  | answer isRevoked =>
    cases phase : flight.phase with
    | resolved claims generation =>
      exact answer_inForce digest verify s id flight inForce there claims generation isRevoked phase
    | _ => simpa [flightStep, phase] using inForce

theorem refusesRetired_of_inForce (inForce : InForce digest verify s) : RefusesRetired verify s := by
  intro id flight key there signed retired claims phase
  have sound := inForce.flights id flight there
  unfold Sound at sound
  rw [phase] at sound
  obtain ⟨generation, since, past, now, expiresAt, ours⟩ := sound.2
  exact retired generation since past (signed _ _ _ _ ours)

variable [DecidableEq Key]

theorem store_inForce (inForce : InForce digest verify s) (keys : List Key) :
    InForce digest verify (storeKeys s keys) := by
  unfold storeKeys
  split
  · exact inForce
  · have sets : ∀ generation ≤ s.generation,
        (if generation = s.generation + 1 then keys else s.sets generation) = s.sets generation :=
      fun generation past => if_neg (by omega)
    refine ⟨inForce.recorded, ?_, ?_, inForce.fresh, ?_⟩
    · intro others same
      obtain rfl := Option.some.inj same
      exact if_pos rfl
    · intro key entry found
      obtain ⟨token, shared, proved⟩ := inForce.stored key entry found
      exact ⟨token, shared, proved.mono verify (Nat.le_succ _) sets⟩
    · intro other found there
      exact (inForce.flights other found there).mono verify (Nat.le_succ _) (Nat.le_refl _) sets

theorem rotationStep_inForce (collisionFree : Function.Injective digest) (event : RotationEvent Key)
    (inForce : InForce digest verify s) (turn : orderly s event = true) :
    InForce digest verify (rotationStep digest verify s event) := by
  cases event with
  | store keys => exact store_inForce digest verify s inForce keys
  | begin id token now =>
    cases there : s.flights.lookup id with
    | some flight => simpa only [rotationStep, there, Option.isSome_some, if_true] using inForce
    | none =>
      simp only [rotationStep, there, Option.isSome_none, Bool.false_eq_true, if_false]
      exact begin_inForce digest verify s id inForce token now there
  | step id action =>
    cases there : s.flights.lookup id with
    | some flight =>
      simp only [rotationStep, there]
      exact flightStep_inForce digest verify s id flight collisionFree action inForce there turn
    | none => simpa only [rotationStep, there] using inForce

/-- In every interleaving whose steps are orderly, no request is answered with a bearer of a
key that was retired before it began. -/
theorem retired_key_refused (collisionFree : Function.Injective digest) (capacity ttlSecs : Nat)
    (events : List (RotationEvent Key))
    (run : Along (rotationStep digest verify) (fun s event => orderly s event = true)
      (rotationStart capacity ttlSecs) events) :
    RefusesRetired verify (after (rotationStep digest verify) (rotationStart capacity ttlSecs) events) := by
  apply refusesRetired_of_inForce digest verify
  apply after_of_invariant _ (InForce digest verify) _ _ _ _ events run
  · exact fun s event inForce turn =>
      rotationStep_inForce digest verify s collisionFree event inForce turn
  · refine ⟨Nat.le_refl _, ?_, IdentityCache.all_new _ _ _, .inr (IdentityCache.all_new _ _ _), ?_⟩
    · intro keys loaded
      cases loaded
    · intro id flight there
      cases there

end Rotation

/-! ## A bearer of a retired key -/

def shortToken : Text := ['h', '.', 'p', '.', 's']

/-- The verifier of alice's issuer, which signed `shortToken` under its key `'k'`. -/
def aliceVerify (keys : List Char) (token : Text) (now : Timestamp) : TokenOutcome :=
  JwksVerifier.verify
    { aliceVerifier with
      decodeVerified := fun token =>
        if 'k' ∈ keys ∧ token = shortToken then .ok aliceClaims else .error .unverifiable }
    (fun _ => false) token now

theorem aliceVerify_signed (token : Text) : SignedUnder aliceVerify 'k' token := by
  intro keys now claims expiresAt ours
  obtain ⟨value, proves, -⟩ := (JwksVerifier.verify_eq_ours _ _ _ _ _ _).mp ours
  by_contra absent
  have decoded := proves.decoded
  simp only [absent, false_and, if_false] at decoded
  cases decoded

/-- A request with alice's token, from its begin to the lookup. -/
def aliceLookup (id : Nat) : List (RotationEvent Char) :=
  [.begin id shortToken ⟨100, hundred_le_u64Max⟩, .step id .record, .step id .clear, .step id .lookup]

theorem retired_key_refused_serial :
    let events := .store ['k'] :: aliceLookup 1 ++ [.step 1 .verify, .step 1 .insert,
      .step 1 (.answer fun _ => false), .store []] ++ aliceLookup 2 ++ [.step 2 .verify]
    let s := after (rotationStep id aliceVerify) (rotationStart 16 3600) events
    (s.flights.lookup 2).map Flight.phase = some .refused ∧ RefusesRetired aliceVerify s := by
  refine ⟨by decide +kernel, ?_⟩
  apply retired_key_refused id aliceVerify Function.injective_id
  simp only [aliceLookup, List.cons_append, List.nil_append, Along]
  decide +kernel

/-- The first request verifies the token and is held up; the key is retired and the second
request clears the cache; then the first inserts what it verified and the third is served it. -/
def lateInsert : List (RotationEvent Char) :=
  .store ['k'] :: aliceLookup 1 ++ [.step 1 .verify, .store []] ++ aliceLookup 2 ++ [.step 1 .insert] ++
    aliceLookup 3 ++ [.step 3 (.answer fun _ => false)]

theorem retired_key_served_late :
    ¬ ∀ (capacity ttlSecs : Nat) (events : List (RotationEvent Char)),
      RefusesRetired aliceVerify
        (after (rotationStep id aliceVerify) (rotationStart capacity ttlSecs) events) := by
  intro refuses
  have newest : (after (rotationStep id aliceVerify) (rotationStart 16 3600) lateInsert).generation = 2 := by
    decide +kernel
  refine refuses 16 3600 lateInsert 3
    ⟨shortToken, ⟨100, by decide⟩, 2, .answered (.bearer ⟨"alice".toList, [], none, some "s1".toList⟩)⟩
    'k' (by decide +kernel) (aliceVerify_signed shortToken) ?_ _ rfl
  intro generation since past
  rw [newest] at past
  obtain rfl : generation = 2 := Nat.le_antisymm past since
  decide +kernel

end WeeboSi.Gateway
