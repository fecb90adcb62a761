import WeeboSi.Gateway.SingleFlight

/-!
# Keys that have proven themselves

Source: bins/endpoint-gateway/src/adapters/kube_workload.rs:195-213, 316-443, 616-631 and
adapters/oidc.rs:103-220. A failed signature refuses a token only under a `kid` that has
verified a token the apiserver accepted. Calls run concurrently with each other and with
the refresh of the keys: the signature check, each read of the generation, each lock of the
proven set, joining, answering and leaving are separate steps. Calls that the caches answer
never begin here. `accepted` holds the tokens the apiserver authenticated, `sets` the key set of
each generation and `checkedAt` the generation a call's signature was checked at; nothing in the
source reads these three.
-/
namespace WeeboSi.Gateway.ProvenKeys
open WeeboSi.Lib WeeboSi.EndpointAuth WeeboSi.Gateway.SingleFlight

/-! ## The signature alone -/

inductive Algorithm where
  | hs256 | hs384 | hs512 | es256 | es384 | rs256 | rs384 | rs512 | ps256 | ps384 | ps512 | edDsa
  deriving DecidableEq, Repr

structure Header where
  kid : Option Text
  alg : Algorithm
  deriving DecidableEq, Repr

/-- Decoding and cryptography are third-party; `none` is an error. -/
structure JsonWebToken (Jwk Key : Type) where
  decodeHeader : Text → Option Header
  keyId : Jwk → Option Text
  decodingKey : Jwk → Option Key
  verify : Text → Text → Key → Algorithm → Option Bool

inductive KeyLookup (Key : Type) where
  | noKeys
  | unknown
  | unusable
  | found (key : Key)
  deriving DecidableEq, Repr

/-- What `offline` knows before it asks whether the key is proven. -/
inductive Signature where
  | undecided
  | valid (kid : Text)
  | failed (kid : Text)
  deriving DecidableEq, Repr

section Check
variable {Jwk Key : Type} (jwt : JsonWebToken Jwk Key)

def decoding (keys : List Jwk) : List (Text × Option Key) :=
  keys.filterMap fun jwk => (jwt.keyId jwk).map fun kid => (kid, jwt.decodingKey jwk)

/-- `JwksCache::key`: the last key of the set under a `kid` is the one. -/
def keyUnder (keys : Option (List Jwk)) (kid : Text) : KeyLookup Key :=
  match keys with
  | none => .noKeys
  | some keys =>
    match (decoding jwt keys).reverse.lookup kid with
    | none => .unknown
    | some none => .unusable
    | some (some key) => .found key

def Algorithm.checkedOffline : Algorithm → Bool
  | .rs256 | .rs384 | .rs512 | .es256 => true
  | _ => false

def checkSignature (keys : Option (List Jwk)) (token : Text) : Signature :=
  match jwt.decodeHeader token with
  | none => .undecided
  | some header =>
    match header.kid with
    | none => .undecided
    | some kid =>
      if header.alg.checkedOffline then
        match keyUnder jwt keys kid with
        | .found key =>
          match rsplitOnce '.' token with
          | some (message, signature) =>
            match jwt.verify signature message key header.alg with
            | some true => .valid kid
            | some false => .failed kid
            | none => .undecided
          | none => .undecided
        | _ => .undecided
      else .undecided

/-- A signature that holds does so under the key of its own `kid`, whatever else is published. -/
theorem checkSignature_congr {keys keys' : Option (List Jwk)} {token kid : Text}
    (same : keyUnder jwt keys' kid = keyUnder jwt keys kid)
    (valid : checkSignature jwt keys token = .valid kid) : checkSignature jwt keys' token = .valid kid := by
  unfold checkSignature at valid ⊢
  cases decoded : jwt.decodeHeader token with
  | none => simp [decoded] at valid
  | some header =>
    cases named : header.kid with
    | none => simp [decoded, named] at valid
    | some own =>
      simp only [decoded, named] at valid ⊢
      have its : own = kid := by
        repeat' split at valid
        all_goals cases valid
        rfl
      rw [its] at valid ⊢
      rwa [same]

end Check

/-! ## The apiserver's answer -/

structure ReviewStatus where
  authenticated : Option Bool
  /-- The user, and its name. -/
  user : Option (Option Text)
  deriving DecidableEq, Repr

def ReviewStatus.accepts (status : ReviewStatus) : Bool := status.authenticated.getD false

def namespaceOfReview (reviewed : Option ReviewStatus) : Option NamespaceName := do
  let status ← reviewed
  if !status.accepts then none
  else
    let user ← status.user
    let username ← user
    let name ← username.dropPrefix? "system:serviceaccount:".toList
    (name.splitOn ':').head?

theorem namespaceOfReview_accepts (reviewed : Option ReviewStatus) (name : NamespaceName)
    (named : namespaceOfReview reviewed = some name) :
    ∃ status, reviewed = some status ∧ status.accepts = true := by
  cases reviewed with
  | none => cases named
  | some status =>
    refine ⟨status, rfl, ?_⟩
    by_contra refused
    rw [namespaceOfReview, Option.bind_eq_bind, Option.bind_some, if_pos (by simpa using refused)] at named
    cases named

/-! ## Calls -/

inductive Phase where
  | begun
  /-- The signature does not hold under `kid`. -/
  | failed (kid : Text)
  /-- `is_proven` has read the generation. -/
  | asking (kid : Text) (generation : Nat)
  /-- `Offline::Forged`, at the generation that was read. -/
  | forged (kid : Text) (generation : Nat)
  /-- `Offline::Valid` under a `kid`, or `Offline::Undecided`. -/
  | checked (valid : Option Text)
  | waiting (valid : Option Text)
  | reviewing (valid : Option Text)
  | cancelled
  | answered (valid : Option Text) (answer : Option NamespaceName)
  | left (valid : Option Text) (answer : Option NamespaceName)
  /-- `prove` has read the generation. -/
  | proving (kid : Text) (generation : Nat)
  | done
  deriving DecidableEq, Repr

/-- The `kid` a call will prove, once its review comes back good. -/
def Phase.valid : Phase → Option Text
  | .checked valid | .waiting valid | .reviewing valid | .answered valid _ | .left valid _ => valid
  | _ => none

structure Call where
  token : Text
  phase : Phase
  checkedAt : Nat
  deriving DecidableEq, Repr

structure ReviewerState (K Jwk : Type) where
  keys : Option (List Jwk)
  generation : Nat
  proven : Nat × List Text
  inFlight : InFlight K (Option NamespaceName)
  calls : AList (fun _ : Nat => Call)
  accepted : List Text
  sets : Nat → Option (List Jwk)

/-- What a call does next. -/
inductive Action where
  | offline | readGeneration | lookProven | join | start
  /-- The review ends, with the status the apiserver gave, if any. -/
  | complete (reviewed : Option ReviewStatus)
  | observe | cancel | leave | record

inductive ReviewerEvent (Jwk : Type) where
  | store (keys : List Jwk)
  | begin (id : Nat) (token : Text)
  | step (id : Nat) (action : Action)

section Reviewer
variable {K Jwk Key : Type} [DecidableEq K] (digest : List UInt8 → K) (jwt : JsonWebToken Jwk Key)

def reviewerStart : ReviewerState K Jwk where
  keys := none
  generation := 0
  proven := (0, [])
  inFlight := idle
  calls := ∅
  accepted := []
  sets := fun _ => none

/-- `JwksCache::store`: the generation is bumped only when the set changed. -/
def storeKeys [DecidableEq Jwk] (s : ReviewerState K Jwk) (keys : List Jwk) : ReviewerState K Jwk :=
  if s.keys = some keys then s
  else
    { s with
      keys := some keys
      generation := s.generation + 1
      sets := Function.update s.sets (s.generation + 1) (some keys) }

/-- What is proven at `generation`: nothing, once it is not the generation of the set. -/
def provenAt (proven : Nat × List Text) (generation : Nat) : List Text :=
  if proven.1 = generation then proven.2 else []

def setPhase (s : ReviewerState K Jwk) (id : Nat) (call : Call) (phase : Phase) : ReviewerState K Jwk :=
  { s with calls := s.calls.insert id { call with phase } }

/-- The call moves on, and takes its step in the in-flight map. -/
def advance (s : ReviewerState K Jwk) (id : Nat) (call : Call) (phase : Phase)
    (event : FlightEvent (Option NamespaceName)) : ReviewerState K Jwk :=
  { setPhase s id call phase with inFlight := flightStep digest s.inFlight event }

def cellOf (s : ReviewerState K Jwk) (id : Nat) : Option (CellState (Option NamespaceName)) :=
  (s.inFlight.held.lookup id).map s.inFlight.cells

/-- One step of a call; an action out of its turn changes nothing. -/
def callStep (s : ReviewerState K Jwk) (id : Nat) (call : Call) (action : Action) : ReviewerState K Jwk :=
  match action, call.phase with
  | .offline, .begun =>
    match checkSignature jwt s.keys call.token with
    | .valid kid => setPhase s id { call with checkedAt := s.generation } (.checked (some kid))
    | .failed kid => setPhase s id call (.failed kid)
    | .undecided => setPhase s id call (.checked none)
  | .readGeneration, .failed kid => setPhase s id call (.asking kid s.generation)
  | .lookProven, .asking kid generation =>
    let kids := provenAt s.proven generation
    { setPhase s id call (if kids.contains kid then .forged kid generation else .checked none) with
      proven := (generation, kids) }
  | .join, .checked valid => advance digest s id call (.waiting valid) (.arrive id call.token)
  | .start, .waiting valid =>
    match cellOf s id with
    | some .empty => advance digest s id call (.reviewing valid) (.start id)
    | _ => s
  | .complete reviewed, .reviewing valid =>
    let answer := namespaceOfReview reviewed
    { advance digest s id call (.answered valid answer) (.complete id answer) with
      accepted := if reviewed.any ReviewStatus.accepts then call.token :: s.accepted else s.accepted }
  | .observe, .waiting valid =>
    match cellOf s id with
    | some (.initialized answer) => setPhase s id call (.answered valid answer)
    | _ => s
  | .cancel, .waiting _ => setPhase s id call .cancelled
  | .cancel, .reviewing _ => advance digest s id call .cancelled (.abandon id)
  | .leave, .cancelled => advance digest s id call .done (.leave id)
  | .leave, .answered valid answer => advance digest s id call (.left valid answer) (.leave id)
  | .readGeneration, .left (some kid) (some _) => setPhase s id call (.proving kid s.generation)
  | .record, .proving kid generation =>
    { setPhase s id call .done with
      proven := (generation, (provenAt s.proven generation).insert kid) }
  | _, _ => s

def reviewerStep [DecidableEq Jwk] (s : ReviewerState K Jwk) : ReviewerEvent Jwk → ReviewerState K Jwk
  | .store keys => storeKeys s keys
  | .begin id token =>
    if (s.calls.lookup id).isSome then s
    else { s with calls := s.calls.insert id ⟨token, .begun, s.generation⟩ }
  | .step id action =>
    match s.calls.lookup id with
    | some call => callStep digest jwt s id call action
    | none => s

/-! ## Proofs of a key, and when a run records no other -/

/-- The apiserver accepted a token whose signature holds under the key that `generation`
publishes as `kid`. -/
def ProvedUnder (s : ReviewerState K Jwk) (kid : Text) (generation : Nat) : Prop :=
  ∃ token ∈ s.accepted, checkSignature jwt (s.sets generation) token = .valid kid

/-- A `kid` is proven, and a token refused as forged under it, only at a generation whose own
key proved it. -/
structure OwnProof (s : ReviewerState K Jwk) : Prop where
  proven : ∀ kid ∈ s.proven.2, ProvedUnder jwt s kid s.proven.1
  forged : ∀ id call kid generation, s.calls.lookup id = some call →
    call.phase = .forged kid generation → ProvedUnder jwt s kid generation

/-- When `prove` reads the generation, no store since the signature was checked has put another key
under the `kid`, unless that one verifies the token as well or the `kid` is proven already. -/
def keyStands [DecidableEq Key] (s : ReviewerState K Jwk) : ReviewerEvent Jwk → Bool
  | .step id .readGeneration =>
    match s.calls.lookup id with
    | some call =>
      match call.phase with
      | .left (some kid) (some _) =>
        keyUnder jwt s.keys kid = keyUnder jwt (s.sets call.checkedAt) kid ||
          checkSignature jwt s.keys call.token = .valid kid || (provenAt s.proven s.generation).contains kid
      | _ => true
    | none => true
  | _ => true

/-! ## What holds along such a run -/

/-- The signature held under the key that was published when it was checked. -/
def HeldWhenChecked (s : ReviewerState K Jwk) (call : Call) (kid : Text) : Prop :=
  call.checkedAt ≤ s.generation ∧ checkSignature jwt (s.sets call.checkedAt) call.token = .valid kid

/-- What a call was answered came from the apiserver, and what it is about to record or has been
refused by was proved. -/
def Settled (s : ReviewerState K Jwk) (call : Call) : Prop :=
  match call.phase with
  | .forged kid generation | .proving kid generation =>
    generation ≤ s.generation ∧ ProvedUnder jwt s kid generation
  | .answered _ (some _) | .left _ (some _) => call.token ∈ s.accepted
  | _ => True

/-- How far each call has got. -/
structure Sound (s : ReviewerState K Jwk) (call : Call) : Prop where
  checked : ∀ kid, call.phase.valid = some kid → HeldWhenChecked jwt s call kid
  settled : Settled jwt s call

structure Grounded (s : ReviewerState K Jwk) : Prop where
  published : s.sets s.generation = s.keys
  /-- A good answer is of a token the apiserver accepted. -/
  cells : ∀ cell name, s.inFlight.cells cell = .initialized (some name) →
    ∃ token ∈ s.accepted, fingerprint digest token = cell.1
  held : ∀ id cell, s.inFlight.held.lookup id = some cell →
    ∃ call, s.calls.lookup id = some call ∧ fingerprint digest call.token = cell.1
  proven : ∀ kid ∈ s.proven.2, s.proven.1 ≤ s.generation ∧ ProvedUnder jwt s kid s.proven.1
  calls : ∀ id call, s.calls.lookup id = some call → Sound jwt s call

omit [DecidableEq K] in
theorem ownProof_of_grounded (s : ReviewerState K Jwk) (grounded : Grounded digest jwt s) : OwnProof jwt s := by
  constructor
  · intro kid member
    exact (grounded.proven kid member).2
  · intro id call kid generation there phase
    have settled := (grounded.calls id call there).settled
    unfold Settled at settled
    rw [phase] at settled
    exact settled.2

omit [DecidableEq K] in
/-- Nothing that was proved is unproved by a later key set or a later answer. -/
theorem ProvedUnder.mono {s s' : ReviewerState K Jwk} {kid : Text} {generation : Nat}
    (proved : ProvedUnder jwt s kid generation) (more : s.accepted ⊆ s'.accepted)
    (same : s'.sets generation = s.sets generation) : ProvedUnder jwt s' kid generation := by
  obtain ⟨token, accepted, valid⟩ := proved
  exact ⟨token, more accepted, by rw [same]; exact valid⟩

omit [DecidableEq K] in
theorem Sound.mono {s s' : ReviewerState K Jwk} {call : Call} (sound : Sound jwt s call)
    (more : s.accepted ⊆ s'.accepted) (later : s.generation ≤ s'.generation)
    (sets : ∀ generation ≤ s.generation, s'.sets generation = s.sets generation) : Sound jwt s' call := by
  constructor
  · intro kid valid
    obtain ⟨past, held⟩ := sound.checked kid valid
    exact ⟨Nat.le_trans past later, by rw [sets _ past]; exact held⟩
  · have settled := sound.settled
    unfold Settled at settled ⊢
    split at settled
    · exact ⟨Nat.le_trans settled.1 later, settled.2.mono jwt more (sets _ settled.1)⟩
    · exact ⟨Nat.le_trans settled.1 later, settled.2.mono jwt more (sets _ settled.1)⟩
    · exact more settled
    · exact more settled
    · trivial

omit [DecidableEq K] in
/-- A call that proves nothing when it ends. -/
theorem Sound.unchecked {s : ReviewerState K Jwk} {call : Call} (nothing : call.phase.valid = none)
    (settled : Settled jwt s call) : Sound jwt s call := by
  refine ⟨?_, settled⟩
  intro kid valid
  cases nothing.symm.trans valid

omit [DecidableEq K] in
/-- A call that keeps what its signature check found. -/
theorem Sound.next {s : ReviewerState K Jwk} {call : Call} (sound : Sound jwt s call) {phase : Phase}
    (same : phase.valid = call.phase.valid) (settled : Settled jwt s { call with phase }) :
    Sound jwt s { call with phase } := by
  refine ⟨?_, settled⟩
  intro kid valid
  exact sound.checked kid (same ▸ valid)

omit [DecidableEq K] in
theorem grounded_start : Grounded digest jwt (reviewerStart : ReviewerState K Jwk) := by
  constructor
  · rfl
  · intro cell name answered
    cases answered
  · intro id cell holds
    cases holds
  · intro kid member
    cases member
  · intro id call there
    cases there

omit [DecidableEq K] in
theorem storeKeys_grounded [DecidableEq Jwk] (s : ReviewerState K Jwk) (keys : List Jwk)
    (grounded : Grounded digest jwt s) : Grounded digest jwt (storeKeys s keys) := by
  unfold storeKeys
  split
  · exact grounded
  · have sets : ∀ generation ≤ s.generation,
        Function.update s.sets (s.generation + 1) (some keys) generation = s.sets generation :=
      fun generation past => Function.update_of_ne (by omega) _ _
    constructor
    · exact Function.update_self _ _ _
    · exact grounded.cells
    · exact grounded.held
    · intro kid member
      obtain ⟨past, proved⟩ := grounded.proven kid member
      exact ⟨Nat.le_succ_of_le past, proved.mono jwt (fun _ given => given) (sets _ past)⟩
    · intro id call there
      exact (grounded.calls id call there).mono jwt (fun _ given => given) (Nat.le_succ _) sets

variable (s : ReviewerState K Jwk) (id : Nat) (call : Call)

omit [DecidableEq K] in
theorem begin_grounded (token : Text) (grounded : Grounded digest jwt s) (absent : s.calls.lookup id = none) :
    Grounded digest jwt { s with calls := s.calls.insert id ⟨token, .begun, s.generation⟩ } := by
  refine ⟨grounded.published, grounded.cells, ?_, grounded.proven, ?_⟩
  · intro other cell holds
    obtain ⟨call, there, same⟩ := grounded.held other cell holds
    exact ⟨call, lookup_insert_absent _ _ _ _ _ absent there, same⟩
  · intro other call there
    rcases lookup_insert_some _ _ _ _ _ there with ⟨_, new⟩ | ⟨_, old⟩
    · rw [new]
      exact .unchecked jwt rfl trivial
    · exact (grounded.calls other call old).mono jwt (fun _ given => given) (Nat.le_refl _) (fun _ _ => rfl)

omit [DecidableEq K] in
/-- A call moves on to a sound phase; the proven set holds proved keys only, and the call's
step in the map is of its own token. -/
theorem Grounded.advance (phase : Phase) (proven : Nat × List Text) (accepted : List Text)
    (inFlight : InFlight K (Option NamespaceName))
    (grounded : Grounded digest jwt s) (there : (s.calls.lookup id).map Call.token = some call.token)
    (kept : ∀ kid ∈ proven.2, proven.1 ≤ s.generation ∧ ProvedUnder jwt s kid proven.1)
    (more : s.accepted ⊆ accepted)
    (cells : ∀ cell name, inFlight.cells cell = .initialized (some name) →
      ∃ token ∈ accepted, fingerprint digest token = cell.1)
    (held : ∀ other cell, inFlight.held.lookup other = some cell → s.inFlight.held.lookup other = some cell ∨
      other = id ∧ fingerprint digest call.token = cell.1)
    (sound : Sound jwt { s with accepted } { call with phase }) :
    Grounded digest jwt { setPhase s id call phase with proven, accepted, inFlight } := by
  refine ⟨grounded.published, cells, ?_, ?_, ?_⟩
  · intro other cell holds
    have moved : (s.calls.insert id { call with phase }).lookup id = some { call with phase } :=
      AList.lookup_insert _
    rcases held other cell holds with old | ⟨rfl, same⟩
    · obtain ⟨found, there', same⟩ := grounded.held other cell old
      by_cases equal : other = id
      · rw [equal] at there'
        rw [there'] at there
        rw [Option.some.inj there] at same
        exact ⟨{ call with phase }, by rw [equal]; exact moved, same⟩
      · exact ⟨found, (AList.lookup_insert_ne equal).trans there', same⟩
    · exact ⟨{ call with phase }, moved, same⟩
  · intro kid member
    obtain ⟨past, proved⟩ := kept kid member
    exact ⟨past, proved.mono jwt more rfl⟩
  · intro other found there'
    rcases lookup_insert_some _ _ _ _ _ there' with ⟨_, new⟩ | ⟨_, old⟩
    · rw [new]
      exact sound.mono jwt (fun _ given => given) (Nat.le_refl _) (fun _ _ => rfl)
    · exact (grounded.calls other found old).mono jwt more (Nat.le_refl _) (fun _ _ => rfl)

omit [DecidableEq K] in
/-- As `advance`, with the map left alone and no new answer. -/
theorem Grounded.proceed (phase : Phase) (proven : Nat × List Text) (grounded : Grounded digest jwt s)
    (there : s.calls.lookup id = some call)
    (kept : ∀ kid ∈ proven.2, proven.1 ≤ s.generation ∧ ProvedUnder jwt s kid proven.1)
    (sound : Sound jwt s { call with phase }) :
    Grounded digest jwt { setPhase s id call phase with proven } :=
  grounded.advance digest jwt s id call phase proven s.accepted s.inFlight (by rw [there]; rfl) kept
    (fun _ given => given) grounded.cells (fun _ _ holds => .inl holds) sound

/-- As `advance`, for a step in the map that answers nothing. -/
theorem Grounded.moves (phase : Phase) (event : FlightEvent (Option NamespaceName))
    (grounded : Grounded digest jwt s) (there : s.calls.lookup id = some call)
    (own : ∀ other token, event = .arrive other token → other = id ∧ token = call.token)
    (silent : ∀ other answer, event ≠ .complete other answer)
    (sound : Sound jwt s { call with phase }) :
    Grounded digest jwt (ProvenKeys.advance digest s id call phase event) := by
  refine grounded.advance digest jwt s id call phase s.proven s.accepted _ (by rw [there]; rfl) grounded.proven
    (fun _ given => given) ?_ ?_ sound
  · intro cell name answered
    rcases flightStep_answer digest s.inFlight event cell _ answered with old | ⟨other, completes, _⟩
    · exact grounded.cells cell name old
    · exact absurd completes (silent other _)
  · intro other cell holds
    refine (flightStep_held digest s.inFlight other event cell holds).imp_right ?_
    rintro ⟨token, arrives, same⟩
    obtain ⟨mine, given⟩ := own other token arrives
    exact ⟨mine, by rw [same, given]⟩

omit [DecidableEq K] in
theorem provenAt_proved (grounded : Grounded digest jwt s) (generation : Nat) (kid : Text)
    (member : kid ∈ provenAt s.proven generation) :
    generation ≤ s.generation ∧ ProvedUnder jwt s kid generation := by
  unfold provenAt at member
  split at member
  · rename_i same
    rw [← same]
    exact grounded.proven kid member
  · cases member

/-- The check is made with the keys of the generation it is made at. -/
theorem offline_grounded (grounded : Grounded digest jwt s) (there : s.calls.lookup id = some call)
    (phase : call.phase = .begun) : Grounded digest jwt (callStep digest jwt s id call .offline) := by
  have proceed : ∀ phase : Phase, phase.valid = none → Settled jwt s { call with phase } →
      Grounded digest jwt (setPhase s id call phase) := fun phase nothing settled =>
    grounded.proceed digest jwt s id call phase s.proven there grounded.proven (.unchecked jwt nothing settled)
  simp only [callStep, phase]
  split
  · rename_i kid valid
    refine grounded.advance digest jwt s id { call with checkedAt := s.generation } _ s.proven s.accepted s.inFlight
      (by rw [there]; rfl) grounded.proven (fun _ given => given) grounded.cells (fun _ _ holds => .inl holds) ?_
    refine ⟨?_, trivial⟩
    intro other held
    cases held
    exact ⟨Nat.le_refl _, by rw [grounded.published]; exact valid⟩
  · exact proceed _ rfl trivial
  · exact proceed _ rfl trivial

theorem lookProven_grounded (grounded : Grounded digest jwt s) (there : s.calls.lookup id = some call)
    (kid : Text) (generation : Nat) (phase : call.phase = .asking kid generation) :
    Grounded digest jwt (callStep digest jwt s id call .lookProven) := by
  have proved := provenAt_proved digest jwt s grounded generation
  unfold callStep
  rw [phase]
  refine grounded.proceed digest jwt s id call _ (generation, provenAt s.proven generation) there proved ?_
  split
  · rename_i member
    exact .unchecked jwt rfl (proved kid (by simpa using member))
  · exact .unchecked jwt rfl trivial

theorem complete_grounded (grounded : Grounded digest jwt s) (there : s.calls.lookup id = some call)
    (valid : Option Text) (phase : call.phase = .reviewing valid) (reviewed : Option ReviewStatus) :
    Grounded digest jwt (callStep digest jwt s id call (.complete reviewed)) := by
  have given : ∀ name, namespaceOfReview reviewed = some name →
      (if reviewed.any ReviewStatus.accepts then call.token :: s.accepted else s.accepted)
        = call.token :: s.accepted := by
    intro name named
    obtain ⟨status, rfl, accepts⟩ := namespaceOfReview_accepts reviewed name named
    exact if_pos accepts
  have more : s.accepted ⊆
      (if reviewed.any ReviewStatus.accepts then call.token :: s.accepted else s.accepted) := by
    split
    · exact List.subset_cons_self _ _
    · exact fun _ member => member
  unfold callStep
  rw [phase]
  refine grounded.advance digest jwt s id call _ s.proven _ _ (by rw [there]; rfl) grounded.proven more ?_ ?_ ?_
  · intro cell name answered
    rcases flightStep_answer digest s.inFlight _ cell _ answered with old | ⟨caller, completes, holds⟩
    · obtain ⟨token, accepted, same⟩ := grounded.cells cell name old
      exact ⟨token, more accepted, same⟩
    · -- the cell is the one this call holds, so it is of the call's own token
      obtain ⟨rfl, named⟩ := FlightEvent.complete.inj completes
      obtain ⟨found, there', same⟩ := grounded.held id cell holds
      rw [there] at there'
      cases there'
      exact ⟨call.token, by rw [given name named]; exact List.mem_cons_self, same⟩
  · intro other cell holds
    refine (flightStep_held digest s.inFlight other _ cell holds).imp_right ?_
    rintro ⟨token, arrives, _⟩
    cases arrives
  · have before := grounded.calls id call there
    refine (before.mono jwt ?_ ?_ ?_ : Sound jwt { s with accepted := _ } call).next jwt (by rw [phase]; rfl) ?_
    · exact more
    · exact Nat.le_refl _
    · exact fun _ _ => rfl
    unfold Settled
    dsimp only
    cases named : namespaceOfReview reviewed with
    | none => trivial
    | some name =>
      rw [given name named]
      exact List.mem_cons_self

/-- What a waiter is answered is about its own token, for fingerprints do not collide. -/
theorem observe_grounded (collisionFree : Function.Injective digest) (grounded : Grounded digest jwt s)
    (there : s.calls.lookup id = some call) (valid : Option Text) (phase : call.phase = .waiting valid) :
    Grounded digest jwt (callStep digest jwt s id call .observe) := by
  unfold callStep
  rw [phase]
  dsimp only
  split
  · rename_i answer seen
    obtain ⟨cell, holds, answered⟩ := Option.map_eq_some_iff.mp seen
    refine grounded.proceed digest jwt s id call _ s.proven there grounded.proven
      ((grounded.calls id call there).next jwt (by rw [phase]; rfl) ?_)
    cases answer with
    | none => trivial
    | some name =>
      obtain ⟨token, accepted, same⟩ := grounded.cells cell name answered
      obtain ⟨found, there', own⟩ := grounded.held id cell holds
      rw [there] at there'
      cases there'
      obtain rfl := fingerprint_injective digest collisionFree (same.trans own.symm)
      exact accepted
  · exact grounded

theorem prove_grounded [DecidableEq Key] (grounded : Grounded digest jwt s) (there : s.calls.lookup id = some call)
    (kid : Text) (name : NamespaceName) (phase : call.phase = .left (some kid) (some name))
    (turn : keyStands jwt s (.step id .readGeneration) = true) :
    Grounded digest jwt (callStep digest jwt s id call .readGeneration) := by
  have sound := grounded.calls id call there
  have accepted := sound.settled
  unfold Settled at accepted
  rw [phase] at accepted
  simp only [keyStands, there, phase, Bool.or_eq_true, decide_eq_true_eq, List.contains_iff_mem] at turn
  unfold callStep
  rw [phase]
  refine grounded.proceed digest jwt s id call _ s.proven there grounded.proven (.unchecked jwt rfl ?_)
  have provedNow : checkSignature jwt s.keys call.token = .valid kid →
      s.generation ≤ s.generation ∧ ProvedUnder jwt s kid s.generation := fun valid =>
    ⟨Nat.le_refl _, call.token, accepted, by rw [grounded.published]; exact valid⟩
  rcases turn with (unchanged | valid) | proven
  · -- what the check found then is what it would find now
    obtain ⟨-, held⟩ := sound.checked kid (by rw [phase]; rfl)
    exact provedNow (checkSignature_congr jwt unchanged held)
  · exact provedNow valid
  · exact provenAt_proved digest jwt s grounded s.generation kid proven

theorem record_grounded (grounded : Grounded digest jwt s) (there : s.calls.lookup id = some call)
    (kid : Text) (generation : Nat) (phase : call.phase = .proving kid generation) :
    Grounded digest jwt (callStep digest jwt s id call .record) := by
  have own := (grounded.calls id call there).settled
  unfold Settled at own
  rw [phase] at own
  unfold callStep
  rw [phase]
  refine grounded.proceed digest jwt s id call .done
    (generation, (provenAt s.proven generation).insert kid) there ?_ (.unchecked jwt rfl trivial)
  intro other member
  rcases List.mem_insert_iff.mp member with rfl | old
  · exact own
  · exact provenAt_proved digest jwt s grounded generation other old

theorem callStep_grounded [DecidableEq Key] (collisionFree : Function.Injective digest) (action : Action)
    (grounded : Grounded digest jwt s) (there : s.calls.lookup id = some call)
    (turn : keyStands jwt s (.step id action) = true) :
    Grounded digest jwt (callStep digest jwt s id call action) := by
  have proceed : ∀ phase, Sound jwt s { call with phase } → Grounded digest jwt (setPhase s id call phase) :=
    fun phase sound => grounded.proceed digest jwt s id call phase s.proven there grounded.proven sound
  have moves := fun phase event => grounded.moves digest jwt s id call phase event there
  have sound := grounded.calls id call there
  -- the steps a call has, in its order, and every action out of its turn
  cases action with
  | offline =>
    cases phase : call.phase with
    | begun => exact offline_grounded digest jwt s id call grounded there phase
    | _ => simpa [callStep, phase] using grounded
  | readGeneration =>
    cases phase : call.phase with
    | failed kid =>
      simp only [callStep, phase]
      exact proceed _ (.unchecked jwt rfl trivial)
    | left valid answer =>
      cases valid with
      | none => simpa [callStep, phase] using grounded
      | some kid =>
        cases answer with
        | none => simpa [callStep, phase] using grounded
        | some name => exact prove_grounded digest jwt s id call grounded there kid name phase turn
    | _ => simpa [callStep, phase] using grounded
  | lookProven =>
    cases phase : call.phase with
    | asking kid generation =>
      exact lookProven_grounded digest jwt s id call grounded there kid generation phase
    | _ => simpa [callStep, phase] using grounded
  | join =>
    cases phase : call.phase with
    | checked valid =>
      simp only [callStep, phase]
      refine moves _ _ ?_ (by simp) (sound.next jwt (by rw [phase]; rfl) trivial)
      intro other token arrives
      obtain ⟨rfl, rfl⟩ := FlightEvent.arrive.inj arrives
      exact ⟨rfl, rfl⟩
    | _ => simpa [callStep, phase] using grounded
  | start =>
    cases phase : call.phase with
    | waiting valid =>
      simp only [callStep, phase]
      split
      · exact moves _ _ (by simp) (by simp) (sound.next jwt (by rw [phase]; rfl) trivial)
      · exact grounded
    | _ => simpa [callStep, phase] using grounded
  | complete reviewed =>
    cases phase : call.phase with
    | reviewing valid => exact complete_grounded digest jwt s id call grounded there valid phase reviewed
    | _ => simpa [callStep, phase] using grounded
  | observe =>
    cases phase : call.phase with
    | waiting valid => exact observe_grounded digest jwt s id call collisionFree grounded there valid phase
    | _ => simpa [callStep, phase] using grounded
  | cancel =>
    cases phase : call.phase with
    | waiting valid =>
      simp only [callStep, phase]
      exact proceed _ (.unchecked jwt rfl trivial)
    | reviewing valid =>
      simp only [callStep, phase]
      exact moves _ _ (by simp) (by simp) (.unchecked jwt rfl trivial)
    | _ => simpa [callStep, phase] using grounded
  | leave =>
    cases phase : call.phase with
    | cancelled =>
      simp only [callStep, phase]
      exact moves _ _ (by simp) (by simp) (.unchecked jwt rfl trivial)
    | answered valid answer =>
      simp only [callStep, phase]
      refine moves _ _ (by simp) (by simp) (sound.next jwt (by rw [phase]; rfl) ?_)
      have settled := sound.settled
      unfold Settled at settled
      rw [phase] at settled
      cases answer with
      | none => trivial
      | some name => exact settled
    | _ => simpa [callStep, phase] using grounded
  | record =>
    cases phase : call.phase with
    | proving kid generation => exact record_grounded digest jwt s id call grounded there kid generation phase
    | _ => simpa [callStep, phase] using grounded

variable [DecidableEq Jwk] [DecidableEq Key]

theorem reviewerStep_grounded (collisionFree : Function.Injective digest) (event : ReviewerEvent Jwk)
    (grounded : Grounded digest jwt s) (turn : keyStands jwt s event = true) :
    Grounded digest jwt (reviewerStep digest jwt s event) := by
  cases event with
  | store keys => exact storeKeys_grounded digest jwt s keys grounded
  | begin id token =>
    cases there : s.calls.lookup id with
    | some call => simpa only [reviewerStep, there, Option.isSome_some, if_true] using grounded
    | none =>
      simp only [reviewerStep, there, Option.isSome_none, Bool.false_eq_true, if_false]
      exact begin_grounded digest jwt s id token grounded there
  | step id action =>
    cases there : s.calls.lookup id with
    | some call =>
      simp only [reviewerStep, there]
      exact callStep_grounded digest jwt s id call collisionFree action grounded there turn
    | none => simpa only [reviewerStep, there] using grounded

/-- In every interleaving in which a proof is recorded only while the key that gave it is
still published, no key is proven, and no token refused as forged, without its own proof. -/
theorem proven_by_own_key (collisionFree : Function.Injective digest) (events : List (ReviewerEvent Jwk))
    (run : Along (reviewerStep digest jwt) (fun s event => keyStands jwt s event = true)
      (reviewerStart : ReviewerState K Jwk) events) :
    OwnProof jwt (after (reviewerStep digest jwt) (reviewerStart : ReviewerState K Jwk) events) := by
  apply ownProof_of_grounded digest jwt
  apply after_of_invariant _ (Grounded digest jwt) _ _ _ _ events run
  · intro s event grounded turn
    exact reviewerStep_grounded digest jwt s collisionFree event grounded turn
  · exact grounded_start digest jwt

end Reviewer

/-! ## A rotation during a review -/

/-- Every key of the issuer is published as `sa-key`, and its signature is the key itself;
the key `'j'` is one that cannot be verified with. -/
def issuerJwt : JsonWebToken Char Char where
  decodeHeader := fun token =>
    if (token.splitOn '.').length = 3 then some ⟨some "sa-key".toList, .rs256⟩ else none
  keyId := fun _ => some "sa-key".toList
  decodingKey := some
  verify := fun signature _ key _ => some (key != 'j' && signature == [key])

def signedToken (key : Char) : Text := ['h', '.', 'p', '.', key]

def teamStatus : ReviewStatus where
  authenticated := some true
  user := some (some "system:serviceaccount:team-a:runner".toList)

/-- A call up to the moment its review is sent. -/
def sendReview (id : Nat) (token : Text) : List (ReviewerEvent Char) :=
  [.begin id token, .step id .offline, .step id .join, .step id .start]

/-- The rest of a call whose token the apiserver accepts. -/
def proveKey (id : Nat) : List (ReviewerEvent Char) :=
  [.step id (.complete (some teamStatus)), .step id .leave, .step id .readGeneration, .step id .record]

/-- A call whose signature does not hold, up to the answer of `is_proven`. -/
def askProven (id : Nat) (token : Text) : List (ReviewerEvent Char) :=
  [.begin id token, .step id .offline, .step id .readGeneration, .step id .lookProven]

/-- The set is replaced during the review, by one that publishes the same key as `sa-key`. -/
theorem proven_by_own_key_republished :
    let events := .store ['k'] :: sendReview 1 (signedToken 'k') ++ .store ['x', 'k'] :: proveKey 1 ++
      askProven 2 (signedToken 'x')
    let s := after (reviewerStep id issuerJwt) reviewerStart events
    (s.calls.lookup 2).map Call.phase = some (.forged "sa-key".toList 2) ∧ OwnProof issuerJwt s := by
  refine ⟨by decide +kernel, ?_⟩
  apply proven_by_own_key id issuerJwt Function.injective_id
  simp only [sendReview, proveKey, askProven, List.cons_append, List.nil_append, Along]
  decide +kernel

/-- The key is replaced while the review of a token it signed is under way, and a token of the
new key, good as it is, is refused. -/
def rotatedReview : List (ReviewerEvent Char) :=
  .store ['k'] :: sendReview 1 (signedToken 'k') ++ .store ['j'] :: proveKey 1 ++
    askProven 2 (signedToken 'j')

theorem proven_by_former_key :
    ¬ ∀ events : List (ReviewerEvent Char),
      OwnProof issuerJwt (after (reviewerStep id issuerJwt) reviewerStart events) := by
  intro own
  have refused : ((after (reviewerStep id issuerJwt) reviewerStart rotatedReview).calls.lookup 2) =
      some ⟨signedToken 'j', .forged "sa-key".toList 2, 2⟩ := by decide +kernel
  obtain ⟨token, accepted, valid⟩ := (own rotatedReview).forged 2 _ _ _ refused rfl
  have only : (after (reviewerStep id issuerJwt) reviewerStart rotatedReview).accepted =
      [signedToken 'k'] := by decide +kernel
  have published : (after (reviewerStep id issuerJwt) reviewerStart rotatedReview).sets 2 = some ['j'] := by
    decide +kernel
  rw [only, List.mem_singleton] at accepted
  rw [published, accepted] at valid
  revert valid
  decide +kernel

end WeeboSi.Gateway.ProvenKeys
