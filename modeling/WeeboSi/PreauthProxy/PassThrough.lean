import WeeboSi.PreauthProxy.Relay

/-!
# The caller's own credential

The marker is looked for in the headers left after stripping, and in text only. So a caller's
credential is passed through when its header outlives the stripping and one of the values that
carry the marker is visible; otherwise the request is taken for one without a credential.
-/
namespace WeeboSi.PreauthProxy
open WeeboSi.Lib

/-- One attempt, without a credential of the proxy's, with the header as the caller sent it, and
nothing else. -/
def Untouched (config : Config) (request : Request) (run : Run) : Prop :=
  ∃ headers, run.effects = [.forwarded headers none] ∧
    getAll headers config.passthrough.header = getAll request.headers config.passthrough.header

/-! ## What the marker test sees -/

theorem getAll_removeAll (headers : HeaderMap) (names : List HeaderName) (name : HeaderName) :
    getAll (removeAll headers names) name = if names.contains name then [] else getAll headers name := by
  rw [getAll, removeAll, List.filter_filter]
  split
  · next removed =>
    rw [List.map_eq_nil_iff, List.filter_eq_nil_iff]
    intro header _ kept
    simp only [Bool.and_eq_true, decide_eq_true_eq, Bool.not_eq_true'] at kept
    rw [kept.1, removed] at kept
    exact Bool.noConfusion kept.2
  · next kept =>
    rw [getAll]
    congr 1
    apply List.filter_congr
    intro header _
    by_cases same : header.1 = name
    · simp only [same, decide_true, Bool.true_and, Bool.not_eq_true']
      exact Bool.eq_false_iff.mpr kept
    · simp [same]

theorem markerPresent_iff (headers : HeaderMap) (config : Config) :
    markerPresent headers config = true ↔
      ∃ value ∈ getAll headers config.passthrough.header,
        (∀ byte ∈ value, isVisible byte = true) ∧ Carries config value := by
  rw [markerPresent, List.any_eq_true]
  constructor
  · rintro ⟨text, member, found⟩
    obtain ⟨value, inHeader, read⟩ := List.mem_filterMap.mp member
    obtain ⟨visible, rfl⟩ := (toStr_eq_some value text).mp read
    exact ⟨value, inHeader, visible, (marked_iff config value visible).mp found⟩
  · rintro ⟨value, inHeader, visible, carries⟩
    have read := (toStr_eq_some value _).mpr ⟨visible, rfl⟩
    exact ⟨_, List.mem_filterMap.mpr ⟨value, inHeader, read⟩, (marked_iff config value visible).mpr carries⟩

/-- The header outlives the stripping, and a value with the marker is text. -/
def Recognised (config : Config) (headers : HeaderMap) : Prop :=
  config.passthrough.header ∉ hopByHop ++ named headers ∧
    ∃ value ∈ getAll headers config.passthrough.header,
      (∀ byte ∈ value, isVisible byte = true) ∧ Carries config value

theorem markerPresent_strip_iff (headers : HeaderMap) (config : Config) :
    markerPresent (stripHopByHop headers) config = true ↔ Recognised config headers := by
  rw [markerPresent_iff, stripHopByHop, getAll_removeAll, Recognised]
  split
  · next removed => simp [List.contains_iff_mem.mp removed]
  · next kept =>
    have outlives := mt List.contains_iff_mem.mpr kept
    simp only [outlives, not_false_eq_true, true_and]

/-! ## Runs -/

def Effect.bare : Effect → Bool
  | .forwarded _ none => true
  | _ => false

/-- Whatever was forwarded had a credential written into it. -/
def Credited (run : Run) : Prop := ∀ effect ∈ run.effects, effect.bare = false

section Runs
variable {B : Type} (world : World B)

theorem credited_emit (run : Run) (effect : Effect) (credited : Credited run) (written : effect.bare = false) :
    Credited (run.emit effect) := by
  intro other member
  rcases List.mem_append.mp member with earlier | last
  · exact credited other earlier
  · rw [List.mem_singleton.mp last]
    exact written

theorem credited_getOrAcquire (run : Run) (credited : Credited run) : Credited (getOrAcquire world run).2 := by
  rw [getOrAcquire]
  dsimp only
  split
  · exact credited
  · split
    · exact credited
    · split
      · exact credited_emit _ _ credited rfl
      · exact credited_emit (look world (look world run)) .acquired credited rfl

theorem credited_invalidate (stale : Credential) (run : Run) (credited : Credited run) :
    Credited (invalidate world stale run) := by
  have emitted : Credited ((look world run).emit (.invalidated stale)) := credited_emit _ _ credited rfl
  rw [invalidate]
  split
  · exact emitted
  · exact emitted

variable (config : Config) (request : Request) (headers : HeaderMap)

/-- However many replays there are, each goes out with a credential. -/
theorem credited_attempts (held : Credential) (exchange : Exchange) (renewedOn : Option StatusCode) (run : Run)
    (credited : Credited run) :
    Credited (attempts world config request headers true (some held) exchange renewedOn run).2 := by
  rw [attempts]
  dsimp only
  split
  · exact credited
  · next outgoing _ =>
    have sent : Credited (run.emit (.forwarded outgoing (some held))) := credited_emit _ _ credited rfl
    split
    · exact sent
    · split
      · exact sent
      · next next decided =>
        obtain ⟨_, spare, spent⟩ := Exchange.onResponse_renew _ _ _ _ _ decided
        have asked : Credited (getOrAcquire world (invalidate world held
            (run.emit (.forwarded outgoing (some held))))).2 :=
          credited_getOrAcquire world _ (credited_invalidate world held _ sent)
        split
        · next failed =>
          rw [Option.elim_some] at failed
          rw [failed] at asked
          exact asked
        · next fresh later acquired =>
          rw [Option.elim_some] at acquired
          rw [acquired] at asked
          exact credited_attempts fresh next _ _ asked
termination_by config.renew.maxReplays - exchange.replaysUsed
decreasing_by
  omega

/-- Without a credential the loop ends with its first attempt. -/
theorem attempts_passed (exchange : Exchange) (renewedOn : Option StatusCode) (run : Run) :
    (attempts world config request headers false none exchange renewedOn run).2 =
      run.emit (.forwarded headers none) := by
  rw [attempts]
  dsimp only [Option.elim_none]
  split
  · rfl
  · split
    · rfl
    · next renewed => exact absurd (Exchange.onResponse_renew _ _ _ _ _ renewed).1 Bool.false_ne_true

theorem relay_marked (cached : Option Credential)
    (marked : markerPresent (stripHopByHop request.headers) config = true) :
    (relay world config request cached).2.effects = [.forwarded (stripHopByHop request.headers) none] := by
  simp only [relay, Action.decide, marked, if_true, Action.injects, Bool.false_eq_true, if_false]
  rw [attempts_passed]
  rfl

theorem injects_unmarked (cache : CacheState) : (Action.decide ⟨false⟩ cache).injects = true := by
  rw [Action.decide, if_neg Bool.false_ne_true]
  split <;> rfl

theorem relay_unmarked (cached : Option Credential)
    (unmarked : markerPresent (stripHopByHop request.headers) config = false) :
    Credited (relay world config request cached).2 := by
  have asked : Credited (getOrAcquire world (look world ⟨cached, 0, []⟩)).2 :=
    credited_getOrAcquire world _ fun effect member => absurd member List.not_mem_nil
  simp only [relay, unmarked, injects_unmarked, if_true]
  split
  · next failed =>
    rw [failed] at asked
    exact asked
  · next fresh run acquired =>
    rw [acquired] at asked
    exact credited_attempts world config request _ fresh ⟨0⟩ none run asked

/-! ## The result -/

/-- A request is left alone exactly when its marker is recognised. -/
theorem relay_untouched_iff (cached : Option Credential) :
    Untouched config request (relay world config request cached).2 ↔ Recognised config request.headers := by
  rw [← markerPresent_strip_iff]
  constructor
  · rintro ⟨headers, effects, _⟩
    by_contra unmarked
    have credited := relay_unmarked world config request cached (Bool.eq_false_iff.mpr unmarked)
    have bare := credited (.forwarded headers none) (effects ▸ List.mem_singleton_self _)
    exact Bool.noConfusion bare
  · intro marked
    refine ⟨_, relay_marked world config request cached marked, ?_⟩
    have outlives := ((markerPresent_strip_iff request.headers config).mp marked).1
    rw [stripHopByHop, getAll_removeAll, if_neg (mt List.contains_iff_mem.mp outlives)]

end Runs

/-! ## A caller's session that is replaced -/

namespace Sample

def config : Config where
  passthrough := ⟨cookie, "session=".toList⟩
  inject := ⟨cookie, .append⟩
  renew := ⟨[401], 1⟩

def service : Credential := ⟨"sid=service".toList⟩

def world : World Unit where
  acquire := fun _ => .ok service
  forward := fun _ _ => .ok ⟨200, [], ()⟩
  others := fun _ held => held

/-- A caller with a session, and what it says of its connection. -/
def request (connectionValue : Text) : Request where
  method := "GET".toList
  uri := "http://app:3000/page".toList
  headers := [(connection, utf8 connectionValue), (cookie, utf8 "session=mine".toList)]
  body := []

end Sample

/-- The caller's session is carried, and the request goes out with the service's alone. -/
theorem connection_replaces_session :
    (∃ value ∈ getAll (Sample.request "Cookie".toList).headers Sample.config.passthrough.header,
        Carries Sample.config value) ∧
      (relay Sample.world Sample.config (Sample.request "Cookie".toList) none).2.effects =
        [.acquired, .forwarded [(cookie, utf8 "sid=service".toList)] (some Sample.service)] ∧
      ¬Untouched Sample.config (Sample.request "Cookie".toList)
        (relay Sample.world Sample.config (Sample.request "Cookie".toList) none).2 := by
  have effects : (relay Sample.world Sample.config (Sample.request "Cookie".toList) none).2.effects =
      [.acquired, .forwarded [(cookie, utf8 "sid=service".toList)] (some Sample.service)] := by
    have started : relay Sample.world Sample.config (Sample.request "Cookie".toList) none =
        attempts Sample.world Sample.config (Sample.request "Cookie".toList) [] true (some Sample.service) ⟨0⟩
          none ⟨some Sample.service, 3, [.acquired]⟩ := by
      rfl
    rw [started, attempts]
    rfl
  refine ⟨⟨utf8 "session=mine".toList, ?_, ?_⟩, effects, ?_⟩
  · decide
  · rw [Carries, if_pos (show Sample.config.passthrough.header = cookie from rfl)]
    exact ⟨utf8 "session=mine".toList, by decide, by decide⟩
  · rintro ⟨headers, alone, _⟩
    rw [effects] at alone
    cases alone

end WeeboSi.PreauthProxy
