import WeeboSi.Lib.Outcome
import WeeboSi.PreauthProxy.PassThrough

/-!
# The service session in a cookie

A response to an injected request loses the cookies that would give the service session to the
caller. The proxy looks for the marker in the pair as it is written; a user agent drops the blanks
beside the first equals sign before it sends the pair back. So the service session escapes exactly
where the marker comes about only once those blanks are gone.
-/
namespace WeeboSi.PreauthProxy
open WeeboSi.Lib

/-! ## The user agent

RFC 6265, section 5.2: the pair is what stands before the first semicolon, the name what stands
before its first equals sign; name and value are trimmed, and a pair without a name is ignored.
-/

def isBlank (byte : UInt8) : Bool := byte == 32 || byte == 9

def cookiePair (value : HeaderValue) : Bytes := value.takeWhile fun byte => byte != 59

def store (value : HeaderValue) : Option (Bytes × Bytes) :=
  match splitOnce 61 (cookiePair value) with
  | none => none
  | some (name, held) =>
    if trimBy isBlank name = [] then none else some (trimBy isBlank name, trimBy isBlank held)

/-- The pair, as it is sent back. -/
def sendBack (name held : Bytes) : HeaderValue := name ++ 61 :: held

/-- One of the credential's parts is a cookie of this name. -/
def Credential.Names (credential : Credential) (name : Bytes) : Prop :=
  ∃ part ∈ credential.expose.splitOn ';', ∃ before after,
    splitOnce '=' part = some (before, after) ∧ utf8 (trim before) = name

/-- No cookie the user agent takes from these headers is the service's, nor a marker when it comes
back. -/
def CookiesSafe (config : Config) (credential : Credential) (headers : HeaderMap) : Prop :=
  ∀ value ∈ getAll headers setCookie, ∀ name held, store value = some (name, held) →
    ¬credential.Names name ∧ markerPresent [(cookie, sendBack name held)] config = false

/-- A cookie of another name that has the marker once its blanks are dropped, and not as written. -/
def disguises (config : Config) (credential : Credential) (value : HeaderValue) : Bool :=
  match injectedCookieNames config credential, store value with
  | some names, some (name, held) =>
    config.passthrough.header == cookie && value.all isVisible && !(names.map utf8).contains name &&
      (utf8 config.passthrough.contains).isPrefixOf (sendBack name held) &&
      !Decidable.decide (utf8 config.passthrough.contains <:+: trimBy isBlank (cookiePair value))
  | _, _ => false

/-! ## Names -/

/-- Before or after the trimming of the pair, the trimmed name is the same. -/
theorem splitOnce_trim (pair before after : Text) (cut : splitOnce '=' pair = some (before, after)) :
    ∃ before' after', splitOnce '=' (trim pair) = some (before', after') ∧ trim before' = trim before := by
  obtain ⟨rfl, first⟩ := (splitOnce_eq_some '=' pair before after).mp cut
  refine ⟨before.dropWhile isWhite, after.rdropWhile isWhite, ?_, ?_⟩
  · rw [trim_eq_trimBy, trimBy_cut isWhite '=' (by decide)]
    exact splitOnce_append '=' _ _ fun member => first ((List.dropWhile_suffix isWhite).subset member)
  · exact trimBy_dropWhile isWhite before

/-- Where the names can be told apart, the credential's are among them. -/
theorem mem_injectedCookieNames (config : Config) (credential : Credential) (names : List Text)
    (told : injectedCookieNames config credential = some names) (name : Bytes)
    (sets : credential.Names name) : ∃ text ∈ names, utf8 text = name := by
  rw [injectedCookieNames] at told
  split at told
  · cases told
  · obtain ⟨part, inside, before, after, cut, rfl⟩ := sets
    obtain ⟨before', after', cut', same⟩ := splitOnce_trim part before after cut
    have written : (!(trim part).isEmpty) = true := by
      rw [Bool.not_eq_true', List.isEmpty_eq_false_iff]
      rintro empty
      rw [empty] at cut'
      cases cut'
    have listed : trim part ∈ ((credential.expose.splitOn ';').map trim).filter fun pair => !pair.isEmpty :=
      List.mem_filter.mpr ⟨List.mem_map_of_mem inside, written⟩
    have read := List.Forall₂.flip ((mapM_eq_some _ _ _).mp told)
    obtain ⟨text, member, named⟩ := forall₂_mem_right _ _ _ read _ listed
    refine ⟨text, member, ?_⟩
    simp only [cut', Option.map_some, Option.some.injEq] at named
    rw [← named, same]

/-! ## The pair -/

theorem cookiePair_subset (value : HeaderValue) : cookiePair value ⊆ value :=
  (List.takeWhile_prefix _).subset

theorem semicolon_not_mem_cookiePair (value : HeaderValue) : (59 : UInt8) ∉ cookiePair value := by
  intro member
  have kept := List.mem_takeWhile_imp member
  cases kept

/-- The pair as the proxy reads it. -/
theorem head_splitOn (value : HeaderValue) :
    (((value.map byteChar).splitOn ';').head?).getD (value.map byteChar) = (cookiePair value).map byteChar := by
  have split : (value.map byteChar).splitOn ';' = (value.splitOn 59).map (List.map byteChar) :=
    splitOn_map byteChar byteChar_injective 59 value
  rw [split, List.head?_map, head?_splitOn]
  rfl

theorem trim_map_byteChar (bytes : Bytes) (visible : ∀ byte ∈ bytes, isVisible byte = true) :
    trim (bytes.map byteChar) = (trimBy isBlank bytes).map byteChar :=
  trimBy_map isWhite byteChar isBlank bytes fun byte member => isWhite_byteChar byte (visible byte member)

/-- What is stored is cut at the first equals sign of the pair. -/
theorem store_eq_some (value : HeaderValue) (name held : Bytes) : store value = some (name, held) ↔
    ∃ before after, cookiePair value = before ++ 61 :: after ∧ 61 ∉ before ∧ trimBy isBlank before ≠ [] ∧
      trimBy isBlank before = name ∧ trimBy isBlank after = held := by
  constructor
  · intro stored
    rw [store] at stored
    split at stored
    · cases stored
    · next before after cut =>
      obtain ⟨pair, first⟩ := (splitOnce_eq_some 61 _ before after).mp cut
      split at stored
      · cases stored
      · next written =>
        cases stored
        exact ⟨before, after, pair, first, written, rfl, rfl⟩
  · rintro ⟨before, after, pair, first, written, rfl, rfl⟩
    have cut := (splitOnce_eq_some 61 _ before after).mpr ⟨pair, first⟩
    simp only [store, cut, if_neg written]

/-- A plain name among texts, by its bytes. -/
theorem map_byteChar_mem_iff (names : List Text) (name : Bytes) (plain : ∀ byte ∈ name, byte.toNat < 128) :
    name.map byteChar ∈ names ↔ name ∈ names.map utf8 := by
  constructor
  · intro listed
    exact List.mem_map.mpr ⟨_, listed, utf8_map_byteChar name plain⟩
  · intro listed
    obtain ⟨text, member, rfl⟩ := List.mem_map.mp listed
    rw [map_byteChar_utf8 text plain]
    exact member

section Stored
variable (config : Config) (credential : Credential) (value : HeaderValue) (name held : Bytes)
variable (visible : ∀ byte ∈ value, isVisible byte = true) (stored : store value = some (name, held))
include stored

theorem mem_of_mem_stored (byte : UInt8) (member : byte ∈ name ∨ byte ∈ held) : byte ∈ cookiePair value := by
  obtain ⟨before, after, pair, -, -, rfl, rfl⟩ := (store_eq_some value name held).mp stored
  rw [pair]
  rcases member with inName | inHeld
  · exact List.mem_append_left _ (mem_of_mem_trimBy _ _ _ inName)
  · exact List.mem_append_right _ (List.mem_cons_of_mem _ (mem_of_mem_trimBy _ _ _ inHeld))

theorem mem_sendBack (byte : UInt8) (member : byte ∈ sendBack name held) : byte ∈ cookiePair value := by
  rcases List.mem_append.mp member with inName | inRest
  · exact mem_of_mem_stored value name held stored byte (Or.inl inName)
  · rcases List.mem_cons.mp inRest with rfl | inHeld
    · obtain ⟨before, after, pair, -, -, -, -⟩ := (store_eq_some value name held).mp stored
      rw [pair]
      exact List.mem_append_right _ List.mem_cons_self
    · exact mem_of_mem_stored value name held stored byte (Or.inr inHeld)

include visible

/-- The proxy's name for a cookie is the one it is stored under. -/
theorem harmless_stored (names : List Text) (told : injectedCookieNames config credential = some names) :
    harmless config credential value = true ↔ name ∉ names.map utf8 ∧
      ¬(config.passthrough.header = cookie ∧
        utf8 config.passthrough.contains <:+: trimBy isBlank (cookiePair value)) := by
  obtain ⟨before, after, pair, first, -, rfl, -⟩ := (store_eq_some value name held).mp stored
  have inPair : ∀ byte ∈ cookiePair value, isVisible byte = true := fun byte member =>
    visible byte (cookiePair_subset value member)
  have inBefore : ∀ byte ∈ before, isVisible byte = true := fun byte member =>
    inPair byte (pair ▸ List.mem_append_left _ member)
  have cut : splitOnce '=' ((cookiePair value).map byteChar) =
      some (before.map byteChar, after.map byteChar) := by
    rw [pair, List.map_append, List.map_cons]
    refine splitOnce_append '=' _ _ fun member => first ?_
    exact (List.mem_map_of_injective byteChar_injective).mp member
  obtain ⟨before', after', cut', same⟩ := splitOnce_trim _ _ _ cut
  have plainName : ∀ byte ∈ trimBy isBlank before, byte.toNat < 128 := fun byte member =>
    toNat_of_isVisible byte (inBefore byte (mem_of_mem_trimBy isBlank before byte member))
  have plainPair : ∀ byte ∈ trimBy isBlank (cookiePair value), byte.toNat < 128 := fun byte member =>
    toNat_of_isVisible byte (inPair byte (mem_of_mem_trimBy isBlank _ byte member))
  have read := (toStr_eq_some value _).mpr ⟨visible, rfl⟩
  simp only [harmless, told, read, head_splitOn, cut', Option.map_some, Option.getD_some, same]
  rw [trim_map_byteChar before inBefore, trim_map_byteChar _ inPair, ← map_byteChar_mem_iff names _ plainName,
    ← infix_byteChar_iff _ _ plainPair]
  simp only [Bool.and_eq_true, Bool.not_eq_true', ← Bool.not_eq_true, List.contains_iff_mem, beq_iff_eq,
    decide_eq_true_eq]

/-- The cookie that comes back is read as one pair, from its first byte. -/
theorem markerPresent_sendBack : markerPresent [(cookie, sendBack name held)] config = true ↔
    config.passthrough.header = cookie ∧ utf8 config.passthrough.contains <+: sendBack name held := by
  have inPair := mem_sendBack value name held stored
  have readable : ∀ byte ∈ sendBack name held, isVisible byte = true := fun byte member =>
    visible byte (cookiePair_subset value (inPair byte member))
  have single : (sendBack name held).splitOn 59 = [sendBack name held] :=
    List.splitOn_eq_singleton fun member => semicolon_not_mem_cookiePair value (inPair 59 member)
  have front : (sendBack name held).dropWhile isBlank = sendBack name held := by
    obtain ⟨before, after, -, -, written, rfl, -⟩ := (store_eq_some value name held).mp stored
    obtain ⟨byte, rest, shape⟩ := List.exists_cons_of_ne_nil written
    have solid := (solid_trimBy isBlank before).front byte (by rw [shape]; rfl)
    rw [sendBack, shape, List.cons_append, List.dropWhile_cons_of_neg (by simp [solid])]
  rw [markerPresent_iff]
  by_cases header : config.passthrough.header = cookie
  · have only : getAll [(cookie, sendBack name held)] config.passthrough.header = [sendBack name held] := by
      rw [header]
      rfl
    have carried : Carries config (sendBack name held) ↔
        utf8 config.passthrough.contains <+: sendBack name held := by
      rw [Carries, if_pos header, single]
      change (∃ pair ∈ [sendBack name held], _ <+: pair.dropWhile isBlank) ↔ _
      simp only [List.mem_singleton, exists_eq_left, front]
    rw [only]
    simp only [List.mem_singleton, exists_eq_left, carried, header, true_and]
    exact and_iff_right readable
  · have nothing : getAll [(cookie, sendBack name held)] config.passthrough.header = [] := by
      simp [getAll, Ne.symm header]
    rw [nothing]
    simp [header]

end Stored

/-! ## One value -/

theorem disguises_stored (config : Config) (credential : Credential) (value : HeaderValue) (name held : Bytes)
    (names : List Text) (told : injectedCookieNames config credential = some names)
    (stored : store value = some (name, held)) :
    disguises config credential value = true ↔ (∀ byte ∈ value, isVisible byte = true) ∧
      name ∉ names.map utf8 ∧ config.passthrough.header = cookie ∧
      utf8 config.passthrough.contains <+: sendBack name held ∧
      ¬utf8 config.passthrough.contains <:+: trimBy isBlank (cookiePair value) := by
  simp only [disguises, told, stored, Bool.and_eq_true, Bool.not_eq_true', ← Bool.not_eq_true,
    List.contains_iff_mem, beq_iff_eq, decide_eq_true_eq, List.isPrefixOf_iff_prefix, List.all_eq_true]
  tauto

theorem harmless_readable (config : Config) (credential : Credential) (value : HeaderValue)
    (kept : harmless config credential value = true) :
    (∃ names, injectedCookieNames config credential = some names) ∧ ∀ byte ∈ value, isVisible byte = true := by
  rw [harmless] at kept
  split at kept
  · cases kept
  · next names told =>
    split at kept
    · cases kept
    · next text read => exact ⟨⟨names, told⟩, ((toStr_eq_some value text).mp read).1⟩

/-- A value that is let through is safe unless it disguises the marker. -/
theorem safe_unless_disguised (config : Config) (credential : Credential) (value : HeaderValue) :
    (harmless config credential value = true → ∀ name held, store value = some (name, held) →
      ¬credential.Names name ∧ markerPresent [(cookie, sendBack name held)] config = false) ↔
      disguises config credential value = false := by
  rw [← Bool.not_eq_true (disguises config credential value)]
  constructor
  · intro safe disguised
    cases told : injectedCookieNames config credential with
    | none => simp [disguises, told] at disguised
    | some names =>
      cases stored : store value with
      | none => simp [disguises, told, stored] at disguised
      | some pair =>
        obtain ⟨name, held⟩ := pair
        obtain ⟨visible, other, header, starts, absent⟩ :=
          (disguises_stored config credential value name held names told stored).mp disguised
        have kept := (harmless_stored config credential value name held visible stored names told).mpr
          ⟨other, fun found => absent found.2⟩
        have found := (markerPresent_sendBack config value name held visible stored).mpr ⟨header, starts⟩
        rw [(safe kept name held stored).2] at found
        cases found
  · intro plain kept name held stored
    obtain ⟨⟨names, told⟩, visible⟩ := harmless_readable config credential value kept
    obtain ⟨other, absent⟩ :=
      (harmless_stored config credential value name held visible stored names told).mp kept
    constructor
    · intro sets
      exact other (List.mem_map.mpr (mem_injectedCookieNames config credential names told name sets))
    · refine Bool.eq_false_iff.mpr fun found => plain ?_
      obtain ⟨header, starts⟩ := (markerPresent_sendBack config value name held visible stored).mp found
      exact (disguises_stored config credential value name held names told stored).mpr
        ⟨visible, other, header, starts, fun within => absent ⟨header, within⟩⟩

/-! ## Runs -/

section Runs
variable {B : Type} (world : World B) (config : Config) (request : Request) (headers : HeaderMap)

/-- The response the caller gets is the upstream's last, less the cookies of the credential that was
written into the last attempt. -/
def Answered (relayed : Relayed B) (last : Run) (credential : Credential) (response : Response B) : Prop :=
  ∃ before outgoing, last.effects = before ++ [.forwarded outgoing (some credential)] ∧
    world.forward before { request with headers := outgoing } = .ok response ∧
    relayed.response = answer config (some credential) response

/-- However often the credential is renewed, the answer is to the last attempt. -/
theorem attempts_answered (held : Credential) (exchange : Exchange) (renewedOn : Option StatusCode) (run : Run)
    (relayed : Relayed B) (last : Run)
    (done : attempts world config request headers true (some held) exchange renewedOn run =
      (.ok relayed, last)) :
    ∃ credential response, Answered world config request relayed last credential response := by
  rw [attempts] at done
  dsimp only at done
  split at done
  · cases done
  · next outgoing _ =>
    split at done
    · cases done
    · next response forwarded =>
      split at done
      · cases done
        exact ⟨held, response, run.effects, outgoing, rfl, forwarded, rfl⟩
      · next next decided =>
        obtain ⟨_, spare, spent⟩ := Exchange.onResponse_renew _ _ _ _ _ decided
        split at done
        · cases done
        · next fresh later _ => exact attempts_answered fresh next _ later relayed last done
termination_by config.renew.maxReplays - exchange.replaysUsed
decreasing_by
  omega

theorem relay_answered (cached : Option Credential) (relayed : Relayed B) (last : Run)
    (unmarked : markerPresent (stripHopByHop request.headers) config = false)
    (done : relay world config request cached = (.ok relayed, last)) :
    ∃ credential response, Answered world config request relayed last credential response := by
  simp only [relay, unmarked, injects_unmarked, if_true] at done
  split at done
  · cases done
  · next fresh run _ => exact attempts_answered world config request _ fresh ⟨0⟩ none run relayed last done

end Runs

theorem getAll_stripServiceCookies (headers : HeaderMap) (config : Config) (credential : Credential) :
    getAll (stripServiceCookies headers config credential) setCookie =
      (getAll headers setCookie).filter (harmless config credential) := by
  have removed : getAll (removeAll headers [setCookie]) setCookie = [] := by
    rw [getAll_removeAll]
    exact if_pos (by decide)
  rw [stripServiceCookies, getAll, List.filter_append, List.map_append, ← getAll, removed, List.nil_append]
  generalize (getAll headers setCookie).filter (harmless config credential) = kept
  have own : (kept.map fun value => (setCookie, value)).filter
      (fun header => Decidable.decide (header.1 = setCookie)) = kept.map fun value => (setCookie, value) := by
    refine List.filter_eq_self.mpr fun header member => ?_
    obtain ⟨value, -, rfl⟩ := List.mem_map.mp member
    exact decide_eq_true rfl
  rw [own, List.map_map]
  exact List.map_id kept

/-- After an injected exchange the service session stays with the proxy exactly when the upstream's
last response disguises no marker. -/
theorem relay_cookiesSafe_iff {B : Type} (world : World B) (config : Config) (request : Request)
    (cached : Option Credential) (relayed : Relayed B) (last : Run)
    (unmarked : markerPresent (stripHopByHop request.headers) config = false)
    (done : relay world config request cached = (.ok relayed, last)) :
    ∃ credential response, Answered world config request relayed last credential response ∧
      (CookiesSafe config credential relayed.response.headers ↔
        ∀ value ∈ getAll (stripHopByHop response.headers) setCookie,
          disguises config credential value = false) := by
  obtain ⟨credential, response, answered⟩ :=
    relay_answered world config request cached relayed last unmarked done
  refine ⟨credential, response, answered, ?_⟩
  obtain ⟨-, -, -, -, whole⟩ := answered
  rw [whole]
  change CookiesSafe config credential (stripServiceCookies _ config credential) ↔ _
  rw [CookiesSafe, getAll_stripServiceCookies]
  constructor
  · intro safe value member
    refine (safe_unless_disguised config credential value).mp fun kept => ?_
    exact safe value (List.mem_filter.mpr ⟨member, kept⟩)
  · intro plain value member
    obtain ⟨inside, kept⟩ := List.mem_filter.mp member
    exact (safe_unless_disguised config credential value).mpr (plain value inside) kept

namespace Sample

/-- The upstream answers every request with one cookie. -/
def setting (text : Text) : World Unit :=
  { world with forward := fun _ _ => .ok ⟨200, [(setCookie, utf8 text)], ()⟩ }

def visitor : Request := { request "close".toList with headers := [] }

def attempted : List Effect := [.acquired, .forwarded [(cookie, utf8 "sid=service".toList)] (some service)]

def answered (text : Text) : Response Unit :=
  answer config (some service) ⟨200, [(setCookie, utf8 text)], ()⟩

end Sample

theorem relay_visitor (text : Text) : relay (Sample.setting text) Sample.config Sample.visitor none =
    (.ok ⟨Sample.answered text, 0, none⟩, ⟨some Sample.service, 3, Sample.attempted⟩) := by
  have started : relay (Sample.setting text) Sample.config Sample.visitor none =
      attempts (Sample.setting text) Sample.config Sample.visitor [] true (some Sample.service) ⟨0⟩ none
        ⟨some Sample.service, 3, [.acquired]⟩ := by
    rfl
  rw [started, attempts]
  rfl

/-- A preference cookie is let through, and the service session stays with the proxy. -/
theorem relay_cookiesSafe_theme :
    relay (Sample.setting "theme=dark; Path=/".toList) Sample.config Sample.visitor none =
        (.ok ⟨Sample.answered "theme=dark; Path=/".toList, 0, none⟩,
          ⟨some Sample.service, 3, Sample.attempted⟩) ∧
      getAll (Sample.answered "theme=dark; Path=/".toList).headers setCookie =
        [utf8 "theme=dark; Path=/".toList] ∧
      CookiesSafe Sample.config Sample.service (Sample.answered "theme=dark; Path=/".toList).headers := by
  have done := relay_visitor "theme=dark; Path=/".toList
  refine ⟨done, by decide, ?_⟩
  obtain ⟨credential, response, ⟨before, outgoing, effects, forwarded, -⟩, same⟩ :=
    relay_cookiesSafe_iff _ _ _ none _ _ (by decide) done
  have written := congrArg List.getLast? effects
  rw [List.getLast?_concat] at written
  cases written
  cases forwarded
  exact same.mpr (by decide)

/-- The upstream's own session, with a blank after its name, is let through and comes back as the
marker. -/
theorem blank_disguises_session :
    ∃ relayed last, relay (Sample.setting "session =service".toList) Sample.config Sample.visitor none =
        (.ok relayed, last) ∧
      getAll relayed.response.headers setCookie = [utf8 "session =service".toList] ∧
      store (utf8 "session =service".toList) = some (utf8 "session".toList, utf8 "service".toList) ∧
      markerPresent [(cookie, utf8 "session=service".toList)] Sample.config = true ∧
      ¬CookiesSafe Sample.config Sample.service relayed.response.headers := by
  have kept : getAll (Sample.answered "session =service".toList).headers setCookie =
      [utf8 "session =service".toList] := by
    decide
  have stored : store (utf8 "session =service".toList) =
      some (utf8 "session".toList, utf8 "service".toList) := by
    decide
  have found : markerPresent [(cookie, utf8 "session=service".toList)] Sample.config = true := by decide
  refine ⟨_, _, relay_visitor _, kept, stored, found, fun safe => ?_⟩
  have hidden := (safe _ (kept ▸ List.mem_singleton_self _) _ _ stored).2
  exact absurd (found.symm.trans hidden) (by decide)

end WeeboSi.PreauthProxy
