import WeeboSi.Gateway.Cidr
import WeeboSi.Gateway.CookieHeader
import WeeboSi.Gateway.RateLimit

/-!
# Whose allowance a sign-in spends

Source: bins/endpoint-gateway/src/state.rs:296-320, 663-722, http.rs:688-719 and main.rs:516-558.
`display` is how the standard library writes an address. A replica's limiter is asked with a key
that is read off the connection and, where its peer may state one, off a header.
-/
namespace WeeboSi.Gateway
open WeeboSi.Lib WeeboSi.EndpointAuth

/-- Whose word on the client address is believed, with its networks read. -/
inductive Trusted where
  | any
  | cidrs (networks : List Cidr)
  | off

def peerMayStateAddress : Trusted → Option IpAddr → Bool
  | .off, _ => false
  | .any, _ => true
  | .cidrs _, none => true
  | .cidrs networks, some peer => networks.any fun cidr => cidr.contains peer

def comma : UInt8 := 44

/-- The rightmost entry of the header's last value. -/
def statedAddress (headers : HeaderMap) (header : Text) : Option Text :=
  (((((headers.getAll (header.map Char.toLower)).getLast?.bind HeaderValue.toStr).bind fun value =>
    (value.splitOn comma).getLast?).map trimBlank).filter fun entry => entry ≠ []).map fun entry =>
      entry.map byteChar

section Key
variable (display : IpAddr → Text)

def limitKey (trusted : Trusted) (header : Text) (headers : HeaderMap) (peer : Option IpAddr) : Text :=
  (((if peerMayStateAddress trusted peer then statedAddress headers header else none).or
    (peer.map display)).getD [])

/-! ## The limit on the sign-in -/

structure LoginSettings where
  trusted : Trusted
  clientIpHeader : Text
  perMinute : UInt32

def LoginSettings.rate (settings : LoginSettings) : Rate := ⟨max settings.perMinute 1, max settings.perMinute 1⟩

def loginCapacity : Nat := 10000

def LoginSettings.limiter (settings : LoginSettings) : RateLimiter := .new settings.rate loginCapacity

/-- A request to one of the sign-in's handlers. -/
structure Arrival where
  peer : Option IpAddr
  headers : HeaderMap
  now : Timestamp

variable (settings : LoginSettings)

def Arrival.key (arrival : Arrival) : Text :=
  limitKey display settings.trusted settings.clientIpHeader arrival.headers arrival.peer

/-- Whether the limit lets a request through; no limit where it is zero. -/
def underTheLoginLimit (limiter : RateLimiter) (arrival : Arrival) : Bool × RateLimiter :=
  if settings.perMinute = 0 then (true, limiter) else limiter.allow (arrival.key display settings) arrival.now

def loginStep (limiter : RateLimiter) (arrival : Arrival) : RateLimiter :=
  (underTheLoginLimit display settings limiter arrival).2

/-! ## Who sent a request -/

/-- Somebody whose word is not taken, or whoever a proxy whose word is taken saw. -/
inductive Source where
  | direct (peer : IpAddr)
  | behind (proxy : IpAddr) (address : Bytes)

/-- The header's last value ends in what the proxy saw, whatever the client wrote before it. -/
structure Appended (headers : HeaderMap) (header : Text) (address : Bytes) : Prop where
  value : ∃ value, (headers.getAll (header.map Char.toLower)).getLast? = some value ∧
    (value.bytes = address ∨ ∃ sent blanks, value.bytes = sent ++ comma :: (blanks ++ address) ∧
      ∀ b ∈ blanks, isBlank b = true)
  nonempty : address ≠ []
  single : comma ∉ address
  solid : ∀ b ∈ address, isBlank b = false

def Source.Sends : Source → Arrival → Prop
  | .direct peer, arrival =>
    arrival.peer = some peer ∧ peerMayStateAddress settings.trusted (some peer) = false
  | .behind proxy address, arrival =>
    arrival.peer = some proxy ∧ Appended arrival.headers settings.clientIpHeader address

/-- The buckets that a source can spend from. -/
def Source.keys : Source → List Text
  | .direct peer => [display peer]
  | .behind proxy address => [address.map byteChar, display proxy]

/-! ## What a source can spend -/

/-- The last entry is what the proxy appended, or nothing is read. -/
theorem statedAddress_appended (headers : HeaderMap) (header : Text) (address : Bytes)
    (appended : Appended headers header address) :
    statedAddress headers header = some (address.map byteChar) ∨ statedAddress headers header = none := by
  obtain ⟨⟨value, isLast, written⟩, nonempty, single, solid⟩ := appended
  unfold statedAddress
  rw [isLast, Option.bind_some, HeaderValue.toStr]
  split
  · left
    have kept : Solid isBlank address :=
      ⟨fun b first => solid b (List.mem_of_head? first), fun b last => solid b (List.mem_of_getLast? last)⟩
    have entry : ((value.bytes.splitOn comma).getLast?).map trimBlank = some address := by
      rcases written with whole | ⟨sent, blanks, whole, blank⟩
      · rw [whole, List.splitOn_eq_singleton single]
        exact congrArg some (trimBy_of_solid isBlank address kept)
      · have plain : comma ∉ blanks ++ address := by
          rw [List.mem_append]
          rintro (inBlanks | inAddress)
          · exact absurd (blank comma inBlanks) (by decide)
          · exact single inAddress
        rw [whole, List.splitOn_append_cons_self, List.splitOn_eq_singleton plain, List.getLast?_concat]
        have trimmed := trimBy_around isBlank blanks address [] kept nonempty blank (by simp)
        rw [List.append_nil] at trimmed
        exact congrArg some trimmed
    rw [Option.bind_some, entry, Option.filter, if_pos (by simpa using nonempty)]
    rfl
  · exact Or.inr rfl

/-- Whatever its headers, a request is counted for its source. -/
theorem key_of_source (source : Source) (arrival : Arrival) (sends : source.Sends settings arrival) :
    arrival.key display settings ∈ source.keys display := by
  cases source with
  | direct peer =>
    obtain ⟨same, refused⟩ := sends
    simp [Arrival.key, limitKey, same, refused, Source.keys]
  | behind proxy address =>
    obtain ⟨same, appended⟩ := sends
    unfold Arrival.key limitKey
    rw [same]
    split
    · rcases statedAddress_appended _ _ address appended with stated | unread
      · simp [stated, Source.keys]
      · simp [unread, Source.keys]
    · simp [Source.keys]

/-- What is counted under one of some keys is counted key by key. -/
theorem granted_le_sum (keys : List Text) (mine : Arrival → Bool) (limiter : RateLimiter) (arrivals : List Arrival)
    (counted : ∀ arrival ∈ arrivals, mine arrival = true → arrival.key display settings ∈ keys) :
    granted (underTheLoginLimit display settings) mine limiter arrivals ≤
      (keys.map fun key => granted (underTheLoginLimit display settings)
        (fun arrival => arrival.key display settings == key) limiter arrivals).sum := by
  induction arrivals generalizing limiter with
  | nil => simp [Lib.granted]
  | cons arrival rest ih =>
    have later := ih (underTheLoginLimit display settings limiter arrival).2
      fun other member => counted other (List.mem_cons_of_mem arrival member)
    have here : (if mine arrival && (underTheLoginLimit display settings limiter arrival).1 then 1 else 0) ≤
        (keys.map fun key => if arrival.key display settings == key &&
          (underTheLoginLimit display settings limiter arrival).1 then 1 else 0).sum := by
      split
      · rename_i passed
        simp only [Bool.and_eq_true] at passed
        have member := counted arrival List.mem_cons_self passed.1
        refine le_trans ?_ (List.single_le_sum (by simp) 1 (List.mem_map.mpr ⟨_, member, ?_⟩))
        · exact le_refl 1
        · simp [passed.2]
      · exact Nat.zero_le _
    simp only [Lib.granted, List.sum_map_add]
    exact Nat.add_le_add here later

/-- What one key may still spend, as the sign-in spends it. -/
theorem login_budget (limited : settings.perMinute ≠ 0) (key : Text) :
    Budget (underTheLoginLimit display settings) (fun arrival => arrival.now.secs)
      (fun arrival => arrival.key display settings == key) 1000 settings.rate.ceiling settings.rate.perSecond
      (fun limiter => limiter.rate = settings.rate)
      (fun limiter now => settings.rate.allowance limiter.buckets key now) where
  keeps limiter arrival same := by
    rw [underTheLoginLimit, if_neg limited]
    exact same
  bounded limiter now _ := settings.rate.allowance_le_ceiling limiter.buckets key now
  refills limiter now later _ order := settings.rate.allowance_refills limiter.buckets key now later order
  pays limiter arrival same := by
    rw [underTheLoginLimit, if_neg limited, ← same]
    exact limiter.allowBuckets_pays (arrival.key display settings) key arrival.now.secs

theorem after_login_rate (limiter : RateLimiter) (arrivals : List Arrival) :
    (after (loginStep display settings) limiter arrivals).rate = limiter.rate := by
  induction arrivals generalizing limiter with
  | nil => rfl
  | cons arrival rest ih =>
    refine (ih (loginStep display settings limiter arrival)).trans ?_
    unfold loginStep underTheLoginLimit
    split
    · rfl
    · rfl

/-- Whatever headers its requests carry and whatever everybody else sends, a source gets no more sign-in
requests through in a window than the rate gives the buckets it can reach: its own address's alone where
its word is not taken, and besides that of the address a proxy saw only the proxy's. -/
theorem source_within_rate (limited : settings.perMinute ≠ 0) (source : Source) (mine : Arrival → Bool)
    (earlier window : List Arrival) (first last : Nat)
    (ordered : (earlier ++ window).Pairwise fun arrival later => arrival.now.secs ≤ later.now.secs)
    (within : ∀ arrival ∈ window, first ≤ arrival.now.secs ∧ arrival.now.secs ≤ last)
    (sent : ∀ arrival ∈ window, mine arrival = true → source.Sends settings arrival) :
    granted (underTheLoginLimit display settings) mine
        (after (loginStep display settings) settings.limiter earlier) window ≤
      (source.keys display).length *
        (settings.rate.burst.toNat + (last - first) * settings.rate.perMinute.toNat / 60) := by
  refine (granted_le_sum display settings (source.keys display) mine _ window fun arrival member isMine =>
    key_of_source display settings source arrival (sent arrival member isMine)).trans ?_
  refine (List.sum_le_card_nsmul _ (settings.rate.burst.toNat +
    (last - first) * settings.rate.perMinute.toNat / 60) ?_).trans (by simp)
  intro paid member
  obtain ⟨key, -, rfl⟩ := List.mem_map.mp member
  apply RateLimiter.calls_le_of_milli
  apply (login_budget display settings limited key).granted_le_window
  · exact after_login_rate display settings settings.limiter earlier
  · exact (List.pairwise_append.mp ordered).2.1
  · exact within

end Key

/-! ## Three sign-ins from one address -/

def strangerAddress : IpAddr := .v4 0x0a000009

def strangerDisplay (_ : IpAddr) : Text := "10.0.0.9".toList

def twoAMinute : LoginSettings := ⟨.off, "X-Forwarded-For".toList, 2⟩

theorem secs_fit (secs : Fin 10) : (secs : Nat) ≤ u64Max := by
  unfold u64Max
  omega

/-- Every request states another address. -/
def strangerArrival (octet : UInt8) (valid : [octet].all isHeaderByte = true) (secs : Fin 10) : Arrival :=
  ⟨some strangerAddress, ⟨[("x-forwarded-for".toList, ⟨[octet], valid⟩)]⟩, ⟨secs, secs_fit secs⟩⟩

def strangerArrivals : List Arrival :=
  [strangerArrival 49 (by decide) 5, strangerArrival 50 (by decide) 5, strangerArrival 51 (by decide) 6]

theorem source_within_rate_stranger :
    granted (underTheLoginLimit strangerDisplay twoAMinute) (fun _ => true) twoAMinute.limiter strangerArrivals ≤
      1 * (2 + (6 - 5) * 2 / 60) := by
  refine source_within_rate strangerDisplay twoAMinute (by decide) (.direct strangerAddress) (fun _ => true) []
    strangerArrivals 5 6 (by decide) (by decide) ?_
  intro arrival member _
  simp only [strangerArrivals, List.mem_cons, List.not_mem_nil, or_false] at member
  rcases member with rfl | rfl | rfl
  · exact ⟨rfl, rfl⟩
  · exact ⟨rfl, rfl⟩
  · exact ⟨rfl, rfl⟩

end WeeboSi.Gateway
