import WeeboSi.EndpointAuth.Policy
import WeeboSi.Lib.IpAddr

/-!
# The networks of a trusted proxy

Source: bins/endpoint-gateway/src/config.rs:498-580. `quoted` is the debug form of a text,
which the messages show.
-/
namespace WeeboSi.Gateway
open WeeboSi.Lib WeeboSi.EndpointAuth

/-- One network, an address and a prefix length that fits its family. -/
structure Cidr where
  network : IpAddr
  prefixLen : Nat
  spelled : Text
  fits : prefixLen ≤ network.width
  deriving DecidableEq, Repr

/-- `u8::from_str`: digits with an optional `+`. -/
def parseU8 (raw : Text) : Option Nat := (parseU16 raw).filter (· < 2 ^ 8)

section Parse
variable (quoted : Text → Text)

def neitherForm (spelled : Text) : Text := quoted spelled ++ " is neither a CIDR nor a dotted prefix".toList

/-- The address of whole octets, the missing ones zero. -/
def ofOctets (octets : List Nat) : IpAddr :=
  .v4 (BitVec.ofNat 8 (octets.getD 0 0) ++ BitVec.ofNat 8 (octets.getD 1 0) ++
    BitVec.ofNat 8 (octets.getD 2 0) ++ BitVec.ofNat 8 (octets.getD 3 0))

/-- What the text spells, before the length is compared with the family's. -/
def Cidr.spelt (spelled : Text) : Except Text (IpAddr × Nat) :=
  match splitOnce '/' spelled with
  | some (address, length) =>
    match parseIpAddr address with
    | none =>
      .error (quoted spelled ++ " is not a CIDR: ".toList ++ quoted address ++ " is not an address".toList)
    | some network =>
      match parseU8 length with
      | none => .error (quoted spelled ++ " is not a CIDR: bad prefix length".toList)
      | some length => .ok (network, length)
  | none =>
    match parseIpAddr spelled with
    | some address => .ok (address, address.width)
    | none =>
      if spelled.getLast? = some '.' then
        match (spelled.dropLast.splitOn '.').mapM parseU8 with
        | none => .error (neitherForm quoted spelled)
        | some octets =>
          if octets = [] ∨ 3 < octets.length then .error (neitherForm quoted spelled)
          else .ok (ofOctets octets, octets.length * 8)
      else .error (quoted spelled ++ " is not a CIDR".toList)

def Cidr.parse (raw : Text) : Except Text Cidr :=
  match Cidr.spelt quoted (trim raw) with
  | .error message => .error message
  | .ok (network, length) =>
    if fits : length ≤ network.width then .ok ⟨network, length, trim raw, fits⟩
    else .error (quoted (trim raw) ++ ": prefix /".toList ++ Nat.toDigits 10 length ++ " is longer than /".toList
      ++ Nat.toDigits 10 network.width)

end Parse

def Cidr.contains (cidr : Cidr) (address : IpAddr) : Bool :=
  match cidr.network, address.canonical with
  | .v4 network, .v4 address =>
    network &&& networkMask 32 cidr.prefixLen == address &&& networkMask 32 cidr.prefixLen
  | .v6 network, .v6 address =>
    network &&& networkMask 128 cidr.prefixLen == address &&& networkMask 128 cidr.prefixLen
  | _, _ => false

/-! ## What membership means -/

/-- The address lies in the network. An IPv4-mapped address is the IPv4 address it maps, and
so is a network written as one: its bits are those of the wider family. -/
def Cidr.Inside (cidr : Cidr) (address : IpAddr) : Prop :=
  match cidr.network, address.canonical with
  | .v4 network, .v4 bits => FirstBitsAgree cidr.prefixLen network bits
  | .v4 _, .v6 _ => False
  | .v6 network, .v4 bits =>
    (IpAddr.v6 network).isMapped = true ∧ FirstBitsAgree cidr.prefixLen network (IpAddr.v4 bits).embedded
  | .v6 network, .v6 bits => FirstBitsAgree cidr.prefixLen network bits

structure Cidr.Exact (cidr : Cidr) : Prop where
  members : ∀ address, cidr.contains address = true ↔ cidr.Inside address
  own : cidr.contains cidr.network = true

/-- The address the text writes, before a slash or on its own. -/
def writtenAddress (raw : Text) : Option IpAddr :=
  match splitOnce '/' (trim raw) with
  | some (address, _) => parseIpAddr address
  | none => parseIpAddr (trim raw)

/-- The text writes its network as an IPv4-mapped address. -/
def writesMapped (raw : Text) : Bool := (writtenAddress raw).any IpAddr.isMapped

/-! ## What is parsed -/

section Parsed
variable (quoted : Text → Text) (raw : Text) (cidr : Cidr)

theorem parse_spelt (parsed : Cidr.parse quoted raw = .ok cidr) :
    Cidr.spelt quoted (trim raw) = .ok (cidr.network, cidr.prefixLen) := by
  unfold Cidr.parse at parsed
  split at parsed
  · cases parsed
  · rename_i network length spelt
    split at parsed
    · cases parsed
      exact spelt
    · cases parsed

/-- The network is the address the text writes; a dotted prefix writes none, and is IPv4. -/
theorem spelt_network (network : IpAddr) (length : Nat)
    (spelt : Cidr.spelt quoted (trim raw) = .ok (network, length)) :
    writtenAddress raw = some network ∨ (writtenAddress raw = none ∧ network.isMapped = false) := by
  unfold Cidr.spelt at spelt
  unfold writtenAddress
  cases cut : splitOnce '/' (trim raw) with
  | some pair =>
    obtain ⟨address, digits⟩ := pair
    simp only [cut] at spelt ⊢
    cases read : parseIpAddr address with
    | none => simp [read] at spelt
    | some written =>
      cases counted : parseU8 digits with
      | none => simp [read, counted] at spelt
      | some count =>
        simp only [read, counted, Except.ok.injEq, Prod.mk.injEq] at spelt
        exact Or.inl (congrArg some spelt.1)
  | none =>
    simp only [cut] at spelt ⊢
    cases read : parseIpAddr (trim raw) with
    | some written =>
      simp only [read, Except.ok.injEq, Prod.mk.injEq] at spelt
      exact Or.inl (congrArg some spelt.1)
    | none =>
      refine Or.inr ⟨rfl, ?_⟩
      simp only [read] at spelt
      split at spelt
      · split at spelt
        · cases spelt
        · split at spelt
          · cases spelt
          · cases spelt
            rfl
      · cases spelt

theorem parse_network (parsed : Cidr.parse quoted raw = .ok cidr) :
    writesMapped raw = cidr.network.isMapped := by
  unfold writesMapped
  rcases spelt_network quoted raw _ _ (parse_spelt quoted raw cidr parsed) with same | ⟨none, plain⟩
  · simp [same]
  · simp [none, plain]

end Parsed

/-! ## When membership is exact -/

theorem canonical_of_isMapped (bits : BitVec 128) (mapped : (IpAddr.v6 bits).isMapped = true) :
    (IpAddr.v6 bits).canonical = .v4 (bits.extractLsb' 0 32) ∧
      (IpAddr.v4 (bits.extractLsb' 0 32)).embedded = bits := by
  simp only [IpAddr.isMapped, decide_eq_true_eq] at mapped
  refine ⟨by rw [IpAddr.canonical, if_pos mapped], ?_⟩
  rw [IpAddr.embedded, ← mapped]
  exact BitVec.extractLsb'_append_extractLsb'

theorem canonical_of_not_mapped (address : IpAddr) (plain : address.isMapped = false) :
    address.canonical = address := by
  cases address with
  | v4 bits => rfl
  | v6 bits =>
    simp only [IpAddr.isMapped, decide_eq_false_iff_not] at plain
    rw [IpAddr.canonical, if_neg plain]

section Membership
variable (cidr : Cidr)

/-- A network contains its own address, as membership is meant. -/
theorem inside_own : cidr.Inside cidr.network := by
  obtain ⟨network, length, spelled, fits⟩ := cidr
  cases mapped : network.isMapped with
  | false =>
    simp only [Cidr.Inside, canonical_of_not_mapped network mapped]
    cases network <;> simp
  | true =>
    cases network with
    | v4 bits => cases mapped
    | v6 bits =>
      obtain ⟨isV4, back⟩ := canonical_of_isMapped bits mapped
      simp only [Cidr.Inside, isV4]
      rw [back]
      exact ⟨mapped, .refl _ _⟩

/-- The masks compare what they are meant to, for a network that is not IPv4-mapped. -/
theorem contains_iff_inside (plain : cidr.network.isMapped = false) (address : IpAddr) :
    cidr.contains address = true ↔ cidr.Inside address := by
  obtain ⟨network, length, spelled, fits⟩ := cidr
  unfold Cidr.contains Cidr.Inside
  cases network with
  | v4 network =>
    have short : length ≤ 32 := fits
    cases address.canonical with
    | v4 bits => simpa only [beq_iff_eq] using masked_eq_iff length short network bits
    | v6 bits => simp
  | v6 network =>
    have short : length ≤ 128 := fits
    cases address.canonical with
    | v4 bits => simp [show (IpAddr.v6 network).isMapped = false from plain]
    | v6 bits => simpa only [beq_iff_eq] using masked_eq_iff length short network bits

/-- An IPv4-mapped network does not even contain its own address. -/
theorem mapped_not_own (mapped : cidr.network.isMapped = true) : cidr.contains cidr.network = false := by
  obtain ⟨network, length, spelled, fits⟩ := cidr
  cases network with
  | v4 bits => cases mapped
  | v6 bits =>
    obtain ⟨isV4, -⟩ := canonical_of_isMapped bits mapped
    simp only [Cidr.contains, isV4]

end Membership

/-- Membership in an accepted network is exact unless the text writes the network itself as an
IPv4-mapped address, which the address it is compared with never is. -/
theorem cidr_exact_iff (quoted : Text → Text) (raw : Text) (cidr : Cidr)
    (parsed : Cidr.parse quoted raw = .ok cidr) : cidr.Exact ↔ writesMapped raw = false := by
  rw [parse_network quoted raw cidr parsed]
  constructor
  · intro exact_
    by_contra mapped
    have outside := mapped_not_own cidr (by simpa using mapped)
    rw [exact_.own] at outside
    cases outside
  · intro plain
    exact ⟨contains_iff_inside cidr plain, (contains_iff_inside cidr plain _).mpr (inside_own cidr)⟩

/-- The networks of the examples. -/
def clusterNetwork : Cidr := ⟨.v4 0x0a800000, 14, "10.128.0.0/14".toList, by decide⟩

def mappedNetwork : Cidr := ⟨.v6 0xffff0a000000, 104, "::ffff:10.0.0.0/104".toList, by decide⟩

theorem cidr_exact_cluster : clusterNetwork.Exact :=
  (cidr_exact_iff id "10.128.0.0/14".toList clusterNetwork (by decide +kernel)).mpr (by decide +kernel)

/-- A mapped network is accepted, and the address it is written with is outside of it. -/
theorem mapped_network_empty :
    Cidr.parse id "::ffff:10.0.0.0/104".toList = .ok mappedNetwork ∧
      mappedNetwork.contains (.v6 0xffff0a000000) = false ∧ mappedNetwork.Inside (.v6 0xffff0a000000) ∧
      ¬ mappedNetwork.Exact := by
  have outside : mappedNetwork.contains (.v6 0xffff0a000000) = false := mapped_not_own mappedNetwork (by decide)
  refine ⟨by decide +kernel, outside, inside_own mappedNetwork, ?_⟩
  intro exact_
  rw [show mappedNetwork.contains (.v6 0xffff0a000000) = true from exact_.own] at outside
  cases outside

end WeeboSi.Gateway
