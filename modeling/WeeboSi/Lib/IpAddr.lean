import WeeboSi.Lib.Text

/-!
# Internet addresses

The two families, their text forms as the standard parser of the source language reads them,
the canonical form of an IPv4-mapped address, and what a network mask compares.
-/
namespace WeeboSi.Lib

inductive IpAddr where
  | v4 (bits : BitVec 32)
  | v6 (bits : BitVec 128)
  deriving DecidableEq, Repr

namespace IpAddr

/-- The 96 bits an IPv4-mapped address starts with. -/
def mappedStart : BitVec 96 := 0xffff

def isMapped : IpAddr → Bool
  | .v4 _ => false
  | .v6 bits => bits.extractLsb' 32 96 = mappedStart

/-- An IPv4-mapped address as the IPv4 address it is. -/
def canonical : IpAddr → IpAddr
  | .v4 bits => .v4 bits
  | .v6 bits => if bits.extractLsb' 32 96 = mappedStart then .v4 (bits.extractLsb' 0 32) else .v6 bits

/-- The bits of an address among those of the wider family. -/
def embedded : IpAddr → BitVec 128
  | .v4 bits => mappedStart ++ bits
  | .v6 bits => bits

/-- The number of bits of an address of this family. -/
def width : IpAddr → Nat
  | .v4 _ => 32
  | .v6 _ => 128

end IpAddr

/-! ## Reading an address -/

/-- A reader takes a value off the front of a text; a failed one has taken nothing. -/
abbrev Reader (α : Type) := Text → Option (α × Text)

def digitValue (c : Char) : Option Nat :=
  if c.isDigit then some (c.toNat - '0'.toNat)
  else if 'a' ≤ c ∧ c ≤ 'f' then some (c.toNat - 'a'.toNat + 10)
  else if 'A' ≤ c ∧ c ≤ 'F' then some (c.toNat - 'A'.toNat + 10)
  else none

/-- Whether a character is a digit of this radix, at most sixteen. -/
def isDigitOf (radix : Nat) (c : Char) : Bool := (digitValue c).any (· < radix)

def numberOf (radix : Nat) (digits : Text) : Nat :=
  digits.foldl (fun acc c => acc * radix + (digitValue c).getD 0) 0

def readGivenChar (given : Char) : Reader Unit
  | c :: rest => if c = given then some ((), rest) else none
  | [] => none

/-- All the digits that stand next, at most `maxDigits` of them, below `bound`. -/
def readNumber (radix maxDigits bound : Nat) (allowZeroPrefix : Bool) : Reader Nat := fun s =>
  let digits := s.takeWhile (isDigitOf radix)
  if digits = [] ∨ maxDigits < digits.length then none
  else if allowZeroPrefix = false ∧ s.head? = some '0' ∧ 1 < digits.length then none
  else if numberOf radix digits < bound then some (numberOf radix digits, s.dropWhile (isDigitOf radix))
  else none

/-- Every group but the first is behind a separator. -/
def readSeparator {α : Type} (sep : Char) (first : Bool) (inner : Reader α) : Reader α := fun s =>
  if first then inner s else (readGivenChar sep s).bind fun (_, rest) => inner rest

def readOctet (first : Bool) : Reader Nat := readSeparator '.' first (readNumber 10 3 256 false)

def readIpv4 : Reader (BitVec 32) := fun s => do
  let (a, s) ← readOctet true s
  let (b, s) ← readOctet false s
  let (c, s) ← readOctet false s
  let (d, s) ← readOctet false s
  return (BitVec.ofNat 8 a ++ BitVec.ofNat 8 b ++ BitVec.ofNat 8 c ++ BitVec.ofNat 8 d, s)

/-- At most `limit` groups, and whether the last two were written as an IPv4 address. -/
def readGroups : (limit : Nat) → (first : Bool) → Text → List (BitVec 16) × Bool × Text
  | 0, _, s => ([], false, s)
  | limit + 1, first, s =>
    match if 0 < limit then readSeparator ':' first readIpv4 s else none with
    | some (bits, rest) => ([bits.extractLsb' 16 16, bits.extractLsb' 0 16], true, rest)
    | none =>
      match readSeparator ':' first (readNumber 16 4 (2 ^ 16) true) s with
      | none => ([], false, s)
      | some (group, rest) =>
        let (groups, ipv4, rest) := readGroups limit false rest
        (BitVec.ofNat 16 group :: groups, ipv4, rest)

def ofGroups (groups : List (BitVec 16)) : BitVec 128 :=
  groups.foldl (fun bits group => (bits <<< 16) ||| group.setWidth 128) 0

def readIpv6 : Reader (BitVec 128) := fun s =>
  let (head, headIpv4, rest) := readGroups 8 true s
  if head.length = 8 then some (ofGroups head, rest)
  else if headIpv4 then none
  else do
    let (_, rest) ← readGivenChar ':' rest
    let (_, rest) ← readGivenChar ':' rest
    let (tail, _, rest) := readGroups (8 - (head.length + 1)) true rest
    let zeros := List.replicate (8 - head.length - tail.length) 0
    return (ofGroups (head ++ zeros ++ tail), rest)

/-- The whole text as an address; what starts like an IPv4 address is read as nothing else. -/
def parseIpAddr (s : Text) : Option IpAddr :=
  match readIpv4 s with
  | some (bits, rest) => if rest = [] then some (.v4 bits) else none
  | none =>
    match readIpv6 s with
    | some (bits, rest) => if rest = [] then some (.v6 bits) else none
    | none => none

example : parseIpAddr "::ffff:10.1.2.3".toList = some (.v6 0xffff0a010203) := by decide +kernel
example : parseIpAddr "fd00:0:0:1::8".toList = some (.v6 0xfd000000000000010000000000000008) := by decide +kernel
example : parseIpAddr "10.01.2.3".toList = none := by decide +kernel

/-! ## Masks -/

/-- Shift left, unless by the whole width or more. -/
def checkedShl {w : Nat} (x : BitVec w) (n : Nat) : Option (BitVec w) := if n < w then some (x <<< n) else none

/-- The mask of a network: its first `length` bits set. -/
def networkMask (w length : Nat) : BitVec w := (checkedShl (BitVec.allOnes w) (w - length)).getD 0#w

/-- Agreement on the first bits. -/
def FirstBitsAgree {w : Nat} (length : Nat) (x y : BitVec w) : Prop :=
  ∀ i < length, x.getMsbD i = y.getMsbD i

theorem getMsbD_networkMask (w length i : Nat) (fits : length ≤ w) :
    (networkMask w length).getMsbD i = decide (i < length) := by
  unfold networkMask checkedShl
  by_cases whole : w - length < w
  · simp only [whole, if_true, Option.getD_some, BitVec.getMsbD_shiftLeft, BitVec.getMsbD_allOnes]
    exact decide_eq_decide.mpr (by omega)
  · have empty : length = 0 := by omega
    simp only [whole, if_false, Option.getD_none]
    rw [BitVec.getMsbD_zero]
    simp [empty]

/-- Equal under the mask is equal on the bits it keeps. -/
theorem masked_eq_iff {w : Nat} (length : Nat) (fits : length ≤ w) (x y : BitVec w) :
    x &&& networkMask w length = y &&& networkMask w length ↔ FirstBitsAgree length x y := by
  constructor
  · intro same i inside
    have bit := congrArg (fun z => z.getMsbD i) same
    simpa [getMsbD_networkMask w length i fits, inside] using bit
  · intro agree
    apply BitVec.eq_of_getMsbD_eq
    intro i _
    rw [BitVec.getMsbD_and, BitVec.getMsbD_and, getMsbD_networkMask w length i fits]
    by_cases inside : i < length
    · rw [agree i inside]
    · simp [inside]

@[simp] theorem FirstBitsAgree.refl {w : Nat} (length : Nat) (x : BitVec w) : FirstBitsAgree length x x :=
  fun _ _ => rfl

end WeeboSi.Lib
