import WeeboSi.Lib.Text

/-!
# Bytes as text and text as bytes

UTF-8, and unpadded base64 for URLs: three bytes are four characters. The last group may be
short, and the bits its last character has to spare are zero. A decoder refuses anything
else, so a text has at most one reading.
-/
namespace WeeboSi.Lib

abbrev Bytes := List UInt8

def utf8 (text : Text) : Bytes := text.flatMap String.utf8EncodeChar

theorem utf8_injective : Function.Injective utf8 := by
  intro s t same
  have bytes : s.utf8Encode = t.utf8Encode := by
    simpa [List.utf8Encode, utf8] using congrArg List.toByteArray same
  have read := congrArg ByteArray.utf8Decode? bytes
  simpa [List.utf8Decode?_utf8Encode] using read

/-! ## Base64 -/

def base64Alphabet : List Char :=
  "ABCDEFGHIJKLMNOPQRSTUVWXYZabcdefghijklmnopqrstuvwxyz0123456789-_".toList

/-- The character of a sextet. -/
def sextetChar (n : Nat) : Char := base64Alphabet.getD n 'A'

def sextetOf (c : Char) : Option Nat :=
  if c.isUpper then some (c.toNat - 65)
  else if c.isLower then some (c.toNat - 97 + 26)
  else if c.isDigit then some (c.toNat - 48 + 52)
  else if c = '-' then some 62
  else if c = '_' then some 63
  else none

def base64Encode : Bytes → Text
  | [] => []
  | [a] => [sextetChar (a.toNat / 4), sextetChar (a.toNat % 4 * 16)]
  | [a, b] =>
    [sextetChar (a.toNat / 4), sextetChar (a.toNat % 4 * 16 + b.toNat / 16),
      sextetChar (b.toNat % 16 * 4)]
  | a :: b :: c :: rest =>
    sextetChar (a.toNat / 4) :: sextetChar (a.toNat % 4 * 16 + b.toNat / 16)
      :: sextetChar (b.toNat % 16 * 4 + c.toNat / 64) :: sextetChar (c.toNat % 64)
      :: base64Encode rest

def base64Decode : Text → Option Bytes
  | [] => some []
  | [_] => none
  | [w, x] => do
    let w ← sextetOf w
    let x ← sextetOf x
    if x % 16 = 0 then some [.ofNat (w * 4 + x / 16)] else none
  | [w, x, y] => do
    let w ← sextetOf w
    let x ← sextetOf x
    let y ← sextetOf y
    if y % 4 = 0 then some [.ofNat (w * 4 + x / 16), .ofNat (x % 16 * 16 + y / 4)] else none
  | w :: x :: y :: z :: rest => do
    let w ← sextetOf w
    let x ← sextetOf x
    let y ← sextetOf y
    let z ← sextetOf z
    let more ← base64Decode rest
    some (.ofNat (w * 4 + x / 16) :: .ofNat (x % 16 * 16 + y / 4) :: .ofNat (y % 4 * 64 + z) :: more)

@[simp] theorem sextetOf_sextetChar (n : Nat) (small : n < 64) : sextetOf (sextetChar n) = some n := by
  have all : ∀ n : Fin 64, sextetOf (sextetChar n) = some n.val := by decide +kernel
  exact all ⟨n, small⟩

/-- A byte from the number it is. -/
theorem ofNat_eq (b : UInt8) (n : Nat) (same : n = b.toNat) : UInt8.ofNat n = b := by
  rw [same]
  exact UInt8.ofNat_toNat

theorem base64Decode_encode (bytes : Bytes) : base64Decode (base64Encode bytes) = some bytes := by
  induction bytes using base64Encode.induct with
  | case1 => rfl
  | case2 a =>
    have := a.toNat_lt
    simp (disch := omega) only [base64Encode, base64Decode, sextetOf_sextetChar, Option.bind_eq_bind,
      Option.bind_some]
    rw [if_pos (by omega), ofNat_eq a _ (by omega)]
  | case3 a b =>
    have := a.toNat_lt
    have := b.toNat_lt
    simp (disch := omega) only [base64Encode, base64Decode, sextetOf_sextetChar, Option.bind_eq_bind,
      Option.bind_some]
    rw [if_pos (by omega), ofNat_eq a _ (by omega), ofNat_eq b _ (by omega)]
  | case4 a b c rest ih =>
    have := a.toNat_lt
    have := b.toNat_lt
    have := c.toNat_lt
    simp (disch := omega) only [base64Encode, base64Decode, sextetOf_sextetChar, Option.bind_eq_bind,
      Option.bind_some, ih]
    rw [ofNat_eq a _ (by omega), ofNat_eq b _ (by omega), ofNat_eq c _ (by omega)]

theorem sextetChar_mem (n : Nat) : sextetChar n ∈ base64Alphabet := by
  unfold sextetChar
  rw [List.getD_eq_getElem?_getD]
  cases found : base64Alphabet[n]? with
  | none => decide
  | some c => exact List.mem_of_getElem? found

theorem base64Encode_chars (bytes : Bytes) : ∀ c ∈ base64Encode bytes, c ∈ base64Alphabet := by
  induction bytes using base64Encode.induct with
  | case1 => simp [base64Encode]
  | case2 a => simp [base64Encode, sextetChar_mem]
  | case3 a b => simp [base64Encode, sextetChar_mem]
  | case4 a b c rest ih =>
    intro d member
    simp only [base64Encode, List.mem_cons] at member
    rcases member with rfl | rfl | rfl | rfl | inside
    · exact sextetChar_mem _
    · exact sextetChar_mem _
    · exact sextetChar_mem _
    · exact sextetChar_mem _
    · exact ih d inside

/-- A character of no sextet is in no encoded text. -/
theorem base64Encode_absent (bytes : Bytes) (c : Char) (foreign : c ∉ base64Alphabet) :
    c ∉ base64Encode bytes :=
  fun member => foreign (base64Encode_chars bytes c member)

end WeeboSi.Lib
