import WeeboSi.Lib.Base64

/-!
# Reading bytes as text

Bytes are cut into pieces: a character with its whole encoding, or the longest beginning of one
that nothing completes. Strict reading refuses the second kind, lossy reading replaces it.
-/
namespace WeeboSi.Lib

/-! ## Decoding -/

/-- How many bytes the encoding has that starts with this one; none does with `0`. -/
def charWidth (first : UInt8) : Nat :=
  if first < 0x80 then 1
  else if 0xC2 ≤ first ∧ first ≤ 0xDF then 2
  else if 0xE0 ≤ first ∧ first ≤ 0xEF then 3
  else if 0xF0 ≤ first ∧ first ≤ 0xF4 then 4
  else 0

def isContinuation (byte : UInt8) : Bool := 0x80 ≤ byte && byte ≤ 0xBF

/-- The second byte is what excludes overlong encodings, surrogates and what is past the last
character. -/
def secondFits (first second : UInt8) : Bool :=
  isContinuation second &&
    if first = 0xE0 then 0xA0 ≤ second
    else if first = 0xED then second ≤ 0x9F
    else if first = 0xF0 then 0x90 ≤ second
    else if first = 0xF4 then second ≤ 0x8F
    else true

/-- The bytes that continue the encoding. -/
def continuation (first : UInt8) (rest : Bytes) : Bytes :=
  match rest.take (charWidth first - 1) with
  | [] => []
  | second :: more => if secondFits first second then second :: more.takeWhile isContinuation else []

/-- What the first byte of an encoding has beside its mark. -/
def leadingBits (first : UInt8) : Nat :=
  match charWidth first with
  | 2 => first.toNat % 32
  | 3 => first.toNat % 16
  | 4 => first.toNat % 8
  | _ => first.toNat

def assemble (first : UInt8) (more : Bytes) : Char :=
  Char.ofNat (more.foldl (fun value byte => value * 64 + byte.toNat % 64) (leadingBits first))

/-- The pieces of at most `count` first bytes. -/
def pieces : Nat → Bytes → List (Option Char)
  | 0, _ | _, [] => []
  | count + 1, first :: rest =>
    let more := continuation first rest
    (if charWidth first = more.length + 1 then some (assemble first more) else none)
      :: pieces count (rest.drop more.length)

def utf8Pieces (bytes : Bytes) : List (Option Char) := pieces bytes.length bytes

def fromUtf8 (bytes : Bytes) : Option Text := (utf8Pieces bytes).mapM id

def fromUtf8Lossy (bytes : Bytes) : Text := (utf8Pieces bytes).map fun piece => piece.getD '\uFFFD'

example : fromUtf8Lossy [0x75, 0x73, 0xE9, 0x72] = ['u', 's', '\uFFFD', 'r'] := by decide
example : fromUtf8 (utf8 "é€😀".toList) = some "é€😀".toList := by decide +kernel

/-! ## Plain text -/

/-- A character is one byte, itself, or bytes that no plain character has. -/
theorem utf8EncodeChar_cases (c : Char) :
    (c.toNat < 128 ∧ String.utf8EncodeChar c = [UInt8.ofNat c.toNat]) ∨
      (128 ≤ c.toNat ∧ ∀ byte ∈ String.utf8EncodeChar c, 128 ≤ byte.toNat) := by
  have octet : ∀ n : Nat, 128 ≤ n → n < 256 → 128 ≤ (UInt8.ofNat n).toNat := by
    intro n low high
    rw [UInt8.toNat_ofNat', Nat.mod_eq_of_lt high]
    exact low
  by_cases plain : c.toNat < 128
  · left
    have small : c.val.toNat ≤ 0x7f := Nat.le_of_lt_succ plain
    exact ⟨plain, if_pos small⟩
  · right
    have large : ¬c.val.toNat ≤ 0x7f := fun small => plain (Nat.lt_succ_of_le small)
    refine ⟨Nat.le_of_not_lt plain, ?_⟩
    intro byte member
    simp only [String.utf8EncodeChar, if_neg large] at member
    split at member
    · simp only [List.mem_cons, List.not_mem_nil, or_false] at member
      rcases member with rfl | rfl <;> exact octet _ (by omega) (by omega)
    · split at member
      · simp only [List.mem_cons, List.not_mem_nil, or_false] at member
        rcases member with rfl | rfl | rfl <;> exact octet _ (by omega) (by omega)
      · simp only [List.mem_cons, List.not_mem_nil, or_false] at member
        rcases member with rfl | rfl | rfl | rfl <;> exact octet _ (by omega) (by omega)

@[simp] theorem utf8_nil : utf8 [] = [] := rfl

@[simp] theorem utf8_cons (c : Char) (text : Text) :
    utf8 (c :: text) = String.utf8EncodeChar c ++ utf8 text :=
  rfl

@[simp] theorem utf8_append (s t : Text) : utf8 (s ++ t) = utf8 s ++ utf8 t := List.flatMap_append

theorem utf8_intercalate (sep : Text) (parts : List Text) :
    utf8 (sep.intercalate parts) = (utf8 sep).intercalate (parts.map utf8) := by
  induction parts with
  | nil => rfl
  | cons part parts ih =>
    cases parts with
    | nil => simp
    | cons next parts =>
      rw [List.intercalate_cons_cons, utf8_append, utf8_append, ih]
      simp only [List.map_cons, List.intercalate_cons_cons]

/-- A plain byte of an encoded text is a character of it. -/
theorem mem_utf8_plain (text : Text) (byte : UInt8) (member : byte ∈ utf8 text) (plain : byte.toNat < 128) :
    Char.ofNat byte.toNat ∈ text := by
  obtain ⟨c, cMem, inChar⟩ := List.mem_flatMap.mp member
  obtain ⟨small, single⟩ | ⟨_, large⟩ := utf8EncodeChar_cases c
  · rw [single, List.mem_singleton] at inChar
    rw [inChar, UInt8.toNat_ofNat', Nat.mod_eq_of_lt (by omega), Char.ofNat_toNat]
    exact cMem
  · exact absurd plain (Nat.not_lt.mpr (large byte inChar))

/-! ## Bytes one by one -/

/-- The character of one byte. -/
def byteChar (byte : UInt8) : Char := Char.ofNat byte.toNat

theorem toNat_byteChar (byte : UInt8) : (byteChar byte).toNat = byte.toNat := by
  have valid : byte.toNat.isValidChar := by
    have small := byte.toNat_lt
    left
    omega
  rw [byteChar, Char.ofNat, dif_pos valid]
  rfl

theorem byteChar_injective : Function.Injective byteChar := by
  intro a b same
  rw [← UInt8.toNat_inj, ← toNat_byteChar a, ← toNat_byteChar b, same]

theorem utf8_map_byteChar (bytes : Bytes) (plain : ∀ byte ∈ bytes, byte.toNat < 128) :
    utf8 (bytes.map byteChar) = bytes := by
  induction bytes with
  | nil => rfl
  | cons byte bytes ih =>
    have small := plain byte List.mem_cons_self
    rw [List.map_cons, utf8_cons, ih fun other member => plain other (List.mem_cons_of_mem byte member)]
    obtain ⟨_, single⟩ | ⟨large, _⟩ := utf8EncodeChar_cases (byteChar byte)
    · rw [single, toNat_byteChar, UInt8.ofNat_toNat, List.singleton_append]
    · rw [toNat_byteChar] at large
      omega

/-- A text whose encoding is plain bytes is read from them one by one. -/
theorem map_byteChar_utf8 (text : Text) (plain : ∀ byte ∈ utf8 text, byte.toNat < 128) :
    (utf8 text).map byteChar = text := by
  induction text with
  | nil => rfl
  | cons c text ih =>
    rw [utf8_cons] at plain ⊢
    rw [List.map_append, ih fun byte member => plain byte (List.mem_append_right _ member)]
    obtain ⟨small, single⟩ | ⟨_, large⟩ := utf8EncodeChar_cases c
    · rw [single, List.map_singleton, byteChar, UInt8.toNat_ofNat', Nat.mod_eq_of_lt (by omega),
        Char.ofNat_toNat, List.singleton_append]
    · obtain ⟨byte, member⟩ := List.exists_mem_of_ne_nil _ (String.utf8EncodeChar_ne_nil (c := c))
      exact absurd (plain byte (List.mem_append_left _ member)) (Nat.not_lt.mpr (large byte member))

section Parts
variable (part : Text) (bytes : Bytes) (plain : ∀ byte ∈ bytes, byte.toNat < 128)
include plain

theorem prefix_byteChar_iff : part <+: bytes.map byteChar ↔ utf8 part <+: bytes := by
  constructor
  · intro isPrefix
    obtain ⟨front, inBytes, rfl⟩ := List.prefix_map_iff.mp isPrefix
    rw [utf8_map_byteChar front fun byte member => plain byte (inBytes.subset member)]
    exact inBytes
  · intro isPrefix
    rw [← map_byteChar_utf8 part fun byte member => plain byte (isPrefix.subset member)]
    exact isPrefix.map byteChar

theorem infix_byteChar_iff : part <:+: bytes.map byteChar ↔ utf8 part <:+: bytes := by
  constructor
  · intro isInfix
    obtain ⟨middle, inBytes, rfl⟩ := List.infix_map_iff.mp isInfix
    rw [utf8_map_byteChar middle fun byte member => plain byte (inBytes.subset member)]
    exact inBytes
  · intro isInfix
    rw [← map_byteChar_utf8 part fun byte member => plain byte (isInfix.subset member)]
    exact isInfix.map byteChar

end Parts

/-- Plain text reads back, character by character. -/
theorem pieces_plain (text : Text) (plain : ∀ c ∈ text, c.toNat < 128) :
    pieces text.length (utf8 text) = text.map some := by
  induction text with
  | nil => rfl
  | cons c text ih =>
    have small : c.toNat < 128 := plain c List.mem_cons_self
    obtain ⟨_, single⟩ | ⟨large, _⟩ := utf8EncodeChar_cases c
    · have width : charWidth (UInt8.ofNat c.toNat) = 1 := by
        have low : UInt8.ofNat c.toNat < 0x80 := by
          rw [UInt8.lt_iff_toNat_lt, UInt8.toNat_ofNat', Nat.mod_eq_of_lt (by omega)]
          exact small
        simp [charWidth, low]
      have alone : ∀ rest, continuation (UInt8.ofNat c.toNat) rest = [] := by
        intro rest
        simp [continuation, width]
      have same : assemble (UInt8.ofNat c.toNat) [] = c := by
        simp only [assemble, leadingBits, width, List.foldl_nil]
        rw [UInt8.toNat_ofNat', Nat.mod_eq_of_lt (by omega), Char.ofNat_toNat]
      rw [utf8_cons, single]
      simp [pieces, alone, width, same, ih fun d dMem => plain d (List.mem_cons_of_mem c dMem)]
    · omega

theorem length_utf8_plain (text : Text) (plain : ∀ c ∈ text, c.toNat < 128) :
    (utf8 text).length = text.length := by
  induction text with
  | nil => rfl
  | cons c text ih =>
    obtain ⟨_, single⟩ | ⟨large, _⟩ := utf8EncodeChar_cases c
    · simp [single, ih fun d dMem => plain d (List.mem_cons_of_mem c dMem)]
    · exact absurd (plain c List.mem_cons_self) (Nat.not_lt.mpr large)

theorem utf8Pieces_plain (text : Text) (plain : ∀ c ∈ text, c.toNat < 128) :
    utf8Pieces (utf8 text) = text.map some := by
  rw [utf8Pieces, length_utf8_plain text plain, pieces_plain text plain]

theorem fromUtf8_plain (text : Text) (plain : ∀ c ∈ text, c.toNat < 128) :
    fromUtf8 (utf8 text) = some text := by
  rw [fromUtf8, utf8Pieces_plain text plain]
  induction text with
  | nil => rfl
  | cons c text ih => simp [ih fun d dMem => plain d (List.mem_cons_of_mem c dMem)]

theorem fromUtf8Lossy_plain (text : Text) (plain : ∀ c ∈ text, c.toNat < 128) :
    fromUtf8Lossy (utf8 text) = text := by
  rw [fromUtf8Lossy, utf8Pieces_plain text plain, List.map_map]
  exact List.map_id text

end WeeboSi.Lib
