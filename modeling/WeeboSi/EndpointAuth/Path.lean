import WeeboSi.Lib.Outcome
import WeeboSi.Lib.Text

/-!
# Path normalisation

Source: crates/weebo-si-endpoint-auth/src/path.rs:38-173. Segments are decoded byte by
byte: a byte outside ASCII becomes one character in `0x80..=0xff`.
-/
namespace WeeboSi.EndpointAuth
open WeeboSi.Lib

inductive PathError where
  | notAbsolute | badEncoding | doubleEncoded | encodedSeparator | escapesRoot | controlCharacter
  deriving DecidableEq, Repr

def maxPathLen : Nat := 8192

def bytesOf (s : Text) : List UInt8 := s.flatMap String.utf8EncodeChar

/-- `byte as char`. -/
def byteChar (b : UInt8) : Char := Char.ofUInt8 b

def hexValue (b : UInt8) : Option Nat :=
  if 0x30 ≤ b ∧ b ≤ 0x39 then some (b.toNat - 0x30)
  else if 0x61 ≤ b ∧ b ≤ 0x66 then some (b.toNat - 0x61 + 10)
  else if 0x41 ≤ b ∧ b ≤ 0x46 then some (b.toNat - 0x41 + 10)
  else none

def decodeBytes : List UInt8 → Except PathError Text
  | [] => .ok []
  | b :: rest =>
    if b ≠ 0x25 then do
      let out ← decodeBytes rest
      .ok (byteChar b :: out)
    else match rest with
      | high :: low :: more =>
        match hexValue high, hexValue low with
        | some high, some low =>
          let decoded := high * 16 + low
          if decoded = 0x2f ∨ decoded = 0x5c then .error .encodedSeparator
          else if decoded = 0x25 then .error .doubleEncoded
          else if decoded ≤ 0x1f ∨ decoded = 0x7f then .error .controlCharacter
          else do
            let out ← decodeBytes more
            .ok (Char.ofNat decoded :: out)
        | _, _ => .error .badEncoding
      | _ => .error .badEncoding

/-- Whether some window of three reads as another `%XX`. -/
def decodesAgain : List UInt8 → Bool
  | a :: b :: c :: rest =>
    (a == 0x25 && (hexValue b).isSome && (hexValue c).isSome) || decodesAgain (b :: c :: rest)
  | _ => false

def decodeOnce (segment : Text) : Except PathError Text := do
  let out ← decodeBytes (bytesOf segment)
  if decodesAgain (bytesOf out) then .error .doubleEncoded else .ok out

/-- The part of a segment before its `;`-parameter. -/
def beforeParameter (segment : Text) : Text :=
  match splitOnce ';' segment with
  | some (before, _) => before
  | none => segment

/-- The segment loop: `out` and the flag `ended_on_dot_segment`. -/
def walkSegments : List Text → List Text → Bool → Except PathError (List Text × Bool)
  | [], out, dotted => .ok (out, dotted)
  | raw :: rest, out, dotted => do
    let decoded ← decodeOnce (beforeParameter raw)
    if decoded = [] then walkSegments rest out dotted
    else if decoded = ['.'] then walkSegments rest out true
    else if decoded = ['.', '.'] then
      if out = [] then .error .escapesRoot else walkSegments rest out.dropLast true
    else walkSegments rest (out ++ [decoded]) false

/-- Segments joined with a leading slash each, closed by one for a directory or the root. -/
def renderPath (segments : List Text) (trailingSlash : Bool) : Text :=
  segments.flatMap ('/' :: ·) ++ (if segments = [] ∨ trailingSlash then ['/'] else [])

def normalise (raw : Text) : Except PathError Text :=
  if raw.head? ≠ some '/' ∨ byteLen raw > maxPathLen then .error .notAbsolute
  else
    let path := raw.takeWhile fun c => c ≠ '?' && c ≠ '#'
    do
      let (out, endedOnDotSegment) ← walkSegments (path.splitOn '/') [] false
      .ok (renderPath out (path.getLast? = some '/' || endedOnDotSegment))

example : normalise "/a/./b//c/..".toList = .ok "/a/b/".toList := by decide +kernel

/-! ## Octets -/

/-- A text with each byte of its encoding as one character. -/
def octets (s : Text) : Text := (bytesOf s).map byteChar

theorem octets_cons (c : Char) (s : Text) :
    octets (c :: s) = (String.utf8EncodeChar c).map byteChar ++ octets s := by
  simp [octets, bytesOf]

theorem byteChar_toNat (b : UInt8) : (byteChar b).toNat = b.toNat := rfl

theorem octets_char_ascii (c : Char) (ascii : c.utf8Size = 1) :
    (String.utf8EncodeChar c).map byteChar = [c] := by
  have bound : c.val.toNat ≤ 0x7f := by
    rw [Char.utf8Size_eq_one_iff, UInt32.le_iff_toNat_le] at ascii
    simpa using ascii
  rw [String.utf8EncodeChar_eq_singleton ascii]
  simp only [List.map_cons, List.map_nil, List.cons.injEq, and_true]
  apply Char.ext
  apply UInt32.toNat_inj.mp
  have same := byteChar_toNat c.val.toUInt8
  simp only [Char.toNat, UInt32.toNat_toUInt8] at same
  rw [same]
  omega

theorem octets_char_other (c : Char) (other : c.utf8Size ≠ 1) :
    ∀ d ∈ (String.utf8EncodeChar c).map byteChar, 0x80 ≤ d.toNat := by
  have large : ¬ c.val.toNat ≤ 0x7f := by
    intro small
    apply other
    rw [Char.utf8Size_eq_one_iff, UInt32.le_iff_toNat_le]
    simpa using small
  intro d member
  obtain ⟨b, hb, rfl⟩ := List.mem_map.mp member
  rw [byteChar_toNat]
  simp only [String.utf8EncodeChar, large, if_false] at hb
  split at hb
  · simp only [List.mem_cons, List.not_mem_nil, or_false] at hb
    rcases hb with rfl | rfl <;> simp <;> omega
  · split at hb
    · simp only [List.mem_cons, List.not_mem_nil, or_false] at hb
      rcases hb with rfl | rfl | rfl <;> simp <;> omega
    · simp only [List.mem_cons, List.not_mem_nil, or_false] at hb
      rcases hb with rfl | rfl | rfl | rfl <;> simp <;> omega

@[simp] theorem octets_append (s t : Text) : octets (s ++ t) = octets s ++ octets t := by
  simp [octets, bytesOf]

theorem length_bytesOf (s : Text) : (bytesOf s).length = byteLen s := by
  unfold bytesOf byteLen
  simp [List.length_flatMap]

theorem length_octets (s : Text) : (octets s).length = byteLen s := by
  rw [octets, List.length_map, length_bytesOf]

theorem octets_of_ascii (s : Text) (ascii : ∀ c ∈ s, c.utf8Size = 1) : octets s = s := by
  induction s with
  | nil => rfl
  | cons c s ih =>
    rw [octets_cons, octets_char_ascii c (ascii c (by simp)), ih (fun d member => ascii d (by simp [member]))]
    rfl

/-- ASCII characters of the octets are those of the text. -/
theorem mem_octets (d : Char) (s : Text) (ascii : d.utf8Size = 1) : d ∈ octets s ↔ d ∈ s := by
  have small : d.toNat < 0x80 := by
    rw [Char.utf8Size_eq_one_iff, UInt32.le_iff_toNat_le] at ascii
    exact Nat.lt_succ_of_le ascii
  induction s with
  | nil => simp [octets, bytesOf]
  | cons c s ih =>
    simp only [octets_cons, List.mem_append, ih, List.mem_cons]
    refine or_congr_left ?_
    by_cases single : c.utf8Size = 1
    · rw [octets_char_ascii c single, List.mem_singleton]
    · constructor
      · intro member
        have := octets_char_other c single d member
        omega
      · rintro rfl
        exact absurd ascii single

theorem octets_eq_nil (s : Text) : octets s = [] ↔ s = [] := by
  constructor
  · intro h
    have bytes := length_octets s
    have chars := length_le_byteLen s
    rw [h] at bytes
    simp only [List.length_nil] at bytes
    exact List.length_eq_zero_iff.mp (by omega)
  · rintro rfl
    rfl

/-- The octets are an ASCII text only for that text itself. -/
theorem octets_eq_ascii (s t : Text) (ascii : ∀ c ∈ t, c.utf8Size = 1) : octets s = t ↔ s = t := by
  constructor
  · rintro rfl
    have single : ∀ c ∈ s, c.utf8Size = 1 := by
      intro c member
      by_contra other
      obtain ⟨front, back, rfl⟩ := List.append_of_mem member
      have nonempty : (String.utf8EncodeChar c).map byteChar ≠ [] := by
        simp [String.utf8EncodeChar_ne_nil]
      obtain ⟨d, rest, hd⟩ := List.exists_cons_of_ne_nil nonempty
      have large := octets_char_other c other d (by simp [hd])
      have small := ascii d (by simp [octets_append, octets_cons, hd])
      rw [Char.utf8Size_eq_one_iff, UInt32.le_iff_toNat_le] at small
      have : d.toNat ≤ 0x7f := small
      omega
    exact (octets_of_ascii s single).symm
  · rintro rfl
    exact octets_of_ascii s ascii

/-! ## Segments without an encoding -/

theorem decodeBytes_plain (bytes : List UInt8) (plain : 0x25 ∉ bytes) :
    decodeBytes bytes = .ok (bytes.map byteChar) := by
  induction bytes with
  | nil => rfl
  | cons b rest ih =>
    simp only [List.mem_cons, not_or] at plain
    unfold decodeBytes
    rw [if_pos (Ne.symm plain.1), ih plain.2]
    rfl

theorem decodesAgain_plain (bytes : List UInt8) (plain : 0x25 ∉ bytes) :
    decodesAgain bytes = false := by
  induction bytes with
  | nil => rfl
  | cons a rest ih =>
    simp only [List.mem_cons, not_or] at plain
    have more := ih plain.2
    match rest, more with
    | [], _ => rfl
    | [_], _ => rfl
    | b :: c :: tail, more =>
      have first : (a == 0x25) = false := beq_false_of_ne (Ne.symm plain.1)
      simp only [decodesAgain, first, Bool.false_and, Bool.false_or]
      exact more

theorem bytesOf_plain (s : Text) (plain : '%' ∉ s) : 0x25 ∉ bytesOf s := by
  intro member
  have inOctets : byteChar 0x25 ∈ octets s := List.mem_map_of_mem member
  exact plain ((mem_octets '%' s (by decide)).mp inOctets)

/-- Without `%` and `;`, a segment is read as its octets. -/
theorem decodeOnce_plain (s : Text) (percent : '%' ∉ s) (semicolon : ';' ∉ s) :
    decodeOnce (beforeParameter s) = .ok (octets s) := by
  have whole : beforeParameter s = s := by simp [beforeParameter, splitOnce_absent _ _ semicolon]
  have again : '%' ∉ octets s := fun member => percent ((mem_octets '%' s (by decide)).mp member)
  have out := decodeBytes_plain _ (bytesOf_plain s percent)
  have once := decodesAgain_plain _ (bytesOf_plain _ again)
  rw [whole]
  unfold decodeOnce
  rw [out]
  change (if decodesAgain (bytesOf (octets s)) then _ else _) = _
  rw [once]
  rfl

end WeeboSi.EndpointAuth
