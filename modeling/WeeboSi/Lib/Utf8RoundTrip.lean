import WeeboSi.Lib.Utf8

/-!
# Encoded text reads back

Every character is read back from its encoding, whatever follows, and bytes that do not end inside a
character are read apart from what follows them.
-/
namespace WeeboSi.Lib

/-! ## Reading on -/

theorem continuation_length (first : UInt8) (rest : Bytes) : (continuation first rest).length ≤ rest.length := by
  unfold continuation
  split
  · exact Nat.zero_le _
  · rename_i second more taken
    split
    · have shorter : (second :: more).length ≤ rest.length := taken ▸ List.length_take_le' _ _
      exact (Nat.succ_le_succ (List.takeWhile_sublist _).length_le).trans shorter
    · exact Nat.zero_le _

theorem pieces_enough (count : Nat) (bytes : Bytes) (enough : bytes.length ≤ count) :
    pieces count bytes = utf8Pieces bytes := by
  rw [utf8Pieces]
  generalize same : bytes.length = length at enough ⊢
  have short : bytes.length ≤ length := same.le
  clear same
  induction count generalizing bytes length with
  | zero =>
    have none : bytes = [] := List.length_eq_zero_iff.mp (by omega)
    subst none
    cases length <;> rfl
  | succ count ih =>
    cases bytes with
    | nil => cases length <;> rfl
    | cons first rest =>
      rw [List.length_cons] at short
      obtain ⟨less, rfl⟩ : ∃ less, length = less + 1 := ⟨length - 1, by omega⟩
      simp only [pieces]
      have left : (rest.drop (continuation first rest).length).length ≤ less := by
        rw [List.length_drop]
        omega
      rw [ih _ less (by omega) left]

theorem utf8Pieces_cons (first : UInt8) (rest : Bytes) :
    utf8Pieces (first :: rest) =
      (if charWidth first = (continuation first rest).length + 1 then
          some (assemble first (continuation first rest))
        else none) :: utf8Pieces (rest.drop (continuation first rest).length) := by
  rw [utf8Pieces, List.length_cons, pieces, pieces_enough]
  rw [List.length_drop]
  exact Nat.sub_le _ _

/-- The last piece of at most `count` lacks bytes, and has none behind it. -/
def endsInside : Nat → Bytes → Bool
  | 0, _ | _, [] => false
  | count + 1, first :: rest =>
    let more := continuation first rest
    if more.length = rest.length ∧ more.length + 1 < charWidth first then true
    else endsInside count (rest.drop more.length)

def endsInsideChar (bytes : Bytes) : Bool := endsInside bytes.length bytes

theorem continuation_append (first : UInt8) (rest later : Bytes)
    (ended : ¬ ((continuation first rest).length = rest.length ∧
      (continuation first rest).length + 1 < charWidth first)) :
    continuation first (rest ++ later) = continuation first rest := by
  by_cases long : charWidth first - 1 ≤ rest.length
  · rw [continuation, continuation, List.take_append_of_le_length long]
  · -- all of the rest is looked at, so something in it must have stopped the encoding
    have all : rest.take (charWidth first - 1) = rest := List.take_of_length_le (by omega)
    cases rest with
    | nil =>
      refine absurd ⟨by simp [continuation], ?_⟩ ended
      simp only [continuation, List.take_nil, List.length_nil] at long ⊢
      omega
    | cons second tail =>
      obtain ⟨width, wide⟩ : ∃ width, charWidth first - 1 = width + 1 :=
        ⟨charWidth first - 2, by rw [List.length_cons] at long; omega⟩
      rw [wide, List.length_cons] at long
      rw [continuation, all] at ended
      rw [continuation, continuation, all, List.cons_append, wide, List.take_succ_cons]
      cases fits : secondFits first second with
      | false => simp [fits]
      | true =>
        simp only [fits, if_true, List.length_cons] at ended ⊢
        have stops : (tail.takeWhile isContinuation).length ≠ tail.length := by
          intro same
          exact ended ⟨by omega, by omega⟩
        rw [List.take_append, List.take_of_length_le (by omega), List.takeWhile_append, if_neg stops]

theorem utf8Pieces_append (bytes later : Bytes) (ended : endsInsideChar bytes = false) :
    utf8Pieces (bytes ++ later) = utf8Pieces bytes ++ utf8Pieces later := by
  rw [endsInsideChar] at ended
  generalize same : bytes.length = count at ended
  have short : bytes.length ≤ count := same.le
  clear same
  induction count generalizing bytes with
  | zero =>
    rw [List.length_eq_zero_iff.mp (Nat.le_zero.mp short)]
    rfl
  | succ count ih =>
    cases bytes with
    | nil => rfl
    | cons first rest =>
      rw [endsInside] at ended
      split at ended
      · cases ended
      · rename_i whole
        have bounded := continuation_length first rest
        have left : (rest.drop (continuation first rest).length).length ≤ count := by
          rw [List.length_drop]
          rw [List.length_cons] at short
          omega
        rw [List.cons_append, utf8Pieces_cons, utf8Pieces_cons, continuation_append first rest later whole,
          List.drop_append_of_le_length bounded, ih _ ended left, List.cons_append]

/-! ## Every character -/

/-- The bytes are one whole encoding of the character. -/
structure Encodes (c : Char) (first : UInt8) (more : Bytes) : Prop where
  encoded : String.utf8EncodeChar c = first :: more
  width : charWidth first = more.length + 1
  second : ∀ byte, more.head? = some byte → secondFits first byte = true
  continued : ∀ byte ∈ more, isContinuation byte = true
  assembled : assemble first more = c

theorem toNat_octet (n : Nat) (small : n < 256) : (UInt8.ofNat n).toNat = n := by
  rw [UInt8.toNat_ofNat', Nat.mod_eq_of_lt small]

theorem charWidth_octet (n : Nat) (small : n < 256) :
    charWidth (UInt8.ofNat n) =
      if n < 128 then 1 else if 194 ≤ n ∧ n ≤ 223 then 2 else if 224 ≤ n ∧ n ≤ 239 then 3
      else if 240 ≤ n ∧ n ≤ 244 then 4 else 0 := by
  simp only [charWidth, UInt8.lt_iff_toNat_lt, UInt8.le_iff_toNat_le, toNat_octet n small]
  rfl

theorem isContinuation_octet (n : Nat) (low : 128 ≤ n) (high : n ≤ 191) :
    isContinuation (UInt8.ofNat n) = true := by
  simp only [isContinuation, UInt8.le_iff_toNat_le, toNat_octet n (by omega), Bool.and_eq_true, decide_eq_true_eq]
  exact ⟨low, high⟩

theorem secondFits_octet (first second : Nat) (firstSmall : first < 256)
    (low : 128 ≤ second) (high : second ≤ 191)
    (short : first = 224 → 160 ≤ second) (surrogate : first = 237 → second ≤ 159)
    (overlong : first = 240 → 144 ≤ second) (last : first = 244 → second ≤ 143) :
    secondFits (UInt8.ofNat first) (UInt8.ofNat second) = true := by
  simp only [secondFits, isContinuation_octet second low high, Bool.true_and, UInt8.le_iff_toNat_le,
    ← UInt8.toNat_inj, toNat_octet first firstSmall, toNat_octet second (by omega)]
  split
  · exact decide_eq_true (short (by assumption))
  · split
    · exact decide_eq_true (surrogate (by assumption))
    · split
      · exact decide_eq_true (overlong (by assumption))
      · split
        · exact decide_eq_true (last (by assumption))
        · rfl

section Widths
variable (c : Char)

theorem assemble_eq (first : UInt8) (more : Bytes)
    (same : more.foldl (fun value byte => value * 64 + byte.toNat % 64) (leadingBits first) = c.toNat) :
    assemble first more = c := by
  rw [assemble, same, Char.ofNat_toNat]

theorem encodes_one (small : c.toNat ≤ 127) : Encodes c (UInt8.ofNat c.toNat) [] := by
  have width := charWidth_octet c.toNat (by omega)
  rw [if_pos (by omega)] at width
  refine ⟨if_pos small, width, nofun, nofun, assemble_eq c _ _ ?_⟩
  simp only [leadingBits, width, List.foldl_nil]
  exact toNat_octet _ (by omega)

theorem encodes_two (large : 127 < c.toNat) (small : c.toNat ≤ 2047) :
    Encodes c (UInt8.ofNat (c.toNat / 64 % 32 + 192)) [UInt8.ofNat (c.toNat % 64 + 128)] := by
  have width := charWidth_octet (c.toNat / 64 % 32 + 192) (by omega)
  rw [if_neg (by omega), if_pos (by omega)] at width
  refine ⟨?_, width, ?_, ?_, assemble_eq c _ _ ?_⟩
  · exact (if_neg (Nat.not_le.mpr large)).trans (if_pos small)
  · rintro byte ⟨⟩
    exact secondFits_octet _ _ (by omega) (by omega) (by omega) (by omega) (by omega) (by omega) (by omega)
  · intro byte member
    rw [List.mem_singleton.mp member]
    exact isContinuation_octet _ (by omega) (by omega)
  · simp only [leadingBits, width, List.foldl_cons, List.foldl_nil]
    rw [toNat_octet _ (by omega), toNat_octet _ (by omega)]
    omega

theorem encodes_three (large : 2047 < c.toNat) (small : c.toNat ≤ 65535) :
    Encodes c (UInt8.ofNat (c.toNat / 4096 % 16 + 224))
      [UInt8.ofNat (c.toNat / 64 % 64 + 128), UInt8.ofNat (c.toNat % 64 + 128)] := by
  have valid : c.toNat < 0xd800 ∨ 0xdfff < c.toNat ∧ c.toNat < 0x110000 := c.valid
  have width := charWidth_octet (c.toNat / 4096 % 16 + 224) (by omega)
  rw [if_neg (by omega), if_neg (by omega), if_pos (by omega)] at width
  refine ⟨?_, width, ?_, ?_, assemble_eq c _ _ ?_⟩
  · have one : ¬c.val.toNat ≤ 127 := Nat.not_le.mpr (Nat.lt_trans (by decide) large)
    exact (if_neg one).trans ((if_neg (Nat.not_le.mpr large)).trans (if_pos small))
  · rintro byte ⟨⟩
    exact secondFits_octet _ _ (by omega) (by omega) (by omega) (by omega) (by omega) (by omega) (by omega)
  · intro byte member
    simp only [List.mem_cons, List.not_mem_nil, or_false] at member
    rcases member with rfl | rfl <;> exact isContinuation_octet _ (by omega) (by omega)
  · simp only [leadingBits, width, List.foldl_cons, List.foldl_nil]
    rw [toNat_octet _ (by omega), toNat_octet _ (by omega), toNat_octet _ (by omega)]
    omega

theorem encodes_four (large : 65535 < c.toNat) :
    Encodes c (UInt8.ofNat (c.toNat / 262144 % 8 + 240))
      [UInt8.ofNat (c.toNat / 4096 % 64 + 128), UInt8.ofNat (c.toNat / 64 % 64 + 128),
        UInt8.ofNat (c.toNat % 64 + 128)] := by
  have valid : c.toNat < 0xd800 ∨ 0xdfff < c.toNat ∧ c.toNat < 0x110000 := c.valid
  have width := charWidth_octet (c.toNat / 262144 % 8 + 240) (by omega)
  rw [if_neg (by omega), if_neg (by omega), if_neg (by omega), if_pos (by omega)] at width
  refine ⟨?_, width, ?_, ?_, assemble_eq c _ _ ?_⟩
  · have one : ¬c.val.toNat ≤ 127 := Nat.not_le.mpr (Nat.lt_trans (by decide) large)
    have two : ¬c.val.toNat ≤ 2047 := Nat.not_le.mpr (Nat.lt_trans (by decide) large)
    exact (if_neg one).trans ((if_neg two).trans (if_neg (Nat.not_le.mpr large)))
  · rintro byte ⟨⟩
    exact secondFits_octet _ _ (by omega) (by omega) (by omega) (by omega) (by omega) (by omega) (by omega)
  · intro byte member
    simp only [List.mem_cons, List.not_mem_nil, or_false] at member
    rcases member with rfl | rfl | rfl <;> exact isContinuation_octet _ (by omega) (by omega)
  · simp only [leadingBits, width, List.foldl_cons, List.foldl_nil]
    rw [toNat_octet _ (by omega), toNat_octet _ (by omega), toNat_octet _ (by omega), toNat_octet _ (by omega)]
    omega

theorem encodes_exists : ∃ first more, Encodes c first more := by
  by_cases one : c.toNat ≤ 127
  · exact ⟨_, _, encodes_one c one⟩
  · by_cases two : c.toNat ≤ 2047
    · exact ⟨_, _, encodes_two c (by omega) two⟩
    · by_cases three : c.toNat ≤ 65535
      · exact ⟨_, _, encodes_three c (by omega) three⟩
      · exact ⟨_, _, encodes_four c (by omega)⟩

end Widths

theorem Encodes.continuation_eq (c : Char) (first : UInt8) (more later : Bytes) (encodes : Encodes c first more) :
    continuation first (more ++ later) = more := by
  rw [continuation, encodes.width, Nat.add_sub_cancel, List.take_left']
  · cases more with
    | nil => rfl
    | cons second tail =>
      have rest : ∀ byte ∈ tail, isContinuation byte = true :=
        fun byte member => encodes.continued byte (List.mem_cons_of_mem second member)
      simp only [encodes.second second rfl, if_true, List.takeWhile_eq_self_iff.mpr rest]
  · rfl

theorem utf8Pieces_char (c : Char) (later : Bytes) :
    utf8Pieces (String.utf8EncodeChar c ++ later) = some c :: utf8Pieces later := by
  obtain ⟨first, more, encodes⟩ := encodes_exists c
  rw [encodes.encoded, List.cons_append, utf8Pieces_cons, encodes.continuation_eq c first more later,
    if_pos encodes.width, encodes.assembled, List.drop_left]

theorem utf8Pieces_utf8_append (text : Text) (later : Bytes) :
    utf8Pieces (utf8 text ++ later) = text.map some ++ utf8Pieces later := by
  induction text with
  | nil => rfl
  | cons c text ih => rw [utf8_cons, List.append_assoc, utf8Pieces_char, ih, List.map_cons, List.cons_append]

/-- Text reads back, whatever surrounds it, if what stands before it is whole. -/
theorem fromUtf8Lossy_around (before later : Bytes) (text : Text) (whole : endsInsideChar before = false) :
    fromUtf8Lossy (before ++ (utf8 text ++ later)) = fromUtf8Lossy before ++ (text ++ fromUtf8Lossy later) := by
  rw [fromUtf8Lossy, utf8Pieces_append before _ whole, utf8Pieces_utf8_append]
  simp [fromUtf8Lossy]

end WeeboSi.Lib
