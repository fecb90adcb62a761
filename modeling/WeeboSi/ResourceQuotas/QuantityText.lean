import Mathlib.Algebra.Order.Floor.Ring
import Mathlib.Data.Rat.Floor
import WeeboSi.ResourceQuotas.Quantity

/-!
# What a quantity text denotes

Source: crates/weebo-si-resource-quotas/src/model/quantity.rs:9-27 and 53-120. The grammar and
its meaning, in nano-units, are stated on their own; `parse` multiplies before it divides,
each time within an `i128`.
-/
namespace WeeboSi.ResourceQuotas
open WeeboSi.Lib

/-! ## The grammar -/

inductive Sign where
  | bare | plus | minus
  deriving DecidableEq, Repr

def Sign.text : Sign → Text
  | bare => []
  | plus => ['+']
  | minus => ['-']

/-- A whole number in decimal digits. -/
structure Digits where
  text : Text
  digits : text.all Char.isDigit = true
  nonempty : text ≠ []

def Digits.value (digits : Digits) : Nat := Nat.ofDigitChars 10 digits.text 0

/-- `1`, `1.`, `1.5` or `.5`. -/
structure DecimalNumber where
  whole : Text
  /-- What is behind the point, if one is written. -/
  fraction : Option Text
  wholeDigits : whole.all Char.isDigit = true
  fractionDigits : (fraction.getD []).all Char.isDigit = true
  nonempty : whole ++ fraction.getD [] ≠ []

namespace DecimalNumber
variable (number : DecimalNumber)

def text : Text :=
  match number.fraction with
  | none => number.whole
  | some fraction => number.whole ++ '.' :: fraction

/-- The digits without the point. -/
def unscaled : Nat := Nat.ofDigitChars 10 (number.whole ++ number.fraction.getD []) 0

def decimals : Nat := (number.fraction.getD []).length

end DecimalNumber

/-- The binary and the decimal suffixes; a number without one counts units. -/
inductive Multiple where
  | nano | micro | milli | unit | kilo | mega | giga | tera | peta | exa
  | kibi | mebi | gibi | tebi | pebi | exbi
  deriving DecidableEq, Repr

namespace Multiple

def text : Multiple → Text
  | nano => "n".toList
  | micro => "u".toList
  | milli => "m".toList
  | unit => []
  | kilo => "k".toList
  | mega => "M".toList
  | giga => "G".toList
  | tera => "T".toList
  | peta => "P".toList
  | exa => "E".toList
  | kibi => "Ki".toList
  | mebi => "Mi".toList
  | gibi => "Gi".toList
  | tebi => "Ti".toList
  | pebi => "Pi".toList
  | exbi => "Ei".toList

/-- How many nano-units one is. -/
def nanos : Multiple → Nat
  | nano => 1
  | micro => 10 ^ 3
  | milli => 10 ^ 6
  | unit => 10 ^ 9
  | kilo => 10 ^ 3 * 10 ^ 9
  | mega => 10 ^ 6 * 10 ^ 9
  | giga => 10 ^ 9 * 10 ^ 9
  | tera => 10 ^ 12 * 10 ^ 9
  | peta => 10 ^ 15 * 10 ^ 9
  | exa => 10 ^ 18 * 10 ^ 9
  | kibi => 1024 * 10 ^ 9
  | mebi => 1024 ^ 2 * 10 ^ 9
  | gibi => 1024 ^ 3 * 10 ^ 9
  | tebi => 1024 ^ 4 * 10 ^ 9
  | pebi => 1024 ^ 5 * 10 ^ 9
  | exbi => 1024 ^ 6 * 10 ^ 9

end Multiple

inductive Suffix where
  | multiple (named : Multiple)
  | exponent (upper : Bool) (sign : Sign) (digits : Digits)

namespace Suffix

def text : Suffix → Text
  | .multiple named => named.text
  | exponent upper sign digits => (if upper then 'E' else 'e') :: (sign.text ++ digits.text)

/-- The power of ten an exponent stands for. -/
def power (sign : Sign) (digits : Digits) : Int :=
  match sign with
  | .minus => -digits.value
  | _ => digits.value

def nanos : Suffix → ℚ
  | .multiple named => named.nanos
  | exponent _ sign digits => 10 ^ power sign digits * 10 ^ 9

end Suffix

structure QuantityText where
  sign : Sign
  number : DecimalNumber
  suffix : Suffix

/-- Towards zero. -/
def truncate (x : ℚ) : Int := if 0 ≤ x then ⌊x⌋ else ⌈x⌉

theorem truncate_neg (x : ℚ) : truncate (-x) = -truncate x := by
  unfold truncate
  rcases lt_trichotomy x 0 with below | rfl | above
  · rw [if_pos (by linarith), if_neg (by linarith), Int.floor_neg]
  · simp
  · rw [if_neg (by linarith), if_pos (by linarith), Int.ceil_neg]

theorem truncate_mono {x y : ℚ} (atMost : x ≤ y) : truncate x ≤ truncate y := by
  unfold truncate
  split <;> split
  · exact Int.floor_le_floor atMost
  · linarith
  · rename_i below above
    exact Int.le_trans (Int.ceil_nonpos.mpr (by linarith)) (Int.floor_nonneg.mpr above)
  · exact Int.ceil_le_ceil atMost

namespace QuantityText
variable (quantity : QuantityText)

def text : Text := quantity.sign.text ++ quantity.number.text ++ quantity.suffix.text

def magnitude : ℚ :=
  quantity.number.unscaled / 10 ^ quantity.number.decimals * quantity.suffix.nanos

/-- In nano-units. -/
def denoted : ℚ :=
  match quantity.sign with
  | .minus => -quantity.magnitude
  | _ => quantity.magnitude

end QuantityText

/-! ## Within an `i128` -/

/-- What the suffix multiplies and divides by. -/
def Suffix.factors : Suffix → Nat × Nat
  | .multiple named => (named.nanos, 1)
  | exponent _ .minus digits => (10 ^ 9, 10 ^ digits.value)
  | exponent _ _ digits => (10 ^ 9 * 10 ^ digits.value, 1)

/-- The largest exponent, upwards and downwards. -/
def Suffix.InRange : Suffix → Prop
  | .multiple _ => True
  | exponent _ .minus digits => digits.value ≤ 38
  | exponent _ _ digits => digits.value ≤ 29

/-- The digits without the point, times the suffix in nano-units, stay below 2^127; and there
are at most 38 decimals, those of a negative exponent included. -/
structure QuantityText.Fits (quantity : QuantityText) : Prop where
  exponent : quantity.suffix.InRange
  product : quantity.number.unscaled * quantity.suffix.factors.1 < 2 ^ 127
  decimals : 10 ^ quantity.number.decimals * quantity.suffix.factors.2 ≤ 10 ^ 38

theorem checked128_eq_some (n : Nat) (m : Int) : checked128 n = some m ↔ n < 2 ^ 127 ∧ m = n := by
  unfold checked128
  by_cases small : n < 2 ^ 127
  · rw [if_pos (by omega), Option.some.injEq]
    exact ⟨fun same => ⟨small, same.symm⟩, fun given => given.2.symm⟩
  · rw [if_neg (by omega)]
    exact ⟨nofun, fun given => absurd given.1 small⟩

theorem parseDigits_eq_some (text : Text) (digits : text.all Char.isDigit = true) (nonempty : text ≠ [])
    (n : Int) :
    parseDigits text = some n ↔ Nat.ofDigitChars 10 text 0 < 2 ^ 127 ∧ n = Nat.ofDigitChars 10 text 0 := by
  unfold parseDigits
  rw [if_pos ⟨nonempty, digits⟩, checked128_eq_some]

theorem pow10_eq_some (exponent : Nat) (n : Int) :
    pow10 exponent = some n ↔ exponent ≤ 38 ∧ n = 10 ^ exponent := by
  unfold pow10
  by_cases small : exponent ≤ 38
  · rw [if_pos small, Option.some.injEq]
    exact ⟨fun same => ⟨small, same.symm⟩, fun given => given.2.symm⟩
  · rw [if_neg small]
    exact ⟨nofun, fun given => absurd given.1 small⟩

/-! ## The suffix -/

theorem digits_head (text : Text) (digits : text.all Char.isDigit = true) (nonempty : text ≠ []) :
    ∃ d rest, text = d :: rest ∧ d.isDigit = true := by
  cases text with
  | nil => exact absurd rfl nonempty
  | cons d rest =>
    simp only [List.all_cons, Bool.and_eq_true] at digits
    exact ⟨d, rest, rfl, digits.1⟩

theorem digit_ne_sign (d : Char) (digit : d.isDigit = true) : d ≠ '-' ∧ d ≠ '+' := by
  constructor
  · rintro rfl
    cases digit
  · rintro rfl
    cases digit

theorem splitSign_text (sign : Sign) (c : Char) (rest : Text) (apart : c ≠ '-' ∧ c ≠ '+') :
    splitSign (sign.text ++ c :: rest) = (decide (sign = .minus), c :: rest) := by
  cases sign with
  | plus => rfl
  | minus => rfl
  | bare =>
    simp only [Sign.text, List.nil_append]
    unfold splitSign
    split
    · simp_all
    · simp_all
    · rfl

theorem parseExponent_eq_some (sign : Sign) (digits : Digits) (n : Int) :
    parseExponent (sign.text ++ digits.text) = some n ↔
      n = Suffix.power sign digits ∧ -2 ^ 31 ≤ n ∧ n < 2 ^ 31 := by
  obtain ⟨d, rest, spelt, digit⟩ := digits_head digits.text digits.digits digits.nonempty
  have signed : (if decide (sign = .minus) then -(digits.value : Int) else digits.value) =
      Suffix.power sign digits := by cases sign <;> rfl
  have size : ((Suffix.power sign digits).natAbs : Int) = digits.value := by
    cases sign <;> simp [Suffix.power]
  have read : parseExponent (sign.text ++ digits.text) =
      unsignedExponent (decide (sign = .minus)) digits.text := by
    rw [parseExponent, spelt, splitSign_text sign d rest (digit_ne_sign d digit)]
  rw [read, unsignedExponent]
  simp only [Option.bind_eq_bind, Option.bind_eq_some_iff,
    parseDigits_eq_some digits.text digits.digits digits.nonempty]
  change (∃ value, (digits.value < 2 ^ 127 ∧ value = (digits.value : Int)) ∧ _) ↔ _
  constructor
  · rintro ⟨value, ⟨_, rfl⟩, ranged⟩
    rw [signed] at ranged
    split at ranged
    · rename_i range
      cases ranged
      exact ⟨rfl, range⟩
    · cases ranged
  · rintro ⟨rfl, range⟩
    refine ⟨digits.value, ⟨by omega, rfl⟩, ?_⟩
    rw [signed, if_pos range]

/-- No named suffix ends in a digit, as every exponent does. -/
theorem lookup_exponent (first : Char) (sign : Sign) (digits : Digits) :
    (decimalSuffixes ++ binarySuffixes).lookup (first :: (sign.text ++ digits.text)) = none := by
  have named : (decimalSuffixes ++ binarySuffixes).all
      (fun pair => pair.1.getLast?.all fun c => !c.isDigit) = true := by decide
  rw [List.lookup_eq_none_iff]
  intro pair member
  have apart := List.all_eq_true.mp named pair member
  rw [bne_iff_ne]
  intro same
  have last : pair.1.getLast? = some (digits.text.getLast digits.nonempty) := by
    rw [← same, ← List.cons_append, List.getLast?_append_of_ne_nil _ digits.nonempty]
    exact List.getLast?_eq_some_getLast digits.nonempty
  have digit := List.all_eq_true.mp digits.digits _ (List.getLast_mem digits.nonempty)
  rw [last] at apart
  simp [digit] at apart

theorem suffixScale_multiple (named : Multiple) : suffixScale named.text = some ((named.nanos : Int), 1) := by
  cases named <;> decide

theorem suffixScale_exponent (upper : Bool) (sign : Sign) (digits : Digits) (m d : Int) :
    suffixScale (Suffix.exponent upper sign digits).text = some (m, d) ↔
      ∃ n power, parseExponent (sign.text ++ digits.text) = some n ∧ pow10 n.natAbs = some power ∧
        (if 0 ≤ n then checked128 (nanoPerUnit * power) = some m ∧ d = 1 else m = nanoPerUnit ∧ d = power) := by
  have letter : ¬ ((if upper then 'E' else 'e') ≠ 'e' ∧ (if upper then 'E' else 'e') ≠ 'E') := by
    cases upper <;> decide
  unfold suffixScale Suffix.text
  rw [lookup_exponent]
  dsimp only
  rw [if_neg letter]
  simp only [Option.bind_eq_bind, Option.bind_eq_some_iff]
  constructor
  · rintro ⟨n, parsed, power, powered, rest⟩
    refine ⟨n, power, parsed, powered, ?_⟩
    split at rest
    · rename_i up
      obtain ⟨scaled, checked, same⟩ := Option.bind_eq_some_iff.mp rest
      cases same
      rw [if_pos up]
      exact ⟨checked, rfl⟩
    · rename_i down
      cases rest
      rw [if_neg down]
      exact ⟨rfl, rfl⟩
  · rintro ⟨n, power, parsed, powered, rest⟩
    refine ⟨n, parsed, power, powered, ?_⟩
    split at rest
    · rename_i up
      rw [if_pos up, rest.1, rest.2]
      rfl
    · rename_i down
      rw [if_neg down, rest.1, rest.2]

theorem upward_lt_iff (value : Nat) : 10 ^ 9 * 10 ^ value < 2 ^ 127 ↔ value ≤ 29 := by
  constructor
  · intro small
    by_contra large
    have grown : 10 ^ 30 ≤ 10 ^ value := Nat.pow_le_pow_right (by decide) (by omega)
    omega
  · intro small
    have grown : 10 ^ value ≤ 10 ^ 29 := Nat.pow_le_pow_right (by decide) small
    omega

theorem suffixScale_upward (upper : Bool) (sign : Sign) (digits : Digits) (up : sign ≠ .minus) (m d : Int) :
    suffixScale (Suffix.exponent upper sign digits).text = some (m, d) ↔
      digits.value ≤ 29 ∧ m = (10 ^ 9 * 10 ^ digits.value : Nat) ∧ d = 1 := by
  have power : Suffix.power sign digits = digits.value := by
    cases sign with
    | minus => exact absurd rfl up
    | bare => rfl
    | plus => rfl
  have product : nanoPerUnit * 10 ^ digits.value = ((10 ^ 9 * 10 ^ digits.value : Nat) : Int) := by
    simp [nanoPerUnit]
  simp only [suffixScale_exponent, parseExponent_eq_some, pow10_eq_some, power]
  constructor
  · rintro ⟨_, _, ⟨rfl, -⟩, ⟨-, rfl⟩, rest⟩
    rw [if_pos (Int.natCast_nonneg _), Int.natAbs_natCast, product, checked128_eq_some, upward_lt_iff] at rest
    exact ⟨rest.1.1, rest.1.2, rest.2⟩
  · rintro ⟨small, rfl, rfl⟩
    refine ⟨digits.value, 10 ^ digits.value, ⟨rfl, by omega, by omega⟩, ⟨by omega, by simp⟩, ?_⟩
    rw [if_pos (Int.natCast_nonneg _), product, checked128_eq_some, upward_lt_iff]
    exact ⟨⟨small, rfl⟩, rfl⟩

theorem suffixScale_downward (upper : Bool) (digits : Digits) (m d : Int) :
    suffixScale (Suffix.exponent upper .minus digits).text = some (m, d) ↔
      digits.value ≤ 38 ∧ m = (10 ^ 9 : Nat) ∧ d = (10 ^ digits.value : Nat) := by
  have power : Suffix.power .minus digits = -digits.value := rfl
  simp only [suffixScale_exponent, parseExponent_eq_some, pow10_eq_some, power]
  constructor
  · rintro ⟨_, _, ⟨rfl, -⟩, ⟨small, rfl⟩, rest⟩
    rw [Int.natAbs_neg, Int.natAbs_natCast] at small rest
    split at rest
    · -- `-0`, which takes the branch of the exponents from zero up
      have zero : digits.value = 0 := by omega
      have product : nanoPerUnit * 10 ^ digits.value = ((10 ^ 9 : Nat) : Int) := by
        rw [zero]
        decide
      rw [product, checked128_eq_some] at rest
      refine ⟨small, rest.1.2, ?_⟩
      rw [rest.2, zero]
      decide
    · exact ⟨small, rest.1, by rw [rest.2]; simp⟩
  · rintro ⟨small, rfl, rfl⟩
    refine ⟨-digits.value, 10 ^ digits.value, ⟨rfl, by omega, by omega⟩, ⟨by omega, by simp⟩, ?_⟩
    split
    · have zero : digits.value = 0 := by omega
      rw [zero]
      decide
    · exact ⟨rfl, by simp⟩

theorem suffixScale_eq_some (suffix : Suffix) (m d : Int) :
    suffixScale suffix.text = some (m, d) ↔
      suffix.InRange ∧ m = suffix.factors.1 ∧ d = suffix.factors.2 := by
  cases suffix with
  | multiple named =>
    simp only [Suffix.text, suffixScale_multiple, Suffix.InRange, Suffix.factors, Option.some.injEq,
      Prod.mk.injEq, true_and, Nat.cast_one]
    exact ⟨fun given => ⟨given.1.symm, given.2.symm⟩, fun given => ⟨given.1.symm, given.2.symm⟩⟩
  | exponent upper sign digits =>
    cases sign with
    | minus => exact suffixScale_downward upper digits m d
    | bare => exact suffixScale_upward upper .bare digits (by decide) m d
    | plus => exact suffixScale_upward upper .plus digits (by decide) m d

/-! ## The number -/

theorem DecimalNumber.text_all (number : DecimalNumber) : ∀ c ∈ number.text, isNumberChar c = true := by
  have digit : ∀ text : Text, text.all Char.isDigit = true → ∀ c ∈ text, isNumberChar c = true := by
    intro text digits c member
    simp [isNumberChar, List.all_eq_true.mp digits c member]
  intro c member
  unfold DecimalNumber.text at member
  have fraction := number.fractionDigits
  cases spelt : number.fraction with
  | none =>
    rw [spelt] at member
    exact digit _ number.wholeDigits c member
  | some text =>
    rw [spelt] at member fraction
    simp only [List.mem_append, List.mem_cons] at member
    rcases member with inWhole | rfl | inFraction
    · exact digit _ number.wholeDigits c inWhole
    · rfl
    · exact digit _ fraction c inFraction

theorem digits_no_point (text : Text) (digits : text.all Char.isDigit = true) : '.' ∉ text := by
  intro member
  have := List.all_eq_true.mp digits '.' member
  cases this

theorem DecimalNumber.splitOnce_text (number : DecimalNumber) :
    (splitOnce '.' number.text).getD (number.text, []) = (number.whole, number.fraction.getD []) := by
  have noPoint := digits_no_point number.whole number.wholeDigits
  unfold DecimalNumber.text
  cases spelt : number.fraction with
  | none =>
    dsimp only
    rw [(splitOnce_eq_none '.' number.whole).mpr noPoint]
    rfl
  | some fraction =>
    dsimp only
    rw [(splitOnce_eq_some '.' _ number.whole fraction).mpr ⟨rfl, noPoint⟩]
    rfl

theorem Suffix.text_head (suffix : Suffix) (c : Char) (first : suffix.text.head? = some c) :
    isNumberChar c = false := by
  cases suffix with
  | multiple named =>
    revert c
    cases named <;> simp [Suffix.text, Multiple.text, isNumberChar]
  | exponent upper sign digits =>
    cases first
    cases upper <;> decide

/-! ## The whole text -/

namespace QuantityText
variable (quantity : QuantityText)

theorem number_first : ∃ c rest, quantity.number.text = c :: rest ∧ c ≠ '-' ∧ c ≠ '+' := by
  cases spelt : quantity.number.text with
  | nil =>
    exfalso
    have nonempty := quantity.number.nonempty
    unfold DecimalNumber.text at spelt
    cases fraction : quantity.number.fraction with
    | none =>
      rw [fraction] at spelt nonempty
      exact nonempty (by simpa using spelt)
    | some text => simp [fraction] at spelt
  | cons c rest =>
    refine ⟨c, rest, rfl, ?_⟩
    have inNumber := quantity.number.text_all c (by simp [spelt])
    constructor
    · rintro rfl
      cases inNumber
    · rintro rfl
      cases inNumber

theorem parseNanos_read :
    parseNanos quantity.text =
      unsignedNanos (decide (quantity.sign = .minus)) (quantity.number.text ++ quantity.suffix.text) := by
  obtain ⟨c, rest, spelt, apart⟩ := quantity.number_first
  unfold text
  rw [List.append_assoc, spelt, List.cons_append, parseNanos, splitSign_text quantity.sign c _ apart]

theorem split_suffix :
    (quantity.number.text ++ quantity.suffix.text).takeWhile isNumberChar = quantity.number.text ∧
      (quantity.number.text ++ quantity.suffix.text).dropWhile isNumberChar = quantity.suffix.text := by
  have stops : quantity.suffix.text.takeWhile isNumberChar = [] ∧
      quantity.suffix.text.dropWhile isNumberChar = quantity.suffix.text := by
    cases spelt : quantity.suffix.text with
    | nil => exact ⟨rfl, rfl⟩
    | cons c rest =>
      have other := quantity.suffix.text_head c (by rw [spelt]; rfl)
      simp [other]
  constructor
  · rw [List.takeWhile_append_of_pos quantity.number.text_all, stops.1, List.append_nil]
  · rw [List.dropWhile_append_of_pos quantity.number.text_all, stops.2]

/-- The magnitude in nano-units, as the source divides it. -/
def quotient : Nat :=
  quantity.number.unscaled * quantity.suffix.factors.1 /
    (10 ^ quantity.number.decimals * quantity.suffix.factors.2)

theorem factors_pos : 0 < quantity.suffix.factors.1 ∧ 0 < quantity.suffix.factors.2 := by
  cases quantity.suffix with
  | multiple named => cases named <;> decide
  | exponent upper sign digits => cases sign <;> simp [Suffix.factors]

theorem le_of_pow10_mul_le (a b : Nat) (small : 10 ^ a * b ≤ 10 ^ 38) (positive : 0 < b) : a ≤ 38 := by
  have power : 10 ^ a ≤ 10 ^ 38 := Nat.le_trans (Nat.le_mul_of_pos_right _ positive) small
  exact (Nat.pow_le_pow_iff_right (by decide)).mp power

/-- A power of ten is at most the 38th exactly when it is within an `i128`. -/
theorem power_lt_iff (exponent : Nat) : 10 ^ exponent < 2 ^ 127 ↔ 10 ^ exponent ≤ 10 ^ 38 := by
  constructor
  · intro small
    by_contra large
    have above : 38 < exponent := (Nat.pow_lt_pow_iff_right (by decide)).mp (Nat.lt_of_not_le large)
    have grown : 10 ^ 39 ≤ 10 ^ exponent := Nat.pow_le_pow_right (by decide) above
    omega
  · intro small
    omega

theorem divisor_lt_iff :
    10 ^ quantity.number.decimals * quantity.suffix.factors.2 < 2 ^ 127 ↔
      10 ^ quantity.number.decimals * quantity.suffix.factors.2 ≤ 10 ^ 38 := by
  have power : ∃ exponent, quantity.suffix.factors.2 = 10 ^ exponent := by
    cases quantity.suffix with
    | multiple named => exact ⟨0, rfl⟩
    | exponent upper sign digits =>
      cases sign with
      | minus => exact ⟨digits.value, rfl⟩
      | bare => exact ⟨0, rfl⟩
      | plus => exact ⟨0, rfl⟩
  obtain ⟨exponent, same⟩ := power
  rw [same, ← Nat.pow_add]
  exact power_lt_iff _

theorem unsignedNanos_eq_some (negative : Bool) (n : Int) :
    unsignedNanos negative (quantity.number.text ++ quantity.suffix.text) = some n ↔
      quantity.Fits ∧ n = if negative then -(quantity.quotient : Int) else quantity.quotient := by
  have noPoint := digits_no_point _ quantity.number.fractionDigits
  have digits : (quantity.number.whole ++ quantity.number.fraction.getD []).all Char.isDigit = true := by
    rw [List.all_append, quantity.number.wholeDigits, quantity.number.fractionDigits]
    rfl
  have written : ¬ ((quantity.number.whole = [] ∧ quantity.number.fraction.getD [] = []) ∨
      (quantity.number.fraction.getD []).contains '.' = true) := by
    rintro (⟨noWhole, noFraction⟩ | point)
    · exact quantity.number.nonempty (by rw [noWhole, noFraction]; rfl)
    · exact noPoint (by simpa using point)
  unfold unsignedNanos
  dsimp only
  rw [quantity.split_suffix.1, quantity.split_suffix.2, quantity.number.splitOnce_text]
  dsimp only
  rw [if_neg written]
  simp only [Option.bind_eq_bind, Option.bind_eq_some_iff, pow10_eq_some, Prod.exists,
    suffixScale_eq_some, parseDigits_eq_some _ digits quantity.number.nonempty]
  have product : (quantity.number.unscaled : Int) * (quantity.suffix.factors.1 : Int) =
      ((quantity.number.unscaled * quantity.suffix.factors.1 : Nat) : Int) :=
    (Int.natCast_mul _ _).symm
  have divisor : (10 : Int) ^ (quantity.number.fraction.getD []).length * (quantity.suffix.factors.2 : Int) =
      ((10 ^ quantity.number.decimals * quantity.suffix.factors.2 : Nat) : Int) := by
    rw [Int.natCast_mul, Int.natCast_pow]
    rfl
  rw [← DecimalNumber.unscaled]
  constructor
  · rintro ⟨_, ⟨-, rfl⟩, _, ⟨-, rfl⟩, _, _, ⟨ranged, rfl, rfl⟩, scaled, checked, total, checked', same⟩
    rw [product, checked128_eq_some] at checked
    rw [divisor, checked128_eq_some, divisor_lt_iff] at checked'
    refine ⟨⟨ranged, checked.1, checked'.1⟩, ?_⟩
    rw [checked.2, checked'.2] at same
    cases same
    rfl
  · rintro ⟨fits, rfl⟩
    have shorter : quantity.number.unscaled ≤ quantity.number.unscaled * quantity.suffix.factors.1 :=
      Nat.le_mul_of_pos_right _ quantity.factors_pos.1
    refine ⟨_, ⟨Nat.lt_of_le_of_lt shorter fits.product, rfl⟩, _,
      ⟨le_of_pow10_mul_le _ _ fits.decimals quantity.factors_pos.2, rfl⟩, _, _, ⟨fits.exponent, rfl, rfl⟩, ?_⟩
    rw [product, divisor]
    exact ⟨_, (checked128_eq_some _ _).mpr ⟨fits.product, rfl⟩, _,
      (checked128_eq_some _ _).mpr ⟨quantity.divisor_lt_iff.mpr fits.decimals, rfl⟩, rfl⟩

theorem suffix_nanos : quantity.suffix.nanos = quantity.suffix.factors.1 / quantity.suffix.factors.2 := by
  cases quantity.suffix with
  | multiple named => simp [Suffix.nanos, Suffix.factors]
  | exponent upper sign digits =>
    cases sign with
    | minus => simp [Suffix.nanos, Suffix.factors, Suffix.power]; ring
    | bare => simp [Suffix.nanos, Suffix.factors, Suffix.power]; ring
    | plus => simp [Suffix.nanos, Suffix.factors, Suffix.power]; ring

theorem magnitude_eq :
    quantity.magnitude = ((quantity.number.unscaled * quantity.suffix.factors.1 : Nat) : ℚ) /
      ((10 ^ quantity.number.decimals * quantity.suffix.factors.2 : Nat) : ℚ) := by
  unfold magnitude
  rw [suffix_nanos, div_mul_div_comm]
  push_cast
  rfl

theorem truncate_magnitude : truncate quantity.magnitude = quantity.quotient := by
  have nonneg : 0 ≤ quantity.magnitude := by
    rw [magnitude_eq]
    positivity
  unfold truncate
  rw [if_pos nonneg, magnitude_eq, Rat.floor_natCast_div_natCast]
  rfl

theorem truncate_denoted :
    truncate quantity.denoted =
      if decide (quantity.sign = .minus) then -(quantity.quotient : Int) else quantity.quotient := by
  unfold denoted
  cases quantity.sign with
  | minus => rw [truncate_neg, truncate_magnitude]; rfl
  | bare => exact quantity.truncate_magnitude
  | plus => exact quantity.truncate_magnitude

theorem parse_eq_ok (parsed : Quantity) :
    Quantity.parse quantity.text = .ok parsed ↔ quantity.Fits ∧ parsed = ⟨truncate quantity.denoted⟩ := by
  have read := quantity.unsignedNanos_eq_some (decide (quantity.sign = .minus)) parsed.nanos
  rw [← parseNanos_read, ← truncate_denoted] at read
  have whole : parsed = ⟨truncate quantity.denoted⟩ ↔ parsed.nanos = truncate quantity.denoted := by
    cases parsed
    simp
  unfold Quantity.parse
  rw [whole, ← read]
  cases parsed
  cases parseNanos quantity.text <;> simp

end QuantityText

/-- A quantity is read, as its value cut to whole nano-units, exactly when it fits; and of two that
fit, the greater is not read as the smaller. -/
theorem parse_exact_iff_fits (a b : QuantityText) :
    (Quantity.parse a.text = .ok ⟨truncate a.denoted⟩ ↔ a.Fits) ∧
      (a.Fits → b.Fits → a.denoted ≤ b.denoted →
        ∃ x y, Quantity.parse a.text = .ok x ∧ Quantity.parse b.text = .ok y ∧ x ≤ y) := by
  constructor
  · rw [a.parse_eq_ok]
    exact and_iff_left rfl
  · intro first second atMost
    exact ⟨_, _, (a.parse_eq_ok _).mpr ⟨first, rfl⟩, (b.parse_eq_ok _).mpr ⟨second, rfl⟩, truncate_mono atMost⟩

def oneAndHalfGibi : QuantityText where
  sign := .bare
  number := ⟨['1'], some ['5'], by rfl, by rfl, by simp⟩
  suffix := .multiple .gibi

/-- Its two halves, at `1.5Gi`. -/
theorem one_and_half_gibi_read :
    Quantity.parse oneAndHalfGibi.text = .ok ⟨truncate oneAndHalfGibi.denoted⟩ ∧
      ∃ x y, Quantity.parse oneAndHalfGibi.text = .ok x ∧
        Quantity.parse oneAndHalfGibi.text = .ok y ∧ x ≤ y := by
  have fits : oneAndHalfGibi.Fits := ⟨trivial, by decide +kernel, by decide +kernel⟩
  have both := parse_exact_iff_fits oneAndHalfGibi oneAndHalfGibi
  exact ⟨both.1.mpr fits, both.2 fits fits (le_refl _)⟩

/-- A tenth, with thirty zeros behind it. -/
def longTenth : QuantityText where
  sign := .bare
  number := ⟨['0'], some ('1' :: List.replicate 30 '0'), by rfl, by rfl, by simp⟩
  suffix := .multiple .unit

/-- A tenth is far below 2^127 nano-units, and is not read once its decimals are many. -/
theorem long_tenth_unread :
    |longTenth.denoted| < 2 ^ 127 ∧ longTenth.text = "0.1000000000000000000000000000000".toList ∧
      Quantity.parse longTenth.text = .error longTenth.text := by
  refine ⟨?_, by decide, by decide +kernel⟩
  have digits : longTenth.number.unscaled = 10 ^ 30 := by decide +kernel
  have decimals : longTenth.number.decimals = 31 := by decide
  have value : longTenth.denoted = 10 ^ 8 := by
    change (longTenth.number.unscaled : ℚ) / 10 ^ longTenth.number.decimals * ((10 ^ 9 : Nat) : ℚ) = 10 ^ 8
    rw [digits, decimals]
    norm_num
  rw [value]
  norm_num

end WeeboSi.ResourceQuotas
