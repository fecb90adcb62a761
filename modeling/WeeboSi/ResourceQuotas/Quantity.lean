import WeeboSi.Lib.Text

/-!
# Resource quantities

Source: crates/weebo-si-resource-quotas/src/model/quantity.rs:13-116. A quantity is an exact
number of nano-units in an `i128`; an operation that leaves its range fails.
-/
namespace WeeboSi.ResourceQuotas
open WeeboSi.Lib

structure Quantity where
  nanos : Int
  deriving DecidableEq, Repr

instance : LE Quantity := ⟨fun a b => a.nanos ≤ b.nanos⟩

instance (a b : Quantity) : Decidable (a ≤ b) := inferInstanceAs (Decidable (a.nanos ≤ b.nanos))

theorem Quantity.le_trans {a b c : Quantity} (first : a ≤ b) (second : b ≤ c) : a ≤ c :=
  Int.le_trans first second

/-- The result of a checked operation on `i128`. -/
def checked128 (n : Int) : Option Int := if -2 ^ 127 ≤ n ∧ n < 2 ^ 127 then some n else none

/-- `10i128.checked_pow`: the largest power of ten in range is the 38th. -/
def pow10 (exponent : Nat) : Option Int := if exponent ≤ 38 then some (10 ^ exponent) else none

def nanoPerUnit : Int := 1000000000

/-- `i128::from_str` of digits. -/
def parseDigits (digits : Text) : Option Int :=
  if digits ≠ [] ∧ digits.all Char.isDigit then checked128 (Nat.ofDigitChars 10 digits 0) else none

/-- Whether the text is negative, and what is behind its sign. -/
def splitSign : Text → Bool × Text
  | '-' :: rest => (true, rest)
  | '+' :: rest => (false, rest)
  | rest => (false, rest)

/-- An exponent behind its sign. -/
def unsignedExponent (negative : Bool) (digits : Text) : Option Int := do
  let value ← parseDigits digits
  let signed := if negative then -value else value
  if -2 ^ 31 ≤ signed ∧ signed < 2 ^ 31 then some signed else none

/-- `i32::from_str`. -/
def parseExponent (raw : Text) : Option Int := unsignedExponent (splitSign raw).1 (splitSign raw).2

def decimalSuffixes : List (Text × Int) :=
  [("n".toList, 1), ("u".toList, 1000), ("m".toList, 1000000), ([], nanoPerUnit),
    ("k".toList, nanoPerUnit * 10 ^ 3), ("M".toList, nanoPerUnit * 10 ^ 6), ("G".toList, nanoPerUnit * 10 ^ 9),
    ("T".toList, nanoPerUnit * 10 ^ 12), ("P".toList, nanoPerUnit * 10 ^ 15),
    ("E".toList, nanoPerUnit * 10 ^ 18)]

def binarySuffixes : List (Text × Int) :=
  [("Ki".toList, nanoPerUnit * 2 ^ 10), ("Mi".toList, nanoPerUnit * 2 ^ 20),
    ("Gi".toList, nanoPerUnit * 2 ^ 30), ("Ti".toList, nanoPerUnit * 2 ^ 40),
    ("Pi".toList, nanoPerUnit * 2 ^ 50), ("Ei".toList, nanoPerUnit * 2 ^ 60)]

/-- The multiplier and the divisor a suffix stands for. -/
def suffixScale (suffix : Text) : Option (Int × Int) :=
  match (decimalSuffixes ++ binarySuffixes).lookup suffix with
  | some multiplier => some (multiplier, 1)
  | none =>
    match suffix with
    | [] => none
    | c :: digits =>
      if c ≠ 'e' ∧ c ≠ 'E' then none
      else do
        let exponent ← parseExponent digits
        let power ← pow10 exponent.natAbs
        if 0 ≤ exponent then some (← checked128 (nanoPerUnit * power), 1) else some (nanoPerUnit, power)

def isNumberChar (c : Char) : Bool := c.isDigit || c == '.'

/-- A quantity behind its sign. -/
def unsignedNanos (negative : Bool) (rest : Text) : Option Int := do
  let number := rest.takeWhile isNumberChar
  let suffix := rest.dropWhile isNumberChar
  let (whole, fraction) := (splitOnce '.' number).getD (number, [])
  if (whole = [] ∧ fraction = []) ∨ fraction.contains '.' then none
  else
    let digits ← parseDigits (whole ++ fraction)
    let scale ← pow10 fraction.length
    let (multiplier, divisor) ← suffixScale suffix
    let scaled ← checked128 (digits * multiplier)
    let divisor ← checked128 (scale * divisor)
    let nanos := scaled.tdiv divisor
    some (if negative then -nanos else nanos)

def parseNanos (raw : Text) : Option Int := unsignedNanos (splitSign raw).1 (splitSign raw).2

/-- The error carries the text that does not parse. -/
def Quantity.parse (raw : Text) : Except Text Quantity :=
  match parseNanos raw with
  | some nanos => .ok ⟨nanos⟩
  | none => .error raw

example : Quantity.parse "1.5Gi".toList = Quantity.parse "1536Mi".toList := by decide +kernel
example : Quantity.parse "5E-1".toList = .ok ⟨500000000⟩ := by decide +kernel

end WeeboSi.ResourceQuotas
