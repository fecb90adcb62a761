import WeeboSi.Lib.Trim
import WeeboSi.Lib.Utf8

/-!
# Headers

Source: bins/preauth-proxy/src/domain/exchange.rs:18-192 and config.rs:277-390. A header map is
a list of names, in lower case, and values; a value is bytes, and text only when every byte of
it is visible.
-/
namespace WeeboSi.PreauthProxy
open WeeboSi.Lib

abbrev HeaderName := Text
abbrev HeaderValue := Bytes
abbrev HeaderMap := List (HeaderName × HeaderValue)

def cookie : HeaderName := "cookie".toList
def setCookie : HeaderName := "set-cookie".toList
def connection : HeaderName := "connection".toList

def hopByHop : List HeaderName :=
  [connection, "proxy-authenticate".toList, "proxy-authorization".toList, "te".toList, "trailer".toList,
    "transfer-encoding".toList, "upgrade".toList, "keep-alive".toList]

section Map
variable (headers : HeaderMap) (name : HeaderName)

def getAll : List HeaderValue := (headers.filter fun header => header.1 = name).map Prod.snd

def removeAll (names : List HeaderName) : HeaderMap := headers.filter fun header => !names.contains header.1

def insert (value : HeaderValue) : HeaderMap := removeAll headers [name] ++ [(name, value)]

end Map

/-! ## Text -/

def isVisible (byte : UInt8) : Bool := (32 ≤ byte && byte < 127) || byte == 9

/-- `HeaderValue::to_str`. -/
def toStr (value : HeaderValue) : Option Text :=
  if value.all isVisible then some (value.map byteChar) else none

/-- `HeaderValue::from_str`. -/
def fromStr (text : Text) : Option HeaderValue :=
  if (utf8 text).all fun byte => (32 ≤ byte && byte ≠ 127) || byte == 9 then some (utf8 text) else none

def isTokenChar (c : Char) : Bool := c.isAlphanum || "!#$%&'*+-.^_\x60|~".toList.contains c

/-- `HeaderName::from_str`. -/
def parseName (text : Text) : Option HeaderName :=
  if text ≠ [] ∧ text.length ≤ 65535 ∧ text.all isTokenChar then some (text.map Char.toLower) else none

/-! ## Hop-by-hop headers -/

/-- The headers the `Connection` header names. -/
def named (headers : HeaderMap) : List HeaderName :=
  ((getAll headers connection).filterMap toStr).flatMap fun value =>
    (value.splitOn ',').filterMap fun token => parseName (trim token)

def stripHopByHop (headers : HeaderMap) : HeaderMap := removeAll headers (hopByHop ++ named headers)

/-! ## Configuration -/

structure Passthrough where
  header : HeaderName
  contains : Text
  deriving DecidableEq, Repr

inductive InjectMode where
  | append | set
  deriving DecidableEq, Repr

structure Inject where
  header : HeaderName
  mode : InjectMode
  deriving DecidableEq, Repr

abbrev StatusCode := Nat

structure Renew where
  onStatus : List StatusCode
  maxReplays : Nat
  deriving DecidableEq, Repr

def Renew.triggers (renew : Renew) (status : StatusCode) : Bool := renew.onStatus.contains status

structure Config where
  passthrough : Passthrough
  inject : Inject
  renew : Renew
  deriving DecidableEq, Repr

/-! ## The marker -/

/-- The marker in a text: at the start of a cookie, or anywhere. -/
def marked (config : Config) (value : Text) : Bool :=
  if config.passthrough.header = cookie then
    (value.splitOn ';').any fun pair => config.passthrough.contains.isPrefixOf (pair.dropWhile isWhite)
  else decide (config.passthrough.contains <:+: value)

def markerPresent (headers : HeaderMap) (config : Config) : Bool :=
  ((getAll headers config.passthrough.header).filterMap toStr).any (marked config)

/-- The marker in the bytes of a header, whether or not they are text. -/
def Carries (config : Config) (value : HeaderValue) : Prop :=
  if config.passthrough.header = cookie then
    ∃ pair ∈ value.splitOn 59,
      utf8 config.passthrough.contains <+: pair.dropWhile fun byte => byte == 32 || byte == 9
  else utf8 config.passthrough.contains <:+: value

/-! ## Visible text -/

theorem toNat_of_isVisible (byte : UInt8) (visible : isVisible byte = true) : byte.toNat < 128 := by
  simp only [isVisible, Bool.or_eq_true, Bool.and_eq_true, decide_eq_true_eq, beq_iff_eq,
    UInt8.lt_iff_toNat_lt] at visible
  rcases visible with ⟨_, small⟩ | rfl
  · exact Nat.lt_trans small (by decide)
  · decide

/-- Among visible bytes, white space is the space and the tab. -/
theorem isWhite_byteChar (byte : UInt8) (visible : isVisible byte = true) :
    isWhite (byteChar byte) = (byte == 32 || byte == 9) := by
  have checked : ∀ n : Fin 256, isVisible (UInt8.ofNat n) = true →
      isWhite (byteChar (UInt8.ofNat n)) = (UInt8.ofNat n == 32 || UInt8.ofNat n == 9) := by
    decide +kernel
  have same := checked ⟨byte.toNat, byte.toNat_lt⟩
  rw [UInt8.ofNat_toNat] at same
  exact same visible

theorem dropWhile_isWhite (bytes : Bytes) (visible : ∀ byte ∈ bytes, isVisible byte = true) :
    (bytes.map byteChar).dropWhile isWhite =
      (bytes.dropWhile fun byte => byte == 32 || byte == 9).map byteChar :=
  dropWhile_map_congr isWhite byteChar _ bytes fun byte member => isWhite_byteChar byte (visible byte member)

theorem toStr_eq_some (value : HeaderValue) (text : Text) :
    toStr value = some text ↔ (∀ byte ∈ value, isVisible byte = true) ∧ value.map byteChar = text := by
  rw [toStr, Option.ite_none_right_eq_some, List.all_eq_true, Option.some_inj]

/-- In visible text the marker is found where the bytes have it. -/
theorem marked_iff (config : Config) (value : HeaderValue) (visible : ∀ byte ∈ value, isVisible byte = true) :
    marked config (value.map byteChar) = true ↔ Carries config value := by
  have plain : ∀ byte ∈ value, byte.toNat < 128 := fun byte member =>
    toNat_of_isVisible byte (visible byte member)
  rw [marked, Carries]
  split
  · have split : (value.map byteChar).splitOn ';' = (value.splitOn 59).map (List.map byteChar) :=
      splitOn_map byteChar byteChar_injective 59 value
    rw [split, List.any_map, List.any_eq_true]
    refine exists_congr fun pair => and_congr_right fun member => ?_
    have inPair : ∀ byte ∈ pair, byte ∈ value := fun byte inside =>
      ((mem_splitOn 59 byte value).mp ⟨pair, member, inside⟩).1
    rw [Function.comp_apply, List.isPrefixOf_iff_prefix,
      dropWhile_isWhite pair fun byte inside => visible byte (inPair byte inside)]
    exact prefix_byteChar_iff _ _ fun byte inside =>
      plain byte (inPair byte ((List.dropWhile_sublist _).subset inside))
  · rw [decide_eq_true_eq]
    exact infix_byteChar_iff _ _ plain

end WeeboSi.PreauthProxy
