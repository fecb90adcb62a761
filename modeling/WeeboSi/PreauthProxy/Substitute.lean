import WeeboSi.Lib.Outcome
import WeeboSi.PreauthProxy.Headers

/-!
# References to variables

Source: bins/preauth-proxy/src/domain/config.rs:22-36 and 60-205. A pass of the loop takes at least
the two characters that open a reference, so one pass more than there are characters is enough.
-/
namespace WeeboSi.PreauthProxy
open WeeboSi.Lib

inductive ConfigError where
  | unsetEnv (name : Text)
  | malformedReference (template : Text)
  deriving DecidableEq, Repr

inductive Encoding where
  | verbatim | formUrlencoded | jsonString
  deriving DecidableEq, Repr

/-! ## Encodings -/

def formUrlencodedType : Text := "application/x-www-form-urlencoded".toList

/-- The configured media type, without its parameters. -/
def mime (headers : List (HeaderName × Text)) : Text :=
  (((headers.find? fun header => header.1 = "content-type".toList).bind fun header =>
    (header.2.splitOn ';').head?).map fun mime => (trim mime).map Char.toLower).getD []

def Encoding.forBody (headers : List (HeaderName × Text)) : Encoding :=
  if mime headers = formUrlencodedType then .formUrlencoded
  else if mime headers = "application/json".toList ∨ "+json".toList.isSuffixOf (mime headers) then .jsonString
  else .verbatim

def isFormSafe (byte : UInt8) : Bool :=
  (65 ≤ byte && byte ≤ 90) || (97 ≤ byte && byte ≤ 122) || (48 ≤ byte && byte ≤ 57) || byte == 42 || byte == 45 ||
    byte == 46 || byte == 95

/-- `HEX`, of either case. -/
def hexDigit (digits : Text) (n : Nat) : Char := digits.getD n '0'

def upperHex : Text := "0123456789ABCDEF".toList
def lowerHex : Text := "0123456789abcdef".toList

def formByte (byte : UInt8) : Text :=
  if isFormSafe byte then [byteChar byte]
  else if byte = 32 then ['+']
  else ['%', hexDigit upperHex (byte.toNat / 16), hexDigit upperHex (byte.toNat % 16)]

def formUrlencode (value : Text) : Text := (utf8 value).flatMap formByte

def jsonChar (c : Char) : Text :=
  if c = '"' then ['\\', '"']
  else if c = '\\' then ['\\', '\\']
  else if c = '\n' then ['\\', 'n']
  else if c = '\r' then ['\\', 'r']
  else if c = '\t' then ['\\', 't']
  else if c.toNat < 0x20 then
    ['\\', 'u', '0', '0', hexDigit lowerHex (c.toNat / 16), hexDigit lowerHex (c.toNat % 16)]
  else [c]

def jsonEscape (value : Text) : Text := value.flatMap jsonChar

def Encoding.apply : Encoding → Text → Text
  | verbatim, value => value
  | formUrlencoded, value => formUrlencode value
  | jsonString, value => jsonEscape value

/-! ## Substitution -/

/-- Cut at the first dollar sign with an opening brace behind it. -/
def cutReference : Text → Option (Text × Text)
  | [] => none
  | c :: rest =>
    if c = '$' ∧ rest.head? = some '\x7b' then some ([], rest.tail)
    else (cutReference rest).map fun (before, after) => (c :: before, after)

section Loop
variable (template : Text) (lookup : Text → Option Text) (encoding : Encoding)

def substituteLoop : Nat → Text → Except ConfigError Text
  | 0, _ => .error (.malformedReference template)
  | passes + 1, rest =>
    match cutReference rest with
    | none => .ok rest
    | some (before, after) =>
      match splitOnce '\x7d' after with
      | none => .error (.malformedReference template)
      | some (name, later) =>
        if name = [] then .error (.malformedReference template)
        else
          match lookup name with
          | none => .error (.unsetEnv name)
          | some value => (substituteLoop passes later).map fun tail => before ++ encoding.apply value ++ tail

def substituteEncoded : Except ConfigError Text :=
  substituteLoop template lookup encoding (template.length + 1) template

end Loop

end WeeboSi.PreauthProxy
