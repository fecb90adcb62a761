import WeeboSi.PasswdAppend.Entry

/-!
# Reading the database and appending to it

Source: bins/passwd-append/src/nss.rs:49-315. The database is bytes. What the operating system
answers to an attempt (does the file open, is it locked, read and written) is `Answers`.
-/
namespace WeeboSi.PasswdAppend
open WeeboSi.Lib

def newline : UInt8 := 10
def carriageReturn : UInt8 := 13
def hash : UInt8 := 35
def colon : UInt8 := 58

def isCSpace (byte : UInt8) : Bool := byte == 32 || (9 ≤ byte && byte ≤ 13)

def isLineEnd (byte : UInt8) : Bool := byte == carriageReturn || byte == newline

/-- The fields of a line; none when it is blank or a comment. -/
def fields (line : Bytes) : Option (List Bytes) :=
  let trimmed := ((line.dropWhile isCSpace).reverse.dropWhile isLineEnd).reverse
  if trimmed = [] ∨ trimmed.head? = some hash then none else some (trimmed.splitOn colon)

def records (contents : Bytes) : List (List Bytes) := (contents.splitOn newline).filterMap fields

/-- `u32::from_str`: digits behind an optional sign. -/
def parseU32 (raw : Text) : Option UInt32 :=
  let digits := if raw.head? = some '+' then raw.tail else raw
  if digits ≠ [] ∧ digits.all Char.isDigit ∧ Nat.ofDigitChars 10 digits 0 < 2 ^ 32 then
    some (UInt32.ofNat (Nat.ofDigitChars 10 digits 0))
  else none

def number (field : Bytes) : Option UInt32 := (fromUtf8 field).bind parseU32

/-- The name of a record that has the uid: `name:passwd:uid:gid:gecos:home:shell`. -/
def nameIfUid (uid : UInt32) (record : List Bytes) : Option Text := do
  let name ← record.head?
  let found ← number (← record[2]?)
  if found = uid then some (fromUtf8Lossy name) else none

def passwdNameForUid (contents : Bytes) (uid : UInt32) : Option Text :=
  (records contents).findSome? (nameIfUid uid)

inductive NameOwner where
  | uid (uid : UInt32)
  | unparseable (raw : Text)
  deriving DecidableEq, Repr

def NameOwner.display : NameOwner → Text
  | .uid found => "uid ".toList ++ decimal found
  | .unparseable raw => "an entry with an unparseable uid field '".toList ++ raw ++ "'".toList

def ownerIfName (name : Text) (record : List Bytes) : Option NameOwner := do
  let first ← record.head?
  if first ≠ utf8 name then none
  else
    let raw := (record[2]?).getD []
    some (((number raw).map .uid).getD (.unparseable (fromUtf8Lossy raw)))

def passwdUidForName (contents : Bytes) (name : Text) : Option NameOwner :=
  (records contents).findSome? (ownerIfName name)

inductive Scan where
  | absent
  | present (detail : Text)
  | conflict (detail : Text)
  deriving DecidableEq, Repr

def passwdScan (contents : Bytes) (uid : UInt32) (name : Text) : Scan :=
  match passwdNameForUid contents uid with
  | some found => .present ("uid ".toList ++ decimal uid ++ " to '".toList ++ found ++ "'".toList)
  | none =>
    match passwdUidForName contents name with
    | some other => .conflict ("name '".toList ++ name ++ "' is already taken by ".toList ++ other.display
        ++ ", refusing to give it to uid ".toList ++ decimal uid ++ " too".toList)
    | none => .absent

/-! ## Appending -/

inductive ErrorKind where
  | permissionDenied | readOnlyFilesystem | notFound | isADirectory | other
  deriving DecidableEq, Repr

inductive AppendError where
  | prepare | write
  deriving DecidableEq, Repr

inductive Outcome where
  | appended
  | alreadyPresent (detail : Text)
  | conflict (detail : Text)
  | notWritable
  deriving DecidableEq, Repr

/-- A database that does not end its last line gets the line end first. -/
def buffer (contents : Bytes) (line : Text) : Bytes :=
  (if contents.getLast?.any fun byte => byte ≠ newline then [newline] else []) ++ utf8 line ++ [newline]

/-- What the operating system answers to an attempt. -/
structure Answers where
  opening : Option ErrorKind
  locks : Bool
  reads : Bool
  writes : Bool

/-- The result, and what the write has added to the file. -/
def appendLocked (answers : Answers) (contents : Bytes) (line : Text) (scan : Bytes → Scan) :
    Except AppendError Outcome × Bytes :=
  match answers.opening with
  | some .other => (.error .prepare, [])
  | some _ => (.ok .notWritable, [])
  | none =>
    if !answers.locks || !answers.reads then (.error .prepare, [])
    else
      match scan contents with
      | .present detail => (.ok (.alreadyPresent detail), [])
      | .conflict detail => (.ok (.conflict detail), [])
      | .absent => if answers.writes then (.ok .appended, buffer contents line) else (.error .write, [])

end WeeboSi.PasswdAppend
