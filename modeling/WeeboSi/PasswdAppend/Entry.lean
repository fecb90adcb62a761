import WeeboSi.Lib.Outcome
import WeeboSi.Lib.Utf8

/-!
# A line of the passwd file

Source: bins/passwd-append/src/entry.rs:23-224. An entry is built by its validation only, so a
value of the type has passed it.
-/
namespace WeeboSi.PasswdAppend
open WeeboSi.Lib

def passwordPlaceholder : Text := "x".toList

def maxNameLen : Nat := 32

inductive Reason where
  | separator | newline | nul | empty | tooLong | badCharacter | leadingDash | notAbsolute | rootUid
  deriving DecidableEq, Repr

def Reason.asStr : Reason → Text
  | separator => "contains ':'".toList
  | newline => "contains a newline".toList
  | nul => "contains a NUL byte".toList
  | empty => "is empty".toList
  | tooLong => "is longer than 32 characters".toList
  | badCharacter => "contains a character outside [a-zA-Z0-9._-]".toList
  | leadingDash => "starts with '-'".toList
  | notAbsolute => "is not an absolute path".toList
  | rootUid => "is 0, and this binary never writes a root entry".toList

structure InvalidField where
  field : Text
  reason : Reason
  deriving DecidableEq, Repr

def InvalidField.display (invalid : InvalidField) : Text := invalid.field ++ " ".toList ++ invalid.reason.asStr

/-- The characters that turn one line into two, or one field into two. -/
def controlReason : Char → Option Reason
  | ':' => some .separator
  | '\n' | '\r' => some .newline
  | '\x00' => some .nul
  | _ => none

def rejectControl (field value : Text) : Except InvalidField Unit :=
  match value.findSome? controlReason with
  | some reason => .error ⟨field, reason⟩
  | none => .ok ()

def isNameByte (byte : UInt8) : Bool :=
  (48 ≤ byte && byte ≤ 57) || (65 ≤ byte && byte ≤ 90) || (97 ≤ byte && byte ≤ 122)
    || byte == 46 || byte == 95 || byte == 45

def validateName (name : Text) : Except InvalidField Unit :=
  let field := "name".toList
  if name = [] then .error ⟨field, .empty⟩
  else if maxNameLen < (utf8 name).length then .error ⟨field, .tooLong⟩
  else if name.head? = some '-' then .error ⟨field, .leadingDash⟩
  else if (utf8 name).all isNameByte then .ok () else .error ⟨field, .badCharacter⟩

def validateAbsolute (field value : Text) : Except InvalidField Unit := do
  rejectControl field value
  if value = [] then .error ⟨field, .empty⟩
  else if value.head? = some '/' then .ok () else .error ⟨field, .notAbsolute⟩

def validateEntry (name : Text) (uid : UInt32) (gecos home shell : Text) : Except InvalidField Unit := do
  validateName name
  if uid = 0 then .error ⟨"uid".toList, .rootUid⟩
  else do
    rejectControl "gecos".toList gecos
    validateAbsolute "home".toList home
    if shell = [] then .ok () else validateAbsolute "shell".toList shell

structure PasswdEntry where
  name : Text
  uid : UInt32
  gid : UInt32
  gecos : Text
  home : Text
  shell : Text
  valid : validateEntry name uid gecos home shell = .ok ()

def PasswdEntry.new (name : Text) (uid gid : UInt32) (gecos home shell : Text) :
    Except InvalidField PasswdEntry :=
  match passed : validateEntry name uid gecos home shell with
  | .ok () => .ok ⟨name, uid, gid, gecos, home, shell, passed⟩
  | .error invalid => .error invalid

def decimal (number : UInt32) : Text := Nat.toDigits 10 number.toNat

/-- The seven fields of the line. -/
def PasswdEntry.fields (entry : PasswdEntry) : List Text :=
  [entry.name, passwordPlaceholder, decimal entry.uid, decimal entry.gid, entry.gecos, entry.home, entry.shell]

def PasswdEntry.display (entry : PasswdEntry) : Text := ":".toList.intercalate entry.fields

example : (PasswdEntry.new "user".toList 1000730000 0 "user user".toList "/home/user".toList
    "/bin/bash".toList).map PasswdEntry.display =
      .ok "user:x:1000730000:0:user user:/home/user:/bin/bash".toList := by decide +kernel

/-! ## What a valid entry has -/

/-- No separator and no line end. -/
structure Clean (value : Text) : Prop where
  separator : ':' ∉ value
  newline : '\n' ∉ value
  carriage : '\r' ∉ value

theorem rejectControl_clean {field value : Text} (passed : rejectControl field value = .ok ()) :
    Clean value := by
  unfold rejectControl at passed
  split at passed
  · cases passed
  · next none_ =>
    rw [List.findSome?_eq_none_iff] at none_
    constructor <;> intro member <;> cases none_ _ member

theorem validateAbsolute_clean {field value : Text} (passed : validateAbsolute field value = .ok ()) :
    Clean value := by
  obtain ⟨_, clean, _⟩ := (bind_eq_ok _ _ _).mp passed
  exact rejectControl_clean clean

structure NameShape (name : Text) : Prop where
  nonempty : name ≠ []
  bytes : ∀ byte ∈ utf8 name, isNameByte byte = true

theorem validateName_shape {name : Text} (passed : validateName name = .ok ()) : NameShape name := by
  unfold validateName at passed
  simp only [guard_eq_ok, check_eq_ok] at passed
  obtain ⟨nonempty, _, _, bytes, _⟩ := passed
  exact ⟨nonempty, List.all_eq_true.mp bytes⟩

theorem isNameByte_range (byte : UInt8) (isName : isNameByte byte = true) :
    45 ≤ byte.toNat ∧ byte.toNat ≤ 122 ∧ byte.toNat ≠ 58 := by
  simp only [isNameByte, Bool.or_eq_true, Bool.and_eq_true, decide_eq_true_eq, beq_iff_eq,
    UInt8.le_iff_toNat_le, ← UInt8.toNat_inj, UInt8.reduceToNat] at isName
  omega

theorem NameShape.char_range {name : Text} (shape : NameShape name) (c : Char) (member : c ∈ name) :
    45 ≤ c.toNat ∧ c.toNat ≤ 122 ∧ c.toNat ≠ 58 := by
  have isName : ∀ byte ∈ String.utf8EncodeChar c, isNameByte byte = true := fun byte inChar =>
    shape.bytes byte (List.mem_flatMap.mpr ⟨c, member, inChar⟩)
  obtain ⟨small, single⟩ | ⟨_, large⟩ := utf8EncodeChar_cases c
  · have range := isNameByte_range _ (isName (UInt8.ofNat c.toNat) (by simp [single]))
    rwa [UInt8.toNat_ofNat', Nat.mod_eq_of_lt (by omega)] at range
  · obtain ⟨byte, inChar⟩ := List.exists_mem_of_ne_nil _ (String.utf8EncodeChar_ne_nil (c := c))
    have range := isNameByte_range byte (isName byte inChar)
    have above := large byte inChar
    omega

theorem NameShape.clean {name : Text} (shape : NameShape name) : Clean name where
  separator member := (shape.char_range _ member).2.2 rfl
  newline member := absurd (shape.char_range _ member).1 (by decide)
  carriage member := absurd (shape.char_range _ member).1 (by decide)

theorem isDigit_decimal (number : UInt32) : ∀ c ∈ decimal number, c.isDigit = true :=
  fun _ member => Nat.isDigit_of_mem_toDigits (by decide) (by decide) member

theorem decimal_clean (number : UInt32) : Clean (decimal number) where
  separator member := absurd (isDigit_decimal number _ member) (by decide)
  newline member := absurd (isDigit_decimal number _ member) (by decide)
  carriage member := absurd (isDigit_decimal number _ member) (by decide)

theorem validateEntry_ok {name gecos home shell : Text} {uid : UInt32}
    (passed : validateEntry name uid gecos home shell = .ok ()) :
    NameShape name ∧ Clean gecos ∧ Clean home ∧ Clean shell := by
  unfold validateEntry at passed
  obtain ⟨_, named, passed⟩ := (bind_eq_ok _ _ _).mp passed
  obtain ⟨_, passed⟩ := (guard_eq_ok _ _ _ _).mp passed
  obtain ⟨_, commented, passed⟩ := (bind_eq_ok _ _ _).mp passed
  obtain ⟨_, housed, passed⟩ := (bind_eq_ok _ _ _).mp passed
  refine ⟨validateName_shape named, rejectControl_clean commented, validateAbsolute_clean housed, ?_⟩
  split at passed
  · next empty => rw [empty]; constructor <;> exact List.not_mem_nil
  · exact validateAbsolute_clean passed

theorem PasswdEntry.nameShape (entry : PasswdEntry) : NameShape entry.name := (validateEntry_ok entry.valid).1

theorem PasswdEntry.fields_clean (entry : PasswdEntry) : ∀ field ∈ entry.fields, Clean field := by
  obtain ⟨named, commented, housed, shelled⟩ := validateEntry_ok entry.valid
  have placeholder : Clean passwordPlaceholder := by constructor <;> decide
  simp only [PasswdEntry.fields, List.forall_mem_cons, List.not_mem_nil, false_implies, implies_true, and_true]
  exact ⟨named.clean, placeholder, decimal_clean _, decimal_clean _, commented, housed, shelled⟩

end WeeboSi.PasswdAppend
