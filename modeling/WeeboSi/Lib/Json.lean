import WeeboSi.Lib.Text

/-!
# JSON values, pointers and the patch operation `add`

A number is its literal. An object is a list of members in the order of their keys, read by
the first match of a key. A pointer is the list of its reference tokens, `~0` and `~1`
already read.
-/
namespace WeeboSi.Lib

inductive Json where
  | null
  | bool (value : Bool)
  | number (literal : Text)
  | string (value : Text)
  | array (items : List Json)
  | object (members : List (Text × Json))

abbrev Members := List (Text × Json)
abbrev Pointer := List Text

/-! ## Equality -/

namespace Json

mutual

def same : Json → Json → Bool
  | null, null => true
  | bool a, bool b => a == b
  | number a, number b => a == b
  | string a, string b => a == b
  | array a, array b => sameItems a b
  | object a, object b => sameMembers a b
  | _, _ => false

def sameItems : List Json → List Json → Bool
  | [], [] => true
  | a :: as, b :: bs => same a b && sameItems as bs
  | _, _ => false

def sameMembers : Members → Members → Bool
  | [], [] => true
  | (k, a) :: as, (l, b) :: bs => k == l && same a b && sameMembers as bs
  | _, _ => false

end

mutual

theorem same_iff : ∀ a b : Json, same a b = true ↔ a = b
  | a, b => by
    cases a <;> cases b <;> simp [same]
    · exact sameItems_iff _ _
    · exact sameMembers_iff _ _

theorem sameItems_iff : ∀ a b : List Json, sameItems a b = true ↔ a = b
  | [], b => by cases b <;> simp [sameItems]
  | a :: as, b => by
    cases b with
    | nil => simp [sameItems]
    | cons b bs => simp [sameItems, same_iff a b, sameItems_iff as bs]

theorem sameMembers_iff : ∀ a b : Members, sameMembers a b = true ↔ a = b
  | [], b => by cases b <;> simp [sameMembers]
  | (k, a) :: as, b => by
    cases b with
    | nil => simp [sameMembers]
    | cons member bs =>
      obtain ⟨l, b⟩ := member
      simp [sameMembers, same_iff a b, sameMembers_iff as bs, and_assoc]

end

instance : DecidableEq Json := fun a b => decidable_of_iff _ (same_iff a b)

end Json

/-! ## Members -/

section Members
variable {V : Type}

/-- The member of the key is replaced, or a new one is put in its place. -/
def setMember (key : Text) (value : V) : List (Text × V) → List (Text × V)
  | [] => [(key, value)]
  | (k, v) :: members =>
    if k = key then (k, value) :: members
    else if textLe key k then (key, value) :: (k, v) :: members
    else (k, v) :: setMember key value members

@[simp] theorem lookup_setMember (key other : Text) (value : V) (members : List (Text × V)) :
    (setMember key value members).lookup other = if other = key then some value else members.lookup other := by
  induction members with
  | nil =>
    by_cases same : other = key
    · simp [setMember, same]
    · simp [setMember, same, List.lookup_cons, beq_false_of_ne same]
  | cons member members ih =>
    obtain ⟨k, v⟩ := member
    by_cases here : k = key
    · subst here
      by_cases same : other = k
      · simp [setMember, same]
      · simp [setMember, same, List.lookup_cons, beq_false_of_ne same]
    · by_cases before : textLe key k = true
      · by_cases same : other = key
        · simp [setMember, here, before, same]
        · simp [setMember, here, before, same, List.lookup_cons, beq_false_of_ne same]
      · by_cases first : other = k
        · subst first
          simp [setMember, here, before]
        · simp [setMember, here, before, List.lookup_cons, beq_false_of_ne first, ih]

end Members

/-! ## Pointers -/

/-- A reference token that names an item: digits without a leading zero. -/
def arrayIndex (token : Text) : Option Nat :=
  if token = [] ∨ token.all Char.isDigit = false ∨ (token.head? = some '0' ∧ token.length ≠ 1) then none
  else some (token.foldl (fun n c => 10 * n + (c.toNat - '0'.toNat)) 0)

namespace Json

def child (container : Json) (token : Text) : Option Json :=
  match container with
  | object members => members.lookup token
  | array items => (arrayIndex token).bind fun i => items[i]?
  | _ => none

def pointer : Json → Pointer → Option Json
  | value, [] => some value
  | value, token :: rest => (value.child token).bind fun inner => inner.pointer rest

@[simp] theorem pointer_nil (value : Json) : value.pointer [] = some value := by
  cases value <;> rfl

@[simp] theorem pointer_cons (value : Json) (token : Text) (rest : Pointer) :
    value.pointer (token :: rest) = (value.child token).bind fun inner => inner.pointer rest := rfl

theorem pointer_append (value : Json) (front rest : Pointer) :
    value.pointer (front ++ rest) = (value.pointer front).bind fun inner => inner.pointer rest := by
  induction front generalizing value with
  | nil => simp
  | cons token front ih =>
    rw [List.cons_append, pointer_cons, pointer_cons, Option.bind_assoc]
    congr 1
    funext inner
    exact ih inner

/-! ## The operation `add` -/

/-- The last step: a member is set, an item is inserted. -/
def addChild (container : Json) (token : Text) (value : Json) : Option Json :=
  match container with
  | object members => some (object (setMember token value members))
  | array items =>
    if token = ['-'] then some (array (items ++ [value]))
    else (arrayIndex token).bind fun i =>
      if i ≤ items.length then some (array (items.take i ++ value :: items.drop i)) else none
  | _ => none

/-- The way back up: a child that is there is exchanged. -/
def exchange (container : Json) (token : Text) (value : Json) : Json :=
  match container with
  | object members => object (setMember token value members)
  | array items => array (((arrayIndex token).map fun i => items.set i value).getD items)
  | other => other

def add : Json → Pointer → Json → Option Json
  | _, [], value => some value
  | document, [token], value => document.addChild token value
  | document, token :: next :: rest, value => do
    let inner ← document.child token
    let changed ← inner.add (next :: rest) value
    some (document.exchange token changed)

/-! ## Adding under names

No token of such a path is an index, so that every container on the way is an object. -/

def IsName (token : Text) : Prop := arrayIndex token = none ∧ token ≠ ['-']

instance (token : Text) : Decidable (IsName token) := inferInstanceAs (Decidable (_ ∧ _))

theorem child_of_name (container inner : Json) (token : Text) (name : IsName token) :
    container.child token = some inner ↔
      ∃ members, container = object members ∧ members.lookup token = some inner := by
  cases container with
  | object members => simp [child]
  | array items => simp [child, name.1]
  | _ => simp [child]

theorem addChild_of_name (container value changed : Json) (token : Text) (name : IsName token) :
    container.addChild token value = some changed ↔
      ∃ members, container = object members ∧ changed = object (setMember token value members) := by
  cases container with
  | object members => simp [addChild, eq_comm]
  | array items => simp [addChild, name.1, name.2]
  | _ => simp [addChild]

/-- One step down and back up: the document is an object, its child of the name is changed
or added, and nothing else is. -/
theorem add_cons_of_name (document value changed : Json) (token : Text) (path : Pointer) (name : IsName token)
    (added : document.add (token :: path) value = some changed) :
    ∃ members inner, document = object members ∧ changed = object (setMember token inner members) ∧
      (path = [] ∧ inner = value ∨
        ∃ before, members.lookup token = some before ∧ before.add path value = some inner) := by
  cases path with
  | nil =>
    obtain ⟨members, rfl, rfl⟩ := (addChild_of_name _ _ _ _ name).mp added
    exact ⟨members, value, rfl, rfl, Or.inl ⟨rfl, rfl⟩⟩
  | cons next rest =>
    simp only [add, Option.bind_eq_bind, Option.bind_eq_some_iff] at added
    obtain ⟨before, found, inner, below, rebuilt⟩ := added
    obtain ⟨members, rfl, here⟩ := (child_of_name _ _ _ name).mp found
    cases rebuilt
    exact ⟨members, inner, rfl, rfl, Or.inr ⟨before, here, below⟩⟩

/-- What was added is found at its path. -/
theorem pointer_add (document value changed : Json) (path rest : Pointer) (names : ∀ token ∈ path, IsName token)
    (added : document.add path value = some changed) : changed.pointer (path ++ rest) = value.pointer rest := by
  induction path generalizing document changed with
  | nil =>
    cases added
    rfl
  | cons token path ih =>
    obtain ⟨members, inner, rfl, rfl, below⟩ :=
      add_cons_of_name _ _ _ _ _ (names token (by simp)) added
    rw [List.cons_append, pointer_cons, child, lookup_setMember, if_pos rfl, Option.bind_some]
    rcases below with ⟨rfl, rfl⟩ | ⟨before, -, below⟩
    · rfl
    · exact ih before inner (fun token member => names token (by simp [member])) below

/-- What lies neither above nor below the path stays. -/
theorem pointer_add_apart (document value changed : Json) (path other : Pointer)
    (names : ∀ token ∈ path, IsName token) (added : document.add path value = some changed)
    (notBelow : ¬ path <+: other) (notAbove : ¬ other <+: path) :
    changed.pointer other = document.pointer other := by
  induction path generalizing document changed other with
  | nil => exact absurd List.nil_prefix notBelow
  | cons token path ih =>
    obtain ⟨members, inner, rfl, rfl, below⟩ :=
      add_cons_of_name _ _ _ _ _ (names token (by simp)) added
    cases other with
    | nil => exact absurd List.nil_prefix notAbove
    | cons first other =>
      simp only [pointer_cons, child, lookup_setMember]
      by_cases same : first = token
      · subst same
        simp only [List.prefix_cons_inj] at notBelow notAbove
        rcases below with ⟨rfl, -⟩ | ⟨before, found, below⟩
        · exact absurd List.nil_prefix notBelow
        · rw [if_pos rfl, found, Option.bind_some, Option.bind_some]
          exact ih before inner other (fun token member => names token (by simp [member])) below notBelow
            notAbove
      · rw [if_neg same]

/-- Adding succeeds where the container is an object. -/
theorem add_isSome_iff (document value : Json) (path : Pointer) (token : Text)
    (names : ∀ name ∈ path ++ [token], IsName name) :
    (document.add (path ++ [token]) value).isSome = true ↔
      ∃ members, document.pointer path = some (object members) := by
  induction path generalizing document with
  | nil =>
    have name := names token (by simp)
    rw [Option.isSome_iff_exists]
    simp only [List.nil_append, add, addChild_of_name _ _ _ _ name, pointer_nil, Option.some.injEq]
    constructor
    · rintro ⟨changed, members, rfl, -⟩
      exact ⟨members, rfl⟩
    · rintro ⟨members, rfl⟩
      exact ⟨_, members, rfl, rfl⟩
  | cons first path ih =>
    have unfolded : document.add (first :: path ++ [token]) value =
        (document.child first).bind fun inner => (inner.add (path ++ [token]) value).bind fun changed =>
          some (document.exchange first changed) := by
      cases path <;> rfl
    rw [unfolded, pointer_cons]
    cases document.child first with
    | none => simp
    | some inner =>
      have below := ih inner fun name member => names name (by simp at member ⊢; tauto)
      simp only [Option.bind_some]
      rw [← below]
      cases inner.add (path ++ [token]) value <;> rfl

end Json

/-- One operation of a patch: the target and the value that is added there. -/
structure AddOperation where
  path : Pointer
  value : Json

/-- The operations one after the other; the first that fails ends the patch. -/
def applyPatch (ops : List AddOperation) (document : Json) : Option Json :=
  ops.foldlM (fun document op => document.add op.path op.value) document

end WeeboSi.Lib
