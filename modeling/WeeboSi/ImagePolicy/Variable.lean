import WeeboSi.ImagePolicy.ReferenceShape

/-!
# Pattern variables and their values

Source: crates/weebo-si-image-policy/src/variable.rs:28-205 and
crates/weebo-si-crd/src/image_policy.rs:327-334. A name and a value exist only
validated: the fields `legal` are what the two constructors check.
-/
namespace WeeboSi.ImagePolicy
open WeeboSi.Lib

def teamNameVariable : Text := "TEAM_NAME".toList
def namespaceVariable : Text := "NAMESPACE".toList

/-- `[A-Z][A-Z0-9_]*`. -/
def isLegalVariableName (name : Text) : Bool :=
  match name with
  | [] => false
  | first :: rest => first.isUpper && rest.all fun c => c.isUpper || c.isDigit || c == '_'

structure VariableName where
  text : Text
  legal : isLegalVariableName text = true
  deriving DecidableEq

def VariableName.new (name : Text) : Option VariableName :=
  if legal : isLegalVariableName name = true then some ⟨name, legal⟩ else none

def VariableName.isBuiltin (name : VariableName) : Bool :=
  name.text == teamNameVariable || name.text == namespaceVariable

/-- Only the team's name may stand in a host. -/
def VariableName.allowedInHost (name : VariableName) : Bool := name.text == teamNameVariable

/-- One legal path component: no `/`, no `*`, no brace, never empty. -/
structure PathComponent where
  text : Text
  legal : edged isComponentEdge isComponentChar text = true
  deriving DecidableEq

def PathComponent.new (value : Text) : Except ParseError PathComponent :=
  if legal : edged isComponentEdge isComponentChar value = true then .ok ⟨value, legal⟩
  else .error .illegalPathComponent

theorem PathComponent.ne_nil (value : PathComponent) : value.text ≠ [] :=
  edged_ne_nil _ _ _ value.legal

/-- The bindings of one subject. A later binding of a name replaces an earlier one. -/
structure VariableValues where
  entries : List (VariableName × PathComponent)

namespace VariableValues

def new : VariableValues := ⟨[]⟩

def insert (values : VariableValues) (name : VariableName) (value : PathComponent) : VariableValues :=
  ⟨(name, value) :: values.entries⟩

def fromPairs (pairs : List (VariableName × PathComponent)) : VariableValues :=
  pairs.foldl (fun values pair => values.insert pair.1 pair.2) new

def get (values : VariableValues) (name : VariableName) : Option PathComponent :=
  values.entries.lookup name

@[simp] theorem get_insert (values : VariableValues) (name key : VariableName) (value : PathComponent) :
    (values.insert name value).get key = if key = name then some value else values.get key := by
  by_cases same : key = name
  · simp [get, insert, same]
  · have other : (key == name) = false := beq_false_of_ne same
    simp [get, insert, List.lookup_cons, other, same]

/-- Binding every name of a list to one value leaves that value under each of them. -/
theorem get_fromPairs (names : List VariableName) (value : PathComponent) (name : VariableName)
    (member : name ∈ names) : (fromPairs (names.map (·, value))).get name = some value := by
  have run : ∀ start : VariableValues, name ∈ names ∨ start.get name = some value →
      ((names.map (·, value)).foldl (fun values pair => values.insert pair.1 pair.2) start).get name =
        some value := by
    clear member
    induction names with
    | nil => simp
    | cons first rest ih =>
      intro start h
      simp only [List.map_cons, List.foldl_cons]
      apply ih
      by_cases same : name = first
      · exact Or.inr (by simp [same])
      · simp only [List.mem_cons, same, false_or] at h
        rcases h with h | h
        · exact Or.inl h
        · exact Or.inr (by simpa [same] using h)
  exact run new (Or.inl member)

end VariableValues

end WeeboSi.ImagePolicy
