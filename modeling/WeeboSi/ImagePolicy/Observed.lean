import WeeboSi.ImagePolicy.Variable
import WeeboSi.Lib.TextMap

/-!
# What is counted of the declared variables

Source: crates/weebo-si-image-policy/src/variable.rs:114-200 and 239-281, feature/core.rs:37-66,
port.rs:73-95. The adapter resolves the declared variables and the feature binds the built-in ones
on top; each tells the observer.
-/
namespace WeeboSi.ImagePolicy
open WeeboSi.Lib

inductive VariableResult where
  | resolved | undefined | illegal
  deriving DecidableEq, Repr

/-- The annotation a declared variable is read from. -/
structure VariableBinding where
  namespaceKey : Text
  deriving DecidableEq, Repr

inductive Observation where
  | variableValueSeen (namespaceName : Text) (name : VariableName) (value : Text)
  | variableResolved (name : VariableName) (result : VariableResult)
  deriving DecidableEq

/-- An annotation of a namespace. -/
abbrev NamespaceView := Text → Text → Option Text

/-! ## The declared variables -/

section Declared
variable (namespaceName : Text) (view : NamespaceView)

def resolveMembers : List (Text × VariableBinding) → VariableValues → VariableValues × List Observation
  | [], values => (values, [])
  | (rawName, binding) :: members, values =>
    match VariableName.new rawName with
    | none => resolveMembers members values
    | some name =>
      if name.isBuiltin then resolveMembers members values
      else match view namespaceName binding.namespaceKey with
        | none => resolveMembers members values
        | some rawValue =>
          match PathComponent.new rawValue with
          | .ok value =>
            let (values, later) := resolveMembers members (values.insert name value)
            (values, .variableValueSeen namespaceName name rawValue :: .variableResolved name .resolved :: later)
          | .error _ =>
            let (values, later) := resolveMembers members values
            (values, .variableValueSeen namespaceName name rawValue :: .variableResolved name .illegal :: later)

def resolveDeclared (declared : TextMap VariableBinding) : VariableValues × List Observation :=
  resolveMembers namespaceName view declared.members .new

end Declared

/-! ## The built-in ones -/

def teamName : VariableName := ⟨teamNameVariable, by rfl⟩
def namespaceVariableName : VariableName := ⟨namespaceVariable, by rfl⟩

namespace VariableValues
variable (values : VariableValues)

/-- A name that is no path component leaves the variable undefined. -/
def bindText (name : VariableName) (text : Text) : VariableValues × VariableResult :=
  match PathComponent.new text with
  | .ok value => (values.insert name value, .resolved)
  | .error _ => (values, .illegal)

def bindTeam (team : Option Text) : VariableValues × VariableResult :=
  match team with
  | none => (values, .undefined)
  | some team => values.bindText teamName team

def bindNamespace (namespaceName : Text) : VariableValues × VariableResult :=
  values.bindText namespaceVariableName namespaceName

end VariableValues

def bindBuiltins (resolved : VariableValues) (namespaceName : Text) (team : Option Text)
    (declared : TextMap VariableBinding) : VariableValues × List Observation :=
  let (withTeam, teamResult) := resolved.bindTeam team
  let (values, namespaceResult) := withTeam.bindNamespace namespaceName
  (values,
    [.variableResolved teamName teamResult, .variableResolved namespaceVariableName namespaceResult] ++
      declared.keys.filterMap fun declaredName =>
        (VariableName.new declaredName).bind fun name =>
          if (values.get name).isNone then some (.variableResolved name .undefined) else none)

/-- What one request tells the observer. -/
def observations (namespaceName : Text) (view : NamespaceView) (team : Option Text)
    (declared : TextMap VariableBinding) : List Observation :=
  let (values, first) := resolveDeclared namespaceName view declared
  first ++ (bindBuiltins values namespaceName team declared).2

/-- The results counted for one variable. -/
def resultOf (name : VariableName) : Observation → Option VariableResult
  | .variableResolved other result => if other = name then some result else none
  | .variableValueSeen _ _ _ => none

/-- What should be counted. -/
def outcome (value : Option Text) : VariableResult :=
  match value with
  | none => .undefined
  | some raw => if edged isComponentEdge isComponentChar raw then .resolved else .illegal

/-! ## Counting -/

theorem resultOf_self (name : VariableName) (result : VariableResult) :
    resultOf name (.variableResolved name result) = some result := if_pos rfl

theorem resultOf_other (name found : VariableName) (other : found ≠ name) (result : VariableResult) :
    resultOf name (.variableResolved found result) = none := if_neg other

section Counting
variable (namespaceName : Text) (view : NamespaceView)

theorem variableName_new (name : VariableName) : VariableName.new name.text = some name := by
  unfold VariableName.new
  rw [dif_pos name.legal]

theorem variableName_text (raw : Text) (name : VariableName) (made : VariableName.new raw = some name) :
    name.text = raw := by
  unfold VariableName.new at made
  split at made
  · cases made
    rfl
  · cases made

theorem pathComponent_ok (raw : Text) (value : PathComponent) (made : PathComponent.new raw = .ok value) :
    edged isComponentEdge isComponentChar raw = true := by
  unfold PathComponent.new at made
  split at made
  · assumption
  · cases made

theorem pathComponent_error (raw : Text) (error : ParseError) (refused : PathComponent.new raw = .error error) :
    edged isComponentEdge isComponentChar raw = false := by
  unfold PathComponent.new at refused
  split at refused
  · cases refused
  · rename_i illegal
    simpa using illegal

/-- The annotation of a declared variable. -/
def declaredValue (members : List (Text × VariableBinding)) (name : VariableName) : Option Text :=
  (members.lookup name.text).bind fun binding => view namespaceName binding.namespaceKey

theorem declaredValue_cons_of_ne (rawName : Text) (binding : VariableBinding)
    (members : List (Text × VariableBinding)) (name : VariableName) (other : name.text ≠ rawName) :
    declaredValue namespaceName view ((rawName, binding) :: members) name =
      declaredValue namespaceName view members name := by
  unfold declaredValue
  rw [List.lookup_cons, beq_false_of_ne other]

theorem declaredValue_cons_self (binding : VariableBinding) (members : List (Text × VariableBinding))
    (name : VariableName) :
    declaredValue namespaceName view ((name.text, binding) :: members) name =
      view namespaceName binding.namespaceKey := by
  unfold declaredValue
  rw [List.lookup_cons_self, Option.bind_some]

theorem declaredValue_absent (members : List (Text × VariableBinding)) (name : VariableName)
    (absent : name.text ∉ members.map Prod.fst) : declaredValue namespaceName view members name = none := by
  unfold declaredValue
  rw [lookup_eq_none_of_absent members name.text absent, Option.bind_none]

theorem results_self (name : VariableName) (raw : Text) (result : VariableResult) (later : List Observation) :
    (Observation.variableValueSeen namespaceName name raw :: .variableResolved name result :: later).filterMap
      (resultOf name) = result :: later.filterMap (resultOf name) := by
  rw [List.filterMap_cons_none rfl, List.filterMap_cons_some (resultOf_self name result)]

theorem results_other (name found : VariableName) (other : found ≠ name) (raw : Text) (result : VariableResult)
    (later : List Observation) :
    (Observation.variableValueSeen namespaceName found raw :: .variableResolved found result :: later).filterMap
      (resultOf name) = later.filterMap (resultOf name) := by
  rw [List.filterMap_cons_none rfl, List.filterMap_cons_none (resultOf_other name found other result)]

/-- Another member counts and binds another variable, if any. -/
theorem resolveMembers_cons_other (rawName : Text) (binding : VariableBinding)
    (members : List (Text × VariableBinding)) (values : VariableValues) (name : VariableName) (other : name.text ≠ rawName) :
    ∃ next, next.get name = values.get name ∧
      (resolveMembers namespaceName view ((rawName, binding) :: members) values).2.filterMap (resultOf name) =
        (resolveMembers namespaceName view members next).2.filterMap (resultOf name) ∧
      (resolveMembers namespaceName view ((rawName, binding) :: members) values).1 =
        (resolveMembers namespaceName view members next).1 := by
  rw [resolveMembers]
  cases made : VariableName.new rawName with
  | none => exact ⟨values, rfl, rfl, rfl⟩
  | some found =>
    have different : found ≠ name := by
      rintro rfl
      exact other (variableName_text rawName found made)
    dsimp only
    split
    · exact ⟨values, rfl, rfl, rfl⟩
    · cases seen : view namespaceName binding.namespaceKey with
      | none => exact ⟨values, rfl, rfl, rfl⟩
      | some raw =>
        dsimp only
        cases component : PathComponent.new raw with
        | ok value =>
          refine ⟨values.insert found value, ?_, results_other _ _ _ different _ _ _, rfl⟩
          rw [VariableValues.get_insert, if_neg (Ne.symm different)]
        | error error => exact ⟨values, rfl, results_other _ _ _ different _ _ _, rfl⟩

/-- The adapter counts a variable that has a value, and binds it when the value is legal. -/
theorem resolveMembers_counts (members : List (Text × VariableBinding)) (distinct : (members.map Prod.fst).Nodup)
    (name : VariableName) (ordinary : name.isBuiltin = false) (values : VariableValues) :
    (resolveMembers namespaceName view members values).2.filterMap (resultOf name) =
        ((declaredValue namespaceName view members name).map fun raw => outcome (some raw)).toList ∧
      (((resolveMembers namespaceName view members values).1.get name).isSome = true ↔
        outcome (declaredValue namespaceName view members name) = .resolved ∨ (values.get name).isSome = true) := by
  induction members generalizing values with
  | nil => simp [resolveMembers, declaredValue, outcome]
  | cons member members ih =>
    obtain ⟨rawName, binding⟩ := member
    rw [List.map_cons, List.nodup_cons] at distinct
    have rest := ih distinct.2
    by_cases other : name.text = rawName
    · subst other
      have absent := declaredValue_absent namespaceName view members name distinct.1
      rw [absent] at rest
      rw [declaredValue_cons_self, resolveMembers, variableName_new]
      dsimp only
      rw [if_neg (by simp [ordinary])]
      cases seen : view namespaceName binding.namespaceKey with
      | none => exact rest values
      | some raw =>
        dsimp only
        cases component : PathComponent.new raw with
        | ok value =>
          have legal := pathComponent_ok raw value component
          have later := rest (values.insert name value)
          dsimp only
          rw [results_self, later.1, later.2]
          simp [outcome, legal]
        | error error =>
          have illegal := pathComponent_error raw error component
          have later := rest values
          dsimp only
          rw [results_self, later.1, later.2]
          simp [outcome, illegal]
    · obtain ⟨next, kept, counted, bound⟩ :=
        resolveMembers_cons_other namespaceName view rawName binding members values name other
      rw [declaredValue_cons_of_ne _ _ _ _ _ _ other, counted, bound, ← kept]
      exact rest next

theorem get_bindText (values : VariableValues) (bound name : VariableName) (text : Text) (other : name ≠ bound) :
    (values.bindText bound text).1.get name = values.get name := by
  unfold VariableValues.bindText
  split
  · rw [VariableValues.get_insert, if_neg other]
  · rfl

theorem builtin_ne (name : VariableName) (ordinary : name.isBuiltin = false) :
    name ≠ teamName ∧ name ≠ namespaceVariableName := by
  constructor
  · rintro rfl
    cases ordinary
  · rintro rfl
    cases ordinary

theorem undefined_counts (values : VariableValues) (name : VariableName) (keys : List Text) (distinct : keys.Nodup) :
    (keys.filterMap fun declaredName => (VariableName.new declaredName).bind fun other =>
        if (values.get other).isNone then some (Observation.variableResolved other .undefined) else none).filterMap
      (resultOf name) =
    if name.text ∈ keys ∧ (values.get name).isNone = true then [.undefined] else [] := by
  induction keys with
  | nil => simp
  | cons key keys ih =>
    rw [List.nodup_cons] at distinct
    have rest := ih distinct.2
    by_cases same : key = name.text
    · subst same
      rw [if_neg fun both => distinct.1 both.1] at rest
      cases undefined : (values.get name).isNone with
      | true =>
        rw [List.filterMap_cons_some (by rw [variableName_new, Option.bind_some, if_pos undefined]),
          List.filterMap_cons_some (resultOf_self name _), rest]
        simp
      | false =>
        rw [List.filterMap_cons_none (by rw [variableName_new, Option.bind_some, if_neg (by simp [undefined])]), rest]
        simp
    · have tail : name.text ∈ key :: keys ↔ name.text ∈ keys := by simp [Ne.symm same]
      rw [if_congr (and_congr_left' tail) rfl rfl, ← rest]
      cases made : VariableName.new key with
      | none => rw [List.filterMap_cons_none (by rw [made, Option.bind_none])]
      | some other =>
        have apart : other ≠ name := by
          rintro rfl
          exact same (variableName_text key other made).symm
        by_cases undefined : (values.get other).isNone = true
        · rw [List.filterMap_cons_some (by rw [made, Option.bind_some, if_pos undefined]),
            List.filterMap_cons_none (resultOf_other name other apart _)]
        · rw [List.filterMap_cons_none (by rw [made, Option.bind_some, if_neg undefined])]

/-- The feature counts every declared variable that is not bound as undefined. -/
theorem bindBuiltins_counts (resolved : VariableValues) (team : Option Text) (declared : TextMap VariableBinding)
    (name : VariableName) (ordinary : name.isBuiltin = false) (member : name.text ∈ declared.keys) :
    (bindBuiltins resolved namespaceName team declared).2.filterMap (resultOf name) =
      if (resolved.get name).isSome then [] else [.undefined] := by
  obtain ⟨notTeam, notNamespace⟩ := builtin_ne name ordinary
  have team_ : (resolved.bindTeam team).1.get name = resolved.get name := by
    unfold VariableValues.bindTeam
    cases team with
    | none => rfl
    | some team => exact get_bindText resolved teamName name team notTeam
  have kept : ((resolved.bindTeam team).1.bindNamespace namespaceName).1.get name = resolved.get name :=
    (get_bindText _ namespaceVariableName name namespaceName notNamespace).trans team_
  unfold bindBuiltins
  dsimp only
  rw [List.filterMap_append, List.filterMap_cons_none (resultOf_other name _ (Ne.symm notTeam) _),
    List.filterMap_cons_none (resultOf_other name _ (Ne.symm notNamespace) _), List.filterMap_nil, List.nil_append,
    undefined_counts _ name declared.keys declared.distinct, kept]
  cases resolved.get name <;> simp [member]

end Counting

/-- A declared variable is counted once, and as what it is, exactly when its annotation is absent or a
legal path component. -/
theorem counted_once_iff (namespaceName : Text) (view : NamespaceView) (team : Option Text)
    (declared : TextMap VariableBinding) (name : VariableName) (ordinary : name.isBuiltin = false)
    (member : name.text ∈ declared.keys) :
    (observations namespaceName view team declared).filterMap (resultOf name) =
        [outcome (declaredValue namespaceName view declared.members name)] ↔
      ∀ raw, declaredValue namespaceName view declared.members name = some raw →
        edged isComponentEdge isComponentChar raw = true := by
  have counts := resolveMembers_counts namespaceName view declared.members declared.distinct name ordinary .new
  have nothing : (VariableValues.new.get name).isSome = false := rfl
  unfold observations resolveDeclared
  dsimp only
  rw [List.filterMap_append, counts.1, bindBuiltins_counts _ _ _ _ name ordinary member]
  have bound := counts.2
  rw [nothing] at bound
  cases value : declaredValue namespaceName view declared.members name with
  | none =>
    rw [value] at bound
    simp [bound, outcome]
  | some raw =>
    rw [value] at bound
    cases legal : edged isComponentEdge isComponentChar raw with
    | true => simp [bound, outcome, legal]
    | false => simp [bound, outcome, legal]

def projectName : VariableName := ⟨"PROJECT".toList, by rfl⟩

def projectDeclared : TextMap VariableBinding := .ofList [("PROJECT".toList, ⟨"weebo.io/project".toList⟩)]

/-- A legal value is counted once. -/
theorem project_counted_once :
    (observations "team-a".toList (fun _ _ => some "shop".toList) none projectDeclared).filterMap
      (resultOf projectName) = [.resolved] := by
  have once := (counted_once_iff "team-a".toList (fun _ _ => some "shop".toList) none projectDeclared projectName
    (by decide) (by decide)).mpr
  refine once ?_
  intro raw found
  cases found
  decide

/-- A value that is no path component is counted as illegal, and again as undefined. -/
theorem illegal_counted_twice :
    ¬ ∀ (namespaceName : Text) (view : NamespaceView) (team : Option Text) (declared : TextMap VariableBinding)
      (name : VariableName), name.isBuiltin = false → name.text ∈ declared.keys →
        (observations namespaceName view team declared).filterMap (resultOf name) =
          [outcome (declaredValue namespaceName view declared.members name)] := by
  intro claimed
  have once := claimed "team-a".toList (fun _ _ => some "../shop".toList) none projectDeclared projectName
    (by decide) (by decide)
  have twice : (observations "team-a".toList (fun _ _ => some "../shop".toList) none projectDeclared).filterMap
      (resultOf projectName) = [.illegal, .undefined] := by decide +kernel
  rw [twice] at once
  cases once

end WeeboSi.ImagePolicy
