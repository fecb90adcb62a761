import WeeboSi.ImagePolicy.Variable
import WeeboSi.Lib.Json
import WeeboSi.Lib.Outcome

/-!
# Templates of the per-user workspace

Source: crates/weebo-si-crd/src/template.rs:24-279. A variable is written in single braces; what
stands in double braces is somebody else's template and is copied. A pass of the loop takes at least
the brace it found, so as many passes as there are characters are enough.
-/
namespace WeeboSi.Crd
open WeeboSi.Lib

def usernameVariable : Text := "USERNAME".toList
def objectNameVariable : Text := "OBJECT_NAME".toList
def teamNameVariable : Text := "TEAM_NAME".toList
def emailVariable : Text := "EMAIL".toList
def displayNameVariable : Text := "DISPLAY_NAME".toList
def userNamespaceVariable : Text := "USER_NAMESPACE".toList

def templateVariables : List Text :=
  [usernameVariable, objectNameVariable, teamNameVariable, emailVariable, displayNameVariable,
    userNamespaceVariable]

/-- The values of the variables; the last one bound is read first. -/
abbrev Bindings := List (Text × Text)

def Bindings.bind (bindings : Bindings) (name value : Text) : Bindings := (name, value) :: bindings

inductive TemplateError where
  | unknownVariable (template variableName : Text)
  | unterminatedVariable (template : Text)
  | illegalNamespace (template rendered : Text)
  deriving DecidableEq, Repr

/-! ## Rendering -/

/-- Cut at the first occurrence of a text, which belongs to neither side. -/
def cutAt (needle : Text) : Text → Option (Text × Text)
  | [] => if needle = [] then some ([], []) else none
  | c :: rest =>
    if needle.isPrefixOf (c :: rest) then some ([], (c :: rest).drop needle.length)
    else (cutAt needle rest).map fun (before, after) => (c :: before, after)

def closingBraces : Text := ['\x7d', '\x7d']

section Loop
variable (template : Text) (lookup : Text → Option Text)

/-- The text, and the names that were looked up on the way. -/
def renderLoop : Nat → Text → Except TemplateError (Text × List Text)
  | 0, _ => .error (.unterminatedVariable template)
  | passes + 1, rest =>
    match splitOnce '\x7b' rest with
    | none => .ok (rest, [])
    | some (before, after) =>
      if after.head? = some '\x7b' then
        match cutAt closingBraces after with
        | none => .error (.unterminatedVariable template)
        | some (inside, later) =>
          (renderLoop passes later).map fun (out, names) =>
            (before ++ '\x7b' :: (inside ++ closingBraces ++ out), names)
      else
        match splitOnce '\x7d' after with
        | none => .error (.unterminatedVariable template)
        | some (name, later) =>
          if ImagePolicy.isLegalVariableName name = false then .error (.unknownVariable template name)
          else
            match lookup name with
            | none => .error (.unknownVariable template name)
            | some value =>
              (renderLoop passes later).map fun (out, names) => (before ++ value ++ out, name :: names)

def renderWith : Except TemplateError (Text × List Text) :=
  renderLoop template lookup (template.length + 1) template

theorem cutAt_length (needle text before after : Text) (cut : cutAt needle text = some (before, after)) :
    after.length ≤ text.length := by
  induction text generalizing before with
  | nil =>
    rw [cutAt] at cut
    split at cut
    · cases cut
      exact Nat.le_refl _
    · cases cut
  | cons c rest ih =>
    rw [cutAt] at cut
    split at cut
    · cases cut
      exact (List.drop_sublist _ _).length_le
    · obtain ⟨⟨front, back⟩, later, same⟩ := Option.map_eq_some_iff.mp cut
      cases same
      exact Nat.le_succ_of_le (ih front later)

/-- With more passes than characters, the loop ends by itself. -/
theorem renderLoop_enough (rest : Text) (passes more : Nat) (enough : rest.length < passes)
    (larger : passes ≤ more) :
    renderLoop template lookup more rest = renderLoop template lookup passes rest := by
  induction passes generalizing rest more with
  | zero => exact absurd enough (Nat.not_lt_zero _)
  | succ passes ih =>
    have positive := Nat.lt_of_lt_of_le (Nat.succ_pos passes) larger
    obtain ⟨more, rfl⟩ := Nat.exists_eq_succ_of_ne_zero (Nat.ne_of_gt positive)
    rw [renderLoop, renderLoop]
    cases opened : splitOnce '\x7b' rest with
    | none => rfl
    | some parts =>
      obtain ⟨before, after⟩ := parts
      have shorter := splitOnce_length _ _ _ _ opened
      dsimp only
      split
      · cases closed : cutAt closingBraces after with
        | none => rfl
        | some parts =>
          obtain ⟨inside, later⟩ := parts
          have behind := cutAt_length _ _ _ _ closed
          dsimp only
          rw [ih later more (by omega) (Nat.le_of_succ_le_succ larger)]
      · cases closed : splitOnce '\x7d' after with
        | none => rfl
        | some parts =>
          obtain ⟨name, later⟩ := parts
          have behind := splitOnce_length _ _ _ _ closed
          dsimp only
          rw [ih later more (by omega) (Nat.le_of_succ_le_succ larger)]

end Loop

def render (template : Text) (bindings : Bindings) : Except TemplateError Text :=
  (renderWith template fun name => bindings.lookup name).map Prod.fst

/-- The names in a template, in order. -/
def templateNames (template : Text) : Except TemplateError (List Text) :=
  (renderWith template fun _ => some []).map Prod.snd

/-! ## Namespaces and values -/

def isDnsLabel (name : Text) : Bool :=
  if name = [] ∨ 63 < byteLen name then false
  else if name.head? = some '-' ∨ name.getLast? = some '-' then false
  else name.all fun c => c.isLower || c.isDigit || c == '-'

def renderNamespace (template : Text) (bindings : Bindings) : Except TemplateError Text :=
  match render template bindings with
  | .error error => .error error
  | .ok rendered => if isDnsLabel rendered then .ok rendered else .error (.illegalNamespace template rendered)

section Values
variable (bindings : Bindings)

mutual

/-- Strings are rendered wherever they stand, and keys are left alone. -/
def renderValue : Json → Except TemplateError Json
  | .string text => (render text bindings).map .string
  | .array items => (renderItems items).map .array
  | .object members => (renderMembers members).map .object
  | .null => .ok .null
  | .bool value => .ok (.bool value)
  | .number literal => .ok (.number literal)

def renderItems : List Json → Except TemplateError (List Json)
  | [] => .ok []
  | item :: items => do
    let item ← renderValue item
    let items ← renderItems items
    .ok (item :: items)

def renderMembers : Members → Except TemplateError Members
  | [] => .ok []
  | (key, value) :: members => do
    let value ← renderValue value
    let members ← renderMembers members
    .ok ((key, value) :: members)

end

end Values

mutual

/-- Objects are merged key by key; anything else is replaced. -/
def mergeValues (base : Json) : Json → Json
  | .object overlay =>
    match base with
    | .object fields => .object (mergeFields fields overlay)
    | _ => .object overlay
  | .null => .null
  | .bool value => .bool value
  | .number literal => .number literal
  | .string text => .string text
  | .array items => .array items

def mergeFields (fields : Members) : Members → Members
  | [] => fields
  | (key, value) :: overlay =>
    mergeFields
      (setMember key
        (match fields.lookup key with
          | some existing => mergeValues existing value
          | none => value)
        fields)
      overlay

end

end WeeboSi.Crd
