import Mathlib.Data.List.Infix
import WeeboSi.Crd.Identity

/-!
# A template that validates renders

Source: crates/weebo-si-crd/src/argo.rs:150-280 and 377-406, template.rs:126-237, user.rs:234-248.
A template is read as a list of pieces, which validation and rendering walk in the same way.
-/
namespace WeeboSi.Crd
open WeeboSi.Lib

/-! ## Pieces -/

inductive Piece where
  | plain (text : Text)
  /-- Somebody else's template: what stands between the first brace and the closing two. -/
  | block (inside : Text)
  | placeholder (name : Text)
  deriving DecidableEq, Repr

namespace Piece

def source : Piece → Text
  | plain text => text
  | block inside => '\x7b' :: (inside ++ closingBraces)
  | placeholder name => '\x7b' :: (name ++ ['\x7d'])

/-- A plain piece has no opening brace, a block ends at the first two closing ones, and a variable
has a legal name. -/
def WellFormed : Piece → Prop
  | plain text => '\x7b' ∉ text
  | block inside => inside.head? = some '\x7b' ∧ ¬ closingBraces <:+: inside ++ ['\x7d']
  | placeholder name => ImagePolicy.isLegalVariableName name = true

def names : Piece → List Text
  | placeholder name => [name]
  | _ => []

def rendered (lookup : Text → Option Text) : Piece → Text
  | placeholder name => (lookup name).getD []
  | piece => piece.source

end Piece

/-- The text is made of pieces, and the output of the same pieces with the values in the places of the
variables, as they are. -/
def Expands (bindings : Bindings) (template output : Text) : Prop :=
  ∃ pieces : List Piece, (∀ piece ∈ pieces, piece.WellFormed) ∧ template = pieces.flatMap Piece.source ∧
    (∀ name ∈ pieces.flatMap Piece.names, (bindings.lookup name).isSome = true) ∧
    output = pieces.flatMap (Piece.rendered fun name => bindings.lookup name)

/-- Strings are expanded wherever they stand; everything else, keys included, is as it was. -/
inductive ValueExpands (bindings : Bindings) : Json → Json → Prop where
  | null : ValueExpands bindings .null .null
  | bool (value : Bool) : ValueExpands bindings (.bool value) (.bool value)
  | number (literal : Text) : ValueExpands bindings (.number literal) (.number literal)
  | string {template output : Text} (expands : Expands bindings template output) :
      ValueExpands bindings (.string template) (.string output)
  | array {items outputs : List Json} (expand : List.Forall₂ (ValueExpands bindings) items outputs) :
      ValueExpands bindings (.array items) (.array outputs)
  | object {members outputs : Members}
      (keys : outputs.map Prod.fst = members.map Prod.fst)
      (expand : List.Forall₂ (ValueExpands bindings) (members.map Prod.snd) (outputs.map Prod.snd)) :
      ValueExpands bindings (.object members) (.object outputs)

/-! ## One template -/

theorem cutAt_closing (text before after : Text) (cut : cutAt closingBraces text = some (before, after)) :
    text = before ++ closingBraces ++ after ∧ ¬ closingBraces <:+: before ++ ['\x7d'] := by
  induction text generalizing before with
  | nil => cases cut
  | cons c rest ih =>
    rw [cutAt] at cut
    split at cut
    · rename_i here
      cases cut
      obtain ⟨later, whole⟩ := List.isPrefixOf_iff_prefix.mp here
      constructor
      · rw [← whole]
        simp
      · intro inside
        have long := inside.length_le
        simp [closingBraces] at long
    · rename_i elsewhere
      obtain ⟨⟨front, back⟩, later, same⟩ := Option.map_eq_some_iff.mp cut
      cases same
      obtain ⟨whole, first⟩ := ih front later
      refine ⟨by rw [whole]; simp, ?_⟩
      rw [List.cons_append, List.infix_cons_iff]
      rintro (starts | inside)
      · apply elsewhere
        rw [List.isPrefixOf_iff_prefix, whole]
        refine starts.trans ?_
        exact ⟨'\x7d' :: after, by simp [closingBraces]⟩
      · exact first inside

section Loop
variable (template : Text) (lookup : Text → Option Text)

/-- What a pass of the loop that ends well has done: nothing was left to do, or it copied a block or
replaced a variable and the loop went on. -/
theorem renderLoop_cases (passes : Nat) (rest out : Text) (names : List Text)
    (rendered : renderLoop template lookup (passes + 1) rest = .ok (out, names)) :
    (splitOnce '\x7b' rest = none ∧ out = rest ∧ names = []) ∨
    ∃ before after later tail used, splitOnce '\x7b' rest = some (before, after) ∧
      renderLoop template lookup passes later = .ok (tail, used) ∧
      ((∃ inside, after.head? = some '\x7b' ∧ cutAt closingBraces after = some (inside, later) ∧
          out = before ++ '\x7b' :: (inside ++ closingBraces ++ tail) ∧ names = used) ∨
        ∃ name value, ¬ after.head? = some '\x7b' ∧ splitOnce '\x7d' after = some (name, later) ∧
          ¬ ImagePolicy.isLegalVariableName name = false ∧ lookup name = some value ∧
          out = before ++ value ++ tail ∧ names = name :: used) := by
  rw [renderLoop] at rendered
  cases opened : splitOnce '\x7b' rest with
  | none =>
    rw [opened] at rendered
    cases rendered
    exact .inl ⟨rfl, rfl, rfl⟩
  | some parts =>
    obtain ⟨before, after⟩ := parts
    rw [opened] at rendered
    dsimp only at rendered
    right
    split at rendered
    · rename_i double
      cases closed : cutAt closingBraces after with
      | none =>
        rw [closed] at rendered
        cases rendered
      | some parts =>
        obtain ⟨inside, later⟩ := parts
        rw [closed] at rendered
        obtain ⟨⟨tail, used⟩, looped, same⟩ := (map_eq_ok _ _ _).mp rendered
        cases same
        exact ⟨before, after, later, tail, used, rfl, looped, .inl ⟨inside, double, closed, rfl, rfl⟩⟩
    · rename_i single
      cases closed : splitOnce '\x7d' after with
      | none =>
        rw [closed] at rendered
        cases rendered
      | some parts =>
        obtain ⟨name, later⟩ := parts
        rw [closed] at rendered
        dsimp only at rendered
        split at rendered
        · cases rendered
        · rename_i legal
          cases found : lookup name with
          | none =>
            rw [found] at rendered
            cases rendered
          | some value =>
            rw [found] at rendered
            obtain ⟨⟨tail, used⟩, looped, same⟩ := (map_eq_ok _ _ _).mp rendered
            cases same
            exact ⟨before, after, later, tail, used, rfl, looped,
              .inr ⟨name, value, single, closed, legal, found, rfl, rfl⟩⟩

/-- What the loop has rendered is made of pieces. -/
theorem renderLoop_pieces (passes : Nat) (rest out : Text) (names : List Text)
    (rendered : renderLoop template lookup passes rest = .ok (out, names)) :
    ∃ pieces : List Piece, (∀ piece ∈ pieces, piece.WellFormed) ∧ rest = pieces.flatMap Piece.source ∧
      names = pieces.flatMap Piece.names ∧ (∀ name ∈ names, (lookup name).isSome = true) ∧
      out = pieces.flatMap (Piece.rendered lookup) := by
  induction passes generalizing rest out names with
  | zero => cases rendered
  | succ passes ih =>
    obtain ⟨opened, rfl, rfl⟩ | ⟨before, after, later, tail, used, opened, looped, pass⟩ :=
      renderLoop_cases template lookup passes rest out names rendered
    · exact ⟨[.plain out], by simpa [Piece.WellFormed] using (splitOnce_eq_none _ _).mp opened,
        by simp [Piece.source], by simp [Piece.names], by simp, by simp [Piece.rendered, Piece.source]⟩
    · obtain ⟨rfl, plain⟩ := (splitOnce_eq_some _ _ _ _).mp opened
      obtain ⟨pieces, formed, rfl, rfl, bound, rfl⟩ := ih later tail used looped
      obtain ⟨inside, double, closed, rfl, rfl⟩ | ⟨name, value, -, closed, legal, found, rfl, rfl⟩ := pass
      · obtain ⟨whole, first⟩ := cutAt_closing after inside _ closed
        refine ⟨.plain before :: .block inside :: pieces, ?_, ?_, ?_, bound, ?_⟩
        · simp only [List.forall_mem_cons]
          refine ⟨plain, ⟨?_, first⟩, formed⟩
          rw [whole] at double
          cases inside with
          | nil => cases double
          | cons c inside => simpa using double
        · simp [Piece.source, whole]
        · simp [Piece.names]
        · simp [Piece.rendered, Piece.source]
      · obtain ⟨rfl, -⟩ := (splitOnce_eq_some _ _ _ _).mp closed
        refine ⟨.plain before :: .placeholder name :: pieces, ?_, ?_, ?_, ?_, ?_⟩
        · simp only [List.forall_mem_cons]
          exact ⟨plain, by simpa [Piece.WellFormed] using legal, formed⟩
        · simp [Piece.source]
        · simp [Piece.names]
        · simp only [List.forall_mem_cons, found]
          exact ⟨rfl, bound⟩
        · simp [Piece.rendered, Piece.source, found]

/-- Whether the loop succeeds depends on the variables only through which of them have a value. -/
theorem renderLoop_transfer (other : Text → Option Text) (passes : Nat) (rest out : Text) (names : List Text)
    (rendered : renderLoop template lookup passes rest = .ok (out, names))
    (bound : ∀ name ∈ names, (other name).isSome = true) :
    ∃ output, renderLoop template other passes rest = .ok (output, names) := by
  induction passes generalizing rest out names with
  | zero => cases rendered
  | succ passes ih =>
    obtain ⟨opened, rfl, rfl⟩ | ⟨before, after, later, tail, used, opened, looped, pass⟩ :=
      renderLoop_cases template lookup passes rest out names rendered
    · exact ⟨out, by rw [renderLoop, opened]⟩
    · rw [renderLoop, opened]
      obtain ⟨inside, double, closed, -, rfl⟩ | ⟨name, value, single, closed, legal, -, -, rfl⟩ := pass
      · obtain ⟨output, next⟩ := ih later tail names looped bound
        simp only [if_pos double, closed]
        exact ⟨_, (map_eq_ok _ _ _).mpr ⟨_, next, rfl⟩⟩
      · rw [List.forall_mem_cons] at bound
        obtain ⟨given, there⟩ := Option.isSome_iff_exists.mp bound.1
        obtain ⟨output, next⟩ := ih later tail used looped bound.2
        simp only [if_neg single, closed, if_neg legal, there]
        exact ⟨_, (map_eq_ok _ _ _).mpr ⟨_, next, rfl⟩⟩

end Loop

/-- A template whose names all have a value renders. -/
theorem render_of_names (template : Text) (bindings : Bindings) (names : List Text)
    (listed : templateNames template = .ok names)
    (bound : ∀ name ∈ names, (bindings.lookup name).isSome = true) :
    ∃ output, render template bindings = .ok output ∧ Expands bindings template output := by
  obtain ⟨⟨blank, used⟩, walked, rfl⟩ := (map_eq_ok _ _ _).mp listed
  obtain ⟨output, looped⟩ := renderLoop_transfer template _ (fun name => bindings.lookup name) _ _ _ _ walked bound
  obtain ⟨pieces, formed, whole, used_, values, out⟩ := renderLoop_pieces template _ _ _ _ _ looped
  refine ⟨output, (map_eq_ok _ _ _).mpr ⟨_, looped, rfl⟩, pieces, formed, whole, ?_, out⟩
  rw [← used_]
  exact values

/-! ## The bindings -/

theorem nameViolations_eq_nil (field template : Text) :
    nameViolations field template = [] ↔
      ∃ names, templateNames template = .ok names ∧ ∀ name ∈ names, name ∈ templateVariables ∧
        ¬ (field = destinationNamespaceField ∧ name = userNamespaceVariable) := by
  unfold nameViolations
  cases templateNames template with
  | error error => simp
  | ok names =>
    simp only [List.filterMap_eq_nil_iff, Except.ok.injEq, exists_eq_left']
    refine forall₂_congr fun name _ => ?_
    by_cases known : name ∈ templateVariables
    · by_cases itself : field = destinationNamespaceField ∧ name = userNamespaceVariable
      · rw [if_neg (by simpa using known), if_pos itself]
        exact ⟨nofun, fun given => absurd itself given.2⟩
      · rw [if_neg (by simpa using known), if_neg itself]
        exact ⟨fun _ => ⟨known, itself⟩, fun _ => rfl⟩
    · simp [known]

/-- Everybody has a value for every variable but the namespace. -/
theorem bindings_bound (user : WeeboSiUser) (name : Text) (known : name ∈ templateVariables)
    (other : name ≠ userNamespaceVariable) : (user.bindings.lookup name).isSome = true := by
  simp only [templateVariables, List.mem_cons, List.not_mem_nil, or_false] at known
  rcases known with rfl | rfl | rfl | rfl | rfl | rfl
  · rfl
  · rfl
  · rfl
  · rfl
  · rfl
  · exact absurd rfl other

theorem bound_with_namespace (user : WeeboSiUser) (namespaceName name : Text) (known : name ∈ templateVariables) :
    ((Bindings.bind user.bindings userNamespaceVariable namespaceName).lookup name).isSome = true := by
  unfold Bindings.bind
  rw [List.lookup_cons]
  split
  · rfl
  · rename_i different
    exact bindings_bound user name known (by simpa using different)

/-! ## Fields and values -/

section Fields
variable (user : WeeboSiUser) (namespaceName : Text)

/-- The person's values, with the namespace that was rendered first. -/
def fieldBindings : Bindings := Bindings.bind user.bindings userNamespaceVariable namespaceName

theorem render_field (field template : Text) (valid : nameViolations field template = []) :
    ∃ output, render template (fieldBindings user namespaceName) = .ok output ∧
      Expands (fieldBindings user namespaceName) template output := by
  obtain ⟨names, listed, known⟩ := (nameViolations_eq_nil field template).mp valid
  exact render_of_names template _ names listed
    fun name member => bound_with_namespace user namespaceName name (known name member).1

mutual

theorem renderValue_valid : ∀ value : Json, valueViolations value = [] →
    ∃ output, renderValue (fieldBindings user namespaceName) value = .ok output ∧
      ValueExpands (fieldBindings user namespaceName) value output
  | .null => fun _ => ⟨_, rfl, .null⟩
  | .bool value => fun _ => ⟨_, rfl, .bool value⟩
  | .number literal => fun _ => ⟨_, rfl, .number literal⟩
  | .string text => fun valid => by
    obtain ⟨output, rendered, expands⟩ := render_field user namespaceName [] text valid
    exact ⟨.string output, (map_eq_ok _ _ _).mpr ⟨_, rendered, rfl⟩, .string expands⟩
  | .array items => fun valid => by
    obtain ⟨outputs, rendered, expand⟩ := renderItems_valid items valid
    exact ⟨.array outputs, (map_eq_ok _ _ _).mpr ⟨_, rendered, rfl⟩, .array expand⟩
  | .object members => fun valid => by
    obtain ⟨outputs, rendered, keys, expand⟩ := renderMembers_valid members valid
    exact ⟨.object outputs, (map_eq_ok _ _ _).mpr ⟨_, rendered, rfl⟩, .object keys expand⟩

theorem renderItems_valid : ∀ items : List Json, itemViolations items = [] →
    ∃ outputs, renderItems (fieldBindings user namespaceName) items = .ok outputs ∧
      List.Forall₂ (ValueExpands (fieldBindings user namespaceName)) items outputs
  | [] => fun _ => ⟨[], rfl, .nil⟩
  | item :: items => fun valid => by
    obtain ⟨first, rest⟩ := List.append_eq_nil_iff.mp valid
    obtain ⟨output, one, expands⟩ := renderValue_valid item first
    obtain ⟨outputs, more, expand⟩ := renderItems_valid items rest
    refine ⟨output :: outputs, ?_, .cons expands expand⟩
    rw [renderItems, one, more]
    rfl

theorem renderMembers_valid : ∀ members : Members, memberViolations members = [] →
    ∃ outputs, renderMembers (fieldBindings user namespaceName) members = .ok outputs ∧
      outputs.map Prod.fst = members.map Prod.fst ∧
      List.Forall₂ (ValueExpands (fieldBindings user namespaceName))
        (members.map Prod.snd) (outputs.map Prod.snd)
  | [] => fun _ => ⟨[], rfl, rfl, .nil⟩
  | (key, value) :: members => fun valid => by
    obtain ⟨first, rest⟩ := List.append_eq_nil_iff.mp valid
    obtain ⟨output, one, expands⟩ := renderValue_valid value first
    obtain ⟨outputs, more, keys, expand⟩ := renderMembers_valid members rest
    refine ⟨(key, output) :: outputs, ?_, by simp [keys], .cons expands expand⟩
    rw [renderMembers, one, more]
    rfl

end

/-- The fields of an application that is rendered for a person. -/
structure Renders (template : ApplicationTemplate) (applicationNamespace : Text)
    (application : RenderedApplication) : Prop where
  legal : isDnsLabel application.destination.namespaceName = true
  destination : Expands user.bindings template.destination.namespaceName
    application.destination.namespaceName
  name : Expands (fieldBindings user application.destination.namespaceName)
    template.nameTemplate application.name
  repoUrl : Expands (fieldBindings user application.destination.namespaceName)
    template.source.repoUrl application.source.repoUrl
  targetRevision : Expands (fieldBindings user application.destination.namespaceName)
    template.source.targetRevision application.source.targetRevision
  chart : Option.Rel (Expands (fieldBindings user application.destination.namespaceName))
    template.source.chart application.source.chart
  path : Option.Rel (Expands (fieldBindings user application.destination.namespaceName))
    template.source.path application.source.path
  values : Option.Rel
    (ValueExpands (fieldBindings user application.destination.namespaceName))
    template.source.values application.source.values
  kept : application.namespaceName = applicationNamespace ∧ application.project = template.project ∧
    application.syncPolicy = template.syncPolicy ∧
    application.destination = ⟨template.destination.server, template.destination.name,
      application.destination.namespaceName⟩

theorem renderOption_valid (field : Text) (template : Option Text)
    (valid : ∀ text, template = some text → nameViolations field text = []) :
    ∃ output, ApplicationTemplate.renderOption (fieldBindings user namespaceName) template = .ok output ∧
      Option.Rel (Expands (fieldBindings user namespaceName)) template output := by
  cases template with
  | none => exact ⟨none, rfl, .none⟩
  | some text =>
    obtain ⟨output, rendered, expands⟩ := render_field user namespaceName field text (valid text rfl)
    exact ⟨some output, (map_eq_ok _ _ _).mpr ⟨_, rendered, rfl⟩, .some expands⟩

theorem renderValues_valid (template : Option Json)
    (valid : ∀ value, template = some value → valueViolations value = []) :
    ∃ output, ApplicationTemplate.renderValues (fieldBindings user namespaceName) template none = .ok output ∧
      Option.Rel (ValueExpands (fieldBindings user namespaceName)) template output := by
  cases template with
  | none => exact ⟨none, rfl, .none⟩
  | some value =>
    obtain ⟨output, rendered, expands⟩ := renderValue_valid user namespaceName value (valid value rfl)
    exact ⟨some output, (map_eq_ok _ _ _).mpr ⟨_, rendered, rfl⟩, .some expands⟩

end Fields

/-- What validation promises of the templated fields. -/
structure FieldsValid (template : ApplicationTemplate) : Prop where
  fields : ∀ pair ∈ template.templates, nameViolations pair.1 pair.2 = []
  values : ∀ value, template.source.values = some value → valueViolations value = []

theorem fieldsValid_of_validateShape (template : ApplicationTemplate) (valid : template.validateShape = []) :
    FieldsValid template := by
  unfold ApplicationTemplate.validateShape at valid
  simp only [List.append_eq_nil_iff, List.flatMap_eq_nil_iff] at valid
  refine ⟨fun pair member => valid.1.2 pair member, ?_⟩
  intro value written
  have last := valid.2
  rw [written] at last
  exact last

/-- A template that validates renders for everybody, unless the namespace is no DNS label. -/
theorem validated_renders (template : ApplicationTemplate) (valid : template.validateShape = [])
    (user : WeeboSiUser) (applicationNamespace : Text) :
    (∃ application, template.render applicationNamespace user.bindings none none = .ok application ∧
        Renders user template applicationNamespace application) ∨
      ∃ rendered, template.render applicationNamespace user.bindings none none =
        .error (.illegalNamespace template.destination.namespaceName rendered) := by
  obtain ⟨fields, values⟩ := fieldsValid_of_validateShape template valid
  have field : ∀ name text, (name, text) ∈ template.templates → nameViolations name text = [] :=
    fun name text member => fields (name, text) member
  -- the namespace, which may not name itself
  obtain ⟨names, listed, known⟩ := (nameViolations_eq_nil _ _).mp
    (field destinationNamespaceField template.destination.namespaceName (by simp [ApplicationTemplate.templates]))
  obtain ⟨namespaceName, rendered, destination⟩ := render_of_names template.destination.namespaceName
    user.bindings names listed fun name member => bindings_bound user name (known name member).1
      fun itself => (known name member).2 ⟨rfl, itself⟩
  by_cases legal : isDnsLabel namespaceName = true
  · left
    obtain ⟨name, named, nameExpands⟩ := render_field user namespaceName "name".toList template.nameTemplate
      (field _ _ (by simp [ApplicationTemplate.templates]))
    obtain ⟨repoUrl, fetched, repoExpands⟩ := render_field user namespaceName "source.repoUrl".toList
      template.source.repoUrl (field _ _ (by simp [ApplicationTemplate.templates]))
    obtain ⟨revision, revised, revisionExpands⟩ := render_field user namespaceName "source.targetRevision".toList
      template.source.targetRevision (field _ _ (by simp [ApplicationTemplate.templates]))
    obtain ⟨chart, charted, chartExpands⟩ := renderOption_valid user namespaceName "source.chart".toList
      template.source.chart fun text written => field _ _ (by simp [ApplicationTemplate.templates, written])
    obtain ⟨path, walked, pathExpands⟩ := renderOption_valid user namespaceName "source.path".toList
      template.source.path fun text written => field _ _ (by simp [ApplicationTemplate.templates, written])
    obtain ⟨merged, valued, valuesExpand⟩ := renderValues_valid user namespaceName template.source.values values
    refine ⟨⟨name, applicationNamespace, template.project, ⟨repoUrl, chart, path, revision, merged⟩,
      ⟨template.destination.server, template.destination.name, namespaceName⟩, template.syncPolicy⟩, ?_,
      ⟨legal, destination, nameExpands, repoExpands, revisionExpands, chartExpands, pathExpands, valuesExpand,
        rfl, rfl, rfl, rfl⟩⟩
    have settled : renderNamespace template.destination.namespaceName user.bindings = .ok namespaceName := by
      simp [renderNamespace, rendered, legal]
    unfold ApplicationTemplate.render
    simp only [bind_eq_ok]
    exact ⟨namespaceName, settled, merged, valued, name, named, repoUrl, fetched, chart, charted, path, walked,
      revision, revised, rfl⟩
  · right
    refine ⟨namespaceName, ?_⟩
    have refused : renderNamespace template.destination.namespaceName user.bindings =
        .error (.illegalNamespace template.destination.namespaceName namespaceName) := by
      simp [renderNamespace, rendered, legal]
    unfold ApplicationTemplate.render
    rw [bind_eq_error]
    exact Or.inl refused

/-- A chart whose values hold a variable beside a template of Helm's. -/
def greetingTemplate : ApplicationTemplate where
  mode := .ensure
  name := none
  project := "workspaces".toList
  source := ⟨"https://charts.weebo.si".toList, some "workspace".toList, none, "1.0.0".toList,
    some (.object [("greeting".toList, .string "\x7bDISPLAY_NAME\x7d \x7b\x7b .Release \x7d\x7d".toList)])⟩
  destination := ⟨some "https://kubernetes.default.svc".toList, none, "user-\x7bOBJECT_NAME\x7d".toList⟩
  syncPolicy := none

/-- Somebody whose name looks like a variable. -/
def bracedUser : WeeboSiUser where
  metadataName := some "alice".toList
  username := "alice".toList
  displayName := some "\x7bUSERNAME\x7d".toList
  email := none
  team := none
  active := true
  authentik := none
  che := none

/-- The name is put in as it is, and Helm's template stays. -/
theorem greeting_rendered :
    ∃ application, greetingTemplate.render "argocd".toList bracedUser.bindings none none = .ok application ∧
      Renders bracedUser greetingTemplate "argocd".toList application ∧
      application.source.values = some (.object
        [("greeting".toList, .string "\x7bUSERNAME\x7d \x7b\x7b .Release \x7d\x7d".toList)]) := by
  have values : (greetingTemplate.render "argocd".toList bracedUser.bindings none none).toOption.map
      (fun application => application.source.values) = some (some (.object
        [("greeting".toList, .string "\x7bUSERNAME\x7d \x7b\x7b .Release \x7d\x7d".toList)])) := by
    decide +kernel
  rcases validated_renders greetingTemplate (by decide +kernel) bracedUser "argocd".toList with
    ⟨application, rendered, renders⟩ | ⟨_, refused⟩
  · rw [rendered] at values
    exact ⟨application, rendered, renders, Option.some.inj values⟩
  · rw [refused] at values
    cases values

end WeeboSi.Crd
