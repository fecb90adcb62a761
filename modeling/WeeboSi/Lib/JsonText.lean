import WeeboSi.Lib.Template

/-!
# Reading JSON text

RFC 8259, character by character: the arrays and objects that have not ended are a stack, and the
part being read is a mode. A number is its literal, and an object the list of its members as they
stand, equal names included. A string is a list of whatever its characters are read as, so that one
reader serves texts and templates.
-/
namespace WeeboSi.Lib.JsonText
open WeeboSi.Lib

inductive JsonTree (α : Type) where
  | null
  | bool (value : Bool)
  | number (literal : Text)
  | string (content : List α)
  | array (items : List (JsonTree α))
  | object (members : List (List α × JsonTree α))

/-! ## Escapes and numbers -/

/-- How far an escape is read; `high` is the first half of a surrogate pair. -/
inductive Escape where
  | outside
  | backslash
  | hex (high : Option Nat) (digits : List Nat)
  | secondHalf (high : Nat)
  | secondMark (high : Nat)
  deriving DecidableEq

def hexValue (c : Char) : Option Nat :=
  if c.isDigit then some (c.toNat - 48)
  else if 97 ≤ c.toNat ∧ c.toNat ≤ 102 then some (c.toNat - 87)
  else if 65 ≤ c.toNat ∧ c.toNat ≤ 70 then some (c.toNat - 55)
  else none

def simpleEscapes : List (Char × Char) :=
  [('"', '"'), ('\\', '\\'), ('/', '/'), ('b', '\x08'), ('f', '\x0c'), ('n', '\n'), ('r', '\r'), ('t', '\t')]

def isHighHalf (unit : Nat) : Bool := 0xD800 ≤ unit && unit ≤ 0xDBFF
def isLowHalf (unit : Nat) : Bool := 0xDC00 ≤ unit && unit ≤ 0xDFFF

/-- Half a pair is no character. -/
def readUnit : Option Nat → Nat → Option (Escape ⊕ Char)
  | none, unit =>
    if isHighHalf unit then some (.inl (.secondHalf unit))
    else if isLowHalf unit then none
    else some (.inr (Char.ofNat unit))
  | some high, unit =>
    if isLowHalf unit then some (.inr (Char.ofNat (0x10000 + (high - 0xD800) * 0x400 + (unit - 0xDC00))))
    else none

/-- The escape goes on, or it is a character. -/
def readEscape : Escape → Char → Option (Escape ⊕ Char)
  | .outside, _ => none
  | .backslash, c => if c = 'u' then some (.inl (.hex none [])) else (simpleEscapes.lookup c).map .inr
  | .hex high digits, c =>
    match hexValue c with
    | none => none
    | some digit =>
      if digits.length < 3 then some (.inl (.hex high (digits ++ [digit])))
      else readUnit high ((digits ++ [digit]).foldl (fun value digit => value * 16 + digit) 0)
  | .secondHalf high, c => if c = '\\' then some (.inl (.secondMark high)) else none
  | .secondMark high, c => if c = 'u' then some (.inl (.hex (some high) [])) else none

def isNumberChar (c : Char) : Bool := c.isDigit || ['-', '+', '.', 'e', 'E'].contains c

def allDigits (text : Text) : Bool := text ≠ [] && text.all Char.isDigit

def withoutSign (signs text : Text) : Text :=
  match text with
  | c :: rest => if signs.contains c then rest else text
  | [] => []

def isMark (c : Char) : Bool := c == 'e' || c == 'E'

def isNumber (literal : Text) : Bool :=
  let unsigned := withoutSign ['-'] literal
  let mantissa := unsigned.takeWhile fun c => !isMark c
  let exponent := unsigned.dropWhile fun c => !isMark c
  let whole := mantissa.takeWhile fun c => c != '.'
  let fraction := mantissa.dropWhile fun c => c != '.'
  allDigits whole && (whole.length == 1 || whole.head? != some '0') &&
    (fraction.isEmpty || allDigits fraction.tail) &&
    (exponent.isEmpty || allDigits (withoutSign ['+', '-'] exponent.tail))

/-! ## The reader -/

/-- An array or an object that has not ended, or a member that waits for its value. -/
inductive Frame (α : Type) where
  | items (done : List (JsonTree α))
  | members (done : List (List α × JsonTree α))
  | member (done : List (List α × JsonTree α)) (name : List α)

inductive Mode (α : Type) where
  /-- A value comes, or the end of an array without items. -/
  | value (mayEnd : Bool)
  | name (mayEnd : Bool)
  | colon
  | string (isName : Bool) (content : List α) (escape : Escape)
  | number (literal : Text)
  | word (left : Text) (tree : JsonTree α)
  /-- Behind an item or a member. -/
  | behind
  | done (tree : JsonTree α)

structure State (α : Type) where
  mode : Mode α
  frames : List (Frame α)

def isSpace (c : Char) : Bool := [' ', '\t', '\n', '\r'].contains c

section Reader
variable {α : Type} (embed : Char → α)

/-- A value has been read. -/
def complete (tree : JsonTree α) : List (Frame α) → Option (State α)
  | [] => some ⟨.done tree, []⟩
  | .items done :: frames => some ⟨.behind, .items (done ++ [tree]) :: frames⟩
  | .member done name :: frames => some ⟨.behind, .members (done ++ [(name, tree)]) :: frames⟩
  | .members _ :: _ => none

def close (c : Char) : List (Frame α) → Option (State α)
  | .items done :: frames => if c = ']' then complete (.array done) frames else none
  | .members done :: frames => if c = '\x7d' then complete (.object done) frames else none
  | _ => none

/-- The first character of a value. -/
def startValue (c : Char) (frames : List (Frame α)) : Option (State α) :=
  if c = '"' then some ⟨.string false [] .outside, frames⟩
  else if c = '[' then some ⟨.value true, .items [] :: frames⟩
  else if c = '\x7b' then some ⟨.name true, .members [] :: frames⟩
  else if c = 't' then some ⟨.word "rue".toList (.bool true), frames⟩
  else if c = 'f' then some ⟨.word "alse".toList (.bool false), frames⟩
  else if c = 'n' then some ⟨.word "ull".toList .null, frames⟩
  else if c = '-' ∨ c.isDigit = true then some ⟨.number [c], frames⟩
  else none

def comma : List (Frame α) → Option (State α)
  | .items done :: frames => some ⟨.value false, .items done :: frames⟩
  | .members done :: frames => some ⟨.name false, .members done :: frames⟩
  | _ => none

def stepBehind (c : Char) (s : State α) : Option (State α) :=
  if isSpace c then some s else if c = ',' then comma s.frames else close c s.frames

def endString (isName : Bool) (content : List α) (frames : List (Frame α)) : Option (State α) :=
  if isName then
    match frames with
    | .members done :: frames => some ⟨.colon, .member done content :: frames⟩
    | _ => none
  else complete (.string content) frames

/-- A control character stands in no string. -/
def stepString (isName : Bool) (content : List α) (escape : Escape) (c : Char) (frames : List (Frame α)) :
    Option (State α) :=
  if escape = .outside then
    if c = '"' then endString isName content frames
    else if c = '\\' then some ⟨.string isName content .backslash, frames⟩
    else if c.toNat < 0x20 then none
    else some ⟨.string isName (content ++ [embed c]) .outside, frames⟩
  else
    match readEscape escape c with
    | none => none
    | some (.inl escape) => some ⟨.string isName content escape, frames⟩
    | some (.inr read) => some ⟨.string isName (content ++ [embed read]) .outside, frames⟩

def stepWord (left : Text) (tree : JsonTree α) (c : Char) (frames : List (Frame α)) : Option (State α) :=
  match left with
  | [] => none
  | d :: left =>
    if c ≠ d then none else if left = [] then complete tree frames else some ⟨.word left tree, frames⟩

def step (s : State α) (c : Char) : Option (State α) :=
  match s.mode with
  | .value mayEnd =>
    if isSpace c then some s
    else if mayEnd ∧ c = ']' then close c s.frames
    else startValue c s.frames
  | .name mayEnd =>
    if isSpace c then some s
    else if c = '"' then some ⟨.string true [] .outside, s.frames⟩
    else if mayEnd then close c s.frames
    else none
  | .colon =>
    if isSpace c then some s else if c = ':' then some ⟨.value false, s.frames⟩ else none
  | .string isName content escape => stepString embed isName content escape c s.frames
  | .number literal =>
    if isNumberChar c then some ⟨.number (literal ++ [c]), s.frames⟩
    else if isNumber literal then (complete (.number literal) s.frames).bind (stepBehind c)
    else none
  | .word left tree => stepWord left tree c s.frames
  | .behind => stepBehind c s
  | .done _ => if isSpace c then some s else none

def start : State α := ⟨.value false, []⟩

/-- The text ends. -/
def finish (s : State α) : Option (JsonTree α) :=
  match s.mode, s.frames with
  | .done tree, _ => some tree
  | .number literal, [] => if isNumber literal then some (.number literal) else none
  | _, _ => none

end Reader

def readJson (text : Text) : Option (JsonTree Char) := (text.foldlM (step id) start).bind finish

/-! ## Templates -/

/-- A hole stands between two characters of a string. -/
def stepHole (name : Text) (s : State Symbol) : Option (State Symbol) :=
  match s.mode with
  | .string isName content .outside => some ⟨.string isName (content ++ [.hole name]) .outside, s.frames⟩
  | _ => none

def stepSymbol (s : State Symbol) : Symbol → Option (State Symbol)
  | .char c => step .char s c
  | .hole name => stepHole name s

def readTemplate (symbols : List Symbol) : Option (JsonTree Symbol) :=
  (symbols.foldlM stepSymbol start).bind finish

/-! ## Filling the holes -/

section Fill
variable (value : Text → Text)

mutual

def JsonTree.fill : JsonTree Symbol → JsonTree Char
  | .null => .null
  | .bool value => .bool value
  | .number literal => .number literal
  | .string content => .string (fillHoles value content)
  | .array items => .array (fillItems items)
  | .object members => .object (fillMembers members)

def fillItems : List (JsonTree Symbol) → List (JsonTree Char)
  | [] => []
  | item :: items => item.fill :: fillItems items

def fillMembers : List (List Symbol × JsonTree Symbol) → List (Text × JsonTree Char)
  | [] => []
  | (name, tree) :: members => (fillHoles value name, tree.fill) :: fillMembers members

end

def Frame.fill : Frame Symbol → Frame Char
  | .items done => .items (fillItems value done)
  | .members done => .members (fillMembers value done)
  | .member done name => .member (fillMembers value done) (fillHoles value name)

def Mode.fill : Mode Symbol → Mode Char
  | .value mayEnd => .value mayEnd
  | .name mayEnd => .name mayEnd
  | .colon => .colon
  | .string isName content escape => .string isName (fillHoles value content) escape
  | .number literal => .number literal
  | .word left tree => .word left (tree.fill value)
  | .behind => .behind
  | .done tree => .done (tree.fill value)

def State.fill (s : State Symbol) : State Char := ⟨s.mode.fill value, s.frames.map (Frame.fill value)⟩

theorem fillItems_concat (items : List (JsonTree Symbol)) (item : JsonTree Symbol) :
    fillItems value (items ++ [item]) = fillItems value items ++ [item.fill value] := by
  induction items with
  | nil => rfl
  | cons first items ih => simp [fillItems, ih]

theorem fillMembers_concat (members : List (List Symbol × JsonTree Symbol)) (name : List Symbol)
    (tree : JsonTree Symbol) :
    fillMembers value (members ++ [(name, tree)]) =
      fillMembers value members ++ [(fillHoles value name, tree.fill value)] := by
  induction members with
  | nil => rfl
  | cons first members ih => simp [fillMembers, ih]

theorem complete_fill (tree : JsonTree Symbol) (frames : List (Frame Symbol)) :
    complete (tree.fill value) (frames.map (Frame.fill value)) =
      (complete tree frames).map (State.fill value) := by
  cases frames with
  | nil => rfl
  | cons frame frames =>
    cases frame with
    | items done => simp [complete, Frame.fill, State.fill, Mode.fill, fillItems_concat]
    | members done => rfl
    | member done name => simp [complete, Frame.fill, State.fill, Mode.fill, fillMembers_concat]

theorem close_fill (c : Char) (frames : List (Frame Symbol)) :
    close c (frames.map (Frame.fill value)) = (close c frames).map (State.fill value) := by
  cases frames with
  | nil => rfl
  | cons frame frames =>
    cases frame with
    | items done =>
      simp only [List.map_cons, Frame.fill, close]
      split
      · exact complete_fill value (.array done) frames
      · rfl
    | members done =>
      simp only [List.map_cons, Frame.fill, close]
      split
      · exact complete_fill value (.object done) frames
      · rfl
    | member done name => rfl

theorem startValue_fill (c : Char) (frames : List (Frame Symbol)) :
    startValue c (frames.map (Frame.fill value)) = (startValue c frames).map (State.fill value) := by
  unfold startValue
  repeat' split
  all_goals rfl

theorem comma_fill (frames : List (Frame Symbol)) :
    comma (frames.map (Frame.fill value)) = (comma frames).map (State.fill value) := by
  cases frames with
  | nil => rfl
  | cons frame frames => cases frame <;> rfl

theorem stepBehind_fill (c : Char) (s : State Symbol) :
    stepBehind c (s.fill value) = (stepBehind c s).map (State.fill value) := by
  simp only [stepBehind, State.fill]
  split
  · rfl
  · split
    · exact comma_fill value s.frames
    · exact close_fill value c s.frames

theorem endString_fill (isName : Bool) (content : List Symbol) (frames : List (Frame Symbol)) :
    endString isName (fillHoles value content) (frames.map (Frame.fill value)) =
      (endString isName content frames).map (State.fill value) := by
  cases isName with
  | false => exact complete_fill value (.string content) frames
  | true =>
    cases frames with
    | nil => rfl
    | cons frame frames => cases frame <;> rfl

/-- A character is read into the string whatever the holes before it are filled with. -/
theorem stepString_fill (isName : Bool) (content : List Symbol) (escape : Escape) (c : Char)
    (frames : List (Frame Symbol)) :
    stepString id isName (fillHoles value content) escape c (frames.map (Frame.fill value)) =
      (stepString .char isName content escape c frames).map (State.fill value) := by
  have appended (d : Char) : fillHoles value content ++ [id d] = fillHoles value (content ++ [.char d]) := by simp
  unfold stepString
  split
  · split
    · exact endString_fill value isName content frames
    · split
      · rfl
      · split
        · rfl
        · rw [appended]
          rfl
  · split
    · rfl
    · rfl
    · rw [appended]
      rfl

theorem stepWord_fill (left : Text) (tree : JsonTree Symbol) (c : Char) (frames : List (Frame Symbol)) :
    stepWord left (tree.fill value) c (frames.map (Frame.fill value)) =
      (stepWord left tree c frames).map (State.fill value) := by
  cases left with
  | nil => rfl
  | cons d left =>
    simp only [stepWord]
    split
    · rfl
    · split
      · exact complete_fill value tree frames
      · rfl

/-- A character means the same in a template and in its filling. -/
theorem step_fill (s : State Symbol) (c : Char) :
    step id (s.fill value) c = (step .char s c).map (State.fill value) := by
  obtain ⟨mode, frames⟩ := s
  cases mode with
  | value mayEnd =>
    simp only [step, State.fill, Mode.fill]
    split
    · rfl
    · split
      · exact close_fill value c frames
      · exact startValue_fill value c frames
  | name mayEnd =>
    simp only [step, State.fill, Mode.fill]
    split
    · rfl
    · split
      · rfl
      · split
        · exact close_fill value c frames
        · rfl
  | colon =>
    simp only [step, State.fill, Mode.fill]
    split
    · rfl
    · split <;> rfl
  | string isName content escape => exact stepString_fill value isName content escape c frames
  | number literal =>
    simp only [step, State.fill, Mode.fill]
    split
    · rfl
    · split
      · have ended := complete_fill value (.number literal) frames
        rw [JsonTree.fill] at ended
        rw [ended, Option.bind_map, Option.map_bind]
        exact congrArg _ (funext (stepBehind_fill value c))
      · rfl
  | word left tree => exact stepWord_fill value left tree c frames
  | behind => exact stepBehind_fill value c ⟨.behind, frames⟩
  | done tree =>
    simp only [step, State.fill, Mode.fill]
    split <;> rfl

theorem finish_fill (s : State Symbol) : finish (s.fill value) = (finish s).map (JsonTree.fill value) := by
  obtain ⟨mode, frames⟩ := s
  cases mode with
  | number literal =>
    cases frames with
    | nil =>
      simp only [finish, State.fill, Mode.fill, List.map_nil]
      split <;> rfl
    | cons frame frames => rfl
  | _ => rfl

end Fill

/-! ## Reading a filled template -/

/-- What is written for a text reads as that text inside a string. -/
def ReadsBack (escape : Text → Text) : Prop :=
  ∀ (text : Text) (isName : Bool) (content : Text) (frames : List (Frame Char)),
    (escape text).foldlM (step id) ⟨.string isName content .outside, frames⟩ =
      some ⟨.string isName (content ++ text) .outside, frames⟩

section Read
variable (escape : Text → Text) (readsBack : ReadsBack escape) (value : Text → Text)
include readsBack

theorem stepSymbol_fill (s next : State Symbol) (symbol : Symbol) (read : stepSymbol s symbol = some next) :
    (plug (fun name => escape (value name)) symbol).foldlM (step id) (s.fill value) = some (next.fill value) := by
  cases symbol with
  | char c =>
    have same := step_fill value s c
    rw [show step .char s c = some next from read] at same
    simpa [plug] using same
  | hole name =>
    obtain ⟨mode, frames⟩ := s
    cases mode with
    | string isName content inEscape =>
      cases inEscape with
      | outside =>
        cases read
        have back := readsBack (value name) isName (fillHoles value content) (frames.map (Frame.fill value))
        simpa [State.fill, Mode.fill, plug, fillHoles] using back
      | _ => cases read
    | _ => cases read

theorem foldlM_fill (symbols : List Symbol) (s next : State Symbol)
    (read : symbols.foldlM stepSymbol s = some next) :
    (fillHoles (fun name => escape (value name)) symbols).foldlM (step id) (s.fill value) =
      some (next.fill value) := by
  induction symbols generalizing s with
  | nil =>
    cases read
    rfl
  | cons symbol symbols ih =>
    rw [List.foldlM_cons] at read
    obtain ⟨between, first, rest⟩ := Option.bind_eq_some_iff.mp read
    rw [fillHoles, List.flatMap_cons, List.foldlM_append,
      stepSymbol_fill escape readsBack value s between symbol first]
    exact ih between rest

/-- The filled template has the template's tree, with the values in the places of the holes. -/
theorem readJson_fill (symbols : List Symbol) (tree : JsonTree Symbol) (read : readTemplate symbols = some tree) :
    readJson (fillHoles (fun name => escape (value name)) symbols) = some (tree.fill value) := by
  obtain ⟨final, run, ended⟩ := Option.bind_eq_some_iff.mp read
  have filled := foldlM_fill escape readsBack value symbols start final run
  have begun : (start : State Symbol).fill value = start := rfl
  rw [begun] at filled
  rw [readJson, filled]
  change finish (final.fill value) = _
  rw [finish_fill, ended]
  rfl

end Read

end WeeboSi.Lib.JsonText
