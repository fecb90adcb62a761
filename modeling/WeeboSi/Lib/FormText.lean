import WeeboSi.Lib.Template
import WeeboSi.Lib.UrlPath
import WeeboSi.Lib.Utf8RoundTrip

/-!
# Reading `application/x-www-form-urlencoded`

As the URL standard has it: parts between ampersands, an empty one skipped; a name and a value at
the first equals sign; a plus sign for a space, percent-decoding, and bytes read as text with what is
none replaced. A hole of a template stands between characters of a name or a value.
-/
namespace WeeboSi.Lib.FormText
open WeeboSi.Lib

def plusToSpace (byte : UInt8) : UInt8 := if byte = 43 then 32 else byte

/-- One name or value. -/
def readComponent (bytes : Bytes) : Text := fromUtf8Lossy (percentDecode (bytes.map plusToSpace))

def readPair (part : Bytes) : Text × Text :=
  match splitOnce 61 part with
  | some (name, value) => (readComponent name, readComponent value)
  | none => (readComponent part, [])

def readForm (body : Bytes) : List (Text × Text) :=
  ((body.splitOn 38).filter fun part => part ≠ []).map readPair

/-! ## Templates -/

/-- The last two bytes may begin an escape that something behind them completes. -/
def endsInEscape : Bytes → Bool
  | [] => false
  | [last] => last = 37
  | [first, last] => last = 37 ∨ first = 37 ∧ (toDigit16 last).isSome = true
  | _ :: second :: third :: rest => endsInEscape (second :: third :: rest)

/-- What follows begins a character. -/
def isWhole (bytes : Bytes) : Bool :=
  !endsInEscape (bytes.map plusToSpace) && !endsInsideChar (percentDecode (bytes.map plusToSpace))

/-- One name or value of a template; `run` is the text since the last hole. -/
def readSymbols (run : Text) : List Symbol → Option (List Symbol)
  | [] => some ((readComponent (utf8 run)).map .char)
  | .char c :: symbols => readSymbols (run ++ [c]) symbols
  | .hole name :: symbols =>
    if isWhole (utf8 run) then
      (readSymbols [] symbols).map fun later => (readComponent (utf8 run)).map .char ++ .hole name :: later
    else none

structure FormPart where
  name : List Symbol
  /-- None without an equals sign. -/
  value : Option (List Symbol)
  deriving DecidableEq, Repr

def readPart (part : List Symbol) : Option FormPart :=
  match splitOnce (.char '=') part with
  | some (name, value) =>
    match readSymbols [] name, readSymbols [] value with
    | some name, some value => some ⟨name, some value⟩
    | _, _ => none
  | none => (readSymbols [] part).map fun name => ⟨name, none⟩

def readFormTemplate (symbols : List Symbol) : Option (List FormPart) :=
  ((symbols.splitOn (.char '&')).filter fun part => part ≠ []).mapM readPart

def FormPart.pair (values : Text → Text) (part : FormPart) : Text × Text :=
  (fillHoles values part.name, fillHoles values (part.value.getD []))

/-- The part is a name only, and nothing is left of it. -/
def FormPart.vanishes (values : Text → Text) (part : FormPart) : Bool :=
  part.value.isNone && (fillHoles values part.name).isEmpty

/-! ## Names and values -/

theorem endsInEscape_tail (byte : UInt8) (rest : Bytes) (ended : endsInEscape (byte :: rest) = false) :
    endsInEscape rest = false := by
  cases rest with
  | nil => rfl
  | cons second rest =>
    cases rest with
    | nil =>
      simp only [endsInEscape, decide_eq_false_iff_not, not_or] at ended ⊢
      exact ended.1
    | cons third rest => exact ended

/-- A percent sign without two digits behind it is kept. -/
theorem percentDecode_cons_kept (rest : Bytes)
    (kept : ∀ high low more, rest = high :: low :: more →
      ∀ one other, toDigit16 high = some one → toDigit16 low = some other → False) :
    percentDecode (37 :: rest) = 37 :: percentDecode rest := by
  rw [percentDecode.eq_def]
  simp only [if_true]
  split
  · rename_i high low more
    split
    · rename_i one other first second
      exact (kept high low more rfl one other first second).elim
    · rfl
  · rfl

theorem percentDecode_append_whole (bytes later : Bytes) (ended : endsInEscape bytes = false) :
    percentDecode (bytes ++ later) = percentDecode bytes ++ percentDecode later := by
  induction bytes using percentDecode.induct with
  | case1 => rfl
  | case2 high low more one other second first ih =>
    have short := endsInEscape_tail _ _ (endsInEscape_tail _ _ (endsInEscape_tail _ _ ended))
    have read (tail : Bytes) : percentDecode (37 :: high :: low :: tail) =
        UInt8.ofNat (one * 16 + other) :: percentDecode tail := by
      rw [percentDecode]
      simp only [first, second, if_true]
    rw [List.cons_append, List.cons_append, List.cons_append, read, read, ih short, List.cons_append]
  | case3 high low more kept ih =>
    have same (tail : Bytes) :
        percentDecode (37 :: high :: low :: tail) = 37 :: percentDecode (high :: low :: tail) := by
      refine percentDecode_cons_kept _ ?_
      intro first second others equal
      cases equal
      exact kept
    have inner := ih (endsInEscape_tail _ _ ended)
    rw [List.cons_append, List.cons_append, List.cons_append, same, same, List.cons_append, ← inner]
    rfl
  | case4 rest short ih =>
    cases rest with
    | nil => cases ended
    | cons byte rest =>
      cases rest with
      | nil =>
        have digit : toDigit16 byte = none := by
          simp only [endsInEscape, decide_eq_false_iff_not, not_or, true_and, Bool.not_eq_true,
            Option.isSome_eq_false_iff, Option.isNone_iff_eq_none] at ended
          exact ended.2
        have same (tail : Bytes) : percentDecode (37 :: byte :: tail) = 37 :: percentDecode (byte :: tail) := by
          refine percentDecode_cons_kept _ ?_
          intro first second others equal one other found
          cases equal
          rw [digit] at found
          cases found
        have inner := ih (endsInEscape_tail _ _ ended)
        rw [List.cons_append, List.cons_append, List.nil_append, same, same, List.cons_append, ← inner]
        rfl
      | cons second rest => exact (short byte second rest rfl).elim
  | case5 byte rest plain ih =>
    rw [List.cons_append, percentDecode_cons_plain _ _ plain, percentDecode_cons_plain _ _ plain,
      ih (endsInEscape_tail _ _ ended), List.cons_append]

theorem percentDecode_ne_nil (byte : UInt8) (rest : Bytes) : percentDecode (byte :: rest) ≠ [] := by
  rw [percentDecode.eq_def]
  dsimp only
  split
  · split
    · split <;> exact List.cons_ne_nil _ _
    · exact List.cons_ne_nil _ _
  · exact List.cons_ne_nil _ _

theorem readComponent_eq_nil (bytes : Bytes) : readComponent bytes = [] ↔ bytes = [] := by
  constructor
  · intro nothing
    cases bytes with
    | nil => rfl
    | cons byte rest =>
      cases decoded : percentDecode ((byte :: rest).map plusToSpace) with
      | nil => exact absurd decoded (percentDecode_ne_nil _ _)
      | cons first more =>
        rw [readComponent, decoded, fromUtf8Lossy, utf8Pieces_cons] at nothing
        cases nothing
  · rintro rfl
    rfl

/-! ## Reading a filled template -/

/-- What is written for a text is read as that text, and ends no name, value or part. -/
structure FormEncoder (encode : Text → Text) : Prop where
  reads : ∀ text later,
    percentDecode ((utf8 (encode text)).map plusToSpace ++ later) = utf8 text ++ percentDecode later
  noAmpersand : ∀ text, 38 ∉ utf8 (encode text)
  noEquals : ∀ text, 61 ∉ utf8 (encode text)

section Read
variable (encode : Text → Text) (encoder : FormEncoder encode) (values : Text → Text)

/-- The bytes of a part. -/
def written (symbols : List Symbol) : Bytes := utf8 (fillHoles (fun name => encode (values name)) symbols)

theorem written_eq_flatMap (symbols : List Symbol) :
    written encode values symbols =
      symbols.flatMap fun symbol => utf8 (plug (fun name => encode (values name)) symbol) :=
  List.flatMap_assoc

theorem written_cons (symbol : Symbol) (symbols : List Symbol) :
    written encode values (symbol :: symbols) =
      utf8 (plug (fun name => encode (values name)) symbol) ++ written encode values symbols :=
  utf8_append _ _

/-- A separator is written for itself alone. -/
theorem mark_elsewhere (mark : Char) (plain : mark.toNat < 128)
    (absent : ∀ text, UInt8.ofNat mark.toNat ∉ utf8 (encode text)) (symbol : Symbol)
    (other : symbol ≠ .char mark) :
    UInt8.ofNat mark.toNat ∉ utf8 (plug (fun name => encode (values name)) symbol) := by
  cases symbol with
  | hole name => exact absent (values name)
  | char c =>
    intro member
    have small := toNat_octet mark.toNat (by omega)
    have found := mem_utf8_plain [c] _ member (by omega)
    rw [small, Char.ofNat_toNat, List.mem_singleton] at found
    exact other (congrArg Symbol.char found.symm)

include encoder

theorem readSymbols_fill (run : Text) (symbols read : List Symbol) (reads : readSymbols run symbols = some read) :
    readComponent (utf8 run ++ written encode values symbols) = fillHoles values read := by
  induction symbols generalizing run read with
  | nil =>
    cases reads
    simp [written]
  | cons symbol symbols ih =>
    cases symbol with
    | char c =>
      have longer := ih (run ++ [c]) read reads
      rw [utf8_append, List.append_assoc] at longer
      rw [written_cons]
      exact longer
    | hole name =>
      rw [readSymbols] at reads
      split at reads
      · rename_i whole
        rw [isWhole, Bool.and_eq_true, Bool.not_eq_true', Bool.not_eq_true'] at whole
        obtain ⟨later, laterReads, rfl⟩ := Option.map_eq_some_iff.mp reads
        have rest := ih [] later laterReads
        rw [utf8_nil, List.nil_append] at rest
        rw [written_cons, plug, readComponent, List.map_append, List.map_append,
          percentDecode_append_whole _ _ whole.1, encoder.reads, fromUtf8Lossy_around _ _ _ whole.2]
        rw [fillHoles_append, fillHoles_map_char, fillHoles_hole, ← rest]
        rfl
      · cases reads

theorem splitOnce_written (part : List Symbol) :
    splitOnce 61 (written encode values part) =
      (splitOnce (.char '=') part).map fun cut => (written encode values cut.1, written encode values cut.2) := by
  simp only [written_eq_flatMap]
  exact splitOnce_flatMap _ (.char '=') 61 (by rfl)
    (mark_elsewhere encode values '=' (by decide) encoder.noEquals) part

theorem readPair_fill (part : List Symbol) (read : FormPart) (reads : readPart part = some read) :
    readPair (written encode values part) = read.pair values ∧
      (written encode values part = [] ↔ read.vanishes values = true) := by
  have alone (symbols result : List Symbol) (found : readSymbols [] symbols = some result) :
      readComponent (written encode values symbols) = fillHoles values result :=
    readSymbols_fill encode encoder values [] symbols result found
  have cut := splitOnce_written encode encoder values part
  rw [readPart] at reads
  cases equals : splitOnce (.char '=') part with
  | none =>
    rw [equals] at reads cut
    obtain ⟨name, named, rfl⟩ := Option.map_eq_some_iff.mp reads
    have whole := alone part name named
    constructor
    · rw [readPair, cut]
      exact Prod.ext whole rfl
    · rw [← readComponent_eq_nil, whole]
      simp [FormPart.vanishes]
  | some sides =>
    obtain ⟨left, right⟩ := sides
    rw [equals] at reads cut
    dsimp only at reads
    split at reads
    · rename_i name value named valued
      cases reads
      constructor
      · rw [readPair, cut]
        exact Prod.ext (alone left name named) (alone right value valued)
      · refine iff_of_false ?_ (by simp [FormPart.vanishes])
        intro nothing
        rw [nothing] at cut
        cases cut
    · cases reads

theorem readParts_fill (parts : List (List Symbol)) (form : List FormPart)
    (reads : (parts.filter fun part => part ≠ []).mapM readPart = some form) :
    (((parts.map (written encode values)).filter fun part => part ≠ []).map readPair) =
      (form.filter fun part => !part.vanishes values).map (FormPart.pair values) := by
  induction parts generalizing form with
  | nil =>
    cases reads
    rfl
  | cons part parts ih =>
    by_cases nothing : part = []
    · subst nothing
      exact ih form reads
    · rw [List.filter_cons_of_pos (by simpa using nothing), List.mapM_cons] at reads
      obtain ⟨first, firstRead, others⟩ := Option.bind_eq_some_iff.mp reads
      obtain ⟨rest, restRead, same⟩ := Option.bind_eq_some_iff.mp others
      cases same
      obtain ⟨pair, vanishes⟩ := readPair_fill encode encoder values part first firstRead
      have later := ih rest restRead
      cases gone : first.vanishes values with
      | true =>
        rw [List.map_cons, List.filter_cons_of_neg (by simpa using vanishes.mpr gone),
          List.filter_cons_of_neg (by simp [gone])]
        exact later
      | false =>
        have stays : written encode values part ≠ [] := mt vanishes.mp (by simp [gone])
        rw [List.map_cons, List.filter_cons_of_pos (by simpa using stays),
          List.filter_cons_of_pos (by simp [gone]), List.map_cons, List.map_cons, pair, later]

/-- The filled template has the template's pairs, with the values in the places of the holes, less
the names that have vanished. -/
theorem readForm_fill (symbols : List Symbol) (form : List FormPart)
    (reads : readFormTemplate symbols = some form) :
    readForm (utf8 (fillHoles (fun name => encode (values name)) symbols)) =
      (form.filter fun part => !part.vanishes values).map (FormPart.pair values) := by
  have parts : (written encode values symbols).splitOn 38 =
      (symbols.splitOn (.char '&')).map (written encode values) := by
    simp only [written_eq_flatMap]
    have cut := splitOn_flatMap _ (.char '&') 38 (by rfl)
      (mark_elsewhere encode values '&' (by decide) encoder.noAmpersand) symbols
    rw [cut]
    refine List.map_congr_left ?_
    intro part _
    exact (written_eq_flatMap encode values part).symm
  change readForm (written encode values symbols) = _
  rw [readForm, parts]
  exact readParts_fill encode encoder values _ form reads

end Read

end WeeboSi.Lib.FormText
