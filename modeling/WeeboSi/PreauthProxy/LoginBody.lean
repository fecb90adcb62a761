import WeeboSi.Lib.FormText
import WeeboSi.Lib.JsonText
import WeeboSi.PreauthProxy.Substitute

/-!
# A secret does not change the shape of the login body

Source: bins/preauth-proxy/src/domain/config.rs:87-205, with the bodies read by the readers of their
media types. A template is read with its references as holes, which knows nothing of
the values.
-/
namespace WeeboSi.PreauthProxy.LoginBody
open WeeboSi.Lib WeeboSi.PreauthProxy

/-! ## References -/

/-- The characters and the references of a template; `name` is the name being read. -/
def scan : Option Text → Text → Option (List Symbol)
  | none, [] => some []
  | some _, [] => none
  | none, c :: rest =>
    if c = '$' ∧ rest.head? = some '\x7b' then
      match rest with
      | [] => none
      | _ :: rest => scan (some []) rest
    else (scan none rest).map (.char c :: ·)
  | some name, c :: rest =>
    if c = '\x7d' then
      if name = [] then none else (scan none rest).map (.hole name :: ·)
    else scan (some (name ++ [c])) rest

def symbols (template : Text) : Option (List Symbol) := scan none template

theorem scan_name (name after : Text) (symbols : List Symbol) (scanned : scan (some name) after = some symbols) :
    ∃ more later tail, splitOnce '\x7d' after = some (more, later) ∧ name ++ more ≠ [] ∧
      scan none later = some tail ∧ symbols = .hole (name ++ more) :: tail := by
  induction after generalizing name with
  | nil => cases scanned
  | cons c rest ih =>
    rw [scan] at scanned
    split at scanned
    · rename_i closing
      split at scanned
      · cases scanned
      · rename_i named
        obtain ⟨tail, later, rfl⟩ := Option.map_eq_some_iff.mp scanned
        refine ⟨[], rest, tail, by simp [splitOnce, closing], by simpa using named, later, by simp⟩
    · rename_i other
      obtain ⟨more, later, tail, cut, named, scannedLater, same⟩ := ih (name ++ [c]) scanned
      refine ⟨c :: more, later, tail, by simp [splitOnce, other, cut], by simp, scannedLater, by simpa using same⟩

theorem scan_text (text : Text) (symbols : List Symbol) (scanned : scan none text = some symbols) :
    (cutReference text = none ∧ symbols = text.map .char) ∨
      ∃ before after tail, cutReference text = some (before, after) ∧ scan (some []) after = some tail ∧
        symbols = before.map .char ++ tail := by
  induction text generalizing symbols with
  | nil =>
    cases scanned
    exact .inl ⟨rfl, rfl⟩
  | cons c rest ih =>
    rw [scan.eq_def] at scanned
    dsimp only at scanned
    split at scanned
    · rename_i opening
      cases rest with
      | nil => cases scanned
      | cons brace rest => exact .inr ⟨[], rest, symbols, by simp [cutReference, opening], scanned, rfl⟩
    · rename_i plain
      obtain ⟨tail, scannedRest, rfl⟩ := Option.map_eq_some_iff.mp scanned
      rcases ih tail scannedRest with ⟨uncut, rfl⟩ | ⟨before, after, later, cut, scannedAfter, rfl⟩
      · exact .inl ⟨by simp [cutReference, plain, uncut], rfl⟩
      · exact .inr ⟨c :: before, after, later, by simp [cutReference, plain, cut], scannedAfter, rfl⟩

theorem cutReference_length (text before after : Text) (cut : cutReference text = some (before, after)) :
    after.length < text.length := by
  induction text generalizing before with
  | nil => cases cut
  | cons c rest ih =>
    rw [cutReference] at cut
    split at cut
    · cases cut
      simp
    · obtain ⟨⟨front, back⟩, cutRest, same⟩ := Option.map_eq_some_iff.mp cut
      cases same
      have shorter := ih front cutRest
      rw [List.length_cons]
      omega

section Substituted
variable (template : Text) (lookup : Text → Option Text) (encoding : Encoding) (values : Text → Text)

/-- The variables of the references have these values. -/
def Assigns (symbols : List Symbol) : Prop := ∀ name, .hole name ∈ symbols → lookup name = some (values name)

/-- Each reference is written once, in its place, and what is written is not read again. -/
theorem substituteLoop_symbols (passes : Nat) (rest : Text) (symbols : List Symbol)
    (enough : rest.length < passes) (scanned : scan none rest = some symbols) (assigned : Assigns lookup values symbols) :
    substituteLoop template lookup encoding passes rest =
      .ok (fillHoles (fun name => encoding.apply (values name)) symbols) := by
  induction passes generalizing rest symbols with
  | zero => omega
  | succ passes ih =>
    rw [substituteLoop]
    rcases scan_text rest symbols scanned with ⟨uncut, rfl⟩ | ⟨before, after, tail, cut, scannedAfter, rfl⟩
    · simp [uncut]
    · obtain ⟨name, later, others, closed, named, scannedLater, rfl⟩ := scan_name [] after tail scannedAfter
      rw [List.nil_append] at named assigned ⊢
      have value := assigned name (by simp)
      have shorter := cutReference_length rest before after cut
      have shorterStill := splitOnce_length _ _ _ _ closed
      have looped := ih later others (by omega) scannedLater fun other member => assigned other (by simp [member])
      simp only [cut, closed, if_neg named, value, looped, Except.map, fillHoles_append, fillHoles_map_char,
        fillHoles_hole, List.append_assoc]

theorem substituteEncoded_symbols (read : List Symbol) (scanned : symbols template = some read)
    (assigned : Assigns lookup values read) :
    substituteEncoded template lookup encoding =
      .ok (fillHoles (fun name => encoding.apply (values name)) read) :=
  substituteLoop_symbols template lookup encoding values _ template read (Nat.lt_succ_self _) scanned assigned

end Substituted

/-! ## Forms -/

theorem isFormSafe_bounds (byte : UInt8) (safe : isFormSafe byte = true) :
    byte.toNat < 128 ∧ byte ≠ 37 ∧ byte ≠ 38 ∧ byte ≠ 43 ∧ byte ≠ 61 := by
  refine ⟨?_, ?_, ?_, ?_, ?_⟩
  · simp only [isFormSafe, Bool.or_eq_true, Bool.and_eq_true, decide_eq_true_eq, beq_iff_eq, ← UInt8.toNat_inj,
      UInt8.le_iff_toNat_le] at safe
    simp only [UInt8.reduceToNat] at safe
    omega
  all_goals
    rintro rfl
    exact absurd safe (by decide)

/-- The byte of a digit. -/
def hexByte (n : Nat) : UInt8 := UInt8.ofNat (hexDigit upperHex n).toNat

theorem hexByte_digit : ∀ n : Fin 16, utf8 [hexDigit upperHex n] = [hexByte n] ∧
    toDigit16 (hexByte n) = some n.val ∧ hexByte n ≠ 38 ∧ hexByte n ≠ 43 ∧ hexByte n ≠ 61 := by
  decide

theorem utf8_formByte (byte : UInt8) :
    utf8 (formByte byte) =
      if isFormSafe byte then [byte] else if byte = 32 then [43]
      else [37, hexByte (byte.toNat / 16), hexByte (byte.toNat % 16)] := by
  have small := byte.toNat_lt
  unfold formByte
  split
  · rename_i safe
    have plain := (isFormSafe_bounds byte safe).1
    exact utf8_map_byteChar [byte] (by simpa using plain)
  · split
    · decide
    · have high := (hexByte_digit ⟨byte.toNat / 16, by omega⟩).1
      have low := (hexByte_digit ⟨byte.toNat % 16, by omega⟩).1
      change utf8 (['%'] ++ [_] ++ [_]) = _
      rw [utf8_append, utf8_append, high, low]
      rfl

theorem formByte_decodes (byte : UInt8) (later : Bytes) :
    percentDecode ((utf8 (formByte byte)).map FormText.plusToSpace ++ later) = byte :: percentDecode later := by
  have small := byte.toNat_lt
  rw [utf8_formByte]
  split
  · rename_i safe
    obtain ⟨-, percent, -, plus, -⟩ := isFormSafe_bounds byte safe
    simp only [List.map_cons, List.map_nil, List.singleton_append, FormText.plusToSpace, if_neg plus]
    exact percentDecode_cons_plain byte later percent
  · split
    · rename_i space
      rw [space]
      exact percentDecode_cons_plain 32 later (by decide)
    · obtain ⟨-, high, -, highPlus, -⟩ := hexByte_digit ⟨byte.toNat / 16, by omega⟩
      obtain ⟨-, low, -, lowPlus, -⟩ := hexByte_digit ⟨byte.toNat % 16, by omega⟩
      have spaced : ([37, hexByte (byte.toNat / 16), hexByte (byte.toNat % 16)] : Bytes).map FormText.plusToSpace =
          [37, hexByte (byte.toNat / 16), hexByte (byte.toNat % 16)] := by
        simp [FormText.plusToSpace, highPlus, lowPlus]
      rw [spaced, List.cons_append, List.cons_append, List.singleton_append, percentDecode]
      simp only [if_true, high, low]
      rw [show byte.toNat / 16 * 16 + byte.toNat % 16 = byte.toNat by omega, UInt8.ofNat_toNat]

theorem formByte_absent (mark : UInt8) (separates : mark = 38 ∨ mark = 61) (byte : UInt8) :
    mark ∉ utf8 (formByte byte) := by
  have small := byte.toNat_lt
  rw [utf8_formByte]
  split
  · rename_i safe
    obtain ⟨-, -, ampersand, -, equals⟩ := isFormSafe_bounds byte safe
    rcases separates with rfl | rfl
    · simpa using Ne.symm ampersand
    · simpa using Ne.symm equals
  · split
    · rcases separates with rfl | rfl <;> decide
    · obtain ⟨-, -, highAmp, -, highEq⟩ := hexByte_digit ⟨byte.toNat / 16, by omega⟩
      obtain ⟨-, -, lowAmp, -, lowEq⟩ := hexByte_digit ⟨byte.toNat % 16, by omega⟩
      rcases separates with rfl | rfl
      · simpa using ⟨Ne.symm highAmp, Ne.symm lowAmp⟩
      · simpa using ⟨Ne.symm highEq, Ne.symm lowEq⟩

theorem utf8_formUrlencode (text : Text) :
    utf8 (formUrlencode text) = (utf8 text).flatMap fun byte => utf8 (formByte byte) :=
  List.flatMap_assoc

theorem bytes_decode (bytes later : Bytes) :
    percentDecode ((bytes.flatMap fun byte => utf8 (formByte byte)).map FormText.plusToSpace ++ later) =
      bytes ++ percentDecode later := by
  induction bytes with
  | nil => rfl
  | cons byte bytes ih =>
    rw [List.flatMap_cons, List.map_append, List.append_assoc, formByte_decodes, ih, List.cons_append]

theorem formEncoder : FormText.FormEncoder formUrlencode where
  reads text later := by
    rw [utf8_formUrlencode]
    exact bytes_decode (utf8 text) later
  noAmpersand text := by
    rw [utf8_formUrlencode, List.mem_flatMap]
    rintro ⟨byte, -, member⟩
    exact formByte_absent 38 (.inl rfl) byte member
  noEquals text := by
    rw [utf8_formUrlencode, List.mem_flatMap]
    rintro ⟨byte, -, member⟩
    exact formByte_absent 61 (.inr rfl) byte member

/-! ## JSON -/

theorem hexValue_lowerHex : ∀ n : Fin 16, JsonText.hexValue (hexDigit lowerHex n) = some n.val := by
  decide

section Escape
open JsonText
variable (isName : Bool) (content : Text) (frames : List (Frame Char))

theorem jsonChar_control (c : Char) (control : c.toNat < 0x20) :
    (['\\', 'u', '0', '0', hexDigit lowerHex (c.toNat / 16), hexDigit lowerHex (c.toNat % 16)] : Text).foldlM
        (step id) ⟨.string isName content .outside, frames⟩ =
      some ⟨.string isName (content ++ [c]) .outside, frames⟩ := by
  have high := hexValue_lowerHex ⟨c.toNat / 16, by omega⟩
  have low := hexValue_lowerHex ⟨c.toNat % 16, by omega⟩
  have zero : hexValue '0' = some 0 := by decide
  have sum : c.toNat / 16 * 16 + c.toNat % 16 = c.toNat := by omega
  have notHigh : isHighHalf c.toNat = false := by
    simp only [isHighHalf, Bool.and_eq_false_iff, decide_eq_false_iff_not]
    omega
  have notLow : isLowHalf c.toNat = false := by
    simp only [isLowHalf, Bool.and_eq_false_iff, decide_eq_false_iff_not]
    omega
  simp [step, stepString, readEscape, zero, high, low, readUnit, sum, notHigh, notLow, Char.ofNat_toNat]

theorem jsonChar_reads (c : Char) :
    (jsonChar c).foldlM (step id) ⟨.string isName content .outside, frames⟩ =
      some ⟨.string isName (content ++ [c]) .outside, frames⟩ := by
  unfold jsonChar
  split
  · rename_i quote
    subst quote
    rfl
  · split
    · rename_i backslash
      subst backslash
      rfl
    · split
      · rename_i newline
        subst newline
        rfl
      · split
        · rename_i carriage
          subst carriage
          rfl
        · split
          · rename_i tab
            subst tab
            rfl
          · split
            · rename_i control
              exact jsonChar_control isName content frames c control
            · rename_i quote backslash _ _ _ printable
              simp [step, stepString, quote, backslash, printable]

end Escape

theorem jsonEscape_reads : JsonText.ReadsBack jsonEscape := by
  intro text
  induction text with
  | nil =>
    intro isName content frames
    rw [List.append_nil]
    rfl
  | cons c text ih =>
    intro isName content frames
    rw [jsonEscape, List.flatMap_cons, List.foldlM_append, jsonChar_reads]
    have rest := ih isName (content ++ [c]) frames
    rw [List.append_assoc, List.singleton_append] at rest
    exact rest

/-! ## Bodies -/

def IsForm (headers : List (HeaderName × Text)) : Prop := mime headers = formUrlencodedType

def IsJson (headers : List (HeaderName × Text)) : Prop :=
  mime headers = "application/json".toList ∨ "+json".toList.isSuffixOf (mime headers) = true

theorem forBody_form (headers : List (HeaderName × Text)) (isForm : IsForm headers) :
    Encoding.forBody headers = .formUrlencoded :=
  if_pos isForm

theorem forBody_json (headers : List (HeaderName × Text)) (isJson : IsJson headers) :
    Encoding.forBody headers = .jsonString := by
  have notForm : ¬ mime headers = formUrlencodedType := by
    intro form
    rcases isJson with json | suffix
    · rw [form] at json
      exact absurd json (by decide)
    · rw [form] at suffix
      exact absurd suffix (by decide)
  rw [Encoding.forBody, if_neg notForm]
  exact if_pos isJson

/-- The body has the pairs of the form, with the values in the places of the references. -/
def PairsKept (headers : List (HeaderName × Text)) (template : Text) (lookup : Text → Option Text)
    (form : List FormText.FormPart) (values : Text → Text) : Prop :=
  ∃ body, substituteEncoded template lookup (.forBody headers) = .ok body ∧
    FormText.readForm (utf8 body) = form.map (FormText.FormPart.pair values)

/-- Whatever the values are, the body reads as the template does, with each reference replaced by
its value; only a name without an equals sign that nothing is left of is no pair. -/
theorem secret_keeps_shape (headers : List (HeaderName × Text)) (template : Text) (lookup : Text → Option Text)
    (values : Text → Text) (read : List Symbol) (scanned : symbols template = some read)
    (assigned : Assigns lookup values read) :
    (∀ form, IsForm headers → FormText.readFormTemplate read = some form →
      PairsKept headers template lookup (form.filter fun part => !part.vanishes values) values) ∧
    (∀ tree, IsJson headers → JsonText.readTemplate read = some tree →
      ∃ body, substituteEncoded template lookup (.forBody headers) = .ok body ∧
        JsonText.readJson body = some (tree.fill values)) := by
  have written := substituteEncoded_symbols template lookup (.forBody headers) values read scanned assigned
  constructor
  · intro form isForm reads
    rw [forBody_form headers isForm] at written
    refine ⟨_, by rw [forBody_form headers isForm]; exact written, ?_⟩
    exact FormText.readForm_fill formUrlencode formEncoder values read form reads
  · intro tree isJson reads
    rw [forBody_json headers isJson] at written
    refine ⟨_, by rw [forBody_json headers isJson]; exact written, ?_⟩
    exact JsonText.readJson_fill jsonEscape jsonEscape_reads values read tree reads

def formHeaders : List (HeaderName × Text) :=
  [("content-type".toList, "application/x-www-form-urlencoded; charset=utf-8".toList)]

def jsonHeaders : List (HeaderName × Text) := [("content-type".toList, "application/json".toList)]

/-- `$\x7bX\x7d` -/
def bareReference : Text := "$\x7bX\x7d".toList

theorem bareReference_vanishes :
    symbols bareReference = some [.hole ['X']] ∧
      FormText.readFormTemplate [.hole ['X']] = some [⟨[.hole ['X']], none⟩] ∧ IsForm formHeaders ∧
      ¬ PairsKept formHeaders bareReference (fun _ => some []) [⟨[.hole ['X']], none⟩] (fun _ => []) := by
  have isForm : mime formHeaders = formUrlencodedType := by decide +kernel
  refine ⟨by decide, by decide, isForm, ?_⟩
  rintro ⟨body, written, same⟩
  have nothing : substituteEncoded bareReference (fun _ => some []) (.forBody formHeaders) = .ok [] := by
    decide +kernel
  rw [nothing] at written
  cases written
  exact absurd same (by decide)

def formTemplate : Text := "user=%C3%A9+$\x7bU\x7d&note=$\x7bP\x7d.".toList
def jsonTemplate : Text := "\x7b\"user\": \"$\x7bU\x7d\\n\", \"tries\": [1]\x7d".toList

/-- A reference among them. -/
def secrets (name : Text) : Text := if name = ['U'] then "a&b\"".toList else "$\x7bU\x7d".toList

theorem secrets_stay_inside :
    (∃ body, substituteEncoded formTemplate (fun name => some (secrets name)) (.forBody formHeaders) = .ok body ∧
      FormText.readForm (utf8 body) =
        [("user".toList, "é a&b\"".toList), ("note".toList, "$\x7bU\x7d.".toList)]) ∧
    (∃ body, substituteEncoded jsonTemplate (fun name => some (secrets name)) (.forBody jsonHeaders) = .ok body ∧
      JsonText.readJson body = some (.object
        [("user".toList, .string "a&b\"\n".toList), ("tries".toList, .array [.number ['1']])])) := by
  have isForm : mime formHeaders = formUrlencodedType := by decide +kernel
  have isJson : mime jsonHeaders = "application/json".toList := by decide +kernel
  constructor
  · obtain ⟨body, written, same⟩ := (secret_keeps_shape formHeaders formTemplate (fun name => some (secrets name))
      secrets ("user=%C3%A9+".toList.map .char ++ .hole ['U'] :: "&note=".toList.map .char ++
        [.hole ['P'], .char '.']) (by decide +kernel) (fun _ _ => rfl)).1
      [⟨"user".toList.map .char, some ("é ".toList.map .char ++ [.hole ['U']])⟩,
        ⟨"note".toList.map .char, some [.hole ['P'], .char '.']⟩] isForm (by decide +kernel)
    exact ⟨body, written, same.trans (by decide)⟩
  · obtain ⟨body, written, same⟩ := (secret_keeps_shape jsonHeaders jsonTemplate (fun name => some (secrets name))
      secrets ("\x7b\"user\": \"".toList.map .char ++ .hole ['U'] :: "\\n\", \"tries\": [1]\x7d".toList.map .char)
      (by decide +kernel) (fun _ _ => rfl)).2
      (.object [("user".toList.map .char, .string [.hole ['U'], .char '\n']),
        ("tries".toList.map .char, .array [.number ['1']])]) (.inl isJson) (by rfl)
    exact ⟨body, written, same.trans (by rfl)⟩

end WeeboSi.PreauthProxy.LoginBody
