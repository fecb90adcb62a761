import WeeboSi.Lib.Lists
import WeeboSi.Lib.Lock
import WeeboSi.PasswdAppend.Nss

/-!
# The passwd file over all runs

An append adds one record behind the old ones, the fields of the entry. Runs interleave under
the file lock, and each appends only what no record holds yet.
-/
namespace WeeboSi.PasswdAppend
open WeeboSi.Lib

/-! ## One append -/

def appended (contents : Bytes) (entry : PasswdEntry) : Bytes := contents ++ buffer contents entry.display

theorem records_append_line (contents rest : Bytes) :
    records (contents ++ newline :: rest) = records contents ++ records rest := by
  rw [records, List.splitOn_append_cons_self, List.filterMap_append]
  rfl

theorem records_nil : records [] = [] := rfl

theorem records_single (line : Bytes) (oneLine : newline ∉ line) : records line = (fields line).toList := by
  rw [records, List.splitOn_eq_singleton oneLine]
  cases fieldsOf : fields line with
  | none => simp [fieldsOf]
  | some parts => simp [fieldsOf]

/-- The line is read behind what was there, whether or not the last line was ended. -/
theorem records_buffer (contents : Bytes) (line : Text) (oneLine : newline ∉ utf8 line) :
    records (contents ++ buffer contents line) = records contents ++ (fields (utf8 line)).toList := by
  have last : records (utf8 line ++ [newline]) = (fields (utf8 line)).toList := by
    rw [records_append_line, records_nil, List.append_nil, records_single _ oneLine]
  unfold buffer
  split
  · rw [List.append_assoc, List.singleton_append, records_append_line, last]
  · next ended =>
    rw [List.nil_append]
    rcases List.eq_nil_or_concat' contents with rfl | ⟨before, byte, rfl⟩
    · rw [List.nil_append, records_nil, List.nil_append, last]
    · have isNewline : byte = newline := by simpa using ended
      have same : records (before ++ [newline]) = records before := by
        rw [records_append_line, records_nil, List.append_nil]
      rw [isNewline, same, List.append_assoc, List.singleton_append, records_append_line, last]

section Line
variable (entry : PasswdEntry)

theorem display_one_line (byte : UInt8) (member : byte ∈ utf8 entry.display) : isLineEnd byte = false := by
  by_contra isEnd
  rw [Bool.not_eq_false, isLineEnd, Bool.or_eq_true, beq_iff_eq, beq_iff_eq] at isEnd
  have clean := entry.fields_clean
  obtain rfl | rfl := isEnd
  · obtain inSep | ⟨field, fieldMem, inField⟩ :=
      mem_intercalate _ _ _ (mem_utf8_plain entry.display carriageReturn member (by decide))
    · exact absurd inSep (by decide)
    · exact (clean field fieldMem).carriage inField
  · obtain inSep | ⟨field, fieldMem, inField⟩ :=
      mem_intercalate _ _ _ (mem_utf8_plain entry.display newline member (by decide))
    · exact absurd inSep (by decide)
    · exact (clean field fieldMem).newline inField

/-- The line starts with the name. -/
theorem head_display : ∃ byte rest, utf8 entry.display = byte :: rest ∧ isNameByte byte = true := by
  have shape := entry.nameShape
  have bytes : utf8 entry.display =
      utf8 entry.name ++ utf8 (":".toList ++ ":".toList.intercalate entry.fields.tail) := by
    rw [← utf8_append, PasswdEntry.display, PasswdEntry.fields, List.intercalate_cons_cons, List.tail_cons,
      List.append_assoc]
  cases nameBytes : utf8 entry.name with
  | nil => exact absurd (utf8_injective nameBytes) shape.nonempty
  | cons byte rest =>
    refine ⟨byte, _, by rw [bytes, nameBytes, List.cons_append], ?_⟩
    exact shape.bytes byte (by simp [nameBytes])

theorem trimmed_display :
    (((utf8 entry.display).dropWhile isCSpace).reverse.dropWhile isLineEnd).reverse = utf8 entry.display := by
  obtain ⟨byte, rest, bytes, isName⟩ := head_display entry
  have range := isNameByte_range byte isName
  have front : (utf8 entry.display).dropWhile isCSpace = utf8 entry.display := by
    refine dropWhile_of_head _ _ ?_
    intro first isFirst
    rw [bytes] at isFirst
    cases isFirst
    by_contra isSpace
    simp only [isCSpace, Bool.not_eq_false, Bool.or_eq_true, Bool.and_eq_true, decide_eq_true_eq, beq_iff_eq,
      UInt8.le_iff_toNat_le, ← UInt8.toNat_inj, UInt8.reduceToNat] at isSpace
    omega
  rw [front, dropWhile_of_head, List.reverse_reverse]
  intro last isLast
  exact display_one_line entry last (List.mem_reverse.mp (List.mem_of_mem_head? isLast))

theorem fields_display : fields (utf8 entry.display) = some (entry.fields.map utf8) := by
  obtain ⟨byte, rest, bytes, isName⟩ := head_display entry
  have range := isNameByte_range byte isName
  have notHash : byte ≠ hash := by
    rintro rfl
    exact absurd range.1 (by decide)
  have parts : (utf8 entry.display).splitOn colon = entry.fields.map utf8 := by
    rw [PasswdEntry.display, utf8_intercalate]
    refine List.splitOn_intercalate colon ?_ (by simp [PasswdEntry.fields])
    intro part partMem inPart
    obtain ⟨field, fieldMem, rfl⟩ := List.mem_map.mp partMem
    exact (entry.fields_clean field fieldMem).separator (mem_utf8_plain field colon inPart (by decide))
  unfold fields
  simp only [trimmed_display, parts]
  rw [if_neg]
  rw [bytes]
  simpa using notHash

end Line

/-- The old bytes stay in front and the records gain the entry's fields. -/
theorem appended_spec (contents : Bytes) (entry : PasswdEntry) :
    contents <+: appended contents entry ∧
      records (appended contents entry) = records contents ++ [entry.fields.map utf8] := by
  refine ⟨List.prefix_append _ _, ?_⟩
  have oneLine : newline ∉ utf8 entry.display := fun member => by cases display_one_line entry newline member
  rw [appended, records_buffer contents entry.display oneLine, fields_display, Option.toList_some]

/-! ## What the records hold -/

def holdsUid (uid : UInt32) (record : List Bytes) : Bool := (record[2]?).bind number = some uid

def holdsName (name : Text) (record : List Bytes) : Bool := record.head? = some (utf8 name)

theorem record_ne_nil (contents : Bytes) (record : List Bytes) (listed : record ∈ records contents) :
    record ≠ [] := by
  obtain ⟨line, _, isRecord⟩ := List.mem_filterMap.mp listed
  unfold fields at isRecord
  simp only at isRecord
  split at isRecord
  · cases isRecord
  · cases isRecord
    exact List.splitOn_ne_nil _ _

theorem number_decimal (uid : UInt32) : number (utf8 (decimal uid)) = some uid := by
  have spelt := isDigit_decimal uid
  have plain : ∀ c ∈ decimal uid, c.toNat < 128 := by
    intro c member
    have range := (isDigit_iff c).mp (spelt c member)
    omega
  have unsigned : (decimal uid).head? ≠ some '+' := by
    intro sign
    exact absurd (spelt '+' (List.mem_of_mem_head? sign)) (by decide)
  have value : Nat.ofDigitChars 10 (decimal uid) 0 = uid.toNat := Nat.ofDigitChars_ten_toDigits
  rw [number, fromUtf8_plain _ plain, Option.bind_some, parseU32, if_neg unsigned, value,
    if_pos ⟨Nat.toDigits_ne_nil, List.all_eq_true.mpr spelt, uid.toNat_lt⟩, UInt32.ofNat_toNat]

theorem nameIfUid_eq_none_iff (uid : UInt32) (record : List Bytes) (some_ : record ≠ []) :
    nameIfUid uid record = none ↔ holdsUid uid record = false := by
  obtain ⟨name, rest, rfl⟩ := List.exists_cons_of_ne_nil some_
  unfold nameIfUid holdsUid
  cases (name :: rest)[2]? with
  | none => simp
  | some field => cases found : number field <;> simp [found]

theorem ownerIfName_eq_none_iff (name : Text) (record : List Bytes) :
    ownerIfName name record = none ↔ holdsName name record = false := by
  unfold ownerIfName holdsName
  cases record.head? with
  | none => simp
  | some first => by_cases same : first = utf8 name <;> simp [same]

/-- The database has room for an entry. -/
def Free (contents : Bytes) (entry : PasswdEntry) : Prop :=
  ∀ record ∈ records contents, holdsUid entry.uid record = false ∧ holdsName entry.name record = false

theorem passwdScan_absent_iff (contents : Bytes) (entry : PasswdEntry) :
    passwdScan contents entry.uid entry.name = .absent ↔ Free contents entry := by
  have uids : passwdNameForUid contents entry.uid = none ↔
      ∀ record ∈ records contents, holdsUid entry.uid record = false := by
    rw [passwdNameForUid, List.findSome?_eq_none_iff]
    exact forall₂_congr fun record listed =>
      nameIfUid_eq_none_iff _ record (record_ne_nil contents record listed)
  have names : passwdUidForName contents entry.name = none ↔
      ∀ record ∈ records contents, holdsName entry.name record = false := by
    rw [passwdUidForName, List.findSome?_eq_none_iff]
    exact forall₂_congr fun record _ => ownerIfName_eq_none_iff _ record
  have both : Free contents entry ↔ (∀ record ∈ records contents, holdsUid entry.uid record = false) ∧
      ∀ record ∈ records contents, holdsName entry.name record = false := by
    simp only [Free, forall_and]
  rw [both, ← uids, ← names]
  unfold passwdScan
  cases passwdNameForUid contents entry.uid with
  | some _ => simp
  | none => cases passwdUidForName contents entry.name <;> simp

section NewRecord
variable (entry : PasswdEntry)

theorem nameIfUid_new : nameIfUid entry.uid (entry.fields.map utf8) = some entry.name := by
  have plain : ∀ c ∈ entry.name, c.toNat < 128 := by
    intro c member
    have range := entry.nameShape.char_range c member
    omega
  simp [nameIfUid, PasswdEntry.fields, number_decimal, fromUtf8Lossy_plain _ plain]

theorem ownerIfName_new : ownerIfName entry.name (entry.fields.map utf8) = some (.uid entry.uid) := by
  simp [ownerIfName, PasswdEntry.fields, number_decimal]

theorem holdsUid_new (uid : UInt32) : holdsUid uid (entry.fields.map utf8) = decide (entry.uid = uid) := by
  simp [holdsUid, PasswdEntry.fields, number_decimal]

theorem holdsName_new (name : Text) : holdsName name (entry.fields.map utf8) = decide (entry.name = name) := by
  simp [holdsName, PasswdEntry.fields, utf8_injective.eq_iff]

end NewRecord

/-! ## Runs under the lock -/

/-- An attempt the operating system grants to the end. -/
def granted : Answers := ⟨none, true, true, true⟩

section Runs
variable {P : Type} [DecidableEq P] (entries : P → PasswdEntry)

def attempt (answers : Answers) (p : P) (contents : Bytes) : Except AppendError Outcome × Bytes :=
  appendLocked answers contents (entries p).display fun contents =>
    passwdScan contents (entries p).uid (entries p).name

/-- The file is opened for appending: what is written goes behind what is there. -/
def writes (p : P) (contents now : Bytes) : Bytes := now ++ (attempt entries granted p contents).2

/-- An attempt, as far as the operating system lets it go. -/
def attemptEvents (answers : Answers) (p : P) : List (Lock.Event P) :=
  if answers.opening.isSome || !answers.locks then [.stop p]
  else if !answers.reads then [.lock p, .stop p]
  else if !answers.writes then [.lock p, .read p, .stop p]
  else [.lock p, .read p, .write p, .stop p]

/-- Alone, the events of an attempt do to the file what the attempt does. -/
theorem attempt_file (answers : Answers) (p : P) (contents : Bytes) :
    (after (Lock.step (writes entries)) (Lock.start contents) (attemptEvents answers p)).file =
      contents ++ (attempt entries answers p contents).2 := by
  obtain ⟨opening, locks, reads, written⟩ := answers
  cases opening with
  | some kind =>
    cases kind <;> simp [attemptEvents, after, Lock.step, Lock.start, Lock.State.become, attempt, appendLocked]
  | none =>
    cases locks <;> cases reads <;> cases written <;>
      simp [attemptEvents, after, Lock.step, Lock.start, Lock.State.become, attempt, appendLocked, writes,
        granted]
    -- the write is refused: whatever the scan says, nothing is added
    cases passwdScan contents (entries p).uid (entries p).name <;> rfl

omit [DecidableEq P] in
theorem writes_cases (p : P) (contents : Bytes) :
    (Free contents (entries p) ∧ writes entries p contents contents = appended contents (entries p)) ∨
      writes entries p contents contents = contents := by
  unfold writes attempt appendLocked
  cases scan : passwdScan contents (entries p).uid (entries p).name with
  | absent =>
    exact .inl ⟨(passwdScan_absent_iff contents (entries p)).mp scan, by simp [granted, scan, appended]⟩
  | present detail => exact .inr (by simp [granted, scan])
  | conflict detail => exact .inr (by simp [granted, scan])

/-- A relation that holds between the files around every append holds over every run. -/
theorem file_run (rel : Bytes → Bytes → Prop) (refl : ∀ file, rel file file)
    (trans : ∀ {a b c}, rel a b → rel b c → rel a c)
    (append : ∀ p file, Free file (entries p) → rel file (appended file (entries p)))
    (s : Lock.State P Bytes) (inv : Lock.Exclusive s) (events : List (Lock.Event P)) :
    rel s.file (after (Lock.step (writes entries)) s events).file := by
  refine Lock.file_after (writes entries) rel refl trans ?_ s inv events
  intro p file
  obtain ⟨free, written⟩ | same := writes_cases entries p file
  · rw [written]
    exact append p file free
  · rw [same]
    exact refl file

variable (s : Lock.State P Bytes) (inv : Lock.Exclusive s) (events : List (Lock.Event P))
include inv

theorem records_prefix_run : records s.file <+: records (after (Lock.step (writes entries)) s events).file := by
  refine file_run entries (fun a b => records a <+: records b) (fun _ => List.prefix_rfl)
    (fun first second => first.trans second) ?_ s inv events
  intro p file _
  rw [(appended_spec file (entries p)).2]
  exact List.prefix_append _ _

/-- Records that a free entry adds to are none, or already one. -/
theorem countP_run (holds : List Bytes → Bool)
    (added : ∀ p file, Free file (entries p) → holds ((entries p).fields.map utf8) = true →
      ∀ record ∈ records file, holds record = false) :
    (records (after (Lock.step (writes entries)) s events).file).countP holds ≤
      max 1 ((records s.file).countP holds) := by
  refine file_run entries (fun a b => (records b).countP holds ≤ max 1 ((records a).countP holds))
    (fun _ => le_max_right _ _) (fun first second => by omega) ?_ s inv events
  intro p file free
  rw [(appended_spec file (entries p)).2, List.countP_append, List.countP_singleton]
  split
  · next holdsNew =>
    have none_ : (records file).countP holds = 0 :=
      List.countP_eq_zero.mpr fun record listed => by simp [added p file free holdsNew record listed]
    omega
  · omega

end Runs

/-! ## Every run -/

/-- The entry resolves both ways. -/
structure Resolves (contents : Bytes) (entry : PasswdEntry) : Prop where
  uid : passwdNameForUid contents entry.uid = some entry.name
  name : passwdUidForName contents entry.name = some (.uid entry.uid)

/-- Nothing old is lost, and the one new record is the entry. -/
structure Gains (before file : Bytes) (entry : PasswdEntry) : Prop where
  kept : before <+: file
  records : records file = records before ++ [entry.fields.map utf8]

theorem gains_appended (contents : Bytes) (entry : PasswdEntry) :
    Gains contents (appended contents entry) entry :=
  ⟨(appended_spec contents entry).1, (appended_spec contents entry).2⟩

/-- An entry there was room for resolves in every file that has the records. -/
theorem resolves_of_prefix (contents file : Bytes) (entry : PasswdEntry) (free : Free contents entry)
    (kept : PasswdAppend.records contents ++ [entry.fields.map utf8] <+: PasswdAppend.records file) :
    Resolves file entry := by
  obtain ⟨more, all⟩ := kept
  have noUid : (PasswdAppend.records contents).findSome? (nameIfUid entry.uid) = none :=
    List.findSome?_eq_none_iff.mpr fun record listed =>
      (nameIfUid_eq_none_iff _ record (record_ne_nil contents record listed)).mpr (free record listed).1
  have noName : (PasswdAppend.records contents).findSome? (ownerIfName entry.name) = none :=
    List.findSome?_eq_none_iff.mpr fun record listed =>
      (ownerIfName_eq_none_iff _ record).mpr (free record listed).2
  constructor
  · rw [passwdNameForUid, ← all, List.findSome?_append, List.findSome?_append, noUid, Option.none_or,
      List.findSome?_singleton, nameIfUid_new, Option.some_or]
  · rw [passwdUidForName, ← all, List.findSome?_append, List.findSome?_append, noName, Option.none_or,
      List.findSome?_singleton, ownerIfName_new, Option.some_or]

section Reached
variable {P : Type} [DecidableEq P] (entries : P → PasswdEntry) (contents : Bytes)

/-- The file after a run of the system. -/
def fileAfter (events : List (Lock.Event P)) : Bytes :=
  (after (Lock.step (writes entries)) (Lock.start contents) events).file

/-- The database is neither corrupted nor hijacked: an append adds its entry behind what was
there, is made only where nothing holds the uid or the name, and resolves ever after; no uid and
no name gains a second record. -/
theorem database_kept :
    (∀ file entry, Gains file (appended file entry) entry) ∧
    (∀ done e later, fileAfter entries contents (done ++ [e]) = fileAfter entries contents done ∨
      ∃ p, e = .write p ∧ Free (fileAfter entries contents done) (entries p) ∧
        fileAfter entries contents (done ++ [e]) = appended (fileAfter entries contents done) (entries p) ∧
        Resolves (fileAfter entries contents (done ++ e :: later)) (entries p)) ∧
    ∀ done later,
      (∀ uid, (records (fileAfter entries contents (done ++ later))).countP (holdsUid uid) ≤
        max 1 ((records (fileAfter entries contents done)).countP (holdsUid uid))) ∧
      ∀ name, (records (fileAfter entries contents (done ++ later))).countP (holdsName name) ≤
        max 1 ((records (fileAfter entries contents done)).countP (holdsName name)) := by
  have start : Lock.Exclusive (Lock.start contents : Lock.State P Bytes) := Lock.exclusive_start contents
  refine ⟨gains_appended, ?_, ?_⟩
  · intro done e later
    have inv := Lock.exclusive_after (writes entries) _ start done
    have next := Lock.exclusive_step (writes entries) _ e inv
    simp only [fileAfter, after, List.foldl_append, List.foldl_cons, List.foldl_nil]
    obtain same | ⟨p, isWrite, written⟩ := Lock.file_step (writes entries) _ e inv
    · exact .inl same
    · obtain ⟨free, adds⟩ | same := writes_cases entries p
        (after (Lock.step (writes entries)) (Lock.start contents) done).file
      · right
        refine ⟨p, isWrite, free, written.trans adds, ?_⟩
        refine resolves_of_prefix _ _ (entries p) free ?_
        rw [← (gains_appended _ (entries p)).records, ← adds, ← written]
        exact records_prefix_run entries _ next later
      · exact .inl (written.trans same)
  · intro done later
    have inv := Lock.exclusive_after (writes entries) _ start done
    simp only [fileAfter, after, List.foldl_append]
    constructor
    · intro uid
      refine countP_run entries _ inv later (holdsUid uid) ?_
      intro p file free holdsNew record listed
      rw [holdsUid_new, decide_eq_true_eq] at holdsNew
      exact holdsNew ▸ (free record listed).1
    · intro name
      refine countP_run entries _ inv later (holdsName name) ?_
      intro p file free holdsNew record listed
      rw [holdsName_new, decide_eq_true_eq] at holdsNew
      exact holdsNew ▸ (free record listed).2

end Reached

end WeeboSi.PasswdAppend
