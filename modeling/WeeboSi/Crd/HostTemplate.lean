import WeeboSi.Crd.Hosts

/-!
# Every reading of a host

Source: crates/weebo-si-crd/src/endpoint_auth.rs:281-330 and 412-460. A template is a
literal followed by placeholders, each with the literal behind it. A reading assigns a
value to every placeholder; the walk of the source finds those readings whose separators
are found by a scan that never looks inside the occurrence before.
-/
namespace WeeboSi.Crd
open WeeboSi.Lib

/-! ## Scanning for a separator -/

theorem matchIndicesFrom_sound (needle : Text) (skip at_ : Nat) (text : Text) (index : Nat)
    (found : index ∈ matchIndicesFrom needle skip at_ text) :
    ∃ offset, index = at_ + offset ∧ needle <+: text.drop offset := by
  induction text generalizing skip at_ with
  | nil => cases skip <;> cases found
  | cons c rest ih =>
    have later : ∀ skip, index ∈ matchIndicesFrom needle skip (at_ + 1) rest →
        ∃ offset, index = at_ + offset ∧ needle <+: (c :: rest).drop offset := by
      intro skip member
      obtain ⟨offset, rfl, occurs⟩ := ih skip (at_ + 1) member
      exact ⟨offset + 1, by omega, occurs⟩
    cases skip with
    | succ skip => exact later skip found
    | zero =>
      unfold matchIndicesFrom at found
      split at found
      · rename_i here
        rcases List.mem_cons.mp found with rfl | member
        · exact ⟨0, rfl, List.isPrefixOf_iff_prefix.mp here⟩
        · exact later _ member
      · exact later _ found

theorem matchIndicesFrom_ge (needle : Text) (skip at_ : Nat) (text : Text) (index : Nat)
    (found : index ∈ matchIndicesFrom needle skip at_ text) : at_ + skip ≤ index := by
  induction text generalizing skip at_ with
  | nil => cases skip <;> cases found
  | cons c rest ih =>
    cases skip with
    | succ skip =>
      have later := ih skip (at_ + 1) found
      omega
    | zero =>
      unfold matchIndicesFrom at found
      split at found
      · rcases List.mem_cons.mp found with rfl | member
        · exact Nat.le_refl _
        · have later := ih _ (at_ + 1) member
          omega
      · have later := ih 0 (at_ + 1) found
        omega

/-- An occurrence at the front hides those that begin inside it. -/
theorem matchIndices_behind_first (needle text : Text) (solid : needle ≠ []) (here : needle <+: text) (index : Nat)
    (found : index ∈ matchIndices needle text) : index = 0 ∨ needle.length ≤ index := by
  have positive := List.length_pos_iff.mpr solid
  cases text with
  | nil => exact absurd (List.prefix_nil.mp here) solid
  | cons c rest =>
    rw [matchIndices, matchIndicesFrom, if_pos (List.isPrefixOf_iff_prefix.mpr here)] at found
    rcases List.mem_cons.mp found with first | member
    · exact Or.inl first
    · have later := matchIndicesFrom_ge needle _ _ rest index member
      omega

/-- An occurrence that no earlier one runs into is found. -/
theorem matchIndicesFrom_complete (needle : Text) (skip at_ : Nat) (text : Text) (offset : Nat)
    (inside : offset < text.length) (passed : skip ≤ offset) (occurs : needle <+: text.drop offset)
    (clear : ∀ earlier < offset, offset < earlier + needle.length → ¬ needle <+: text.drop earlier) :
    at_ + offset ∈ matchIndicesFrom needle skip at_ text := by
  induction text generalizing skip at_ offset with
  | nil => simp at inside
  | cons c rest ih =>
    have later : ∀ skip offset', offset = offset' + 1 → skip ≤ offset' →
        at_ + offset ∈ matchIndicesFrom needle skip (at_ + 1) rest := by
      rintro skip offset' rfl passed
      have found := ih skip (at_ + 1) offset' (Nat.lt_of_succ_lt_succ inside) passed occurs
        fun earlier small runs => clear (earlier + 1) (Nat.succ_lt_succ small) (by omega)
      rwa [Nat.add_assoc, Nat.add_comm 1 offset'] at found
    cases skip with
    | succ skip => exact later skip (offset - 1) (by omega) (by omega)
    | zero =>
      unfold matchIndicesFrom
      by_cases here : needle.isPrefixOf (c :: rest) = true
      · rw [if_pos here]
        by_cases first : offset = 0
        · simp [first]
        · have short : needle.length ≤ offset := by
            by_contra runs
            exact clear 0 (by omega) (by omega) (List.isPrefixOf_iff_prefix.mp here)
          exact List.mem_cons_of_mem _ (later _ (offset - 1) (by omega) (by omega))
      · rw [if_neg here]
        by_cases first : offset = 0
        · subst first
          exact absurd (List.isPrefixOf_iff_prefix.mpr occurs) here
        · exact later 0 (offset - 1) (by omega) (Nat.zero_le _)

/-! ## Texts that overlap themselves -/

/-- A proper end of the text is also its beginning, and the text has no dot. -/
def Overlaps (text : Text) : Prop :=
  '.' ∉ text ∧ ∃ count, 0 < count ∧ count < text.length ∧ text.drop count <+: text

theorem overlap_border (needle text : Text) (count : Nat) (short : count < needle.length)
    (here : needle <+: text) (later : needle <+: text.drop count) : needle.drop count <+: needle := by
  obtain ⟨rest, rfl⟩ := here
  rw [List.drop_append_of_le_length (Nat.le_of_lt short)] at later
  refine List.prefix_of_prefix_length_le (List.prefix_append _ rest) later ?_
  simp

/-- A text repeats what stands before its own border. -/
theorem mem_of_border (text : Text) (count : Nat) (positive : 0 < count) (border : text.drop count <+: text)
    (c : Char) (member : c ∈ text) : c ∈ text.take count := by
  obtain ⟨index, inside, rfl⟩ := List.mem_iff_getElem.mp member
  induction index using Nat.strong_induction_on with
  | _ index ih =>
    by_cases early : index < count
    · exact List.mem_take_iff_getElem.mpr ⟨index, by omega, rfl⟩
    · have shifted : index - count < (text.drop count).length := by
        rw [List.length_drop]
        omega
      have same := border.getElem shifted
      have place : count + (index - count) = index := by omega
      simp only [List.getElem_drop, place] at same
      rw [same]
      exact ih (index - count) (by omega) _ (List.getElem_mem _)

/-! ## Readings -/

/-- The literal a template begins with, and its placeholders with the literal behind each. -/
inductive Parts : Text → Text → List (Text × Text) → Prop
  | plain (text : Text) (noOpen : '\x7b' ∉ text) : Parts text text []
  | placeholder (literal name after next : Text) (more : List (Text × Text))
      (noOpen : '\x7b' ∉ literal) (noClose : '\x7d' ∉ name) (rest : Parts after next more) :
      Parts (literal ++ '\x7b' :: (name ++ '\x7d' :: after)) literal ((name, next) :: more)

/-- What a template spells when its placeholders stand for the values. -/
def spell : Text → List (Text × Text) → List Text → Text
  | first, (_, next) :: more, value :: values => first ++ (value ++ spell next more values)
  | first, _, _ => first

/-- The value of the last placeholder named `user`. -/
def capturedUser : List (Text × Text) → List Text → Option Text
  | (name, _) :: more, value :: values =>
    (capturedUser more values).or (if name = userName then some value else none)
  | _, _ => none

/-- One value for each placeholder, none empty and none with a dot. -/
def Assigns (parts : List (Text × Text)) (values : List Text) : Prop :=
  values.length = parts.length ∧ ∀ value ∈ values, value ≠ [] ∧ '.' ∉ value

def Readable (template stem user : Text) : Prop :=
  ∃ first parts values, Parts template first parts ∧ Assigns parts values ∧
    spell first parts values = stem ∧ capturedUser parts values = some user

/-- Each value ends where a scan from its beginning finds the literal behind it. -/
def Scanned : List (Text × Text) → List Text → Prop
  | (_, next) :: more, value :: values =>
    (next ≠ [] → value.length ∈ matchIndices next (value ++ spell next more values)) ∧
      Scanned more values
  | _, _ => True

/-- Inside the value an occurrence of the literal behind it begins that runs over the value's end. -/
def Crossed (value next : Text) : Prop :=
  ∃ at_ < value.length, value.length < at_ + next.length ∧ next <+: (value ++ next).drop at_

def Uncrossed : List (Text × Text) → List Text → Prop
  | (_, next) :: more, value :: values => ¬ Crossed value next ∧ Uncrossed more values
  | _, _ => True

/-- No reading of the stem has a separator that begins in the value before it. -/
def UncrossedStem (template stem : Text) : Prop :=
  ∀ first parts values, Parts template first parts → Assigns parts values →
    spell first parts values = stem → Uncrossed parts values

/-- The literal behind the last placeholder named `user`. -/
def BehindLastUser (parts : List (Text × Text)) (next : Text) : Prop :=
  ∃ front more, parts = front ++ (userName, next) :: more ∧ ∀ part ∈ more, part.1 ≠ userName

def ScanReadable (template stem user : Text) : Prop :=
  ∃ first parts values, Parts template first parts ∧ Assigns parts values ∧
    spell first parts values = stem ∧ capturedUser parts values = some user ∧ Scanned parts values

/-- Consecutive placeholders have a literal between them. -/
def Separated : List (Text × Text) → Prop
  | (_, next) :: second :: more => next ≠ [] ∧ Separated (second :: more)
  | _ => True

def SeparatedTemplate (template : Text) : Prop :=
  ∀ first parts, Parts template first parts → Separated parts

theorem Parts.nextLiteral (after next : Text) (more : List (Text × Text)) (parts : Parts after next more) :
    nextLiteral after = next := by
  have stops : ∀ literal rest : Text, '\x7b' ∉ literal →
      (literal ++ rest).takeWhile (· ≠ '\x7b') = literal ++ rest.takeWhile (· ≠ '\x7b') := by
    intro literal rest noOpen
    refine List.takeWhile_append_of_pos fun c member => ?_
    simp only [ne_eq, decide_not, Bool.not_eq_true', decide_eq_false_iff_not]
    rintro rfl
    exact noOpen member
  unfold Crd.nextLiteral
  cases parts with
  | plain _ noOpen =>
    have whole := stops after [] noOpen
    simpa using whole
  | placeholder literal name rest following more noOpen noClose parts =>
    rw [stops _ _ noOpen]
    simp

theorem usableValue_iff (value : Text) : usableValue value = true ↔ value ≠ [] ∧ '.' ∉ value := by
  simp [usableValue]

theorem dropPrefix_eq_some (text literal rest : Text) :
    text.dropPrefix? literal = some rest ↔ text = literal ++ rest := by
  simp [List.dropPrefix?_eq_some_iff]

/-! ## What the walk finds -/

theorem assigns_cons (part : Text × Text) (parts : List (Text × Text)) (values : List Text) :
    Assigns (part :: parts) values ↔
      ∃ value more, values = value :: more ∧ (value ≠ [] ∧ '.' ∉ value) ∧ Assigns parts more := by
  unfold Assigns
  cases values with
  | nil => simp
  | cons value more =>
    simp only [List.length_cons, Nat.add_right_cancel_iff, List.forall_mem_cons]
    constructor
    · intro given
      obtain ⟨length, usable, others⟩ := given
      exact ⟨value, more, rfl, usable, length, others⟩
    · rintro ⟨_, _, same, usable, length, others⟩
      obtain ⟨rfl, rfl⟩ := List.cons.inj same
      exact ⟨length, usable, others⟩

/-- The splits a placeholder tries are its scanned values. -/
theorem mem_candidates (next rest value tail : Text) (solid : next ≠ []) :
    (value, tail) ∈ candidates next rest ↔
      rest = value ++ tail ∧ value.length ∈ matchIndices next rest := by
  unfold candidates
  rw [if_neg solid, List.mem_map]
  constructor
  · intro given
    obtain ⟨at_, found, split⟩ := given
    rw [List.splitAt_eq, Prod.mk.injEq] at split
    obtain ⟨rfl, rfl⟩ := split
    obtain ⟨offset, rfl, occurs⟩ := matchIndicesFrom_sound next 0 0 rest at_ found
    have inside : 0 + offset ≤ rest.length := by
      have length := occurs.length_le
      have positive := List.length_pos_iff.mpr solid
      rw [List.length_drop] at length
      omega
    refine ⟨(List.take_append_drop _ _).symm, ?_⟩
    rw [List.length_take, Nat.min_eq_left inside]
    exact found
  · intro given
    obtain ⟨whole, found⟩ := given
    refine ⟨value.length, found, ?_⟩
    rw [List.splitAt_eq, whole]
    simp

/-- One placeholder of the walk. -/
theorem templateWalk_placeholder (literal name after next rest found : Text) (more : List (Text × Text))
    (fuel : Nat) (user : Option Text) (noOpen : '\x7b' ∉ literal) (noClose : '\x7d' ∉ name)
    (parsed : Parts after next more) :
    found ∈ templateWalk (fuel + 1) (literal ++ '\x7b' :: (name ++ '\x7d' :: after)) rest user ↔
      ∃ value tail, rest.dropPrefix? literal = some (value ++ tail) ∧
        (value, tail) ∈ candidates next (value ++ tail) ∧ (value ≠ [] ∧ '.' ∉ value) ∧
        found ∈ templateWalk fuel after tail (if name = userName then some value else user) := by
  conv_lhs => unfold templateWalk
  rw [splitOnce_append _ _ _ noOpen]
  dsimp only
  cases begun : rest.dropPrefix? literal with
  | none => simp
  | some body =>
    rw [splitOnce_append _ _ _ noClose]
    dsimp only
    rw [Parts.nextLiteral after next more parsed, List.mem_flatMap]
    constructor
    · intro given
      obtain ⟨⟨value, tail⟩, tried, member⟩ := given
      have joined : body = value ++ tail := by
        by_cases solid : next = []
        · simp only [candidates, solid, if_true, List.mem_singleton, Prod.mk.injEq] at tried
          rw [tried.1, tried.2, List.append_nil]
        · exact ((mem_candidates next body value tail solid).mp tried).1
      subst joined
      split at member
      · rename_i usable
        exact ⟨value, tail, rfl, tried, (usableValue_iff value).mp usable, member⟩
      · cases member
    · intro given
      obtain ⟨value, tail, same, tried, usable, member⟩ := given
      obtain rfl := Option.some.inj same
      refine ⟨(value, tail), tried, ?_⟩
      dsimp only
      rw [if_pos ((usableValue_iff value).mpr usable)]
      exact member

theorem mem_templateWalk (remaining first : Text) (parts : List (Text × Text))
    (parsed : Parts remaining first parts) (separated : Separated parts) (fuel : Nat)
    (enough : remaining.length < fuel) (rest : Text) (user : Option Text) (found : Text) :
    found ∈ templateWalk fuel remaining rest user ↔
      ∃ values, Assigns parts values ∧ spell first parts values = rest ∧
        (capturedUser parts values).or user = some found ∧ Scanned parts values := by
  induction parsed generalizing fuel rest user with
  | plain text noOpen =>
    obtain ⟨fuel, rfl⟩ := Nat.exists_eq_add_one_of_ne_zero (Nat.ne_zero_of_lt enough)
    unfold templateWalk
    rw [splitOnce_absent _ _ noOpen]
    have none : ∀ values, Assigns [] values ↔ values = [] := by
      intro values
      cases values with
      | nil => simp [Assigns]
      | cons value values => simp [Assigns]
    by_cases same : rest = text
    · simp [same, none, spell, capturedUser, Scanned]
    · simp [same, none, spell, Ne.symm same]
  | placeholder literal name after next more noOpen noClose parsed ih =>
    obtain ⟨fuel, rfl⟩ := Nat.exists_eq_add_one_of_ne_zero (Nat.ne_zero_of_lt enough)
    have enough' : after.length < fuel := by
      simp only [List.length_append, List.length_cons] at enough
      omega
    have separated' : Separated more := by
      cases more with
      | nil => trivial
      | cons second more => exact separated.2
    have last : next = [] → more = [] := by
      intro empty
      cases more with
      | nil => rfl
      | cons second more => exact absurd empty separated.1
    rw [templateWalk_placeholder literal name after next rest found more fuel user noOpen noClose parsed]
    simp only [dropPrefix_eq_some, ih separated' fuel enough', assigns_cons]
    constructor
    · rintro ⟨value, tail, rfl, tried, usable, values, assigns, rfl, captured, scanned⟩
      refine ⟨value :: values, ⟨value, values, rfl, usable, assigns⟩, rfl, ?_, ?_, scanned⟩
      · rw [capturedUser, Option.or_assoc]
        split at captured
        · rename_i isUser
          rw [if_pos isUser]
          simpa using captured
        · rename_i other
          rw [if_neg other]
          simpa using captured
      · intro solid
        exact ((mem_candidates next _ value _ solid).mp tried).2
    · rintro ⟨_, ⟨value, values, rfl, usable, assigns⟩, rfl, captured, here, scanned⟩
      refine ⟨value, spell next more values, rfl, ?_, usable, values, assigns, rfl, ?_, scanned⟩
      · by_cases solid : next = []
        · obtain rfl := last solid
          subst solid
          cases values with
          | nil => simp [candidates, spell]
          | cons other values => simp [Assigns] at assigns
        · exact (mem_candidates next _ value _ solid).mpr ⟨rfl, here solid⟩
      · rw [capturedUser, Option.or_assoc] at captured
        split
        · rename_i isUser
          rw [if_pos isUser] at captured
          simpa using captured
        · rename_i other
          rw [if_neg other] at captured
          simpa using captured

/-- A template with an open brace that is never closed reads nobody. -/
theorem parts_of_walk (fuel : Nat) (remaining rest : Text) (user : Option Text) (found : Text)
    (member : found ∈ templateWalk fuel remaining rest user) :
    ∃ first parts, Parts remaining first parts := by
  induction fuel generalizing remaining rest user with
  | zero => cases member
  | succ fuel ih =>
    unfold templateWalk at member
    split at member
    · rename_i absent
      exact ⟨remaining, [], .plain remaining ((splitOnce_eq_none _ _).mp absent)⟩
    · rename_i literal opened cut
      split at member
      · cases member
      · split at member
        · cases member
        · rename_i name after closed
          obtain ⟨⟨value, tail⟩, -, member⟩ := List.mem_flatMap.mp member
          dsimp only at member
          split at member
          · obtain ⟨next, more, parsed⟩ := ih after tail _ member
            obtain ⟨rfl, noOpen⟩ := (splitOnce_eq_some _ _ _ _).mp cut
            obtain ⟨rfl, noClose⟩ := (splitOnce_eq_some _ _ _ _).mp closed
            exact ⟨literal, _, .placeholder literal name after next more noOpen noClose parsed⟩
          · cases member

theorem mem_templateUsers (template stem user : Text) (separated : SeparatedTemplate template) :
    user ∈ templateUsers template stem ↔ ScanReadable template stem user := by
  unfold templateUsers ScanReadable
  constructor
  · intro member
    obtain ⟨first, parts, parsed⟩ := parts_of_walk _ _ _ _ _ member
    obtain ⟨values, assigns, spelt, captured, scanned⟩ := (mem_templateWalk template first parts parsed
      (separated first parts parsed) _ (Nat.lt_succ_self _) stem none user).mp member
    exact ⟨first, parts, values, parsed, assigns, spelt, by simpa using captured, scanned⟩
  · intro given
    obtain ⟨first, parts, values, parsed, assigns, spelt, captured, scanned⟩ := given
    refine (mem_templateWalk template first parts parsed (separated first parts parsed) _
      (Nat.lt_succ_self _) stem none user).mpr ⟨values, assigns, spelt, ?_, scanned⟩
    simpa using captured

theorem ScanReadable.readable (template stem user : Text) (read : ScanReadable template stem user) :
    Readable template stem user := by
  obtain ⟨first, parts, values, parsed, assigns, spelt, captured, -⟩ := read
  exact ⟨first, parts, values, parsed, assigns, spelt, captured⟩

theorem prefix_spell (next : Text) (more : List (Text × Text)) (values : List Text) :
    next <+: spell next more values := by
  cases more with
  | nil => simp [spell]
  | cons part more =>
    cases values with
    | nil => simp [spell]
    | cons value values => simp [spell]

/-- What begins in the value and ends inside the literal behind it does not depend on the rest. -/
theorem crossed_of_occurrence (value next : Text) (more : List (Text × Text)) (values : List Text) (at_ : Nat)
    (early : at_ < value.length) (runs : value.length < at_ + next.length)
    (occurs : next <+: (value ++ spell next more values).drop at_) : Crossed value next := by
  obtain ⟨tail, behind⟩ := prefix_spell next more values
  refine ⟨at_, early, runs, ?_⟩
  rw [← behind, ← List.append_assoc, List.drop_append_of_le_length (by rw [List.length_append]; omega)] at occurs
  refine List.prefix_of_prefix_length_le occurs (List.prefix_append _ tail) ?_
  rw [List.length_drop, List.length_append]
  omega

/-- Where no separator begins in the value before it, the scan misses none. -/
theorem scanned_of_uncrossed (parts : List (Text × Text)) (values : List Text)
    (uncrossed : Uncrossed parts values) : Scanned parts values := by
  induction parts generalizing values with
  | nil => simp [Scanned]
  | cons part more ih =>
    obtain ⟨name, next⟩ := part
    cases values with
    | nil => simp [Scanned]
    | cons value values =>
      refine ⟨?_, ih values uncrossed.2⟩
      intro solid
      have begins := prefix_spell next more values
      have found := matchIndicesFrom_complete next 0 0 (value ++ spell next more values) value.length ?_
        (Nat.zero_le _) (by simpa using begins) ?_
      · simpa [matchIndices] using found
      · have length := begins.length_le
        have positive := List.length_pos_iff.mpr solid
        rw [List.length_append]
        omega
      · intro earlier small runs occurs
        exact uncrossed.1 (crossed_of_occurrence value next more values earlier small runs occurs)

/-- A literal is crossed only by itself, so by none that has a dot: a value has no dots. -/
theorem overlaps_of_crossed (value next : Text) (dotless : '.' ∉ value) (crossed : Crossed value next) :
    Overlaps next := by
  obtain ⟨at_, early, runs, here⟩ := crossed
  rw [List.drop_append_of_le_length (Nat.le_of_lt early)] at here
  have count : (value.drop at_).length = value.length - at_ := List.length_drop
  have border : next.drop (value.length - at_) <+: next := by
    refine overlap_border next _ (value.length - at_) (by omega) here ?_
    rw [← count, List.drop_left]
  have front : next.take (value.length - at_) = value.drop at_ := by
    obtain ⟨rest, whole⟩ := here
    have taken := congrArg (List.take (value.length - at_)) whole
    rwa [List.take_append_of_le_length (by omega), ← count, List.take_left, count] at taken
  refine ⟨fun dot => dotless ?_, value.length - at_, by omega, by omega, border⟩
  have repeated := mem_of_border next _ (by omega) border '.' dot
  rw [front] at repeated
  exact List.mem_of_mem_drop repeated

theorem uncrossed_of_plain (parts : List (Text × Text)) (values : List Text)
    (plain : ∀ part ∈ parts, ¬ Overlaps part.2) (dotless : ∀ value ∈ values, '.' ∉ value) :
    Uncrossed parts values := by
  induction parts generalizing values with
  | nil => simp [Uncrossed]
  | cons part more ih =>
    cases values with
    | nil => simp [Uncrossed]
    | cons value values =>
      refine ⟨?_, ih values (fun part member => plain part (List.mem_cons_of_mem _ member))
        fun value member => dotless value (List.mem_cons_of_mem _ member)⟩
      intro crossed
      exact plain part List.mem_cons_self (overlaps_of_crossed value part.2 (dotless value List.mem_cons_self) crossed)

theorem mem_templateUsers_uncrossed (template stem user : Text) (separated : SeparatedTemplate template)
    (uncrossed : UncrossedStem template stem) :
    user ∈ templateUsers template stem ↔ Readable template stem user := by
  rw [mem_templateUsers template stem user separated]
  refine ⟨ScanReadable.readable template stem user, ?_⟩
  intro read
  obtain ⟨first, parts, values, parsed, assigns, spelt, captured⟩ := read
  exact ⟨first, parts, values, parsed, assigns, spelt, captured,
    scanned_of_uncrossed parts values (uncrossed first parts values parsed assigns spelt)⟩

/-- Whoever the walk reads besides the owner keeps the host from the owner while he exists. -/
theorem ownedBy_ambiguous (template stem other : Text) (member : other ∈ templateUsers template stem)
    (compile : Text → Option (List Regex)) (hosts : HostsConfig) (host owner : Text) (regex : Option Text)
    (more : List HostOwnership) (isUser : Text → Bool)
    (stripped : (plainHost host).dropSuffix? (lowerText hosts.suffix) = some stem)
    (patterns : hosts.ownership = ⟨some template, regex⟩ :: more) (different : other ≠ lowerText owner)
    (exists_ : isUser other = true) : hosts.ownedBy compile host owner isUser = false := by
  have users : hosts.reading compile host = .users (templateUsers template stem) := by
    unfold HostsConfig.reading
    rw [stripped]
    dsimp only
    rw [patterns, readStem]
    dsimp only
    rw [if_neg (List.ne_nil_of_mem member)]
  rw [Bool.eq_false_iff]
  intro owned
  obtain ⟨users', read', -, alone⟩ :=
    (HostsConfig.ownedBy_eq_true compile hosts host owner isUser).mp owned
  obtain rfl := Reading.users.inj (users.symm.trans read')
  rw [alone other member different] at exists_
  cases exists_

/-! ## A separator that overlaps itself -/

theorem Parts.unique (template first first' : Text) (parts parts' : List (Text × Text))
    (parsed : Parts template first parts) (parsed' : Parts template first' parts') :
    first = first' ∧ parts = parts' := by
  induction parsed generalizing first' parts' with
  | plain text noOpen =>
    cases parsed' with
    | plain _ _ => exact ⟨rfl, rfl⟩
    | placeholder literal name after next more _ _ _ => simp at noOpen
  | placeholder literal name after next more noOpen noClose parsed ih =>
    generalize whole : literal ++ '\x7b' :: (name ++ '\x7d' :: after) = text at parsed'
    cases parsed' with
    | plain _ noOpen' =>
      rw [← whole] at noOpen'
      simp at noOpen'
    | placeholder literal' name' after' next' more' noOpen' noClose' parsed' =>
      have opens := (splitOnce_append '\x7b' literal _ noOpen).symm.trans
        (whole ▸ splitOnce_append '\x7b' first' _ noOpen')
      obtain ⟨rfl, opened⟩ := Prod.mk.inj (Option.some.inj opens)
      have closes := (splitOnce_append '\x7d' name _ noClose).symm.trans
        (opened ▸ splitOnce_append '\x7d' name' _ noClose')
      obtain ⟨rfl, rfl⟩ := Prod.mk.inj (Option.some.inj closes)
      obtain ⟨rfl, rfl⟩ := ih next' more' parsed'
      exact ⟨rfl, rfl⟩

theorem length_spell (first : Text) (parts : List (Text × Text)) (values : List Text)
    (fits : values.length = parts.length) :
    (spell first parts values).length =
      first.length + ((parts.map fun part => part.2.length).sum + (values.map List.length).sum) := by
  induction parts generalizing first values with
  | nil =>
    obtain rfl := List.length_eq_zero_iff.mp fits
    simp [spell]
  | cons part parts ih =>
    cases values with
    | nil => cases fits
    | cons value values =>
      have rest := ih part.2 values (Nat.succ.inj fits)
      simp only [spell, List.length_append, rest, List.map_cons, List.sum_cons]
      omega

/-- Values of given lengths are read out of what they spell. -/
theorem spell_injective (first : Text) (parts : List (Text × Text)) (values values' : List Text)
    (fits : values.length = parts.length) (lengths : values.map List.length = values'.map List.length)
    (same : spell first parts values = spell first parts values') : values = values' := by
  induction parts generalizing first values values' with
  | nil =>
    obtain rfl := List.length_eq_zero_iff.mp fits
    exact (List.map_eq_nil_iff.mp lengths.symm).symm
  | cons part parts ih =>
    cases values with
    | nil => cases fits
    | cons value values =>
      cases values' with
      | nil => cases lengths
      | cons value' values' =>
        obtain ⟨length, others⟩ := List.cons.inj lengths
        obtain ⟨rfl, rest⟩ := List.append_inj (List.append_cancel_left same) length
        rw [ih part.2 values values' (Nat.succ.inj fits) others rest]

theorem capturedUser_last (front more : List (Text × Text)) (next value : Text) (before behind : List Text)
    (fits : before.length = front.length) (last : ∀ part ∈ more, part.1 ≠ userName) :
    capturedUser (front ++ (userName, next) :: more) (before ++ value :: behind) = some value := by
  have none_ : ∀ behind, capturedUser more behind = none := by
    induction more with
    | nil => exact fun _ => rfl
    | cons part more ih =>
      intro behind
      cases behind with
      | nil => rfl
      | cons other behind =>
        rw [capturedUser, ih fun part member => last part (List.mem_cons_of_mem _ member),
          if_neg (last part List.mem_cons_self)]
        rfl
  induction front generalizing before with
  | nil =>
    obtain rfl := List.length_eq_zero_iff.mp fits
    simp [capturedUser, none_]
  | cons part front ih =>
    cases before with
    | nil => cases fits
    | cons other before =>
      rw [List.cons_append, List.cons_append, capturedUser, ih before (Nat.succ.inj fits)]
      rfl

/-- Nonempty values that are no longer than they have to be. -/
theorem length_of_sum (values : List Text) (solid : ∀ value ∈ values, value ≠ []) :
    values.length ≤ (values.map List.length).sum ∧
      ((values.map List.length).sum = values.length → values.map List.length = values.map fun _ => 1) := by
  induction values with
  | nil => simp
  | cons value values ih =>
    obtain ⟨atLeast, equal⟩ := ih fun other member => solid other (List.mem_cons_of_mem _ member)
    have positive := List.length_pos_iff.mpr (solid value List.mem_cons_self)
    simp only [List.map_cons, List.sum_cons, List.length_cons]
    refine ⟨by omega, fun sum => ?_⟩
    rw [equal (by omega)]
    have single : value.length = 1 := by omega
    rw [single]

theorem scanned_append (front : List (Text × Text)) (before : List Text) (fits : before.length = front.length)
    (part : Text × Text) (more : List (Text × Text)) (value : Text) (behind : List Text)
    (scanned : Scanned (front ++ part :: more) (before ++ value :: behind)) :
    part.2 ≠ [] → value.length ∈ matchIndices part.2 (value ++ spell part.2 more behind) := by
  induction front generalizing before with
  | nil =>
    obtain rfl := List.length_eq_zero_iff.mp fits
    exact scanned.1
  | cons other front ih =>
    cases before with
    | nil => cases fits
    | cons first before => exact ih before (Nat.succ.inj fits) scanned.2

/-- The text repeated up to its border, and then itself: the scan takes the first and passes
over the second. -/
theorem border_not_scanned (next : Text) (count : Nat) (positive : 0 < count) (short : count < next.length)
    (border : next.drop count <+: next) (more : List (Text × Text)) (values : List Text) :
    (next.take count).length ∉ matchIndices next (next.take count ++ spell next more values) := by
  intro found
  have solid : next ≠ [] := List.length_pos_iff.mp (by omega)
  have here : next <+: next.take count ++ spell next more values := by
    calc next = next.take count ++ next.drop count := (List.take_append_drop count next).symm
      _ <+: next.take count ++ spell next more values :=
        (List.prefix_append_right_inj _).mpr (border.trans (prefix_spell next more values))
  have length : (next.take count).length = count := by
    rw [List.length_take]
    omega
  rcases matchIndices_behind_first next _ solid here _ found with first | later
  · omega
  · omega

/-- One character for every placeholder but one. -/
def tightValues (front : List (Text × Text)) (value : Text) (more : List (Text × Text)) : List Text :=
  (front.map fun _ => ['a']) ++ value :: more.map fun _ => ['a']

section Tight
variable (front more : List (Text × Text)) (value : Text)

theorem tightValues_assigns (next : Text) (usable : value ≠ [] ∧ '.' ∉ value) :
    Assigns (front ++ (userName, next) :: more) (tightValues front value more) := by
  refine ⟨by simp [tightValues], ?_⟩
  intro other member
  simp only [tightValues, List.mem_append, List.mem_cons, List.mem_map] at member
  rcases member with ⟨_, _, rfl⟩ | rfl | ⟨_, _, rfl⟩
  · simp
  · exact usable
  · simp

/-- They leave no room for another reading with the same user. -/
theorem tightValues_only (first next : Text) (last : ∀ part ∈ more, part.1 ≠ userName)
    (usable : value ≠ [] ∧ '.' ∉ value) (values : List Text)
    (assigns : Assigns (front ++ (userName, next) :: more) values)
    (spelt : spell first (front ++ (userName, next) :: more) values =
      spell first (front ++ (userName, next) :: more) (tightValues front value more))
    (captured : capturedUser (front ++ (userName, next) :: more) values = some value) :
    values = tightValues front value more := by
  obtain ⟨before, other, behind, rfl, fits⟩ :
      ∃ before other behind, values = before ++ other :: behind ∧ before.length = front.length := by
    have enough : front.length < values.length := by
      rw [assigns.1]
      simp
    refine ⟨values.take front.length, values[front.length], values.drop (front.length + 1), ?_, ?_⟩
    · rw [List.cons_getElem_drop_succ, List.take_append_drop]
    · rw [List.length_take]
      omega
  rw [capturedUser_last _ _ _ _ _ _ fits last] at captured
  obtain rfl := Option.some.inj captured
  have fits' : behind.length = more.length := by
    have all := assigns.1
    simp only [List.length_append, List.length_cons] at all
    omega
  refine spell_injective first _ _ _ assigns.1 ?_ spelt
  have sums := congrArg List.length spelt
  rw [length_spell _ _ _ assigns.1, length_spell _ _ _ (tightValues_assigns front more other next usable).1] at sums
  have tight : ((tightValues front other more).map List.length).sum = front.length + (other.length + more.length) := by
    simp [tightValues]
  simp only [tight, List.map_append, List.map_cons, List.sum_append, List.sum_cons] at sums
  have solid := fun value member => (assigns.2 value member).1
  obtain ⟨atLeast, single⟩ := length_of_sum before fun value member => solid value (List.mem_append_left _ member)
  obtain ⟨atLeast', single'⟩ := length_of_sum behind fun value member =>
    solid value (List.mem_append_right _ (List.mem_cons_of_mem _ member))
  rw [List.map_append, List.map_cons, single (by omega), single' (by omega)]
  simp [tightValues, fits, fits']

end Tight

/-- Behind the last user a separator that overlaps itself hides somebody in some stem. -/
theorem overlapping_hides (template first next : Text) (parts : List (Text × Text))
    (separated : SeparatedTemplate template) (parsed : Parts template first parts)
    (behindUser : BehindLastUser parts next) (overlaps : Overlaps next) :
    ∃ stem user, Readable template stem user ∧ user ∉ templateUsers template stem := by
  obtain ⟨front, more, rfl, last⟩ := behindUser
  obtain ⟨dotless, count, positive, short, border⟩ := overlaps
  have usable : next.take count ≠ [] ∧ '.' ∉ next.take count := by
    refine ⟨List.length_pos_iff.mp ?_, fun dot => dotless (List.mem_of_mem_take dot)⟩
    rw [List.length_take]
    omega
  refine ⟨spell first _ (tightValues front (next.take count) more), next.take count,
    ⟨first, _, _, parsed, tightValues_assigns front more _ next usable, rfl,
      capturedUser_last _ _ _ _ _ _ (by simp) last⟩, ?_⟩
  rw [mem_templateUsers template _ _ separated]
  intro read
  obtain ⟨first', parts', values, parsed', assigns, spelt, captured, scanned⟩ := read
  obtain ⟨rfl, rfl⟩ := Parts.unique _ _ _ _ _ parsed parsed'
  obtain rfl := tightValues_only front more _ first next last usable values assigns spelt captured
  have found := scanned_append front _ (by simp) (userName, next) more _ _ scanned
    (List.length_pos_iff.mp (Nat.lt_trans positive short))
  exact border_not_scanned next count positive short border more _ found

/-- Where no reading of a stem is crossed the walk returns the users of all readings, and a host
that reads as two users is neither's while the other exists. No stem of a template is crossed
unless a literal behind a placeholder overlaps itself, and where the one behind the last user
does, some stem hides a user. -/
theorem templateUsers_exact_uncrossed (template : Text) (separated : SeparatedTemplate template) :
    (∀ stem, UncrossedStem template stem →
      (∀ user, user ∈ templateUsers template stem ↔ Readable template stem user) ∧
      ∀ (compile : Text → Option (List Regex)) (hosts : HostsConfig) (host owner other : Text)
        (regex : Option Text) (more : List HostOwnership) (isUser : Text → Bool),
        (plainHost host).dropSuffix? (lowerText hosts.suffix) = some stem →
        hosts.ownership = ⟨some template, regex⟩ :: more →
        Readable template stem other → other ≠ lowerText owner → isUser other = true →
        hosts.ownedBy compile host owner isUser = false) ∧
    ∀ first parts, Parts template first parts →
      ((∀ part ∈ parts, ¬ Overlaps part.2) → ∀ stem, UncrossedStem template stem) ∧
      ∀ next, BehindLastUser parts next → Overlaps next →
        ∃ stem user, Readable template stem user ∧ user ∉ templateUsers template stem := by
  refine ⟨?_, ?_⟩
  · intro stem uncrossed
    have exact_ := fun user => mem_templateUsers_uncrossed template stem user separated uncrossed
    refine ⟨exact_, ?_⟩
    intro compile hosts host owner other regex more isUser stripped patterns read different exists_
    exact ownedBy_ambiguous template stem other ((exact_ other).mpr read) compile hosts host owner regex more
      isUser stripped patterns different exists_
  · intro first parts parsed
    refine ⟨?_, fun next => overlapping_hides template first next parts separated parsed⟩
    intro plain stem first' parts' values parsed' assigns _
    obtain ⟨rfl, rfl⟩ := Parts.unique _ _ _ _ _ parsed parsed'
    exact uncrossed_of_plain parts values plain fun value member => (assigns.2 value member).2

/-- A template with one separator between the user and the endpoint. -/
def twoPlaceholders (separator : Text) : Text :=
  '\x7b' :: (userName ++ '\x7d' :: (separator ++ '\x7b' :: ("endpoint".toList ++ ['\x7d'])))

theorem twoPlaceholders_parts (separator : Text) (noOpen : '\x7b' ∉ separator) :
    Parts (twoPlaceholders separator) [] [(userName, separator), ("endpoint".toList, [])] := by
  have endpoint := Parts.placeholder separator "endpoint".toList [] [] [] noOpen (by decide)
    (.plain [] (by simp))
  exact .placeholder [] userName _ separator _ (by simp) (by decide) endpoint

theorem twoPlaceholders_separated (separator : Text) (noOpen : '\x7b' ∉ separator) (solid : separator ≠ []) :
    SeparatedTemplate (twoPlaceholders separator) := by
  intro first parts parsed
  obtain ⟨-, rfl⟩ := Parts.unique _ _ _ _ _ (twoPlaceholders_parts separator noOpen) parsed
  exact ⟨solid, trivial⟩

theorem dash_plain : ∀ part ∈ [(userName, ['-']), ("endpoint".toList, [])], ¬ Overlaps part.2 := by
  intro part member overlaps
  obtain ⟨-, count, positive, short, -⟩ := overlaps
  simp only [List.mem_cons, List.not_mem_nil, or_false] at member
  rcases member with rfl | rfl
  · simp at short
    omega
  · simp at short

theorem templateUsers_exact_dash :
    (∀ user, user ∈ templateUsers (twoPlaceholders ['-']) "alice-bob-api".toList ↔
      Readable (twoPlaceholders ['-']) "alice-bob-api".toList user) ∧
    ∃ stem user, Readable (twoPlaceholders "-ws-".toList) stem user ∧
      user ∉ templateUsers (twoPlaceholders "-ws-".toList) stem := by
  have exact_ := templateUsers_exact_uncrossed (twoPlaceholders ['-'])
    (twoPlaceholders_separated ['-'] (by decide) (by simp))
  have hides := templateUsers_exact_uncrossed (twoPlaceholders "-ws-".toList)
    (twoPlaceholders_separated "-ws-".toList (by decide) (by simp))
  constructor
  · exact (exact_.1 _ ((exact_.2 _ _ (twoPlaceholders_parts ['-'] (by decide))).1 dash_plain _)).1
  · refine (hides.2 _ _ (twoPlaceholders_parts "-ws-".toList (by decide))).2 "-ws-".toList
      ⟨[], [("endpoint".toList, [])], rfl, ?_⟩ ⟨by decide, 3, by decide, by decide, by decide⟩
    simp only [List.mem_singleton, forall_eq]
    decide

/-- `bob-ws-ws-api` is also `bob-ws`'s endpoint `api`, which the walk does not see. -/
theorem overlapping_separator_hidden :
    ¬ ∀ template stem, SeparatedTemplate template →
      ∀ user, user ∈ templateUsers template stem ↔ Readable template stem user := by
  intro exact_
  have read : Readable (twoPlaceholders "-ws-".toList) "bob-ws-ws-api".toList "bob-ws".toList := by
    refine ⟨[], _, ["bob-ws".toList, "api".toList], twoPlaceholders_parts _ (by decide), ⟨rfl, ?_⟩,
      by decide, by decide⟩
    simp
  have member := (exact_ _ _ (twoPlaceholders_separated "-ws-".toList (by decide) (by simp)) _).mpr read
  exact absurd member (by decide +kernel)

end WeeboSi.Crd
