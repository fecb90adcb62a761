import WeeboSi.Lib.Words
import WeeboSi.ImagePolicy.ReferenceFixpoint

/-!
# The grammar of references

Source: crates/weebo-si-image-policy/src/reference.rs:50-63, 138-178, 197-410. The grammar
is the one written in the comments of the source, as languages of words: a text is read as
`[host/]path[:tag][@digest]` and each part is a word of its language. The parser accepts
more than that grammar, in one place: a path component is checked at its two ends only, so
any run of separators passes between them. The main result says for which texts the parser
accepts exactly the grammar.
-/
namespace WeeboSi.ImagePolicy
open WeeboSi.Lib
open scoped Computability

/-! ## The languages -/

/-- `[e]([i]*[e])?`. -/
def edgedWord (edge inner : Char → Bool) : Language Char :=
  oneOf edge * (1 + (oneOf inner)∗ * oneOf edge)

/-- `[a-z0-9]([a-z0-9-]*[a-z0-9])?`. -/
def hostLabel : Language Char := edgedWord isComponentEdge isHostLabelChar

/-- Labels, one optional trailing dot, an optional decimal port. -/
def hostWord : Language Char :=
  separated {['.']} hostLabel * (1 + {['.']}) * (1 + {[':']} * someOf Char.isDigit)

/-- `.`, `_`, `__` or `-+`. -/
def separatorWord : Language Char := {['.']} + {['_']} + {['_', '_']} + someOf (· == '-')

/-- The documented path component: `[a-z0-9]+` groups and the separators between them. -/
def componentWord : Language Char := separated separatorWord (someOf isComponentEdge)

/-- `[A-Za-z0-9_][A-Za-z0-9_.-]{0,127}`. -/
def tagWord : Language Char := oneOf isTagEdge * (1 + oneOf isTagChar) ^ 127

def isAlgorithmSeparator (c : Char) : Bool := ['+', '.', '_', '-'].contains c

/-- `[a-z0-9]+([+._-][a-z0-9]+)*`. -/
def algorithmWord : Language Char := separated (oneOf isAlgorithmSeparator) (someOf isComponentEdge)

/-- `algorithm:encoded`, with at least 32 encoded characters. -/
def digestWord : Language Char :=
  algorithmWord * ({[':']} * (oneOf isEncodedChar ^ 32 * (oneOf isEncodedChar)∗))

/-! ## Texts read as parts -/

structure Parts where
  host : Option Text
  path : Text
  tag : Option Text
  digest : Option Text
  deriving DecidableEq, Repr

def hostText (host : Option Text) : Text :=
  match host with
  | some host => host ++ ['/']
  | none => []

/-- `[host/]path[:tag][@digest]`. -/
def Parts.text (p : Parts) : Text :=
  hostText p.host ++ p.path ++ tagText p.tag ++ digestText p.digest

/-- Every part is a word of its language, and a host is what looks like one before a `/`. -/
structure Parts.WellFormed (component : Language Char) (p : Parts) : Prop where
  host : ∀ h ∈ p.host, isHostComponent h = true ∧ h.map Char.toLower ∈ hostWord
  hub : p.host = none → ∀ first rest, p.path = first ++ '/' :: rest → '/' ∉ first →
    isHostComponent first = false
  path : p.path ∈ separated {['/']} component
  tag : ∀ t ∈ p.tag, t ∈ tagWord
  digest : ∀ d ∈ p.digest, d ∈ digestWord

/-- The text has a reading whose path components are words of `component`. -/
def Reads (component : Language Char) (raw : Text) : Prop :=
  ∃ p : Parts, p.WellFormed component ∧ p.text = raw

/-- The documented grammar. -/
def Grammar (raw : Text) : Prop := Reads componentWord raw

/-- A gap between two letters or digits of a component: none, or a documented separator. -/
def isSeparatorRun (run : Text) : Bool :=
  run == ['.'] || run == ['_'] || run == ['_', '_'] || run.all (· == '-')

/-- Some component of a path has a gap no documented separator fills. -/
def LooseRun (path : Text) : Prop :=
  ∃ component ∈ path.splitOn '/', ∃ run ∈ component.splitOnP isComponentEdge, isSeparatorRun run = false

/-- The text is well formed but for a gap inside a path component. -/
def LooseSeparators (raw : Text) : Prop :=
  ∃ p : Parts, p.WellFormed (edgedWord isComponentEdge isComponentChar) ∧ p.text = raw ∧ LooseRun p.path

/-! ## What each language is to the parser -/

theorem mem_edgedWord (edge inner : Char → Bool) (wider : ∀ c, edge c = true → inner c = true) (s : Text) :
    s ∈ edgedWord edge inner ↔ edged edge inner s = true := by
  rw [edgedWord, mem_oneOf_mul, edged_iff]
  simp only [Language.mem_add, Language.mem_one, Language.mem_mul, mem_oneOf_kstar, mem_oneOf]
  constructor
  · rintro ⟨c, rest, rfl, hc, rfl | ⟨middle, inside, last, ⟨d, rfl, hd⟩, rfl⟩⟩
    · exact ⟨⟨c, rfl, hc⟩, ⟨c, rfl, hc⟩, by simpa using wider c hc⟩
    · refine ⟨⟨c, rfl, hc⟩, ⟨d, by rw [← List.cons_append, List.getLast?_concat], hd⟩, ?_⟩
      simp only [List.mem_cons, List.mem_append, List.not_mem_nil, or_false]
      rintro x (rfl | member | rfl)
      · exact wider x hc
      · exact inside x member
      · exact wider x hd
  · rintro ⟨⟨c, first, hc⟩, ⟨d, last, hd⟩, inside⟩
    obtain ⟨rest, rfl⟩ := List.head?_eq_some_iff.mp first
    refine ⟨c, rest, rfl, hc, ?_⟩
    rcases List.eq_nil_or_concat rest with rfl | ⟨middle, e, rfl⟩
    · exact Or.inl rfl
    · rw [List.concat_eq_append, ← List.cons_append, List.getLast?_concat] at last
      cases last
      refine Or.inr ⟨middle, ?_, [d], ⟨d, rfl, hd⟩, by simp⟩
      exact fun x member => inside x (by simp [member])

theorem isComponentEdge_label (c : Char) (h : isComponentEdge c = true) : isHostLabelChar c = true := by
  simp only [isComponentEdge, isHostLabelChar, Bool.or_eq_true] at *
  exact Or.inl h

theorem isComponentEdge_component (c : Char) (h : isComponentEdge c = true) : isComponentChar c = true := by
  simp only [isComponentEdge, isComponentChar, Bool.or_eq_true] at *
  exact Or.inl h

/-- Under the label's own characters the two edge tests agree. -/
theorem mem_hostLabel (label : Text) :
    label ∈ hostLabel ↔ edged Char.isAlphanum isHostLabelChar label = true := by
  have agree : ∀ c, isHostLabelChar c = true → (isComponentEdge c = true ↔ c.isAlphanum = true) := by
    intro c inside
    simp only [isHostLabelChar, isComponentEdge, Char.isAlphanum, isAlpha_iff, Bool.or_eq_true,
      beq_iff_eq] at *
    rcases inside with (lower | digit) | rfl
    · simp [lower]
    · simp [digit]
    · decide
  rw [hostLabel, mem_edgedWord _ _ isComponentEdge_label, edged_iff, edged_iff]
  constructor
  · rintro ⟨⟨c, first, hc⟩, ⟨d, last, hd⟩, inside⟩
    exact ⟨⟨c, first, (agree c (inside c (List.mem_of_mem_head? first))).mp hc⟩,
      ⟨d, last, (agree d (inside d (List.mem_of_getLast? last))).mp hd⟩, inside⟩
  · rintro ⟨⟨c, first, hc⟩, ⟨d, last, hd⟩, inside⟩
    exact ⟨⟨c, first, (agree c (inside c (List.mem_of_mem_head? first))).mpr hc⟩,
      ⟨d, last, (agree d (inside d (List.mem_of_getLast? last))).mpr hd⟩, inside⟩

theorem mem_hostLabels (name : Text) : name ∈ separated {['.']} hostLabel ↔ HostName name := by
  have free : ∀ label ∈ hostLabel, '.' ∉ label := by
    intro label member dot
    have inside := ((edged_iff _ _ _).mp ((mem_hostLabel label).mp member)).2.2 '.' dot
    exact absurd inside (by decide)
  rw [mem_separated '.' hostLabel free, HostName]
  simp only [mem_hostLabel]

/-- One trailing dot, where there is one, is stripped before the labels are checked. -/
theorem mem_dottedLabels (name : Text) :
    name ∈ separated {['.']} hostLabel * (1 + {['.']}) ↔ HostName (stripLast '.' name) := by
  simp only [Language.mem_mul, Language.mem_add, Language.mem_one, mem_hostLabels, mem_literal]
  constructor
  · rintro ⟨labels, named, dot, rfl | rfl, rfl⟩
    · rw [List.append_nil, HostName.stripLast labels named]
      exact named
    · rw [stripLast_append]
      exact named
  · intro named
    rcases stripLast_cases '.' name with dotted | ⟨plain, -⟩
    · exact ⟨_, named, ['.'], Or.inr rfl, dotted.symm⟩
    · rw [plain] at named
      exact ⟨name, named, [], Or.inl rfl, List.append_nil name⟩

theorem stripLast_colon (name : Text) (named : HostName (stripLast '.' name)) : ':' ∉ name := by
  rw [← mem_stripLast '.' ':' name (by decide)]
  intro colon
  rcases HostName.chars _ named ':' colon with label | dot
  · exact absurd label (by decide)
  · exact absurd dot (by decide)

theorem mem_hostWord (host : Text) :
    host ∈ hostWord ↔
      ∃ name port, cutPort host = (name, port) ∧ HostName (stripLast '.' name) ∧ Port port := by
  simp only [hostWord, Language.mem_mul (l := _ * _), Language.mem_add, Language.mem_one, mem_dottedLabels,
    mem_literal_mul, mem_someOf]
  constructor
  · rintro ⟨name, named, tail, rfl | ⟨port, numeric, rfl⟩, rfl⟩
    · refine ⟨name, none, (cutPort_eq _ _ _).mpr ⟨?_, by simp, fun _ => stripLast_colon name named⟩, named, ?_⟩
      · exact List.append_nil name
      · simp [Port]
    · refine ⟨name, some port, (cutPort_eq _ _ _).mpr ⟨rfl, ?_, by simp⟩, named, by simpa [Port] using numeric⟩
      rintro p same colon
      cases same
      exact absurd (numeric.2 ':' colon) (by decide)
  · rintro ⟨name, port, cut, named, numeric⟩
    obtain ⟨rfl, -, -⟩ := (cutPort_eq _ _ _).mp cut
    cases port with
    | none => exact ⟨name, named, [], Or.inl rfl, List.append_nil name⟩
    | some port => exact ⟨name, named, ':' :: port, Or.inr ⟨port, numeric port rfl, rfl⟩, rfl⟩

/-- A host is accepted exactly when it is a host of the grammar, whatever its case. -/
theorem normalizeHost_accepts (host : Text) :
    (∃ normal, normalizeHost (some host) = .ok normal) ↔ host.map Char.toLower ∈ hostWord := by
  rw [mem_hostWord]
  constructor
  · rintro ⟨normal, ok⟩
    obtain ⟨name, port, cut, named, numeric, -⟩ := (normalizeHost_eq_ok host normal).mp ok
    exact ⟨name, port, cut, named, numeric⟩
  · rintro ⟨name, port, cut, named, numeric⟩
    exact ⟨_, (normalizeHost_eq_ok host _).mpr ⟨name, port, cut, named, numeric, rfl⟩⟩

theorem mem_looseComponent (component : Text) :
    component ∈ edgedWord isComponentEdge isComponentChar ↔
      edged isComponentEdge isComponentChar component = true :=
  mem_edgedWord _ _ isComponentEdge_component component

theorem looseComponent_slash (component : Text)
    (member : component ∈ edgedWord isComponentEdge isComponentChar) : '/' ∉ component := by
  intro slash
  have inside := ((edged_iff _ _ _).mp ((mem_looseComponent component).mp member)).2.2 '/' slash
  exact absurd inside (by decide)

theorem mem_loosePath (path : Text) :
    path ∈ separated {['/']} (edgedWord isComponentEdge isComponentChar) ↔ PathShape path := by
  rw [mem_separated '/' _ looseComponent_slash, PathShape]
  simp only [mem_looseComponent]

theorem mem_separatorWord (run : Text) : run = [] ∨ run ∈ separatorWord ↔ isSeparatorRun run = true := by
  simp only [separatorWord, Language.mem_add, mem_literal, mem_someOf, isSeparatorRun, Bool.or_eq_true,
    beq_iff_eq, List.all_eq_true]
  by_cases empty : run = []
  · simp [empty]
  · simp [empty]

theorem separatorWord_apart (s : Text) (member : s ∈ separatorWord) :
    s ≠ [] ∧ ∀ c ∈ s, isComponentEdge c = false ∧ isComponentChar c = true := by
  simp only [separatorWord, Language.mem_add, mem_literal, mem_someOf, beq_iff_eq] at member
  rcases member with ((rfl | rfl) | rfl) | ⟨nonempty, dashes⟩
  · simp only [List.forall_mem_singleton]
    decide
  · simp only [List.forall_mem_singleton]
    decide
  · simp only [List.forall_mem_cons, List.not_mem_nil, false_implies, implies_true]
    decide
  · refine ⟨nonempty, ?_⟩
    intro c inside
    rw [dashes c inside]
    decide

/-- The documented component is the accepted one whose gaps are documented separators. -/
theorem mem_componentWord (component : Text) :
    component ∈ componentWord ↔
      component ∈ edgedWord isComponentEdge isComponentChar ∧
        ∀ run ∈ component.splitOnP isComponentEdge, isSeparatorRun run = true := by
  have apart : ∀ s ∈ separatorWord, s ≠ [] ∧ ∀ c ∈ s, isComponentEdge c = false := by
    intro s member
    obtain ⟨nonempty, outside⟩ := separatorWord_apart s member
    exact ⟨nonempty, fun c inside => (outside c inside).1⟩
  rw [componentWord, mem_groups isComponentEdge separatorWord apart, mem_looseComponent, edged_iff]
  simp only [mem_separatorWord]
  constructor
  · rintro ⟨first, last, gaps⟩
    refine ⟨⟨first, last, ?_⟩, gaps⟩
    intro c member
    cases edge : isComponentEdge c with
    | true => exact isComponentEdge_component c edge
    | false =>
      obtain ⟨run, found, inside⟩ := mem_gap isComponentEdge component c member edge
      rcases (mem_separatorWord run).mpr (gaps run found) with rfl | separator
      · cases inside
      · exact ((separatorWord_apart run separator).2 c inside).2
  · rintro ⟨⟨first, last, -⟩, gaps⟩
    exact ⟨first, last, gaps⟩

/-- A documented path is an accepted one without a loose gap. -/
theorem mem_documentedPath (path : Text) :
    path ∈ separated {['/']} componentWord ↔
      path ∈ separated {['/']} (edgedWord isComponentEdge isComponentChar) ∧ ¬ LooseRun path := by
  have documented : ∀ component ∈ componentWord, '/' ∉ component := by
    intro component member
    exact looseComponent_slash component ((mem_componentWord component).mp member).1
  rw [mem_separated '/' _ documented, mem_separated '/' _ looseComponent_slash]
  simp only [mem_componentWord, LooseRun, not_exists, not_and, Bool.not_eq_false]
  constructor
  · intro all
    exact ⟨fun part member => (all part member).1, fun part member => (all part member).2⟩
  · rintro ⟨loose, gaps⟩
    exact fun part member => ⟨loose part member, gaps part member⟩

theorem isTagChar_ascii (c : Char) (h : isTagChar c = true) : c.utf8Size = 1 := by
  simp only [isTagChar, Bool.or_eq_true, List.contains_eq_mem, List.mem_cons, List.not_mem_nil, or_false,
    decide_eq_true_eq] at h
  rcases h with alnum | rfl | rfl | rfl
  · exact isAlphanum_ascii c alnum
  all_goals rfl

theorem isTagEdge_char (c : Char) (h : isTagEdge c = true) : isTagChar c = true := by
  simp only [isTagEdge, isTagChar, Bool.or_eq_true, beq_iff_eq] at *
  rcases h with alnum | rfl
  · exact Or.inl alnum
  · decide

theorem mem_tagWord (tag : Text) : tag ∈ tagWord ↔ isTag tag = true := by
  rw [tagWord, mem_oneOf_mul]
  cases tag with
  | nil => simp [isTag]
  | cons first rest =>
    simp only [mem_optional_pow, isTag, Bool.and_eq_true, decide_eq_true_eq, List.all_eq_true]
    have bytes : isTagEdge first = true → (∀ c ∈ rest, isTagChar c = true) →
        byteLen (first :: rest) = rest.length + 1 := by
      intro edge inside
      have all : ∀ c ∈ first :: rest, isTagChar c = true :=
        List.forall_mem_cons.mpr ⟨isTagEdge_char first edge, inside⟩
      rw [byteLen_of_ascii _ fun c member => isTagChar_ascii c (all c member), List.length_cons]
    constructor
    · rintro ⟨c, tail, same, edge, short, inside⟩
      cases same
      exact ⟨by rw [bytes edge inside]; omega, edge, inside⟩
    · rintro ⟨short, edge, inside⟩
      rw [bytes edge inside] at short
      exact ⟨first, rest, rfl, edge, by omega, inside⟩

theorem isAlgorithmSeparator_outside (c : Char) (h : isAlgorithmSeparator c = true) :
    isComponentEdge c = false := by
  simp only [isAlgorithmSeparator, List.contains_eq_mem, List.mem_cons, List.not_mem_nil, or_false,
    decide_eq_true_eq] at h
  rcases h with rfl | rfl | rfl | rfl
  all_goals decide

theorem scanAlgorithm_cons (separated : Bool) (c : Char) (rest : Text) :
    scanAlgorithm separated (c :: rest) =
      if isAlgorithmSeparator c then if separated then none else scanAlgorithm true rest
      else if isComponentEdge c then scanAlgorithm false rest else none := rfl

/-- The scan of an algorithm, entered after a separator or inside a group. -/
theorem scanAlgorithm_eq_false (s : Text) :
    (scanAlgorithm true s = some false ↔ s ∈ algorithmWord) ∧
      (scanAlgorithm false s = some false ↔
        s ∈ afterGroup isComponentEdge (oneOf isAlgorithmSeparator)) := by
  induction s with
  | nil =>
    refine ⟨by simp [scanAlgorithm, algorithmWord, separated_ne_nil], ?_⟩
    rw [mem_afterGroup_absent _ _ _ (by simp)]
    simp [scanAlgorithm]
  | cons c rest ih =>
    obtain ⟨afterSeparator, insideGroup⟩ := ih
    have cut : c :: rest ∈ afterGroup isComponentEdge (oneOf isAlgorithmSeparator) ↔
        (isComponentEdge c = true ∧ rest ∈ afterGroup isComponentEdge (oneOf isAlgorithmSeparator)) ∨
          (isAlgorithmSeparator c = true ∧ rest ∈ algorithmWord) := by
      conv_lhs => rw [afterGroup_unfold, ← algorithmWord]
      rw [Language.mem_add, Language.mem_add, Language.mem_one, mem_oneOf_mul, mem_oneOf_mul]
      simp [and_assoc]
    rw [cut, scanAlgorithm_cons, scanAlgorithm_cons, algorithmWord, mem_separated_cons, ← algorithmWord,
      ← afterSeparator, ← insideGroup]
    cases separator : isAlgorithmSeparator c with
    | true => simp [isAlgorithmSeparator_outside c separator]
    | false =>
      cases edge : isComponentEdge c with
      | true => simp
      | false => simp

theorem isEncodedChar_ascii (c : Char) (h : isEncodedChar c = true) : c.utf8Size = 1 := by
  simp only [isEncodedChar, Bool.or_eq_true, List.contains_eq_mem, List.mem_cons, List.not_mem_nil, or_false,
    decide_eq_true_eq] at h
  rcases h with alnum | rfl | rfl | rfl
  · exact isAlphanum_ascii c alnum
  all_goals rfl

theorem mem_encoded (encoded : Text) :
    encoded ∈ oneOf isEncodedChar ^ 32 * (oneOf isEncodedChar)∗ ↔
      32 ≤ byteLen encoded ∧ encoded.all isEncodedChar = true := by
  have bytes : (∀ c ∈ encoded, isEncodedChar c = true) → byteLen encoded = encoded.length := by
    intro inside
    exact byteLen_of_ascii _ fun c member => isEncodedChar_ascii c (inside c member)
  rw [Language.mem_mul, List.all_eq_true]
  simp only [mem_oneOf_pow, mem_oneOf_kstar]
  constructor
  · rintro ⟨a, ⟨size, ha⟩, b, hb, rfl⟩
    have inside := List.forall_mem_append.mpr ⟨ha, hb⟩
    rw [bytes inside, List.length_append]
    exact ⟨by omega, inside⟩
  · rintro ⟨long, inside⟩
    rw [bytes inside] at long
    refine ⟨encoded.take 32, ⟨by simpa using long, ?_⟩, encoded.drop 32, ?_, List.take_append_drop 32 encoded⟩
    · exact fun c member => inside c (List.mem_of_mem_take member)
    · exact fun c member => inside c (List.mem_of_mem_drop member)

theorem algorithmWord_colon (algorithm : Text) (member : algorithm ∈ algorithmWord) : ':' ∉ algorithm := by
  intro colon
  have chars :=
    scanAlgorithm_chars algorithm true false ((scanAlgorithm_eq_false algorithm).1.mpr member) ':' colon
  exact absurd chars (by decide)

theorem mem_digestWord (digest : Text) : digest ∈ digestWord ↔ validateDigest digest = .ok () := by
  rw [digestWord, Language.mem_mul]
  simp only [mem_literal_mul, mem_encoded]
  unfold validateDigest
  constructor
  · rintro ⟨algorithm, named, tail, ⟨encoded, ⟨long, inside⟩, rfl⟩, rfl⟩
    have cut := splitOnce_append ':' algorithm encoded (algorithmWord_colon algorithm named)
    have nonempty : algorithm ≠ [] := by
      rintro rfl
      exact separated_ne_nil _ _ named
    rw [List.singleton_append, cut]
    simp only [guard_eq_ok, not_or, not_not, check_eq_ok, and_true]
    exact ⟨⟨nonempty, by omega⟩, (scanAlgorithm_eq_false algorithm).1.mpr named, inside⟩
  · intro valid
    split at valid
    · cases valid
    · rename_i algorithm encoded cut
      obtain ⟨rfl, -⟩ := (splitOnce_eq_some _ _ _ _).mp cut
      simp only [guard_eq_ok, not_or, not_not, check_eq_ok, and_true] at valid
      obtain ⟨⟨-, long⟩, scanned, inside⟩ := valid
      exact ⟨algorithm, (scanAlgorithm_eq_false algorithm).1.mp scanned, ':' :: encoded,
        ⟨encoded, ⟨by omega, inside⟩, rfl⟩, rfl⟩

/-! ## Readings and the parser's cuts -/

theorem hostWord_chars (host : Text) (member : host ∈ hostWord) :
    ∀ c ∈ host, isHostLabelChar c = true ∨ c = '.' ∨ c = ':' := by
  obtain ⟨name, port, cut, named, numeric⟩ := (mem_hostWord host).mp member
  obtain ⟨rfl, -, -⟩ := (cutPort_eq _ _ _).mp cut
  have shape : HostShape (joinPort (stripLast '.' name) port) := ⟨_, port, rfl, named, numeric⟩
  intro c inside
  by_cases dot : c = '.'
  · exact Or.inr (Or.inl dot)
  · apply HostShape.chars _ shape c
    cases port with
    | none => exact (mem_stripLast '.' c name dot).mpr inside
    | some port =>
      simp only [joinPort, List.mem_append] at inside ⊢
      exact inside.imp_left (mem_stripLast '.' c name dot).mpr

theorem host_absent (host : Text) (member : host.map Char.toLower ∈ hostWord) (d : Char)
    (letter : d.isAlpha = false) (outside : isHostLabelChar d = false ∧ d ≠ '.' ∧ d ≠ ':') : d ∉ host := by
  rw [← mem_map_toLower host d letter]
  intro inside
  rcases hostWord_chars _ member d inside with label | dot | colon
  · rw [outside.1] at label
    cases label
  · exact outside.2.1 dot
  · exact outside.2.2 colon

/-- Case does not change whether a character is legal. -/
theorem isLegalReferenceChar_of_toLower (c : Char) (h : isLegalReferenceChar c.toLower = true) :
    isLegalReferenceChar c = true := by
  by_cases upper : c.isUpper = true
  · simp [isLegalReferenceChar, Char.isAlphanum, isAlpha_iff, upper]
  · rwa [toLower_of_not_isUpper c upper] at h

theorem hostWord_legal (host : Text) (member : host.map Char.toLower ∈ hostWord) :
    ∀ c ∈ host, isLegalReferenceChar c = true := by
  intro c inside
  apply isLegalReferenceChar_of_toLower
  rcases hostWord_chars _ member c.toLower (List.mem_map_of_mem inside) with label | dot | colon
  · simp only [isHostLabelChar, Bool.or_eq_true, beq_iff_eq] at label
    rcases label with (lower | digit) | dash
    · have letter : c.toLower.isAlpha = true := (isAlpha_iff _).mpr (.inr lower)
      simp only [isLegalReferenceChar, Char.isAlphanum, letter, Bool.true_or]
    · simp [isLegalReferenceChar, Char.isAlphanum, digit]
    · rw [dash]
      decide
  · rw [dot]
    decide
  · rw [colon]
    decide

section Reading
variable (p : Parts) (formed : p.WellFormed (edgedWord isComponentEdge isComponentChar))
include formed

theorem reading_tagged : ∀ t ∈ p.tag, isTag t = true :=
  fun t member => (mem_tagWord t).mp (formed.tag t member)

theorem reading_pinned : ∀ d ∈ p.digest, validateDigest d = .ok () :=
  fun d member => (mem_digestWord d).mp (formed.digest d member)

theorem reading_splitHost : splitHost (hostText p.host ++ p.path) = .ok (p.host, p.path) := by
  have shape := (mem_loosePath p.path).mp formed.path
  rw [splitHost_eq_ok]
  cases written : p.host with
  | some host =>
    obtain ⟨explicit, named⟩ := formed.host host written
    refine Or.inr ⟨host, p.path, by simp [hostText], host_absent host named '/' (by decide) (by decide), ?_,
      PathShape.ne_nil _ shape, Or.inl ⟨explicit, rfl, rfl⟩⟩
    rintro rfl
    exact absurd explicit (by decide)
  | none =>
    rw [hostText, List.nil_append]
    cases cut : splitOnce '/' p.path with
    | none => exact Or.inl ⟨rfl, rfl, (splitOnce_eq_none _ _).mp cut⟩
    | some pair =>
      obtain ⟨first, rest⟩ := pair
      obtain ⟨join, absent⟩ := (splitOnce_eq_some _ _ _ _).mp cut
      have parts : ∀ part ∈ p.path.splitOn '/', part ≠ [] :=
        fun part member => edged_ne_nil _ _ part (shape part member)
      rw [join, splitOn_append '/' first rest absent] at parts
      refine Or.inr ⟨first, rest, join, absent, parts first (by simp), ?_,
        Or.inr ⟨formed.hub written first rest join absent, rfl, rfl⟩⟩
      rintro rfl
      exact parts [] (by simp) rfl

/-- The parser cuts a well-formed text into the parts it was joined from. -/
theorem reading_cuts :
    splitDigest p.text = .ok (hostText p.host ++ p.path ++ tagText p.tag, p.digest) ∧
      splitTag (hostText p.host ++ p.path ++ tagText p.tag) = .ok (hostText p.host ++ p.path, p.tag) := by
  have shape := (mem_loosePath p.path).mp formed.path
  obtain ⟨pathColon, pathAt⟩ := assemble_path_absent p.path shape
  refine cuts_of_name p.tag p.digest (reading_tagged p formed) (reading_pinned p formed) _ ?_ ?_ ?_
  · simp [PathShape.ne_nil _ shape]
  · rw [List.mem_append, not_or]
    refine ⟨?_, pathAt⟩
    cases written : p.host with
    | none => simp [hostText]
    | some host =>
      have absent := host_absent host (formed.host host written).2 '@' (by decide) (by decide)
      simp [hostText, absent]
  · intro colon
    apply pathColon
    apply finalSegment_mem
    cases written : p.host with
    | none => simpa [written, hostText] using colon
    | some host => simpa [written, hostText, finalSegment_after] using colon

theorem reading_legal : ∀ c ∈ p.text, isLegalReferenceChar c = true := by
  intro c member
  simp only [Parts.text, List.mem_append] at member
  rcases member with ((inHost | inPath) | inTag) | inDigest
  · cases written : p.host with
    | none => simp [written, hostText] at inHost
    | some host =>
      simp only [written, hostText, List.mem_append, List.mem_singleton] at inHost
      rcases inHost with inside | rfl
      · exact hostWord_legal host (formed.host host written).2 c inside
      · decide
  · exact path_legal p.path ((mem_loosePath p.path).mp formed.path) c inPath
  · exact tagText_legal p.tag (reading_tagged p formed) c inTag
  · exact digestText_legal p.digest (reading_pinned p formed) c inDigest

theorem reading_parses (fits : byteLen p.text ≤ maxReferenceLen) :
    ∃ r, ImageReference.parse p.text = .ok r := by
  have shape := (mem_loosePath p.path).mp formed.path
  obtain ⟨hdigest, htag⟩ := reading_cuts p formed
  have named : ∃ normal, normalizeHost p.host = .ok normal := by
    cases written : p.host with
    | none => exact ⟨defaultHost, rfl⟩
    | some host => exact (normalizeHost_accepts host).mpr (formed.host host written).2
  obtain ⟨host, hhost⟩ := named
  have nonempty : p.text ≠ [] := by
    simp [Parts.text, PathShape.ne_nil _ shape]
  have hpath := (normalizePath_eq_ok host p.path _).mpr ⟨shape, rfl⟩
  exact ⟨⟨host, _, keptTag p.digest p.tag, p.digest⟩, (parse_eq_ok _ _).mpr ⟨nonempty, fits,
    reading_legal p formed, _, _, _, _, _, hdigest, htag, reading_splitHost p formed, hhost, hpath,
    reading_tagged p formed, rfl⟩⟩

/-- A text has one reading only. -/
theorem reading_unique (q : Parts) (other : q.WellFormed (edgedWord isComponentEdge isComponentChar))
    (same : q.text = p.text) : q = p := by
  obtain ⟨hdigest, htag⟩ := reading_cuts p formed
  obtain ⟨hdigest', htag'⟩ := reading_cuts q other
  rw [same, hdigest, Except.ok.injEq, Prod.mk.injEq] at hdigest'
  rw [← hdigest'.1, htag, Except.ok.injEq, Prod.mk.injEq] at htag'
  have hhost := reading_splitHost q other
  rw [← htag'.1, reading_splitHost p formed, Except.ok.injEq, Prod.mk.injEq] at hhost
  obtain ⟨qhost, qpath, qtag, qdigest⟩ := q
  simp only at *
  obtain ⟨rfl, rfl⟩ := hhost
  rw [← htag'.2, ← hdigest'.2]

end Reading

/-- What parses has a reading. -/
theorem parse_reads (raw : Text) (r : ImageReference) (parsed : ImageReference.parse raw = .ok r) :
    Reads (edgedWord isComponentEdge isComponentChar) raw := by
  obtain ⟨-, -, -, nameAndTag, name, tag, host, path, hdigest, htag, hsplit, hhost, hpath, tagged, -⟩ :=
    (parse_eq_ok raw r).mp parsed
  have shape := ((normalizePath_eq_ok _ _ _).mp hpath).1
  have named : ∀ h ∈ host, h.map Char.toLower ∈ hostWord := by
    rintro h written
    cases written
    exact (normalizeHost_accepts h).mp ⟨_, hhost⟩
  have joined : name = hostText host ++ path ∧ (∀ h ∈ host, isHostComponent h = true) ∧
      (host = none → ∀ first rest, path = first ++ '/' :: rest → '/' ∉ first →
        isHostComponent first = false) := by
    rcases (splitHost_eq_ok _ _ _).mp hsplit with
      ⟨rfl, rfl, absent⟩ | ⟨first, rest, rfl, absent, -, -, ⟨explicit, rfl, rfl⟩ | ⟨bare, rfl, rfl⟩⟩
    · refine ⟨rfl, by simp, ?_⟩
      rintro - first rest rfl
      simp at absent
    · exact ⟨by simp [hostText], by simpa using explicit, by simp⟩
    · refine ⟨rfl, by simp, ?_⟩
      rintro - first' rest' join absent'
      have cut := splitOnce_append '/' first' rest' absent'
      rw [← join, splitOnce_append '/' first rest absent] at cut
      cases cut
      exact bare
  have version : nameAndTag = name ++ tagText tag := by
    rcases (splitTag_eq_ok _ _ _).mp htag with ⟨rfl, rfl, -⟩ | ⟨t, rfl, rfl, -⟩
    · simp [tagText]
    · rfl
  have whole : raw = nameAndTag ++ digestText r.digest ∧ ∀ d ∈ r.digest, validateDigest d = .ok () := by
    rcases (splitDigest_eq_ok _ _ _).mp hdigest with ⟨none, same, -⟩ | ⟨d, written, join, -, -, -, valid⟩
    · simp [none, same, digestText]
    · rw [written]
      exact ⟨join, by simpa using valid⟩
  refine ⟨⟨host, path, tag, r.digest⟩, ⟨?_, joined.2.2, (mem_loosePath path).mpr shape, ?_, ?_⟩, ?_⟩
  · exact fun h written => ⟨joined.2.1 h written, named h written⟩
  · exact fun t written => (mem_tagWord t).mpr (tagged t written)
  · exact fun d written => (mem_digestWord d).mpr (whole.2 d written)
  · rw [whole.1, version, joined.1]
    rfl

/-! ## The parser against the grammar -/

/-- The parser accepts the grammar with looser components. -/
theorem parse_accepts_iff (raw : Text) (fits : byteLen raw ≤ maxReferenceLen) :
    (∃ r, ImageReference.parse raw = .ok r) ↔ Reads (edgedWord isComponentEdge isComponentChar) raw := by
  constructor
  · rintro ⟨r, parsed⟩
    exact parse_reads raw r parsed
  · rintro ⟨p, formed, rfl⟩
    exact reading_parses p formed fits

/-- A reading is documented exactly when it is accepted and has no loose gap. -/
theorem wellFormed_documented_iff (p : Parts) :
    p.WellFormed componentWord ↔
      p.WellFormed (edgedWord isComponentEdge isComponentChar) ∧ ¬ LooseRun p.path := by
  constructor
  · rintro ⟨host, hub, path, tag, digest⟩
    obtain ⟨loose, gaps⟩ := (mem_documentedPath p.path).mp path
    exact ⟨⟨host, hub, loose, tag, digest⟩, gaps⟩
  · rintro ⟨⟨host, hub, path, tag, digest⟩, gaps⟩
    exact ⟨host, hub, (mem_documentedPath p.path).mpr ⟨path, gaps⟩, tag, digest⟩

/-- No text of the documented grammar has a loose gap in another reading. -/
theorem grammar_tight (raw : Text) (documented : Grammar raw) : ¬ LooseSeparators raw := by
  obtain ⟨q, formedQ, rfl⟩ := documented
  obtain ⟨loose, noGap⟩ := (wellFormed_documented_iff q).mp formedQ
  rintro ⟨p, formed, same, gap⟩
  rw [reading_unique q loose p formed same] at gap
  exact noGap gap

/-- The parser accepts exactly the documented grammar, except on texts with a loose gap. -/
theorem parse_grammar_iff (raw : Text) (fits : byteLen raw ≤ maxReferenceLen) :
    ((∃ r, ImageReference.parse raw = .ok r) ↔ Grammar raw) ↔ ¬ LooseSeparators raw := by
  rw [parse_accepts_iff raw fits]
  constructor
  · rintro agree ⟨p, formed, rfl, gap⟩
    exact grammar_tight p.text (agree.mp ⟨p, formed, rfl⟩) ⟨p, formed, rfl, gap⟩
  · intro noLoose
    constructor
    · rintro ⟨p, formed, rfl⟩
      refine ⟨p, (wellFormed_documented_iff p).mpr ⟨formed, ?_⟩, rfl⟩
      exact fun gap => noLoose ⟨p, formed, rfl, gap⟩
    · rintro ⟨p, documented, rfl⟩
      exact ⟨p, ((wellFormed_documented_iff p).mp documented).1, rfl⟩

theorem parse_grammar_iff_tagged :
    byteLen "quay.io/eclipse/che--traefik:v2".toList ≤ maxReferenceLen ∧
      (((∃ r, ImageReference.parse "quay.io/eclipse/che--traefik:v2".toList = .ok r) ↔
          Grammar "quay.io/eclipse/che--traefik:v2".toList) ↔
        ¬ LooseSeparators "quay.io/eclipse/che--traefik:v2".toList) :=
  ⟨by decide, parse_grammar_iff _ (by decide)⟩

theorem loose_dots : LooseSeparators "a..b".toList := by
  refine ⟨⟨none, "a..b".toList, none, none⟩, ⟨by simp, ?_, ?_, by simp, by simp⟩, rfl, ?_⟩
  · rintro - first rest join
    change "a..b".toList = first ++ '/' :: rest at join
    have slash : '/' ∈ "a..b".toList := by
      rw [join]
      simp
    exact absurd slash (by decide)
  · refine (mem_loosePath _).mpr ?_
    unfold PathShape
    decide
  · exact ⟨"a..b".toList, by decide, "..".toList, by decide, by decide⟩

/-- Two dots between groups are no separator of the grammar, and are accepted. -/
theorem parse_beyond_grammar :
    ¬ ∀ raw : Text, byteLen raw ≤ maxReferenceLen →
      ((∃ r, ImageReference.parse raw = .ok r) ↔ Grammar raw) := by
  intro agree
  have parsed : ImageReference.parse "a..b".toList =
      .ok ⟨"docker.io".toList, "library/a..b".toList, some "latest".toList, none⟩ := by decide
  exact grammar_tight _ ((agree _ (by decide)).mp ⟨_, parsed⟩) loose_dots

end WeeboSi.ImagePolicy
