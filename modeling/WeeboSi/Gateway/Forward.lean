import Mathlib.Data.Bool.AllAny
import WeeboSi.EndpointAuth.Policy
import WeeboSi.Lib.Uri

/-!
# The backend of a reverse-proxied endpoint

Source: bins/endpoint-gateway/src/proxy.rs:156-209 and
crates/weebo-si-endpoint-auth/src/policy.rs:245-263. The address is joined from the recorded
service, the namespace and the request target, and split again by the URI parser.
-/
namespace WeeboSi.Gateway
open WeeboSi.Lib
open WeeboSi.EndpointAuth

/-- The text `forward` parses: a request without a target asks for the root. -/
def forwardText (upstream : Text) (asked : Option PathAndQuery) : Text :=
  upstream ++ (asked.map PathAndQuery.text).getD ['/']

/-! ## What the proxy may talk to -/

def isLabelChar (c : Char) : Bool := c.isAlphanum || c == '-'

/-- One label of a host name. -/
def DnsLabel (label : Text) : Prop :=
  label ≠ [] ∧ label.length ≤ 63 ∧ label.all isLabelChar ∧
    label.head? ≠ some '-' ∧ label.getLast? ≠ some '-'

instance (label : Text) : Decidable (DnsLabel label) :=
  inferInstanceAs (Decidable (label ≠ [] ∧ label.length ≤ 63 ∧ label.all isLabelChar ∧
    label.head? ≠ some '-' ∧ label.getLast? ≠ some '-'))

/-- The request reaches a service of the namespace, on the recorded port and as it was asked. -/
structure Confined (uri : Uri) (namespaceName : NamespaceName) (port : Nat) (asked : PathAndQuery) :
    Prop where
  host : ∃ authority label, uri.authority = some authority ∧ DnsLabel label ∧
    authority.host = label ++ '.' :: namespaceName ++ ".svc".toList ∧
    authority.port.bind parseU16 = some port ∧ authority.userinfo = none
  path : uri.path = asked.path
  query : uri.query = asked.query

/-- What the annotation records before its last colon. -/
def recordedService (raw : Text) : Text := ((rsplitOnce ':' (trim raw)).map Prod.fst).getD []

/-- The recorded text already spells the whole address of this very request, and leaves what
the gateway appends to the fragment. -/
def SpellsRequest (service : Text) (namespaceName : NamespaceName) (port : Nat) (asked : PathAndQuery) :
    Prop :=
  ∃ label digits rest, DnsLabel label ∧ parseU16 digits = some port ∧
    service = label ++ '.' :: namespaceName ++ ".svc:".toList ++ digits ++ asked.text ++ '#' :: rest

theorem recordedService_eq (raw : Text) (upstream : Upstream)
    (recorded : Upstream.parse raw = some upstream) : upstream.service = recordedService raw := by
  unfold Upstream.parse at recorded
  unfold recordedService
  cases cut : rsplitOnce ':' (trim raw) with
  | none => simp [cut] at recorded
  | some pair =>
    obtain ⟨service, port⟩ := pair
    simp only [cut, Option.bind_eq_bind, Option.bind_some] at recorded
    cases parsed : parseU16 port with
    | none => simp [parsed] at recorded
    | some number =>
      simp only [parsed, Option.bind_some] at recorded
      split at recorded
      · cases recorded
      · split at recorded
        · cases recorded
          rfl
        · cases recorded

/-! ## Characters -/

theorem label_plain (label : Text) (valid : DnsLabel label) (c : Char) (other : isLabelChar c = false) :
    c ∉ label := by
  intro member
  have spelt := List.all_eq_true.mp valid.2.2.1 c member
  rw [other] at spelt
  cases spelt

/-- Reading a port without a sign. -/
def parseDigits (digits : Text) : Option Nat :=
  if digits ≠ [] ∧ digits.all Char.isDigit ∧ decimal digits < 2 ^ 16 then some (decimal digits) else none

theorem parseU16_signed (rest : Text) : parseU16 ('+' :: rest) = parseDigits rest := rfl

theorem parseU16_unsigned (raw : Text) (plain : raw.head? ≠ some '+') :
    parseU16 raw = parseDigits raw := by
  cases raw with
  | nil => rfl
  | cons c rest =>
    have other : c ≠ '+' := fun same => plain (by simp [same])
    simp [parseU16, parseDigits, other]

theorem parseDigits_spelt (digits : Text) (number : Nat) (parsed : parseDigits digits = some number) :
    ∀ c ∈ digits, c.isDigit = true := by
  unfold parseDigits at parsed
  split at parsed
  · rename_i accepted
    exact List.all_eq_true.mp accepted.2.1
  · cases parsed

/-- A port that reads back is spelt with digits behind an optional sign. -/
theorem parseU16_spelt (raw : Text) (number : Nat) (parsed : parseU16 raw = some number) :
    ∀ c ∈ raw, c = '+' ∨ c.isDigit = true := by
  intro c member
  by_cases sign : raw.head? = some '+'
  · obtain ⟨rest, rfl⟩ := List.head?_eq_some_iff.mp sign
    rw [parseU16_signed] at parsed
    rcases List.mem_cons.mp member with first | later
    · exact Or.inl first
    · exact Or.inr (parseDigits_spelt rest number parsed c later)
  · rw [parseU16_unsigned raw sign] at parsed
    exact Or.inr (parseDigits_spelt raw number parsed c member)

theorem parseU16_plain (raw : Text) (number : Nat) (parsed : parseU16 raw = some number) (c : Char)
    (other : c ≠ '+' ∧ c.isDigit = false) : c ∉ raw := by
  intro member
  rcases parseU16_spelt raw number parsed c member with sign | digit
  · exact other.1 sign
  · rw [other.2] at digit
    cases digit

theorem decimal_toDigits (number : Nat) : decimal (Nat.toDigits 10 number) = number := by
  have back := Nat.ofDigitChars_ten_toDigits (n := number)
  rw [Nat.ofDigitChars_eq_foldl] at back
  simpa only [decimal, Nat.mul_comm] using back

theorem toDigits_isDigit (number : Nat) : ∀ c ∈ Nat.toDigits 10 number, c.isDigit = true :=
  fun _ member => Nat.isDigit_of_mem_toDigits (by decide) (by decide) member

/-- A port in decimal reads back. -/
theorem parseU16_toDigits (number : Nat) (fits : number < 2 ^ 16) :
    parseU16 (Nat.toDigits 10 number) = some number := by
  have spelt := toDigits_isDigit number
  have plain : (Nat.toDigits 10 number).head? ≠ some '+' := by
    intro sign
    have digit := spelt '+' (List.mem_of_mem_head? sign)
    cases digit
  rw [parseU16_unsigned _ plain, parseDigits, decimal_toDigits,
    if_pos ⟨Nat.toDigits_ne_nil, List.all_eq_true.mpr spelt, fits⟩]

/-! ## Splitting the address again -/

/-- What the gateway writes between the service and the request target. -/
def addressTail (namespaceName : NamespaceName) (port : Nat) : Text :=
  '.' :: namespaceName ++ ".svc:".toList ++ Nat.toDigits 10 port

theorem forwardText_eq (upstream : Upstream) (namespaceName : NamespaceName) (asked : PathAndQuery) :
    forwardText (upstream.url namespaceName) (some asked) =
      "http".toList ++ ':' :: '/' :: '/' :: (upstream.service ++
        (addressTail namespaceName upstream.port ++ asked.text)) := by
  have scheme : "http://".toList = "http".toList ++ [':', '/', '/'] := rfl
  unfold forwardText EndpointAuth.Upstream.url addressTail
  rw [scheme]
  generalize "http".toList = http
  generalize ".svc:".toList = suffix
  simp

theorem not_isDigit (c : Char) (other : isLabelChar c = false) : c.isDigit = false := by
  simp only [isLabelChar, Char.isAlphanum, Bool.or_eq_false_iff] at other
  exact other.1.2

theorem svc_plain (c : Char) (other : isLabelChar c = false) (dot : c ≠ '.') : c ∉ ".svc".toList := by
  have spelt : ∀ d ∈ ".svc".toList, isLabelChar d = true ∨ d = '.' :=
    List.all_iff_forall_prop.mp (by decide)
  intro member
  rcases spelt c member with inLabel | isDot
  · rw [other] at inLabel
    cases inLabel
  · exact dot isDot

/-- No character of the tail is a delimiter, an at sign or a bracket. -/
theorem addressTail_plain (namespaceName : NamespaceName) (port : Nat) (name : DnsLabel namespaceName)
    (c : Char) (other : isLabelChar c = false) (dot : c ≠ '.') (colon : c ≠ ':') :
    c ∉ addressTail namespaceName port := by
  have suffix : ".svc:".toList = ".svc".toList ++ [':'] := rfl
  rw [addressTail, suffix]
  intro member
  simp only [List.cons_append, List.mem_cons, List.mem_append, List.not_mem_nil, or_false] at member
  rcases member with first | ((inName | inSuffix | last) | inPort)
  · exact dot first
  · exact label_plain namespaceName name c other inName
  · exact svc_plain c other dot inSuffix
  · exact colon last
  · have digit := toDigits_isDigit port c inPort
    rw [not_isDigit c other] at digit
    cases digit

/-- An authority that names a service of the namespace. -/
def addressOf (label : Text) (namespaceName : NamespaceName) (digits : Text) : Text :=
  (label ++ '.' :: namespaceName ++ ".svc".toList) ++ ':' :: digits

theorem append_suffix (label : Text) (namespaceName : NamespaceName) (digits : Text) :
    label ++ '.' :: namespaceName ++ ".svc:".toList ++ digits = addressOf label namespaceName digits := by
  have suffix : ".svc:".toList = ".svc".toList ++ [':'] := rfl
  unfold addressOf
  rw [suffix]
  generalize ".svc".toList = svc
  simp

theorem addressOf_plain (label : Text) (namespaceName : NamespaceName) (digits : Text) (port : Nat)
    (named : DnsLabel label) (name : DnsLabel namespaceName) (parsed : parseU16 digits = some port)
    (c : Char) (other : isLabelChar c = false) (dot : c ≠ '.') (colon : c ≠ ':') (plus : c ≠ '+') :
    c ∉ addressOf label namespaceName digits := by
  simp only [addressOf, List.mem_append, List.mem_cons, not_or]
  exact ⟨⟨⟨label_plain label named c other, dot, label_plain namespaceName name c other⟩,
    svc_plain c other dot⟩, colon, parseU16_plain digits port parsed c ⟨plus, not_isDigit c other⟩⟩

/-- Which authorities name a service of the namespace on a port. -/
theorem authority_names_iff (raw : Text) (namespaceName : NamespaceName) (port : Nat)
    (name : DnsLabel namespaceName) :
    (∃ authority label, some (Authority.split raw) = some authority ∧ DnsLabel label ∧
      authority.host = label ++ '.' :: namespaceName ++ ".svc".toList ∧
      authority.port.bind parseU16 = some port ∧ authority.userinfo = none) ↔
    ∃ label digits, DnsLabel label ∧ parseU16 digits = some port ∧
      raw = addressOf label namespaceName digits := by
  constructor
  · rintro ⟨authority, label, same, named, host, number, userinfo⟩
    cases same
    have plain := (Authority.split_userinfo raw).mp userinfo
    rw [Authority.split_plain raw plain] at host number
    obtain ⟨digits, cut, parsed⟩ := Option.bind_eq_some_iff.mp number
    have back := splitHostPort_eq raw (splitHostPort raw).1 digits (Prod.ext rfl cut)
    refine ⟨label, digits, named, parsed, ?_⟩
    calc raw = (splitHostPort raw).1 ++ ':' :: digits := back
      _ = addressOf label namespaceName digits := congrArg (· ++ ':' :: digits) host
  · rintro ⟨label, digits, named, parsed, rfl⟩
    have at_ : '@' ∉ addressOf label namespaceName digits :=
      addressOf_plain label namespaceName digits port named name parsed '@' (by decide) (by decide)
        (by decide) (by decide)
    have colon := parseU16_plain digits port parsed ':' (by decide)
    have bracket := parseU16_plain digits port parsed ']' (by decide)
    refine ⟨_, label, rfl, named, ?_⟩
    rw [Authority.split_plain _ at_, addressOf, splitHostPort_append _ _ colon bracket]
    exact ⟨rfl, parsed, rfl⟩

theorem http_plain : ∀ c ∈ "http".toList, isUriDelim c = false ∧ c ≠ ':' :=
  List.all_iff_forall_prop.mp (by decide)

theorem delim_stops (c : Char) (delim : isUriDelim c = true) :
    isLabelChar c = false ∧ c ≠ '.' ∧ c ≠ ':' ∧ c ≠ '+' := by
  simp only [isUriDelim, Bool.or_eq_true, beq_iff_eq] at delim
  rcases delim with (rfl | rfl) | rfl <;> decide

theorem addressOf_delim_free (label : Text) (namespaceName : NamespaceName) (digits : Text) (port : Nat)
    (named : DnsLabel label) (name : DnsLabel namespaceName) (parsed : parseU16 digits = some port) :
    ∀ c ∈ addressOf label namespaceName digits, isUriDelim c = false := by
  intro c member
  cases delim : isUriDelim c with
  | false => rfl
  | true =>
    obtain ⟨other, dot, colon, plus⟩ := delim_stops c delim
    exact absurd member (addressOf_plain label namespaceName digits port named name parsed c other dot
      colon plus)

/-- A target that starts the rest of the address is split off it unchanged. -/
theorem split_target (asked : PathAndQuery) :
    splitQuery (dropFragment asked.text) = (asked.path, asked.query) := by
  rw [dropFragment_plain _ asked.text_plain]
  exact splitQuery_joinQuery _ _ asked.plainPath.1

/-- The rest of an address splits into the target exactly where it is the target, up to a fragment. -/
theorem split_target_iff (rest : Text) (asked : PathAndQuery) :
    ((splitQuery (dropFragment rest)).1 = asked.path ∧ (splitQuery (dropFragment rest)).2 = asked.query) ↔
      rest = asked.text ∨ ∃ fragment, rest = asked.text ++ '#' :: fragment := by
  constructor
  · rintro ⟨path, query⟩
    have kept : dropFragment rest = asked.text := by
      rw [← joinQuery_splitQuery (dropFragment rest), path, query]
      rfl
    have cases_ := dropFragment_cases rest
    rw [kept] at cases_
    exact cases_
  · rintro (rfl | ⟨fragment, rfl⟩)
    · rw [split_target]
      exact ⟨rfl, rfl⟩
    · have cut := splitQuery_joinQuery asked.path asked.query asked.plainPath.1
      rw [dropFragment_append _ _ asked.text_plain, PathAndQuery.text, cut]
      exact ⟨rfl, rfl⟩

/-- An address that is cut at its first delimiter. -/
theorem confined_split_iff (authority rest : Text) (namespaceName : NamespaceName) (port : Nat)
    (asked : PathAndQuery) (name : DnsLabel namespaceName)
    (plain : ∀ c ∈ authority, isUriDelim c = false) (stops : rest.head?.any isUriDelim = true) :
    Confined (Uri.split ("http".toList ++ ':' :: '/' :: '/' :: (authority ++ rest))) namespaceName port
        asked ↔
      (∃ label digits, DnsLabel label ∧ parseU16 digits = some port ∧
        authority = addressOf label namespaceName digits) ∧
      (rest = asked.text ∨ ∃ fragment, rest = asked.text ++ '#' :: fragment) := by
  rw [Uri.split_eq "http".toList authority rest (by decide) http_plain plain stops,
    ← authority_names_iff authority namespaceName port name, ← split_target_iff rest asked]
  constructor
  · intro confined
    exact ⟨confined.host, confined.path, confined.query⟩
  · rintro ⟨host, path, query⟩
    exact ⟨host, path, query⟩

theorem addressOf_inj (a b : Text) (namespaceName : NamespaceName) (d e : Text)
    (plainD : ':' ∉ d) (plainE : ':' ∉ e)
    (same : addressOf a namespaceName d = addressOf b namespaceName e) : a = b := by
  have cutA := rsplitOnce_append ':' (a ++ '.' :: namespaceName ++ ".svc".toList) d plainD
  have cutB := rsplitOnce_append ':' (b ++ '.' :: namespaceName ++ ".svc".toList) e plainE
  unfold addressOf at same
  rw [same, cutB] at cutA
  have hosts := (Prod.mk.inj (Option.some.inj cutA)).1
  rw [List.append_assoc, List.append_assoc] at hosts
  exact (List.append_cancel_right hosts).symm

/-- What fills a prefix up to a `#` that the appended text does not have. -/
theorem fragment_within (a tail target fragment : Text) (plainTail : '#' ∉ tail)
    (plainTarget : '#' ∉ target) (same : a ++ tail = target ++ '#' :: fragment) :
    ∃ rest, a = target ++ '#' :: rest := by
  cases cut : splitOnce '#' a with
  | none =>
    have absent := (splitOnce_eq_none _ _).mp cut
    have member : '#' ∈ a ++ tail := by
      rw [same]
      simp
    rcases List.mem_append.mp member with inA | inTail
    · exact absurd inA absent
    · exact absurd inTail plainTail
  | some pair =>
    obtain ⟨before, rest⟩ := pair
    obtain ⟨rfl, absent⟩ := (splitOnce_eq_some _ _ _ _).mp cut
    rw [List.append_assoc, List.cons_append] at same
    have left := splitOnce_append '#' before (rest ++ tail) absent
    rw [same, splitOnce_append '#' target fragment plainTarget] at left
    have first := (Prod.mk.inj (Option.some.inj left)).1
    exact ⟨rest, by rw [first]⟩

theorem text_stops (asked : PathAndQuery) (more : Text) :
    (asked.text ++ more).head?.any isUriDelim = true := by
  rw [List.head?_append, asked.text_head]
  rfl

theorem first_delim (s : Text) :
    (∀ c ∈ s, isUriDelim c = false) ∨
      ∃ before d after, s = before ++ d :: after ∧ isUriDelim d = true ∧
        ∀ c ∈ before, isUriDelim c = false := by
  induction s with
  | nil => exact Or.inl (by simp)
  | cons c s ih =>
    cases delim : isUriDelim c with
    | true => exact Or.inr ⟨[], c, s, rfl, delim, by simp⟩
    | false =>
      rcases ih with plain | ⟨before, d, after, rfl, stop, plain⟩
      · exact Or.inl (List.forall_mem_cons.mpr ⟨delim, plain⟩)
      · exact Or.inr ⟨c :: before, d, after, rfl, stop, List.forall_mem_cons.mpr ⟨delim, plain⟩⟩

section Address
variable (service : Text) (namespaceName : NamespaceName) (port : Nat) (asked : PathAndQuery)

/-- The address of a service of the namespace is confined to it. -/
theorem confined_of_label (name : DnsLabel namespaceName) (fits : port < 2 ^ 16)
    (named : DnsLabel service) :
    Confined (Uri.split ("http".toList ++ ':' :: '/' :: '/' ::
      (service ++ (addressTail namespaceName port ++ asked.text)))) namespaceName port asked := by
  have parsed := parseU16_toDigits port fits
  have joined : service ++ addressTail namespaceName port =
      addressOf service namespaceName (Nat.toDigits 10 port) := by
    rw [← append_suffix, addressTail]
    simp only [List.append_assoc]
  have plain := addressOf_delim_free service namespaceName _ port named name parsed
  have stops := text_stops asked []
  rw [List.append_nil] at stops
  rw [← List.append_assoc, joined, confined_split_iff _ _ _ _ _ name plain stops]
  exact ⟨⟨service, _, named, parsed, rfl⟩, Or.inl rfl⟩

theorem confined_of_spelt (name : DnsLabel namespaceName)
    (spelt : SpellsRequest service namespaceName port asked) :
    Confined (Uri.split ("http".toList ++ ':' :: '/' :: '/' ::
      (service ++ (addressTail namespaceName port ++ asked.text)))) namespaceName port asked := by
  obtain ⟨label, digits, rest, named, parsed, rfl⟩ := spelt
  have plain := addressOf_delim_free label namespaceName digits port named name parsed
  rw [append_suffix, List.append_assoc, List.append_assoc,
    confined_split_iff _ _ _ _ _ name plain (text_stops asked _)]
  exact ⟨⟨label, digits, named, parsed, rfl⟩, Or.inr ⟨_, rfl⟩⟩

/-- Without a delimiter the whole service is the first label of the host. -/
theorem label_of_confined (name : DnsLabel namespaceName)
    (plain : ∀ c ∈ service, isUriDelim c = false)
    (confined : Confined (Uri.split ("http".toList ++ ':' :: '/' :: '/' ::
      (service ++ (addressTail namespaceName port ++ asked.text)))) namespaceName port asked) :
    DnsLabel service := by
  have plainTail : ∀ c ∈ addressTail namespaceName port, isUriDelim c = false := by
    intro c member
    cases delim : isUriDelim c with
    | false => rfl
    | true =>
      obtain ⟨other, dot, colon, _⟩ := delim_stops c delim
      exact absurd member (addressTail_plain namespaceName port name c other dot colon)
  have stops := text_stops asked []
  rw [List.append_nil] at stops
  rw [← List.append_assoc, confined_split_iff _ _ _ _ _ name
    (List.forall_mem_append.mpr ⟨plain, plainTail⟩) stops] at confined
  obtain ⟨⟨label, digits, named, parsed, same⟩, _⟩ := confined
  have joined : addressOf service namespaceName (Nat.toDigits 10 port) =
      addressOf label namespaceName digits := by
    rw [← same, ← append_suffix, addressTail]
    simp only [List.append_assoc]
  have colon : ':' ∉ Nat.toDigits 10 port := by
    intro member
    have digit := toDigits_isDigit port ':' member
    cases digit
  have label_ := addressOf_inj service label namespaceName _ digits colon
    (parseU16_plain digits port parsed ':' (by decide)) joined
  rw [label_]
  exact named

/-- With a delimiter the address ends inside the service. -/
theorem spelt_of_confined (name : DnsLabel namespaceName) (before after : Text) (d : Char)
    (delim : isUriDelim d = true) (plain : ∀ c ∈ before, isUriDelim c = false)
    (confined : Confined (Uri.split ("http".toList ++ ':' :: '/' :: '/' ::
      ((before ++ d :: after) ++ (addressTail namespaceName port ++ asked.text)))) namespaceName port
      asked) :
    SpellsRequest (before ++ d :: after) namespaceName port asked := by
  rw [List.append_assoc, confined_split_iff _ _ _ _ _ name plain (by simp [delim])] at confined
  obtain ⟨⟨label, digits, named, parsed, rfl⟩, target⟩ := confined
  have plainTail : '#' ∉ addressTail namespaceName port ++ asked.text := by
    rw [List.mem_append, not_or]
    exact ⟨addressTail_plain namespaceName port name '#' (by decide) (by decide) (by decide),
      asked.text_plain⟩
  rcases target with whole | ⟨fragment, cut⟩
  · have lengths := congrArg List.length whole
    simp only [List.length_append, List.length_cons] at lengths
    omega
  · obtain ⟨rest, within⟩ := fragment_within _ _ _ _ plainTail asked.text_plain cut
    refine ⟨label, digits, rest, named, parsed, ?_⟩
    rw [within, append_suffix, List.append_assoc]

end Address

/-- The proxy stays in the endpoint's namespace exactly when the recorded service is one DNS
label, or spells the address of this very request before a `#`. -/
theorem forward_confined_iff (parse : Text → Option Uri)
    (standard : ∀ text uri, parse text = some uri → uri = Uri.split text)
    (raw : Text) (namespaceName : NamespaceName) (asked : PathAndQuery) (upstream : Upstream) (uri : Uri)
    (name : DnsLabel namespaceName) (recorded : Upstream.parse raw = some upstream)
    (parsed : parse (forwardText (upstream.url namespaceName) (some asked)) = some uri) :
    Confined uri namespaceName upstream.port asked ↔
      DnsLabel (recordedService raw) ∨
        SpellsRequest (recordedService raw) namespaceName upstream.port asked := by
  rw [standard _ _ parsed, forwardText_eq, ← recordedService_eq raw upstream recorded]
  constructor
  · intro confined
    rcases first_delim upstream.service with plain | ⟨before, d, after, cut, delim, plain⟩
    · exact Or.inl (label_of_confined _ _ _ _ name plain confined)
    · rw [cut] at confined ⊢
      exact Or.inr (spelt_of_confined _ _ _ name before after d delim plain confined)
  · rintro (named | spelt)
    · exact confined_of_label _ _ _ _ name upstream.fits.2 named
    · exact confined_of_spelt _ _ _ _ name spelt

def rootTarget : PathAndQuery := ⟨['/'], none, rfl, by decide, by simp⟩

/-- A service of the namespace. -/
theorem forward_confined_iff_service :
    Confined (Uri.split "http://web.alice.svc:3000/".toList) "alice".toList 3000 rootTarget := by
  have recorded : Upstream.parse "web:3000".toList = some ⟨"web".toList, 3000, by decide⟩ := by
    decide +kernel
  exact (forward_confined_iff (fun text => some (Uri.split text))
    (fun _ _ same => (Option.some.inj same).symm) "web:3000".toList "alice".toList rootTarget _ _ (by decide)
    recorded (by decide +kernel)).mpr (Or.inl (by decide +kernel))

/-- A slash before the last colon ends the authority: the request leaves the cluster. -/
theorem slash_leaves_namespace :
    ¬ ∀ (parse : Text → Option Uri), (∀ text uri, parse text = some uri → uri = Uri.split text) →
      ∀ (raw : Text) (namespaceName : NamespaceName) (asked : PathAndQuery) (upstream : Upstream)
        (uri : Uri), DnsLabel namespaceName → Upstream.parse raw = some upstream →
        parse (forwardText (upstream.url namespaceName) (some asked)) = some uri →
        Confined uri namespaceName upstream.port asked := by
  intro given
  have recorded : Upstream.parse "evil.example.com/:80".toList =
      some ⟨"evil.example.com/".toList, 80, by decide⟩ := by decide +kernel
  have confined := given (fun text => some (Uri.split text)) (fun _ _ same => (Option.some.inj same).symm)
    "evil.example.com/:80".toList "alice".toList rootTarget _ _ (by decide) recorded rfl
  have reached : (Uri.split (forwardText (Upstream.url
      ⟨"evil.example.com/".toList, 80, by decide⟩ "alice".toList) (some rootTarget))).authority =
      some ⟨none, "evil.example.com".toList, none⟩ := by decide +kernel
  obtain ⟨authority, label, same, _, _, port, _⟩ := confined.host
  rw [reached] at same
  rw [← Option.some.inj same] at port
  cases port

end WeeboSi.Gateway
