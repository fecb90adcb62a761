import WeeboSi.Gateway.HostCookie
import WeeboSi.Lib.Base64
import WeeboSi.Lib.Lists
import WeeboSi.Lib.Trim

/-!
# Cookies of a request

Source: bins/endpoint-gateway/src/http.rs:202-211 and proxy.rs:278-294. A header value is its
bytes: what `to_str` lets through is ASCII, on which the string functions go byte by byte and
the blanks are the space and the tab.
-/
namespace WeeboSi.Gateway
open WeeboSi.Lib

def isHeaderByte (b : UInt8) : Bool := (32 ≤ b && b != 127) || b == 9
def isVisibleAscii (b : UInt8) : Bool := (32 ≤ b && b < 127) || b == 9

structure HeaderValue where
  bytes : Bytes
  valid : bytes.all isHeaderByte = true
  deriving DecidableEq, Repr

def HeaderValue.toStr (value : HeaderValue) : Option Bytes :=
  if value.bytes.all isVisibleAscii then some value.bytes else none

def HeaderValue.fromStr (bytes : Bytes) : Option HeaderValue :=
  if valid : bytes.all isHeaderByte = true then some ⟨bytes, valid⟩ else none

/-- Header names are lowercase, and a name may have several values. -/
structure HeaderMap where
  entries : List (Text × HeaderValue)
  deriving DecidableEq, Repr

namespace HeaderMap
variable (headers : HeaderMap) (name : Text)

def getAll : List HeaderValue := (headers.entries.filter fun entry => entry.1 == name).map Prod.snd

def remove : HeaderMap := ⟨headers.entries.filter fun entry => entry.1 != name⟩

def insert (value : HeaderValue) : HeaderMap := ⟨(headers.remove name).entries ++ [(name, value)]⟩

end HeaderMap

def cookieHeader : Text := "cookie".toList

def semicolon : UInt8 := 59
def equalsSign : UInt8 := 61
def blank : UInt8 := 32

def isBlank (b : UInt8) : Bool := b == blank || b == 9

def trimBlank (s : Bytes) : Bytes := trimBy isBlank s

def cookie (headers : HeaderMap) (name : Bytes) : Option Bytes :=
  (((((headers.getAll cookieHeader).filterMap HeaderValue.toStr).flatMap fun value => value.splitOn semicolon)
    |>.filterMap (splitOnce equalsSign)).find? fun pair => trimBlank pair.1 == name).map
    fun pair => trimBlank pair.2

/-- Whether `strip_cookie` drops a pair. -/
def stripped (name pair : Bytes) : Bool := (name ++ [equalsSign]).isPrefixOf pair

/-- The cookie header with these pairs and no others. -/
def rewriteCookies (headers : HeaderMap) (remaining : List Bytes) : HeaderMap :=
  let removed := headers.remove cookieHeader
  if remaining = [] then removed
  else match HeaderValue.fromStr ([semicolon, blank].intercalate remaining) with
    | some value => removed.insert cookieHeader value
    | none => removed

def stripCookie (headers : HeaderMap) (name : Bytes) : HeaderMap :=
  rewriteCookies headers (((((headers.getAll cookieHeader).filterMap HeaderValue.toStr).flatMap
    fun value => value.splitOn semicolon).map trimBlank).filter fun pair => !stripped name pair)

/-! ## Pairs and their names -/

/-- The trimmed pairs of one value, whether it is ASCII or not. -/
def HeaderValue.pairs (value : HeaderValue) : List Bytes := (value.bytes.splitOn semicolon).map trimBlank

def cookiePairs (headers : HeaderMap) : List Bytes :=
  (headers.getAll cookieHeader).flatMap HeaderValue.pairs

/-- The pairs of the values that both functions read. -/
def readablePairs (headers : HeaderMap) : List Bytes :=
  ((headers.getAll cookieHeader).filter fun value => value.toStr.isSome).flatMap HeaderValue.pairs

def pairName (pair : Bytes) : Option Bytes := (splitOnce equalsSign pair).map fun cut => trimBlank cut.1

/-- A name that the reader can find: no `=` in it, no blanks around it. -/
def ReadableName (name : Bytes) : Prop := equalsSign ∉ name ∧ trimBlank name = name

/-- The pair has blanks between the name and its `=`. -/
def Spaced (name pair : Bytes) : Prop :=
  ∃ gap value, gap ≠ [] ∧ (∀ b ∈ gap, isBlank b = true) ∧ pair = name ++ gap ++ equalsSign :: value

/-- The pair is stripped without being the cookie, or is the cookie without being stripped. -/
def Misread (name pair : Bytes) : Prop :=
  (ReadableName name ∧ Spaced name pair) ∨ (¬ ReadableName name ∧ stripped name pair = true)

theorem stripped_iff (name pair : Bytes) :
    stripped name pair = true ↔ ∃ value, pair = name ++ equalsSign :: value := by
  simp only [stripped, List.isPrefixOf_iff_prefix]
  constructor
  · rintro ⟨value, rfl⟩
    exact ⟨value, by simp⟩
  · rintro ⟨value, rfl⟩
    exact ⟨value, by simp⟩

theorem pairName_cut (key value : Bytes) (plain : equalsSign ∉ key) :
    pairName (key ++ equalsSign :: value) = some (trimBlank key) := by
  simp [pairName, splitOnce_append _ _ _ plain]

theorem pairName_eq_some (pair name : Bytes) :
    pairName pair = some name ↔
      ∃ key value, equalsSign ∉ key ∧ pair = key ++ equalsSign :: value ∧ trimBlank key = name := by
  constructor
  · intro named
    obtain ⟨cut, split, rfl⟩ := Option.map_eq_some_iff.mp named
    obtain ⟨whole, plain⟩ := (splitOnce_eq_some _ _ _ _).mp split
    exact ⟨cut.1, cut.2, plain, whole, rfl⟩
  · rintro ⟨key, value, plain, rfl, rfl⟩
    exact pairName_cut key value plain

/-- Trimming a pair does not change its name. -/
theorem pairName_trimBlank (pair : Bytes) : pairName (trimBlank pair) = pairName pair := by
  cases split : splitOnce equalsSign pair with
  | none =>
    have absent := (splitOnce_eq_none _ _).mp split
    have inside : equalsSign ∉ trimBlank pair := fun member =>
      absent (mem_of_mem_trimBy isBlank pair _ member)
    simp [pairName, split, splitOnce_absent _ _ inside]
  | some cut =>
    obtain ⟨rfl, plain⟩ := (splitOnce_eq_some _ _ _ _).mp split
    have front : equalsSign ∉ cut.1.dropWhile isBlank := fun member =>
      plain ((List.dropWhile_suffix isBlank).subset member)
    rw [trimBlank, trimBy_cut isBlank equalsSign (by decide), pairName_cut _ _ front,
      pairName_cut _ _ plain]
    simp only [trimBlank, trimBy, List.dropWhile_idempotent]

theorem pairName_readable (pair name : Bytes) (named : pairName pair = some name) : ReadableName name := by
  obtain ⟨key, value, plain, -, rfl⟩ := (pairName_eq_some _ _).mp named
  exact ⟨fun member => plain (mem_of_mem_trimBy isBlank key _ member), trimBy_trimBy isBlank key⟩

/-- Blanks behind a name belong to no name. -/
theorem trimBlank_gap (name gap : Bytes) (readable : trimBlank name = name)
    (blanks : ∀ b ∈ gap, isBlank b = true) : trimBlank (name ++ gap) = name := by
  by_cases empty : name = []
  · subst empty
    exact (trimBy_eq_nil isBlank _).mpr (by simpa using blanks)
  · have solid : Solid isBlank name := by
      rw [← readable]
      exact solid_trimBy isBlank name
    exact trimBy_around isBlank [] name gap solid empty (by simp) blanks

/-- The reader finds the cookie in the pairs that are stripped and in the spaced ones. -/
theorem pairName_eq_iff (name pair : Bytes) (readable : ReadableName name)
    (trimmed : trimBlank pair = pair) :
    pairName pair = some name ↔ stripped name pair = true ∨ Spaced name pair := by
  constructor
  · intro named
    obtain ⟨key, value, plain, whole, same⟩ := (pairName_eq_some _ _).mp named
    obtain ⟨before, after, left, right, parts⟩ := trimBy_parts isBlank key
    change key = before ++ trimBlank key ++ after at parts
    rw [same] at parts
    have front : before = [] := by
      cases before with
      | nil => rfl
      | cons b rest =>
        have solid : Solid isBlank pair := by
          rw [← trimmed]
          exact solid_trimBy isBlank pair
        have kept := solid.front b (by rw [whole, parts]; rfl)
        rw [left b (by simp)] at kept
        cases kept
    subst front
    cases after with
    | nil =>
      left
      rw [stripped_iff]
      exact ⟨value, by simp [whole, parts]⟩
    | cons b rest =>
      right
      exact ⟨b :: rest, value, by simp, right, by simp [whole, parts]⟩
  · rintro (start | ⟨gap, value, -, blanks, rfl⟩)
    · obtain ⟨value, rfl⟩ := (stripped_iff _ _).mp start
      rw [pairName_cut _ _ readable.1, readable.2]
    · rw [pairName_cut, trimBlank_gap name gap readable.2 blanks]
      simp only [List.mem_append, not_or]
      exact ⟨readable.1, fun member => absurd (blanks _ member) (by decide)⟩

theorem not_stripped_of_spaced (name pair : Bytes) (spaced : Spaced name pair) :
    stripped name pair = false := by
  obtain ⟨gap, value, some_, blanks, rfl⟩ := spaced
  cases gap with
  | nil => exact absurd rfl some_
  | cons b rest =>
    have other : b ≠ equalsSign := by
      rintro rfl
      exact absurd (blanks equalsSign (by simp)) (by decide)
    have apart : ¬ stripped name (name ++ b :: rest ++ equalsSign :: value) = true := by
      rw [stripped_iff]
      rintro ⟨more, same⟩
      rw [List.append_assoc] at same
      have heads := List.append_cancel_left same
      simp only [List.cons_append, List.cons.injEq] at heads
      exact other heads.1
    exact eq_false_of_ne_true apart

/-- Reader and stripper agree on a pair exactly when it is not misread. -/
theorem misread_iff (name pair : Bytes) (trimmed : trimBlank pair = pair) :
    Misread name pair ↔ ¬ (stripped name pair = true ↔ pairName pair = some name) := by
  unfold Misread
  by_cases readable : ReadableName name
  · rw [pairName_eq_iff name pair readable trimmed]
    have apart := not_stripped_of_spaced name pair
    constructor
    · rintro (⟨-, spaced⟩ | ⟨no, -⟩)
      · intro agree
        have both := agree.mpr (Or.inr spaced)
        rw [apart spaced] at both
        cases both
      · exact absurd readable no
    · intro differ
      refine Or.inl ⟨readable, ?_⟩
      by_contra plain
      exact differ ⟨Or.inl, fun either => either.resolve_right plain⟩
  · have unnamed : pairName pair ≠ some name := fun named => readable (pairName_readable _ _ named)
    simp [readable, unnamed]

/-! ## What is left of a request's cookies -/

theorem toStr_eq_some (value : HeaderValue) (text : Bytes) :
    value.toStr = some text ↔ value.bytes.all isVisibleAscii = true ∧ value.bytes = text := by
  unfold HeaderValue.toStr
  split
  · rename_i visible
    simp [visible]
  · rename_i hidden
    simp [hidden]

/-- The pairs both functions go through. -/
theorem readablePairs_eq (headers : HeaderMap) :
    readablePairs headers = (((headers.getAll cookieHeader).filterMap HeaderValue.toStr).flatMap
      fun value => value.splitOn semicolon).map trimBlank := by
  unfold readablePairs
  induction headers.getAll cookieHeader with
  | nil => rfl
  | cons value more ih =>
    cases text : value.toStr with
    | none => simp [text, ih]
    | some bytes =>
      obtain ⟨-, rfl⟩ := (toStr_eq_some _ _).mp text
      simp [text, ih, HeaderValue.pairs]

theorem mem_readablePairs (headers : HeaderMap) (pair : Bytes) (member : pair ∈ readablePairs headers) :
    trimBlank pair = pair ∧ semicolon ∉ pair ∧ pair.all isVisibleAscii = true := by
  rw [readablePairs_eq] at member
  simp only [List.mem_map, List.mem_flatMap, List.mem_filterMap] at member
  obtain ⟨piece, ⟨text, ⟨value, -, read⟩, isIn⟩, rfl⟩ := member
  obtain ⟨visible, rfl⟩ := (toStr_eq_some _ _).mp read
  have inPiece := mem_of_mem_trimBy isBlank piece
  refine ⟨trimBy_trimBy isBlank piece, ?_, ?_⟩
  · intro inside
    exact ((mem_splitOn semicolon semicolon _).mp ⟨piece, isIn, inPiece _ inside⟩).2 rfl
  · rw [List.all_eq_true] at visible ⊢
    intro b inside
    exact visible b ((mem_splitOn semicolon b _).mp ⟨piece, isIn, inPiece _ inside⟩).1

theorem cookie_eq_none (headers : HeaderMap) (name : Bytes) :
    cookie headers name = none ↔ ∀ pair ∈ readablePairs headers, pairName pair ≠ some name := by
  simp only [cookie, Option.map_eq_none_iff, List.find?_eq_none, readablePairs_eq, List.mem_map,
    forall_exists_index, and_imp, forall_apply_eq_imp_iff₂, pairName_trimBlank]
  constructor
  · intro none_ piece isIn named
    obtain ⟨cut, split, rfl⟩ := Option.map_eq_some_iff.mp named
    exact none_ cut (List.mem_filterMap.mpr ⟨piece, isIn, split⟩) (by simp)
  · intro unnamed cut member same
    obtain ⟨piece, isIn, split⟩ := List.mem_filterMap.mp member
    apply unnamed piece isIn
    rw [pairName, split, Option.map_some, beq_iff_eq.mp same]

theorem intercalate_blank (first : Bytes) (rest : List Bytes) :
    [semicolon, blank].intercalate (first :: rest) =
      [semicolon].intercalate (first :: rest.map (blank :: ·)) := by
  induction rest generalizing first with
  | nil => rfl
  | cons next rest ih =>
    rw [List.intercalate_cons_cons, ih, List.map_cons, List.intercalate_cons_cons]
    cases rest with
    | nil => simp
    | cons more rest => simp [List.intercalate_cons_cons]

theorem trimBlank_blank (s : Bytes) : trimBlank (blank :: s) = trimBlank s := by
  unfold trimBlank trimBy
  rw [List.dropWhile_cons_of_pos (by decide)]

/-- The pairs that are written out again are read as they were. -/
theorem joined_pairs (remaining : List Bytes) (some_ : remaining ≠ [])
    (solid : ∀ pair ∈ remaining, trimBlank pair = pair ∧ semicolon ∉ pair) :
    (([semicolon, blank].intercalate remaining).splitOn semicolon).map trimBlank = remaining := by
  cases remaining with
  | nil => exact absurd rfl some_
  | cons first rest =>
    have same : rest.map (trimBlank ∘ (blank :: ·)) = rest := by
      have each : ∀ pair ∈ rest, (trimBlank ∘ (blank :: ·)) pair = id pair := by
        intro pair member
        rw [Function.comp_apply, trimBlank_blank]
        exact (solid pair (by simp [member])).1
      rw [List.map_congr_left each, List.map_id]
    rw [intercalate_blank, List.splitOn_intercalate semicolon _ (by simp), List.map_cons, List.map_map, same,
      (solid first (by simp)).1]
    intro pair member
    rcases List.mem_cons.mp member with rfl | later
    · exact (solid _ (by simp)).2
    · obtain ⟨bare, isIn, rfl⟩ := List.mem_map.mp later
      simp only [List.mem_cons, not_or]
      exact ⟨by decide, (solid bare (by simp [isIn])).2⟩

theorem joined_visible (remaining : List Bytes)
    (visible : ∀ pair ∈ remaining, pair.all isVisibleAscii = true) :
    ([semicolon, blank].intercalate remaining).all isVisibleAscii = true := by
  induction remaining with
  | nil => rfl
  | cons first rest ih =>
    have tail := ih fun pair member => visible pair (by simp [member])
    cases rest with
    | nil => simpa using visible first (by simp)
    | cons next rest =>
      rw [List.intercalate_cons_cons, List.all_append, List.all_append, visible first (by simp), tail]
      rfl

theorem isHeaderByte_of_visible (b : UInt8) (visible : isVisibleAscii b = true) : isHeaderByte b = true := by
  simp only [isVisibleAscii, isHeaderByte, Bool.or_eq_true, Bool.and_eq_true, decide_eq_true_eq,
    bne_iff_ne, beq_iff_eq] at visible ⊢
  rcases visible with ⟨low, high⟩ | tab
  · refine Or.inl ⟨low, ?_⟩
    rintro rfl
    exact absurd high (by decide)
  · exact Or.inr tab

theorem getAll_remove (headers : HeaderMap) (name : Text) : (headers.remove name).getAll name = [] := by
  simp [HeaderMap.getAll, HeaderMap.remove, List.filter_filter]

theorem getAll_insert (headers : HeaderMap) (name : Text) (value : HeaderValue) :
    (headers.insert name value).getAll name = [value] := by
  have none_ := getAll_remove headers name
  simp only [HeaderMap.getAll, List.map_eq_nil_iff] at none_
  simp [HeaderMap.insert, HeaderMap.getAll, List.filter_append, none_]

/-- The header that is written reads as the pairs it was written from. -/
theorem rewriteCookies_pairs (headers : HeaderMap) (remaining : List Bytes)
    (kept : ∀ pair ∈ remaining,
      trimBlank pair = pair ∧ semicolon ∉ pair ∧ pair.all isVisibleAscii = true) :
    readablePairs (rewriteCookies headers remaining) = remaining ∧
      cookiePairs (rewriteCookies headers remaining) = remaining := by
  unfold rewriteCookies
  by_cases none_ : remaining = []
  · simp [readablePairs, cookiePairs, getAll_remove, none_]
  · have visible := joined_visible remaining fun pair member => (kept pair member).2.2
    have valid : ([semicolon, blank].intercalate remaining).all isHeaderByte = true := by
      rw [List.all_eq_true] at visible ⊢
      exact fun b member => isHeaderByte_of_visible b (visible b member)
    have pairs := joined_pairs remaining none_ fun pair member => ⟨(kept pair member).1, (kept pair member).2.1⟩
    have written : HeaderValue.fromStr ([semicolon, blank].intercalate remaining) = some ⟨_, valid⟩ := dif_pos valid
    have read : (⟨_, valid⟩ : HeaderValue).toStr = some ([semicolon, blank].intercalate remaining) :=
      (toStr_eq_some _ _).mpr ⟨visible, rfl⟩
    rw [if_neg none_, written]
    simp only [readablePairs, cookiePairs, getAll_insert, List.filter_cons, List.filter_nil, read,
      Option.isSome_some, if_true, List.flatMap_singleton, HeaderValue.pairs, pairs, and_self]

/-- What `strip_cookie` leaves. -/
theorem stripCookie_pairs (headers : HeaderMap) (name : Bytes) :
    readablePairs (stripCookie headers name) =
        (readablePairs headers).filter (fun pair => !stripped name pair) ∧
      cookiePairs (stripCookie headers name) =
        (readablePairs headers).filter fun pair => !stripped name pair := by
  unfold stripCookie
  rw [← readablePairs_eq]
  apply rewriteCookies_pairs
  intro pair member
  exact mem_readablePairs headers pair (List.mem_filter.mp member).1

/-- The other headers are left alone. -/
theorem getAll_stripCookie (headers : HeaderMap) (name : Bytes) (other : Text) (ne : other ≠ cookieHeader) :
    (stripCookie headers name).getAll other = headers.getAll other := by
  have removed : (headers.remove cookieHeader).getAll other = headers.getAll other := by
    simp only [HeaderMap.getAll, HeaderMap.remove, List.filter_filter]
    congr 2
    funext entry
    by_cases same : entry.1 = other
    · simp [same, ne]
    · simp [same]
  have inserted : ∀ value, ((headers.remove cookieHeader).insert cookieHeader value).getAll other =
      headers.getAll other := by
    intro value
    rw [← removed]
    simp [HeaderMap.insert, HeaderMap.getAll, HeaderMap.remove, List.filter_append, List.filter_filter,
      Ne.symm ne]
  unfold stripCookie rewriteCookies
  split
  · exact removed
  · split
    · exact inserted _
    · exact removed

/-! ## When the reader finds nothing and nothing else is lost -/

theorem cookie_stripCookie (headers : HeaderMap) (name : Bytes) :
    cookie (stripCookie headers name) name = none ↔
      ∀ pair ∈ readablePairs headers, pairName pair = some name → stripped name pair = true := by
  rw [cookie_eq_none, (stripCookie_pairs headers name).1]
  simp only [List.mem_filter, Bool.not_eq_true', and_imp]
  refine forall₂_congr fun pair _ => ?_
  cases stripped name pair with
  | true => simp
  | false => simp

/-- Every pair with the value it stands in. -/
def placedPairs (headers : HeaderMap) : List (HeaderValue × Bytes) :=
  (headers.getAll cookieHeader).flatMap fun value => value.pairs.map fun pair => (value, pair)

theorem cookiePairs_placed (headers : HeaderMap) :
    cookiePairs headers = (placedPairs headers).map Prod.snd := by
  simp [cookiePairs, placedPairs, List.map_flatMap, Function.comp_def]

theorem readablePairs_placed (headers : HeaderMap) :
    readablePairs headers =
      ((placedPairs headers).filter fun placed => placed.1.toStr.isSome).map Prod.snd := by
  unfold readablePairs placedPairs
  induction headers.getAll cookieHeader with
  | nil => rfl
  | cons value more ih =>
    cases read : value.toStr.isSome with
    | true => simp [read, ih, List.filter_map, Function.comp_def]
    | false => simp [read, ih, List.filter_map, Function.comp_def]

/-- The other pairs are kept when none of them is stripped or stands in a value that is
not ASCII. -/
theorem kept_stripCookie (headers : HeaderMap) (name : Bytes) :
    (cookiePairs (stripCookie headers name)).filter (fun pair => pairName pair != some name) =
        (cookiePairs headers).filter (fun pair => pairName pair != some name) ↔
      ∀ value ∈ headers.getAll cookieHeader, ∀ pair ∈ value.pairs, pairName pair ≠ some name →
        value.toStr.isSome = true ∧ stripped name pair = false := by
  have before : (cookiePairs headers).filter (fun pair => pairName pair != some name) =
      ((placedPairs headers).filter fun placed => pairName placed.2 != some name).map Prod.snd := by
    rw [cookiePairs_placed, List.filter_map]
    rfl
  have after : (cookiePairs (stripCookie headers name)).filter (fun pair => pairName pair != some name) =
      ((placedPairs headers).filter fun placed => pairName placed.2 != some name &&
        (!stripped name placed.2 && placed.1.toStr.isSome)).map Prod.snd := by
    rw [(stripCookie_pairs headers name).2, readablePairs_placed, List.filter_filter, List.filter_map,
      List.filter_filter]
    congr 2
    funext placed
    simp [Bool.and_assoc]
  rw [before, after, filter_map_eq_iff]
  · simp only [placedPairs, List.mem_flatMap, List.mem_map]
    constructor
    · intro all value isIn pair member other
      have held := all (value, pair) ⟨value, isIn, pair, member, rfl⟩ (by simpa using other)
      simp only [Bool.and_eq_true, Bool.not_eq_true'] at held
      exact ⟨held.2.2, held.2.1⟩
    · rintro all _ ⟨value, isIn, pair, member, rfl⟩ other
      obtain ⟨read, plain⟩ := all value isIn pair member (by simpa using other)
      simp [read, plain, other]
  · intro placed held
    simp only [Bool.and_eq_true] at held
    exact held.1

/-- The cookie never reaches the application and nothing else is lost exactly when no pair
is misread and a value that is not ASCII has no other pairs. -/
theorem stripCookie_exact_iff (headers : HeaderMap) (name : Bytes) :
    (cookie (stripCookie headers name) name = none ∧
      (cookiePairs (stripCookie headers name)).filter (fun pair => pairName pair != some name) =
        (cookiePairs headers).filter (fun pair => pairName pair != some name)) ↔
    (∀ pair ∈ readablePairs headers, ¬ Misread name pair) ∧
      ∀ value ∈ headers.getAll cookieHeader, value.toStr = none → ∀ pair ∈ value.pairs,
        pairName pair = some name := by
  have readable : ∀ pair, pair ∈ readablePairs headers ↔
      ∃ value ∈ headers.getAll cookieHeader, value.toStr.isSome = true ∧ pair ∈ value.pairs := by
    intro pair
    simp [readablePairs, List.mem_flatMap, List.mem_filter, and_assoc]
  have agree : ∀ pair ∈ readablePairs headers,
      (¬ Misread name pair ↔ (stripped name pair = true ↔ pairName pair = some name)) := by
    intro pair member
    rw [misread_iff name pair (mem_readablePairs headers pair member).1, not_not]
  rw [cookie_stripCookie, kept_stripCookie]
  constructor
  · intro given
    obtain ⟨gone, kept⟩ := given
    refine ⟨?_, ?_⟩
    · intro pair member
      rw [agree pair member]
      refine ⟨?_, gone pair member⟩
      intro dropped
      by_contra other
      obtain ⟨value, isIn, -, inside⟩ := (readable pair).mp member
      rw [(kept value isIn pair inside other).2] at dropped
      cases dropped
    · intro value isIn hidden pair inside
      by_contra other
      have read := (kept value isIn pair inside other).1
      rw [hidden] at read
      cases read
  · intro given
    obtain ⟨plain, hidden⟩ := given
    refine ⟨?_, ?_⟩
    · intro pair member
      exact ((agree pair member).mp (plain pair member)).mpr
    · intro value isIn pair inside other
      cases read : value.toStr with
      | none => exact absurd (hidden value isIn read pair inside) other
      | some text =>
        have member := (readable pair).mpr ⟨value, isIn, by simp [read], inside⟩
        refine ⟨rfl, ?_⟩
        have same := (agree pair member).mp (plain pair member)
        exact eq_false_of_ne_true fun dropped => other (same.mp dropped)

def requestCookies (value : String) (valid : (utf8 value.toList).all isHeaderByte = true) : HeaderMap :=
  ⟨[(cookieHeader, ⟨utf8 value.toList, valid⟩)]⟩

/-- A blank before the `=` hides the cookie from the stripper and not from the reader. -/
theorem spaced_cookie_reaches_application :
    ¬ ∀ (headers : HeaderMap) (name : Bytes), cookie (stripCookie headers name) name = none ∧
      (cookiePairs (stripCookie headers name)).filter (fun pair => pairName pair != some name) =
        (cookiePairs headers).filter (fun pair => pairName pair != some name) := by
  intro given
  have gone := (given (requestCookies "theme=dark; __Host-weebo-endpoint =sealed" (by decide +kernel))
    (utf8 hostCookieName)).1
  exact absurd gone (by decide +kernel)

end WeeboSi.Gateway
