import Mathlib.Data.List.TakeWhile
import WeeboSi.Lib.Text

/-!
# Splitting a URI into its components

RFC 3986: a scheme, an authority up to the first `/`, `?` or `#`, a path, a query and a
fragment that is dropped. Splitting is total; which texts are accepted at all is left to
the parser that splits.
-/
namespace WeeboSi.Lib

/-- What ends the authority. -/
def isUriDelim (c : Char) : Bool := c == '/' || c == '?' || c == '#'

/-! ## Authorities -/

structure Authority where
  userinfo : Option Text
  host : Text
  port : Option Text
  deriving DecidableEq, Repr

/-- The host and the port; a bracketed literal keeps its colons. -/
def splitHostPort (raw : Text) : Text × Option Text :=
  match rsplitOnce ':' raw with
  | some (host, port) => if port.contains ']' then (raw, none) else (host, some port)
  | none => (raw, none)

def Authority.split (raw : Text) : Authority :=
  match rsplitOnce '@' raw with
  | some (userinfo, rest) => ⟨some userinfo, (splitHostPort rest).1, (splitHostPort rest).2⟩
  | none => ⟨none, (splitHostPort raw).1, (splitHostPort raw).2⟩

theorem splitHostPort_append (host port : Text) (colon : ':' ∉ port) (bracket : ']' ∉ port) :
    splitHostPort (host ++ ':' :: port) = (host, some port) := by
  simp [splitHostPort, rsplitOnce_append _ _ _ colon, bracket]

/-- A port that was split off stands behind the last colon. -/
theorem splitHostPort_eq (raw host port : Text) (cut : splitHostPort raw = (host, some port)) :
    raw = host ++ ':' :: port := by
  unfold splitHostPort at cut
  cases colon : rsplitOnce ':' raw with
  | none => simp [colon] at cut
  | some pair =>
    obtain ⟨before, after⟩ := pair
    obtain ⟨rfl, _⟩ := (rsplitOnce_eq_some _ _ _ _).mp colon
    simp only [colon] at cut
    split at cut
    · simp at cut
    · simp only [Prod.mk.injEq, Option.some.injEq] at cut
      rw [cut.1, cut.2]

/-- No userinfo is split off exactly where the text has no at sign. -/
theorem Authority.split_userinfo (raw : Text) : (Authority.split raw).userinfo = none ↔ '@' ∉ raw := by
  rw [← rsplitOnce_eq_none]
  unfold Authority.split
  cases rsplitOnce '@' raw <;> simp

theorem Authority.split_plain (raw : Text) (plain : '@' ∉ raw) :
    Authority.split raw = ⟨none, (splitHostPort raw).1, (splitHostPort raw).2⟩ := by
  unfold Authority.split
  rw [rsplitOnce_absent _ _ plain]

/-! ## Paths and queries -/

/-- A request target: the path and what follows its question mark. -/
structure PathAndQuery where
  path : Text
  query : Option Text
  rooted : path.head? = some '/'
  plainPath : '?' ∉ path ∧ '#' ∉ path
  plainQuery : ∀ text ∈ query, '#' ∉ text

def joinQuery (path : Text) : Option Text → Text
  | some query => path ++ '?' :: query
  | none => path

def PathAndQuery.text (asked : PathAndQuery) : Text := joinQuery asked.path asked.query

def splitQuery (s : Text) : Text × Option Text :=
  match splitOnce '?' s with
  | some (path, query) => (path, some query)
  | none => (s, none)

theorem splitQuery_joinQuery (path : Text) (query : Option Text) (plain : '?' ∉ path) :
    splitQuery (joinQuery path query) = (path, query) := by
  unfold splitQuery
  cases query with
  | none => simp [joinQuery, splitOnce_absent _ _ plain]
  | some query => simp [joinQuery, splitOnce_append _ _ _ plain]

theorem joinQuery_splitQuery (s : Text) : joinQuery (splitQuery s).1 (splitQuery s).2 = s := by
  unfold splitQuery
  cases cut : splitOnce '?' s with
  | none => rfl
  | some pair => exact ((splitOnce_eq_some _ _ _ _).mp cut).1.symm

theorem PathAndQuery.text_head (asked : PathAndQuery) : asked.text.head? = some '/' := by
  have rooted := asked.rooted
  unfold PathAndQuery.text joinQuery
  cases asked.query <;> simp [List.head?_append, rooted]

theorem PathAndQuery.text_plain (asked : PathAndQuery) : '#' ∉ asked.text := by
  unfold PathAndQuery.text joinQuery
  cases carried : asked.query with
  | none => exact asked.plainPath.2
  | some query =>
    have plain := asked.plainQuery query carried
    simp [asked.plainPath.2, plain]

/-! ## Whole URIs -/

structure Uri where
  scheme : Option Text
  authority : Option Authority
  path : Text
  query : Option Text
  deriving DecidableEq, Repr

def splitScheme (s : Text) : Option Text × Text :=
  match splitOnce ':' s with
  | some (scheme, rest) =>
    if scheme ≠ [] ∧ scheme.all fun c => !isUriDelim c then (some scheme, rest) else (none, s)
  | none => (none, s)

def splitAuthority : Text → Option Authority × Text
  | '/' :: '/' :: rest =>
    (some (Authority.split (rest.takeWhile fun c => !isUriDelim c)), rest.dropWhile fun c => !isUriDelim c)
  | s => (none, s)

def dropFragment (s : Text) : Text := s.takeWhile (· ≠ '#')

def Uri.split (s : Text) : Uri :=
  let afterScheme := splitScheme s
  let afterAuthority := splitAuthority afterScheme.2
  let pathQuery := splitQuery (dropFragment afterAuthority.2)
  ⟨afterScheme.1, afterAuthority.1, pathQuery.1, pathQuery.2⟩

theorem dropFragment_append (s rest : Text) (plain : '#' ∉ s) : dropFragment (s ++ '#' :: rest) = s := by
  unfold dropFragment
  rw [List.takeWhile_append_of_pos]
  · simp
  · intro c member
    exact decide_eq_true fun same => plain (same ▸ member)

theorem dropFragment_plain (s : Text) (plain : '#' ∉ s) : dropFragment s = s := by
  unfold dropFragment
  rw [List.takeWhile_eq_self_iff]
  intro c member
  exact decide_eq_true fun same => plain (same ▸ member)

/-- What a fragment was dropped from. -/
theorem dropFragment_cases (s : Text) : s = dropFragment s ∨ ∃ rest, s = dropFragment s ++ '#' :: rest := by
  cases cut : splitOnce '#' s with
  | none =>
    left
    exact (dropFragment_plain s ((splitOnce_eq_none _ _).mp cut)).symm
  | some pair =>
    obtain ⟨rfl, plain⟩ := (splitOnce_eq_some _ _ _ _).mp cut
    right
    exact ⟨pair.2, by rw [dropFragment_append _ _ plain]⟩

/-- A text under a scheme splits at the first delimiter behind the slashes. -/
theorem Uri.split_eq (scheme authority rest : Text) (named : scheme ≠ [])
    (plainScheme : ∀ c ∈ scheme, isUriDelim c = false ∧ c ≠ ':')
    (plain : ∀ c ∈ authority, isUriDelim c = false)
    (stops : rest.head?.any isUriDelim = true) :
    Uri.split (scheme ++ ':' :: '/' :: '/' :: (authority ++ rest)) =
      ⟨some scheme, some (Authority.split authority), (splitQuery (dropFragment rest)).1,
        (splitQuery (dropFragment rest)).2⟩ := by
  have colon : ':' ∉ scheme := fun member => (plainScheme _ member).2 rfl
  have bare : (scheme.all fun c => !isUriDelim c) = true := by
    rw [List.all_eq_true]
    intro c member
    simp [(plainScheme c member).1]
  have kept : ∀ c ∈ authority, (!isUriDelim c) = true := by
    intro c member
    simp [plain c member]
  have scheme_ : splitScheme (scheme ++ ':' :: '/' :: '/' :: (authority ++ rest)) =
      (some scheme, '/' :: '/' :: (authority ++ rest)) := by
    simp only [splitScheme, splitOnce_append _ _ _ colon]
    rw [if_pos ⟨named, bare⟩]
  have authority_ : splitAuthority ('/' :: '/' :: (authority ++ rest)) =
      (some (Authority.split authority), rest) := by
    cases rest with
    | nil => simp at stops
    | cons c rest =>
      have stop : isUriDelim c = true := by simpa using stops
      simp [splitAuthority, List.takeWhile_append_of_pos kept, List.dropWhile_append_of_pos kept, stop]
  simp only [Uri.split, scheme_, authority_]

end WeeboSi.Lib
