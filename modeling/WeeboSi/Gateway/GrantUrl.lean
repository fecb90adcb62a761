import Mathlib.Data.Bool.AllAny
import WeeboSi.Gateway.HostCookie
import WeeboSi.Lib.Base64

/-!
# The grant in the URL

Source: bins/endpoint-gateway/src/http.rs:223-231, 568-584, 786-787. `host_session` appends
the grant to the URL that was asked for, and redeeming it strips the parameter again.
-/
namespace WeeboSi.Gateway
open WeeboSi.Lib

/-! ## Query strings -/

/-- What stands between the `&` of the query. -/
def queryPairs (uri : Text) : List Text :=
  match splitOnce '?' uri with
  | none => []
  | some (_, query) => query.splitOn '&'

/-- The name of a parameter, with or without a value. -/
def pairKey (pair : Text) : Text :=
  match splitOnce '=' pair with
  | some (key, _) => key
  | none => pair

/-- The last parameter of a name stands first. -/
def queryOf (uri : Text) : List (Text × Text) := ((queryPairs uri).filterMap (splitOnce '=')).reverse

/-- Where the browser is sent with its grant. -/
def grantLocation (target sealed : Text) : Text :=
  target ++ (if target.contains '?' then '&' else '?') :: grantParam ++ '=' :: sealed

/-- What a sealed value is spelt with. -/
def isSealedChar (c : Char) : Bool := c == '.' || base64Alphabet.contains c

/-! ## Stripping -/

theorem queryPairs_append (path query : Text) (plain : '?' ∉ path) :
    queryPairs (path ++ '?' :: query) = query.splitOn '&' := by
  unfold queryPairs
  rw [splitOnce_append _ _ _ plain]

/-- Stripping on a URL that is cut at its query. -/
theorem stripQueryParam_append (path query name : Text) (plain : '?' ∉ path) :
    stripQueryParam (path ++ '?' :: query) name =
      let kept := (query.splitOn '&').filter fun pair => pair ≠ [] && pairKey pair ≠ name
      if kept = [] then path else path ++ '?' :: ['&'].intercalate kept := by
  unfold stripQueryParam
  rw [splitOnce_append _ _ _ plain]
  rfl

/-- The pairs that are kept are the pairs of the result. -/
theorem queryPairs_stripped (path : Text) (kept : List Text) (plain : '?' ∉ path)
    (pieces : ∀ pair ∈ kept, '&' ∉ pair) :
    queryPairs (if kept = [] then path else path ++ '?' :: ['&'].intercalate kept) = kept := by
  by_cases none_ : kept = []
  · rw [if_pos none_, none_]
    unfold queryPairs
    rw [splitOnce_absent _ _ plain]
  · rw [if_neg none_, queryPairs_append _ _ plain, List.splitOn_intercalate _ pieces none_]

theorem not_mem_of_mem_splitOn (c : Char) (s part : Text) (member : part ∈ s.splitOn c) : c ∉ part := by
  intro inside
  exact ((mem_splitOn c c s).mp ⟨part, member, inside⟩).2 rfl

/-- What is left of a query has no parameter of the stripped name. -/
theorem pairKey_stripped (uri name pair : Text)
    (member : pair ∈ queryPairs (stripQueryParam uri name)) : pairKey pair ≠ name := by
  cases cut : splitOnce '?' uri with
  | none =>
    have same : stripQueryParam uri name = uri := by
      unfold stripQueryParam
      rw [cut]
    rw [same] at member
    unfold queryPairs at member
    rw [cut] at member
    cases member
  | some parts =>
    obtain ⟨path, query⟩ := parts
    obtain ⟨rfl, plain⟩ := (splitOnce_eq_some _ _ _ _).mp cut
    rw [stripQueryParam_append _ _ _ plain, queryPairs_stripped path _ plain] at member
    · have tested := (List.mem_filter.mp member).2
      simp only [Bool.and_eq_true, decide_eq_true_eq] at tested
      exact tested.2
    · intro one isIn
      exact not_mem_of_mem_splitOn '&' query one (List.mem_filter.mp isIn).1

theorem queryOf_lookup_eq_none (uri name : Text)
    (absent : ∀ pair ∈ queryPairs uri, pairKey pair ≠ name) : (queryOf uri).lookup name = none := by
  rw [List.lookup_eq_none_iff]
  intro parameter member
  simp only [queryOf, List.mem_reverse, List.mem_filterMap] at member
  obtain ⟨pair, isIn, cut⟩ := member
  have other := absent pair isIn
  unfold pairKey at other
  rw [cut] at other
  simpa using Ne.symm other

/-! ## The round trip -/

theorem grantPair_key (sealed : Text) : pairKey (grantParam ++ '=' :: sealed) = grantParam := by
  unfold pairKey
  rw [splitOnce_append _ _ _ (by decide)]

theorem grantPair_plain (sealed : Text) (spelt : ∀ c ∈ sealed, isSealedChar c = true) :
    '&' ∉ grantParam ++ '=' :: sealed := by
  simp only [List.mem_append, List.mem_cons, not_or]
  refine ⟨by decide, by decide, ?_⟩
  intro member
  exact absurd (spelt _ member) (by decide)

/-- The query is rebuilt from the pairs that are kept exactly when all of them are. -/
theorem intercalate_filter_iff (path query : Text) (keep : Text → Bool) (plain : '?' ∉ path)
    (kept : ∀ pair ∈ query.splitOn '&', pair ≠ [] → keep pair = true)
    (dropped : keep [] = false) :
    (if (query.splitOn '&').filter keep = [] then path
      else path ++ '?' :: ['&'].intercalate ((query.splitOn '&').filter keep)) = path ++ '?' :: query ↔
      ∀ pair ∈ query.splitOn '&', pair ≠ [] := by
  constructor
  · intro same pair member empty
    have pairs := congrArg queryPairs same
    rw [queryPairs_stripped path _ plain, queryPairs_append path query plain] at pairs
    · have survives : pair ∈ (query.splitOn '&').filter keep := by
        rw [pairs]
        exact member
      rw [empty, List.mem_filter, dropped] at survives
      exact absurd survives.2 (by simp)
    · intro one isIn
      exact not_mem_of_mem_splitOn '&' query one (List.mem_filter.mp isIn).1
  · intro solid
    have all : (query.splitOn '&').filter keep = query.splitOn '&' :=
      List.filter_eq_self.mpr fun pair member => kept pair member (solid pair member)
    simp only [all, List.splitOn_ne_nil, if_false, List.intercalate_splitOn]

/-- Stripping the grant gives the URL back exactly when its query has no empty pair, and
what is stripped never carries the parameter. -/
theorem strip_grant_iff (target sealed : Text) (spelt : ∀ c ∈ sealed, isSealedChar c = true)
    (absent : ∀ pair ∈ queryPairs target, pairKey pair ≠ grantParam) :
    (stripQueryParam (grantLocation target sealed) grantParam = target ↔
      ∀ pair ∈ queryPairs target, pair ≠ []) ∧
    ∀ uri, (∀ pair ∈ queryPairs (stripQueryParam uri grantParam), pairKey pair ≠ grantParam) ∧
      (queryOf (stripQueryParam uri grantParam)).lookup grantParam = none := by
  have plain := grantPair_plain sealed spelt
  refine ⟨?_, ?_⟩
  · cases cut : splitOnce '?' target with
    | none =>
      have noQuery := (splitOnce_eq_none _ _).mp cut
      have none_ : queryPairs target = [] := by
        unfold queryPairs
        rw [cut]
      have location : grantLocation target sealed = target ++ '?' :: (grantParam ++ '=' :: sealed) := by
        simp [grantLocation, noQuery]
      rw [location, stripQueryParam_append _ _ _ noQuery, List.splitOn_eq_singleton plain, none_]
      simp [grantPair_key]
    | some parts =>
      obtain ⟨path, query⟩ := parts
      obtain ⟨rfl, noQuery⟩ := (splitOnce_eq_some _ _ _ _).mp cut
      rw [queryPairs_append _ _ noQuery] at absent ⊢
      have location : grantLocation (path ++ '?' :: query) sealed =
          path ++ '?' :: (query ++ '&' :: (grantParam ++ '=' :: sealed)) := by
        simp [grantLocation]
      rw [location, stripQueryParam_append _ _ _ noQuery, List.splitOn_append_cons_self,
        List.splitOn_eq_singleton plain, List.filter_append]
      have gone : [grantParam ++ '=' :: sealed].filter
          (fun pair => pair ≠ [] && pairKey pair ≠ grantParam) = [] := by
        simp [grantPair_key]
      rw [gone, List.append_nil]
      apply intercalate_filter_iff path query _ noQuery
      · intro pair member solid
        simp [solid, absent pair member]
      · simp
  · intro uri
    have stripped := fun pair member => pairKey_stripped uri grantParam pair member
    exact ⟨stripped, queryOf_lookup_eq_none _ _ stripped⟩

/-- A deep link of two parameters survives the redemption. -/
theorem strip_grant_iff_deep_link :
    stripQueryParam (grantLocation "https://a.weebo.si/s?q=1&page".toList "v1.AAAA.BBBB".toList)
      grantParam = "https://a.weebo.si/s?q=1&page".toList :=
  (strip_grant_iff _ _ (List.all_iff_forall_prop.mp (by decide)) (by decide)).1.mpr (by decide)

/-- An empty pair of the query is lost on the way. -/
theorem empty_pair_lost :
    ¬ ∀ target sealed : Text, '#' ∉ target → (∀ c ∈ sealed, isSealedChar c = true) →
      (∀ pair ∈ queryPairs target, pairKey pair ≠ grantParam) →
      stripQueryParam (grantLocation target sealed) grantParam = target := by
  intro given
  have back := given "https://a.weebo.si/s?q=1&&page=2".toList "v1.AAAA.BBBB".toList (by decide)
    (List.all_iff_forall_prop.mp (by decide)) (by decide)
  exact absurd back (by decide)

end WeeboSi.Gateway
