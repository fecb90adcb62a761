import Mathlib.Logic.Function.Iterate
import WeeboSi.Lib.Trim
import WeeboSi.Lib.Utf8

/-!
# The path of a URL as a server may read it

Percent-decoding, and the removal of dot segments from a path (RFC 3986, section 5.2.4) in which
the slash and the backslash both separate segments. A URL without an authority is left alone.
-/
namespace WeeboSi.Lib

/-! ## Percent-decoding -/

/-- `to_digit(16)` of one byte. -/
def toDigit16 (byte : UInt8) : Option Nat :=
  if 48 ≤ byte ∧ byte ≤ 57 then some (byte.toNat - 48)
  else if 97 ≤ byte ∧ byte ≤ 102 then some (byte.toNat - 87)
  else if 65 ≤ byte ∧ byte ≤ 70 then some (byte.toNat - 55)
  else none

/-- One pass; a percent sign without two digits behind it is kept. -/
def percentDecode : Bytes → Bytes
  | [] => []
  | byte :: rest =>
    if byte = 37 then
      match rest with
      | high :: low :: more =>
        match toDigit16 high, toDigit16 low with
        | some high, some low => UInt8.ofNat (high * 16 + low) :: percentDecode more
        | _, _ => byte :: percentDecode (high :: low :: more)
      | rest => byte :: percentDecode rest
    else byte :: percentDecode rest

theorem percentDecode_cons_plain (byte : UInt8) (rest : Bytes) (plain : byte ≠ 37) :
    percentDecode (byte :: rest) = byte :: percentDecode rest := by
  rw [percentDecode.eq_def]
  exact if_neg plain

theorem percentDecode_append (plain rest : Bytes) (noPercent : 37 ∉ plain) :
    percentDecode (plain ++ rest) = plain ++ percentDecode rest := by
  induction plain with
  | nil => rfl
  | cons byte plain ih =>
    obtain ⟨other, others⟩ := not_or.mp (mt List.mem_cons.mpr noPercent)
    rw [List.cons_append, percentDecode_cons_plain byte _ (Ne.symm other), ih others, List.cons_append]

theorem iterate_percentDecode_append (plain rest : Bytes) (noPercent : 37 ∉ plain) (n : Nat) :
    percentDecode^[n] (plain ++ rest) = plain ++ percentDecode^[n] rest := by
  induction n generalizing rest with
  | zero => rfl
  | succ n ih => rw [Function.iterate_succ_apply, percentDecode_append plain rest noPercent, ih,
      Function.iterate_succ_apply]

/-! ## Parts of a URL -/

def isSlash (byte : UInt8) : Bool := byte == 47 || byte == 92

/-- A question mark or a number sign, where the path ends. -/
def endsPath (byte : UInt8) : Bool := byte == 63 || byte == 35

def isDelim (byte : UInt8) : Bool := isSlash byte || endsPath byte

/-- The scheme with the authority, and what comes behind them. -/
def splitAuthorityOf (url : Bytes) : Option (Bytes × Bytes) :=
  match splitOnce 58 url with
  | some (scheme, first :: second :: after) =>
    if isSlash first && isSlash second && !scheme.any isDelim then
      some (scheme ++ 58 :: first :: second :: after.takeWhile (fun byte => !isDelim byte),
        after.dropWhile fun byte => !isDelim byte)
    else none
  | _ => none

def pathOf (rest : Bytes) : Bytes := rest.takeWhile fun byte => !endsPath byte

def behindPath (rest : Bytes) : Bytes := rest.dropWhile fun byte => !endsPath byte

/-! ## Segments -/

/-- What stands before the first separator, then each separator with the segment behind it. -/
def segmentsOf : Bytes → Bytes × List (UInt8 × Bytes)
  | [] => ([], [])
  | byte :: rest =>
    let (first, more) := segmentsOf rest
    if isSlash byte then ([], (byte, first) :: more) else (byte :: first, more)

def joinSteps (steps : List (UInt8 × Bytes)) : Bytes := steps.flatMap fun step => step.1 :: step.2

def dot : Bytes := [46]
def dotDot : Bytes := [46, 46]

section Remove
variable (out : List (UInt8 × Bytes)) (slash : UInt8) (segment : Bytes)

/-- The last segment: a dot segment leaves its separator. -/
def removeLast : List (UInt8 × Bytes) :=
  if segment = dot then out ++ [(slash, [])]
  else if segment = dotDot then out.dropLast ++ [(slash, [])]
  else out ++ [(slash, segment)]

end Remove

/-- A dot segment goes, with the separator behind it; two dots take what was written last along. -/
def removeDots (out : List (UInt8 × Bytes)) (slash : UInt8) (segment : Bytes) :
    List (UInt8 × Bytes) → List (UInt8 × Bytes)
  | [] => removeLast out slash segment
  | (next, following) :: more =>
    if segment = dot then removeDots out slash following more
    else if segment = dotDot then removeDots out.dropLast slash following more
    else removeDots (out ++ [(slash, segment)]) next following more

def removeDotSteps : List (UInt8 × Bytes) → List (UInt8 × Bytes)
  | [] => []
  | (slash, segment) :: more => removeDots [] slash segment more

/-- The path, without its dot segments. -/
def removeDotsFrom (path : Bytes) : Bytes :=
  (segmentsOf path).1 ++ joinSteps (removeDotSteps (segmentsOf path).2)

def removeDotSegmentsOf (url : Bytes) : Bytes :=
  match splitAuthorityOf url with
  | none => url
  | some (head, rest) => head ++ removeDotsFrom (pathOf rest) ++ behindPath rest

/-! ## Reading segments -/

theorem segmentsOf_cons_slash (slash : UInt8) (rest : Bytes) (separates : isSlash slash = true) :
    segmentsOf (slash :: rest) = ([], (slash, (segmentsOf rest).1) :: (segmentsOf rest).2) := by
  rw [segmentsOf]
  exact if_pos separates

theorem segmentsOf_cons_other (byte : UInt8) (rest : Bytes) (stays : isSlash byte = false) :
    segmentsOf (byte :: rest) = (byte :: (segmentsOf rest).1, (segmentsOf rest).2) := by
  rw [segmentsOf]
  exact if_neg (Bool.eq_false_iff.mp stays)

theorem join_segmentsOf (path : Bytes) : (segmentsOf path).1 ++ joinSteps (segmentsOf path).2 = path := by
  induction path with
  | nil => rfl
  | cons byte path ih =>
    cases separates : isSlash byte with
    | true =>
      rw [segmentsOf_cons_slash byte path separates]
      change byte :: ((segmentsOf path).1 ++ joinSteps (segmentsOf path).2) = byte :: path
      rw [ih]
    | false =>
      rw [segmentsOf_cons_other byte path separates, List.cons_append, ih]

/-- A path is read up to a separator, and from it on. -/
theorem segmentsOf_append (before after : Bytes) (slash : UInt8) (separates : isSlash slash = true) :
    segmentsOf (before ++ slash :: after) = ((segmentsOf before).1,
      (segmentsOf before).2 ++ (slash, (segmentsOf after).1) :: (segmentsOf after).2) := by
  induction before with
  | nil => exact segmentsOf_cons_slash slash after separates
  | cons byte before ih =>
    cases here : isSlash byte with
    | true =>
      rw [List.cons_append, segmentsOf_cons_slash byte _ here, segmentsOf_cons_slash byte _ here, ih,
        List.cons_append]
    | false =>
      rw [List.cons_append, segmentsOf_cons_other byte _ here, segmentsOf_cons_other byte _ here, ih]

/-- Where a segment stands: behind its separator, and before another one or the end. -/
structure Stands (path : Bytes) (slash : UInt8) (segment before after : Bytes) : Prop where
  whole : path = before ++ slash :: (segment ++ after)
  separates : isSlash slash = true
  plain : ∀ byte ∈ segment, isSlash byte = false
  cut : after = [] ∨ ∃ next more, isSlash next = true ∧ after = next :: more

theorem segmentsOf_first (path : Bytes) : ∃ after, path = (segmentsOf path).1 ++ after ∧
    (∀ byte ∈ (segmentsOf path).1, isSlash byte = false) ∧
    (after = [] ∨ ∃ next more, isSlash next = true ∧ after = next :: more) := by
  induction path with
  | nil => exact ⟨[], rfl, fun byte member => absurd member List.not_mem_nil, Or.inl rfl⟩
  | cons byte path ih =>
    cases separates : isSlash byte with
    | true =>
      rw [segmentsOf_cons_slash byte path separates]
      exact ⟨byte :: path, rfl, fun other member => absurd member List.not_mem_nil,
        Or.inr ⟨byte, path, separates, rfl⟩⟩
    | false =>
      obtain ⟨after, whole, plain, cut⟩ := ih
      rw [segmentsOf_cons_other byte path separates]
      refine ⟨after, by rw [List.cons_append, ← whole], ?_, cut⟩
      intro other member
      obtain rfl | inside := List.mem_cons.mp member
      · exact separates
      · exact plain other inside

theorem stands_of_mem (path : Bytes) (step : UInt8 × Bytes) (member : step ∈ (segmentsOf path).2) :
    ∃ before after, Stands path step.1 step.2 before after := by
  induction path with
  | nil => cases member
  | cons byte path ih =>
    have later (inside : step ∈ (segmentsOf path).2) :
        ∃ before after, Stands (byte :: path) step.1 step.2 before after := by
      obtain ⟨before, after, stands⟩ := ih inside
      exact ⟨byte :: before, after,
        { stands with whole := by rw [List.cons_append, ← stands.whole] }⟩
    cases separates : isSlash byte with
    | true =>
      rw [segmentsOf_cons_slash byte path separates] at member
      obtain rfl | inside := List.mem_cons.mp member
      · obtain ⟨after, whole, plain, cut⟩ := segmentsOf_first path
        exact ⟨[], after, by rw [List.nil_append, ← whole], separates, plain, cut⟩
      · exact later inside
    | false =>
      rw [segmentsOf_cons_other byte path separates] at member
      exact later member

/-! ## A prefix that stays -/

/-- No segment of the steps is a dot segment. -/
def DotFree (steps : List (UInt8 × Bytes)) : Prop := ∀ step ∈ steps, step.2 ≠ dot ∧ step.2 ≠ dotDot

theorem dotFree_cons (step : UInt8 × Bytes) (steps : List (UInt8 × Bytes)) :
    DotFree (step :: steps) ↔ (step.2 ≠ dot ∧ step.2 ≠ dotDot) ∧ DotFree steps :=
  List.forall_mem_cons

theorem removeDots_plain (plain : List (UInt8 × Bytes)) (free : DotFree plain) (out : List (UInt8 × Bytes))
    (slash : UInt8) (segment : Bytes) (solid : segment ≠ dot ∧ segment ≠ dotDot) (next : UInt8)
    (following : Bytes) (more : List (UInt8 × Bytes)) :
    removeDots out slash segment (plain ++ (next, following) :: more) =
      removeDots (out ++ (slash, segment) :: plain) next following more := by
  induction plain generalizing out slash segment with
  | nil => rw [List.nil_append, removeDots, if_neg solid.1, if_neg solid.2]
  | cons step plain ih =>
    obtain ⟨first, rest⟩ := (dotFree_cons step plain).mp free
    rw [List.cons_append, removeDots, if_neg solid.1, if_neg solid.2, ih rest _ step.1 step.2 first,
      List.append_assoc, List.singleton_append]

/-- Steps without a dot segment stay as they are. -/
theorem removeDots_free (steps : List (UInt8 × Bytes)) (free : DotFree steps) (out : List (UInt8 × Bytes))
    (slash : UInt8) (segment : Bytes) (solid : segment ≠ dot ∧ segment ≠ dotDot) :
    removeDots out slash segment steps = out ++ (slash, segment) :: steps := by
  induction steps generalizing out slash segment with
  | nil => rw [removeDots, removeLast, if_neg solid.1, if_neg solid.2]
  | cons step steps ih =>
    obtain ⟨first, rest⟩ := (dotFree_cons step steps).mp free
    rw [removeDots, if_neg solid.1, if_neg solid.2, ih rest _ step.1 step.2 first, List.append_assoc,
      List.singleton_append]

/-- Without two dots nothing written is taken back, and the first separator stays. -/
theorem removeDots_keeps (steps : List (UInt8 × Bytes)) (level : ∀ step ∈ steps, step.2 ≠ dotDot)
    (out : List (UInt8 × Bytes)) (slash : UInt8) (segment : Bytes) (here : segment ≠ dotDot) :
    ∃ kept more, removeDots out slash segment steps = out ++ (slash, kept) :: more := by
  induction steps generalizing out slash segment with
  | nil =>
    rw [removeDots, removeLast]
    split
    · exact ⟨[], [], rfl⟩
    · exact ⟨segment, [], rfl⟩
  | cons step steps ih =>
    obtain ⟨next, rest⟩ := List.forall_mem_cons.mp level
    rw [removeDots]
    split
    · exact ih rest out slash step.2 next
    · obtain ⟨kept, more, same⟩ := ih rest (out ++ [(slash, segment)]) step.1 step.2 next
      refine ⟨segment, (step.1, kept) :: more, ?_⟩
      rw [same, List.append_assoc, List.singleton_append]

theorem removeDotSteps_free (steps : List (UInt8 × Bytes)) (free : DotFree steps) :
    removeDotSteps steps = steps := by
  cases steps with
  | nil => rfl
  | cons step steps =>
    obtain ⟨first, rest⟩ := (dotFree_cons step steps).mp free
    exact removeDots_free steps rest [] step.1 step.2 first

theorem removeDotSteps_keeps (plain : List (UInt8 × Bytes)) (free : DotFree plain) (slash : UInt8)
    (segment : Bytes) (steps : List (UInt8 × Bytes))
    (level : ∀ step ∈ (slash, segment) :: steps, step.2 ≠ dotDot) :
    ∃ kept more, removeDotSteps (plain ++ (slash, segment) :: steps) = plain ++ (slash, kept) :: more := by
  obtain ⟨here, later⟩ := List.forall_mem_cons.mp level
  cases plain with
  | nil => exact removeDots_keeps steps later [] slash segment here
  | cons step plain =>
    obtain ⟨first, rest⟩ := (dotFree_cons step plain).mp free
    obtain ⟨kept, more, same⟩ := removeDots_keeps steps later (step :: plain) slash segment here
    refine ⟨kept, more, ?_⟩
    rw [List.cons_append, removeDotSteps, removeDots_plain plain rest [] step.1 step.2 first,
      List.nil_append, same]

/-! ## URLs behind a prefix -/

/-- A scan that ends in a list ends there with anything behind the list. -/
theorem scan_append {α : Type} (p : α → Bool) (xs ys : List α) (ends : xs.dropWhile p ≠ []) :
    (xs ++ ys).takeWhile p = xs.takeWhile p ∧ (xs ++ ys).dropWhile p = xs.dropWhile p ++ ys := by
  induction xs with
  | nil => exact absurd rfl ends
  | cons x xs ih =>
    cases here : p x with
    | true =>
      rw [List.dropWhile_cons_of_pos here] at ends
      obtain ⟨taken, dropped⟩ := ih ends
      rw [List.cons_append, List.takeWhile_cons_of_pos here, List.takeWhile_cons_of_pos here,
        List.dropWhile_cons_of_pos here, List.dropWhile_cons_of_pos here, taken, dropped]
      exact ⟨rfl, rfl⟩
    | false =>
      have stops := Bool.eq_false_iff.mp here
      rw [List.cons_append, List.takeWhile_cons_of_neg stops, List.takeWhile_cons_of_neg stops,
        List.dropWhile_cons_of_neg stops, List.dropWhile_cons_of_neg stops]
      exact ⟨rfl, rfl⟩

theorem splitAuthorityOf_eq_some (url head rest : Bytes) (split : splitAuthorityOf url = some (head, rest)) :
    ∃ scheme first second after, url = scheme ++ 58 :: first :: second :: after ∧ 58 ∉ scheme ∧
      (isSlash first && isSlash second && !scheme.any isDelim) = true ∧
      head = scheme ++ 58 :: first :: second :: after.takeWhile (fun byte => !isDelim byte) ∧
      rest = after.dropWhile fun byte => !isDelim byte := by
  rw [splitAuthorityOf] at split
  split at split
  · next scheme first second after cut =>
    obtain ⟨whole, colon⟩ := (splitOnce_eq_some 58 url scheme _).mp cut
    split at split
    · next shaped =>
      cases split
      exact ⟨scheme, first, second, after, whole, colon, shaped, rfl, rfl⟩
    · cases split
  · cases split

theorem splitAuthorityOf_whole (url head rest : Bytes) (split : splitAuthorityOf url = some (head, rest)) :
    url = head ++ rest := by
  obtain ⟨scheme, first, second, after, rfl, -, -, rfl, rfl⟩ := splitAuthorityOf_eq_some url head rest split
  simp [List.takeWhile_append_dropWhile]

/-- Past the authority, what follows does not move it. -/
theorem splitAuthorityOf_append (url head rest more : Bytes)
    (split : splitAuthorityOf url = some (head, rest)) (past : rest ≠ []) :
    splitAuthorityOf (url ++ more) = some (head, rest ++ more) := by
  obtain ⟨scheme, first, second, after, rfl, colon, shaped, rfl, rfl⟩ :=
    splitAuthorityOf_eq_some url head rest split
  obtain ⟨taken, dropped⟩ := scan_append (fun byte => !isDelim byte) after more past
  have cut : splitOnce 58 (scheme ++ 58 :: first :: second :: after ++ more) =
      some (scheme, first :: second :: (after ++ more)) := by
    rw [List.append_assoc]
    exact splitOnce_append 58 _ _ colon
  simp only [splitAuthorityOf, cut, if_pos shaped, taken, dropped]

theorem pathOf_append_behindPath (rest : Bytes) : pathOf rest ++ behindPath rest = rest :=
  List.takeWhile_append_dropWhile

/-- What stands between delimiters is a part of the URL, cut at all of them. -/
theorem mem_splitOnP_of_cut (before segment after : Bytes) (slash : UInt8) (separates : isSlash slash = true)
    (plain : ∀ byte ∈ segment, isDelim byte = false)
    (cut : after = [] ∨ ∃ next more, isDelim next = true ∧ after = next :: more) :
    segment ∈ (before ++ slash :: (segment ++ after)).splitOnP isDelim := by
  have delim : isDelim slash = true := by rw [isDelim, separates, Bool.true_or]
  rw [List.splitOnP_append_cons before _ delim]
  apply List.mem_append_right
  obtain rfl | ⟨next, more, ends, rfl⟩ := cut
  · rw [List.append_nil, List.splitOnP_eq_singleton plain]
    exact List.mem_singleton_self segment
  · rw [List.splitOnP_append_cons segment _ ends]
    exact List.mem_append_left _ (List.splitOnP_eq_singleton plain ▸ List.mem_singleton_self segment)

/-- A segment of the path is one of the URL, which is cut at more places. -/
theorem mem_splitOnP_of_step (head rest : Bytes) (step : UInt8 × Bytes)
    (member : step ∈ (segmentsOf (pathOf rest)).2) : step.2 ∈ (head ++ rest).splitOnP isDelim := by
  obtain ⟨before, after, stands⟩ := stands_of_mem (pathOf rest) step member
  have inPath : ∀ byte ∈ pathOf rest, endsPath byte = false := fun byte inside => by
    simpa using List.mem_takeWhile_imp inside
  have plain : ∀ byte ∈ step.2, isDelim byte = false := by
    intro byte inside
    have within : byte ∈ pathOf rest := by
      rw [stands.whole]
      exact List.mem_append_right _ (List.mem_cons_of_mem _ (List.mem_append_left _ inside))
    rw [isDelim, stands.plain byte inside, inPath byte within, Bool.or_false]
  have cut : after ++ behindPath rest = [] ∨
      ∃ next more, isDelim next = true ∧ after ++ behindPath rest = next :: more := by
    obtain rfl | ⟨next, more, separates, rfl⟩ := stands.cut
    · cases behind : behindPath rest with
      | nil => exact Or.inl rfl
      | cons next more =>
        have stops := dropWhile_front (fun byte => !endsPath byte) rest next
          (by rw [behindPath] at behind; rw [behind]; rfl)
        rw [Bool.not_eq_false'] at stops
        exact Or.inr ⟨next, more, by rw [isDelim, stops, Bool.or_true], rfl⟩
    · exact Or.inr ⟨next, more ++ behindPath rest, by rw [isDelim, separates, Bool.true_or], rfl⟩
  have whole : head ++ rest = head ++ before ++ step.1 :: (step.2 ++ (after ++ behindPath rest)) := by
    calc head ++ rest
      _ = head ++ (pathOf rest ++ behindPath rest) := by rw [pathOf_append_behindPath]
      _ = head ++ before ++ step.1 :: (step.2 ++ (after ++ behindPath rest)) := by
        rw [stands.whole]
        simp
  rw [whole]
  exact mem_splitOnP_of_cut _ _ _ _ stands.separates plain cut

/-- A prefix that reaches past the authority, ends in a slash, and is spelled without percent signs
and dot segments. -/
structure Fence (fence : Bytes) : Prop where
  past : ∃ head rest, splitAuthorityOf fence = some (head, rest) ∧ rest ≠ [] ∧
    DotFree (segmentsOf (pathOf rest)).2
  slash : fence.getLast? = some 47
  noPercent : 37 ∉ fence

theorem removeDotsFrom_free (path : Bytes) (free : DotFree (segmentsOf path).2) :
    removeDotsFrom path = path := by
  rw [removeDotsFrom, removeDotSteps_free _ free, join_segmentsOf]

theorem removeDotsFrom_keeps (body more : Bytes) (slash : UInt8) (separates : isSlash slash = true)
    (free : DotFree (segmentsOf (body ++ [slash])).2)
    (level : ∀ step ∈ (segmentsOf (body ++ slash :: more)).2, step.2 ≠ dotDot) :
    body ++ [slash] <+: removeDotsFrom (body ++ slash :: more) := by
  rw [segmentsOf_append body [] slash separates] at free
  rw [segmentsOf_append body more slash separates] at level
  have plain : DotFree (segmentsOf body).2 := fun step member => free step (List.mem_append_left _ member)
  obtain ⟨kept, others, same⟩ := removeDotSteps_keeps _ plain slash (segmentsOf more).1 (segmentsOf more).2
    fun step member => level step (List.mem_append_right _ member)
  refine ⟨kept ++ joinSteps others, ?_⟩
  rw [removeDotsFrom, segmentsOf_append body more slash separates, same]
  calc body ++ [slash] ++ (kept ++ joinSteps others)
    _ = (segmentsOf body).1 ++ joinSteps (segmentsOf body).2 ++ [slash] ++ (kept ++ joinSteps others) := by
      rw [join_segmentsOf]
    _ = (segmentsOf body).1 ++ joinSteps ((segmentsOf body).2 ++ (slash, kept) :: others) := by
      simp [joinSteps]

/-- The removal of dot segments stays behind a fence as long as no segment leads up. -/
theorem Fence.keeps (fence more : Bytes) (fenced : Fence fence)
    (level : dotDot ∉ (fence ++ more).splitOnP isDelim) :
    fence <+: removeDotSegmentsOf (fence ++ more) := by
  obtain ⟨head, rest, split, past, free⟩ := fenced.past
  have whole := splitAuthorityOf_whole fence head rest split
  have reading : removeDotSegmentsOf (fence ++ more) =
      head ++ removeDotsFrom (pathOf (rest ++ more)) ++ behindPath (rest ++ more) := by
    simp only [removeDotSegmentsOf, splitAuthorityOf_append fence head rest more split past]
  rw [reading, whole]
  by_cases query : behindPath rest = []
  · -- the path goes on behind the fence
    have inPath : ∀ byte ∈ rest, (!endsPath byte) = true := List.dropWhile_eq_nil_iff.mp query
    have path : pathOf (rest ++ more) = rest ++ pathOf more := List.takeWhile_append_of_pos inPath
    obtain ⟨body, rfl⟩ : ∃ body, rest = body ++ [47] := by
      have last := fenced.slash
      rw [whole, List.getLast?_append_of_ne_nil _ past] at last
      exact List.getLast?_eq_some_iff.mp last
    have alone : pathOf (body ++ [47]) = body ++ [47] := List.takeWhile_eq_self_iff.mpr inPath
    have joined : body ++ [47] ++ pathOf more = body ++ 47 :: pathOf more := by simp
    have climbs : ∀ step ∈ (segmentsOf (body ++ 47 :: pathOf more)).2, step.2 ≠ dotDot := by
      intro step member up
      rw [← joined, ← path] at member
      have listed := mem_splitOnP_of_step head (body ++ [47] ++ more) step member
      rw [← List.append_assoc, ← whole, up] at listed
      exact level listed
    rw [alone] at free
    have kept := removeDotsFrom_keeps body (pathOf more) 47 (by decide) free climbs
    rw [path, joined]
    exact ((List.prefix_append_right_inj head).mpr kept).trans (List.prefix_append _ _)
  · -- the path ends inside the fence
    have path : pathOf (rest ++ more) = pathOf rest := (scan_append _ rest more query).1
    have behind : behindPath (rest ++ more) = behindPath rest ++ more := (scan_append _ rest more query).2
    refine ⟨more, ?_⟩
    rw [path, behind, removeDotsFrom_free _ free, List.append_assoc head (pathOf rest),
      ← List.append_assoc (pathOf rest), pathOf_append_behindPath, List.append_assoc]

end WeeboSi.Lib
