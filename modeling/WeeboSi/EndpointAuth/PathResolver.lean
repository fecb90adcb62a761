import Mathlib.Data.Bool.AllAny
import Mathlib.Data.List.TakeWhile
import WeeboSi.EndpointAuth.Path

/-!
# Normalisation against an RFC 3986 resolver

Source: crates/weebo-si-endpoint-auth/src/path.rs:68-116, whose documented order is to
resolve `.` and `..` first and to collapse repeated slashes then. `removeDotSegments` is
the algorithm of RFC 3986, section 5.2.4, on its two buffers. The source drops empty
segments before `..` removes one, so the two disagree where a `..` would remove an empty
segment (`/a//../b`).
-/
namespace WeeboSi.EndpointAuth
open WeeboSi.Lib

/-! ## The RFC's algorithm -/

/-- Remove the last segment of the output buffer and its preceding `/`. -/
def dropSegment (output : Text) : Text :=
  match rsplitOnce '/' output with
  | some (before, _) => before
  | none => []

/-- The first segment of the input buffer, with its leading `/`, and what follows. -/
def firstSegment (input : Text) : Text × Text :=
  match input with
  | '/' :: rest => ('/' :: rest.takeWhile (· ≠ '/'), rest.dropWhile (· ≠ '/'))
  | other => (other.takeWhile (· ≠ '/'), other.dropWhile (· ≠ '/'))

/-- Steps 2A to 2E. Every step shortens the input buffer. -/
def removeDotLoop : Nat → Text → Text → Text
  | 0, _, output => output
  | fuel + 1, input, output =>
    if input = [] then output
    else if ['.', '.', '/'].isPrefixOf input then removeDotLoop fuel (input.drop 3) output
    else if ['.', '/'].isPrefixOf input then removeDotLoop fuel (input.drop 2) output
    else if ['/', '.', '/'].isPrefixOf input then removeDotLoop fuel (input.drop 2) output
    else if input = ['/', '.'] then removeDotLoop fuel ['/'] output
    else if ['/', '.', '.', '/'].isPrefixOf input then
      removeDotLoop fuel (input.drop 3) (dropSegment output)
    else if input = ['/', '.', '.'] then removeDotLoop fuel ['/'] (dropSegment output)
    else if input = ['.'] ∨ input = ['.', '.'] then removeDotLoop fuel [] output
    else
      let (segment, rest) := firstSegment input
      removeDotLoop fuel rest (output ++ segment)

def removeDotSegments (path : Text) : Text := removeDotLoop (path.length + 1) path []

def collapseSlashes : Text → Text
  | '/' :: '/' :: rest => collapseSlashes ('/' :: rest)
  | c :: rest => c :: collapseSlashes rest
  | [] => []

example : removeDotSegments "/a/b/c/./../../g".toList = "/a/g".toList := by decide

/-! ## On segments -/

def joinSegments (segments : List Text) : Text := segments.flatMap ('/' :: ·)

@[simp] theorem joinSegments_nil : joinSegments [] = [] := rfl

@[simp] theorem joinSegments_cons (s : Text) (rest : List Text) :
    joinSegments (s :: rest) = '/' :: s ++ joinSegments rest := by simp [joinSegments]

@[simp] theorem joinSegments_append (a b : List Text) :
    joinSegments (a ++ b) = joinSegments a ++ joinSegments b := by simp [joinSegments]

/-- Segments of a path carry no slash. -/
def SlashFree (segments : List Text) : Prop := ∀ s ∈ segments, '/' ∉ s

theorem slashFree_splitOn (s : Text) : SlashFree (s.splitOn '/') := by
  intro part member slash
  exact ((mem_splitOn '/' '/' s).mp ⟨part, member, slash⟩).2 rfl

theorem joinSegments_splitOn (s : Text) : joinSegments (s.splitOn '/') = '/' :: s := by
  rcases splitOn_cases '/' s with ⟨-, single⟩ | ⟨a, b, hs, -, parts⟩
  · simp [single]
  · rw [parts, joinSegments_cons, joinSegments_splitOn b, hs]
    simp
termination_by s.length
decreasing_by
  simp only [hs, List.length_append, List.length_cons]
  omega

/-- What the RFC's algorithm leaves of a stack and the segments still to come; a path that
ends in a dot segment ends in a slash. -/
def rfcResolve (stack : List Text) : List Text → List Text
  | [] => stack
  | [s] =>
    if s = ['.'] then stack ++ [[]]
    else if s = ['.', '.'] then stack.dropLast ++ [[]]
    else stack ++ [s]
  | s :: next :: rest =>
    if s = ['.'] then rfcResolve stack (next :: rest)
    else if s = ['.', '.'] then rfcResolve stack.dropLast (next :: rest)
    else rfcResolve (stack ++ [s]) (next :: rest)

theorem dropSegment_join (stack : List Text) (free : SlashFree stack) :
    dropSegment (joinSegments stack) = joinSegments stack.dropLast := by
  rcases List.eq_nil_or_concat stack with rfl | ⟨front, last, rfl⟩
  · rfl
  · rw [List.concat_eq_append] at free ⊢
    have lastFree : '/' ∉ last := free last (by simp)
    simp only [joinSegments_append, joinSegments_cons, joinSegments_nil, List.append_nil,
      List.dropLast_concat, dropSegment]
    rw [rsplitOnce_append _ _ _ lastFree]

theorem firstSegment_join (s : Text) (rest : List Text) (free : '/' ∉ s) :
    firstSegment ('/' :: s ++ joinSegments rest) = ('/' :: s, joinSegments rest) := by
  have inside : ∀ c ∈ s, decide (c ≠ '/') = true := by
    intro c member
    rw [decide_eq_true_eq]
    rintro rfl
    exact free member
  have after : (joinSegments rest).takeWhile (· ≠ '/') = [] ∧
      (joinSegments rest).dropWhile (· ≠ '/') = joinSegments rest := by
    cases rest with
    | nil => exact ⟨rfl, rfl⟩
    | cons t more => simp
  simp only [firstSegment, List.cons_append, List.takeWhile_append_of_pos inside,
    List.dropWhile_append_of_pos inside, after.1, after.2, List.append_nil]

/-- Before a `/` or the end, a slash-free segment is read whole. -/
theorem segment_unique (s dots more : Text) (rest : List Text) (free : '/' ∉ s)
    (dotsFree : '/' ∉ dots) (h : s ++ joinSegments rest = dots ++ '/' :: more) : s = dots := by
  cases rest with
  | nil =>
    simp only [joinSegments_nil, List.append_nil] at h
    rw [h] at free
    simp at free
  | cons t rest =>
    have cut := splitOnce_append '/' dots more dotsFree
    rw [← h, joinSegments_cons, List.cons_append, splitOnce_append '/' s _ free] at cut
    cases cut
    rfl

/-- A trailing dot segment leaves `/` in the input buffer, which is moved as it stands. -/
theorem removeDotLoop_slash (fuel : Nat) (output : Text) (two : 1 < fuel) :
    removeDotLoop fuel ['/'] output = output ++ ['/'] := by
  obtain ⟨fuel, rfl⟩ := Nat.exists_eq_add_of_le' two
  simp [removeDotLoop, firstSegment]

section First
variable (s t : Text) (rest : List Text) (sFree : '/' ∉ s) (tFree : '/' ∉ t) (differs : s ≠ t)
include tFree differs

include sFree in
theorem first_not_before_slash : ('/' :: t ++ ['/']).isPrefixOf ('/' :: s ++ joinSegments rest) = false := by
  rw [Bool.eq_false_iff, ne_eq, List.isPrefixOf_iff_prefix]
  rintro ⟨more, same⟩
  refine differs (segment_unique s t more rest sFree tFree ?_)
  simpa using same.symm

theorem first_not_last : '/' :: s ++ joinSegments rest ≠ '/' :: t := by
  intro same
  cases rest with
  | nil => exact differs (by simpa using same)
  | cons u more =>
    have member : '/' ∈ t := by
      rw [← (List.cons.inj same).2]
      simp
    exact tFree member

end First

/-- A segment that is no dot segment is moved to the output buffer. -/
theorem removeDotLoop_moved (fuel : Nat) (s : Text) (rest stack : List Text) (sFree : '/' ∉ s)
    (dot : s ≠ ['.']) (dots : s ≠ ['.', '.']) :
    removeDotLoop (fuel + 1) ('/' :: s ++ joinSegments rest) (joinSegments stack) =
      removeDotLoop fuel (joinSegments rest) (joinSegments (stack ++ [s])) := by
  have noDot : ¬['/', '.', '/'].isPrefixOf ('/' :: s ++ joinSegments rest) = true :=
    Bool.eq_false_iff.mp (first_not_before_slash s ['.'] rest sFree (by decide) dot)
  have noDots : ¬['/', '.', '.', '/'].isPrefixOf ('/' :: s ++ joinSegments rest) = true :=
    Bool.eq_false_iff.mp (first_not_before_slash s ['.', '.'] rest sFree (by decide) dots)
  have notDot := first_not_last s ['.'] rest (by decide) dot
  have notDots := first_not_last s ['.', '.'] rest (by decide) dots
  rw [removeDotLoop, if_neg (by simp), if_neg (by simp [List.isPrefixOf]),
    if_neg (by simp [List.isPrefixOf]), if_neg noDot, if_neg notDot, if_neg noDots, if_neg notDots,
    if_neg (by simp), firstSegment_join s rest sFree]
  simp

theorem removeDotLoop_join (fuel : Nat) (segments stack : List Text) (free : SlashFree segments)
    (stackFree : SlashFree stack) (enough : (joinSegments segments).length < fuel) :
    removeDotLoop fuel (joinSegments segments) (joinSegments stack) =
      joinSegments (rfcResolve stack segments) := by
  induction segments generalizing fuel stack with
  | nil =>
    cases fuel with
    | zero => simp at enough
    | succ fuel => simp [removeDotLoop, rfcResolve]
  | cons s rest ih =>
    have sFree : '/' ∉ s := free s (by simp)
    have restFree : SlashFree rest := fun t member => free t (by simp [member])
    have dropFree : SlashFree stack.dropLast := fun t member =>
      stackFree t (List.mem_of_mem_dropLast member)
    simp only [joinSegments_cons, List.length_append, List.length_cons] at enough
    obtain ⟨fuel, rfl⟩ : ∃ n, fuel = n + 1 := ⟨fuel - 1, by omega⟩
    by_cases dot : s = ['.']
    · subst dot
      cases rest with
      | nil =>
        simp only [joinSegments_cons, joinSegments_nil, List.append_nil, removeDotLoop, rfcResolve]
        simp only [List.length_cons, List.length_nil, joinSegments_nil] at enough
        simpa using removeDotLoop_slash fuel (joinSegments stack) (by omega)
      | cons t more =>
        have step := ih fuel stack restFree stackFree (by
          simp only [List.length_cons, List.length_nil] at enough
          omega)
        simpa [removeDotLoop, rfcResolve] using step
    · by_cases dots : s = ['.', '.']
      · subst dots
        cases rest with
        | nil =>
          simp only [joinSegments_cons, joinSegments_nil, List.append_nil, removeDotLoop, rfcResolve,
            dropSegment_join stack stackFree]
          simp only [List.length_cons, List.length_nil, joinSegments_nil] at enough
          simpa using removeDotLoop_slash fuel (joinSegments stack.dropLast) (by omega)
        | cons t more =>
          have step := ih fuel stack.dropLast restFree dropFree (by
            simp only [List.length_cons, List.length_nil] at enough
            omega)
          simpa [removeDotLoop, rfcResolve, dropSegment_join stack stackFree] using step
      · have pushed : SlashFree (stack ++ [s]) := by
          intro t member
          simp only [List.mem_append, List.mem_singleton] at member
          rcases member with member | rfl
          · exact stackFree t member
          · exact sFree
        rw [joinSegments_cons, removeDotLoop_moved fuel s rest stack sFree dot dots,
          ih fuel (stack ++ [s]) restFree pushed (by omega)]
        cases rest with
        | nil => simp [rfcResolve, dot, dots]
        | cons t more => simp [rfcResolve, dot, dots]

theorem rfcResolve_slashFree (stack segments : List Text) (free : SlashFree segments)
    (stackFree : SlashFree stack) : SlashFree (rfcResolve stack segments) := by
  have dropFree : SlashFree stack.dropLast := fun t member =>
    stackFree t (List.mem_of_mem_dropLast member)
  have pushed : ∀ (base : List Text) (s : Text), SlashFree base → '/' ∉ s → SlashFree (base ++ [s]) := by
    intro base s baseFree sFree t member
    simp only [List.mem_append, List.mem_singleton] at member
    rcases member with member | rfl
    · exact baseFree t member
    · exact sFree
  fun_induction rfcResolve stack segments with
  | case1 stack => exact stackFree
  | case2 stack => exact pushed _ _ stackFree (by simp)
  | case3 stack => exact pushed _ _ dropFree (by simp)
  | case4 stack s => exact pushed _ _ stackFree (free s (by simp))
  | case5 stack next rest ih =>
    exact ih (fun t member => free t (by simp [member])) stackFree dropFree
  | case6 stack next rest _ ih =>
    exact ih (fun t member => free t (by simp [member])) dropFree
      (fun t member => dropFree t (List.mem_of_mem_dropLast member))
  | case7 stack s next rest _ _ ih =>
    have more := pushed stack s stackFree (free s (by simp))
    exact ih (fun t member => free t (by simp [member])) more
      (fun t member => more t (List.mem_of_mem_dropLast member))

/-- Whether the resolved path is a directory: its last segment is empty. -/
def endsInSlash (segments : List Text) : Bool := segments.getLast? = some []

def nonEmpty (segments : List Text) : List Text := segments.filter (· ≠ [])

/-! ## Collapsing -/

theorem collapse_cons (c : Char) (rest : Text) (single : c = '/' → rest.head? ≠ some '/') :
    collapseSlashes (c :: rest) = c :: collapseSlashes rest := by
  rw [collapseSlashes]
  rintro more rfl rfl
  exact single rfl rfl

theorem collapse_segment (s rest : Text) (free : '/' ∉ s) (nonempty : s ≠ []) :
    collapseSlashes ('/' :: s ++ rest) = '/' :: s ++ collapseSlashes rest := by
  have inside : ∀ t : Text, '/' ∉ t → collapseSlashes (t ++ rest) = t ++ collapseSlashes rest := by
    intro t tFree
    induction t with
    | nil => rfl
    | cons c t ih =>
      simp only [List.mem_cons, not_or] at tFree
      rw [List.cons_append, collapse_cons _ _ (fun slash => absurd slash.symm tFree.1), ih tFree.2]
      rfl
  obtain ⟨c, t, rfl⟩ := List.exists_cons_of_ne_nil nonempty
  have first : ((c :: t) ++ rest).head? ≠ some '/' := by
    rintro ⟨⟩
    simp at free
  rw [List.cons_append, collapse_cons _ _ (fun _ => first), inside (c :: t) free]
  rfl

/-- Collapsing joined segments keeps the non-empty ones, and the slash a directory ends in. -/
theorem collapse_join (segments : List Text) (free : SlashFree segments) (some_ : segments ≠ []) :
    collapseSlashes (joinSegments segments) = renderPath (nonEmpty segments) (endsInSlash segments) := by
  induction segments with
  | nil => exact absurd rfl some_
  | cons s rest ih =>
    have sFree : '/' ∉ s := free s (by simp)
    have restFree : SlashFree rest := fun t member => free t (by simp [member])
    cases rest with
    | nil =>
      by_cases empty : s = []
      · subst empty
        decide
      · have only := collapse_segment s [] sFree empty
        have closed : endsInSlash [s] = false := by simp [endsInSlash, empty]
        simp only [List.append_nil] at only
        simp only [joinSegments_cons, joinSegments_nil, List.append_nil, only, closed]
        simp [nonEmpty, empty, renderPath, collapseSlashes]
    | cons t more =>
      have tail := ih restFree (by simp)
      have last : endsInSlash (s :: t :: more) = endsInSlash (t :: more) := by
        simp [endsInSlash, List.getLast?_cons_cons]
      rw [last]
      by_cases empty : s = []
      · have same : nonEmpty (s :: t :: more) = nonEmpty (t :: more) := by simp [nonEmpty, empty]
        rw [same, ← tail, empty, joinSegments_cons, joinSegments_cons]
        simp [collapseSlashes]
      · have kept : nonEmpty (s :: t :: more) = s :: nonEmpty (t :: more) := by simp [nonEmpty, empty]
        rw [kept, joinSegments_cons, collapse_segment s _ sFree empty, tail]
        by_cases none : nonEmpty (t :: more) = []
        · -- all that follows is empty, so the path ends in a slash
          have closing : endsInSlash (t :: more) = true := by
            simp only [nonEmpty, List.filter_eq_nil_iff, decide_eq_true_eq, not_not] at none
            obtain ⟨final, hfinal⟩ : ∃ final, (t :: more).getLast? = some final :=
              ⟨_, List.getLast?_eq_some_getLast (by simp)⟩
            rw [endsInSlash, hfinal, none final (List.mem_of_getLast? hfinal)]
            rfl
          simp [none, closing, renderPath]
        · simp [renderPath, none]

/-! ## The source's fold -/

/-- The fold of the source on segments without an encoding: empty segments are passed over. -/
def dropResolve (out : List Text) : List Text → Option (List Text)
  | [] => some out
  | s :: rest =>
    if s = [] ∨ s = ['.'] then dropResolve out rest
    else if s = ['.', '.'] then
      if out = [] then none else dropResolve out.dropLast rest
    else dropResolve (out ++ [s]) rest

/-- How many `..` remove an empty segment when empty segments are kept. -/
def emptiesRemoved (stack : List Text) : List Text → Nat
  | [] => 0
  | s :: rest =>
    if s = ['.'] then emptiesRemoved stack rest
    else if s = ['.', '.'] then
      (if endsInSlash stack then 1 else 0) + emptiesRemoved stack.dropLast rest
    else emptiesRemoved (stack ++ [s]) rest

theorem walkSegments_cons (s : Text) (rest out : List Text) (dotted : Bool) (percent : '%' ∉ s)
    (semicolon : ';' ∉ s) :
    walkSegments (s :: rest) out dotted =
      if s = [] then walkSegments rest out dotted
      else if s = ['.'] then walkSegments rest out true
      else if s = ['.', '.'] then
        if out = [] then .error .escapesRoot else walkSegments rest out.dropLast true
      else walkSegments rest (out ++ [octets s]) false := by
  have dot := octets_eq_ascii s ['.'] (List.all_iff_forall_prop.mp (by decide))
  have dots := octets_eq_ascii s ['.', '.'] (List.all_iff_forall_prop.mp (by decide))
  conv_lhs => unfold walkSegments
  simp only [decodeOnce_plain s percent semicolon, bind, Except.bind, octets_eq_nil, dot, dots]

theorem walkSegments_plain (segments out : List Text) (dotted ended : Bool) (result : List Text)
    (plain : ∀ s ∈ segments, '%' ∉ s ∧ ';' ∉ s)
    (h : walkSegments segments (out.map octets) dotted = .ok (result, ended)) :
    ∃ kept, dropResolve out segments = some kept ∧ result = kept.map octets := by
  induction segments generalizing out dotted with
  | nil =>
    cases h
    exact ⟨out, rfl, rfl⟩
  | cons s rest ih =>
    obtain ⟨percent, semicolon⟩ := plain s (by simp)
    have restPlain : ∀ t ∈ rest, '%' ∉ t ∧ ';' ∉ t := fun t member => plain t (by simp [member])
    rw [walkSegments_cons s rest _ dotted percent semicolon] at h
    unfold dropResolve
    split at h
    · rename_i empty
      rw [if_pos (Or.inl empty)]
      exact ih out dotted restPlain h
    · split at h
      · rename_i dot
        rw [if_pos (Or.inr dot)]
        exact ih out true restPlain h
      · rename_i empty dot
        rw [if_neg (by simp [empty, dot])]
        split at h
        · rename_i dots
          rw [if_pos dots]
          simp only [guard_eq_ok, List.map_eq_nil_iff] at h
          rw [if_neg h.1]
          exact ih out.dropLast true restPlain (by simpa using h.2)
        · rename_i dots
          rw [if_neg dots]
          exact ih (out ++ [s]) false restPlain (by simpa using h)

/-- The flag and the path's own end say together that the last segment is empty or dots. -/
theorem walkSegments_ended (segments out : List Text) (dotted ended : Bool) (result : List Text)
    (plain : ∀ s ∈ segments, '%' ∉ s ∧ ';' ∉ s) (some_ : segments ≠ [])
    (h : walkSegments segments out dotted = .ok (result, ended)) :
    (segments.getLast? = some [] ∨ ended = true) ↔
      (segments.getLast? = some [] ∨ segments.getLast? = some ['.'] ∨
        segments.getLast? = some ['.', '.']) := by
  induction segments generalizing out dotted with
  | nil => exact absurd rfl some_
  | cons s rest ih =>
    obtain ⟨percent, semicolon⟩ := plain s (by simp)
    have restPlain : ∀ t ∈ rest, '%' ∉ t ∧ ';' ∉ t := fun t member => plain t (by simp [member])
    rw [walkSegments_cons s rest _ dotted percent semicolon] at h
    cases rest with
    | cons t more =>
      simp only [List.getLast?_cons_cons]
      have next : ∃ out' dotted', walkSegments (t :: more) out' dotted' = .ok (result, ended) := by
        split at h
        · exact ⟨_, _, h⟩
        · split at h
          · exact ⟨_, _, h⟩
          · split at h
            · simp only [guard_eq_ok] at h
              exact ⟨_, _, h.2⟩
            · exact ⟨_, _, h⟩
      obtain ⟨out', dotted', h⟩ := next
      exact ih out' dotted' restPlain (by simp) h
    | nil =>
      simp only [List.getLast?_singleton, Option.some.injEq]
      split at h
      · rename_i empty
        simp [empty]
      · split at h
        · rename_i dot
          cases h
          simp [dot]
        · split at h
          · rename_i dots
            simp only [guard_eq_ok] at h
            cases h.2
            simp [dots]
          · rename_i empty dot dots
            cases h
            simp [empty, dot, dots]

theorem rfcResolve_ends (stack segments : List Text) (some_ : segments ≠ []) :
    endsInSlash (rfcResolve stack segments) = true ↔
      (segments.getLast? = some [] ∨ segments.getLast? = some ['.'] ∨
        segments.getLast? = some ['.', '.']) := by
  fun_induction rfcResolve stack segments with
  | case1 stack => exact absurd rfl some_
  | case2 stack => simp [endsInSlash]
  | case3 stack => simp [endsInSlash]
  | case4 stack s dot dots => simp [endsInSlash, dot, dots]
  | case5 stack next rest ih => simpa [List.getLast?_cons_cons] using ih (by simp)
  | case6 stack next rest _ ih => simpa [List.getLast?_cons_cons] using ih (by simp)
  | case7 stack s next rest _ _ ih => simpa [List.getLast?_cons_cons] using ih (by simp)

/-! ## The two folds compared -/

@[simp] theorem nonEmpty_append (a b : List Text) : nonEmpty (a ++ b) = nonEmpty a ++ nonEmpty b := by
  simp [nonEmpty]

@[simp] theorem nonEmpty_nil_segment : nonEmpty [[]] = [] := rfl

/-- Removing the last segment of the kept stack: an empty one costs nothing. -/
theorem nonEmpty_dropLast (stack : List Text) (some_ : nonEmpty stack ≠ []) :
    (endsInSlash stack = true ∧ nonEmpty stack.dropLast = nonEmpty stack) ∨
      (endsInSlash stack = false ∧ nonEmpty stack.dropLast = (nonEmpty stack).dropLast) := by
  rcases List.eq_nil_or_concat stack with rfl | ⟨front, last, rfl⟩
  · exact absurd rfl some_
  · rw [List.concat_eq_append, List.dropLast_concat, nonEmpty_append]
    by_cases empty : last = []
    · exact Or.inl ⟨by simp [endsInSlash, empty], by simp [nonEmpty, empty]⟩
    · exact Or.inr ⟨by simp [endsInSlash, empty], by simp [nonEmpty, empty]⟩

/-- A segment that is neither `.` nor `..` goes on the stack. -/
theorem rfcResolve_push (stack rest : List Text) (s : Text) (dot : s ≠ ['.']) (dots : s ≠ ['.', '.']) :
    rfcResolve stack (s :: rest) = rfcResolve (stack ++ [s]) rest := by
  cases rest with
  | nil => simp [rfcResolve, dot, dots]
  | cons t more => simp [rfcResolve, dot, dots]

/-- Each `..` that removes an empty segment leaves the RFC's path one segment longer than
the source's. -/
theorem resolve_lengths (stack out segments kept : List Text)
    (h : dropResolve out segments = some kept) (behind : out.length ≤ (nonEmpty stack).length) :
    (nonEmpty (rfcResolve stack segments)).length + out.length =
      kept.length + (nonEmpty stack).length + emptiesRemoved stack segments := by
  induction segments generalizing stack out with
  | nil =>
    cases h
    simp [rfcResolve, emptiesRemoved, Nat.add_comm]
  | cons s rest ih =>
    unfold dropResolve at h
    unfold emptiesRemoved
    by_cases dot : s = ['.']
    · rw [if_pos (Or.inr dot)] at h
      rw [if_pos dot]
      cases rest with
      | nil =>
        cases h
        simp [rfcResolve, dot, emptiesRemoved, Nat.add_comm]
      | cons t more => simpa [rfcResolve, dot] using ih stack out h behind
    · by_cases dots : s = ['.', '.']
      · rw [if_neg (by simp [dots]), if_pos dots] at h
        rw [if_neg dot, if_pos dots]
        split at h
        · cases h
        · rename_i some_
          have positive := List.length_pos_of_ne_nil some_
          have stacked : nonEmpty stack ≠ [] := List.ne_nil_of_length_pos (by omega)
          have shorter : out.dropLast.length = out.length - 1 := by simp
          have kept' : (nonEmpty (rfcResolve stack (s :: rest))).length + (out.length - 1) =
              kept.length + (nonEmpty stack.dropLast).length + emptiesRemoved stack.dropLast rest := by
            have within : out.dropLast.length ≤ (nonEmpty stack.dropLast).length := by
              rcases nonEmpty_dropLast stack stacked with ⟨-, same⟩ | ⟨-, less⟩
              · rw [same]
                omega
              · rw [less]
                simp only [List.length_dropLast]
                omega
            have step := ih stack.dropLast out.dropLast h within
            rw [shorter] at step
            cases rest with
            | nil =>
              simpa [rfcResolve, dots] using step
            | cons t more => simpa [rfcResolve, dots] using step
          rcases nonEmpty_dropLast stack stacked with ⟨ends, same⟩ | ⟨ends, less⟩
          · rw [same] at kept'
            simp only [ends, if_true]
            omega
          · have count := List.length_pos_of_ne_nil stacked
            rw [less, List.length_dropLast] at kept'
            simp only [ends, Bool.false_eq_true, if_false]
            omega
      · rw [if_neg dot, if_neg dots]
        rw [rfcResolve_push stack rest s dot dots]
        by_cases empty : s = []
        · rw [if_pos (Or.inl empty)] at h
          have same : nonEmpty (stack ++ [s]) = nonEmpty stack := by simp [nonEmpty, empty]
          have step := ih (stack ++ [s]) out h (by rwa [same])
          rwa [same] at step
        · rw [if_neg (by simp [empty, dot]), if_neg dots] at h
          have more : nonEmpty (stack ++ [s]) = nonEmpty stack ++ [s] := by simp [nonEmpty, empty]
          have step := ih (stack ++ [s]) (out ++ [s]) h (by simp [more, behind])
          rw [more] at step
          simp only [List.length_append, List.length_singleton] at step
          omega

/-- Where no `..` removes an empty segment the two folds keep the same segments. -/
theorem resolve_same (stack segments kept : List Text)
    (h : dropResolve (nonEmpty stack) segments = some kept)
    (none : emptiesRemoved stack segments = 0) : kept = nonEmpty (rfcResolve stack segments) := by
  induction segments generalizing stack with
  | nil =>
    cases h
    rfl
  | cons s rest ih =>
    unfold dropResolve at h
    unfold emptiesRemoved at none
    by_cases dot : s = ['.']
    · rw [if_pos (Or.inr dot)] at h
      rw [if_pos dot] at none
      cases rest with
      | nil =>
        cases h
        simp [rfcResolve, dot, nonEmpty]
      | cons t more => simpa [rfcResolve, dot] using ih stack h none
    · by_cases dots : s = ['.', '.']
      · rw [if_neg (by simp [dots]), if_pos dots] at h
        rw [if_neg dot, if_pos dots] at none
        split at h
        · cases h
        · rename_i some_
          rcases nonEmpty_dropLast stack some_ with ⟨ends, -⟩ | ⟨ends, less⟩
          · simp [ends] at none
          · simp only [ends, Bool.false_eq_true, if_false, Nat.zero_add] at none
            rw [← less] at h
            have step := ih stack.dropLast h none
            cases rest with
            | nil =>
              rw [step]
              simp [rfcResolve, dots, nonEmpty]
            | cons t more => simpa [rfcResolve, dots] using step
      · rw [if_neg dot, if_neg dots] at none
        rw [rfcResolve_push stack rest s dot dots]
        by_cases empty : s = []
        · rw [if_pos (Or.inl empty)] at h
          have same : nonEmpty (stack ++ [s]) = nonEmpty stack := by simp [nonEmpty, empty]
          exact ih (stack ++ [s]) (by rwa [same]) none
        · rw [if_neg (by simp [empty, dot]), if_neg dots] at h
          have more : nonEmpty (stack ++ [s]) = nonEmpty stack ++ [s] := by simp [nonEmpty, empty]
          exact ih (stack ++ [s]) (by rwa [more]) none

/-! ## Rendered paths -/

theorem count_join (segments : List Text) (free : SlashFree segments) :
    (joinSegments segments).count '/' = segments.length := by
  induction segments with
  | nil => rfl
  | cons s rest ih =>
    have sFree := List.count_eq_zero_of_not_mem (free s (by simp))
    have more := ih (fun t member => free t (by simp [member]))
    simp only [joinSegments_cons, List.count_append, List.count_cons_self, List.length_cons, sFree, more]
    omega

/-- A rendered path shows how many segments it has. -/
theorem renderPath_length (a b : List Text) (trailing : Bool) (aFree : SlashFree a)
    (bFree : SlashFree b) (aSolid : ∀ s ∈ a, s ≠ []) (bSolid : ∀ s ∈ b, s ≠ [])
    (same : renderPath a trailing = renderPath b trailing) : a.length = b.length := by
  have root : ∀ c : List Text, (∀ s ∈ c, s ≠ []) → renderPath c trailing = ['/'] → c = [] := by
    intro c solid whole
    cases c with
    | nil => rfl
    | cons s rest =>
      obtain ⟨d, t, rfl⟩ := List.exists_cons_of_ne_nil (solid s (by simp))
      simp [renderPath] at whole
  by_cases aNil : a = []
  · subst aNil
    rw [root b bSolid (same.symm.trans (by simp [renderPath]))]
  · by_cases bNil : b = []
    · subst bNil
      exact absurd (root a aSolid (same.trans (by simp [renderPath]))) aNil
    · have counts := congrArg (List.count '/') same
      have ja := count_join a aFree
      have jb := count_join b bFree
      simp only [joinSegments] at ja jb
      simp only [renderPath, aNil, bNil, false_or, List.count_append, ja, jb] at counts
      omega

theorem octets_render (segments : List Text) (trailing : Bool) :
    octets (renderPath segments trailing) = renderPath (segments.map octets) trailing := by
  have joined : octets (segments.flatMap ('/' :: ·)) = (segments.map octets).flatMap ('/' :: ·) := by
    induction segments with
    | nil => rfl
    | cons s rest ih =>
      have slash : octets ('/' :: s) = '/' :: octets s := by
        rw [octets_cons, octets_char_ascii _ (by decide)]
        rfl
      simp only [List.flatMap_cons, octets_append, slash, ih, List.map_cons]
  unfold renderPath
  rw [octets_append, joined]
  congr 1
  simp only [List.map_eq_nil_iff]
  split
  · exact octets_of_ascii _ (List.all_iff_forall_prop.mp (by decide))
  · rfl

/-- Equal as texts, octet by octet, means that no character needs two octets. -/
theorem octets_eq_self (s : Text) : octets s = s ↔ ∀ c ∈ s, c.utf8Size = 1 := by
  constructor
  · intro same
    have bytes := length_octets s
    rw [same] at bytes
    clear same
    induction s with
    | nil => simp
    | cons c s ih =>
      have one := c.utf8Size_pos
      have more := length_le_byteLen s
      simp only [List.length_cons, byteLen_cons] at bytes
      simp only [List.mem_cons, forall_eq_or_imp]
      exact ⟨by omega, ih (by omega)⟩
  · exact octets_of_ascii s

/-! ## Agreement -/

theorem rfcResolve_ne_nil (stack segments : List Text) (some_ : segments ≠ []) :
    rfcResolve stack segments ≠ [] := by
  fun_induction rfcResolve stack segments with
  | case1 stack => exact absurd rfl some_
  | case2 stack => simp
  | case3 stack => simp
  | case4 stack s => simp
  | case5 stack next rest ih => exact ih (by simp)
  | case6 stack next rest _ ih => exact ih (by simp)
  | case7 stack s next rest _ _ ih => exact ih (by simp)

theorem dropResolve_slashFree (out segments kept : List Text) (free : SlashFree segments)
    (outFree : SlashFree out) (h : dropResolve out segments = some kept) : SlashFree kept := by
  induction segments generalizing out with
  | nil =>
    cases h
    exact outFree
  | cons s rest ih =>
    have restFree : SlashFree rest := fun t member => free t (by simp [member])
    unfold dropResolve at h
    split at h
    · exact ih out restFree outFree h
    · split at h
      · split at h
        · cases h
        · exact ih _ restFree (fun t member => outFree t (List.mem_of_mem_dropLast member)) h
      · refine ih _ restFree ?_ h
        intro t member
        simp only [List.mem_append, List.mem_singleton] at member
        rcases member with member | rfl
        · exact outFree t member
        · exact free t (by simp)

theorem dropResolve_solid (out segments kept : List Text) (outSolid : ∀ s ∈ out, s ≠ [])
    (h : dropResolve out segments = some kept) : ∀ s ∈ kept, s ≠ [] := by
  induction segments generalizing out with
  | nil =>
    cases h
    exact outSolid
  | cons s rest ih =>
    unfold dropResolve at h
    split at h
    · exact ih out outSolid h
    · rename_i plain
      split at h
      · split at h
        · cases h
        · exact ih _ (fun t member => outSolid t (List.mem_of_mem_dropLast member)) h
      · refine ih _ ?_ h
        intro t member
        simp only [List.mem_append, List.mem_singleton] at member
        rcases member with member | rfl
        · exact outSolid t member
        · exact fun empty => plain (Or.inl empty)

theorem getLast_join (segments : List Text) (free : SlashFree segments) (some_ : segments ≠ []) :
    (joinSegments segments).getLast? = some '/' ↔ segments.getLast? = some [] := by
  rcases List.eq_nil_or_concat segments with rfl | ⟨front, last, rfl⟩
  · exact absurd rfl some_
  · rw [List.concat_eq_append] at free ⊢
    have lastFree : '/' ∉ last := free last (by simp)
    simp only [joinSegments_append, joinSegments_cons, joinSegments_nil, List.append_nil,
      List.getLast?_append, List.getLast?_singleton, Option.some_or, Option.some.injEq]
    rcases List.eq_nil_or_concat last with rfl | ⟨before, c, rfl⟩
    · simp
    · simp only [List.concat_eq_append, List.mem_append, List.mem_singleton, not_or] at lastFree
      have ends : ('/' :: before.concat c).getLast? = some c := by
        rw [List.concat_eq_append, ← List.cons_append, List.getLast?_concat]
      rw [ends]
      simp [Ne.symm lastFree.2]

theorem mem_collapse (c : Char) (s : Text) : c ∈ collapseSlashes s ↔ c ∈ s := by
  fun_induction collapseSlashes s with
  | case1 rest ih => simp [ih]
  | case2 d rest _ ih => simp [ih]
  | case3 => simp

/-- On an accepted path without encodings, parameters, query or fragment, the segments the
source keeps, and the flag that closes them, which is the RFC's. -/
theorem normalise_plain (raw normal : Text) (absent : ∀ c ∈ raw, c ∉ ['%', ';', '?', '#'])
    (h : normalise raw = .ok normal) :
    ∃ kept, dropResolve [] (raw.tail.splitOn '/') = some kept ∧
      normal = renderPath (kept.map octets) (endsInSlash (rfcResolve [] (raw.tail.splitOn '/'))) := by
  unfold normalise at h
  rw [guard_eq_ok] at h
  obtain ⟨shape, h⟩ := h
  rw [not_or, not_not] at shape
  obtain ⟨rest, rfl⟩ : ∃ rest, raw = '/' :: rest := List.head?_eq_some_iff.mp shape.1
  have whole : ('/' :: rest).takeWhile (fun c => c ≠ '?' && c ≠ '#') = '/' :: rest := by
    rw [List.takeWhile_eq_self_iff]
    intro c member
    have := absent c member
    simp only [List.mem_cons, List.not_mem_nil, or_false, not_or] at this
    simp [this]
  have parts : ('/' :: rest).splitOn '/' = [] :: rest.splitOn '/' :=
    splitOn_append '/' [] rest (by simp)
  have some_ : rest.splitOn '/' ≠ [] := List.splitOn_ne_nil _ _
  have free := slashFree_splitOn rest
  have plain : ∀ s ∈ rest.splitOn '/', '%' ∉ s ∧ ';' ∉ s := by
    intro s member
    have inside : ∀ c ∈ s, c ∈ '/' :: rest := fun c hc =>
      List.mem_cons_of_mem _ ((mem_splitOn '/' c rest).mp ⟨s, member, hc⟩).1
    exact ⟨fun hc => absent _ (inside _ hc) (by simp), fun hc => absent _ (inside _ hc) (by simp)⟩
  simp only [whole, parts, bind_eq_ok] at h
  obtain ⟨⟨out, ended⟩, walked, rendered⟩ := h
  rw [walkSegments_cons [] _ _ _ (by simp) (by simp), if_pos rfl] at walked
  obtain ⟨kept, resolved, rfl⟩ := walkSegments_plain _ [] false ended out plain walked
  refine ⟨kept, resolved, ?_⟩
  have ends := walkSegments_ended _ _ false ended _ plain some_ walked
  rw [← rfcResolve_ends [] _ some_, ← getLast_join _ free some_, joinSegments_splitOn] at ends
  have flag : (decide (('/' :: rest).getLast? = some '/') || ended) =
      endsInSlash (rfcResolve [] (rest.splitOn '/')) := by
    rw [Bool.eq_iff_iff, ← ends, Bool.or_eq_true, decide_eq_true_eq]
  rw [← Except.ok.inj rendered, flag]
  rfl

/-- The source and RFC 3986 agree on a path exactly when no `..` removes an empty segment
and no surviving character needs more than one byte. -/
theorem normalise_rfc3986_iff (raw normal : Text) (absent : ∀ c ∈ raw, c ∉ ['%', ';', '?', '#'])
    (h : normalise raw = .ok normal) :
    normal = collapseSlashes (removeDotSegments raw) ↔
      emptiesRemoved [] (raw.tail.splitOn '/') = 0 ∧ ∀ c ∈ removeDotSegments raw, c.utf8Size = 1 := by
  obtain ⟨kept, resolved, rfl⟩ := normalise_plain raw normal absent h
  have slash : raw.head? = some '/' := by
    unfold normalise at h
    rw [guard_eq_ok, not_or, not_not] at h
    exact h.1.1
  obtain ⟨rest, rfl⟩ : ∃ rest, raw = '/' :: rest := List.head?_eq_some_iff.mp slash
  rw [List.tail_cons] at resolved ⊢
  have some_ : rest.splitOn '/' ≠ [] := List.splitOn_ne_nil _ _
  have free := slashFree_splitOn rest
  have rfc : removeDotSegments ('/' :: rest) = joinSegments (rfcResolve [] (rest.splitOn '/')) := by
    have loop := removeDotLoop_join (('/' :: rest).length + 1) (rest.splitOn '/') [] free
      (by simp [SlashFree]) (by simp [joinSegments_splitOn])
    rwa [joinSegments_splitOn] at loop
  have resolvedFree := rfcResolve_slashFree [] _ free (by simp [SlashFree])
  have collapsed : collapseSlashes (removeDotSegments ('/' :: rest)) =
      renderPath (nonEmpty (rfcResolve [] (rest.splitOn '/')))
        (endsInSlash (rfcResolve [] (rest.splitOn '/'))) := by
    rw [rfc]
    exact collapse_join _ resolvedFree (rfcResolve_ne_nil _ _ some_)
  have lengths := resolve_lengths [] [] _ kept resolved (by simp)
  rw [← octets_render]
  constructor
  · intro same
    have keptFree := dropResolve_slashFree [] _ kept free (by simp [SlashFree]) resolved
    have keptSolid := dropResolve_solid [] _ kept (by simp) resolved
    have counts : (kept.map octets).length = (nonEmpty (rfcResolve [] (rest.splitOn '/'))).length := by
      rw [collapsed, octets_render] at same
      refine renderPath_length _ _ _ ?_ ?_ ?_ ?_ same
      · intro s member slashIn
        obtain ⟨t, inKept, rfl⟩ := List.mem_map.mp member
        exact keptFree t inKept ((mem_octets '/' t (by decide)).mp slashIn)
      · exact fun s member => resolvedFree s (List.mem_of_mem_filter member)
      · intro s member empty
        obtain ⟨t, inKept, rfl⟩ := List.mem_map.mp member
        exact keptSolid t inKept ((octets_eq_nil t).mp empty)
      · intro s member
        simpa using List.of_mem_filter member
    rw [List.length_map] at counts
    have none : emptiesRemoved [] (rest.splitOn '/') = 0 := by
      simp only [nonEmpty, List.filter_nil, List.length_nil] at lengths counts
      omega
    refine ⟨none, ?_⟩
    rw [resolve_same [] _ kept resolved none, collapsed, octets_eq_self, ← collapsed] at same
    exact fun c member => same c ((mem_collapse c _).mpr member)
  · rintro ⟨none, single⟩
    rw [resolve_same [] _ kept resolved none, ← collapsed, octets_eq_self]
    exact fun c member => single c ((mem_collapse c _).mp member)

theorem normalise_rfc3986_iff_dot :
    normalise "/a//./b".toList = .ok "/a/b".toList ∧
      "/a/b".toList = collapseSlashes (removeDotSegments "/a//./b".toList) := by
  have accepted : normalise "/a//./b".toList = .ok "/a/b".toList := by decide +kernel
  have absent : ∀ c ∈ "/a//./b".toList, c ∉ ['%', ';', '?', '#'] :=
    List.all_iff_forall_prop.mp (by decide)
  have ascii : ∀ c ∈ removeDotSegments "/a//./b".toList, c.utf8Size = 1 :=
    List.all_iff_forall_prop.mp (by decide)
  exact ⟨accepted, (normalise_rfc3986_iff _ _ absent accepted).mpr ⟨by decide, ascii⟩⟩

/-- `/a//../b`: the source answers `/b`, an RFC 3986 resolver `/a/b`. -/
theorem normalise_differs_from_rfc3986 :
    ¬ ∀ raw normal : Text, raw.head? = some '/' → byteLen raw ≤ maxPathLen →
      (∀ c ∈ raw, c ∉ ['%', ';', '?', '#']) → normalise raw = .ok normal →
      normal = collapseSlashes (removeDotSegments raw) := by
  intro agree
  have accepted : normalise "/a//../b".toList = .ok "/b".toList := by decide +kernel
  have absent : ∀ c ∈ "/a//../b".toList, c ∉ ['%', ';', '?', '#'] :=
    List.all_iff_forall_prop.mp (by decide)
  have same := agree _ _ (by decide) (by decide) absent accepted
  exact absurd same (by decide)

end WeeboSi.EndpointAuth
