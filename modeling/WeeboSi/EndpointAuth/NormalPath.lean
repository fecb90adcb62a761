import WeeboSi.EndpointAuth.CompileSpec
import WeeboSi.EndpointAuth.PathResolver

/-!
# Normal paths

Source: crates/weebo-si-endpoint-auth/src/path.rs:68-159 and compile.rs:379-394. What
every normalised path looks like, and which of them are normal forms of themselves, so
that a rule can be written for them.
-/
namespace WeeboSi.EndpointAuth
open WeeboSi.Lib

/-! ## Decoded segments -/

/-- A segment that survives: it names something, and its characters separate and encode
nothing. -/
structure ProperSegment (s : Text) : Prop where
  nonempty : s ≠ []
  notDot : s ≠ ['.']
  notDots : s ≠ ['.', '.']
  noSlash : '/' ∉ s
  noPercent : '%' ∉ s

theorem hexValue_lt (b : UInt8) (v : Nat) (h : hexValue b = some v) : v < 16 := by
  unfold hexValue at h
  simp only [UInt8.le_iff_toNat_le] at h
  split_ifs at h with digit lower upper
  · cases h
    have := digit.2
    simp at this
    omega
  · cases h
    have := lower.2
    simp at this
    omega
  · cases h
    have := upper.2
    simp at this
    omega

theorem toNat_ofNat_byte (n : Nat) (byte : n < 256) : (Char.ofNat n).toNat = n := by
  have valid : n.isValidChar := Or.inl (by omega)
  rw [Char.ofNat, dif_pos valid]
  rfl

/-- What decoding once leaves has no separator and no percent, and is no longer than what
was decoded. -/
theorem decodeBytes_ok (bytes : List UInt8) (out : Text) (noSlash : 0x2f ∉ bytes)
    (h : decodeBytes bytes = .ok out) : '/' ∉ out ∧ '%' ∉ out ∧ out.length ≤ bytes.length := by
  fun_induction decodeBytes bytes generalizing out with
  | case1 =>
    cases h
    simp
  | case2 b rest plain ih =>
    simp only [List.mem_cons, not_or] at noSlash
    obtain ⟨more, decoded, same⟩ := (bind_eq_ok _ _ _).mp h
    obtain ⟨slash, percent, short⟩ := ih more noSlash.2 decoded
    cases same
    have octet : ∀ other : UInt8, byteChar other = byteChar b → other = b := by
      intro other same
      have nats := congrArg Char.toNat same
      rw [byteChar_toNat, byteChar_toNat] at nats
      exact UInt8.toNat_inj.mp nats
    simp only [List.mem_cons, not_or, List.length_cons]
    exact ⟨⟨fun same => noSlash.1 (octet 0x2f same), slash⟩,
      ⟨fun same => plain (octet 0x25 same).symm, percent⟩, by omega⟩
  | case6 b isPercent high low more highHex lowHex readLow readHigh value separator percentSign control ih =>
    simp only [List.mem_cons, not_or] at noSlash
    obtain ⟨tail, decoded, same⟩ := (bind_eq_ok _ _ _).mp h
    obtain ⟨slash, percent, short⟩ := ih tail noSlash.2.2.2 decoded
    cases same
    have byte : value < 256 := by
      have := hexValue_lt _ _ readLow
      have := hexValue_lt _ _ readHigh
      omega
    have octet : ∀ c : Char, c = Char.ofNat value → c.toNat = value := by
      rintro c rfl
      exact toNat_ofNat_byte value byte
    simp only [List.mem_cons, not_or, List.length_cons]
    refine ⟨⟨fun same => separator (Or.inl (octet _ same).symm), slash⟩,
      ⟨fun same => percentSign (octet _ same).symm, percent⟩, by omega⟩
  | case3 | case4 | case5 | case7 | case8 => cases h

theorem bytesOf_noSlash (s : Text) (noSlash : '/' ∉ s) : 0x2f ∉ bytesOf s := by
  intro member
  have inOctets : byteChar 0x2f ∈ octets s := List.mem_map_of_mem member
  exact noSlash ((mem_octets '/' s (by decide)).mp inOctets)

theorem prefix_of_beforeParameter (s : Text) : beforeParameter s <+: s := by
  unfold beforeParameter
  cases cut : splitOnce ';' s with
  | none => exact List.prefix_rfl
  | some parts =>
    obtain ⟨whole, -⟩ := (splitOnce_eq_some _ _ _ _).mp cut
    exact ⟨';' :: parts.2, whole.symm⟩

theorem byteLen_prefix (s t : Text) (h : s <+: t) : byteLen s ≤ byteLen t := by
  obtain ⟨rest, rfl⟩ := h
  rw [byteLen_append]
  omega

theorem decodeSegment_ok (s out : Text) (noSlash : '/' ∉ s)
    (h : decodeOnce (beforeParameter s) = .ok out) :
    '/' ∉ out ∧ '%' ∉ out ∧ out.length ≤ byteLen s := by
  obtain ⟨decoded, bytes, checked⟩ := (bind_eq_ok _ _ _).mp h
  rw [guard_eq_ok] at checked
  obtain ⟨-, same⟩ := checked
  cases same
  have absent : '/' ∉ beforeParameter s := fun member => noSlash ((prefix_of_beforeParameter s).subset member)
  obtain ⟨slash, percent, short⟩ := decodeBytes_ok _ _ (bytesOf_noSlash _ absent) bytes
  have shorter := byteLen_prefix _ _ (prefix_of_beforeParameter s)
  rw [length_bytesOf] at short
  exact ⟨slash, percent, by omega⟩

/-! ## The segment loop -/

/-- The slash that a directory ends in. -/
def closing (flag : Bool) : Nat := if flag then 1 else 0

@[simp] theorem closing_true : closing true = 1 := rfl

@[simp] theorem closing_false : closing false = 0 := rfl

theorem closing_le_one (flag : Bool) : closing flag ≤ 1 := by cases flag <;> decide

theorem closing_cons (raw : Text) (rest : List Text) (solid : raw ≠ []) (ended : Bool) :
    closing (endsInSlash (raw :: rest) || ended) = closing (endsInSlash rest || ended) := by
  cases rest with
  | nil => simp [endsInSlash, solid]
  | cons next more => simp [endsInSlash, List.getLast?_cons_cons]

theorem length_join_dropLast (segments : List Text) :
    (joinSegments segments.dropLast).length ≤ (joinSegments segments).length := by
  rcases List.eq_nil_or_concat segments with rfl | ⟨front, last, rfl⟩
  · exact Nat.le_refl _
  · rw [List.concat_eq_append, List.dropLast_concat, joinSegments_append, List.length_append]
    omega

/-- The loop keeps proper segments only, and writes no more bytes than it reads: a dot
segment pays for the slash it leaves. -/
theorem walkSegments_ok (segments out result : List Text) (dotted ended : Bool)
    (free : SlashFree segments) (proper : ∀ s ∈ out, ProperSegment s)
    (h : walkSegments segments out dotted = .ok (result, ended)) :
    (∀ s ∈ result, ProperSegment s) ∧
      (joinSegments result).length + closing (endsInSlash segments || ended) ≤
        (joinSegments out).length + closing dotted + byteLen (joinSegments segments) := by
  induction segments generalizing out dotted with
  | nil =>
    cases h
    exact ⟨proper, by simp [endsInSlash]⟩
  | cons raw rest ih =>
    have restFree : SlashFree rest := fun t member => free t (by simp [member])
    have spent : byteLen (joinSegments (raw :: rest)) = 1 + byteLen raw + byteLen (joinSegments rest) := by
      have one : '/'.utf8Size = 1 := by decide
      simp only [joinSegments_cons, List.cons_append, byteLen_cons, byteLen_append, one]
      omega
    unfold walkSegments at h
    obtain ⟨decoded, read, h⟩ := (bind_eq_ok _ _ _).mp h
    obtain ⟨slash, percent, short⟩ := decodeSegment_ok raw decoded (free raw (by simp)) read
    have bound := closing_le_one (endsInSlash (raw :: rest) || ended)
    have solid : decoded ≠ [] → raw ≠ [] := by
      rintro some_ rfl
      rw [byteLen_nil, Nat.le_zero, List.length_eq_zero_iff] at short
      exact some_ short
    split_ifs at h with empty dot dots root
    · obtain ⟨kept, room⟩ := ih out dotted restFree proper h
      exact ⟨kept, by omega⟩
    · obtain ⟨kept, room⟩ := ih out true restFree proper h
      rw [closing_cons raw rest (solid empty)]
      simp only [dot, List.length_singleton, closing_true] at short room
      exact ⟨kept, by omega⟩
    · obtain ⟨kept, room⟩ := ih out.dropLast true restFree
        (fun s member => proper s (List.mem_of_mem_dropLast member)) h
      have shorter := length_join_dropLast out
      rw [closing_cons raw rest (solid empty)]
      simp only [dots, List.length_cons, List.length_nil, closing_true] at short room
      exact ⟨kept, by omega⟩
    · have pushed : ∀ s ∈ out ++ [decoded], ProperSegment s := by
        intro s member
        rcases List.mem_append.mp member with old | new
        · exact proper s old
        · rw [List.mem_singleton.mp new]
          exact ⟨empty, dot, dots, slash, percent⟩
      obtain ⟨kept, room⟩ := ih (out ++ [decoded]) false restFree pushed h
      rw [closing_cons raw rest (solid empty)]
      simp only [joinSegments_append, joinSegments_cons, joinSegments_nil, List.append_nil,
        List.length_append, List.length_cons, closing_false] at room
      exact ⟨kept, by omega⟩

/-! ## Normal paths -/

/-- A path as `normalise` writes it. -/
def NormalPath (path : Text) (segments : List Text) (trailing : Bool) : Prop :=
  path = renderPath segments trailing ∧ ∀ s ∈ segments, ProperSegment s

theorem length_renderPath (segments : List Text) (trailing : Bool) :
    (renderPath segments trailing).length = 1 ∨
      (renderPath segments trailing).length = (joinSegments segments).length + closing trailing := by
  unfold renderPath
  cases segments with
  | nil => simp
  | cons s rest =>
    cases trailing with
    | true =>
      right
      simp [joinSegments]
      omega
    | false => simp [joinSegments]

theorem takeWhile_prefix_path (raw : Text) (slash : raw.head? = some '/') :
    ∃ rest, raw.takeWhile (fun c => c ≠ '?' && c ≠ '#') = '/' :: rest := by
  obtain ⟨tail, rfl⟩ := List.head?_eq_some_iff.mp slash
  exact ⟨_, by rw [List.takeWhile_cons, if_pos (by decide)]⟩

/-- Every accepted path comes out normal, and no longer than it went in. -/
theorem normalise_normal (raw path : Text) (h : normalise raw = .ok path) :
    (∃ segments trailing, NormalPath path segments trailing) ∧ path.length ≤ maxPathLen := by
  unfold normalise at h
  rw [guard_eq_ok, not_or, not_not] at h
  obtain ⟨⟨slash, short⟩, h⟩ := h
  obtain ⟨rest, cut⟩ := takeWhile_prefix_path raw slash
  have parts : ('/' :: rest).splitOn '/' = [] :: rest.splitOn '/' := splitOn_append '/' [] rest (by simp)
  simp only [cut, parts, bind_eq_ok] at h
  obtain ⟨⟨out, ended⟩, walked, rendered⟩ := h
  rw [walkSegments_cons [] _ _ _ (by simp) (by simp), if_pos rfl] at walked
  obtain ⟨proper, room⟩ := walkSegments_ok _ [] out false ended (slashFree_splitOn rest) (by simp) walked
  have ends : endsInSlash (rest.splitOn '/') = Decidable.decide (('/' :: rest).getLast? = some '/') := by
    unfold endsInSlash
    rw [decide_eq_decide, ← getLast_join _ (slashFree_splitOn rest) (List.splitOn_ne_nil _ _),
      joinSegments_splitOn]
  have whole : byteLen ('/' :: rest) ≤ byteLen raw := byteLen_prefix _ _ (cut ▸ List.takeWhile_prefix _)
  have first : 1 ≤ byteLen ('/' :: rest) := by
    rw [byteLen_cons]
    exact Nat.le_add_right_of_le (by decide)
  rw [joinSegments_splitOn, ends, joinSegments_nil, List.length_nil, closing_false] at room
  rw [← Except.ok.inj rendered]
  refine ⟨⟨out, _, rfl, proper⟩, ?_⟩
  have written := length_renderPath out (Decidable.decide (('/' :: rest).getLast? = some '/') || ended)
  dsimp only
  omega

/-- The segments of a path. -/
def segmentsOf (path : Text) : List Text := nonEmpty (path.splitOn '/')

theorem splitOn_join (segments : List Text) (free : SlashFree segments) :
    (joinSegments segments).splitOn '/' = [] :: segments := by
  induction segments with
  | nil => rfl
  | cons s rest ih =>
    have first : (joinSegments (s :: rest)).splitOn '/' = [] :: (s ++ joinSegments rest).splitOn '/' := by
      rw [joinSegments_cons, List.cons_append]
      exact splitOn_append '/' [] _ (by simp)
    have sFree : '/' ∉ s := free s (by simp)
    rw [first]
    cases rest with
    | nil => rw [joinSegments_nil, List.append_nil, List.splitOn_eq_singleton sFree]
    | cons t more =>
      have tail := ih fun u member => free u (by simp [member])
      rw [joinSegments_cons, List.cons_append] at tail ⊢
      rw [splitOn_append '/' s _ sFree]
      have next : ('/' :: (t ++ joinSegments more)).splitOn '/' = [] :: (t ++ joinSegments more).splitOn '/' :=
        splitOn_append '/' [] _ (by simp)
      rw [next] at tail
      rw [(List.cons.inj tail).2]

theorem renderPath_eq_join (segments : List Text) (trailing : Bool) :
    renderPath segments trailing =
      joinSegments (segments ++ if segments = [] ∨ trailing = true then [[]] else []) := by
  unfold renderPath
  split
  · simp [joinSegments]
  · simp [joinSegments]

theorem mem_renderPath (segments : List Text) (trailing : Bool) (c : Char)
    (inside : c ∈ renderPath segments trailing) : c = '/' ∨ ∃ s ∈ segments, c ∈ s := by
  unfold renderPath at inside
  rcases List.mem_append.mp inside with there | closing
  · obtain ⟨s, member, at_⟩ := List.mem_flatMap.mp there
    rcases List.mem_cons.mp at_ with slash | within
    · exact Or.inl slash
    · exact Or.inr ⟨s, member, within⟩
  · split at closing
    · exact Or.inl (List.mem_singleton.mp closing)
    · cases closing

section Normal
variable (path : Text) (segments : List Text) (trailing : Bool) (normal : NormalPath path segments trailing)
include normal

theorem NormalPath.absolute : ∃ rest, path = '/' :: rest := by
  rw [normal.1, renderPath_eq_join]
  cases segments with
  | nil => exact ⟨_, rfl⟩
  | cons s more => exact ⟨_, rfl⟩

theorem NormalPath.noPercent : '%' ∉ path := by
  rw [normal.1]
  intro member
  rcases mem_renderPath _ _ _ member with slash | ⟨s, inside, there⟩
  · exact absurd slash (by decide)
  · exact (normal.2 s inside).noPercent there

theorem NormalPath.slashFree : SlashFree segments := fun s member => (normal.2 s member).noSlash

/-- The segments with what a closing slash leaves behind it. -/
theorem NormalPath.splitOn :
    path.splitOn '/' = [] :: (segments ++ if segments = [] ∨ trailing = true then [[]] else []) := by
  rw [normal.1, renderPath_eq_join]
  apply splitOn_join
  intro s member
  rcases List.mem_append.mp member with inside | closed
  · exact normal.slashFree path segments trailing s inside
  · split at closed
    · rw [List.mem_singleton.mp closed]
      simp
    · cases closed

theorem NormalPath.segmentsOf : segmentsOf path = segments := by
  unfold EndpointAuth.segmentsOf
  have solid : nonEmpty segments = segments := by
    rw [nonEmpty, List.filter_eq_self]
    exact fun s member => by simpa using (normal.2 s member).nonempty
  rw [normal.splitOn path segments trailing]
  change nonEmpty ([[]] ++ (segments ++ _)) = segments
  rw [nonEmpty_append, nonEmpty_append, solid]
  split
  · simp
  · simp [nonEmpty]

theorem NormalPath.stripLast : stripLast '/' path = joinSegments segments := by
  rw [normal.1, renderPath_eq_join]
  split
  · rw [joinSegments_append]
    exact stripLast_append '/' _
  · rename_i plain
    rw [not_or] at plain
    rw [List.append_nil]
    apply stripLast_absent
    rw [ne_eq, getLast_join segments (normal.slashFree path segments trailing) plain.1]
    intro last
    exact (normal.2 [] (List.mem_of_getLast? last)).nonempty rfl

theorem NormalPath.getLast : path.getLast? = some '/' ↔ segments = [] ∨ trailing = true := by
  rw [normal.1, renderPath_eq_join]
  split
  · rename_i closed
    rw [joinSegments_append]
    exact iff_of_true (by simp) closed
  · rename_i plain
    have solid := plain
    rw [not_or] at solid
    rw [List.append_nil, getLast_join segments (normal.slashFree path segments trailing) solid.1]
    refine iff_of_false (fun last => ?_) plain
    exact (normal.2 [] (List.mem_of_getLast? last)).nonempty rfl

end Normal

/-! ## Normal forms of themselves -/

/-- One byte a character, and none of those a raw path is cut at. -/
def PlainPath (path : Text) : Prop := ∀ c ∈ path, c.utf8Size = 1 ∧ c ∉ [';', '?', '#']

theorem walkSegments_proper (segments tail out : List Text)
    (proper : ∀ s ∈ segments, ProperSegment s ∧ PlainPath s) :
    walkSegments (segments ++ tail) out false = walkSegments tail (out ++ segments) false := by
  induction segments generalizing out with
  | nil => simp
  | cons s rest ih =>
    obtain ⟨kept, plain⟩ := proper s (by simp)
    have semicolon : ';' ∉ s := fun member => (plain _ member).2 (by simp)
    have ascii : octets s = s := octets_of_ascii s fun c member => (plain c member).1
    rw [List.cons_append, walkSegments_cons s _ _ _ kept.noPercent semicolon, if_neg kept.nonempty,
      if_neg kept.notDot, if_neg kept.notDots, ascii, ih (out ++ [s]) fun t member => proper t (by simp [member])]
    simp

/-- A plain normal path of bounded length is read as itself. -/
theorem normalise_plain_normal (path : Text) (segments : List Text) (trailing : Bool)
    (normal : NormalPath path segments trailing) (plain : PlainPath path) (short : path.length ≤ maxPathLen) :
    normalise path = .ok path := by
  have slash : path.head? = some '/' := by
    obtain ⟨rest, rfl⟩ := normal.absolute path segments trailing
    rfl
  have bytes : byteLen path = path.length := byteLen_of_ascii path fun c member => (plain c member).1
  have whole : path.takeWhile (fun c => c ≠ '?' && c ≠ '#') = path := by
    rw [List.takeWhile_eq_self_iff]
    intro c member
    have := (plain c member).2
    simp only [List.mem_cons, List.not_mem_nil, or_false, not_or] at this
    simp [this]
  have proper : ∀ s ∈ segments, ProperSegment s ∧ PlainPath s := by
    intro s member
    refine ⟨normal.2 s member, fun c inside => plain c ?_⟩
    rw [← normal.segmentsOf path segments trailing, segmentsOf, nonEmpty, List.mem_filter] at member
    exact ((mem_splitOn '/' c path).mp ⟨s, member.1, inside⟩).1
  have walked : walkSegments (path.splitOn '/') [] false = .ok (segments, false) := by
    rw [normal.splitOn path segments trailing, walkSegments_cons [] _ _ _ (by simp) (by simp), if_pos rfl,
      walkSegments_proper segments _ [] proper]
    split
    · rw [walkSegments_cons [] _ _ _ (by simp) (by simp), if_pos rfl]
      rfl
    · rfl
  unfold normalise
  rw [if_neg (by rw [not_or, not_not]; exact ⟨slash, by omega⟩)]
  simp only [whole, walked, bind, Except.bind, Bool.or_false, Except.ok.injEq]
  have last := normal.getLast path segments trailing
  conv_rhs => rw [normal.1]
  unfold renderPath
  simp only [last, decide_eq_true_eq, or_self_left]

theorem beforeParameter_semicolon (s : Text) : ';' ∉ beforeParameter s := by
  unfold beforeParameter
  cases cut : splitOnce ';' s with
  | none => exact (splitOnce_eq_none _ _).mp cut
  | some parts => exact ((splitOnce_eq_some _ _ _ _).mp cut).2

theorem beforeParameter_absent (s : Text) (semicolon : ';' ∉ s) : beforeParameter s = s := by
  rw [beforeParameter, splitOnce_absent _ _ semicolon]

/-- Without an encoding the loop adds no character of its own. -/
theorem walkSegments_absent (d : Char) (ascii : d.utf8Size = 1) (segments out result : List Text)
    (dotted ended : Bool) (absent : ∀ s ∈ segments, '%' ∉ s ∧ d ∉ beforeParameter s)
    (before : ∀ s ∈ out, d ∉ s) (h : walkSegments segments out dotted = .ok (result, ended)) :
    ∀ s ∈ result, d ∉ s := by
  induction segments generalizing out dotted with
  | nil =>
    cases h
    exact before
  | cons raw rest ih =>
    obtain ⟨percent, here⟩ := absent raw (by simp)
    have onwards : ∀ s ∈ rest, '%' ∉ s ∧ d ∉ beforeParameter s := fun s member => absent s (by simp [member])
    have clean : '%' ∉ beforeParameter raw := fun member => percent ((prefix_of_beforeParameter raw).subset member)
    have once := decodeOnce_plain _ clean (beforeParameter_semicolon raw)
    rw [beforeParameter_absent _ (beforeParameter_semicolon raw)] at once
    unfold walkSegments at h
    simp only [once, bind, Except.bind] at h
    split_ifs at h
    · exact ih out dotted onwards before h
    · exact ih out true onwards before h
    · exact ih out.dropLast true onwards (fun s member => before s (List.mem_of_mem_dropLast member)) h
    · refine ih (out ++ [octets (beforeParameter raw)]) false onwards ?_ h
      intro s member
      rcases List.mem_append.mp member with old | new
      · exact before s old
      · rw [List.mem_singleton.mp new, mem_octets d _ ascii]
        exact here

/-- Without an encoding nothing brings back a character that a raw path is cut at. -/
theorem normalise_cut (raw path : Text) (percent : '%' ∉ raw) (h : normalise raw = .ok path) (d : Char)
    (cut : d ∈ [';', '?', '#']) : d ∉ path := by
  have table : ∀ c ∈ [';', '?', '#'], c.utf8Size = 1 ∧ c ≠ '/' := List.all_iff_forall_prop.mp (by decide)
  obtain ⟨ascii, other⟩ := table d cut
  unfold normalise at h
  rw [guard_eq_ok] at h
  simp only [bind_eq_ok] at h
  obtain ⟨-, ⟨out, ended⟩, walked, rendered⟩ := h
  have inRaw : ∀ c ∈ raw.takeWhile (fun c => c ≠ '?' && c ≠ '#'), c ∈ raw ∧ c ≠ '?' ∧ c ≠ '#' := by
    intro c member
    refine ⟨(List.takeWhile_prefix _).subset member, ?_⟩
    simpa using List.mem_takeWhile_imp member
  have absent : ∀ s ∈ (raw.takeWhile fun c => c ≠ '?' && c ≠ '#').splitOn '/',
      '%' ∉ s ∧ d ∉ beforeParameter s := by
    intro s member
    have inside : ∀ c ∈ s, c ∈ raw ∧ c ≠ '?' ∧ c ≠ '#' := fun c there =>
      inRaw c ((mem_splitOn '/' c _).mp ⟨s, member, there⟩).1
    refine ⟨fun there => percent (inside _ there).1, fun there => ?_⟩
    have range := inside d ((prefix_of_beforeParameter s).subset there)
    simp only [List.mem_cons, List.not_mem_nil, or_false, range.2.1, range.2.2] at cut
    exact beforeParameter_semicolon s (cut ▸ there)
  have clean := walkSegments_absent d ascii _ [] out false ended absent (by simp) walked
  rw [← Except.ok.inj rendered]
  intro member
  rcases mem_renderPath _ _ d member with slash | ⟨s, inside, there⟩
  · exact other slash
  · exact clean s inside there

theorem ProperSegment.octets (s : Text) (proper : ProperSegment s) : ProperSegment (octets s) where
  nonempty := mt (octets_eq_nil s).mp proper.nonempty
  notDot := mt (octets_eq_ascii s ['.'] (List.all_iff_forall_prop.mp (by decide))).mp proper.notDot
  notDots := mt (octets_eq_ascii s ['.', '.'] (List.all_iff_forall_prop.mp (by decide))).mp proper.notDots
  noSlash := mt (mem_octets '/' s (by decide)).mp proper.noSlash
  noPercent := mt (mem_octets '%' s (by decide)).mp proper.noPercent

theorem dropResolve_proper (segments tail out : List Text) (proper : ∀ s ∈ segments, ProperSegment s) :
    dropResolve out (segments ++ tail) = dropResolve (out ++ segments) tail := by
  induction segments generalizing out with
  | nil => simp
  | cons s rest ih =>
    have kept := proper s (by simp)
    rw [List.cons_append, dropResolve, if_neg (by simp [kept.nonempty, kept.notDot]), if_neg kept.notDots,
      ih (out ++ [s]) fun t member => proper t (by simp [member])]
    simp

theorem NormalPath.dropResolve (path : Text) (segments : List Text) (trailing : Bool)
    (normal : NormalPath path segments trailing) :
    dropResolve [] (path.tail.splitOn '/') = some segments := by
  have parts := normal.splitOn path segments trailing
  obtain ⟨rest, rfl⟩ := normal.absolute path segments trailing
  have first : ('/' :: rest).splitOn '/' = [] :: rest.splitOn '/' := splitOn_append '/' [] rest (by simp)
  rw [first] at parts
  rw [List.tail_cons, (List.cons.inj parts).2, dropResolve_proper segments _ [] normal.2]
  split
  · simp [EndpointAuth.dropResolve]
  · rfl

theorem plainPath_of_fixed (path : Text) (segments : List Text) (trailing : Bool)
    (normal : NormalPath path segments trailing) (fixed : normalise path = .ok path) : PlainPath path := by
  have percent := normal.noPercent path segments trailing
  have cut := normalise_cut path path percent fixed
  have absent : ∀ c ∈ path, c ∉ ['%', ';', '?', '#'] := by
    intro c member inside
    rcases List.mem_cons.mp inside with rfl | other
    · exact percent member
    · exact cut c other member
  obtain ⟨kept, resolved, same⟩ := normalise_plain path path absent fixed
  rw [normal.dropResolve path segments trailing, Option.some.injEq] at resolved
  subst resolved
  -- The path is rendered twice, once with each segment as its octets.
  have again : NormalPath path (segments.map octets) _ := ⟨same, fun s member => by
    obtain ⟨t, inside, rfl⟩ := List.mem_map.mp member
    exact (normal.2 t inside).octets⟩
  have octetwise : segments.map octets = segments.map id := by
    rw [List.map_id, ← again.segmentsOf path _ _, normal.segmentsOf path segments trailing]
  intro c member
  refine ⟨?_, fun inside => cut c inside member⟩
  rcases mem_renderPath _ _ c (normal.1 ▸ member) with rfl | ⟨s, inside, there⟩
  · decide
  · exact (octets_eq_self s).mp (List.map_inj_left.mp octetwise s inside) c there

/-! ## Rules for a served path -/

theorem compileMethods_not_rulePath (path : Text) (methods : Option (List Text)) (other : Text) :
    compileMethods path methods ≠ .error (.rulePath other) := by
  intro refused
  cases methods with
  | none => cases refused
  | some listed =>
    simp only [compileMethods] at refused
    split at refused
    · cases refused
    · rcases (bind_eq_error _ _ _).mp refused with bad | ⟨parsed, -, never⟩
      · obtain ⟨method, -, here⟩ := mapM_eq_error _ _ _ bad
        split at here
        · cases here
        · cases here
      · cases never

theorem resolveProfile_not_rulePath (key : CatalogueKey) (catalogue : Catalogue) (within : Bounds)
    (path : Text) : resolveProfile key catalogue within ≠ .error (.rulePath path) := by
  intro refused
  unfold resolveProfile at refused
  split at refused
  · cases refused
  · split at refused
    · cases refused
    · cases refused

/-- The path is the one thing that a rule is refused for as a path. -/
theorem compileRule_rulePath (catalogue : Catalogue) (within : Bounds) (wire : WireRule) :
    compileRule catalogue within wire = .error (.rulePath wire.path) ↔
      normalise wire.path ≠ .ok wire.path := by
  unfold compileRule
  cases read : normalise wire.path with
  | error e => simp [Except.mapError, bind, Except.bind]
  | ok path =>
    simp only [Except.mapError, bind, Except.bind, ne_eq, Except.ok.injEq]
    by_cases same : path = wire.path
    · rw [if_neg (not_not.mpr same)]
      refine iff_of_false (fun refused => ?_) (not_not.mpr same)
      rcases (bind_eq_error _ _ _).mp refused with bad | ⟨methods, -, later⟩
      · exact compileMethods_not_rulePath _ _ _ bad
      · rcases (bind_eq_error _ _ _).mp later with bad | ⟨profile, -, never⟩
        · exact resolveProfile_not_rulePath _ _ _ _ bad
        · cases never
    · rw [if_pos same]
      exact iff_of_true rfl same

theorem normalise_fixed_plain (raw path : Text) (h : normalise raw = .ok path) :
    normalise path = .ok path ↔ PlainPath path := by
  obtain ⟨⟨segments, trailing, normal⟩, short⟩ := normalise_normal raw path h
  exact ⟨plainPath_of_fixed path segments trailing normal, fun plain =>
    normalise_plain_normal path segments trailing normal plain short⟩

/-- What comes out of `normalise` is shaped like a normal form, and without a character that a
raw path is cut at it is one exactly when it is ASCII; a rule can be written for those only. -/
theorem normalise_fixed_iff (raw path : Text) (h : normalise raw = .ok path) :
    path.head? = some '/' ∧ '%' ∉ path ∧
      (∀ s ∈ ((stripLast '/' path).splitOn '/').tail, s ∉ [[], ['.'], ['.', '.']]) ∧
      ((∀ c ∈ path, c ∉ [';', '?', '#']) →
        (normalise path = .ok path ↔ ∀ c ∈ path, c.utf8Size = 1) ∧
        ∀ (catalogue : Catalogue) (within : Bounds) (wire : WireRule), wire.path = path →
          (compileRule catalogue within wire = .error (.rulePath path) ↔ ¬ ∀ c ∈ path, c.utf8Size = 1)) := by
  obtain ⟨⟨segments, trailing, normal⟩, -⟩ := normalise_normal raw path h
  obtain ⟨rest, slash⟩ := normal.absolute path segments trailing
  refine ⟨by rw [slash]; rfl, normal.noPercent path segments trailing, ?_, ?_⟩
  · rw [normal.stripLast path segments trailing,
      splitOn_join segments (normal.slashFree path segments trailing), List.tail_cons]
    intro s member
    have proper := normal.2 s member
    simp [proper.nonempty, proper.notDot, proper.notDots]
  · intro uncut
    have ascii : PlainPath path ↔ ∀ c ∈ path, c.utf8Size = 1 :=
      ⟨fun plain c member => (plain c member).1, fun single c member => ⟨single c member, uncut c member⟩⟩
    have fixed := (normalise_fixed_plain raw path h).trans ascii
    refine ⟨fixed, ?_⟩
    rintro catalogue within wire rfl
    rw [compileRule_rulePath, ne_eq, fixed]

theorem normalise_fixed_dots :
    normalise "/a/./b".toList = .ok "/a/b".toList ∧ normalise "/a/b".toList = .ok "/a/b".toList := by
  have accepted : normalise "/a/./b".toList = .ok "/a/b".toList := by decide +kernel
  have uncut : ∀ c ∈ "/a/b".toList, c ∉ [';', '?', '#'] := List.all_iff_forall_prop.mp (by decide)
  have ascii : ∀ c ∈ "/a/b".toList, c.utf8Size = 1 := List.all_iff_forall_prop.mp (by decide)
  exact ⟨accepted, ((normalise_fixed_iff _ _ accepted).2.2.2 uncut).1.mpr ascii⟩

/-- The two bytes of a letter outside ASCII are two characters, which another reading takes
for two bytes each. -/
theorem normalise_not_idempotent :
    ¬ ∀ raw path : Text, normalise raw = .ok path → normalise path = .ok path := by
  intro idempotent
  have accepted : normalise "/caf%C3%A9".toList = .ok "/caf\u00c3\u00a9".toList := by decide +kernel
  exact absurd (idempotent _ _ accepted) (by decide +kernel)

end WeeboSi.EndpointAuth
