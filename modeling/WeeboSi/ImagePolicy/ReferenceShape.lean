import WeeboSi.ImagePolicy.Reference

/-!
# What each parsing step of a reference accepts

One characterisation for each function of reference.rs, and from them the shape of
every parsed reference (`parse_shape`). Later modules use these and never unfold the
parser again.
-/
namespace WeeboSi.ImagePolicy
open WeeboSi.Lib

/-! ## Characters -/

theorem toLower_of_isLower (c : Char) (h : c.isLower) : c.toLower = c := by
  apply toLower_of_not_isUpper
  rw [isLower_iff] at h
  rw [isUpper_iff]
  omega

theorem toLower_of_isDigit (c : Char) (h : c.isDigit) : c.toLower = c := by
  apply toLower_of_not_isUpper
  rw [isDigit_iff] at h
  rw [isUpper_iff]
  omega

theorem toLower_eq_sep (c d : Char) (hd : d.isAlpha = false) : c.toLower = d ↔ c = d := by
  by_cases upper : c.isUpper = true
  · have lower : c.toLower.isLower = true := by
      have shifted := toNat_toLower_of_isUpper c upper
      rw [isUpper_iff] at upper
      rw [isLower_iff]
      omega
    have notD : ∀ letter : Char, letter.isUpper = true ∨ letter.isLower = true → letter ≠ d := by
      rintro letter isLetter rfl
      rw [(isAlpha_iff letter).mpr isLetter] at hd
      cases hd
    simp [notD c.toLower (Or.inr lower), notD c (Or.inl upper)]
  · rw [toLower_of_not_isUpper c upper]

theorem mem_map_toLower (s : Text) (d : Char) (hd : d.isAlpha = false) :
    d ∈ s.map Char.toLower ↔ d ∈ s := by
  simp [List.mem_map, toLower_eq_sep _ d hd]

theorem map_toLower_of_fixed (s : Text) (h : ∀ c ∈ s, c.toLower = c) : s.map Char.toLower = s := by
  conv_rhs => rw [← List.map_id s]
  exact List.map_congr_left h

theorem isAlphanum_ascii (c : Char) (alnum : c.isAlphanum = true) : c.utf8Size = 1 := by
  rw [Char.utf8Size_eq_one_iff, UInt32.le_iff_toNat_le]
  change c.toNat ≤ 127
  simp only [Char.isAlphanum, Bool.or_eq_true, isAlpha_iff, isUpper_iff, isLower_iff, isDigit_iff] at alnum
  omega

theorem isLegalReferenceChar_ascii (c : Char) (legal : isLegalReferenceChar c = true) : c.utf8Size = 1 := by
  simp only [isLegalReferenceChar, Bool.or_eq_true, List.contains_eq_mem, List.mem_cons,
    List.not_mem_nil, or_false, decide_eq_true_eq] at legal
  rcases legal with alnum | rfl | rfl | rfl | rfl | rfl | rfl | rfl | rfl
  · exact isAlphanum_ascii c alnum
  all_goals rfl

/-! ## Trailing dots -/

theorem stripLast_length (c : Char) (s : Text) : (stripLast c s).length ≤ s.length := by
  rcases stripLast_cases c s with closed | ⟨plain, -⟩
  · have size := congrArg List.length closed
    rw [List.length_append] at size
    omega
  · rw [plain]

theorem mem_stripLast (c x : Char) (s : Text) (other : x ≠ c) : x ∈ stripLast c s ↔ x ∈ s := by
  rcases stripLast_cases c s with closed | ⟨plain, -⟩
  · conv_rhs => rw [closed]
    simp [other]
  · rw [plain]

/-! ## Edged texts -/

theorem edged_iff (edge inner : Char → Bool) (s : Text) :
    edged edge inner s = true ↔
      (∃ c, s.head? = some c ∧ edge c) ∧ (∃ c, s.getLast? = some c ∧ edge c) ∧
        ∀ c ∈ s, inner c := by
  simp [edged, Option.any_eq_true, and_assoc]

theorem edged_ne_nil (edge inner : Char → Bool) (s : Text) (h : edged edge inner s = true) :
    s ≠ [] := by
  obtain ⟨⟨c, hc, -⟩, -⟩ := (edged_iff edge inner s).mp h
  rintro rfl
  simp at hc

/-! ## The four cuts -/

theorem splitDigest_eq_ok (raw name : Text) (digest : Option Text) :
    splitDigest raw = .ok (name, digest) ↔
      (digest = none ∧ name = raw ∧ '@' ∉ raw) ∨
      ∃ d, digest = some d ∧ raw = name ++ '@' :: d ∧ '@' ∉ name ∧ '@' ∉ d ∧ name ≠ [] ∧
        validateDigest d = .ok () := by
  unfold splitDigest
  cases cut : splitOnce '@' raw with
  | none =>
    have absent := (splitOnce_eq_none _ _).mp cut
    simp only [Except.ok.injEq, Prod.mk.injEq]
    constructor
    · rintro ⟨rfl, rfl⟩
      exact Or.inl ⟨rfl, rfl, absent⟩
    · rintro (⟨rfl, rfl, -⟩ | ⟨d, -, rfl, -⟩)
      · exact ⟨rfl, rfl⟩
      · simp at absent
  | some pair =>
    obtain ⟨n, d⟩ := pair
    obtain ⟨rfl, hn⟩ := (splitOnce_eq_some _ _ _ _).mp cut
    have count : (n ++ '@' :: d).count '@' > 1 ↔ '@' ∈ d := by
      rw [List.count_append, List.count_eq_zero_of_not_mem hn, List.count_cons_self]
      simp only [Nat.zero_add, gt_iff_lt, Nat.lt_add_left_iff_pos, List.count_pos_iff]
    simp only [guard_eq_ok, count, bind_eq_ok, Except.ok.injEq, Prod.mk.injEq]
    constructor
    · rintro ⟨hd, hne, _, hv, rfl, rfl⟩
      exact Or.inr ⟨d, rfl, rfl, hn, hd, hne, hv⟩
    · rintro (⟨-, -, absent⟩ | ⟨d', rfl, heq, hn', hd', hne, hv⟩)
      · simp at absent
      · have same := (splitOnce_eq_some '@' _ name d').mpr ⟨heq, hn'⟩
        rw [cut] at same
        cases same
        exact ⟨hd', hne, (), hv, rfl, rfl⟩

theorem finalSegment_spec (s : Text) :
    s = (finalSegment s).1 ++ (finalSegment s).2 ∧ '/' ∉ (finalSegment s).2 ∧
      ((finalSegment s).1 = [] ∨ ∃ before, (finalSegment s).1 = before ++ ['/']) := by
  unfold finalSegment
  cases cut : rsplitOnce '/' s with
  | none => exact ⟨rfl, (rsplitOnce_eq_none _ _).mp cut, Or.inl rfl⟩
  | some pair =>
    obtain ⟨rfl, h⟩ := (rsplitOnce_eq_some _ _ _ _).mp cut
    exact ⟨by simp, h, Or.inr ⟨_, rfl⟩⟩

theorem finalSegment_append (before final : Text) (h : '/' ∉ final) :
    finalSegment (before ++ '/' :: final) = (before ++ ['/'], final) := by
  simp [finalSegment, rsplitOnce_append _ _ _ h]

theorem finalSegment_append_tail (s t : Text) (h : '/' ∉ t) :
    finalSegment (s ++ t) = ((finalSegment s).1, (finalSegment s).2 ++ t) := by
  obtain ⟨hs, hfinal, h0 | ⟨before, hb⟩⟩ := finalSegment_spec s
  · have absent : '/' ∉ s ++ t := by
      rw [hs, h0]
      simp [hfinal, h]
    have whole : finalSegment (s ++ t) = ([], s ++ t) := by
      simp only [finalSegment, rsplitOnce_absent _ _ absent]
    rw [h0, List.nil_append] at hs
    rw [whole, h0, ← hs]
  · have join : s ++ t = before ++ '/' :: ((finalSegment s).2 ++ t) := by
      conv_lhs => rw [hs, hb]
      simp
    rw [join, finalSegment_append _ _ (by simp [hfinal, h]), hb]

/-- The final segment of `a/b` is the one of `b`. -/
theorem finalSegment_after (a b : Text) : (finalSegment (a ++ '/' :: b)).2 = (finalSegment b).2 := by
  obtain ⟨hb, hfinal, h0 | ⟨before, hbefore⟩⟩ := finalSegment_spec b
  · rw [h0, List.nil_append] at hb
    rw [← hb] at hfinal ⊢
    rw [finalSegment_append _ _ hfinal]
  · have join : a ++ '/' :: b = (a ++ '/' :: before) ++ '/' :: (finalSegment b).2 := by
      conv_lhs => rw [hb, hbefore]
      simp
    rw [join, finalSegment_append _ _ hfinal]

theorem finalSegment_mem (s : Text) (c : Char) (h : c ∈ (finalSegment s).2) : c ∈ s := by
  rw [(finalSegment_spec s).1]
  exact List.mem_append_right _ h

theorem splitTag_eq_ok (s name : Text) (tag : Option Text) :
    splitTag s = .ok (name, tag) ↔
      (tag = none ∧ name = s ∧ ':' ∉ (finalSegment s).2) ∨
      ∃ t, tag = some t ∧ s = name ++ ':' :: t ∧ ':' ∉ t ∧ '/' ∉ t ∧ name ≠ [] ∧ t ≠ [] := by
  obtain ⟨hs, hslash, -⟩ := finalSegment_spec s
  simp only [splitTag]
  cases cut : rsplitOnce ':' (finalSegment s).2 with
  | none =>
    have absent := (rsplitOnce_eq_none _ _).mp cut
    simp only [Except.ok.injEq, Prod.mk.injEq]
    constructor
    · rintro ⟨rfl, rfl⟩
      exact Or.inl ⟨rfl, rfl, absent⟩
    · rintro (⟨rfl, rfl, -⟩ | ⟨t, -, rfl, -, ht, -⟩)
      · exact ⟨rfl, rfl⟩
      · rw [finalSegment_append_tail _ _ (by simp [ht])] at absent
        simp at absent
  | some pair =>
    obtain ⟨n, t⟩ := pair
    obtain ⟨hfinal, ht⟩ := (rsplitOnce_eq_some _ _ _ _).mp cut
    simp only [guard_eq_ok, not_or, Except.ok.injEq, Prod.mk.injEq]
    constructor
    · rintro ⟨⟨hne, hte⟩, rfl, rfl⟩
      refine Or.inr ⟨t, rfl, ?_, ht, ?_, hne, hte⟩
      · conv_lhs => rw [hs, hfinal]
        simp
      · intro hmem
        rw [hfinal] at hslash
        simp [hmem] at hslash
    · rintro (⟨-, -, absent⟩ | ⟨t', rfl, rfl, ht', hslash', hne, hte⟩)
      · rw [hfinal] at absent
        simp at absent
      · have split := finalSegment_append_tail name (':' :: t') (by simp [hslash'])
        rw [split] at hfinal ⊢
        have same := (rsplitOnce_eq_some ':' _ (finalSegment name).2 t').mpr ⟨rfl, ht'⟩
        have same' := (rsplitOnce_eq_some ':' _ n t).mpr ⟨hfinal, ht⟩
        rw [same] at same'
        cases same'
        have hname := (finalSegment_spec name).1
        exact ⟨⟨by rwa [← hname], hte⟩, hname.symm, rfl⟩

theorem splitHost_eq_ok (name path : Text) (host : Option Text) :
    splitHost name = .ok (host, path) ↔
      (host = none ∧ path = name ∧ '/' ∉ name) ∨
      ∃ first rest, name = first ++ '/' :: rest ∧ '/' ∉ first ∧ first ≠ [] ∧ rest ≠ [] ∧
        ((isHostComponent first = true ∧ host = some first ∧ path = rest) ∨
          (isHostComponent first = false ∧ host = none ∧ path = name)) := by
  unfold splitHost
  cases cut : splitOnce '/' name with
  | none =>
    have absent := (splitOnce_eq_none _ _).mp cut
    simp only [Except.ok.injEq, Prod.mk.injEq]
    constructor
    · rintro ⟨rfl, rfl⟩
      exact Or.inl ⟨rfl, rfl, absent⟩
    · rintro (⟨rfl, rfl, -⟩ | ⟨first, rest, rfl, -⟩)
      · exact ⟨rfl, rfl⟩
      · simp at absent
  | some pair =>
    obtain ⟨first, rest⟩ := pair
    obtain ⟨rfl, hfirst⟩ := (splitOnce_eq_some _ _ _ _).mp cut
    have unique : ∀ a b, first ++ '/' :: rest = a ++ '/' :: b → '/' ∉ a → a = first ∧ b = rest := by
      intro a b heq ha
      have same := (splitOnce_eq_some '/' _ a b).mpr ⟨heq, ha⟩
      rw [cut] at same
      cases same
      exact ⟨rfl, rfl⟩
    simp only [guard_eq_ok, not_or]
    constructor
    · rintro ⟨⟨hne, hre⟩, h⟩
      right
      refine ⟨first, rest, rfl, hfirst, hne, hre, ?_⟩
      by_cases hh : isHostComponent first = true
      · rw [if_pos hh] at h
        cases h
        exact Or.inl ⟨hh, rfl, rfl⟩
      · rw [if_neg hh] at h
        cases h
        exact Or.inr ⟨by simpa using hh, rfl, rfl⟩
    · rintro (⟨-, -, absent⟩ | ⟨a, b, heq, ha, hne, hre, h⟩)
      · simp at absent
      · obtain ⟨rfl, rfl⟩ := unique a b heq ha
        refine ⟨⟨hne, hre⟩, ?_⟩
        rcases h with ⟨hh, rfl, rfl⟩ | ⟨hh, rfl, rfl⟩
        · rw [if_pos hh]
        · rw [if_neg (by simp [hh])]

/-! ## Hosts -/

def joinPort (name : Text) : Option Text → Text
  | some port => name ++ ':' :: port
  | none => name

theorem cutPort_eq (host name : Text) (port : Option Text) :
    cutPort host = (name, port) ↔
      host = joinPort name port ∧ (∀ p ∈ port, ':' ∉ p) ∧ (port = none → ':' ∉ name) := by
  unfold cutPort
  cases cut : rsplitOnce ':' host with
  | none =>
    have absent := (rsplitOnce_eq_none _ _).mp cut
    cases port with
    | none =>
      simp only [Prod.mk.injEq, and_true, joinPort]
      constructor
      · rintro rfl
        exact ⟨rfl, by simp, fun _ => absent⟩
      · exact fun h => h.1
    | some p =>
      simp only [Prod.mk.injEq, reduceCtorEq, and_false, joinPort, false_iff]
      rintro ⟨rfl, -⟩
      simp at absent
  | some pair =>
    obtain ⟨n, p⟩ := pair
    obtain ⟨rfl, hp⟩ := (rsplitOnce_eq_some _ _ _ _).mp cut
    cases port with
    | none =>
      simp only [Prod.mk.injEq, reduceCtorEq, and_false, joinPort, false_iff]
      rintro ⟨rfl, -, absent⟩
      simp at absent
    | some q =>
      simp only [Prod.mk.injEq, Option.some.injEq, joinPort]
      constructor
      · rintro ⟨rfl, rfl⟩
        exact ⟨rfl, by simpa using hp, by simp⟩
      · rintro ⟨heq, hq, -⟩
        have same := (rsplitOnce_eq_some ':' _ name q).mpr ⟨heq, hq q rfl⟩
        rw [cut] at same
        cases same
        exact ⟨rfl, rfl⟩

def HostName (name : Text) : Prop :=
  ∀ label ∈ name.splitOn '.', edged Char.isAlphanum isHostLabelChar label = true

def Port (port : Option Text) : Prop := ∀ p ∈ port, p ≠ [] ∧ ∀ c ∈ p, c.isDigit

/-- A normalised host: validated labels and, where there is one, a numeric port. -/
def HostShape (host : Text) : Prop :=
  ∃ name port, host = joinPort name port ∧ HostName name ∧ Port port

theorem HostName.ne_nil (name : Text) (h : HostName name) : name ≠ [] := by
  rintro rfl
  have := h [] (by simp)
  simp [edged] at this

theorem HostName.chars (name : Text) (h : HostName name) :
    ∀ c ∈ name, isHostLabelChar c = true ∨ c = '.' := by
  intro c member
  by_cases dot : c = '.'
  · exact Or.inr dot
  · obtain ⟨label, hlabel, hc⟩ := (mem_splitOn '.' c name).mpr ⟨member, dot⟩
    exact Or.inl (((edged_iff _ _ _).mp (h label hlabel)).2.2 c hc)

/-- A validated name does not end in a dot, so stripping one changes nothing. -/
theorem HostName.stripLast (name : Text) (h : HostName name) : stripLast '.' name = name := by
  apply stripLast_absent
  intro dot
  have whole := (List.dropLast_append_getLast? '.' dot).symm
  have last : [] ∈ name.splitOn '.' := by
    rw [whole, List.splitOn_append_cons_self]
    simp
  have := h [] last
  simp [edged] at this

theorem normalizeHost_eq_ok (host normal : Text) :
    normalizeHost (some host) = .ok normal ↔
      ∃ name port, cutPort (host.map Char.toLower) = (name, port) ∧
        HostName (stripLast '.' name) ∧ Port port ∧ normal = joinPort (stripLast '.' name) port := by
  unfold normalizeHost
  cases cut : cutPort (host.map Char.toLower) with
  | mk n p =>
  simp only [cut, guard_eq_ok, bind_eq_ok, forEach_eq_ok, validateHostLabel, check_eq_ok, and_true,
    Prod.mk.injEq]
  constructor
  · rintro ⟨-, _, labels, h⟩
    refine ⟨n, p, ⟨rfl, rfl⟩, labels, ?_⟩
    cases p with
    | none => exact ⟨by simp [Port], by cases h; rfl⟩
    | some q =>
      simp only [guard_eq_ok, not_or, Bool.not_eq_true', Except.ok.injEq] at h
      refine ⟨?_, h.2.symm⟩
      simpa [Port] using h.1
  · rintro ⟨name, port, ⟨rfl, rfl⟩, labels, hport, rfl⟩
    refine ⟨HostName.ne_nil _ labels, (), labels, ?_⟩
    cases p with
    | none => rfl
    | some q =>
      simp only [guard_eq_ok, not_or, Bool.not_eq_true', Except.ok.injEq]
      exact ⟨by simpa [Port] using hport, rfl⟩

theorem normalizeHost_hub (normal : Text) (h : normalizeHost none = .ok normal) :
    normal = defaultHost :=
  (Except.ok.inj h).symm

theorem normalizeHost_shape (host : Option Text) (normal : Text)
    (h : normalizeHost host = .ok normal) : HostShape normal := by
  cases host with
  | none =>
    rw [normalizeHost_hub _ h]
    exact ⟨defaultHost, none, rfl, by unfold HostName; decide, by simp [Port]⟩
  | some host =>
    obtain ⟨name, port, -, labels, hport, rfl⟩ := (normalizeHost_eq_ok host normal).mp h
    exact ⟨_, port, rfl, labels, hport⟩

theorem isHostLabelChar_lower (c : Char) (h : isHostLabelChar c = true) : c.toLower = c := by
  simp only [isHostLabelChar, Bool.or_eq_true, beq_iff_eq] at h
  rcases h with (lower | digit) | rfl
  · exact toLower_of_isLower c lower
  · exact toLower_of_isDigit c digit
  · rfl

theorem HostShape.chars (host : Text) (h : HostShape host) :
    ∀ c ∈ host, isHostLabelChar c = true ∨ c = '.' ∨ c = ':' := by
  obtain ⟨name, port, rfl, labels, hport⟩ := h
  intro c member
  have inName : c ∈ name → isHostLabelChar c = true ∨ c = '.' ∨ c = ':' := by
    intro hc
    rcases HostName.chars name labels c hc with label | dot
    · exact Or.inl label
    · exact Or.inr (Or.inl dot)
  cases port with
  | none => exact inName member
  | some p =>
    simp only [joinPort, List.mem_append, List.mem_cons] at member
    rcases member with hc | colon | hc
    · exact inName hc
    · exact Or.inr (Or.inr colon)
    · exact Or.inl (by simp [isHostLabelChar, (hport p rfl).2 c hc])

/-- Normalising a normalised host changes nothing. -/
theorem normalizeHost_fixed (host : Text) (h : HostShape host) :
    normalizeHost (some host) = .ok host := by
  have lowered : host.map Char.toLower = host := by
    apply map_toLower_of_fixed
    intro c member
    rcases HostShape.chars host h c member with label | rfl | rfl
    · exact isHostLabelChar_lower c label
    · rfl
    · rfl
  obtain ⟨name, port, rfl, labels, hport⟩ := h
  refine (normalizeHost_eq_ok _ _).mpr ⟨name, port, ?_, ?_, hport, ?_⟩
  · rw [lowered, cutPort_eq]
    refine ⟨rfl, ?_, ?_⟩
    · intro p hp colon
      exact absurd ((hport p hp).2 ':' colon) (by decide)
    · intro _ colon
      rcases HostName.chars name labels ':' colon with label | dot
      · exact absurd label (by decide)
      · exact absurd dot (by decide)
  · rwa [HostName.stripLast name labels]
  · rw [HostName.stripLast name labels]

/-! ## Paths -/

/-- Every component of the path is validated. -/
def PathShape (path : Text) : Prop :=
  ∀ component ∈ path.splitOn '/', edged isComponentEdge isComponentChar component = true

theorem normalizePath_eq_ok (host path normal : Text) :
    normalizePath host path = .ok normal ↔
      PathShape path ∧ normal =
        if host = defaultHost ∧ '/' ∉ path then defaultNamespace ++ '/' :: path else path := by
  unfold normalizePath PathShape
  simp only [guard_eq_ok, bind_eq_ok, forEach_eq_ok, validatePathComponent, check_eq_ok, and_true]
  constructor
  · rintro ⟨-, _, parts, h⟩
    refine ⟨parts, ?_⟩
    split at h
    · rename_i shorthand
      cases h
      rw [if_pos (by simpa using shorthand)]
    · rename_i explicit
      cases h
      rw [if_neg (by simpa using explicit)]
  · rintro ⟨parts, rfl⟩
    refine ⟨?_, (), parts, ?_⟩
    · rintro rfl
      have := parts [] (by simp)
      simp [edged] at this
    · split
      · rename_i shorthand
        rw [if_pos (by simpa using shorthand)]
      · rename_i explicit
        rw [if_neg (by simpa using explicit)]

theorem PathShape.ne_nil (path : Text) (h : PathShape path) : path ≠ [] := by
  rintro rfl
  have := h [] (by simp)
  simp [edged] at this

theorem PathShape.chars (path : Text) (h : PathShape path) :
    ∀ c ∈ path, isComponentChar c = true ∨ c = '/' := by
  intro c member
  by_cases slash : c = '/'
  · exact Or.inr slash
  · obtain ⟨part, hpart, hc⟩ := (mem_splitOn '/' c path).mpr ⟨member, slash⟩
    exact Or.inl (((edged_iff _ _ _).mp (h part hpart)).2.2 c hc)

/-- On Docker Hub a path has at least two components. -/
theorem normalizePath_shape (host path normal : Text) (h : normalizePath host path = .ok normal) :
    PathShape normal ∧ (host = defaultHost → '/' ∈ normal) := by
  obtain ⟨parts, rfl⟩ := (normalizePath_eq_ok host path normal).mp h
  split
  · refine ⟨?_, by simp⟩
    unfold PathShape
    rw [splitOn_append _ _ _ (by decide)]
    simp only [List.mem_cons, forall_eq_or_imp]
    exact ⟨by decide, parts⟩
  · rename_i explicit
    refine ⟨parts, ?_⟩
    intro hub
    by_contra single
    exact explicit ⟨hub, single⟩

/-- Normalising a normalised path changes nothing. -/
theorem normalizePath_fixed (host path : Text) (shape : PathShape path)
    (hub : host = defaultHost → '/' ∈ path) : normalizePath host path = .ok path := by
  refine (normalizePath_eq_ok host path path).mpr ⟨shape, ?_⟩
  rw [if_neg]
  rintro ⟨onHub, single⟩
  exact single (hub onHub)

/-! ## Tags and digests -/

theorem isTag_chars (tag : Text) (h : isTag tag = true) : ∀ c ∈ tag, isTagChar c = true := by
  cases tag with
  | nil => simp
  | cons first rest =>
    simp only [isTag, isTagEdge, isTagChar, Bool.and_eq_true, List.all_eq_true] at *
    intro c member
    simp only [List.mem_cons] at member
    rcases member with rfl | member
    · rcases Bool.or_eq_true _ _ ▸ h.2.1 with alnum | under
      · simp [alnum]
      · simp [beq_iff_eq.mp under]
    · exact h.2.2 c member

theorem scanAlgorithm_chars (s : Text) (separated : Bool) (ended : Bool)
    (h : scanAlgorithm separated s = some ended) :
    ∀ c ∈ s, ['+', '.', '_', '-'].contains c = true ∨ c.isLower = true ∨ c.isDigit = true := by
  induction s generalizing separated with
  | nil => simp
  | cons c rest ih =>
    unfold scanAlgorithm at h
    have split : (['+', '.', '_', '-'].contains c = true ∨ c.isLower = true ∨ c.isDigit = true) ∧
        ∃ next, scanAlgorithm next rest = some ended := by
      split at h
      · rename_i separator
        refine ⟨Or.inl separator, true, ?_⟩
        cases separated with
        | true => simp at h
        | false => simpa using h
      · split at h
        · rename_i group
          exact ⟨Or.inr (by simpa using group), false, h⟩
        · cases h
    obtain ⟨hc, next, hrest⟩ := split
    intro d member
    simp only [List.mem_cons] at member
    rcases member with rfl | member
    · exact hc
    · exact ih next hrest d member

/-- What a digest is made of; in particular it carries neither `/` nor `@`. -/
theorem validateDigest_chars (digest : Text) (h : validateDigest digest = .ok ()) :
    ∀ c ∈ digest, isEncodedChar c = true ∨ c = '+' ∨ c = '.' ∨ c = ':' := by
  unfold validateDigest at h
  split at h
  · cases h
  · rename_i algorithm encoded cut
    obtain ⟨rfl, -⟩ := (splitOnce_eq_some _ _ _ _).mp cut
    simp only [guard_eq_ok, not_not, check_eq_ok, and_true, List.all_eq_true] at h
    obtain ⟨-, halgorithm, hencoded⟩ := h
    intro c member
    simp only [List.mem_append, List.mem_cons] at member
    rcases member with hc | rfl | hc
    · have group := scanAlgorithm_chars algorithm true false halgorithm c hc
      simp only [List.contains_eq_mem, List.mem_cons, List.not_mem_nil, or_false,
        decide_eq_true_eq] at group
      simp only [isEncodedChar, Char.isAlphanum, isAlpha_iff, Bool.or_eq_true]
      rcases group with (rfl | rfl | rfl | rfl) | lower | digit
      · simp
      · simp
      · simp
      · simp
      · simp [lower]
      · simp [digit]
    · simp
    · exact Or.inl (hencoded c hc)

/-! ## The whole parser -/

/-- What is kept of the tag: nothing under a digest, else the tag or its default. -/
def keptTag (digest tag : Option Text) : Option Text :=
  match digest with
  | some _ => none
  | none => some (tag.getD defaultTag)

theorem parse_eq_ok (raw : Text) (r : ImageReference) :
    ImageReference.parse raw = .ok r ↔
      raw ≠ [] ∧ byteLen raw ≤ maxReferenceLen ∧ (∀ c ∈ raw, isLegalReferenceChar c = true) ∧
      ∃ nameAndTag name tag host path,
        splitDigest raw = .ok (nameAndTag, r.digest) ∧ splitTag nameAndTag = .ok (name, tag) ∧
        splitHost name = .ok (host, path) ∧ normalizeHost host = .ok r.host ∧
        normalizePath r.host path = .ok r.path ∧ (∀ t ∈ tag, isTag t = true) ∧
        r.tag = keptTag r.digest tag := by
  have legal : raw.find? (fun c => !isLegalReferenceChar c) = none ↔
      ∀ c ∈ raw, isLegalReferenceChar c = true := by simp
  unfold ImageReference.parse
  simp only [guard_eq_ok, Nat.not_lt, gt_iff_lt]
  refine and_congr_right fun _ => and_congr_right fun _ => ?_
  cases found : raw.find? (fun c => !isLegalReferenceChar c) with
  | some c =>
    simp only [reduceCtorEq, false_iff, not_and]
    intro all
    rw [legal.mpr all] at found
    cases found
  | none =>
    simp only [bind_eq_ok, Prod.exists, forEach_eq_ok, validateTag, check_eq_ok, and_true,
      Option.mem_toList]
    constructor
    · rintro ⟨nameAndTag, digest, hd, name, tag, ht, host, path, hh, nh, hnh, np, hnp, _, htag, hr⟩
      cases hr
      exact ⟨legal.mp found, nameAndTag, name, tag, host, path, hd, ht, hh, hnh, hnp, htag, rfl⟩
    · rintro ⟨-, nameAndTag, name, tag, host, path, hd, ht, hh, hnh, hnp, htag, hr⟩
      refine ⟨nameAndTag, r.digest, hd, name, tag, ht, host, path, hh, r.host, hnh, r.path, hnp, (),
        htag, ?_⟩
      cases r
      simp only at hr
      rw [hr]
      rfl

end WeeboSi.ImagePolicy
