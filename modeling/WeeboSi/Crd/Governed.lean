import WeeboSi.Crd.Hosts
import WeeboSi.EndpointAuth.Identity
import WeeboSi.Lib.Trim

/-!
# Which hosts are governed, twice

Source: crates/weebo-si-crd/src/endpoint_auth.rs:238-247, which the operator asks, and
crates/weebo-si-endpoint-auth/src/host.rs:41-128, which the gateway asks.
-/
namespace WeeboSi.Crd
open WeeboSi.Lib WeeboSi.EndpointAuth

/-! ## Lowercase texts -/

theorem toLower_toLower (c : Char) : c.toLower.toLower = c.toLower := by
  by_cases upper : c.isUpper = true
  · apply toLower_of_not_isUpper
    intro again
    have low := (isUpper_iff _).mp upper
    have high := (isUpper_iff _).mp again
    rw [toNat_toLower_of_isUpper c upper] at high
    omega
  · rw [toLower_of_not_isUpper c upper]
    exact toLower_of_not_isUpper c upper

@[simp] theorem lowerText_lowerText (s : Text) : lowerText (lowerText s) = lowerText s := by
  unfold lowerText
  rw [List.map_map]
  exact List.map_congr_left fun c _ => toLower_toLower c

/-- What a character of a host was before it was lowercased. -/
theorem ascii_of_hostChar (c : Char) (host : isHostChar c.toLower = true) :
    c.toNat < 128 ∧ isWhite c = false ∧ c ≠ ':' := by
  have small : c.toLower.toNat < 128 ∧ 45 ≤ c.toLower.toNat := by
    simp only [isHostChar, Bool.or_eq_true, isLower_iff, isDigit_iff, beq_iff_eq] at host
    rcases host with ((lower | digit) | dot) | dash
    · omega
    · omega
    · rw [dot]
      decide
    · rw [dash]
      decide
  have bounds : c.toNat < 128 ∧ 45 ≤ c.toNat ∧ c ≠ ':' := by
    by_cases upper : c.isUpper = true
    · have range := (isUpper_iff _).mp upper
      refine ⟨by omega, by omega, ?_⟩
      rintro rfl
      exact absurd upper (by decide)
    · rw [toLower_of_not_isUpper c upper] at small host
      refine ⟨small.1, small.2, ?_⟩
      rintro rfl
      exact absurd host (by decide)
  refine ⟨bounds.1, ?_, bounds.2.2⟩
  simp only [isWhite, Bool.or_eq_false_iff, Bool.and_eq_false_iff, decide_eq_false_iff_not]
  refine ⟨⟨by omega, by omega⟩, ?_⟩
  simp only [List.contains_eq_mem, decide_eq_false_iff_not, List.mem_cons, List.not_mem_nil, or_false]
  omega

theorem toLower_eq_dot (c : Char) : c.toLower = '.' ↔ c = '.' := by
  constructor
  · intro same
    by_cases upper : c.isUpper = true
    · have range := (isUpper_iff _).mp upper
      have raised := toNat_toLower_of_isUpper c upper
      rw [same] at raised
      have dot : '.'.toNat = 46 := rfl
      omega
    · rwa [toLower_of_not_isUpper c upper] at same
  · rintro rfl
    decide

/-! ## The two normal forms of a host -/

/-- What the gateway keeps of a host text, before it is lowercased. -/
def hostName (raw : Text) : Text := stripLast '.' (withoutPort (trim raw))

theorem parse_eq_ok (raw : Text) (host : Host) :
    Host.parse raw = .ok host ↔
      hostName raw ≠ [] ∧ byteLen (hostName raw) ≤ maxHostLen ∧ host.text = lowerText (hostName raw) := by
  unfold hostName Host.parse
  dsimp only
  split_ifs with empty long usable
  · simp [empty]
  · simp [Nat.not_le.mpr long]
  · rw [Except.ok.injEq]
    constructor
    · rintro rfl
      exact ⟨empty, Nat.le_of_not_gt long, rfl⟩
    · intro given
      cases host
      cases given.2.2
      rfl
  · constructor
    · intro failed
      cases failed
    · intro given
      have lowered := given.2.2
      rw [lowerText] at lowered
      exact absurd (lowered ▸ host.usable) usable

theorem withoutPort_of_absent (s : Text) (absent : ':' ∉ s) : withoutPort s = s := by
  unfold withoutPort
  rw [rsplitOnce_absent _ _ absent]

theorem trimEndMatches_last (c : Char) (s : Text) : (trimEndMatches c s).getLast? ≠ some c := by
  intro last
  have kept := dropWhile_front (· == c) s.reverse c (by rw [← List.getLast?_reverse]; exact last)
  simp at kept

theorem trimEndMatches_of_last (c : Char) (s : Text) (last : s.getLast? ≠ some c) :
    trimEndMatches c s = s := by
  change s.rdropWhile (· == c) = s
  rw [List.rdropWhile_eq_self_iff]
  intro nonempty same
  apply last
  rw [List.getLast?_eq_some_getLast nonempty, beq_iff_eq.mp same]

theorem trimEndMatches_append (c : Char) (s : Text) : trimEndMatches c (s ++ [c]) = trimEndMatches c s := by
  simp [trimEndMatches]

/-- The gateway leaves all but one of the dots that the operator removes. -/
theorem plainHost_eq (host : Text) :
    plainHost host = lowerText (trimEndMatches '.' (stripLast '.' (trim host))) := by
  unfold plainHost
  rcases stripLast_cases '.' (trim host) with dotted | ⟨same, -⟩
  · generalize stripLast '.' (trim host) = name at *
    rw [dotted, trimEndMatches_append]
  · rw [same]

theorem plainHost_last (host : Text) : (plainHost host).getLast? ≠ some '.' := by
  unfold plainHost lowerText
  rw [List.getLast?_map]
  intro last
  obtain ⟨c, isLast, lowered⟩ := Option.map_eq_some_iff.mp last
  rw [(toLower_eq_dot c).mp lowered] at isLast
  exact trimEndMatches_last '.' _ isLast

theorem trim_of_hostChars (s : Text) (chars : ∀ c ∈ s, isHostChar c.toLower = true) : trim s = s := by
  have solid : ∀ c ∈ s, isWhite c = false := fun c member => (ascii_of_hostChar c (chars c member)).2.1
  rw [trim_eq_trimBy]
  exact trimBy_of_solid _ _
    ⟨fun c first => solid c (List.mem_of_head? first), fun c last => solid c (List.mem_of_getLast? last)⟩

/-- A host written as it is compared is read as itself. -/
theorem parse_of_lowerText (host excluded : Text) (parsed : Host) (same : parsed.text = plainHost host)
    (spelt : lowerText excluded = plainHost host) : Host.parse excluded = .ok parsed := by
  have text : lowerText excluded = parsed.text := spelt.trans same.symm
  have chars : ∀ c ∈ excluded, isHostChar c.toLower = true := by
    intro c member
    have lowered : c.toLower ∈ parsed.text := by
      rw [← text]
      exact List.mem_map_of_mem member
    exact List.all_eq_true.mp parsed.usable _ lowered
  have absent : ':' ∉ excluded := fun member => (ascii_of_hostChar ':' (chars ':' member)).2.2 rfl
  have undotted : excluded.getLast? ≠ some '.' := by
    intro last
    apply plainHost_last host
    rw [← spelt, lowerText, List.getLast?_map, last]
    rfl
  have name : hostName excluded = excluded := by
    rw [hostName, trim_of_hostChars _ chars, withoutPort_of_absent _ absent, stripLast_absent _ _ undotted]
  have long : excluded.length = parsed.text.length := by rw [← text, lowerText, List.length_map]
  refine (parse_eq_ok excluded parsed).mpr ?_
  rw [name]
  refine ⟨?_, ?_, text.symm⟩
  · rintro rfl
    exact parsed.nonempty text.symm
  · rw [byteLen_of_ascii excluded fun c member => ?_, long]
    · exact parsed.short
    · rw [Char.utf8Size_eq_one_iff, UInt32.le_iff_toNat_le]
      exact Nat.le_of_lt_succ (ascii_of_hostChar c (chars c member)).1

/-! ## Exclusions -/

/-- The suffix as the gateway compares it. -/
def HostsConfig.trimmedSuffix (hosts : HostsConfig) : Text := lowerText (trim hosts.suffix)

/-- An exclusion is written as the host is compared, up to case. -/
def HostsConfig.Spelt (hosts : HostsConfig) (host : Text) : Prop :=
  ∃ excluded ∈ hosts.exclude, lowerText excluded = plainHost host

/-- An exclusion names the host, however it is written. -/
def HostsConfig.Names (hosts : HostsConfig) (host : Host) : Prop :=
  ∃ excluded ∈ hosts.exclude, Host.parse excluded = .ok host

theorem governs_eq_true (hosts : HostsConfig) (host : Text) :
    hosts.governs host = true ↔ lowerText hosts.suffix <:+ plainHost host ∧ ¬ hosts.Spelt host := by
  simp [HostsConfig.governs, HostsConfig.Spelt, plainHost]

theorem scope_governs_eq_true (hosts : HostsConfig) (scope : HostScope) (host : Host)
    (accepted : HostScope.new hosts.suffix hosts.exclude = .ok scope) :
    scope.governs host = true ↔ hosts.trimmedSuffix <:+ host.text ∧ ¬ hosts.Names host := by
  unfold HostScope.new at accepted
  dsimp only at accepted
  split_ifs at accepted with dotted broad
  obtain ⟨exclude, parsed, built⟩ := (bind_eq_ok _ _ _).mp accepted
  cases built
  have pairs := (mapM_eq_ok _ _ _).mp parsed
  have named : host ∈ exclude ↔ hosts.Names host := by
    constructor
    · intro member
      obtain ⟨excluded, written, reads⟩ := forall₂_mem_right _ _ _ pairs host member
      cases parse : Host.parse excluded with
      | error problem =>
        rw [parse] at reads
        cases reads
      | ok read =>
        rw [parse] at reads
        cases reads
        exact ⟨excluded, written, parse⟩
    · rintro ⟨excluded, written, reads⟩
      obtain ⟨other, member, same⟩ := forall₂_mem_right _ _ _ pairs.flip excluded written
      rw [reads] at same
      cases same
      exact member
  simp [HostScope.governs, HostsConfig.trimmedSuffix, lowerText, named]

theorem trimmedSuffix_ne_nil (hosts : HostsConfig) (scope : HostScope)
    (accepted : HostScope.new hosts.suffix hosts.exclude = .ok scope) : hosts.trimmedSuffix ≠ [] := by
  unfold HostScope.new at accepted
  dsimp only at accepted
  split_ifs at accepted with dotted
  intro empty
  rw [HostsConfig.trimmedSuffix, lowerText] at empty
  rw [empty] at dotted
  cases dotted

/-! ## Where the two agree -/

section Agreement
variable (hosts : HostsConfig) (host : Text) (parsed : Host) (reads : Host.parse host = .ok parsed)
  (portless : ':' ∉ host)
include reads portless

theorem parsed_text : parsed.text = lowerText (stripLast '.' (trim host)) := by
  have absent : ':' ∉ trim host := fun member => portless (mem_of_mem_trimBy _ _ _ member)
  rw [((parse_eq_ok host parsed).mp reads).2.2, hostName, withoutPort_of_absent _ absent]

theorem parsed_last : parsed.text = plainHost host ∨ parsed.text.getLast? = some '.' := by
  rw [parsed_text host parsed reads portless, plainHost_eq]
  by_cases last : (stripLast '.' (trim host)).getLast? = some '.'
  · right
    simp [lowerText, last]
  · left
    rw [trimEndMatches_of_last _ _ last]

theorem plainHost_chars (c : Char) (member : c ∈ plainHost host) : isHostChar c = true := by
  rw [plainHost_eq] at member
  obtain ⟨d, kept, rfl⟩ := List.mem_map.mp member
  have inside : d ∈ stripLast '.' (trim host) :=
    (List.rdropWhile_prefix (p := (· == '.')) (stripLast '.' (trim host))).subset kept
  apply List.all_eq_true.mp parsed.usable
  rw [parsed_text host parsed reads portless]
  exact List.mem_map_of_mem inside

/-- A suffix with blanks around it ends no host. -/
theorem trim_suffix_of_under (under : lowerText hosts.suffix <:+ plainHost host) :
    trim hosts.suffix = hosts.suffix := by
  apply trim_of_hostChars
  intro c member
  exact plainHost_chars host parsed reads portless _ (under.subset (List.mem_map_of_mem member))

/-- A suffix cannot end both a host and the same host with a dot more. -/
theorem dotted_suffix (nonempty : hosts.trimmedSuffix ≠ []) (last : parsed.text.getLast? = some '.')
    (written : lowerText hosts.suffix <:+ plainHost host) (trimmed : hosts.trimmedSuffix <:+ parsed.text) :
    False := by
  have same := trim_suffix_of_under hosts host parsed reads portless written
  rw [HostsConfig.trimmedSuffix, same] at nonempty trimmed
  obtain ⟨before, split⟩ := written
  obtain ⟨front, whole⟩ := trimmed
  apply plainHost_last host
  rw [← split, List.getLast?_append_of_ne_nil _ nonempty]
  rw [← whole, List.getLast?_append_of_ne_nil _ nonempty] at last
  exact last

end Agreement

/-- What keeps the two answers on `host` together. -/
def HostsConfig.OneAnswer (hosts : HostsConfig) (host : Text) (parsed : Host) : Prop :=
  if parsed.text = plainHost host then
    hosts.trimmedSuffix <:+ parsed.text →
      if trim hosts.suffix = hosts.suffix then hosts.Names parsed → hosts.Spelt host else hosts.Names parsed
  else
    (lowerText hosts.suffix <:+ plainHost host → hosts.Spelt host) ∧
      (hosts.trimmedSuffix <:+ parsed.text → hosts.Names parsed)

/-- The operator and the gateway answer alike exactly where the dots, the blanks and the
exclusions are written alike. -/
theorem governs_agree_iff (hosts : HostsConfig) (scope : HostScope) (host : Text) (parsed : Host)
    (accepted : HostScope.new hosts.suffix hosts.exclude = .ok scope) (reads : Host.parse host = .ok parsed)
    (portless : ':' ∉ host) :
    hosts.governs host = scope.governs parsed ↔ hosts.OneAnswer host parsed := by
  rw [Bool.eq_iff_iff, governs_eq_true, scope_governs_eq_true hosts scope parsed accepted]
  unfold HostsConfig.OneAnswer
  split_ifs with same trimmed
  · have spelt : hosts.Spelt host → hosts.Names parsed := by
      rintro ⟨excluded, written, spelt⟩
      exact ⟨excluded, written, parse_of_lowerText host excluded parsed same spelt⟩
    rw [HostsConfig.trimmedSuffix, trimmed, ← same]
    tauto
  · have blank : ¬ lowerText hosts.suffix <:+ plainHost host := fun under =>
      trimmed (trim_suffix_of_under hosts host parsed reads portless under)
    tauto
  · have last := (parsed_last host parsed reads portless).resolve_left same
    have apart := dotted_suffix hosts host parsed reads portless
      (trimmedSuffix_ne_nil hosts scope accepted) last
    tauto

/-- Under `.weebo.si`, with `auth.weebo.si` excluded. -/
def dashboardHosts : HostsConfig := ⟨".weebo.si".toList, [], ["Auth.weebo.si".toList]⟩

theorem governs_agree_dashboard : ∃ scope parsed,
    HostScope.new dashboardHosts.suffix dashboardHosts.exclude = .ok scope ∧
      Host.parse "AUTH.weebo.si.".toList = .ok parsed ∧
      dashboardHosts.governs "AUTH.weebo.si.".toList = scope.governs parsed := by
  refine ⟨_, _, rfl, rfl, (governs_agree_iff dashboardHosts _ _ _ rfl rfl (by decide)).mpr ?_⟩
  rw [HostsConfig.OneAnswer, if_pos (by decide)]
  intro _
  rw [if_pos (by decide)]
  intro _
  exact ⟨_, List.mem_singleton.mpr rfl, by decide⟩

/-- An exclusion written as a fully qualified name is one for the gateway only. -/
theorem dotted_exclusion_splits : ∃ scope parsed,
    HostScope.new ".weebo.si".toList ["auth.weebo.si.".toList] = .ok scope ∧
      Host.parse "auth.weebo.si".toList = .ok parsed ∧ ':' ∉ "auth.weebo.si".toList ∧
      HostsConfig.governs ⟨".weebo.si".toList, [], ["auth.weebo.si.".toList]⟩ "auth.weebo.si".toList = true ∧
      scope.governs parsed = false :=
  ⟨_, _, rfl, rfl, by decide, by decide, by decide⟩

end WeeboSi.Crd
