import WeeboSi.Crd.Governed

/-!
# The return URL of a sign-in

Source: bins/endpoint-gateway/src/http.rs:597-612, over
crates/weebo-si-endpoint-auth/src/host.rs:41-64. What the browser is sent to is the target
as it was written; what is checked is a host read out of it.
-/
namespace WeeboSi.Gateway
open WeeboSi.Lib WeeboSi.EndpointAuth WeeboSi.Crd

def scheme : Text := "https://".toList
def defaultPort : Text := "443".toList

/-- The target up to its path or query, after the scheme. -/
def targetAuthority (target : Text) : Option Text :=
  (target.dropPrefix? scheme).map fun rest => rest.takeWhile fun c => c != '/' && c != '?'

/-- An explicit port other than the default one. -/
def foreignPort (authority : Text) : Bool :=
  match rsplitOnce ':' authority with
  | some (_, port) => port != defaultPort
  | none => false

def endpointTarget (scope : HostScope) (target : Text) : Option Host :=
  if target.contains '#' then none
  else match targetAuthority target with
  | none => none
  | some authority =>
    if foreignPort authority then none
    else (Host.parse authority).toOption.filter scope.governs

/-! ## What a browser reads -/

/-- Where a browser ends the authority of an `https` URL. -/
def endsAuthority (c : Char) : Bool := c == '/' || c == '?' || c == '#' || c == '\\'

/-- The authority of the target as it is written. -/
def writtenAuthority (target : Text) : Text :=
  (target.drop scheme.length).takeWhile fun c => !endsAuthority c

/-- A text that is a host name with the default port or none, and names this host but for
case and one trailing dot. -/
structure SpeltAs (text name port : Text) (host : Host) : Prop where
  parts : text = name ++ port
  ports : port = [] ∨ port = ':' :: defaultPort
  chars : ∀ c ∈ name, isHostChar c.toLower = true
  named : host.text = lowerText (stripLast '.' name)

/-- The written authority is the host that was checked, and nothing else. -/
structure ClosedRedirect (scope : HostScope) (target : Text) (host : Host) : Prop where
  spelt : ∃ name port, SpeltAs (writtenAuthority target) name port host
  noUserinfo : '@' ∉ writtenAuthority target
  noBlank : ∀ c ∈ writtenAuthority target, isWhite c = false
  governed : scope.governs host = true

/-! ## What the check establishes -/

section Accepted
variable (scope : HostScope) (target : Text) (host : Host)

theorem endpointTarget_eq_some : endpointTarget scope target = some host ↔
    '#' ∉ target ∧ ∃ authority, targetAuthority target = some authority ∧ foreignPort authority = false ∧
      Host.parse authority = .ok host ∧ scope.governs host = true := by
  unfold endpointTarget
  by_cases fragment : '#' ∈ target
  · simp [fragment]
  · cases targetAuthority target with
    | none => simp [fragment]
    | some authority =>
      have read : (Host.parse authority).toOption = some host ↔ Host.parse authority = .ok host := by
        cases Host.parse authority <;> simp [Except.toOption]
      cases foreign : foreignPort authority <;> simp [fragment, foreign, Option.filter_eq_some_iff, read]

theorem targetAuthority_eq_some (authority : Text) : targetAuthority target = some authority ↔
    ∃ rest, target = scheme ++ rest ∧ authority = rest.takeWhile fun c => c != '/' && c != '?' := by
  unfold targetAuthority
  simp only [Option.map_eq_some_iff, List.dropPrefix?_eq_some_iff, beq_iff_eq]
  constructor
  · rintro ⟨rest, ⟨start, same, rfl⟩, rfl⟩
    exact ⟨rest, by simpa using same, rfl⟩
  · rintro ⟨rest, rfl, rfl⟩
    exact ⟨rest, ⟨scheme, by simp, rfl⟩, rfl⟩

end Accepted

section Characters

theorem white_of_endsAuthority (c : Char) (ends : endsAuthority c = true) : isWhite c = false := by
  simp only [endsAuthority, Bool.or_eq_true, beq_iff_eq] at ends
  rcases ends with ((rfl | rfl) | rfl) | rfl <;> decide

theorem hostChar_plain (c : Char) (host : isHostChar c.toLower = true) :
    endsAuthority c = false ∧ c ≠ '@' ∧ isWhite c = false := by
  refine ⟨?_, ?_, (ascii_of_hostChar c host).2.1⟩
  · rw [Bool.eq_false_iff]
    intro ends
    simp only [endsAuthority, Bool.or_eq_true, beq_iff_eq] at ends
    rcases ends with ((rfl | rfl) | rfl) | rfl <;> exact absurd host (by decide)
  · rintro rfl
    exact absurd host (by decide)

theorem defaultPort_plain (c : Char) (member : c ∈ ':' :: defaultPort) :
    endsAuthority c = false ∧ c ≠ '@' ∧ isWhite c = false := by
  have chars : ':' :: defaultPort = [':', '4', '4', '3'] := rfl
  rw [chars] at member
  simp only [List.mem_cons, List.not_mem_nil, or_false] at member
  rcases member with rfl | rfl | rfl | rfl <;> decide

/-- A text that ends in the default port has no blank after it. -/
theorem port_exact (tail after : Text) (blank : ∀ c ∈ after, isWhite c = true)
    (port : tail ++ after = defaultPort) : tail = defaultPort := by
  have nothing : after = [] := by
    by_contra more
    have last := List.getLast?_eq_some_getLast more
    have white := blank _ (List.getLast_mem more)
    have same : (tail ++ after).getLast? = some '3' := by
      rw [port]
      rfl
    rw [List.getLast?_append, last, Option.some_or, Option.some.injEq] at same
    rw [same] at white
    exact absurd white (by decide)
  rwa [nothing, List.append_nil] at port

end Characters

/-! ## The name that was checked -/

section Parsed
variable (authority : Text) (host : Host) (parsed : Host.parse authority = .ok host)
  (plain : foreignPort authority = false)

include parsed

theorem name_chars (name : Text) (cut : withoutPort (trim authority) = name) :
    (∀ c ∈ name, isHostChar c.toLower = true) ∧ host.text = lowerText (stripLast '.' name) := by
  have text := ((parse_eq_ok authority host).mp parsed).2.2
  rw [hostName, cut] at text
  refine ⟨?_, text⟩
  have kept : ∀ c ∈ stripLast '.' name, isHostChar c.toLower = true := by
    intro c member
    apply List.all_eq_true.mp host.usable
    rw [text]
    exact List.mem_map_of_mem member
  intro c member
  rcases stripLast_cases '.' name with dotted | ⟨same, -⟩
  · rw [dotted] at member
    rcases List.mem_append.mp member with inside | last
    · exact kept c inside
    · cases List.mem_singleton.mp last
      decide
  · rw [← same] at member
    exact kept c member

include plain

theorem trimmed_spelt : ∃ name port, SpeltAs (trim authority) name port host := by
  obtain ⟨before, after, left, right, whole⟩ := trimBy_parts isWhite authority
  rw [← trim_eq_trimBy] at whole
  cases cut : rsplitOnce ':' (trim authority) with
  | none =>
    have noPort : withoutPort (trim authority) = trim authority := by rw [withoutPort, cut]
    obtain ⟨chars, text⟩ := name_chars authority host parsed _ noPort
    exact ⟨trim authority, [], by simp, Or.inl rfl, chars, text⟩
  | some pair =>
    obtain ⟨head, tail⟩ := pair
    obtain ⟨parts, absent⟩ := (rsplitOnce_eq_some _ _ _ _).mp cut
    -- The blanks hold no colon, so the port that was compared ends in the blanks that follow.
    have absentAfter : ':' ∉ tail ++ after := by
      intro member
      rcases List.mem_append.mp member with inside | blank
      · exact absent inside
      · exact absurd (right _ blank) (by decide)
    have wholeCut : rsplitOnce ':' authority = some (before ++ head, tail ++ after) := by
      rw [rsplitOnce_eq_some]
      refine ⟨?_, absentAfter⟩
      rw [parts] at whole
      simpa using whole
    have port : tail ++ after = defaultPort := by
      rw [foreignPort, wholeCut] at plain
      simpa using plain
    have exactPort := port_exact tail after right port
    have noPort : withoutPort (trim authority) = head := by
      rw [withoutPort, cut, exactPort]
      rfl
    obtain ⟨chars, text⟩ := name_chars authority host parsed _ noPort
    exact ⟨head, ':' :: defaultPort, by rw [parts, exactPort], Or.inr rfl, chars, text⟩

end Parsed

theorem SpeltAs.plain {text name port : Text} {host : Host} (spelt : SpeltAs text name port host) (c : Char)
    (member : c ∈ text) : endsAuthority c = false ∧ c ≠ '@' ∧ isWhite c = false := by
  rw [spelt.parts] at member
  rcases List.mem_append.mp member with inName | inPort
  · exact hostChar_plain c (spelt.chars c inName)
  · rcases spelt.ports with rfl | rfl
    · cases inPort
    · exact defaultPort_plain c inPort

/-- Nothing in an accepted authority ends it before a browser's reading does. -/
theorem writtenAuthority_eq (rest authority : Text) (host : Host)
    (cut : authority = rest.takeWhile fun c => c != '/' && c != '?')
    (parsed : Host.parse authority = .ok host) (plain : foreignPort authority = false) :
    writtenAuthority (scheme ++ rest) = authority := by
  obtain ⟨name, port, spelt⟩ := trimmed_spelt authority host parsed plain
  have none : ∀ c ∈ authority, endsAuthority c = false := by
    intro c member
    obtain ⟨before, after, left, right, whole⟩ := trimBy_parts isWhite authority
    rw [← trim_eq_trimBy] at whole
    have blank : isWhite c = true → endsAuthority c = false := fun white => by
      rw [Bool.eq_false_iff]
      intro ends
      rw [white_of_endsAuthority c ends] at white
      cases white
    rw [whole] at member
    rcases List.mem_append.mp member with inner | behind
    · rcases List.mem_append.mp inner with front | middle
      · exact blank (left c front)
      · exact (spelt.plain c middle).1
    · exact blank (right c behind)
  have shorter : ∀ c, (!endsAuthority c) = true → (c != '/' && c != '?') = true := by
    intro c goes
    simp only [endsAuthority, Bool.not_eq_true', Bool.or_eq_false_iff, beq_eq_false_iff_ne] at goes
    simp [goes.1.1.1, goes.1.1.2]
  have twice : authority = authority.takeWhile fun c => !endsAuthority c := by
    refine (List.takeWhile_eq_self_iff.mpr ?_).symm
    intro c member
    rw [none c member]
    rfl
  rw [writtenAuthority, List.drop_left, twice, cut, List.takeWhile_takeWhile]
  congr 1
  funext c
  have := shorter c
  grind

/-! ## When the redirect is closed -/

/-- For every accepted target the redirect is closed exactly when no blank stands around the
authority: the host parser removes these before it looks. -/
theorem endpointTarget_closed_iff (scope : HostScope) (target : Text) (host : Host)
    (accepted : endpointTarget scope target = some host) :
    ClosedRedirect scope target host ↔ trim (writtenAuthority target) = writtenAuthority target := by
  obtain ⟨-, authority, named, plain, parsed, governed⟩ := (endpointTarget_eq_some scope target host).mp accepted
  obtain ⟨rest, rfl, cut⟩ := (targetAuthority_eq_some target authority).mp named
  have written := writtenAuthority_eq rest authority host cut parsed plain
  constructor
  · intro closed
    have solid : Solid isWhite (writtenAuthority (scheme ++ rest)) :=
      ⟨fun c first => closed.noBlank c (List.mem_of_head? first),
        fun c last => closed.noBlank c (List.mem_of_getLast? last)⟩
    exact trimBy_of_solid isWhite _ solid
  · intro solid
    obtain ⟨name, port, spelt⟩ := trimmed_spelt authority host parsed plain
    rw [written] at solid
    rw [solid, ← written] at spelt
    exact ⟨⟨name, port, spelt⟩, fun member => (spelt.plain _ member).2.1 rfl,
      fun c member => (spelt.plain c member).2.2, governed⟩

theorem returnSuffix_dotted : ".weebo.si".toList.head? = some '.' := rfl

/-- The scope of the examples. -/
def returnScope : HostScope := ⟨".weebo.si".toList, [], returnSuffix_dotted⟩

def returnHost : Host := ⟨"alice.weebo.si".toList, by simp, by decide, by decide⟩

theorem endpointTarget_closed_upper :
    ClosedRedirect returnScope "https://Alice.weebo.si.:443/x?y".toList returnHost :=
  (endpointTarget_closed_iff returnScope "https://Alice.weebo.si.:443/x?y".toList returnHost
    (by decide +kernel)).mpr (by decide +kernel)

/-- A blank after the scheme is accepted, and stays in what the browser is sent to. -/
theorem blank_authority_accepted :
    endpointTarget returnScope "https:// alice.weebo.si/".toList = some returnHost ∧
      ¬ ClosedRedirect returnScope "https:// alice.weebo.si/".toList returnHost := by
  refine ⟨by decide +kernel, ?_⟩
  intro closed
  exact absurd (closed.noBlank ' ' (by decide +kernel)) (by decide)

end WeeboSi.Gateway
