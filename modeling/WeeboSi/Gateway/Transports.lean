import WeeboSi.Gateway.Shells
import WeeboSi.Gateway.Transparency

/-!
# One request, three transports

Source: bins/endpoint-gateway/src/http.rs:113-180, 223-289, 308-436 and proxy.rs:95-213;
docs/rfc/0009-endpoint-auth.md:847-960 says what a controller states and how. A dialect states the
request in headers or in the query of the URL it asks, with the request URI escaped; a router without
such a hook hands the request over.
-/
namespace WeeboSi.Gateway.Shell
open WeeboSi.Lib WeeboSi.EndpointAuth WeeboSi.Gateway

/-! ## What is asked -/

/-- A client's request as a controller has it. The headers are whatever the client sent. -/
structure Asked where
  host : Text
  /-- Empty without one. -/
  port : Text
  method : Text
  proto : Text
  target : PathAndQuery
  headers : HeaderMap
  spelt : ∀ field ∈ [host, method, proto], ∀ byte ∈ utf8 field, isUnreserved byte = true
  digits : ∀ c ∈ port, c.isDigit = true
  visible : ∀ byte ∈ utf8 target.text, isVisibleAscii byte = true

namespace Asked
variable (asked : Asked)

def authority : Text := if asked.port = [] then asked.host else asked.host ++ ':' :: asked.port

/-- In headers, over what the client sent in them. -/
def byHeaders : Call where
  headers := insertText (insertText (insertText (insertText asked.headers forwardedHostHeader asked.authority)
    forwardedUriHeader asked.target.text) forwardedMethodHeader asked.method) forwardedProtoHeader asked.proto
  query := none

end Asked

def statedQuery (host uri method proto : Text) : Text :=
  (hostInput ++ '=' :: host) ++ '&' :: ((uriInput ++ '=' :: uri) ++ '&' ::
    ((methodInput ++ '=' :: method) ++ '&' :: (protoInput ++ '=' :: proto)))

namespace Asked
variable (asked : Asked)

/-- In the query, beside what the client sent in its headers. -/
def byQuery : Call where
  headers := asked.headers
  query := some (statedQuery asked.host (urlencode asked.target.text) asked.method asked.proto)

/-- Handed over by a router that ended the TLS connection and says so. -/
def itself : Request where
  method := asked.method
  uriHost := none
  target := some asked.target
  headers := insertText (insertText asked.headers hostHeader asked.authority) forwardedProtoHeader asked.proto

end Asked

/-! ## Headers -/

theorem getAll_remove_other (headers : HeaderMap) (name other : Text) (ne : other ≠ name) :
    (headers.remove name).getAll other = headers.getAll other := by
  unfold HeaderMap.getAll HeaderMap.remove
  rw [List.filter_filter]
  congr 2
  funext entry
  by_cases same : entry.1 = other
  · simp [same, ne]
  · simp [same]

theorem getAll_insert_other (headers : HeaderMap) (name other : Text) (value : HeaderValue) (ne : other ≠ name) :
    (headers.insert name value).getAll other = headers.getAll other := by
  have gone : ([(name, value)] : List (Text × HeaderValue)).filter (fun entry => entry.1 == other) = [] := by
    simp [Ne.symm ne]
  rw [← getAll_remove_other headers name other ne]
  simp only [HeaderMap.insert, HeaderMap.getAll, List.filter_append, gone, List.append_nil]

theorem getAll_insertText_other (headers : HeaderMap) (name value other : Text) (ne : other ≠ name) :
    (insertText headers name value).getAll other = headers.getAll other := by
  unfold insertText
  split
  · exact getAll_insert_other headers name other _ ne
  · rfl

/-- What is visible is a header's value and is read back. -/
theorem getAll_insertText (headers : HeaderMap) (name value : Text)
    (visible : ∀ byte ∈ utf8 value, isVisibleAscii byte = true) :
    ∃ stored : HeaderValue, stored.toStr = some (utf8 value) ∧
      (insertText headers name value).getAll name = [stored] := by
  have allowed : (utf8 value).all isHeaderByte = true := by
    refine List.all_eq_true.mpr ?_
    intro byte member
    exact isHeaderByte_of_visible byte (visible byte member)
  refine ⟨⟨utf8 value, allowed⟩, ?_, ?_⟩
  · exact if_pos (List.all_eq_true.mpr visible)
  · simp only [insertText, HeaderValue.fromStr, dif_pos allowed]
    exact getAll_insert headers name _

theorem headerStr_insertText (headers : HeaderMap) (name value : Text)
    (visible : ∀ byte ∈ utf8 value, isVisibleAscii byte = true) :
    headerStr (insertText headers name value) name = some value := by
  obtain ⟨stored, reads, all⟩ := getAll_insertText headers name value visible
  have plain : ∀ byte ∈ utf8 value, byte.toNat < 128 := by
    intro byte member
    have seen := visible byte member
    simp only [isVisibleAscii, Bool.or_eq_true, Bool.and_eq_true, decide_eq_true_eq, beq_iff_eq,
      UInt8.lt_iff_toNat_lt, UInt8.le_iff_toNat_le, ← UInt8.toNat_inj] at seen
    simp only [UInt8.reduceToNat] at seen
    omega
  rw [headerStr, all, List.head?_cons, Option.bind_some, reads, Option.map_some, map_byteChar_utf8 value plain]

theorem headerStr_congr (headers others : HeaderMap) (name : Text) (same : headers.getAll name = others.getAll name) :
    headerStr headers name = headerStr others name := by
  rw [headerStr, same, headerStr]

theorem containsKey_congr (headers others : HeaderMap) (name : Text) (same : headers.getAll name = others.getAll name) :
    containsKey headers name = containsKey others name := by
  rw [containsKey, same, containsKey]

/-! ## What the gate reads -/

/-- The headers that a decision depends on, beside those that state the request. -/
def Settings.reads (settings : Settings) : List Text :=
  [cookieHeader, authorizationHeader, acceptHeader, fetchDestHeader, fetchModeHeader, requestMethodHeader,
    originHeader, settings.clientIpHeader.map Char.toLower]

def Settings.Alike (settings : Settings) (headers others : HeaderMap) : Prop :=
  ∀ name ∈ settings.reads, headers.getAll name = others.getAll name

section Alike
variable {settings : Settings} {headers others : HeaderMap} (alike : settings.Alike headers others)
include alike

theorem statedAddress_alike :
    statedAddress headers settings.clientIpHeader = statedAddress others settings.clientIpHeader := by
  unfold statedAddress
  rw [alike (settings.clientIpHeader.map Char.toLower) (by simp [Settings.reads])]

theorem presentedFrom_alike (peer : Option IpAddr) :
    presentedFrom settings headers peer = presentedFrom settings others peer := by
  have cookies : cookie headers (utf8 hostCookieName) = cookie others (utf8 hostCookieName) := by
    unfold cookie
    rw [alike cookieHeader (by simp [Settings.reads])]
  have bearers : bearer headers = bearer others := by
    unfold bearer
    rw [headerStr_congr headers others authorizationHeader (alike _ (by simp [Settings.reads]))]
  rw [presentedFrom, cookies, bearers, statedAddress_alike alike, presentedFrom]

theorem authRequest_alike (host : Host) (rawPath : Text) (method : Method) (proto : Text) :
    authRequest settings host rawPath method proto headers = authRequest settings host rawPath method proto others := by
  have shape : shapeOf headers = shapeOf others := by
    unfold shapeOf
    rw [headerStr_congr headers others fetchDestHeader (alike _ (by simp [Settings.reads])),
      headerStr_congr headers others fetchModeHeader (alike _ (by simp [Settings.reads])),
      headerStr_congr headers others acceptHeader (alike _ (by simp [Settings.reads]))]
  have preflight : isPreflight headers method = isPreflight others method := by
    unfold isPreflight
    rw [containsKey_congr headers others requestMethodHeader (alike _ (by simp [Settings.reads])),
      containsKey_congr headers others originHeader (alike _ (by simp [Settings.reads]))]
  rw [authRequest, shape, preflight, authRequest]

theorem limitKey_alike (display : IpAddr → Text) (peer : Option IpAddr) :
    limitKey display settings.trusted settings.clientIpHeader headers peer =
      limitKey display settings.trusted settings.clientIpHeader others peer := by
  rw [limitKey, statedAddress_alike alike, limitKey]

theorem judge_alike {K : Type} [DecidableEq K] (digest : List UInt8 → K) (display : IpAddr → Text)
    (prewarm : Option Text → Text → Live K → Bool × Live K) (live : Live K) (request : AuthRequest)
    (peer : Option IpAddr) (now : Timestamp) :
    judge digest display prewarm settings live request headers peer now =
      judge digest display prewarm settings live request others peer now := by
  rw [judge, presentedFrom_alike alike, limitKey_alike alike, judge]

end Alike

/-- A peer that may state the address, and does, is as good as the controller on `/auth`. -/
theorem judge_peer {K : Type} [DecidableEq K] (digest : List UInt8 → K) (display : IpAddr → Text)
    (prewarm : Option Text → Text → Live K → Bool × Live K) (settings : Settings) (live : Live K)
    (request : AuthRequest) (headers : HeaderMap) (peer : Option IpAddr) (now : Timestamp)
    (trusted : peerMayStateAddress settings.trusted peer = true)
    (stated : (statedAddress headers settings.clientIpHeader).isSome = true) :
    judge digest display prewarm settings live request headers peer now =
      judge digest display prewarm settings live request headers none now := by
  have calls : peerMayStateAddress settings.trusted none = true := by
    cases kind : settings.trusted with
    | any => rfl
    | cidrs networks => rfl
    | off =>
      rw [kind] at trusted
      cases trusted
  have presented : presentedFrom settings headers peer = presentedFrom settings headers none := by
    rw [presentedFrom, presentedFrom, trustsClientAddress, trustsClientAddress, trusted, calls]
  have key : limitKey display settings.trusted settings.clientIpHeader headers peer =
      limitKey display settings.trusted settings.clientIpHeader headers none := by
    obtain ⟨address, isStated⟩ := Option.isSome_iff_exists.mp stated
    rw [limitKey, limitKey, if_pos trusted, if_pos calls, isStated]
    rfl
  rw [judge, presented, key, judge]

/-! ## Reading the query -/

/-- The value of an input stands before the next ampersand. -/
theorem takeWhile_ampersand (text : Bytes) (absent : 38 ∉ text) : text.takeWhile (fun byte => byte ≠ 38) = text := by
  refine List.takeWhile_eq_self_iff.mpr ?_
  intro byte member
  simpa using fun same : byte = 38 => absent (same ▸ member)

theorem readForm_append (front later : Bytes) :
    FormText.readForm (front ++ 38 :: later) = FormText.readForm front ++ FormText.readForm later := by
  rw [FormText.readForm, List.splitOn_append_cons_self, List.filter_append, List.map_append]
  rfl

/-- What stands behind the name of one input, up to an ampersand, is its value; what stands behind
the ampersand is read as it would be on its own. -/
theorem readForm_input (name value : Text) (plain : 38 ∉ utf8 name ∧ 61 ∉ utf8 name)
    (spelt : FormText.readComponent (utf8 name) = name) :
    ∃ stray, FormText.readForm (utf8 (name ++ '=' :: value)) =
      (name, FormText.readComponent ((utf8 value).takeWhile fun byte => byte ≠ 38)) :: stray ∧
        (38 ∉ utf8 value → stray = []) := by
  have bytes : utf8 (name ++ '=' :: value) = utf8 name ++ 61 :: utf8 value := by
    rw [utf8_append]
    rfl
  have first : ∀ text : Bytes, FormText.readPair (utf8 name ++ 61 :: text) = (name, FormText.readComponent text) := by
    intro text
    rw [FormText.readPair, splitOnce_append _ _ _ plain.2]
    simp only [spelt]
  have whole : ∀ text : Bytes, 38 ∉ text →
      FormText.readForm (utf8 name ++ 61 :: text) = [(name, FormText.readComponent text)] := by
    intro text absent
    have single : 38 ∉ utf8 name ++ 61 :: text := by
      rw [List.mem_append, List.mem_cons]
      rintro (inName | equals | inText)
      · exact plain.1 inName
      · exact absurd equals (by decide)
      · exact absent inText
    rw [FormText.readForm, List.splitOn_eq_singleton single]
    simp [first]
  rw [bytes]
  cases cut : splitOnce 38 (utf8 value) with
  | none =>
    have absent := (splitOnce_eq_none _ _).mp cut
    refine ⟨[], ?_, fun _ => rfl⟩
    rw [takeWhile_ampersand _ absent, whole _ absent]
  | some parts =>
    obtain ⟨before, after⟩ := parts
    obtain ⟨joined, absent⟩ := (splitOnce_eq_some _ _ _ _).mp cut
    have front : (utf8 value).takeWhile (fun byte => byte ≠ 38) = before := by
      rw [joined, List.takeWhile_append_of_pos, List.takeWhile_cons_of_neg (by simp), List.append_nil]
      intro byte member
      simpa using fun same : byte = 38 => absent (same ▸ member)
    refine ⟨FormText.readForm after, ?_, ?_⟩
    · rw [front, joined, ← List.cons_append, ← List.append_assoc, readForm_append, whole _ absent]
      rfl
    · intro none_
      exact absurd (joined ▸ List.mem_append_right before List.mem_cons_self) none_

theorem urlencode_unreserved (text : Text) (spelt : ∀ byte ∈ utf8 text, isUnreserved byte = true) :
    urlencode text = text := by
  have each : ∀ byte ∈ utf8 text, urlencodeByte byte = [Lib.byteChar byte] := by
    intro byte member
    exact if_pos (spelt byte member)
  rw [urlencode, List.flatMap_congr each, ← List.map_eq_flatMap]
  exact map_byteChar_utf8 text fun byte member => (isUnreserved_bounds byte (spelt byte member)).1

theorem readComponent_unreserved (text : Text) (spelt : ∀ byte ∈ utf8 text, isUnreserved byte = true) :
    FormText.readComponent (utf8 text) = text := by
  have read := readComponent_urlencode text
  rwa [urlencode_unreserved text spelt] at read

/-- The names of the inputs are read as they are written. -/
theorem queryInputs_spelt : ∀ name ∈ queryInputs,
    (38 ∉ utf8 name ∧ 61 ∉ utf8 name) ∧ FormText.readComponent (utf8 name) = name := by
  decide +kernel

/-- The pairs of a stated query: the four inputs, and whatever the URI brings between them. -/
theorem readForm_stated (host uri method proto : Text)
    (spelt : ∀ field ∈ [host, method, proto], ∀ byte ∈ utf8 field, isUnreserved byte = true) :
    ∃ stray, FormText.readForm (utf8 (statedQuery host uri method proto)) =
      [(hostInput, host), (uriInput, FormText.readComponent ((utf8 uri).takeWhile fun byte => byte ≠ 38))] ++ stray ++
        [(methodInput, method), (protoInput, proto)] ∧ (38 ∉ utf8 uri → stray = []) := by
  have input : ∀ name ∈ queryInputs, ∀ field : Text, (∀ byte ∈ utf8 field, isUnreserved byte = true) →
      FormText.readForm (utf8 (name ++ '=' :: field)) = [(name, field)] := by
    intro name known field unreserved
    obtain ⟨plain, named⟩ := queryInputs_spelt name known
    have absent : 38 ∉ utf8 field := by
      intro member
      exact absurd (unreserved 38 member) (by decide)
    obtain ⟨stray, read, nothing⟩ := readForm_input name field plain named
    rw [read, nothing absent, takeWhile_ampersand _ absent, readComponent_unreserved field unreserved]
  obtain ⟨plain, named⟩ := queryInputs_spelt uriInput (by simp [queryInputs])
  obtain ⟨stray, read, nothing⟩ := readForm_input uriInput uri plain named
  have whole : utf8 (statedQuery host uri method proto) = utf8 (hostInput ++ '=' :: host) ++ 38 ::
      (utf8 (uriInput ++ '=' :: uri) ++ 38 :: (utf8 (methodInput ++ '=' :: method) ++ 38 ::
        utf8 (protoInput ++ '=' :: proto))) := by
    have joined : ∀ front later : Text, utf8 (front ++ '&' :: later) = utf8 front ++ 38 :: utf8 later := by
      intro front later
      rw [utf8_append]
      rfl
    rw [statedQuery, joined, joined, joined]
  refine ⟨stray, ?_, nothing⟩
  rw [whole, readForm_append, readForm_append, readForm_append, read,
    input hostInput (by simp [queryInputs]) host (spelt host (by simp)),
    input methodInput (by simp [queryInputs]) method (spelt method (by simp)),
    input protoInput (by simp [queryInputs]) proto (spelt proto (by simp))]
  simp

/-- A name that is stated once has that value. -/
theorem lookup_once (pairs : List (Text × Text)) (name value : Text) (member : (name, value) ∈ pairs)
    (once : (pairs.filter fun pair => pair.1 == name).length ≤ 1) : pairs.reverse.lookup name = some value := by
  have mine : (name, value) ∈ pairs.filter fun pair => pair.1 == name := List.mem_filter.mpr ⟨member, by simp⟩
  cases found : pairs.reverse.lookup name with
  | none =>
    have absent := List.lookup_eq_none_iff.mp found (name, value) (List.mem_reverse.mpr member)
    simp at absent
  | some other =>
    obtain ⟨before, after, cut, -⟩ := List.lookup_eq_some_iff.mp found
    have inside : (name, other) ∈ pairs := by
      rw [← List.mem_reverse, cut]
      simp
    have its : (name, other) ∈ pairs.filter fun pair => pair.1 == name := List.mem_filter.mpr ⟨inside, by simp⟩
    generalize pairs.filter (fun pair => pair.1 == name) = named at once mine its
    cases named with
    | nil => cases mine
    | cons first rest =>
      have only : rest = [] := List.eq_nil_of_length_eq_zero (by simpa using once)
      rw [only, List.mem_singleton] at mine its
      rw [(Prod.mk.inj (its.trans mine.symm)).2]

/-- Unless an input is stated twice, the four are what the controller stated. -/
theorem forwarded_stated (headers : HeaderMap) (host uri method proto : Text)
    (spelt : ∀ field ∈ [host, method, proto], ∀ byte ∈ utf8 field, isUnreserved byte = true)
    (once : repeatsAnInput (FormText.readForm (utf8 (statedQuery host uri method proto))) = false) :
    forwarded headers (FormText.readForm (utf8 (statedQuery host uri method proto))) =
      if containsKey headers forwardedHostHeader then .error .mixed
      else .ok ⟨host, FormText.readComponent ((utf8 uri).takeWhile fun byte => byte ≠ 38), method, proto⟩ := by
  obtain ⟨stray, read, -⟩ := readForm_stated host uri method proto spelt
  have single : ∀ name ∈ queryInputs,
      ((FormText.readForm (utf8 (statedQuery host uri method proto))).filter fun pair => pair.1 == name).length ≤ 1 := by
    intro name input
    have not_ := List.any_eq_false.mp once name input
    simpa using not_
  have stands : ∀ name value, name ∈ queryInputs →
      (name, value) ∈ FormText.readForm (utf8 (statedQuery host uri method proto)) →
      (FormText.readForm (utf8 (statedQuery host uri method proto))).reverse.lookup name = some value :=
    fun name value input member => lookup_once _ name value member (single name input)
  have uris := stands uriInput (FormText.readComponent ((utf8 uri).takeWhile fun byte => byte ≠ 38))
    (by simp [queryInputs]) (by simp [read])
  unfold forwarded
  simp only [stands hostInput host (by simp [queryInputs]) (by simp [read]), uris,
    stands methodInput method (by simp [queryInputs]) (by simp [read]),
    stands protoInput proto (by simp [queryInputs]) (by simp [read]), Option.isSome_some]
  cases containsKey headers forwardedHostHeader with
  | true => rfl
  | false => rfl

/-! ## The host and its port -/

theorem unreserved_visible (byte : UInt8) (safe : isUnreserved byte = true) : isVisibleAscii byte = true := by
  simp only [isUnreserved, isVisibleAscii, Bool.or_eq_true, Bool.and_eq_true, decide_eq_true_eq, beq_iff_eq,
    ← UInt8.toNat_inj, UInt8.le_iff_toNat_le, UInt8.lt_iff_toNat_lt] at safe ⊢
  simp only [UInt8.reduceToNat] at safe ⊢
  omega

/-- What is written with unreserved bytes has no blanks and no colons. -/
theorem unreserved_char (text : Text) (spelt : ∀ byte ∈ utf8 text, isUnreserved byte = true) (c : Char)
    (member : c ∈ text) : isWhite c = false ∧ c ≠ ':' := by
  have read := map_byteChar_utf8 text fun byte inside => (isUnreserved_bounds byte (spelt byte inside)).1
  rw [← read] at member
  obtain ⟨byte, inside, rfl⟩ := List.mem_map.mp member
  have safe := spelt byte inside
  have number := toNat_byteChar byte
  simp only [isUnreserved, Bool.or_eq_true, Bool.and_eq_true, decide_eq_true_eq, beq_iff_eq, ← UInt8.toNat_inj,
    UInt8.le_iff_toNat_le] at safe
  simp only [UInt8.reduceToNat] at safe
  constructor
  · simp only [isWhite, number, Bool.or_eq_false_iff, Bool.and_eq_false_iff, decide_eq_false_iff_not]
    refine ⟨⟨by omega, by omega⟩, ?_⟩
    simp only [List.contains_eq_mem, List.mem_cons, List.not_mem_nil, or_false, decide_eq_false_iff_not]
    omega
  · intro colon
    have code := congrArg Char.toNat colon
    rw [number] at code
    have is : ':'.toNat = 58 := rfl
    omega

theorem digits_unreserved (text : Text) (digits : ∀ c ∈ text, c.isDigit = true) :
    ∀ byte ∈ utf8 text, isUnreserved byte = true := by
  intro byte member
  obtain ⟨c, inside, encoded⟩ := List.mem_flatMap.mp member
  have range := (isDigit_iff c).mp (digits c inside)
  obtain ⟨small, single⟩ | ⟨large, -⟩ := utf8EncodeChar_cases c
  · rw [single, List.mem_singleton] at encoded
    have number : byte.toNat = c.toNat := by
      rw [encoded, UInt8.toNat_ofNat', Nat.mod_eq_of_lt (by omega)]
    simp only [isUnreserved, Bool.or_eq_true, Bool.and_eq_true, decide_eq_true_eq, beq_iff_eq, ← UInt8.toNat_inj,
      UInt8.le_iff_toNat_le]
    simp only [UInt8.reduceToNat]
    omega
  · omega

theorem trim_solid (text : Text) (solid : ∀ c ∈ text, isWhite c = false) : trim text = text := by
  rw [trim_eq_trimBy]
  exact trimBy_of_solid _ _
    ⟨fun c first => solid c (List.mem_of_head? first), fun c last => solid c (List.mem_of_getLast? last)⟩

namespace Asked
variable (asked : Asked)

theorem authority_visible : ∀ byte ∈ utf8 asked.authority, isVisibleAscii byte = true := by
  intro byte member
  have host : byte ∈ utf8 asked.host → isVisibleAscii byte = true := fun inside =>
    unreserved_visible byte (asked.spelt asked.host (by simp) byte inside)
  unfold authority at member
  split at member
  · exact host member
  · rw [utf8_append, List.mem_append, utf8_cons, List.mem_append] at member
    rcases member with inHost | colon | inPort
    · exact host inHost
    · have is : String.utf8EncodeChar ':' = [58] := by decide
      rw [is, List.mem_singleton] at colon
      rw [colon]
      rfl
    · exact unreserved_visible byte (digits_unreserved asked.port asked.digits byte inPort)

/-- The port is not part of the host. -/
theorem parse_authority : Host.parse asked.authority = Host.parse asked.host := by
  have plainHost := unreserved_char asked.host (asked.spelt asked.host (by simp))
  have plainPort := unreserved_char asked.port (digits_unreserved asked.port asked.digits)
  unfold authority
  split
  · rfl
  · rename_i some_
    have solid : trim (asked.host ++ ':' :: asked.port) = asked.host ++ ':' :: asked.port := by
      apply trim_solid
      intro c member
      rcases List.mem_append.mp member with inHost | behind
      · exact (plainHost c inHost).1
      · rcases List.mem_cons.mp behind with rfl | inPort
        · rfl
        · exact (plainPort c inPort).1
    have cut : withoutPort (asked.host ++ ':' :: asked.port) = asked.host := by
      rw [withoutPort, rsplitOnce_append ':' _ _ fun inside => (plainPort ':' inside).2 rfl]
      exact if_pos ⟨some_, List.all_eq_true.mpr asked.digits⟩
    have whole : withoutPort asked.host = asked.host := by
      rw [withoutPort, rsplitOnce_absent ':' _ fun inside => (plainHost ':' inside).2 rfl]
    have bare : trim asked.host = asked.host := trim_solid _ fun c member => (plainHost c member).1
    have same : stripLast '.' (withoutPort (trim (asked.host ++ ':' :: asked.port))) =
        stripLast '.' (withoutPort (trim asked.host)) := by
      rw [solid, cut, bare, whole]
    unfold Host.parse
    simp only [same]

end Asked

/-! ## What the transports leave of the headers -/

/-- The headers a transport writes. -/
def statingNames : List Text :=
  [forwardedHostHeader, forwardedUriHeader, forwardedMethodHeader, forwardedProtoHeader, hostHeader]

section Transports
variable {settings : Settings} (named : settings.clientIpHeader.map Char.toLower ∉ statingNames)
include named

theorem alike_insertText (headers : HeaderMap) (name value : Text) (states : name ∈ statingNames) :
    settings.Alike (insertText headers name value) headers := by
  have fixed : ∀ read ∈ [cookieHeader, authorizationHeader, acceptHeader, fetchDestHeader, fetchModeHeader,
      requestMethodHeader, originHeader], read ∉ statingNames := by
    decide +kernel
  intro read member
  refine getAll_insertText_other headers name value read ?_
  rintro rfl
  rcases List.mem_append.mp (show read ∈ [cookieHeader, authorizationHeader, acceptHeader, fetchDestHeader,
    fetchModeHeader, requestMethodHeader, originHeader] ++ [settings.clientIpHeader.map Char.toLower] from member) with
    known | address
  · exact fixed read known states
  · exact named (List.mem_singleton.mp address ▸ states)

theorem alike_byHeaders (asked : Asked) : settings.Alike asked.byHeaders.headers asked.headers := by
  intro read member
  have kept := fun headers name value states => alike_insertText named headers name value states read member
  unfold Asked.byHeaders
  rw [kept _ forwardedProtoHeader _ (by decide), kept _ forwardedMethodHeader _ (by decide),
    kept _ forwardedUriHeader _ (by decide), kept _ forwardedHostHeader _ (by decide)]

theorem alike_itself (asked : Asked) : settings.Alike asked.itself.headers asked.headers := by
  intro read member
  have kept := fun headers name value states => alike_insertText named headers name value states read member
  unfold Asked.itself
  rw [kept _ forwardedProtoHeader _ (by decide), kept _ hostHeader _ (by decide)]

end Transports

/-! ## Each transport states the request -/

section Stated
variable {N K : Type} [DecidableEq K] (sealJson : N → SealedPayload → Binding → Option Text)
  (openJson : Text → Binding → Option SealedPayload) (digest : List UInt8 → K) (display : IpAddr → Text)
  (prewarm : Option Text → Text → Live K → Bool × Live K) (parseUri : Text → Option Uri) (settings : Settings)
  (live : Live K) (asked : Asked) (nonce : N) (now : Timestamp)

theorem headerStr_insertText_other (headers : HeaderMap) (name value other : Text) (ne : other ≠ name) :
    headerStr (insertText headers name value) other = headerStr headers other :=
  headerStr_congr _ _ _ (getAll_insertText_other headers name value other ne)

theorem auth_byHeaders :
    auth sealJson openJson digest display prewarm settings live asked.byHeaders nonce now =
      authStated sealJson openJson digest display prewarm settings live
        ⟨asked.authority, asked.target.text, asked.method, asked.proto⟩ asked.byHeaders.headers nonce now := by
  have spelt : ∀ field ∈ [asked.host, asked.method, asked.proto], ∀ byte ∈ utf8 field, isVisibleAscii byte = true :=
    fun field member byte inside => unreserved_visible byte (asked.spelt field member byte inside)
  have host : headerStr asked.byHeaders.headers forwardedHostHeader = some asked.authority := by
    unfold Asked.byHeaders
    rw [headerStr_insertText_other _ _ _ _ (by decide), headerStr_insertText_other _ _ _ _ (by decide),
      headerStr_insertText_other _ _ _ _ (by decide)]
    exact headerStr_insertText _ _ _ asked.authority_visible
  have uri : headerStr asked.byHeaders.headers forwardedUriHeader = some asked.target.text := by
    unfold Asked.byHeaders
    rw [headerStr_insertText_other _ _ _ _ (by decide), headerStr_insertText_other _ _ _ _ (by decide)]
    exact headerStr_insertText _ _ _ asked.visible
  have method : headerStr asked.byHeaders.headers forwardedMethodHeader = some asked.method := by
    unfold Asked.byHeaders
    rw [headerStr_insertText_other _ _ _ _ (by decide)]
    exact headerStr_insertText _ _ _ (spelt asked.method (by simp))
  have proto : headerStr asked.byHeaders.headers forwardedProtoHeader = some asked.proto :=
    headerStr_insertText _ _ _ (spelt asked.proto (by simp))
  have there : containsKey asked.byHeaders.headers forwardedHostHeader = true := by
    by_contra missing
    have none_ : asked.byHeaders.headers.getAll forwardedHostHeader = [] := by simpa [containsKey] using missing
    rw [headerStr, none_] at host
    cases host
  have inputs : forwarded asked.byHeaders.headers [] =
      .ok ⟨asked.authority, asked.target.text, asked.method, asked.proto⟩ := by
    unfold forwarded
    simp only [there, host, uri, method, proto, List.reverse_nil, List.lookup_nil, Option.isSome_none]
    rfl
  have noPairs : FormText.readForm (utf8 (asked.byHeaders.query.getD [])) = [] := rfl
  unfold auth
  simp only [noPairs, inputs]
  rfl

/-- A header that states a host as well is refused, and nothing is decided. -/
theorem auth_statedQuery (headers : HeaderMap) (host uri method proto : Text)
    (spelt : ∀ field ∈ [host, method, proto], ∀ byte ∈ utf8 field, isUnreserved byte = true)
    (once : repeatsAnInput (FormText.readForm (utf8 (statedQuery host uri method proto))) = false) :
    auth sealJson openJson digest display prewarm settings live ⟨headers, some (statedQuery host uri method proto)⟩
        nonce now =
      if containsKey headers forwardedHostHeader then (.page ⟨400, [], ForwardedError.mixed.text⟩, live)
      else authStated sealJson openJson digest display prewarm settings live
        ⟨host, FormText.readComponent ((utf8 uri).takeWhile fun byte => byte ≠ 38), method, proto⟩ headers nonce now := by
  unfold auth
  simp only [Option.getD_some, once, forwarded_stated headers host uri method proto spelt once]
  cases containsKey headers forwardedHostHeader with
  | true => simp only [Bool.false_eq_true, if_true, if_false]
  | false => simp only [Bool.false_eq_true, if_false]

theorem auth_byQuery :
    auth sealJson openJson digest display prewarm settings live asked.byQuery nonce now =
      if containsKey asked.headers forwardedHostHeader then (.page ⟨400, [], ForwardedError.mixed.text⟩, live)
      else authStated sealJson openJson digest display prewarm settings live
        ⟨asked.host, asked.target.text, asked.method, asked.proto⟩ asked.headers nonce now := by
  have absent := urlencode_encoder.noAmpersand asked.target.text
  have once : repeatsAnInput (FormText.readForm (utf8 (statedQuery asked.host (urlencode asked.target.text)
      asked.method asked.proto))) = false := by
    obtain ⟨stray, read, nothing⟩ := readForm_stated asked.host (urlencode asked.target.text) asked.method asked.proto
      asked.spelt
    rw [read, nothing absent]
    rfl
  have answered := auth_statedQuery sealJson openJson digest display prewarm settings live nonce now asked.headers
    asked.host (urlencode asked.target.text) asked.method asked.proto asked.spelt once
  rwa [takeWhile_ampersand _ absent, readComponent_urlencode] at answered

/-- What the client puts into its request URI, spliced into the query as it is, gets it refused or
changes nothing of the host, the method and the scheme that are decided about. -/
theorem spliced_inputs_stand (headers : HeaderMap) (host uri method proto : Text)
    (spelt : ∀ field ∈ [host, method, proto], ∀ byte ∈ utf8 field, isUnreserved byte = true) :
    (∃ page : Page, page.status = 400 ∧
      auth sealJson openJson digest display prewarm settings live ⟨headers, some (statedQuery host uri method proto)⟩
        nonce now = (.page page, live)) ∨
    auth sealJson openJson digest display prewarm settings live ⟨headers, some (statedQuery host uri method proto)⟩
        nonce now =
      authStated sealJson openJson digest display prewarm settings live
        ⟨host, FormText.readComponent ((utf8 uri).takeWhile fun byte => byte ≠ 38), method, proto⟩ headers nonce now := by
  cases once : repeatsAnInput (FormText.readForm (utf8 (statedQuery host uri method proto))) with
  | true =>
    refine Or.inl ⟨⟨400, [], "a forwarded input was stated more than once".toList⟩, rfl, ?_⟩
    unfold auth
    simp only [Option.getD_some, once]
    rfl
  | false =>
    rw [auth_statedQuery sealJson openJson digest display prewarm settings live nonce now headers host uri method proto
      spelt once]
    cases containsKey headers forwardedHostHeader with
    | true => exact Or.inl ⟨_, rfl, rfl⟩
    | false => exact Or.inr rfl

end Stated

/-! ## A second host in the URI -/

theorem spelt_of_all (fields : List Text) (all : fields.all (fun field => (utf8 field).all isUnreserved) = true) :
    ∀ field ∈ fields, ∀ byte ∈ utf8 field, isUnreserved byte = true := by
  intro field member byte inside
  exact List.all_eq_true.mp (List.all_eq_true.mp all field member) byte inside

def nameless : List UInt8 → Unit := fun _ => ()
def unsealing : Text → Binding → Option SealedPayload := fun _ _ => none
def sealsNothing : Unit → SealedPayload → Binding → Option Text := fun _ _ _ => none
def freeOfCost : Option Text → Text → Live Unit → Bool × Live Unit := fun _ _ live => (true, live)

def gateSettings : Settings :=
  ⟨plainConfig, true, false, .enforce, .any, "X-Forwarded-For".toList, true, aliceVerifier⟩

theorem noon_fits : 100 ≤ u64Max := by decide

def noon : Timestamp := ⟨100, noon_fits⟩

def gateLive : Live Unit :=
  ⟨(aliceRequest [] noon).ports aliceVerifier unsealing, ⟨.new 0 0, .new 0 0, .new 0 0⟩, .new 0 0, 1, 1⟩

theorem spliced_inputs_stand_twice :
    (∃ page : Page, page.status = 400 ∧
      auth sealsNothing unsealing nameless (fun _ => []) freeOfCost gateSettings gateLive
        ⟨⟨[]⟩, some (statedQuery "a.si".toList "/?&host=b.si".toList "GET".toList "https".toList)⟩ () noon =
          (.page page, gateLive)) ∨
    auth sealsNothing unsealing nameless (fun _ => []) freeOfCost gateSettings gateLive
        ⟨⟨[]⟩, some (statedQuery "a.si".toList "/?&host=b.si".toList "GET".toList "https".toList)⟩ () noon =
      authStated sealsNothing unsealing nameless (fun _ => []) freeOfCost gateSettings gateLive
        ⟨"a.si".toList, FormText.readComponent ((utf8 "/?&host=b.si".toList).takeWhile fun byte => byte ≠ 38),
          "GET".toList, "https".toList⟩ ⟨[]⟩ () noon :=
  spliced_inputs_stand sealsNothing unsealing nameless (fun _ => []) freeOfCost gateSettings gateLive () noon ⟨[]⟩
    "a.si".toList "/?&host=b.si".toList "GET".toList "https".toList (spelt_of_all _ (by decide +kernel))

section Shells
variable {N K : Type} [DecidableEq K] (sealJson : N → SealedPayload → Binding → Option Text)
  (openJson : Text → Binding → Option SealedPayload) (digest : List UInt8 → K) (display : IpAddr → Text)
  (prewarm : Option Text → Text → Live K → Bool × Live K) (parseUri : Text → Option Uri) (settings : Settings)
  (live : Live K) (asked : Asked) (nonce : N) (now : Timestamp)

theorem authStated_alike (inputs others : Forwarded) (headers otherHeaders : HeaderMap)
    (hosts : Host.parse inputs.host = Host.parse others.host) (uris : inputs.uri = others.uri)
    (methods : inputs.method = others.method) (protos : inputs.proto = others.proto)
    (alike : settings.Alike headers otherHeaders) :
    authStated sealJson openJson digest display prewarm settings live inputs headers nonce now =
      authStated sealJson openJson digest display prewarm settings live others otherHeaders nonce now := by
  unfold authStated
  rw [hosts, uris, methods, protos]
  cases Host.parse others.host with
  | error refused => rfl
  | ok host => simp only [authRequest_alike alike, judge_alike alike]

/-! ## The application -/

/-- What an endpoint gets from one shell and from the other: the same page, or the same identity
behind an allowed request. -/
inductive Corresponds : Answer → Answer → Prop
  | unusable : Corresponds (.page ⟨403, [], "unusable host".toList⟩) (.page ⟨400, [], "no host\n".toList⟩)
  | page (page : Page) : Corresponds (.page page) (.page page)
  | carried (identity : HeaderMap) (cookie : Option HeaderValue) (uri : Uri) (method : Text) (headers : HeaderMap)
      (same : ∀ name ∈ identityNames, headers.getAll name = identity.getAll name) :
      Corresponds (.allowed identity cookie) (.carried uri method headers)
  | nowhere (identity : HeaderMap) (cookie : Option HeaderValue) (body : Text) :
      Corresponds (.allowed identity cookie) (.page ⟨502, [], body⟩)

theorem getAll_foldl_remove (names : List Text) (headers : HeaderMap) (name : Text) :
    (names.foldl HeaderMap.remove headers).getAll name = if name ∈ names then [] else headers.getAll name := by
  induction names generalizing headers with
  | nil => rfl
  | cons first names ih =>
    rw [List.foldl_cons, ih]
    by_cases its : name = first
    · subst its
      rw [getAll_remove, ite_self, if_pos List.mem_cons_self]
    · rw [getAll_remove_other headers first name its]
      simp only [List.mem_cons, its, false_or]

/-- What is inserted over nothing does not depend on the rest. -/
theorem getAll_insertText_cleared (headers others : HeaderMap) (name value read : Text)
    (same : headers.getAll read = others.getAll read) :
    (insertText headers name value).getAll read = (insertText others name value).getAll read := by
  unfold insertText
  split
  · by_cases its : read = name
    · rw [its, getAll_insert, getAll_insert]
    · rw [getAll_insert_other _ _ _ _ its, getAll_insert_other _ _ _ _ its, same]
  · exact same

/-- The application reads of the caller's identity what the decision was made about. -/
theorem getAll_carriedHeaders (headers : HeaderMap) (person : Option Claims) (name : Text)
    (member : name ∈ identityNames) :
    (carriedHeaders headers person).getAll name =
      ((person.map (setIdentityHeaders ⟨[]⟩)).getD ⟨[]⟩).getAll name := by
  have cleared : (identityNames.foldl HeaderMap.remove (hopByHop.foldl HeaderMap.remove headers)).getAll name = [] := by
    rw [getAll_foldl_remove, if_pos member]
  have other : name ≠ cookieHeader := by
    rintro rfl
    exact absurd member (by decide)
  unfold carriedHeaders
  rw [getAll_stripCookie _ _ _ other]
  have nothing : (⟨[]⟩ : HeaderMap).getAll name = [] := rfl
  cases person with
  | none =>
    rw [Option.map_none, Option.getD_none, Option.map_none, Option.getD_none, cleared, nothing]
  | some claims =>
    rw [Option.map_some, Option.getD_some, Option.map_some, Option.getD_some, setIdentityHeaders, setIdentityHeaders]
    apply getAll_insertText_cleared
    apply getAll_insertText_cleared
    rw [cleared, nothing]

theorem forward_corresponds (identity : HeaderMap) (cookie : Option HeaderValue) (request : Request) (upstream : Text)
    (person : Option Claims) (is : identity = (person.map (setIdentityHeaders ⟨[]⟩)).getD ⟨[]⟩) :
    Corresponds (.allowed identity cookie) (forward parseUri request upstream person) := by
  unfold forward
  cases parseUri (forwardText upstream request.target) with
  | none => exact .nowhere identity cookie _
  | some uri =>
    refine .carried identity cookie uri request.method _ ?_
    intro name member
    rw [is, getAll_carriedHeaders request.headers person name member]

/-- The shell that carries a request answers it as `/auth` answers a controller that states it. -/
theorem serve_corresponds (peer : Option IpAddr)
    (named : settings.clientIpHeader.map Char.toLower ∉ statingNames) (plain : grantOf asked.target.text = none)
    (trusted : peerMayStateAddress settings.trusted peer = true)
    (stated : (statedAddress asked.headers settings.clientIpHeader).isSome = true) :
    Corresponds (authStated sealJson openJson digest display prewarm settings live
        ⟨asked.authority, asked.target.text, asked.method, asked.proto⟩ asked.itself.headers nonce now).1
      (serve digest display prewarm parseUri settings live peer asked.itself now).1 ∧
    (serve digest display prewarm parseUri settings live peer asked.itself now).2 =
      (authStated sealJson openJson digest display prewarm settings live
        ⟨asked.authority, asked.target.text, asked.method, asked.proto⟩ asked.itself.headers nonce now).2 := by
  have alike := alike_itself named asked
  have proto : headerStr asked.itself.headers forwardedProtoHeader = some asked.proto :=
    headerStr_insertText _ _ _ fun byte inside =>
      unreserved_visible byte (asked.spelt asked.proto (by simp) byte inside)
  have host : headerStr asked.itself.headers hostHeader = some asked.authority := by
    unfold Asked.itself
    rw [headerStr_insertText_other _ _ _ _ (by decide)]
    exact headerStr_insertText _ _ _ asked.authority_visible
  have found : hostOf asked.itself = (Host.parse asked.authority).toOption := by
    rw [hostOf, host]
    rfl
  have address : (statedAddress asked.itself.headers settings.clientIpHeader).isSome = true := by
    rwa [statedAddress_alike alike]
  unfold serve authStated
  rw [found]
  simp only [plain, proto, Option.getD_some]
  cases Host.parse asked.authority with
  | error refused => exact ⟨.unusable, rfl⟩
  | ok parsed =>
    have target : (asked.itself.target.map PathAndQuery.text).getD ['/'] = asked.target.text := rfl
    have method : asked.itself.method = asked.method := rfl
    simp only [Except.toOption, target, method,
      judge_peer digest display prewarm settings live _ _ peer now trusted address]
    generalize judge digest display prewarm settings live _ asked.itself.headers none now = judged
    obtain ⟨authorized, presented, after⟩ := judged
    cases answered : authorized.outcome.answered with
    | deny =>
      simp only [and_true]
      exact .page _
    | challenge challenge =>
      simp only [and_true]
      exact .page _
    | allow =>
      simp only
      cases after.ports.policyFor parsed with
      | conflict => exact ⟨.nowhere _ _ _, rfl⟩
      | unknown => exact ⟨.nowhere _ _ _, rfl⟩
      | policy policy =>
        cases recorded : policy.upstream with
        | none =>
          simp only [recorded]
          exact ⟨.nowhere _ _ _, trivial⟩
        | some upstream =>
          simp only [recorded]
          exact ⟨forward_corresponds parseUri _ _ asked.itself _ authorized.person rfl, trivial⟩

/-- However a request is stated, the same is decided about it, and the application learns the same
of who asks: never what the client says of itself. -/
theorem shells_agree (peer : Option IpAddr)
    (named : settings.clientIpHeader.map Char.toLower ∉ statingNames) :
    (auth sealJson openJson digest display prewarm settings live asked.byQuery nonce now =
      if containsKey asked.headers forwardedHostHeader then (.page ⟨400, [], ForwardedError.mixed.text⟩, live)
      else auth sealJson openJson digest display prewarm settings live asked.byHeaders nonce now) ∧
    (grantOf asked.target.text = none → peerMayStateAddress settings.trusted peer = true →
      (statedAddress asked.headers settings.clientIpHeader).isSome = true →
      Corresponds (auth sealJson openJson digest display prewarm settings live asked.byHeaders nonce now).1
        (serve digest display prewarm parseUri settings live peer asked.itself now).1 ∧
      (serve digest display prewarm parseUri settings live peer asked.itself now).2 =
        (auth sealJson openJson digest display prewarm settings live asked.byHeaders nonce now).2) := by
  have byHeaders := alike_byHeaders named asked
  constructor
  · rw [auth_byQuery, auth_byHeaders]
    have same := authStated_alike sealJson openJson digest display prewarm settings live nonce now
      ⟨asked.authority, asked.target.text, asked.method, asked.proto⟩
      ⟨asked.host, asked.target.text, asked.method, asked.proto⟩ asked.byHeaders.headers asked.headers
      asked.parse_authority rfl rfl rfl byHeaders
    rw [same]
  · intro plain trusted stated
    have same := authStated_alike sealJson openJson digest display prewarm settings live nonce now
      ⟨asked.authority, asked.target.text, asked.method, asked.proto⟩
      ⟨asked.authority, asked.target.text, asked.method, asked.proto⟩ asked.byHeaders.headers asked.itself.headers
      rfl rfl rfl rfl fun name read => (byHeaders name read).trans (alike_itself named asked name read).symm
    rw [auth_byHeaders, same]
    exact serve_corresponds sealJson openJson digest display prewarm parseUri settings live asked nonce now peer named
      plain trusted stated

end Shells

/-! ## A client that names itself -/

theorem queriedTarget_plain : ∀ text ∈ some "q=1".toList, '#' ∉ text := by
  intro text is
  rw [← Option.some.inj (Option.mem_def.mp is)]
  decide

def queriedTarget : PathAndQuery := ⟨"/x".toList, some "q=1".toList, rfl, by decide, queriedTarget_plain⟩

theorem queriedTarget_visible : ∀ byte ∈ utf8 queriedTarget.text, isVisibleAscii byte = true :=
  List.all_eq_true.mp (by decide +kernel)

theorem noPort_digits : ∀ c ∈ ([] : Text), c.isDigit = true := by
  intro c inside
  cases inside

theorem rootAsked_spelt :
    ∀ field ∈ ["a.si".toList, "GET".toList, "https".toList], ∀ byte ∈ utf8 field, isUnreserved byte = true :=
  spelt_of_all _ (by decide +kernel)

/-- A request of somebody who says to be root. -/
def rootAsked : Asked where
  host := "a.si".toList
  port := []
  method := "GET".toList
  proto := "https".toList
  target := queriedTarget
  headers := ⟨[("x-forwarded-for".toList, ⟨utf8 "10.0.0.9".toList, by decide⟩),
    (userHeader, ⟨utf8 "root".toList, by decide⟩)]⟩
  spelt := rootAsked_spelt
  digits := noPort_digits
  visible := queriedTarget_visible

theorem shells_agree_root :
    Corresponds (auth sealsNothing unsealing nameless (fun _ => []) freeOfCost gateSettings gateLive rootAsked.byHeaders
        () noon).1
      (serve nameless (fun _ => []) freeOfCost (fun text => some (Uri.split text)) gateSettings gateLive none
        rootAsked.itself noon).1 :=
  ((shells_agree sealsNothing unsealing nameless (fun _ => []) freeOfCost (fun text => some (Uri.split text))
    gateSettings gateLive rootAsked () noon none (by decide +kernel)).2 (by decide +kernel) rfl (by decide +kernel)).1

end WeeboSi.Gateway.Shell
