import WeeboSi.Lib.Greedy
import WeeboSi.ImagePolicy.Variable

/-!
# Image patterns: parsing and matching

Source: crates/weebo-si-image-policy/src/pattern.rs:22-740. A pattern is cut by the
rules of a reference and each field is matched on its own. The two matching loops
keep the indices and the single backtrack point of the source; `none` is a loop that
ran out of fuel, which PatternMeaning shows never happens. Every text a loop reads is
ASCII, so byte and character indices agree.
-/
namespace WeeboSi.ImagePolicy
open WeeboSi.Lib

inductive GlobPiece where
  | literal (text : Text)
  | star
  | var (name : VariableName)
  deriving DecidableEq

inductive PathSegment where
  | glob (pieces : List GlobPiece)
  | doubleStar
  deriving DecidableEq

inductive HostPattern where
  | suffix (text : Text)
  | labels (labels : List GlobPiece) (port : Option Text)
  deriving DecidableEq

structure Pattern where
  raw : Text
  host : HostPattern
  path : List PathSegment
  tag : Option (List GlobPiece)
  anyDigest : Bool
  deriving DecidableEq

inductive GlobField where
  | pathSegment
  | tag
  deriving DecidableEq

/-! ## Parsing -/

def isLegalPatternChar (c : Char) : Bool :=
  c.isAlphanum || ['.', '-', '_', '/', ':', '+', '=', '*', '\x7b', '\x7d'].contains c

def splitPatternTag (raw : Text) : Except ParseError (Text × Option Text) := splitTag raw

/-- As for a reference, and a bare `*` is a host attempt. -/
def isPatternHost (first : Text) : Bool :=
  first.contains '.' || first.contains ':' || first == localhost || ['*', '.'].isPrefixOf first
    || first == ['*']

def splitPatternHost (name : Text) : Except ParseError (Option Text × Text) :=
  match splitOnce '/' name with
  | none => .ok (none, name)
  | some (first, rest) =>
    if first = [] ∨ rest = [] then .error .malformed
    else if isPatternHost first then .ok (some first, rest)
    else .ok (none, name)

def validateHostLiteralLabel (label : Text) : Except ParseError Unit :=
  if edged Char.isAlphanum isHostLabelChar label then .ok () else .error .illegalHost

/-- The inside of a label that is one brace pair, or nothing. -/
def bracedLabel (label : Text) : Option Text :=
  (label.dropPrefix? ['\x7b']).bind (·.dropSuffix? ['\x7d'])

def parseHostLabel (label : Text) : Except ParseError GlobPiece :=
  match bracedLabel label with
  | some inner =>
    match VariableName.new (inner.map Char.toUpper) with
    | none => .error .illegalHost
    | some name => if name.allowedInHost then .ok (.var name) else .error .illegalHost
  | none => do
    validateHostLiteralLabel label
    .ok (.literal label)

/-- Without a host: the default host, as one label. -/
def parseHost (host : Option Text) : Except ParseError HostPattern :=
  match host with
  | none => .ok (.labels [.literal defaultHost] none)
  | some host =>
    if host = ['*'] then .error .illegalHost
    else match host.dropPrefix? ['*', '.'] with
      | some suffix =>
        if suffix = [] ∨ suffix.contains '*' ∨ suffix.contains '\x7b' then .error .illegalHost
        else do
          let lowered := stripLast '.' (suffix.map Char.toLower)
          forEach validateHostLiteralLabel (lowered.splitOn '.')
          .ok (.suffix lowered)
      | none =>
        let (name, port) := cutPort (host.map Char.toLower)
        if port.any (fun port => port = [] || !port.all Char.isDigit) then .error .illegalHost
        else
          let name := stripLast '.' name
          if name = [] then .error .illegalHost
          else do
            let labels ← (name.splitOn '.').mapM parseHostLabel
            .ok (.labels labels port)

def isRunChar (field : GlobField) (c : Char) : Bool :=
  match field with
  | .pathSegment => isComponentChar c
  | .tag => isTagChar c

def illegalRun (field : GlobField) : ParseError :=
  match field with
  | .pathSegment => .illegalPathComponent
  | .tag => .illegalTag

/-- Validate an accumulated literal run and push it. -/
def flush (literal : Text) (pieces : List GlobPiece) (field : GlobField) :
    Except ParseError (List GlobPiece) :=
  if literal = [] then .ok pieces
  else if literal.all (isRunChar field) then .ok (pieces ++ [.literal literal])
  else .error (illegalRun field)

/-- The piece loop. `skip` counts the characters of a variable's name and its closing
brace that are still to be passed over. -/
def parseGlobLoop (field : GlobField) :
    Nat → Text → Text → List GlobPiece → Except ParseError (List GlobPiece)
  | _, [], literal, pieces => flush literal pieces field
  | skip + 1, _ :: rest, literal, pieces => parseGlobLoop field skip rest literal pieces
  | 0, c :: after, literal, pieces =>
    if c = '*' then
      if after.head? = some '*' then .error .malformed
      else do
        let pieces ← flush literal pieces field
        parseGlobLoop field 0 after [] (pieces ++ [.star])
    else if c = '\x7b' then
      match splitOnce '\x7d' after with
      | none => .error .malformed
      | some (name, _) =>
        if name = [] then .error .malformed
        else match VariableName.new name with
          | none => .error .malformed
          | some var => do
            let pieces ← flush literal pieces field
            parseGlobLoop field (name.length + 1) after [] (pieces ++ [.var var])
    else if c = '\x7d' then .error .malformed
    else parseGlobLoop field 0 after (literal ++ [c]) pieces

/-- Whether a literal may open (`leading`) or close a run of its field. -/
def edgeIsLegal (field : GlobField) (leading : Bool) (literal : Text) : Bool :=
  let edge := if leading then literal.head? else literal.getLast?
  match field, leading with
  | .pathSegment, _ => edge.any isComponentEdge
  | .tag, true => edge.any isTagEdge
  | .tag, false => true

def validateBoundaries (pieces : List GlobPiece) (field : GlobField) : Except ParseError Unit :=
  match pieces, field with
  | [.literal only], .pathSegment => validatePathComponent only
  | [.literal only], .tag => if isTag only then .ok () else .error (illegalRun field)
  | _, _ =>
    let illegal (leading : Bool) : Option GlobPiece → Bool
      | some (.literal edge) => !edgeIsLegal field leading edge
      | _ => false
    if illegal true pieces.head? || illegal false pieces.getLast? then .error (illegalRun field)
    else .ok ()

def parseGlob (text : Text) (field : GlobField) : Except ParseError (List GlobPiece) :=
  if text = [] then .error (illegalRun field)
  else do
    let pieces ← parseGlobLoop field 0 text [] []
    if pieces = [] then .error .malformed
    else do
      validateBoundaries pieces field
      .ok pieces

def parseSegment (segment : Text) : Except ParseError PathSegment :=
  if segment = ['*', '*'] then .ok .doubleStar
  else do
    let pieces ← parseGlob segment .pathSegment
    .ok (.glob pieces)

def parsePath (host : HostPattern) (path : Text) : Except ParseError (List PathSegment) :=
  if path = [] then .error .malformed
  else
    let isDefaultHost := host = .labels [.literal defaultHost] none
    let path := if isDefaultHost ∧ !path.contains '/' then defaultNamespace ++ '/' :: path else path
    (path.splitOn '/').mapM parseSegment

/-- The trailing opt-in: digest-pinned references are acceptable too. -/
def anyDigestSuffix : Text := "@*".toList

def cutAnyDigest (raw : Text) : Text × Bool :=
  match raw.dropSuffix? anyDigestSuffix with
  | some body => (body, true)
  | none => (raw, false)

def parseTag (tag : Option Text) : Except ParseError (Option (List GlobPiece)) :=
  match tag with
  | some text => (parseGlob text .tag).map some
  | none => .ok none

namespace Pattern

def parse (raw : Text) : Except ParseError Pattern :=
  if raw = [] then .error .empty
  else if byteLen raw > maxReferenceLen then .error .tooLong
  else
    let (body, anyDigest) := cutAnyDigest raw
    if body.contains '@' then .error .illegalDigest
    else if body = [] then .error .malformed
    else match body.find? (fun c => !isLegalPatternChar c) with
      | some c => .error (.illegalCharacter c)
      | none =>
        if body = ['*'] ∨ body = ['*', '*'] then .error .illegalHost
        else do
          let (name, tag) ← splitPatternTag body
          let (hostText, pathText) ← splitPatternHost name
          let host ← parseHost hostText
          let path ← parsePath host pathText
          let tag ← parseTag tag
          .ok { raw, host, path, tag, anyDigest }

/-! ## Variables of a pattern -/

def pieces (p : Pattern) : List GlobPiece :=
  (match p.host with | .labels labels _ => labels | .suffix _ => [])
    ++ (p.path.flatMap fun segment => match segment with | .glob pieces => pieces | .doubleStar => [])
    ++ p.tag.getD []

def seeVariable (out : List VariableName) (piece : GlobPiece) : List VariableName :=
  match piece with
  | .var name => if out.contains name then out else out ++ [name]
  | _ => out

/-- In first-seen order, without repetition. -/
def variableNames (p : Pattern) : List VariableName := p.pieces.foldl seeVariable []

end Pattern

/-! ## Matching -/

/-- Variables replaced by their values; `none` when one is unbound. -/
def resolvePieces (pieces : List GlobPiece) (values : VariableValues) : Option (List GlobPiece) :=
  pieces.mapM fun piece =>
    match piece with
    | .var name => (values.get name).map fun value => .literal value.text
    | other => some other

/-- Both loops retry everything after the last star, which takes one more. -/
def backtrack (again : Nat → Nat → Option Nat → Nat → Option Bool) (star : Option Nat)
    (starInput : Nat) : Option Bool :=
  match star with
  | some star => again (star + 1) (starInput + 1) (some star) (starInput + 1)
  | none => some false

/-- `p`, `i`, `star` and `starInput` are the indices of the source. -/
def matchesGlobLoop (resolved : List GlobPiece) (input : Text) :
    Nat → Nat → Nat → Option Nat → Nat → Option Bool
  | 0, _, _, _, _ => none
  | fuel + 1, p, i, star, starInput =>
    if i < input.length then
      match resolved[p]? with
      | some (.literal literal) =>
        if literal.isPrefixOf (input.drop i) then
          matchesGlobLoop resolved input fuel (p + 1) (i + literal.length) star starInput
        else backtrack (matchesGlobLoop resolved input fuel) star starInput
      | some .star => matchesGlobLoop resolved input fuel (p + 1) i (some p) i
      | _ => backtrack (matchesGlobLoop resolved input fuel) star starInput
    else some ((resolved.drop p).dropWhile (· = .star) = [])

def matchesGlob (pieces : List GlobPiece) (input : Text) (values : VariableValues) : Bool :=
  match resolvePieces pieces values with
  | none => false
  | some resolved =>
    matchesGlobLoop resolved input (greedyFuel resolved.length input.length) 0 0 none 0 = some true

def matchesSegment (pieces : List GlobPiece) (segment : Text) (values : VariableValues) : Bool :=
  matchesGlob pieces segment values

def matchesPathLoop (pattern : List PathSegment) (input : List Text) (values : VariableValues) :
    Nat → Nat → Nat → Option Nat → Nat → Option Bool
  | 0, _, _, _, _ => none
  | fuel + 1, p, i, star, starInput =>
    match input[i]? with
    | some segment =>
      match pattern[p]? with
      | some .doubleStar => matchesPathLoop pattern input values fuel (p + 1) (i + 1) (some p) (i + 1)
      | some (.glob pieces) =>
        if matchesSegment pieces segment values then
          matchesPathLoop pattern input values fuel (p + 1) (i + 1) star starInput
        else backtrack (matchesPathLoop pattern input values fuel) star starInput
      | none => backtrack (matchesPathLoop pattern input values fuel) star starInput
    | none => some (p = pattern.length)

def matchesPath (pattern : List PathSegment) (r : ImageReference) (values : VariableValues) : Bool :=
  matchesPathLoop pattern r.pathComponents values
    (greedyFuel pattern.length r.pathComponents.length) 0 0 none 0 = some true

def matchesLabel (values : VariableValues) (piece : GlobPiece) (label : Text) : Bool :=
  match piece with
  | .literal literal => literal == label
  | .star => false
  | .var name => (values.get name).any fun value => value.text == label

namespace Pattern

def matchesHost (p : Pattern) (host : Text) (values : VariableValues) : Bool :=
  match p.host with
  | .suffix suffix => ('.' :: suffix).isSuffixOf host
  | .labels labels port =>
    let (name, actualPort) := cutPort host
    let expected := name.splitOn '.'
    if port ≠ actualPort then false
    else if expected.length ≠ labels.length then false
    else (labels.zip expected).all fun (piece, label) => matchesLabel values piece label

def matchesTag (p : Pattern) (tag : Option Text) (values : VariableValues) : Bool :=
  match p.tag with
  | none => true
  | some pieces =>
    match tag with
    | none => p.anyDigest
    | some tag => matchesGlob pieces tag values

/-- An unbound variable makes the whole pattern match nothing. -/
def matchesReference (p : Pattern) (r : ImageReference) (values : VariableValues) : Bool :=
  if p.variableNames.any fun name => (values.get name).isNone then false
  else p.matchesHost r.host values && matchesPath p.path r values && p.matchesTag r.tag values

end Pattern

end WeeboSi.ImagePolicy
