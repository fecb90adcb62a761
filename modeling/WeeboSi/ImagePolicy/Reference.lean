import WeeboSi.Lib.Outcome
import WeeboSi.Lib.Text

/-!
# Image references: parsing and normalisation

Source: crates/weebo-si-image-policy/src/reference.rs:30-420. A reference text is
cut into digest, tag, host and path in this order, each part is validated, and
host and path are normalised. Byte tests of the source (`as_bytes().first()`) are
character tests here: a non-ASCII character fails both.
-/
namespace WeeboSi.ImagePolicy
open WeeboSi.Lib

def maxReferenceLen : Nat := 512
def defaultHost : Text := "docker.io".toList
def defaultNamespace : Text := "library".toList
def defaultTag : Text := "latest".toList
def localhost : Text := "localhost".toList

inductive ParseError where
  | empty | tooLong | illegalCharacter (c : Char) | illegalHost | illegalPathComponent
  | illegalTag | illegalDigest | malformed
  deriving DecidableEq, Repr

structure ImageReference where
  host : Text
  path : Text
  tag : Option Text
  digest : Option Text
  deriving DecidableEq, Repr

def isLegalReferenceChar (c : Char) : Bool :=
  c.isAlphanum || ['.', '-', '_', '/', ':', '@', '+', '='].contains c

/-- Separator-delimited groups: the flag is `previous_was_separator`, `none` a refusal. -/
def scanAlgorithm : Bool → Text → Option Bool
  | previousWasSeparator, [] => some previousWasSeparator
  | previousWasSeparator, c :: rest =>
    if ['+', '.', '_', '-'].contains c then
      if previousWasSeparator then none else scanAlgorithm true rest
    else if c.isLower || c.isDigit then scanAlgorithm false rest
    else none

def isEncodedChar (c : Char) : Bool := c.isAlphanum || ['=', '_', '-'].contains c

def validateDigest (digest : Text) : Except ParseError Unit :=
  match splitOnce ':' digest with
  | none => .error .illegalDigest
  | some (algorithm, encoded) =>
    if algorithm = [] ∨ byteLen encoded < 32 then .error .illegalDigest
    else if scanAlgorithm true algorithm ≠ some false then .error .illegalDigest
    else if encoded.all isEncodedChar then .ok ()
    else .error .illegalDigest

/-- `name[:tag]@digest` into its two halves. At most one `@`. -/
def splitDigest (raw : Text) : Except ParseError (Text × Option Text) :=
  match splitOnce '@' raw with
  | none => .ok (raw, none)
  | some (name, digest) =>
    if raw.count '@' > 1 then .error .malformed
    else if name = [] then .error .malformed
    else do
      validateDigest digest
      .ok (name, some digest)

/-- What precedes the final segment, its `/` included, and the final segment. -/
def finalSegment (s : Text) : Text × Text :=
  match rsplitOnce '/' s with
  | some (before, final) => (before ++ ['/'], final)
  | none => ([], s)

/-- The tag follows the last `:` after the last `/`. Patterns are cut by the same rule. -/
def splitTag (nameAndTag : Text) : Except ParseError (Text × Option Text) :=
  let (before, final) := finalSegment nameAndTag
  match rsplitOnce ':' final with
  | none => .ok (nameAndTag, none)
  | some (name, tag) =>
    if before ++ name = [] ∨ tag = [] then .error .malformed
    else .ok (before ++ name, some tag)

/-- The first component is a host only if it carries `.` or `:`, or is `localhost`. -/
def isHostComponent (first : Text) : Bool :=
  first.contains '.' || first.contains ':' || first == localhost

def splitHost (name : Text) : Except ParseError (Option Text × Text) :=
  match splitOnce '/' name with
  | none => .ok (none, name)
  | some (first, rest) =>
    if first = [] ∨ rest = [] then .error .malformed
    else if isHostComponent first then .ok (some first, rest)
    else .ok (none, name)

/-- First and last satisfy `edge`, every character satisfies `inner`. The empty text fails. -/
def edged (edge inner : Char → Bool) (s : Text) : Bool :=
  s.head?.any edge && s.getLast?.any edge && s.all inner

def isHostLabelChar (c : Char) : Bool := c.isLower || c.isDigit || c == '-'

def validateHostLabel (label : Text) : Except ParseError Unit :=
  if edged Char.isAlphanum isHostLabelChar label then .ok () else .error .illegalHost

/-- A host into its name and what follows the last `:`. -/
def cutPort (host : Text) : Text × Option Text :=
  match rsplitOnce ':' host with
  | some (name, port) => (name, some port)
  | none => (host, none)

def normalizeHost (host : Option Text) : Except ParseError Text :=
  match host with
  | none => .ok defaultHost
  | some host =>
    let (name, port) := cutPort (host.map Char.toLower)
    let name := stripLast '.' name
    if name = [] then .error .illegalHost
    else do
      forEach validateHostLabel (name.splitOn '.')
      match port with
      | some port =>
        if port = [] ∨ !port.all Char.isDigit then .error .illegalHost
        else .ok (name ++ ':' :: port)
      | none => .ok name

def isComponentEdge (c : Char) : Bool := c.isLower || c.isDigit

def isComponentChar (c : Char) : Bool := c.isLower || c.isDigit || ['.', '_', '-'].contains c

def validatePathComponent (component : Text) : Except ParseError Unit :=
  if edged isComponentEdge isComponentChar component then .ok () else .error .illegalPathComponent

def normalizePath (host path : Text) : Except ParseError Text :=
  if path = [] then .error .malformed
  else do
    forEach validatePathComponent (path.splitOn '/')
    if host = defaultHost ∧ !path.contains '/' then .ok (defaultNamespace ++ '/' :: path)
    else .ok path

def isTagEdge (c : Char) : Bool := c.isAlphanum || c == '_'

def isTagChar (c : Char) : Bool := c.isAlphanum || ['_', '.', '-'].contains c

/-- `[A-Za-z0-9_][A-Za-z0-9_.-]{0,127}`; only the first character is an edge. -/
def isTag (tag : Text) : Bool :=
  byteLen tag ≤ 128 && match tag with
    | [] => false
    | first :: rest => isTagEdge first && rest.all isTagChar

def validateTag (tag : Text) : Except ParseError Unit :=
  if isTag tag then .ok () else .error .illegalTag

namespace ImageReference

def parse (raw : Text) : Except ParseError ImageReference :=
  if raw = [] then .error .empty
  else if byteLen raw > maxReferenceLen then .error .tooLong
  else match raw.find? (fun c => !isLegalReferenceChar c) with
    | some c => .error (.illegalCharacter c)
    | none => do
      let (nameAndTag, digest) ← splitDigest raw
      let (name, tag) ← splitTag nameAndTag
      let (host, path) ← splitHost name
      let host ← normalizeHost host
      let path ← normalizePath host path
      forEach validateTag tag.toList
      -- a digest wins outright: the tag is validated and then dropped
      let tag := match digest with
        | some _ => none
        | none => some (tag.getD defaultTag)
      .ok { host, path, tag, digest }

def display (r : ImageReference) : Text :=
  r.host ++ '/' :: r.path
    ++ (match r.tag with | some tag => ':' :: tag | none => [])
    ++ (match r.digest with | some digest => '@' :: digest | none => [])

def pathComponents (r : ImageReference) : List Text := r.path.splitOn '/'

end ImageReference

example : (ImageReference.parse "nginx".toList).map ImageReference.display =
    .ok "docker.io/library/nginx:latest".toList := by decide

end WeeboSi.ImagePolicy
