import WeeboSi.Lib.Regex

/-!
# Whose host is it

Source: crates/weebo-si-crd/src/endpoint_auth.rs:209-460. A set of users is the list of
its elements, read by membership only. Parsing a regular expression is the regex crate's:
`compile` is the list of top-level alternatives it reads in a text, the group named `user`
being the captured one.
-/
namespace WeeboSi.Crd
open WeeboSi.Lib

/-! ## Searching a text -/

/-- The starts of the occurrences of `needle`, none inside the one before: `skip` counts the
characters of the last one that are still to be passed over. -/
def matchIndicesFrom (needle : Text) : Nat → Nat → Text → List Nat
  | _, _, [] => []
  | skip + 1, at_, _ :: rest => matchIndicesFrom needle skip (at_ + 1) rest
  | 0, at_, c :: rest =>
    if needle.isPrefixOf (c :: rest) then
      at_ :: matchIndicesFrom needle (needle.length - 1) (at_ + 1) rest
    else matchIndicesFrom needle 0 (at_ + 1) rest

/-- For a nonempty needle. -/
def matchIndices (needle text : Text) : List Nat := matchIndicesFrom needle 0 0 text

/-- The first occurrence. -/
def findText (needle text : Text) : Option Nat := (matchIndices needle text).head?

def trimEndMatches (c : Char) (s : Text) : Text := (s.reverse.dropWhile (· == c)).reverse

/-! ## Templates -/

def userName : Text := "user".toList

/-- What stands before the next placeholder. -/
def nextLiteral (after : Text) : Text := after.takeWhile (· ≠ '\x7b')

def usableValue (value : Text) : Bool := value ≠ [] && !value.contains '.'

/-- The first place where a placeholder can end. -/
def firstSplit (next rest : Text) : Option (Text × Text) :=
  if next = [] then some (rest, []) else (findText next rest).map fun at_ => rest.splitAt at_

/-- Placeholders take the first split. The loop shortens `remaining`. -/
def matchTemplateLoop : Nat → Text → Text → Option Text → Option Text
  | 0, _, _, _ => none
  | fuel + 1, remaining, rest, user =>
    if remaining = [] then if rest = [] then user else none
    else match splitOnce '\x7b' remaining with
      | none => if rest = remaining then user else none
      | some (literal, opened) => do
        let rest ← rest.dropPrefix? literal
        let (name, after) ← splitOnce '\x7d' opened
        let (value, tail) ← firstSplit (nextLiteral after) rest
        if usableValue value then
          matchTemplateLoop fuel after tail (if name = userName then some value else user)
        else none

def matchTemplate (template stem : Text) : Option Text :=
  matchTemplateLoop (template.length + 1) template stem none

/-- The splits a placeholder tries. -/
def candidates (next rest : Text) : List (Text × Text) :=
  if next = [] then [(rest, [])] else (matchIndices next rest).map fun at_ => rest.splitAt at_

def templateWalk : Nat → Text → Text → Option Text → List Text
  | 0, _, _, _ => []
  | fuel + 1, remaining, rest, user =>
    match splitOnce '\x7b' remaining with
    | none => if rest = remaining then user.toList else []
    | some (literal, opened) =>
      match rest.dropPrefix? literal with
      | none => []
      | some rest =>
        match splitOnce '\x7d' opened with
        | none => []
        | some (name, after) =>
          (candidates (nextLiteral after) rest).flatMap fun (value, tail) =>
            if usableValue value then
              templateWalk fuel after tail (if name = userName then some value else user)
            else []

/-- Every user the template could capture. -/
def templateUsers (template stem : Text) : List Text :=
  templateWalk (template.length + 1) template stem none

/-! ## Ownership -/

structure HostOwnership where
  template : Option Text
  regex : Option Text
  deriving DecidableEq, Repr

structure HostsConfig where
  suffix : Text
  ownership : List HostOwnership
  exclude : List Text
  deriving DecidableEq, Repr

def anchor (pattern : Text) : Text :=
  (if pattern.head? = some '^' then [] else ['^']) ++ pattern
    ++ (if pattern.getLast? = some '$' then [] else ['$'])

/-- What the ownership patterns read out of a host. -/
inductive Reading where
  | users (users : List Text)
  | unreadable
  deriving DecidableEq, Repr

def lowerText (s : Text) : Text := s.map Char.toLower

/-- A host as it is compared. -/
def plainHost (host : Text) : Text := lowerText (trimEndMatches '.' (trim host))

section Engine
variable (compile : Text → Option (List Regex))

def HostOwnership.ownerOf (pattern : HostOwnership) (stem : Text) : Option Text :=
  match pattern.template with
  | some template => matchTemplate template stem
  | none => do
    let regex ← pattern.regex
    let alternatives ← compile (anchor regex)
    let hit ← searchFirst alternatives stem
    hit.captured

/-- The users of the first pattern that reads any. -/
def readStem : List HostOwnership → Text → Reading
  | [], _ => .unreadable
  | pattern :: more, stem =>
    match pattern.template with
    | some template =>
      if templateUsers template stem = [] then readStem more stem
      else .users (templateUsers template stem)
    | none =>
      match pattern.ownerOf compile stem with
      | some user => .users [lowerText user]
      | none => readStem more stem

namespace HostsConfig
variable (hosts : HostsConfig)

def governs (host : Text) : Bool :=
  (lowerText hosts.suffix).isSuffixOf (plainHost host)
    && !hosts.exclude.any fun excluded => lowerText excluded == lowerText (plainHost host)

def ownerOf (host : Text) : Option Text := do
  let stem ← (plainHost host).dropSuffix? (lowerText hosts.suffix)
  hosts.ownership.findSome? fun pattern => pattern.ownerOf compile stem

def reading (host : Text) : Reading :=
  match (plainHost host).dropSuffix? (lowerText hosts.suffix) with
  | none => .unreadable
  | some stem => readStem compile hosts.ownership stem

/-- An ambiguous host goes to the owner only when no other reading is a real user. -/
def ownedBy (host owner : Text) (isUser : Text → Bool) : Bool :=
  match hosts.reading compile host with
  | .users users =>
    users.contains (lowerText owner)
      && (users.filter (· ≠ lowerText owner)).all fun user => !isUser user
  | .unreadable => false

def claimedByAnother (host owner : Text) : Bool :=
  match hosts.reading compile host with
  | .users users => users ≠ [] && !users.contains (lowerText owner)
  | .unreadable => false

/-! ## One owner at most -/

theorem ownedBy_eq_true (host owner : Text) (isUser : Text → Bool) :
    hosts.ownedBy compile host owner isUser = true ↔
      ∃ users, hosts.reading compile host = .users users ∧ lowerText owner ∈ users ∧
        ∀ user ∈ users, user ≠ lowerText owner → isUser user = false := by
  unfold ownedBy
  cases hosts.reading compile host with
  | unreadable => simp
  | users users => simp [or_iff_not_imp_left]

theorem claimedByAnother_eq_true (host owner : Text) :
    hosts.claimedByAnother compile host owner = true ↔
      ∃ users, hosts.reading compile host = .users users ∧ users ≠ [] ∧ lowerText owner ∉ users := by
  unfold claimedByAnother
  cases hosts.reading compile host with
  | unreadable => simp
  | users users => simp

/-- Of two users who both exist at most one owns a host, and nobody owns a host that the
patterns read as another's. -/
theorem owned_by_one (host : Text) (isUser : Text → Bool) :
    (∀ owner other, lowerText owner ≠ lowerText other → isUser (lowerText owner) = true →
      isUser (lowerText other) = true →
      ¬ (hosts.ownedBy compile host owner isUser = true ∧
        hosts.ownedBy compile host other isUser = true)) ∧
    ∀ owner, ¬ (hosts.claimedByAnother compile host owner = true ∧
      hosts.ownedBy compile host owner isUser = true) := by
  constructor
  · intro owner other different _ otherExists both
    obtain ⟨users, read, -, alone⟩ := (ownedBy_eq_true compile hosts host owner isUser).mp both.1
    obtain ⟨users', read', named, -⟩ := (ownedBy_eq_true compile hosts host other isUser).mp both.2
    obtain rfl := Reading.users.inj (read.symm.trans read')
    rw [alone (lowerText other) named different.symm] at otherExists
    cases otherExists
  · intro owner both
    obtain ⟨users, read, -, absent⟩ := (claimedByAnother_eq_true compile hosts host owner).mp both.1
    obtain ⟨users', read', named, -⟩ := (ownedBy_eq_true compile hosts host owner isUser).mp both.2
    obtain rfl := Reading.users.inj (read.symm.trans read')
    exact absent named

end HostsConfig

end Engine

/-- `alice-bob-ws-api` reads as alice's or as alice-bob's. -/
def dashedHosts : HostsConfig :=
  ⟨".weebo.si".toList, [⟨some "\x7buser\x7d-\x7bworkspace\x7d-\x7bendpoint\x7d".toList, none⟩], []⟩

theorem owned_by_one_dashed :
    ¬ (dashedHosts.ownedBy (fun _ => none) "alice-bob-ws-api.weebo.si".toList "alice".toList
        (fun user => user = "alice".toList || user = "alice-bob".toList) = true ∧
      dashedHosts.ownedBy (fun _ => none) "alice-bob-ws-api.weebo.si".toList "Alice-Bob".toList
        (fun user => user = "alice".toList || user = "alice-bob".toList) = true) ∧
    dashedHosts.ownedBy (fun _ => none) "alice-bob-ws-api.weebo.si".toList "alice".toList
      (fun user => user = "alice".toList) = true := by
  refine ⟨(HostsConfig.owned_by_one (fun _ => none) dashedHosts _ _).1 _ _ ?_ ?_ ?_, ?_⟩
  · decide
  · decide
  · decide
  · decide +kernel

end WeeboSi.Crd
