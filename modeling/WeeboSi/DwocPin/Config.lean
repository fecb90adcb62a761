import WeeboSi.Crd.TeamGrants
import WeeboSi.DwocPin.Feature

/-!
# The configuration of dwoc-pin, resolved and validated

Source: crates/weebo-si-crd/src/dwoc_pin.rs:84-367. The grants are a map of the source: they
are validated here in the order they are listed in, which decides the order of the violations
and nothing else.
-/
namespace WeeboSi.DwocPin
open WeeboSi.Lib WeeboSi.Crd WeeboSi.Chassis

/-- The block of a team object. -/
structure TeamDwocPin where
  catalog : Catalog
  default : Text
  deriving DecidableEq, Repr

inductive ConfigViolation where
  | duplicateCatalogKey (key : Text)
  | defaultNotInCatalog (key : Text)
  | grantAllowedEmpty (team : Text)
  | grantAllowedUnknownKey (team key : Text)
  | grantDefaultOutsideAllowed (team default : Text)
  | grantNamesUndeclaredTeam (team : Text)
  | catalogKeyConflict (team key : Text)
  deriving DecidableEq, Repr

def Catalog.hasKey (catalog : Catalog) (key : Text) : Bool := catalog.any fun entry => entry.key = key

/-! ## Resolution against the team objects -/

def TeamDwocPin.grant (default : Text) (block : TeamDwocPin) : Grant :=
  ⟨widened (block.catalog.map CatalogEntry.key) default, block.default⟩

def DwocPinConfig.resolve (config : DwocPinConfig) (teams : List (WeeboSiTeam TeamDwocPin)) :
    ResolvedDwocPinConfig × List ConfigViolation :=
  let (entries, conflicts) :=
    mergeCatalogs config.catalog (teamBlocks teams TeamDwocPin.catalog) CatalogEntry.key
  (⟨{ config with catalog := entries }, teamGrants teams (TeamDwocPin.grant config.default)⟩,
    conflicts.map fun conflict => .catalogKeyConflict conflict.team conflict.key)

/-! ## Validation -/

/-- One violation for each entry whose key stands before it. -/
def duplicateKeys : List Text → Catalog → List ConfigViolation
  | _, [] => []
  | seen, entry :: rest =>
    (if seen.contains entry.key then [.duplicateCatalogKey entry.key] else [])
      ++ duplicateKeys (entry.key :: seen) rest

def grantViolations (catalog : Catalog) (teams : List Team) (team : Text) (grant : Grant) :
    List ConfigViolation :=
  (if (teams.map Team.name).contains team then [] else [.grantNamesUndeclaredTeam team])
    ++ (if grant.allowed.isEmpty then [.grantAllowedEmpty team] else [])
    ++ (grant.allowed.filter fun key => !catalog.hasKey key).map (.grantAllowedUnknownKey team)
    ++ (if grant.allowed.contains grant.default then []
      else [.grantDefaultOutsideAllowed team grant.default])

def validate (config : ResolvedDwocPinConfig) (teams : List Team) : List ConfigViolation :=
  duplicateKeys [] config.config.catalog
    ++ (if config.config.catalog.hasKey config.config.default then []
      else [.defaultNotInCatalog config.config.default])
    ++ config.grants.flatMap fun (team, grant) => grantViolations config.config.catalog teams team grant

/-! ## What a configuration without violations has -/

theorem hasKey_iff (catalog : Catalog) (key : Text) :
    catalog.hasKey key = true ↔ ∃ target, catalog.target key = some target := by
  unfold Catalog.hasKey Catalog.target
  rw [List.any_eq_true, ← Option.isSome_iff_exists, Option.isSome_map, List.find?_isSome]

/-- Each key names one target: what an entry says is what the lookup says. -/
theorem target_of_duplicateKeys (seen : List Text) (catalog : Catalog)
    (none_ : duplicateKeys seen catalog = []) :
    (∀ entry ∈ catalog, entry.key ∉ seen) ∧
      ∀ entry ∈ catalog, catalog.target entry.key = some entry.target := by
  induction catalog generalizing seen with
  | nil => simp
  | cons first rest ih =>
    simp only [duplicateKeys, List.append_eq_nil_iff] at none_
    obtain ⟨fresh, later⟩ := none_
    have unseen : first.key ∉ seen := by
      intro member
      simp [member] at fresh
    obtain ⟨apart, found⟩ := ih (first.key :: seen) later
    refine ⟨?_, ?_⟩
    · intro entry member
      rcases List.mem_cons.mp member with rfl | member
      · exact unseen
      · exact fun inSeen => apart entry member (List.mem_cons_of_mem _ inSeen)
    · intro entry member
      rcases List.mem_cons.mp member with rfl | member
      · simp [Catalog.target]
      · have other : first.key ≠ entry.key := by
          intro same
          exact apart entry member (by simp [same])
        have below := found entry member
        unfold Catalog.target at below ⊢
        rw [List.find?_cons_of_neg (by simpa using other)]
        exact below

structure Valid (config : ResolvedDwocPinConfig) : Prop where
  unique : ∀ entry ∈ config.config.catalog, config.config.catalog.target entry.key = some entry.target
  default : config.config.catalog.hasKey config.config.default = true
  grants : ∀ team grant, config.grants.lookup team = some grant →
    grant.default ∈ grant.allowed ∧ ∀ key ∈ grant.allowed, config.config.catalog.hasKey key = true

theorem valid_of_validate (config : ResolvedDwocPinConfig) (teams : List Team)
    (clean : validate config teams = []) : Valid config := by
  simp only [validate, List.append_eq_nil_iff, List.flatMap_eq_nil_iff] at clean
  obtain ⟨⟨duplicates, default⟩, grants⟩ := clean
  refine ⟨(target_of_duplicateKeys [] _ duplicates).2, by simpa using default, ?_⟩
  intro team grant found
  have member : (team, grant) ∈ config.grants := by
    obtain ⟨before, after, same, _⟩ := List.lookup_eq_some_iff.mp found
    rw [same]
    simp
  have none_ := grants (team, grant) member
  simp only [grantViolations, List.append_eq_nil_iff, List.map_eq_nil_iff, List.filter_eq_nil_iff] at none_
  refine ⟨by simpa using none_.2, ?_⟩
  intro key inAllowed
  simpa using none_.1.2 key inAllowed

end WeeboSi.DwocPin
