import WeeboSi.Crd.Team

/-!
# One meaning for every key

Source: crates/weebo-si-crd/src/merge.rs:32-69. The fold of `mergeCatalogs` against the
concatenation of everything that was written: the first definition of a key wins, and the
entries that lost against a different one are reported in the order they were met.
-/
namespace WeeboSi.Crd
open WeeboSi.Lib

section Winner
variable {T K : Type} [DecidableEq K] (keyOf : T → K)

/-- The first entry of a key. -/
def winner (entries : List T) (key : K) : Option T := entries.find? fun entry => keyOf entry = key

theorem winner_append (entries more : List T) (key : K) :
    winner keyOf (entries ++ more) key = (winner keyOf entries key).or (winner keyOf more key) :=
  List.find?_append

theorem winner_eq_none (entries : List T) (key : K) :
    winner keyOf entries key = none ↔ ∀ entry ∈ entries, keyOf entry ≠ key := by
  simp [winner]

/-- What is written later does not change the meaning of a key that has one. -/
theorem winner_stable (entries more : List T) (entry : T) (member : entry ∈ entries) :
    winner keyOf (entries ++ more) (keyOf entry) = winner keyOf entries (keyOf entry) := by
  have some : winner keyOf entries (keyOf entry) ≠ none := fun absent =>
    (winner_eq_none keyOf entries _).mp absent entry member rfl
  obtain ⟨won, found⟩ := Option.ne_none_iff_exists'.mp some
  rw [winner_append, found, Option.some_or]

/-- The index of a key is the place of its first entry. -/
theorem winner_of_findIdx? (entries : List T) (key : K) (index : Nat)
    (found : entries.findIdx? (fun entry => keyOf entry = key) = some index) :
    ∃ won, entries[index]? = some won ∧ winner keyOf entries key = some won := by
  obtain ⟨inside, here, before⟩ := List.findIdx?_eq_some_iff_getElem.mp found
  refine ⟨entries[index], List.getElem?_eq_getElem inside, ?_⟩
  exact List.find?_eq_some_iff_getElem.mpr
    ⟨here, index, inside, rfl, fun j earlier => by simpa using before j earlier⟩

end Winner

section Merge
variable {T K : Type} [DecidableEq T] [DecidableEq K] (keyOf : T → K) (cluster : List T)

/-- Every entry of a team with the team that wrote it, in the order they are merged. -/
def contributed (teams : List (Text × List T)) : List (Text × T) :=
  teams.flatMap fun (team, entries) => entries.map fun entry => (team, entry)

/-- The entries of `done` that differ from what `entries` means by their key. -/
def losers (entries : List T) (done : List (Text × T)) : List (CatalogConflict K) :=
  (done.filter fun (_, entry) => winner keyOf entries (keyOf entry) ≠ some entry).map
    fun (team, entry) => ⟨team, keyOf entry⟩

/-- The merge after the entries of `done`. -/
structure MergedUpTo (s : MergeState T K) (done : List (Text × T)) : Prop where
  indexed : ∀ key, s.seen key = s.merged.findIdx? fun entry => keyOf entry = key
  first : ∀ key, winner keyOf s.merged key = winner keyOf (cluster ++ done.map Prod.snd) key
  grown : ∃ added, s.merged = cluster ++ added ∧ (added.map keyOf).Nodup ∧
    ∀ entry ∈ added, winner keyOf cluster (keyOf entry) = none
  reported : s.conflicts = losers keyOf (cluster ++ done.map Prod.snd) done

/-- A later entry is judged last, and changes no earlier judgement. -/
theorem losers_snoc (done : List (Text × T)) (team : Text) (entry : T) :
    losers keyOf (cluster ++ (done ++ [(team, entry)]).map Prod.snd) (done ++ [(team, entry)]) =
      losers keyOf (cluster ++ done.map Prod.snd) done ++
        losers keyOf (cluster ++ (done ++ [(team, entry)]).map Prod.snd) [(team, entry)] := by
  have earlier : ∀ pair ∈ done,
      winner keyOf (cluster ++ (done ++ [(team, entry)]).map Prod.snd) (keyOf pair.2) =
        winner keyOf (cluster ++ done.map Prod.snd) (keyOf pair.2) := by
    intro pair member
    have inside : pair.2 ∈ cluster ++ done.map Prod.snd :=
      List.mem_append_right _ (List.mem_map_of_mem member)
    rw [List.map_append, ← List.append_assoc]
    exact winner_stable keyOf _ _ pair.2 inside
  unfold losers
  rw [List.filter_append, List.map_append]
  congr 2
  apply List.filter_congr
  intro pair member
  simp only [earlier pair member]

theorem losers_single (entries : List T) (team : Text) (entry : T) :
    losers keyOf entries [(team, entry)] =
      if winner keyOf entries (keyOf entry) ≠ some entry then [⟨team, keyOf entry⟩] else [] := by
  by_cases same : winner keyOf entries (keyOf entry) = some entry
  · simp [losers, same]
  · simp [losers, same]

variable {keyOf cluster} {s : MergeState T K} {done : List (Text × T)} (inv : MergedUpTo keyOf cluster s done)
include inv

theorem MergedUpTo.winner_next (team : Text) (entry : T) (key : K) :
    winner keyOf (cluster ++ (done ++ [(team, entry)]).map Prod.snd) key =
      (winner keyOf s.merged key).or (winner keyOf [entry] key) := by
  rw [List.map_append, ← List.append_assoc, winner_append, ← inv.first]
  rfl

theorem losers_next (team : Text) (entry : T) (won : Option T)
    (means : winner keyOf (cluster ++ (done ++ [(team, entry)]).map Prod.snd) (keyOf entry) = won) :
    losers keyOf (cluster ++ (done ++ [(team, entry)]).map Prod.snd) (done ++ [(team, entry)]) =
      s.conflicts ++ if won ≠ some entry then [⟨team, keyOf entry⟩] else [] := by
  rw [losers_snoc, ← inv.reported, losers_single, means]

/-- A key that has a meaning keeps it, and a different entry is reported. -/
theorem MergedUpTo.known (team : Text) (entry : T) (index : Nat) (seen : s.seen (keyOf entry) = some index) :
    MergedUpTo keyOf cluster (mergeEntry keyOf team s entry) (done ++ [(team, entry)]) := by
  obtain ⟨won, place, means⟩ :=
    winner_of_findIdx? keyOf s.merged (keyOf entry) index ((inv.indexed _).symm.trans seen)
  have next : ∀ key, winner keyOf (cluster ++ (done ++ [(team, entry)]).map Prod.snd) key =
      winner keyOf s.merged key := by
    intro key
    rw [inv.winner_next]
    by_cases same : keyOf entry = key
    · rw [← same, means, Option.some_or]
    · simp [winner, same]
  have step : mergeEntry keyOf team s entry =
      { s with conflicts := s.conflicts ++ if some won ≠ some entry then [⟨team, keyOf entry⟩] else [] } := by
    unfold mergeEntry
    simp only [seen, place]
    split <;> simp
  rw [step]
  refine ⟨inv.indexed, fun key => (next key).symm, inv.grown, ?_⟩
  exact (losers_next inv team entry (some won) ((next _).trans means)).symm

/-- The first entry of a new key is appended. -/
theorem MergedUpTo.fresh (team : Text) (entry : T) (seen : s.seen (keyOf entry) = none) :
    MergedUpTo keyOf cluster (mergeEntry keyOf team s entry) (done ++ [(team, entry)]) := by
  have absent : ∀ other ∈ s.merged, keyOf other ≠ keyOf entry := by
    rw [inv.indexed, List.findIdx?_eq_none_iff] at seen
    exact fun other member => by simpa using seen other member
  have next : ∀ key, winner keyOf (cluster ++ (done ++ [(team, entry)]).map Prod.snd) key =
      winner keyOf (s.merged ++ [entry]) key := by
    intro key
    rw [inv.winner_next, winner_append]
  have means : winner keyOf (s.merged ++ [entry]) (keyOf entry) = some entry := by
    rw [winner_append, (winner_eq_none keyOf _ _).mpr absent]
    simp [winner]
  obtain ⟨added, whole, distinct, new⟩ := inv.grown
  have step : mergeEntry keyOf team s entry =
      { s with
        seen := fun key => if key = keyOf entry then some s.merged.length else s.seen key
        merged := s.merged ++ [entry] } := by
    simp only [mergeEntry, seen]
  rw [step]
  refine ⟨?_, fun key => (next key).symm, ⟨added ++ [entry], ?_, ?_, ?_⟩, ?_⟩
  · intro key
    dsimp only
    rw [List.findIdx?_append]
    by_cases same : key = keyOf entry
    · subst same
      rw [← inv.indexed, seen]
      simp
    · have other : ¬ keyOf entry = key := fun equal => same equal.symm
      rw [← inv.indexed, if_neg same]
      simp [other]
  · dsimp only
    rw [whole, List.append_assoc]
  · rw [List.map_append, List.nodup_append]
    refine ⟨distinct, by simp, ?_⟩
    intro key held other single same
    obtain ⟨earlier, member, rfl⟩ := List.mem_map.mp held
    simp only [List.map_cons, List.map_nil, List.mem_singleton] at single
    exact absent earlier (whole ▸ List.mem_append_right _ member) (same.trans single)
  · intro other member
    rcases List.mem_append.mp member with earlier | single
    · exact new other earlier
    · rw [List.mem_singleton.mp single, winner_eq_none]
      exact fun inside held => absent inside (whole ▸ List.mem_append_left _ held)
  · have reported := losers_next inv team entry (some entry) ((next _).trans means)
    simpa using reported.symm

theorem MergedUpTo.entry (team : Text) (entry : T) :
    MergedUpTo keyOf cluster (mergeEntry keyOf team s entry) (done ++ [(team, entry)]) := by
  cases seen : s.seen (keyOf entry) with
  | none => exact inv.fresh team entry seen
  | some index => exact inv.known team entry index seen

theorem MergedUpTo.entries (todo : List (Text × T)) :
    MergedUpTo keyOf cluster (todo.foldl (fun s (team, entry) => mergeEntry keyOf team s entry) s)
      (done ++ todo) := by
  induction todo generalizing s done with
  | nil => simpa using inv
  | cons pair todo ih =>
    obtain ⟨team, entry⟩ := pair
    have rest := ih (inv.entry team entry)
    rwa [List.append_assoc] at rest

end Merge

section Whole
variable {T K : Type} [DecidableEq T] [DecidableEq K]

theorem mergedUpTo_start (keyOf : T → K) (cluster : List T) :
    MergedUpTo keyOf cluster ⟨cluster, fun key => cluster.findIdx? fun entry => keyOf entry = key, []⟩ [] :=
  ⟨fun _ => rfl, fun _ => by simp, ⟨[], by simp⟩, rfl⟩

theorem foldl_contributed (keyOf : T → K) (teams : List (Text × List T)) (s : MergeState T K) :
    teams.foldl (fun s (team, entries) => entries.foldl (mergeEntry keyOf team) s) s =
      (contributed teams).foldl (fun s (team, entry) => mergeEntry keyOf team s entry) s := by
  unfold contributed
  rw [List.foldl_flatMap]
  congr 1
  funext s pair
  rw [List.foldl_map]

omit [DecidableEq T] in
theorem contributed_entries (teams : List (Text × List T)) :
    (contributed teams).map Prod.snd = teams.flatMap Prod.snd := by
  unfold contributed
  rw [List.map_flatMap]
  congr 1
  funext pair
  simp

/-- The output means by every key what the cluster catalogue, followed by those of the teams,
means by it. The cluster catalogue stands first and unchanged, the teams add at most one entry
for a key it does not have, and the conflicts are their entries that lost, in order. -/
theorem mergeCatalogs_first_wins (cluster : List T) (teams : List (Text × List T)) (keyOf : T → K) :
    (∀ key, winner keyOf (mergeCatalogs cluster teams keyOf).1 key =
        winner keyOf (cluster ++ teams.flatMap Prod.snd) key) ∧
      (∃ added, (mergeCatalogs cluster teams keyOf).1 = cluster ++ added ∧ (added.map keyOf).Nodup ∧
        ∀ entry ∈ added, ∀ own ∈ cluster, keyOf own ≠ keyOf entry) ∧
      (mergeCatalogs cluster teams keyOf).2 =
        ((contributed teams).filter fun (_, entry) =>
          winner keyOf (cluster ++ teams.flatMap Prod.snd) (keyOf entry) ≠ some entry).map
          fun (team, entry) => ⟨team, keyOf entry⟩ := by
  have done := (mergedUpTo_start keyOf cluster).entries (contributed teams)
  rw [← foldl_contributed, List.nil_append] at done
  have first := done.first
  have reported := done.reported
  rw [contributed_entries] at first reported
  obtain ⟨added, whole, distinct, new⟩ := done.grown
  refine ⟨first, ⟨added, whole, distinct, ?_⟩, reported⟩
  exact fun entry member => (winner_eq_none keyOf cluster _).mp (new entry member)

/-- Two teams against a cluster catalogue that lists a key twice: the second of two equal
definitions is neither added nor reported. -/
example :
    mergeCatalogs [(1, 'a'), (1, 'b')] [([], [(2, 'c'), (1, 'b')]), (['t'], [(2, 'c'), (2, 'd')])] Prod.fst =
      ([(1, 'a'), (1, 'b'), (2, 'c')], [⟨[], 1⟩, ⟨['t'], 2⟩]) := by decide

end Whole

end WeeboSi.Crd
