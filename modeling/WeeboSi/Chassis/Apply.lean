import WeeboSi.Chassis.Managed

/-!
# Applying the lines of a diff

Source: crates/weebo-si-chassis/src/managed/diff.rs:118-135,
crates/weebo-si-registry-config-adapters/src/registry_object_store.rs:126-155, 304-321 and
crates/weebo-si-resource-quotas-adapters/src/quota_stores.rs:180-214, 390-408, which apply a diff the
same way. In the cluster an object is told from another by its kind and its key, and a store takes
the lines one by one. In these (`Storage`) an apply leaves the object as it was written, but for what
the apiserver assigns; a delete re-reads the object and pins the one it found.
-/
namespace WeeboSi.Chassis
open WeeboSi.Lib

section Apply
variable {M B : Type} [Managed M B]

/-- Where the apiserver keeps an object. -/
def place (obj : M) : B × ObjectKey := (Managed.backend obj, Managed.key obj)

/-- What the apiserver keeps of a written object: its place and its content. -/
structure Storage (M : Type) {B : Type} [Managed M B] where
  stored : M → M
  samePlace : ∀ obj, place (stored obj) = place obj
  sameContent : ∀ obj, Managed.contentEq (stored obj) obj = true

/-- Where a line acts. -/
def linePlace : Diff M B → Option (B × ObjectKey)
  | .create obj | .update obj => some (place obj)
  | .delete key backend _ => some (backend, key)
  | .unchanged _ => none

/-- What a line writes. -/
def lineWrites : Diff M B → Option M
  | .create obj | .update obj => some obj
  | _ => none

theorem linePlace_of_writes (line : Diff M B) (obj : M) (writes : lineWrites line = some obj) :
    linePlace line = some (place obj) := by
  cases line <;> cases writes <;> rfl

/-- What the lines do, by kind of line. -/
def tally (lines : List (Diff M B)) : Applied :=
  lines.foldl
    (fun applied line => match line with
      | .create _ => { applied with created := applied.created + 1 }
      | .update _ => { applied with updated := applied.updated + 1 }
      | .delete _ _ _ => { applied with deleted := applied.deleted + 1 }
      | .unchanged _ => { applied with unchanged := applied.unchanged + 1 })
    ⟨0, 0, 0, 0⟩

/-! ## A diff, whoever computed it -/

/-- The lines bring what is wanted into `objects`: they write what differs, and delete nothing
that is wanted. -/
structure DiffOf (wanted objects : List M) (lines : List (Diff M B)) : Prop where
  brought : ∀ obj ∈ wanted, (∃ line ∈ lines, lineWrites line = some obj) ∨
    ∃ live ∈ objects, place live = place obj ∧ Managed.contentEq live obj = true
  writes : ∀ line ∈ lines, ∀ obj, lineWrites line = some obj → obj ∈ wanted
  deletes : ∀ line ∈ lines, lineWrites line = none → ∀ obj ∈ wanted, linePlace line ≠ some (place obj)
  aims : ∀ line ∈ lines, lineWrites line = none → ∀ at_, linePlace line = some at_ →
    ∃ live ∈ objects, place live = at_

/-- The lines delete whatever is not wanted. -/
def Clears (wanted objects : List M) (lines : List (Diff M B)) : Prop :=
  ∀ live ∈ objects, (∀ obj ∈ wanted, place obj ≠ place live) →
    ∃ line ∈ lines, linePlace line = some (place live)

/-- The objects are the wanted ones, by place and content. -/
structure Carries (wanted objects : List M) : Prop where
  present : ∀ obj ∈ wanted, ∃ live ∈ objects, place live = place obj ∧ Managed.contentEq live obj = true
  only : ∀ live ∈ objects, ∃ obj ∈ wanted, place live = place obj ∧ Managed.contentEq live obj = true

/-- Which objects there are matters, not their order. -/
theorem DiffOf.reordered {wanted objects listed : List M} {lines : List (Diff M B)}
    (diff : DiffOf wanted listed lines) (same : ∀ live, live ∈ listed ↔ live ∈ objects) :
    DiffOf wanted objects lines := by
  refine ⟨?_, diff.writes, diff.deletes, ?_⟩
  · intro obj inside
    refine (diff.brought obj inside).imp id ?_
    rintro ⟨live, isLive, here⟩
    exact ⟨live, (same live).mp isLive, here⟩
  · intro line member silent at_ acts
    obtain ⟨live, isLive, here⟩ := diff.aims line member silent at_ acts
    exact ⟨live, (same live).mp isLive, here⟩

/-- Whatever acts where an object is wanted writes that object. -/
theorem DiffOf.only_writes {wanted objects : List M} {lines : List (Diff M B)}
    (diff : DiffOf wanted objects lines) (agree : ∀ a ∈ wanted, ∀ b ∈ wanted, place a = place b → a = b)
    (obj : M) (inside : obj ∈ wanted) (line : Diff M B) (member : line ∈ lines)
    (at_ : linePlace line = some (place obj)) : lineWrites line = some obj := by
  cases writes : lineWrites line with
  | none => exact absurd at_ (diff.deletes line member writes obj inside)
  | some other =>
    have there := (linePlace_of_writes line other writes).symm.trans at_
    rw [agree other (diff.writes line member other writes) obj inside (Option.some.inj there)]

/-! ## The computed diff -/

section Computed
variable (wanted objects : List M)

theorem wantedLine_cases (obj : M) :
    lineWrites (wantedLine objects obj) = some obj ∨
      wantedLine objects obj = .unchanged (Managed.key obj) ∧
        ∃ live ∈ objects, Managed.key live = Managed.key obj ∧ Managed.contentEq live obj = true := by
  unfold wantedLine
  cases found : objects.find? fun live => Managed.key live = Managed.key obj with
  | none => exact Or.inl rfl
  | some live =>
    have member := List.mem_of_find?_eq_some found
    have key : Managed.key live = Managed.key obj := by simpa using List.find?_some found
    cases same : Managed.contentEq live obj with
    | false => exact Or.inl (by simp [same, lineWrites])
    | true => exact Or.inr ⟨by simp [same], live, member, key, same⟩

theorem presentLine_eq_some (live : M) (line : Diff M B) :
    presentLine wanted live = some line ↔
      (∀ obj ∈ wanted, Managed.key obj ≠ Managed.key live) ∧
        line = .delete (Managed.key live) (Managed.backend live) (Managed.uid live) := by
  unfold presentLine
  by_cases inside : ∃ obj ∈ wanted, Managed.key obj = Managed.key live
  · have found : (wanted.any fun obj => Managed.key obj = Managed.key live) = true := by simpa using inside
    obtain ⟨obj, member, same⟩ := inside
    simp only [found, if_true, reduceCtorEq, false_iff]
    exact fun both => both.1 obj member same
  · have free : ∀ obj ∈ wanted, Managed.key obj ≠ Managed.key live := fun obj member same =>
      inside ⟨obj, member, same⟩
    have missing : (wanted.any fun obj => Managed.key obj = Managed.key live) = false := by simpa using inside
    simp only [missing, Bool.false_eq_true, if_false, Option.some.injEq]
    constructor
    · exact fun same => ⟨free, same.symm⟩
    · exact fun both => both.2.symm

theorem mem_computeDiff (line : Diff M B) : line ∈ computeDiff wanted objects ↔
    (∃ obj ∈ wanted, line = wantedLine objects obj) ∨
      ∃ live ∈ objects, (∀ obj ∈ wanted, Managed.key obj ≠ Managed.key live) ∧
        line = .delete (Managed.key live) (Managed.backend live) (Managed.uid live) := by
  unfold computeDiff
  rw [List.mem_append, List.mem_map, List.mem_filterMap]
  simp only [presentLine_eq_some]
  refine or_congr ?_ Iff.rfl
  exact exists_congr fun obj => and_congr_right fun _ => eq_comm

/-- What a line acts on: the place of a wanted object, which it writes, or of a present one that is
not wanted. -/
theorem computeDiff_acts (line : Diff M B) (member : line ∈ computeDiff wanted objects) (at_ : B × ObjectKey)
    (acts : linePlace line = some at_) :
    (∃ obj ∈ wanted, place obj = at_ ∧ lineWrites line = some obj) ∨
      ∃ live ∈ objects, place live = at_ ∧ lineWrites line = none ∧
        ∀ obj ∈ wanted, Managed.key obj ≠ Managed.key live := by
  rcases (mem_computeDiff wanted objects line).mp member with ⟨obj, inside, rfl⟩ | ⟨live, isLive, free, rfl⟩
  · rcases wantedLine_cases objects obj with writes | ⟨unchanged, -⟩
    · rw [linePlace_of_writes _ obj writes] at acts
      exact Or.inl ⟨obj, inside, Option.some.inj acts, writes⟩
    · rw [unchanged] at acts
      cases acts
  · exact Or.inr ⟨live, isLive, Option.some.inj acts, rfl, free⟩

/-- The diff by key alone, where no object of another kind passes for a wanted one. -/
theorem diffOf_computeDiff (apart : ∀ obj ∈ wanted, ∀ live ∈ objects, Managed.key live = Managed.key obj →
    Managed.contentEq live obj = true → Managed.backend live = Managed.backend obj) :
    DiffOf wanted objects (computeDiff wanted objects) := by
  refine ⟨?_, ?_, ?_, ?_⟩
  · intro obj inside
    rcases wantedLine_cases objects obj with writes | ⟨-, live, isLive, key, same⟩
    · exact Or.inl ⟨_, (mem_computeDiff wanted objects _).mpr (Or.inl ⟨obj, inside, rfl⟩), writes⟩
    · exact Or.inr ⟨live, isLive, Prod.ext (apart obj inside live isLive key same) key, same⟩
  · intro line member obj writes
    rcases computeDiff_acts wanted objects line member _ (linePlace_of_writes line obj writes) with
      ⟨own, inside, -, same⟩ | ⟨-, -, -, silent, -⟩
    · rwa [← Option.some.inj (same.symm.trans writes)]
    · cases writes.symm.trans silent
  · intro line member silent obj inside acts
    rcases computeDiff_acts wanted objects line member _ acts with ⟨own, -, -, writes⟩ | ⟨live, -, here, -, free⟩
    · cases writes.symm.trans silent
    · exact free obj inside (congrArg Prod.snd here).symm
  · intro line member silent at_ acts
    rcases computeDiff_acts wanted objects line member at_ acts with ⟨own, -, -, writes⟩ | ⟨live, isLive, here, -⟩
    · cases writes.symm.trans silent
    · exact ⟨live, isLive, here⟩

variable (plain : ∀ obj ∈ wanted, ∀ live ∈ objects,
  Managed.key live = Managed.key obj → Managed.backend live = Managed.backend obj)
include plain

theorem clears_computeDiff : Clears wanted objects (computeDiff wanted objects) := by
  intro live isLive free
  have unwanted : ∀ obj ∈ wanted, Managed.key obj ≠ Managed.key live := fun obj inside same =>
    free obj inside (Prod.ext (plain obj inside live isLive same.symm).symm same)
  have deleted := (presentLine_eq_some wanted live _).mpr ⟨unwanted, rfl⟩
  exact ⟨_, List.mem_append_right _ (List.mem_filterMap.mpr ⟨live, isLive, deleted⟩), rfl⟩

/-- A diff against what is carried changes nothing. -/
theorem computeDiff_unchanged (agree : ∀ a ∈ wanted, ∀ b ∈ wanted, place a = place b → a = b)
    (carries : Carries wanted objects) (line : Diff M B) (member : line ∈ computeDiff wanted objects) :
    ∃ key, line = .unchanged key := by
  rcases List.mem_append.mp member with written | deleted
  · obtain ⟨obj, inside, rfl⟩ := List.mem_map.mp written
    obtain ⟨live, isLive, here, -⟩ := carries.present obj inside
    unfold wantedLine
    cases found : objects.find? fun live => Managed.key live = Managed.key obj with
    | none =>
      have key : Managed.key live = Managed.key obj := congrArg Prod.snd here
      exact absurd (List.find?_eq_none.mp found live isLive) (by simpa using key)
    | some current =>
      have isCurrent := List.mem_of_find?_eq_some found
      have key : Managed.key current = Managed.key obj := by simpa using List.find?_some found
      have at_ : place current = place obj := Prod.ext (plain obj inside current isCurrent key) key
      obtain ⟨other, inOther, there, same⟩ := carries.only current isCurrent
      rw [agree other inOther obj inside (there.symm.trans at_)] at same
      exact ⟨Managed.key obj, by simp [same]⟩
  · obtain ⟨live, isLive, deletes⟩ := List.mem_filterMap.mp deleted
    obtain ⟨free, -⟩ := (presentLine_eq_some wanted live line).mp deletes
    obtain ⟨obj, inside, here, -⟩ := carries.only live isLive
    exact absurd (congrArg Prod.snd here).symm (free obj inside)

end Computed

/-! ## A store of objects -/

/-- What stands at the place of an object is what a write of it leaves. -/
def Stands (leaves : M → M → Prop) (obj : M) (objects : List M) : Prop :=
  (∀ live ∈ objects, place live = place obj → leaves obj live) ∧ ∃ live ∈ objects, place live = place obj

/-- What a write and a delete make of the live objects: each acts at one place, and `leaves obj` says
what a write of `obj` may leave there. -/
structure ObjectStore (M : Type) {B : Type} [Managed M B] where
  write : M → List M → List M
  delete : ObjectKey → B → Option Text → List M → List M
  leaves : M → M → Prop
  write_elsewhere : ∀ obj objects live, place live ≠ place obj → (live ∈ write obj objects ↔ live ∈ objects)
  write_stands : ∀ obj objects, Stands leaves obj (write obj objects)
  write_distinct : ∀ obj objects, (objects.map place).Nodup → ((write obj objects).map place).Nodup
  delete_sublist : ∀ key backend uid objects, (delete key backend uid objects).Sublist objects
  delete_elsewhere : ∀ key backend uid objects live, place live ≠ (backend, key) → live ∈ objects →
    live ∈ delete key backend uid objects
  sameContent : ∀ obj live, leaves obj live → Managed.contentEq live obj = true

namespace ObjectStore
variable (store : ObjectStore M)

def applyLine (objects : List M) : Diff M B → List M
  | .create obj | .update obj => store.write obj objects
  | .delete key backend uid => store.delete key backend uid objects
  | .unchanged _ => objects

def applyLines (lines : List (Diff M B)) (objects : List M) : List M := lines.foldl store.applyLine objects

section Line
variable (objects : List M) (line : Diff M B) (live : M)

theorem mem_applyLine_elsewhere (apart : linePlace line ≠ some (place live)) :
    live ∈ store.applyLine objects line ↔ live ∈ objects := by
  cases line with
  | create obj | update obj =>
    exact store.write_elsewhere obj objects live fun same => apart (congrArg some same.symm)
  | delete key backend uid =>
    have kept : place live ≠ (backend, key) := fun same => apart (congrArg some same.symm)
    constructor
    · exact fun member => (store.delete_sublist key backend uid objects).subset member
    · exact store.delete_elsewhere key backend uid objects live kept
  | unchanged key => rfl

theorem applyLine_stands (obj : M) (writes : lineWrites line = some obj) :
    Stands store.leaves obj (store.applyLine objects line) := by
  cases line with
  | create written | update written =>
    cases writes
    exact store.write_stands obj objects
  | delete key backend uid => cases writes
  | unchanged key => cases writes

/-- What is there after a line was there before, or the line wrote it. -/
theorem mem_applyLine_cases (member : live ∈ store.applyLine objects line) :
    live ∈ objects ∨ ∃ obj, lineWrites line = some obj ∧ place live = place obj ∧ store.leaves obj live := by
  have written : ∀ obj, lineWrites line = some obj → (live ∈ objects ∨
      ∃ obj, lineWrites line = some obj ∧ place live = place obj ∧ store.leaves obj live) := by
    intro obj writes
    by_cases here : place live = place obj
    · exact Or.inr ⟨obj, writes, here, (store.applyLine_stands objects line obj writes).1 live member here⟩
    · have apart : linePlace line ≠ some (place live) := by
        rw [linePlace_of_writes line obj writes]
        exact fun same => here (Option.some.inj same).symm
      exact Or.inl ((store.mem_applyLine_elsewhere objects line live apart).mp member)
  cases line with
  | create obj | update obj => exact written obj rfl
  | delete key backend uid => exact Or.inl ((store.delete_sublist key backend uid objects).subset member)
  | unchanged key => exact Or.inl member

/-- A key that the line does not delete is kept. -/
theorem key_applyLine (key : ObjectKey) (spared : ∀ backend uid, line ≠ .delete key backend uid)
    (present : ∃ live ∈ objects, Managed.key live = key) :
    ∃ live ∈ store.applyLine objects line, Managed.key live = key := by
  obtain ⟨live, member, rfl⟩ := present
  by_cases acts : linePlace line = some (place live)
  · cases writes : lineWrites line with
    | some obj =>
      obtain ⟨found, inside, here⟩ := (store.applyLine_stands objects line obj writes).2
      have there := (linePlace_of_writes line obj writes).symm.trans acts
      exact ⟨found, inside, congrArg Prod.snd (here.trans (Option.some.inj there))⟩
    | none =>
      cases line with
      | create obj | update obj => cases writes
      | delete key backend uid =>
        have same : key = Managed.key live := congrArg Prod.snd (Option.some.inj acts)
        exact absurd (by rw [same]) (spared backend uid)
      | unchanged key => cases acts
  · exact ⟨live, (store.mem_applyLine_elsewhere objects line live acts).mpr member, rfl⟩

theorem nodup_applyLine (distinct : (objects.map place).Nodup) :
    ((store.applyLine objects line).map place).Nodup := by
  cases line with
  | create obj | update obj => exact store.write_distinct obj objects distinct
  | delete key backend uid => exact distinct.sublist ((store.delete_sublist key backend uid objects).map place)
  | unchanged key => exact distinct

end Line

section Lines
variable (lines : List (Diff M B)) (objects : List M)

theorem mem_applyLines_elsewhere (live : M) (apart : ∀ line ∈ lines, linePlace line ≠ some (place live)) :
    live ∈ store.applyLines lines objects ↔ live ∈ objects := by
  induction lines generalizing objects with
  | nil => rfl
  | cons line rest ih =>
    have later := ih (store.applyLine objects line) fun line member => apart line (List.mem_cons_of_mem _ member)
    exact later.trans (store.mem_applyLine_elsewhere objects line live (apart line List.mem_cons_self))

theorem applyLines_unchanged (silent : ∀ line ∈ lines, linePlace line = none) :
    store.applyLines lines objects = objects := by
  induction lines with
  | nil => rfl
  | cons line rest ih =>
    have first := silent line List.mem_cons_self
    have later := ih fun line member => silent line (List.mem_cons_of_mem _ member)
    cases line with
    | create obj => cases first
    | update obj => cases first
    | delete key backend uid => cases first
    | unchanged key => exact later

/-- What is there after the lines was there before, or one of them wrote it. -/
theorem mem_applyLines_cases (live : M) (member : live ∈ store.applyLines lines objects) :
    live ∈ objects ∨
      ∃ line ∈ lines, ∃ obj, lineWrites line = some obj ∧ place live = place obj ∧ store.leaves obj live := by
  induction lines generalizing objects with
  | nil => exact Or.inl member
  | cons line rest ih =>
    rcases ih (store.applyLine objects line) member with here | ⟨writer, later, written⟩
    · refine (store.mem_applyLine_cases objects line live here).imp id ?_
      exact fun written => ⟨line, List.mem_cons_self, written⟩
    · exact Or.inr ⟨writer, List.mem_cons_of_mem _ later, written⟩

theorem nodup_applyLines (distinct : (objects.map place).Nodup) :
    ((store.applyLines lines objects).map place).Nodup := by
  induction lines generalizing objects with
  | nil => exact distinct
  | cons line rest ih => exact ih _ (store.nodup_applyLine objects line distinct)

/-- A place that only writes of one object act on ends up with that object. -/
theorem applyLines_stands (obj : M)
    (only : ∀ line ∈ lines, linePlace line = some (place obj) → lineWrites line = some obj)
    (somewhere : Stands store.leaves obj objects ∨ ∃ line ∈ lines, linePlace line = some (place obj)) :
    Stands store.leaves obj (store.applyLines lines objects) := by
  induction lines generalizing objects with
  | nil =>
    rcases somewhere with stands | ⟨line, member, -⟩
    · exact stands
    · cases member
  | cons line rest ih =>
    have onlyRest : ∀ line ∈ rest, linePlace line = some (place obj) → lineWrites line = some obj :=
      fun line member => only line (List.mem_cons_of_mem _ member)
    by_cases here : linePlace line = some (place obj)
    · exact ih _ onlyRest (Or.inl (store.applyLine_stands objects line obj (only line List.mem_cons_self here)))
    · have frame : ∀ live : M, place live = place obj →
          (live ∈ store.applyLine objects line ↔ live ∈ objects) := fun live at_ =>
        store.mem_applyLine_elsewhere objects line live (by rwa [at_])
      rcases somewhere with ⟨all, live, member, at_⟩ | ⟨writer, member, acts⟩
      · refine ih _ onlyRest (Or.inl ⟨?_, live, (frame live at_).mpr member, at_⟩)
        exact fun found inside same => all found ((frame found same).mp inside) same
      · rcases List.mem_cons.mp member with rfl | later
        · exact absurd acts here
        · exact ih _ onlyRest (Or.inr ⟨writer, later, acts⟩)

/-- A key that is there and spared, or written, is there afterwards. -/
theorem key_applyLines (key : ObjectKey) (spared : ∀ line ∈ lines, ∀ backend uid, line ≠ .delete key backend uid)
    (present : (∃ live ∈ objects, Managed.key live = key) ∨
      ∃ line ∈ lines, ∃ obj, lineWrites line = some obj ∧ Managed.key obj = key) :
    ∃ live ∈ store.applyLines lines objects, Managed.key live = key := by
  induction lines generalizing objects with
  | nil => exact present.resolve_right (by simp)
  | cons line rest ih =>
    refine ih (store.applyLine objects line) (fun other member => spared other (List.mem_cons_of_mem _ member)) ?_
    rcases present with before | ⟨writer, member, obj, writes, named⟩
    · exact Or.inl (store.key_applyLine objects line key (spared line List.mem_cons_self) before)
    · rcases List.mem_cons.mp member with rfl | later
      · obtain ⟨live, inside, here⟩ := (store.applyLine_stands objects writer obj writes).2
        exact Or.inl ⟨live, inside, (congrArg Prod.snd here).trans named⟩
      · exact Or.inr ⟨writer, later, obj, writes, named⟩

/-- What one line takes away and no line writes is gone. -/
theorem not_mem_applyLines (live : M) (line : Diff M B) (inside : line ∈ lines)
    (gone : ∀ objects, live ∉ store.applyLine objects line)
    (unwritten : ∀ line ∈ lines, ∀ obj, lineWrites line = some obj → place obj ≠ place live) :
    live ∉ store.applyLines lines objects := by
  obtain ⟨before, after, rfl⟩ := List.append_of_mem inside
  unfold applyLines
  rw [List.foldl_append, List.foldl_cons]
  intro member
  rcases store.mem_applyLines_cases after _ live member with still | ⟨writer, later, obj, writes, here, -⟩
  · exact gone _ still
  · exact unwritten writer (by simp [later]) obj writes here.symm

end Lines

/-- The place of a wanted object has its content, written or already right; the lines may be those
of a part of the objects. -/
theorem applyLines_wanted {wanted listed objects : List M} {lines : List (Diff M B)} (diff : DiffOf wanted listed lines)
    (agree : ∀ a ∈ wanted, ∀ b ∈ wanted, place a = place b → a = b) (within : listed ⊆ objects)
    (distinct : (objects.map place).Nodup) (obj : M) (inside : obj ∈ wanted) :
    (∀ live ∈ store.applyLines lines objects, place live = place obj → Managed.contentEq live obj = true) ∧
      ∃ live ∈ store.applyLines lines objects, place live = place obj ∧ Managed.contentEq live obj = true := by
  have only := diff.only_writes agree obj inside
  by_cases written : ∃ line ∈ lines, linePlace line = some (place obj)
  · obtain ⟨all, live, member, here⟩ := store.applyLines_stands lines objects obj only (Or.inr written)
    have content := fun live member here => store.sameContent obj live (all live member here)
    exact ⟨content, live, member, here, content live member here⟩
  · have frame : ∀ live : M, place live = place obj → (live ∈ store.applyLines lines objects ↔ live ∈ objects) := by
      intro live here
      apply store.mem_applyLines_elsewhere
      intro line member at_
      exact written ⟨line, member, at_.trans (congrArg some here)⟩
    obtain ⟨live, isLive, here, same⟩ := (diff.brought obj inside).resolve_left fun ⟨line, member, writes⟩ =>
      written ⟨line, member, linePlace_of_writes line obj writes⟩
    refine ⟨?_, live, (frame live here).mpr (within isLive), here, same⟩
    intro other member there
    rw [List.inj_on_of_nodup_map distinct ((frame other there).mp member) (within isLive) (there.trans here.symm)]
    exact same

end ObjectStore

/-! ## The lines applied -/

section Stored
variable [DecidableEq B] (storage : Storage M)

def Storage.write (obj : M) (objects : List M) : List M :=
  (objects.filter fun live => place live ≠ place obj) ++ [storage.stored obj]

theorem Storage.write_elsewhere (obj : M) (objects : List M) (live : M) (other : place live ≠ place obj) :
    live ∈ storage.write obj objects ↔ live ∈ objects := by
  have fresh : live ≠ storage.stored obj := fun same => other (same ▸ storage.samePlace obj)
  simp [write, other, fresh]

theorem Storage.write_stands (obj : M) (objects : List M) :
    Stands (fun obj live => live = storage.stored obj) obj (storage.write obj objects) := by
  refine ⟨?_, storage.stored obj, by simp [write], storage.samePlace obj⟩
  intro live member here
  simpa [write, here] using member

theorem Storage.write_distinct (obj : M) (objects : List M) (distinct : (objects.map place).Nodup) :
    ((storage.write obj objects).map place).Nodup := by
  rw [write, List.map_append, List.nodup_append]
  refine ⟨distinct.sublist (List.filter_sublist.map _), by simp, ?_⟩
  intro at_ held other single same
  obtain ⟨live, inside, rfl⟩ := List.mem_map.mp held
  simp only [List.map_cons, List.map_nil, List.mem_singleton] at single
  have away := of_decide_eq_true (List.mem_filter.mp inside).2
  exact away (same.trans (single.trans (storage.samePlace obj)))

/-- A delete by name. -/
def deleteAt (key : ObjectKey) (backend : B) (_uid : Option Text) (objects : List M) : List M :=
  objects.filter fun live => place live ≠ (backend, key)

theorem deleteAt_elsewhere (key : ObjectKey) (backend : B) (uid : Option Text) (objects : List M) (live : M)
    (other : place live ≠ (backend, key)) (member : live ∈ objects) : live ∈ deleteAt key backend uid objects := by
  simp [deleteAt, member, other]

omit [DecidableEq B] in
theorem Storage.leaves_content (obj live : M) (left : live = storage.stored obj) :
    Managed.contentEq live obj = true := by
  rw [left]
  exact storage.sameContent obj

def Storage.store : ObjectStore M where
  write := storage.write
  delete := deleteAt
  leaves obj live := live = storage.stored obj
  write_elsewhere := storage.write_elsewhere
  write_stands := storage.write_stands
  write_distinct := storage.write_distinct
  delete_sublist _ _ _ _ := List.filter_sublist
  delete_elsewhere := deleteAt_elsewhere
  sameContent := storage.leaves_content

section Lines
variable (lines : List (Diff M B)) (objects : List M)

/-- A place that only deletes act on ends up empty. -/
theorem mem_applyLines_deleted (live : M) (deleted : ∃ line ∈ lines, linePlace line = some (place live))
    (only : ∀ line ∈ lines, linePlace line = some (place live) → lineWrites line = none) :
    live ∉ storage.store.applyLines lines objects := by
  obtain ⟨line, member, acts⟩ := deleted
  refine storage.store.not_mem_applyLines lines objects live line member ?_ ?_
  · have nothing := only line member acts
    cases line with
    | create obj | update obj => cases nothing
    | delete key backend uid =>
      intro objects still
      exact of_decide_eq_true (List.mem_filter.mp still).2 (Option.some.inj acts).symm
    | unchanged key => cases acts
  · intro writer inside obj writes here
    have silent := only writer inside ((linePlace_of_writes writer obj writes).trans (congrArg some here))
    cases writes.symm.trans silent

end Lines

section Bring
variable {wanted objects : List M} {lines : List (Diff M B)} (diff : DiffOf wanted objects lines)
  (agree : ∀ a ∈ wanted, ∀ b ∈ wanted, place a = place b → a = b) (distinct : (objects.map place).Nodup)
include diff agree

include distinct

/-- Applied, the lines leave exactly what is wanted. -/
theorem DiffOf.carries (clears : Clears wanted objects lines) :
    Carries wanted (storage.store.applyLines lines objects) := by
  have brought := storage.store.applyLines_wanted diff agree (List.Subset.refl objects) distinct
  refine ⟨fun obj inside => (brought obj inside).2, ?_⟩
  intro live member
  by_cases wantedHere : ∃ obj ∈ wanted, place obj = place live
  · obtain ⟨obj, inside, here⟩ := wantedHere
    exact ⟨obj, inside, here.symm, (brought obj inside).1 live member here.symm⟩
  · -- Nothing is wanted here: the place was empty, or a line emptied it.
    exfalso
    have free : ∀ obj ∈ wanted, place obj ≠ place live := fun obj inside here => wantedHere ⟨obj, inside, here⟩
    have silent : ∀ line ∈ lines, linePlace line = some (place live) → lineWrites line = none := by
      intro line inLines at_
      cases writes : lineWrites line with
      | none => rfl
      | some obj =>
        have there := (linePlace_of_writes line obj writes).symm.trans at_
        exact absurd (Option.some.inj there) (free obj (diff.writes line inLines obj writes))
    by_cases touched : ∃ line ∈ lines, linePlace line = some (place live)
    · exact mem_applyLines_deleted storage lines objects live touched silent member
    · have before := (storage.store.mem_applyLines_elsewhere lines objects live
        fun line inLines at_ => touched ⟨line, inLines, at_⟩).mp member
      exact touched (clears live before free)

end Bring

end Stored

end Apply

end WeeboSi.Chassis
