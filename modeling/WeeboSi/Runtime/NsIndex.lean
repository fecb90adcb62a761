import WeeboSi.Lib.Run
import WeeboSi.Lib.TextMap

/-!
# The namespace index beside a watch cache

Source: crates/weebo-si-runtime/src/ns_index.rs:24-130. The cache is the reflector of `kube`: what is known
of it is what its documentation promises, an object a reference and a re-list that is swapped in
whole. The index sees every event before the cache does, and a reader may come between the two.
-/
namespace WeeboSi.Runtime
open WeeboSi.Lib

/-- The name of an object of one kind. -/
structure ObjectRef where
  name : Text
  namespaceName : Option Text
  deriving DecidableEq, Repr

/-- The namespace a reference is indexed under. -/
def ObjectRef.place (ref : ObjectRef) : Text := ref.namespaceName.getD []

inductive WatchEvent (K : Type) where
  | apply (obj : K)
  | delete (obj : K)
  | init
  | initApply (obj : K)
  | initDone

/-- A watch cache: what it answers for a reference, and what a re-list has collected so far. -/
structure Reflector (K : Type) (refOf : K → ObjectRef) where
  Store : Type
  start : Store
  step : Store → WatchEvent K → Store
  get : Store → ObjectRef → Option K
  pending : Store → ObjectRef → Option K
  get_start : ∀ ref, get start ref = none
  pending_start : ∀ ref, pending start ref = none
  get_apply : ∀ s obj ref, get (step s (.apply obj)) ref = if ref = refOf obj then some obj else get s ref
  pending_apply : ∀ s obj, pending (step s (.apply obj)) = pending s
  get_delete : ∀ s obj ref, get (step s (.delete obj)) ref = if ref = refOf obj then none else get s ref
  pending_delete : ∀ s obj, pending (step s (.delete obj)) = pending s
  get_init : ∀ s, get (step s .init) = get s
  pending_init : ∀ s ref, pending (step s .init) ref = none
  get_initApply : ∀ s obj, get (step s (.initApply obj)) = get s
  pending_initApply : ∀ s obj ref,
    pending (step s (.initApply obj)) ref = if ref = refOf obj then some obj else pending s ref
  get_initDone : ∀ s, get (step s .initDone) = pending s
  pending_initDone : ∀ s ref, pending (step s .initDone) ref = none

/-! ## References by namespace -/

/-- The references a namespace has; a set is a list without repetition. -/
abbrev Refs := TextMap (List ObjectRef)

namespace Refs

def listed (refs : Refs) (namespaceName : Text) : List ObjectRef := (refs.get namespaceName).getD []

def add (refs : Refs) (ref : ObjectRef) : Refs := refs.insert ref.place ((refs.listed ref.place).insert ref)

/-- A namespace without references is dropped. -/
def remove (refs : Refs) (ref : ObjectRef) : Refs :=
  match refs.get ref.place with
  | none => refs
  | some keys =>
    let kept := keys.filter (· ≠ ref)
    if kept = [] then refs.without [ref.place] else refs.insert ref.place kept

/-- Every reference stands under its own namespace, once. -/
structure Sorted (refs : Refs) : Prop where
  place : ∀ namespaceName, ∀ ref ∈ refs.listed namespaceName, ref.place = namespaceName
  once : ∀ namespaceName, (refs.listed namespaceName).Nodup

theorem listed_insert (refs : Refs) (namespaceName other : Text) (keys : List ObjectRef) :
    Refs.listed (refs.insert namespaceName keys) other = if other = namespaceName then keys else refs.listed other := by
  unfold listed
  rw [TextMap.get_insert]
  split <;> rfl

theorem listed_add (refs : Refs) (ref : ObjectRef) (namespaceName : Text) :
    (refs.add ref).listed namespaceName =
      if namespaceName = ref.place then (refs.listed namespaceName).insert ref else refs.listed namespaceName := by
  rw [add, listed_insert]
  split
  · next same => rw [same]
  · rfl

theorem listed_remove (refs : Refs) (ref : ObjectRef) (namespaceName : Text) :
    (refs.remove ref).listed namespaceName =
      if namespaceName = ref.place then (refs.listed namespaceName).filter (· ≠ ref) else refs.listed namespaceName := by
  unfold remove
  by_cases same : namespaceName = ref.place
  · subst same
    rw [if_pos rfl]
    cases found : refs.get ref.place with
    | none => simp [listed, found]
    | some keys =>
      have before : refs.listed ref.place = keys := by simp [listed, found]
      rw [before]
      simp only
      split
      · next none_ =>
        rw [none_]
        simp [listed, TextMap.get_without]
      · rw [listed_insert, if_pos rfl]
  · rw [if_neg same]
    cases refs.get ref.place with
    | none => rfl
    | some keys =>
      simp only
      split
      · simp [listed, TextMap.get_without, same]
      · rw [listed_insert, if_neg same]

theorem sorted_empty : Sorted (.empty : Refs) :=
  ⟨fun _ _ member => absurd member List.not_mem_nil, fun _ => List.nodup_nil⟩

theorem Sorted.add {refs : Refs} (sorted : Sorted refs) (ref : ObjectRef) : Sorted (refs.add ref) := by
  constructor
  · intro namespaceName other member
    rw [listed_add] at member
    split at member
    · next same =>
      rcases List.mem_insert_iff.mp member with rfl | before
      · exact same.symm
      · exact sorted.place namespaceName other before
    · exact sorted.place namespaceName other member
  · intro namespaceName
    rw [listed_add]
    split
    · exact (sorted.once namespaceName).insert
    · exact sorted.once namespaceName

theorem Sorted.remove {refs : Refs} (sorted : Sorted refs) (ref : ObjectRef) : Sorted (refs.remove ref) := by
  constructor
  · intro namespaceName other member
    rw [listed_remove] at member
    split at member
    · exact sorted.place namespaceName other (List.mem_filter.mp member).1
    · exact sorted.place namespaceName other member
  · intro namespaceName
    rw [listed_remove]
    split
    · exact (sorted.once namespaceName).filter _
    · exact sorted.once namespaceName

theorem mem_listed_add (refs : Refs) (ref other : ObjectRef) :
    other ∈ (refs.add ref).listed other.place ↔ other = ref ∨ other ∈ refs.listed other.place := by
  rw [listed_add]
  split
  · exact List.mem_insert_iff
  · next away => exact (or_iff_right fun same => away (by rw [same])).symm

theorem mem_listed_remove (refs : Refs) (ref other : ObjectRef) :
    other ∈ (refs.remove ref).listed other.place ↔ other ≠ ref ∧ other ∈ refs.listed other.place := by
  rw [listed_remove]
  split
  · simp [and_comm]
  · next away => exact (and_iff_right fun same => away (by rw [same])).symm

end Refs

/-! ## The index -/

structure NsIndex where
  live : Refs
  buffer : Option Refs

namespace NsIndex
variable {K : Type} (refOf : K → ObjectRef)

def new : NsIndex := ⟨.empty, none⟩

def observe (index : NsIndex) : WatchEvent K → NsIndex
  | .apply obj => { index with live := index.live.add (refOf obj) }
  | .delete obj => { index with live := index.live.remove (refOf obj) }
  | .init => { index with buffer := some .empty }
  | .initApply obj => { index with buffer := some ((index.buffer.getD .empty).add (refOf obj)) }
  | .initDone =>
    match index.buffer with
    | none => index
    | some buffer => ⟨buffer, none⟩

/-- The index holds the references, the cache the objects. -/
def objectsIn (get : ObjectRef → Option K) (index : NsIndex) (namespaceName : Text) : List K :=
  (index.live.listed namespaceName).filterMap get

end NsIndex

/-! ## The index beside the cache -/

section Beside
variable {K : Type} {refOf : K → ObjectRef} (cache : Reflector K refOf)

/-- The index knows every reference the cache answers for, or is collecting. -/
structure Covers (index : NsIndex) (store : cache.Store) : Prop where
  sorted : index.live.Sorted
  sortedBuffer : ∀ buffer ∈ index.buffer, Refs.Sorted buffer
  live : ∀ ref, (cache.get store ref).isSome = true → ref ∈ index.live.listed ref.place
  buffer : ∀ ref, (cache.pending store ref).isSome = true → ∃ refs ∈ index.buffer, ref ∈ refs.listed ref.place
  keyed : ∀ ref obj, cache.get store ref = some obj → refOf obj = ref
  keyedBuffer : ∀ ref obj, cache.pending store ref = some obj → refOf obj = ref

theorem covers_start : Covers cache .new cache.start where
  sorted := Refs.sorted_empty
  sortedBuffer := by
    intro buffer member
    cases member
  live := by
    intro ref held
    rw [cache.get_start] at held
    cases held
  buffer := by
    intro ref held
    rw [cache.pending_start] at held
    cases held
  keyed := by
    intro ref obj held
    rw [cache.get_start] at held
    cases held
  keyedBuffer := by
    intro ref obj held
    rw [cache.pending_start] at held
    cases held

section Events
variable {cache} {index : NsIndex} {store : cache.Store}

/-- What is live gains the object, what is collected is left alone. -/
theorem Covers.apply (covers : Covers cache index store) (obj : K) :
    Covers cache (index.observe refOf (.apply obj)) (cache.step store (.apply obj)) where
  sorted := covers.sorted.add _
  sortedBuffer := covers.sortedBuffer
  live := by
    intro ref held
    rw [cache.get_apply] at held
    refine (Refs.mem_listed_add index.live (refOf obj) ref).mpr ?_
    split at held
    · next same => exact Or.inl same
    · exact Or.inr (covers.live ref held)
  buffer := by
    rw [cache.pending_apply]
    exact covers.buffer
  keyed := by
    intro ref found held
    rw [cache.get_apply] at held
    split at held
    · next same =>
      cases held
      exact same.symm
    · exact covers.keyed ref found held
  keyedBuffer := by
    rw [cache.pending_apply]
    exact covers.keyedBuffer

theorem Covers.delete (covers : Covers cache index store) (obj : K) :
    Covers cache (index.observe refOf (.delete obj)) (cache.step store (.delete obj)) where
  sorted := covers.sorted.remove _
  sortedBuffer := covers.sortedBuffer
  live := by
    intro ref held
    rw [cache.get_delete] at held
    split at held
    · cases held
    · next other => exact (Refs.mem_listed_remove index.live (refOf obj) ref).mpr ⟨other, covers.live ref held⟩
  buffer := by
    rw [cache.pending_delete]
    exact covers.buffer
  keyed := by
    intro ref found held
    rw [cache.get_delete] at held
    split at held
    · cases held
    · exact covers.keyed ref found held
  keyedBuffer := by
    rw [cache.pending_delete]
    exact covers.keyedBuffer

/-- A re-list starts over, also when the last one never ended. -/
theorem Covers.init (covers : Covers cache index store) :
    Covers cache (index.observe refOf .init) (cache.step store .init) where
  sorted := covers.sorted
  sortedBuffer := by
    intro buffer member
    cases member
    exact Refs.sorted_empty
  live := by
    rw [cache.get_init]
    exact covers.live
  buffer := by
    intro ref held
    rw [cache.pending_init] at held
    cases held
  keyed := by
    rw [cache.get_init]
    exact covers.keyed
  keyedBuffer := by
    intro ref found held
    rw [cache.pending_init] at held
    cases held

/-- What was collected so far, nothing when no re-list was announced. -/
theorem Covers.collected (covers : Covers cache index store) : Refs.Sorted (index.buffer.getD .empty) := by
  cases collected : index.buffer with
  | none => exact Refs.sorted_empty
  | some buffer => exact covers.sortedBuffer buffer collected

theorem Covers.initApply (covers : Covers cache index store) (obj : K) :
    Covers cache (index.observe refOf (.initApply obj)) (cache.step store (.initApply obj)) where
  sorted := covers.sorted
  sortedBuffer := by
    intro buffer member
    cases member
    exact covers.collected.add _
  live := by
    rw [cache.get_initApply]
    exact covers.live
  buffer := by
    intro ref held
    rw [cache.pending_initApply] at held
    refine ⟨_, rfl, (Refs.mem_listed_add _ (refOf obj) ref).mpr ?_⟩
    split at held
    · next same => exact Or.inl same
    · obtain ⟨refs, collected, member⟩ := covers.buffer ref held
      rw [Option.mem_def] at collected
      exact Or.inr (by rwa [collected])
  keyed := by
    rw [cache.get_initApply]
    exact covers.keyed
  keyedBuffer := by
    intro ref found held
    rw [cache.pending_initApply] at held
    split at held
    · next same =>
      cases held
      exact same.symm
    · exact covers.keyedBuffer ref found held

/-- What was collected becomes what is live, in both at once. Without a re-list the index keeps what it
has, and the cache then has nothing. -/
theorem Covers.initDone (covers : Covers cache index store) :
    Covers cache (index.observe refOf .initDone) (cache.step store .initDone) where
  sorted := by
    cases collected : index.buffer with
    | none => simpa only [NsIndex.observe, collected] using covers.sorted
    | some buffer => simpa only [NsIndex.observe, collected] using covers.sortedBuffer buffer collected
  sortedBuffer := by
    intro buffer member
    cases collected : index.buffer <;> simp [NsIndex.observe, collected] at member
  live := by
    intro ref held
    rw [cache.get_initDone] at held
    obtain ⟨refs, member, listed⟩ := covers.buffer ref held
    rw [Option.mem_def] at member
    simpa only [NsIndex.observe, member] using listed
  buffer := by
    intro ref held
    rw [cache.pending_initDone] at held
    cases held
  keyed := by
    rw [cache.get_initDone]
    exact covers.keyedBuffer
  keyedBuffer := by
    intro ref obj held
    rw [cache.pending_initDone] at held
    cases held

/-- One event, seen by both. -/
theorem Covers.step (covers : Covers cache index store) (event : WatchEvent K) :
    Covers cache (index.observe refOf event) (cache.step store event) := by
  cases event with
  | apply obj => exact covers.apply obj
  | delete obj => exact covers.delete obj
  | init => exact covers.init
  | initApply obj => exact covers.initApply obj
  | initDone => exact covers.initDone

end Events

/-- What the index reads of the cache is what the cache has and the index lists. -/
theorem mem_objectsIn {index : NsIndex} (sorted : index.live.Sorted) (get : ObjectRef → Option K)
    (namespaceName : Text) (obj : K) : obj ∈ index.objectsIn get namespaceName ↔
      ∃ ref, ref.place = namespaceName ∧ ref ∈ index.live.listed ref.place ∧ get ref = some obj := by
  rw [NsIndex.objectsIn, List.mem_filterMap]
  constructor
  · rintro ⟨ref, member, held⟩
    have place := sorted.place namespaceName ref member
    exact ⟨ref, place, by rwa [place], held⟩
  · rintro ⟨ref, rfl, member, held⟩
    exact ⟨ref, member, held⟩

/-! ## Runs -/

/-- The watch task: `inFlight` is the event the index has seen and the cache has not. -/
structure Watch where
  index : NsIndex
  store : cache.Store
  inFlight : Option (WatchEvent K)

inductive WatchStep (K : Type) where
  | observe (event : WatchEvent K)
  | reflect

variable {cache} in
/-- The next event is only taken when the last one went through. -/
def watchStep (s : Watch cache) : WatchStep K → Watch cache
  | .observe event =>
    match s.inFlight with
    | some _ => s
    | none => { s with index := s.index.observe refOf event, inFlight := some event }
  | .reflect =>
    match s.inFlight with
    | none => s
    | some event => { s with store := cache.step s.store event, inFlight := none }

def watchStart : Watch cache := ⟨.new, cache.start, none⟩

/-- The cache once the event in flight has gone through. -/
def Watch.reflected (s : Watch cache) : cache.Store :=
  match s.inFlight with
  | none => s.store
  | some event => cache.step s.store event

/-- The objects of a namespace, as the index and the cache give them now. -/
def Watch.objectsIn (s : Watch cache) (namespaceName : Text) : List K :=
  s.index.objectsIn (cache.get s.store) namespaceName

structure WatchSound (s : Watch cache) : Prop where
  ahead : Covers cache s.index (s.reflected cache)
  keyed : ∀ ref obj, cache.get s.store ref = some obj → refOf obj = ref

theorem watchStep_sound (s : Watch cache) (event : WatchStep K) (sound : WatchSound cache s) :
    WatchSound cache (watchStep s event) := by
  cases event with
  | observe event =>
    cases inFlight : s.inFlight with
    | some pending => simpa [watchStep, inFlight] using sound
    | none =>
      have now : s.reflected cache = s.store := by rw [Watch.reflected, inFlight]
      have covers := sound.ahead
      rw [now] at covers
      simp only [watchStep, inFlight]
      exact ⟨covers.step event, sound.keyed⟩
  | reflect =>
    cases inFlight : s.inFlight with
    | none => simpa [watchStep, inFlight] using sound
    | some pending =>
      have covers := sound.ahead
      have next : s.reflected cache = cache.step s.store pending := by rw [Watch.reflected, inFlight]
      rw [next] at covers
      simp only [watchStep, inFlight]
      exact ⟨covers, covers.keyed⟩

/-- In every state of every run a namespace is read as the cache has it: nothing the cache does not
hold there, each object at most once, and everything that the event in flight does not take away. -/
structure ReadsAsHeld (s : Watch cache) (namespaceName : Text) : Prop where
  held : ∀ obj ∈ s.objectsIn cache namespaceName,
    (refOf obj).place = namespaceName ∧ cache.get s.store (refOf obj) = some obj
  all : ∀ obj, (refOf obj).place = namespaceName → cache.get s.store (refOf obj) = some obj →
    (cache.get (s.reflected cache) (refOf obj)).isSome = true → obj ∈ s.objectsIn cache namespaceName
  once : ((s.objectsIn cache namespaceName).map refOf).Nodup

theorem objectsIn_reads_as_held (steps : List (WatchStep K)) (namespaceName : Text) :
    ReadsAsHeld cache (after watchStep (watchStart cache) steps) namespaceName := by
  have sound : WatchSound cache (after watchStep (watchStart cache) steps) := by
    refine after_of_invariant watchStep (WatchSound cache) (fun _ _ => True)
      (fun s event kept _ => watchStep_sound cache s event kept) _ ?_ steps (along_of_forall _ _ _ (by simp) _)
    refine ⟨covers_start cache, ?_⟩
    exact (covers_start cache).keyed
  generalize after watchStep (watchStart cache) steps = s at sound
  have sorted := sound.ahead.sorted
  refine ⟨?_, ?_, ?_⟩
  · intro obj member
    obtain ⟨ref, place, -, isHeld⟩ := (mem_objectsIn sorted _ namespaceName obj).mp member
    rw [sound.keyed ref obj isHeld]
    exact ⟨place, isHeld⟩
  · intro obj place isHeld stays
    exact (mem_objectsIn sorted _ namespaceName obj).mpr ⟨refOf obj, place, sound.ahead.live _ stays, isHeld⟩
  · -- A reference is listed once, and the object the cache answers with has that reference.
    have refs : ((s.index.live.listed namespaceName).filterMap (cache.get s.store)).map refOf =
        (s.index.live.listed namespaceName).filter fun ref => (cache.get s.store ref).isSome := by
      induction s.index.live.listed namespaceName with
      | nil => rfl
      | cons ref rest ih =>
        cases isHeld : cache.get s.store ref with
        | none => simpa [isHeld] using ih
        | some obj => simpa [isHeld, sound.keyed ref obj isHeld] using ih
    rw [Watch.objectsIn, NsIndex.objectsIn, refs]
    exact (sorted.once namespaceName).filter _

end Beside

/-! ## A cache -/

/-- Two maps, the second one being collected. -/
def mapStep {K : Type} (refOf : K → ObjectRef) (s : (ObjectRef → Option K) × (ObjectRef → Option K)) :
    WatchEvent K → (ObjectRef → Option K) × (ObjectRef → Option K)
  | .apply obj => (fun ref => if ref = refOf obj then some obj else s.1 ref, s.2)
  | .delete obj => (fun ref => if ref = refOf obj then none else s.1 ref, s.2)
  | .init => (s.1, fun _ => none)
  | .initApply obj => (s.1, fun ref => if ref = refOf obj then some obj else s.2 ref)
  | .initDone => (s.2, fun _ => none)

def mapReflector {K : Type} (refOf : K → ObjectRef) : Reflector K refOf where
  Store := (ObjectRef → Option K) × (ObjectRef → Option K)
  start := (fun _ => none, fun _ => none)
  step := mapStep refOf
  get s := s.1
  pending s := s.2
  get_start _ := rfl
  pending_start _ := rfl
  get_apply _ _ _ := rfl
  pending_apply _ _ := rfl
  get_delete _ _ _ := rfl
  pending_delete _ _ := rfl
  get_init _ := rfl
  pending_init _ _ := rfl
  get_initApply _ _ := rfl
  pending_initApply _ _ _ := rfl
  get_initDone _ := rfl
  pending_initDone _ _ := rfl

/-- A re-list under way with one object held and another one being deleted: the index has dropped the
deleted one before the cache has, and nothing of what is collected is read yet. -/
theorem objectsIn_reads_as_held_relist :
    let s := after watchStep (watchStart (mapReflector id))
      [.observe (.apply ⟨['a'], some ['n']⟩), .reflect, .observe (.apply ⟨['b'], some ['n']⟩), .reflect,
        .observe .init, .reflect, .observe (.initApply ⟨['c'], some ['n']⟩), .reflect,
        .observe (.delete ⟨['b'], some ['n']⟩)]
    s.objectsIn _ ['n'] = [⟨['a'], some ['n']⟩] ∧ ReadsAsHeld (mapReflector id) s ['n'] :=
  ⟨rfl, objectsIn_reads_as_held (mapReflector id) _ _⟩

end WeeboSi.Runtime
