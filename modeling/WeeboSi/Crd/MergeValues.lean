import WeeboSi.Crd.Template
import WeeboSi.Lib.JsonOrder
import WeeboSi.Lib.TextMap

/-!
# Values laid over values

Source: crates/weebo-si-crd/src/template.rs:216-259. A value of `serde_json` keeps the members of
its objects in the order of their keys.
-/
namespace WeeboSi.Crd
open WeeboSi.Lib

structure JsonValue where
  json : Json
  ordered : json.Ordered

/-! ## One level -/

/-- What stands under a key of the overlay after the merge. -/
def laidOver (existing : Option Json) (value : Json) : Json :=
  (existing.map fun base => mergeValues base value).getD value

theorem mergeFields_cons (fields : Members) (key : Text) (value : Json) (overlay : Members) :
    mergeFields fields ((key, value) :: overlay) =
      mergeFields (setMember key (laidOver (fields.lookup key) value) fields) overlay := by
  rw [mergeFields]
  cases fields.lookup key <;> rfl

theorem mergeValues_other (base overlay : Json) (other : overlay.isObject = false) :
    mergeValues base overlay = overlay := by
  cases overlay with
  | object members => cases other
  | _ => simp only [mergeValues]

theorem mergeValues_replaced (base : Json) (overlay : Members) (other : base.isObject = false) :
    mergeValues base (.object overlay) = .object overlay := by
  cases base with
  | object members => cases other
  | _ => simp only [mergeValues]

theorem mergeValues_object (fields overlay : Members) :
    mergeValues (.object fields) (.object overlay) = .object (mergeFields fields overlay) := by
  simp only [mergeValues]

/-- Each key of the overlay is laid over what the base has, and the other keys stay. -/
theorem lookup_mergeFields (fields overlay : Members) (distinct : (overlay.map Prod.fst).Nodup) (key : Text) :
    (mergeFields fields overlay).lookup key =
      ((overlay.lookup key).map (laidOver (fields.lookup key))).or (fields.lookup key) := by
  induction overlay generalizing fields with
  | nil => simp [mergeFields]
  | cons member overlay ih =>
    obtain ⟨k, v⟩ := member
    rw [List.map_cons, List.nodup_cons] at distinct
    rw [mergeFields_cons, ih _ distinct.2, lookup_setMember]
    by_cases same : key = k
    · subst same
      simp [lookup_eq_none_of_absent overlay key distinct.1]
    · simp [same, List.lookup_cons, beq_false_of_ne same]

/-! ## The order of the keys -/

theorem keysOrdered_mergeFields (fields overlay : Members) (ordered : KeysOrdered fields) :
    KeysOrdered (mergeFields fields overlay) := by
  induction overlay generalizing fields with
  | nil =>
    rw [mergeFields]
    exact ordered
  | cons member overlay ih =>
    obtain ⟨key, value⟩ := member
    rw [mergeFields_cons]
    exact ih _ (keysOrdered_setMember _ _ _ ordered)

theorem ordered_mergeFields (fields overlay : Members) (ordered : (Json.object fields).Ordered)
    (laid : ∀ member ∈ overlay, member.2.Ordered ∧
      ∀ base : Json, base.Ordered → (mergeValues base member.2).Ordered) :
    ∀ member ∈ mergeFields fields overlay, member.2.Ordered := by
  induction overlay generalizing fields with
  | nil =>
    rw [mergeFields]
    exact ((Json.ordered_object fields).mp ordered).2
  | cons member overlay ih =>
    obtain ⟨key, value⟩ := member
    obtain ⟨keys, values⟩ := (Json.ordered_object fields).mp ordered
    rw [List.forall_mem_cons] at laid
    rw [mergeFields_cons]
    refine ih _ ((Json.ordered_object _).mpr ⟨keysOrdered_setMember _ _ _ keys, ?_⟩) laid.2
    intro member inside
    rcases mem_setMember key _ fields member inside with rfl | inside
    · cases found : fields.lookup key with
      | none => exact laid.1.1
      | some base =>
        exact laid.1.2 base (values (key, base) ((lookup_eq_some_iff_mem fields keys.nodup key base).mp found))
    · exact values member inside

theorem ordered_mergeValues (base overlay : Json) (first : base.Ordered) (second : overlay.Ordered) :
    (mergeValues base overlay).Ordered := by
  induction overlay using Json.object_induct generalizing base with
  | other value other =>
    rw [mergeValues_other base value other]
    exact second
  | objects members below =>
    cases object : base.isObject with
    | false =>
      rw [mergeValues_replaced base members object]
      exact second
    | true =>
      obtain ⟨fields, rfl⟩ := Json.isObject_iff.mp object
      have values := ((Json.ordered_object members).mp second).2
      have keys := ((Json.ordered_object fields).mp first).1
      rw [mergeValues_object, Json.ordered_object]
      refine ⟨keysOrdered_mergeFields fields members keys, ordered_mergeFields fields members first ?_⟩
      intro member inside
      exact ⟨values member inside, fun base start => below member inside base start (values member inside)⟩

def JsonValue.merge (base overlay : JsonValue) : JsonValue :=
  ⟨mergeValues base.json overlay.json, ordered_mergeValues _ _ base.ordered overlay.ordered⟩

/-! ## A second time -/

/-- Nothing changes where every key has been laid over already. -/
theorem mergeFields_settled (fields overlay : Members) (ordered : KeysOrdered fields)
    (distinct : (overlay.map Prod.fst).Nodup)
    (settled : ∀ key value, overlay.lookup key = some value → ∃ base, fields.lookup key = some base ∧
      mergeValues base value = base) : mergeFields fields overlay = fields := by
  apply keysOrdered_ext _ _ (keysOrdered_mergeFields fields overlay ordered) ordered
  intro key
  rw [lookup_mergeFields fields overlay distinct]
  cases found : overlay.lookup key with
  | none => rfl
  | some value =>
    obtain ⟨base, there, same⟩ := settled key value found
    simp [there, laidOver, same]

theorem mergeValues_self (value : Json) (ordered : value.Ordered) : mergeValues value value = value := by
  induction value using Json.object_induct with
  | other value other => exact mergeValues_other value value other
  | objects members below =>
    obtain ⟨keys, values⟩ := (Json.ordered_object members).mp ordered
    rw [mergeValues_object, mergeFields_settled members members keys keys.nodup]
    intro key value found
    have member := (lookup_eq_some_iff_mem members keys.nodup key value).mp found
    exact ⟨value, found, below (key, value) member (values (key, value) member)⟩

theorem mergeValues_twice (base overlay : Json) (first : base.Ordered) (second : overlay.Ordered) :
    mergeValues (mergeValues base overlay) overlay = mergeValues base overlay := by
  induction overlay using Json.object_induct generalizing base with
  | other value other => rw [mergeValues_other _ value other, mergeValues_other base value other]
  | objects members below =>
    cases object : base.isObject with
    | false =>
      rw [mergeValues_replaced base members object]
      exact mergeValues_self _ second
    | true =>
      obtain ⟨fields, rfl⟩ := Json.isObject_iff.mp object
      obtain ⟨keys, values⟩ := (Json.ordered_object members).mp second
      obtain ⟨baseKeys, baseValues⟩ := (Json.ordered_object fields).mp first
      rw [mergeValues_object, mergeValues_object, mergeFields_settled _ _
        (keysOrdered_mergeFields fields members baseKeys) keys.nodup]
      intro key value found
      have member := (lookup_eq_some_iff_mem members keys.nodup key value).mp found
      refine ⟨laidOver (fields.lookup key) value, by simp [lookup_mergeFields fields members keys.nodup, found], ?_⟩
      cases there : fields.lookup key with
      | none => exact mergeValues_self value (values (key, value) member)
      | some base =>
        have start := baseValues (key, base) ((lookup_eq_some_iff_mem fields baseKeys.nodup key base).mp there)
        exact below (key, value) member base start (values (key, value) member)

/-! ## Paths -/

theorem child_mergeValues (fields overlay : Members) (keys : KeysOrdered overlay) (token : Text) :
    (mergeValues (.object fields) (.object overlay)).child token =
      ((overlay.lookup token).map (laidOver (fields.lookup token))).or (fields.lookup token) := by
  rw [mergeValues_object]
  exact lookup_mergeFields fields overlay keys.nodup token

/-- The overlay has a value at the path that is no object. -/
theorem pointer_overlay (path : Pointer) (base overlay value : Json) (ordered : overlay.Ordered)
    (found : overlay.pointer path = some value) (other : value.isObject = false) :
    (mergeValues base overlay).pointer path = some value := by
  induction path generalizing base overlay with
  | nil =>
    rw [Json.pointer_nil, Option.some.injEq] at found
    rw [found, mergeValues_other base value other, Json.pointer_nil]
  | cons token path ih =>
    cases object : overlay.isObject with
    | false => rw [mergeValues_other base overlay object, found]
    | true =>
      obtain ⟨members, rfl⟩ := Json.isObject_iff.mp object
      cases start : base.isObject with
      | false => rw [mergeValues_replaced base members start, found]
      | true =>
        obtain ⟨fields, rfl⟩ := Json.isObject_iff.mp start
        obtain ⟨keys, values⟩ := (Json.ordered_object members).mp ordered
        rw [Json.pointer_cons, Option.bind_eq_some_iff] at found
        obtain ⟨inner, here, below⟩ := found
        have inside : members.lookup token = some inner := here
        have member := (lookup_eq_some_iff_mem members keys.nodup token inner).mp inside
        rw [Json.pointer_cons, child_mergeValues fields members keys, inside]
        cases there : fields.lookup token with
        | none => simpa [laidOver] using below
        | some existing => simpa [laidOver] using ih existing inner (values _ member) below

/-- On the way to the path, or at it, the overlay replaces what the base has: with a value that is no
object, or with an object where the base has none. -/
def Replaces (base overlay : Json) (path : Pointer) : Prop :=
  ∃ above, above <+: path ∧ ∃ value, overlay.pointer above = some value ∧
    (value.isObject = false ∨ ∃ existing, base.pointer above = some existing ∧ existing.isObject = false)

theorem replaces_below (fields overlay : Members) (token : Text) (path : Pointer) (existing inner : Json)
    (here : fields.lookup token = some existing) (inside : overlay.lookup token = some inner)
    (below : Replaces existing inner path) : Replaces (.object fields) (.object overlay) (token :: path) := by
  obtain ⟨above, front, value, found, kind⟩ := below
  refine ⟨token :: above, List.cons_prefix_cons.mpr ⟨rfl, front⟩, value, ?_, ?_⟩
  · rw [Json.pointer_cons, Json.child, inside, Option.bind_some, found]
  · rw [Json.pointer_cons, Json.child, here, Option.bind_some]
    exact kind

/-- The overlay neither defines the path nor replaces anything on the way. -/
theorem pointer_base (path : Pointer) (base overlay : Json) (ordered : overlay.Ordered)
    (absent : overlay.pointer path = none) (kept : ¬ Replaces base overlay path) :
    (mergeValues base overlay).pointer path = base.pointer path := by
  induction path generalizing base overlay with
  | nil =>
    rw [Json.pointer_nil] at absent
    cases absent
  | cons token path ih =>
    have object : overlay.isObject = true := by
      by_contra other
      exact kept ⟨[], List.nil_prefix, overlay, Json.pointer_nil overlay, Or.inl (by simpa using other)⟩
    have start : base.isObject = true := by
      by_contra other
      exact kept ⟨[], List.nil_prefix, overlay, Json.pointer_nil overlay,
        Or.inr ⟨base, Json.pointer_nil base, by simpa using other⟩⟩
    obtain ⟨members, rfl⟩ := Json.isObject_iff.mp object
    obtain ⟨fields, rfl⟩ := Json.isObject_iff.mp start
    obtain ⟨keys, values⟩ := (Json.ordered_object members).mp ordered
    rw [Json.pointer_cons, child_mergeValues fields members keys, Json.pointer_cons, Json.child]
    rw [Json.pointer_cons, Json.child] at absent
    cases inside : members.lookup token with
    | none => rfl
    | some inner =>
      rw [inside, Option.bind_some] at absent
      have member := (lookup_eq_some_iff_mem members keys.nodup token inner).mp inside
      cases there : fields.lookup token with
      | none => simpa [laidOver] using absent
      | some existing =>
        have rest := ih existing inner (values _ member) absent
          fun below => kept (replaces_below fields members token path existing inner there inside below)
        simpa [laidOver] using rest

/-! ## Rendering -/

section Rendering
variable (bindings : Bindings)

theorem renderMembers_cons (key : Text) (value : Json) (members outputs : Members) :
    renderMembers bindings ((key, value) :: members) = .ok outputs ↔
      ∃ output rest, renderValue bindings value = .ok output ∧ renderMembers bindings members = .ok rest ∧
        outputs = (key, output) :: rest := by
  simp only [renderMembers, bind_eq_ok, Except.ok.injEq]
  constructor
  · rintro ⟨output, one, rest, more, rfl⟩
    exact ⟨output, rest, one, more, rfl⟩
  · rintro ⟨output, rest, one, more, rfl⟩
    exact ⟨output, one, rest, more, rfl⟩

/-- Under each key stands the rendering of what stood there. -/
theorem lookup_renderMembers (members outputs : Members) (rendered : renderMembers bindings members = .ok outputs)
    (key : Text) :
    Option.Rel (fun value output => renderValue bindings value = .ok output) (members.lookup key)
      (outputs.lookup key) := by
  induction members generalizing outputs with
  | nil =>
    cases rendered
    exact .none
  | cons member members ih =>
    obtain ⟨k, value⟩ := member
    obtain ⟨output, rest, one, more, rfl⟩ := (renderMembers_cons bindings k value members outputs).mp rendered
    by_cases same : key = k
    · subst same
      simpa using one
    · simpa [List.lookup_cons, beq_false_of_ne same] using ih rest more

theorem renderMembers_setMember (key : Text) (value output : Json) (members outputs : Members)
    (one : renderValue bindings value = .ok output) (rendered : renderMembers bindings members = .ok outputs) :
    renderMembers bindings (setMember key value members) = .ok (setMember key output outputs) := by
  induction members generalizing outputs with
  | nil =>
    cases rendered
    exact (renderMembers_cons _ _ _ _ _).mpr ⟨output, [], one, rfl, rfl⟩
  | cons member members ih =>
    obtain ⟨k, v⟩ := member
    obtain ⟨w, rest, first, more, rfl⟩ := (renderMembers_cons bindings k v members outputs).mp rendered
    unfold setMember
    split
    · exact (renderMembers_cons _ _ _ _ _).mpr ⟨output, rest, one, more, rfl⟩
    · split
      · exact (renderMembers_cons _ _ _ _ _).mpr ⟨output, _, one, rendered, rfl⟩
      · exact (renderMembers_cons _ _ _ _ _).mpr ⟨w, _, first, ih rest more, rfl⟩

theorem renderValue_object (members : Members) (output : Json) :
    renderValue bindings (.object members) = .ok output ↔
      ∃ outputs, renderMembers bindings members = .ok outputs ∧ output = .object outputs := by
  simp only [renderValue, map_eq_ok]
  constructor
  · rintro ⟨outputs, rendered, rfl⟩
    exact ⟨outputs, rendered, rfl⟩
  · rintro ⟨outputs, rendered, rfl⟩
    exact ⟨outputs, rendered, rfl⟩

theorem isObject_renderValue (value output : Json) (rendered : renderValue bindings value = .ok output) :
    output.isObject = value.isObject := by
  cases value with
  | object members =>
    obtain ⟨outputs, -, rfl⟩ := (renderValue_object bindings members output).mp rendered
    rfl
  | string text =>
    obtain ⟨_, -, rfl⟩ := (map_eq_ok _ _ _).mp rendered
    rfl
  | array items =>
    simp only [renderValue, map_eq_ok] at rendered
    obtain ⟨_, -, rfl⟩ := rendered
    rfl
  | null =>
    cases rendered
    rfl
  | bool value =>
    cases rendered
    rfl
  | number literal =>
    cases rendered
    rfl

theorem renderMembers_mergeFields (fields overlay fields' overlay' : Members)
    (first : renderMembers bindings fields = .ok fields') (second : renderMembers bindings overlay = .ok overlay')
    (below : ∀ member ∈ overlay, ∀ base base' output : Json, renderValue bindings base = .ok base' →
      renderValue bindings member.2 = .ok output →
      renderValue bindings (mergeValues base member.2) = .ok (mergeValues base' output)) :
    renderMembers bindings (mergeFields fields overlay) = .ok (mergeFields fields' overlay') := by
  induction overlay generalizing fields fields' overlay' with
  | nil =>
    cases second
    rw [mergeFields, mergeFields]
    exact first
  | cons member overlay ih =>
    obtain ⟨key, value⟩ := member
    obtain ⟨output, rest, one, more, rfl⟩ := (renderMembers_cons bindings key value overlay overlay').mp second
    rw [List.forall_mem_cons] at below
    rw [mergeFields_cons, mergeFields_cons]
    refine ih _ _ rest (renderMembers_setMember bindings key _ _ fields fields' ?_ first) more below.2
    have read := lookup_renderMembers bindings fields fields' first key
    generalize fields.lookup key = existing at read
    generalize fields'.lookup key = existing' at read
    cases read with
    | none => exact one
    | some base => exact below.1 _ _ output base one

theorem renderValue_mergeValues (base overlay base' overlay' : Json)
    (first : renderValue bindings base = .ok base') (second : renderValue bindings overlay = .ok overlay') :
    renderValue bindings (mergeValues base overlay) = .ok (mergeValues base' overlay') := by
  induction overlay using Json.object_induct generalizing base base' overlay' with
  | other value other =>
    have kind := isObject_renderValue bindings value overlay' second
    rw [mergeValues_other base value other, mergeValues_other base' overlay' (kind.trans other)]
    exact second
  | objects members below =>
    obtain ⟨outputs, rendered, rfl⟩ := (renderValue_object bindings members overlay').mp second
    have kind := isObject_renderValue bindings base base' first
    cases object : base.isObject with
    | false =>
      rw [mergeValues_replaced base members object, mergeValues_replaced base' outputs (kind.trans object)]
      exact second
    | true =>
      obtain ⟨fields, rfl⟩ := Json.isObject_iff.mp object
      obtain ⟨fields', start, rfl⟩ := (renderValue_object bindings fields base').mp first
      rw [mergeValues_object, mergeValues_object, renderValue_object]
      refine ⟨_, renderMembers_mergeFields bindings fields members fields' outputs start rendered ?_, rfl⟩
      intro member inside existing existing' output one two
      exact below member inside existing existing' output one two

end Rendering

/-- An overlay merges as Helm's do, and the merge may be rendered before or after. -/
theorem merge_like_helm (base overlay : JsonValue) :
    (∀ path value, overlay.json.pointer path = some value → value.isObject = false →
        (base.merge overlay).json.pointer path = some value) ∧
      (∀ path, overlay.json.pointer path = none → ¬ Replaces base.json overlay.json path →
        (base.merge overlay).json.pointer path = base.json.pointer path) ∧
      (base.merge overlay).merge overlay = base.merge overlay ∧
      ∀ (bindings : Bindings) (base' overlay' : Json), renderValue bindings base.json = .ok base' →
        renderValue bindings overlay.json = .ok overlay' →
          renderValue bindings (base.merge overlay).json = .ok (mergeValues base' overlay') := by
  refine ⟨?_, ?_, ?_, ?_⟩
  · intro path value found other
    exact pointer_overlay path base.json overlay.json value overlay.ordered found other
  · intro path absent kept
    exact pointer_base path base.json overlay.json overlay.ordered absent kept
  · have twice := mergeValues_twice base.json overlay.json base.ordered overlay.ordered
    unfold JsonValue.merge
    simp only [twice]
  · intro bindings base' overlay' first second
    exact renderValue_mergeValues bindings base.json overlay.json base' overlay' first second

end WeeboSi.Crd
