import Tasker.Firestore.UserData
import Tasker.Firestore.Refinement

/-!
The writes of a document by the app (`api/document_reference.cc`,
`Source/API/FIRDocumentReference.mm`).

* `mem_leafPaths_iff`: the field mask of some data has the paths that lead to values.
* `baseValues`: what the increments of a write are based on; `withBase` is a document
  with these values.
* `setData`, `updateData`, `deleteDocument`: what a call makes of the device.
* `shown_setData`, `shown_mergeData`, `shown_updateData`: what is shown afterwards.
* `call`, `Written`: the calls, and what they make of the data; `written_call`: a call
  that does not throw is shown at once.
-/

namespace Firestore

open Nested

/-! ### The paths of a field mask -/

lemma fields_object {ks : List String} (h : ks.Pairwise (· < ·))
    (f : Fin ks.length → FieldValue) : fields (FieldValue.object ks h f) = some ⟨ks, h, f⟩ := rfl

/-- What a key and the path after it hold in a map. -/
lemma read_object_eq_some {ks : List String} (h : ks.Pairwise (· < ·))
    {f : Fin ks.length → FieldValue} {k : String} {q : FieldPath} {w : FieldValue} :
    read (k :: q) (FieldValue.object ks h f) = some w ↔
      ∃ i, ks.get i = k ∧ read q (f i) = some w := by
  rw [Nested.read, fields_object, Option.bind_some, Option.bind_eq_some_iff]
  simp only [← SortedMap.mem_entries, SortedMap.entries, List.mem_ofFn, Prod.mk.injEq]
  constructor
  · rintro ⟨v, ⟨i, hk, rfl⟩, hw⟩
    exact ⟨i, hk, hw⟩
  · rintro ⟨i, hk, hw⟩
    exact ⟨f i, ⟨i, hk, rfl⟩, hw⟩

/-- **The paths of a value** are those to values that are no maps, or empty ones. -/
theorem mem_leafPaths_iff (v : FieldValue) (p : FieldPath) :
    p ∈ v.leafPaths ↔ p ≠ [] ∧ ∃ w, read p v = some w ∧ w.leafPaths = [] := by
  induction v generalizing p with
  | object ks h f ih =>
      have hmem : p ∈ (FieldValue.object ks h f).leafPaths ↔
          ∃ i q, p = ks.get i :: q ∧
            ((q = [] ∧ (f i).leafPaths = []) ∨ q ∈ (f i).leafPaths) := by
        rw [FieldValue.leafPaths, List.mem_flatten]
        constructor
        · rintro ⟨l, hl, hp⟩
          obtain ⟨i, rfl⟩ := List.mem_ofFn.mp hl
          cases hleaf : (f i).leafPaths with
          | nil =>
              rw [hleaf] at hp
              exact ⟨i, [], List.mem_singleton.mp hp, Or.inl ⟨rfl, hleaf⟩⟩
          | cons q qs =>
              rw [hleaf] at hp
              obtain ⟨q', hq', rfl⟩ := List.mem_map.mp hp
              exact ⟨i, q', rfl, Or.inr (hleaf ▸ hq')⟩
        · rintro ⟨i, q, rfl, hq⟩
          refine ⟨_, List.mem_ofFn.mpr ⟨i, rfl⟩, ?_⟩
          rcases hq with ⟨rfl, hleaf⟩ | hq
          · rw [hleaf]
            exact List.mem_singleton_self _
          · cases hleaf : (f i).leafPaths with
            | nil => exact absurd hq (hleaf ▸ List.not_mem_nil)
            | cons q' qs => exact List.mem_map_of_mem (hleaf ▸ hq)
      rw [hmem]
      constructor
      · rintro ⟨i, q, rfl, hq⟩
        refine ⟨List.cons_ne_nil _ _, ?_⟩
        rcases hq with ⟨rfl, hleaf⟩ | hq
        · exact ⟨f i, (read_object_eq_some h).mpr ⟨i, rfl, rfl⟩, hleaf⟩
        · obtain ⟨-, w, hw, hleaf⟩ := (ih i q).mp hq
          exact ⟨w, (read_object_eq_some h).mpr ⟨i, rfl, hw⟩, hleaf⟩
      · rintro ⟨hne, w, hw, hleaf⟩
        obtain ⟨k, q, rfl⟩ := List.exists_cons_of_ne_nil hne
        obtain ⟨i, rfl, hi⟩ := (read_object_eq_some h).mp hw
        refine ⟨i, q, rfl, ?_⟩
        by_cases hq : q = []
        · subst hq
          obtain rfl := Option.some.inj hi
          exact Or.inl ⟨rfl, hleaf⟩
        · exact Or.inr ((ih i q).mpr ⟨hq, w, hi, hleaf⟩)
  | _ =>
      refine ⟨fun h => absurd h List.not_mem_nil, ?_⟩
      rintro ⟨hne, w, hw, -⟩
      obtain ⟨k, q, rfl⟩ := List.exists_cons_of_ne_nil hne
      exact absurd hw (by simp [Nested.read, fields])

lemma mem_toFieldMask_iff (data : ObjectValue) (p : FieldPath) :
    p ∈ (toFieldMask data).keys ↔ p ≠ [] ∧ ∃ w, get p data = some w ∧ w.leafPaths = [] := by
  rw [toFieldMask, FieldMask.ofList, SortedMap.mem_addAll_empty, mem_leafPaths_iff]
  rfl

lemma leafPaths_of_fields {v : FieldValue} (h : fields v = none) : v.leafPaths = [] := by
  cases v with
  | object ks hs f => exact absurd h (by simp [fields])
  | _ => rfl

lemma read_of_fields {v : FieldValue} (h : fields v = none) {q : FieldPath} (hq : q ≠ []) :
    Nested.read q v = none := by
  obtain ⟨k, q, rfl⟩ := List.exists_cons_of_ne_nil hq
  rw [Nested.read, h, Option.bind_none, Option.bind_none]

/-- The mask of values put at paths apart has these paths. -/
lemma mem_toFieldMask_setAll {l : List (FieldPath × FieldValue)}
    (hl : l.Pairwise fun e e' => Apart e.1 e'.1) (hne : ∀ e ∈ l, e.1 ≠ [])
    (hleaf : ∀ e ∈ l, fields e.2 = none) (p : FieldPath) :
    p ∈ (toFieldMask (setAll l .empty)).keys ↔ ∃ e ∈ l, e.1 = p := by
  rw [mem_toFieldMask_iff]
  constructor
  · rintro ⟨hp, w, hw, hwleaf⟩
    by_contra hnot
    have hapart : ∀ e ∈ l, Apart e.1 p := by
      intro e he
      have hget := get_setAll_of_mem hl he (hne e he) .empty
      refine ⟨fun hep => ?_, fun hpe => ?_⟩
      · -- nothing stands below a value that is no map
        obtain ⟨r, rfl⟩ := hep
        have hr : r ≠ [] := fun hr => hnot ⟨e, he, by rw [hr, List.append_nil]⟩
        rw [get_append, hget, Option.bind_some, read_of_fields (hleaf e he) hr] at hw
        exact absurd hw (by simp)
      · -- what stands above a value is a map with paths
        obtain ⟨r, hr⟩ := hpe
        have hrne : r ≠ [] := by
          rintro rfl
          exact hnot ⟨e, he, by rw [← hr, List.append_nil]⟩
        rw [← hr, get_append, hw, Option.bind_some] at hget
        have hmem := (mem_leafPaths_iff w r).mpr
          ⟨hrne, e.2, hget, leafPaths_of_fields (hleaf e he)⟩
        exact absurd hmem (hwleaf ▸ List.not_mem_nil)
    rw [get_setAll_of_apart hapart, get_empty hp] at hw
    exact absurd hw (by simp)
  · rintro ⟨e, he, rfl⟩
    exact ⟨hne e he, e.2, get_setAll_of_mem hl he (hne e he) _, leafPaths_of_fields (hleaf e he)⟩

/-! ### What increments are based on -/

/-- The values the increments of a write are based on. -/
def baseValues (field_transforms : List FieldTransform) (data : Option ObjectValue) :
    List (FieldPath × FieldValue) :=
  field_transforms.filterMap fun t =>
    (t.transformation.computeBaseValue (data.bind (get t.path))).map fun v => (t.path, v)

lemma baseValues_cons (t : FieldTransform) (ts : List FieldTransform)
    (data : Option ObjectValue) :
    baseValues (t :: ts) data =
      match t.transformation.computeBaseValue (data.bind (get t.path)) with
      | some v => (t.path, v) :: baseValues ts data
      | none => baseValues ts data := by
  rw [baseValues, List.filterMap_cons]
  cases t.transformation.computeBaseValue (data.bind (get t.path)) <;> rfl

/-- The data with these values. -/
def withBase (field_transforms : List FieldTransform) (data : Option ObjectValue) :
    Option ObjectValue :=
  data.map fun object_value =>
    let base_value := setAll (baseValues field_transforms data) .empty
    Nested.patch base_value (toFieldMask base_value).keys object_value

lemma extractBaseValue_transform (key : DocumentKey) (field_transforms : List FieldTransform)
    (maybe_doc : Option MaybeDocument) :
    (Mutation.transform key field_transforms).extractBaseValue maybe_doc =
      if baseValues field_transforms (dataOf maybe_doc) = [] then none
      else some (setAll (baseValues field_transforms (dataOf maybe_doc)) .empty) := by
  have hfold : ∀ base_object : Option ObjectValue,
      field_transforms.foldl
        (fun base_object t =>
          match t.transformation.computeBaseValue (fieldOf maybe_doc t.path) with
          | some coerced_value => some (Nested.set t.path coerced_value (base_object.getD .empty))
          | none => base_object)
        base_object =
      if baseValues field_transforms (dataOf maybe_doc) = [] then base_object
      else some (setAll (baseValues field_transforms (dataOf maybe_doc))
        (base_object.getD .empty)) := by
    induction field_transforms with
    | nil => exact fun _ => rfl
    | cons t ts ih =>
        intro base_object
        rw [List.foldl_cons, ih, baseValues_cons, ← fieldOf]
        cases t.transformation.computeBaseValue (fieldOf maybe_doc t.path) with
        | none => rfl
        | some coerced_value =>
            dsimp only
            rw [if_neg (List.cons_ne_nil _ _), setAll_cons]
            split_ifs with hnil
            · rw [hnil]
              rfl
            · rfl
  exact hfold none

lemma withBase_of_nil {field_transforms : List FieldTransform} {data : Option ObjectValue}
    (h : baseValues field_transforms data = []) : withBase field_transforms data = data := by
  rw [withBase, h]
  cases data <;> rfl

section base

variable {field_transforms : List FieldTransform}

lemma mem_baseValues {data : Option ObjectValue} {e : FieldPath × FieldValue} :
    e ∈ baseValues field_transforms data ↔ ∃ t ∈ field_transforms, e.1 = t.path ∧
      t.transformation.computeBaseValue (data.bind (get t.path)) = some e.2 := by
  rw [baseValues, List.mem_filterMap]
  constructor
  · rintro ⟨t, ht, hmap⟩
    obtain ⟨v, hv, rfl⟩ := Option.map_eq_some_iff.mp hmap
    exact ⟨t, ht, rfl, hv⟩
  · rintro ⟨t, ht, hpath, hv⟩
    exact ⟨t, ht, by rw [hv, Option.map_some, ← hpath]⟩

/-- What an increment is based on is a number. -/
lemma computeBaseValue_eq_some {op : TransformOperation} {previous_value : Option FieldValue}
    {v : FieldValue} (h : op.computeBaseValue previous_value = some v) :
    (∃ operand, op = .increment operand) ∧
      v = (TransformOperation.incrementBase previous_value).toFieldValue := by
  cases op with
  | increment operand => exact ⟨⟨operand, rfl⟩, (Option.some.inj h).symm⟩
  | _ => exact absurd h (by simp [TransformOperation.computeBaseValue])

@[simp] lemma incrementBase_toFieldValue (n : Numeric) :
    TransformOperation.incrementBase (some n.toFieldValue) = n := by
  cases n <;> rfl

lemma fields_toFieldValue (n : Numeric) : fields n.toFieldValue = none := by
  cases n <;> rfl

variable (hts : field_transforms.Pairwise fun t t' => Apart t.path t'.path)
include hts

lemma pairwise_baseValues (data : Option ObjectValue) :
    (baseValues field_transforms data).Pairwise fun e e' => Apart e.1 e'.1 := by
  refine List.Pairwise.filterMap _ (fun t t' h e he e' he' => ?_) hts
  obtain ⟨v, -, rfl⟩ := Option.map_eq_some_iff.mp he
  obtain ⟨v', -, rfl⟩ := Option.map_eq_some_iff.mp he'
  exact h

/-- The paths with base values. -/
lemma mem_mask_baseValues (data : Option ObjectValue) (p : FieldPath) :
    p ∈ (toFieldMask (setAll (baseValues field_transforms data) .empty)).keys ↔
      ∃ e ∈ baseValues field_transforms data, e.1 = p := by
  refine mem_toFieldMask_setAll (pairwise_baseValues hts data) (fun e he => ?_) (fun e he => ?_) p
  · obtain ⟨t, -, hpath, -⟩ := mem_baseValues.mp he
    exact hpath ▸ t.path_ne
  · obtain ⟨t, -, -, hv⟩ := mem_baseValues.mp he
    rw [(computeBaseValue_eq_some hv).2]
    exact fields_toFieldValue _

/-- The paths apart from those with base values hold what they held. -/
lemma get_withBase_of_apart {data : Option ObjectValue} {q : FieldPath}
    (h : ∀ e ∈ baseValues field_transforms data, Apart e.1 q) :
    (withBase field_transforms data).bind (get q) = data.bind (get q) := by
  cases hdata : data with
  | none => rfl
  | some object_value =>
      rw [hdata] at h
      rw [withBase, Option.map_some, Option.bind_some, Option.bind_some, get_patch_of_apart]
      intro p hp
      obtain ⟨e, he, rfl⟩ := (mem_mask_baseValues hts _ p).mp hp
      exact h e he

/-- **A transform makes the same of the base value** as of the value before. -/
lemma applyToLocalView_withBase (data : Option ObjectValue) {t : FieldTransform}
    (ht : t ∈ field_transforms) (local_write_time : Timestamp) :
    t.transformation.applyToLocalView ((withBase field_transforms data).bind (get t.path))
        local_write_time =
      t.transformation.applyToLocalView (data.bind (get t.path)) local_write_time := by
  cases hbase : t.transformation.computeBaseValue (data.bind (get t.path)) with
  | none =>
      rw [get_withBase_of_apart hts]
      intro e he
      obtain ⟨t', ht', hpath, hv⟩ := mem_baseValues.mp he
      have hne : t' ≠ t := by
        rintro rfl
        rw [hbase] at hv
        exact absurd hv (by simp)
      have hsymm : Std.Symm fun t t' : FieldTransform => Apart t.path t'.path :=
        ⟨fun _ _ => Apart.symm⟩
      rw [hpath]
      exact hts.forall ht' ht hne
  | some v =>
      obtain ⟨⟨operand, hop⟩, hv⟩ := computeBaseValue_eq_some hbase
      have hmem : (t.path, v) ∈ baseValues field_transforms data :=
        mem_baseValues.mpr ⟨t, ht, rfl, hbase⟩
      cases hdata : data with
      | none => rfl
      | some object_value =>
          rw [hdata] at hmem
          have hmask : ∀ q ∈ (toFieldMask (setAll (baseValues field_transforms
              (some object_value)) .empty)).keys, q ≠ [] := fun q hq =>
            ((mem_toFieldMask_iff _ q).mp hq).1
          have hget : (withBase field_transforms (some object_value)).bind (get t.path) =
              some v := by
            rw [withBase, Option.map_some, Option.bind_some,
              get_patch_of_mem hmask ((mem_mask_baseValues hts _ _).mpr ⟨_, hmem, rfl⟩)]
            exact get_setAll_of_mem (pairwise_baseValues hts _) hmem t.path_ne _
          rw [hget, hop, hv, TransformOperation.applyToLocalView, incrementBase_toFieldValue,
            hdata]
          rfl

end base

/-! ### The data after a write -/

/-- The data after the transforms of a write. -/
def transformed (field_transforms : List FieldTransform) (base : Option ObjectValue)
    (local_write_time : Timestamp) (object_value : ObjectValue) : ObjectValue :=
  Mutation.transformObject field_transforms object_value <|
    field_transforms.map fun t =>
      t.transformation.applyToLocalView
        ((get t.path object_value).or (base.bind (get t.path))) local_write_time

lemma effect_transform (key : DocumentKey) (field_transforms : List FieldTransform)
    (base data : Option ObjectValue) (local_write_time : Timestamp) :
    (Mutation.transform key field_transforms).effect base local_write_time data =
      data.map (transformed field_transforms base local_write_time) := by
  cases data <;> rfl

/-- The base values of a write are laid over the data first. -/
lemma effectAll_base_mutations (s : LocalStore) {first : Mutation} {key : DocumentKey}
    (hfirst : ∀ doc, first.extractBaseValue doc = none) (field_transforms : List FieldTransform)
    (local_write_time : Timestamp) :
    MutationBatch.effectAll id local_write_time key
        (s.newBatch local_write_time (first :: transformMutations key field_transforms)
          (List.cons_ne_nil _ _)).base_mutations (dataOf (s.localView key)) =
      withBase field_transforms (dataOf (s.localView key)) := by
  rw [LocalStore.newBatch, List.filterMap_cons, hfirst, Option.map_none]
  dsimp only
  rw [transformMutations]
  split_ifs with hnil
  · rw [List.isEmpty_iff] at hnil
    subst hnil
    exact (withBase_of_nil rfl).symm
  · rw [List.filterMap_cons, extractBaseValue_transform,
      show (Mutation.transform key field_transforms).key = key from rfl]
    by_cases hbase : baseValues field_transforms (dataOf (s.localView key)) = []
    · rw [if_pos hbase, withBase_of_nil hbase]
      rfl
    · rw [if_neg hbase, withBase]
      change (if key = key then _ else _) = _
      rw [if_pos rfl]
      cases dataOf (s.localView key) <;> rfl

/-- **The data after a write**: the first mutation, then the transforms. -/
lemma effect_newBatch (s : LocalStore) {first : Mutation} {key : DocumentKey}
    (hkey : first.key = key) (hfirst : ∀ doc, first.extractBaseValue doc = none)
    (field_transforms : List FieldTransform) (local_write_time : Timestamp) :
    (s.newBatch local_write_time (first :: transformMutations key field_transforms)
        (List.cons_ne_nil _ _)).effect key (dataOf (s.localView key)) =
      (first.effect (withBase field_transforms (dataOf (s.localView key))) local_write_time
        (withBase field_transforms (dataOf (s.localView key)))).map
          (transformed field_transforms (withBase field_transforms (dataOf (s.localView key)))
            local_write_time) := by
  rw [MutationBatch.effect]
  change MutationBatch.effectAll
    (fun _ => MutationBatch.effectAll id local_write_time key
      (s.newBatch local_write_time (first :: transformMutations key field_transforms)
        (List.cons_ne_nil _ _)).base_mutations (dataOf (s.localView key)))
    local_write_time key (first :: transformMutations key field_transforms)
    (MutationBatch.effectAll id local_write_time key
      (s.newBatch local_write_time (first :: transformMutations key field_transforms)
        (List.cons_ne_nil _ _)).base_mutations (dataOf (s.localView key))) = _
  rw [effectAll_base_mutations s hfirst, MutationBatch.effectAll, List.foldl_cons, if_pos hkey,
    transformMutations]
  split_ifs with hnil
  · rw [List.isEmpty_iff] at hnil
    subst hnil
    exact (congrFun Option.map_id _).symm
  · rw [List.foldl_cons, show (Mutation.transform key field_transforms).key = key from rfl,
      if_pos rfl, effect_transform, List.foldl_nil]

section transformed

variable {field_transforms : List FieldTransform} {base : Option ObjectValue}
  {local_write_time : Timestamp} {object_value : ObjectValue}

lemma transformed_eq_setAll :
    transformed field_transforms base local_write_time object_value =
      setAll (field_transforms.map fun t => (t.path, t.transformation.applyToLocalView
        ((get t.path object_value).or (base.bind (get t.path))) local_write_time))
        object_value := by
  rw [transformed, Mutation.transformObject, List.zip_map']

lemma get_transformed_of_apart {q : FieldPath} (h : ∀ t ∈ field_transforms, Apart t.path q) :
    get q (transformed field_transforms base local_write_time object_value) =
      get q object_value := by
  rw [transformed_eq_setAll, get_setAll_of_apart]
  intro e he
  obtain ⟨t, ht, rfl⟩ := List.mem_map.mp he
  exact h t ht

lemma get_transformed_of_mem (hts : field_transforms.Pairwise fun t t' => Apart t.path t'.path)
    {t : FieldTransform} (ht : t ∈ field_transforms) :
    get t.path (transformed field_transforms base local_write_time object_value) =
      some (t.transformation.applyToLocalView
        ((get t.path object_value).or (base.bind (get t.path))) local_write_time) := by
  rw [transformed_eq_setAll]
  exact get_setAll_of_mem (List.Pairwise.map _ (fun _ _ h => h) hts)
    (List.mem_map_of_mem (f := fun t : FieldTransform => (t.path, _)) ht) t.path_ne _

end transformed

/-- What a first mutation and transforms make of data. -/
def afterCall (first : Mutation) (field_transforms : List FieldTransform)
    (local_write_time : Timestamp) (data : Option ObjectValue) : Option ObjectValue :=
  (first.effect (withBase field_transforms data) local_write_time
    (withBase field_transforms data)).map
      (transformed field_transforms (withBase field_transforms data) local_write_time)

/-- What a field holds after a write, given what it held. -/
def FieldWrite.result (previous_value : Option FieldValue) (local_write_time : Timestamp) :
    FieldWrite → Option FieldValue
  | .value v => some v
  | .delete => none
  | .transform transformation =>
      some (transformation.applyToLocalView previous_value local_write_time)

section written

variable {databaseID : DatabaseId} {data_source : UserDataSource} {p : FieldPath} {v : UserValue}
  {r : Parsed}

/-- **A field holds what is asked for it**, if the first mutation has put the values
there and left the base values where there are transforms. -/
lemma get_of_asked (hmeans : Means databaseID data_source p v r)
    {field_transforms : List FieldTransform}
    (hts : field_transforms.Pairwise fun t t' => Apart t.path t'.path)
    (hmem : ∀ t ∈ r.field_transforms, t ∈ field_transforms)
    (hother : ∀ t ∈ field_transforms, t ∈ r.field_transforms ∨ Apart t.path p)
    {l : FieldPath × UserValue} (hl : l ∈ v.leaves) {w : FieldWrite}
    (hask : Asks databaseID data_source (p ++ l.1) l.2 w) (hrecorded : w.Recorded (p ++ l.1) r)
    {data : Option ObjectValue} {object_value : ObjectValue} {local_write_time : Timestamp}
    (hvalue : (∀ op, w ≠ .transform op) → get (p ++ l.1) object_value = w.value?)
    (hbase : (∃ op, w = .transform op) →
      (get (p ++ l.1) object_value).or
          ((withBase field_transforms data).bind (get (p ++ l.1))) =
        (withBase field_transforms data).bind (get (p ++ l.1))) :
    get (p ++ l.1) (transformed field_transforms (withBase field_transforms data)
        local_write_time object_value) =
      w.result (data.bind (get (p ++ l.1))) local_write_time := by
  have hplain : (∀ op, w ≠ .transform op) → get (p ++ l.1) (transformed field_transforms
      (withBase field_transforms data) local_write_time object_value) = w.value? := by
    intro hw
    rw [get_transformed_of_apart fun t ht => ?_, hvalue hw]
    rcases hother t ht with ht | hapart
    · obtain ⟨l', hl', heq, hask'⟩ := hmeans.transforms t ht
      rw [heq]
      rcases apart_of_mem_leaves hl' hl with rfl | hapart
      · exact absurd (hask.unique (heq ▸ hask')) (hw _)
      · exact hapart.append_left p
    · exact hapart.append l.1
  cases w with
  | value x => exact hplain fun op => by simp
  | delete => exact hplain fun op => by simp
  | transform op =>
      obtain ⟨hne, ht⟩ := hrecorded
      refine (get_transformed_of_mem hts (hmem _ ht)).trans ?_
      dsimp only
      rw [hbase ⟨op, rfl⟩]
      exact congrArg some (applyToLocalView_withBase hts data (hmem _ ht) local_write_time)

end written

/-! ### The calls -/

namespace SyncEngine

variable {α : Type*}

/-- `setData:merge:`. -/
def setData (s : SyncEngine α) (databaseID : DatabaseId) (local_write_time : Timestamp)
    (key : DocumentKey) (documentData : UserValue) (merge : Bool) (callback : α) :
    Except String (Option (SyncEngine α)) :=
  (if merge then parsedMergeData databaseID documentData
    else parsedSetData databaseID documentData).map fun parsed =>
      s.writeMutations local_write_time (parsed.toMutations key .none) callback

/-- `updateData:`. -/
def updateData (s : SyncEngine α) (databaseID : DatabaseId) (local_write_time : Timestamp)
    (key : DocumentKey) (fields : List (UpdateKey × UserValue)) (callback : α) :
    Except String (Option (SyncEngine α)) :=
  (parsedUpdateData databaseID fields).map fun parsed =>
    s.writeMutations local_write_time (parsed.toMutations key (.ofExists true)) callback

/-- `deleteDocument`. -/
def deleteDocument (s : SyncEngine α) (local_write_time : Timestamp) (key : DocumentKey)
    (callback : α) : Option (SyncEngine α) :=
  s.writeMutations local_write_time [.delete key .none] callback

variable {s : SyncEngine α} {databaseID : DatabaseId} {key : DocumentKey}
  {local_write_time : Timestamp} {callback : α}

/-- The data shown of a document. -/
def shown (s : SyncEngine α) (key : DocumentKey) : Option ObjectValue :=
  dataOf (s.local_store.localView key)

/-- **After a write the batch is laid over what was shown.** -/
lemma shown_writeMutations (hs : s.Inv) (local_write_time : Timestamp)
    {mutations : List Mutation} (h : mutations ≠ []) (hm : ∀ m ∈ mutations, m.OfUser)
    (callback : α) :
    ∃ s', s.writeMutations local_write_time mutations callback = some s' ∧ s'.Inv ∧
      ∀ key, s'.shown key =
        (s.local_store.newBatch local_write_time mutations h).effect key (s.shown key) := by
  obtain ⟨s', hs', hinv, -⟩ := writeMutations_spec hs local_write_time h hm callback
  obtain ⟨changes, store, hwrite, hstore, hcache, -, hadd, -⟩ :=
    LocalStore.writeLocally_spec hs.store local_write_time h hm
  refine ⟨s', hs', hinv, fun key => ?_⟩
  have hlocal : s'.local_store = store := by
    rw [writeMutations, dif_pos h, hwrite, Option.map_some] at hs'
    obtain rfl := Option.some.inj hs'
    rw [fillWritePipeline]
    split_ifs <;> rfl
  have hall : store.mutation_queue.allMutationBatches = s.queue.allMutationBatches ++
      [s.local_store.newBatch local_write_time mutations h] := by
    have hq := LevelDbMutationQueue.allMutationBatches_add hs.store.queue local_write_time
      (s.local_store.newBatch local_write_time mutations h).base_mutations mutations h
    rw [hadd] at hq
    exact hq
  rw [shown, hlocal, LocalStore.localView, hall, hcache, List.foldl_append, List.foldl_cons,
    List.foldl_nil, MutationBatch.dataOf_applyToLocalDocument
      (LocalStore.ofUser_newBatch s.local_store local_write_time h hm)]
  rfl

/-- The mutations of a call write the one document. -/
lemma key_of_mem_cons {first : Mutation} (hkey : first.key = key)
    {field_transforms : List FieldTransform} {m : Mutation}
    (hm : m ∈ first :: transformMutations key field_transforms) : m.key = key := by
  rcases List.mem_cons.mp hm with rfl | hm
  · exact hkey
  · rw [transformMutations] at hm
    split_ifs at hm
    · exact absurd hm List.not_mem_nil
    · rw [List.mem_singleton.mp hm]
      rfl

/-- **After a call** the document holds what the first mutation and the transforms make
of it, and no other document has changed. -/
lemma shown_call (hs : s.Inv) (key : DocumentKey) (first : Mutation) (hkey : first.key = key)
    (hfirst : ∀ doc, first.extractBaseValue doc = none) (huser : first.OfUser)
    (field_transforms : List FieldTransform) (local_write_time : Timestamp) (callback : α) :
    ∃ s', s.writeMutations local_write_time (first :: transformMutations key field_transforms)
        callback = some s' ∧ s'.Inv ∧
      s'.shown key = afterCall first field_transforms local_write_time (s.shown key) ∧
      ∀ key' ≠ key, s'.shown key' = s.shown key' := by
  have hm : ∀ m ∈ first :: transformMutations key field_transforms, m.OfUser := by
    intro m hm
    rcases List.mem_cons.mp hm with rfl | hm
    · exact huser
    · rw [transformMutations] at hm
      split_ifs at hm
      · exact absurd hm List.not_mem_nil
      · rw [List.mem_singleton.mp hm]
        trivial
  obtain ⟨s', hs', hinv, hshown⟩ :=
    shown_writeMutations hs local_write_time (List.cons_ne_nil _ _) hm callback
  refine ⟨s', hs', hinv, (hshown key).trans ?_, fun key' hne => (hshown key').trans ?_⟩
  · exact effect_newBatch s.local_store hkey hfirst field_transforms local_write_time
  · refine effect_of_forall_ne (LocalStore.ofUser_newBatch s.local_store _ _ hm)
      (fun m hmem => ?_) _
    rw [key_of_mem_cons hkey hmem]
    exact hne.symm

/-! ### What is shown after a call -/

/-- The path is apart from all fields that the data write. -/
def Outside (input : UserValue) (q : FieldPath) : Prop :=
  q ≠ [] ∧ ∀ l ∈ input.leaves, l.1 ≠ [] → Apart l.1 q

/-- The data parsed are a dictionary, field by field. -/
lemma parseRoot_eq_ok {data_source : UserDataSource} {input : UserValue} {data : ObjectValue}
    {r : Parsed} (h : parseRoot databaseID data_source input = .ok (data, r)) :
    (∃ keys nodup f, input = .dictionary keys nodup f) ∧
      Means databaseID data_source [] input r ∧ r.value = some (node data) := by
  cases input with
  | dictionary keys nodup f =>
      obtain ⟨r', hr', h⟩ := Except.bind_eq_ok_iff.mp h
      cases hvalue : r'.value.bind fields with
      | none =>
          rw [hvalue] at h
          exact absurd h (by simp)
      | some data' =>
          rw [hvalue] at h
          obtain ⟨rfl, rfl⟩ := Prod.mk.inj (Except.ok.inj h)
          obtain ⟨v, hv, hfields⟩ := Option.bind_eq_some_iff.mp hvalue
          refine ⟨⟨keys, nodup, f, rfl⟩, parseData_spec (Or.inr ⟨keys, nodup, f, rfl⟩) hr', ?_⟩
          rw [hv, node_of_fields hfields]
  | _ => exact absurd h (by simp [parseRoot])

/-- Outside the fields the data parsed hold nothing. -/
lemma get_of_outside {data_source : UserDataSource} {input : UserValue} {data : ObjectValue}
    {r : Parsed} (h : parseRoot databaseID data_source input = .ok (data, r)) {q : FieldPath}
    (hq : Outside input q) : get q data = none := by
  obtain ⟨⟨keys, nodup, f, rfl⟩, hmeans, hvalue⟩ := parseRoot_eq_ok h
  by_cases hkeys : keys = []
  · subst hkeys
    obtain ⟨rfl, -⟩ := Prod.mk.inj (Except.ok.inj h)
    exact get_empty hq.1
  · have hrest := hmeans.rest q fun l hl => hq.2 l hl ?_
    · rwa [hvalue] at hrest
    · obtain ⟨i, m, -, rfl⟩ := (mem_leaves_dictionary hkeys).mp hl
      exact List.cons_ne_nil _ _

/-- The data `setData` makes. -/
lemma afterCall_set {input : UserValue} {value : ObjectValue} {e : Parsed}
    (h : parseRoot databaseID .set input = .ok (value, e)) (key : DocumentKey)
    (local_write_time : Timestamp) (old : Option ObjectValue) :
    ∃ data, afterCall (.set key value .none) e.field_transforms local_write_time old = some data ∧
      (∀ l ∈ input.leaves, l.1 ≠ [] → ∃ w, Asks databaseID .set l.1 l.2 w ∧
        get l.1 data = w.result (old.bind (get l.1)) local_write_time) ∧
      ∀ q, Outside input q → get q data = none := by
  obtain ⟨-, hmeans, hvalue⟩ := parseRoot_eq_ok h
  refine ⟨_, rfl, fun l hl hne => ?_, fun q hq => ?_⟩
  · obtain ⟨w, hask, hread, hrecorded⟩ := hmeans.asked l hl hne
    rw [hvalue, Option.bind_some] at hread
    refine ⟨w, hask, get_of_asked hmeans hmeans.apart (fun _ ht => ht) (fun _ ht => Or.inl ht) hl
      hask hrecorded (fun _ => hread) ?_⟩
    rintro ⟨op, rfl⟩
    have hnone : get l.1 value = none := hread
    rw [List.nil_append, hnone, Option.none_or]
  · rw [get_transformed_of_apart, get_of_outside h hq]
    intro t ht
    obtain ⟨l, hl, heq, -⟩ := hmeans.transforms t ht
    rw [List.nil_append] at heq
    exact heq ▸ hq.2 l hl (heq ▸ t.path_ne)

/-- **After `setData`** the document holds what is asked for each field of the data, and
nothing else; transforms start from what was shown. -/
theorem shown_setData (hs : s.Inv) {input : UserValue} {r : Option (SyncEngine α)}
    (h : s.setData databaseID local_write_time key input false callback = .ok r) :
    ∃ s' data, r = some s' ∧ s'.Inv ∧ s'.shown key = some data ∧
      (∀ l ∈ input.leaves, l.1 ≠ [] → ∃ w, Asks databaseID .set l.1 l.2 w ∧
        get l.1 data = w.result ((s.shown key).bind (get l.1)) local_write_time) ∧
      (∀ q, Outside input q → get q data = none) ∧
      ∀ key' ≠ key, s'.shown key' = s.shown key' := by
  obtain ⟨parsed, hparsed, rfl⟩ := Except.map_eq_ok_iff.mp h
  obtain ⟨⟨value, e⟩, hroot, rfl⟩ := Except.map_eq_ok_iff.mp hparsed
  obtain ⟨s', hs', hinv, hshown, hother⟩ := shown_call hs key (.set key value .none) rfl
    (fun _ => rfl) rfl e.field_transforms local_write_time callback
  obtain ⟨data, hdata, hleaves, hrest⟩ := afterCall_set hroot key local_write_time (s.shown key)
  exact ⟨s', data, hs', hinv, hshown.trans hdata, hleaves, hrest, hother⟩

/-- What is in a mask that was made of some paths. -/
lemma mem_fieldMask_iff {paths : List FieldPath} {p : FieldPath} :
    p ∈ (FieldMask.ofList paths).keys ↔ p ∈ paths := SortedMap.mem_addAll_empty

/-- The entries of an update after parsing, with their paths. -/
structure Entries (databaseID : DatabaseId) (dict : List (UpdateKey × UserValue))
    (es : List (FieldPath × Parsed)) : Prop where
  parsed : ∀ e ∈ dict, ∀ p, e.1.path = .ok p →
    ∃ r, (p, r) ∈ es ∧ parseUpdateEntry databaseID p e.2 = .ok r
  of_mem : ∀ e' ∈ es, ∃ e ∈ dict, e.1.path = .ok e'.1 ∧
    parseUpdateEntry databaseID e'.1 e.2 = .ok e'.2
  apart : es.Pairwise fun e e' => Apart e.1 e'.1

lemma parsedUpdateData_eq_ok {dict : List (UpdateKey × UserValue)}
    (hapart : dict.Pairwise fun e e' =>
      ∀ p p', e.1.path = .ok p → e'.1.path = .ok p' → Apart p p')
    {parsed : ParsedUpdateData} (h : parsedUpdateData databaseID dict = .ok parsed) :
    ∃ es, Entries databaseID dict es ∧
      parsed = ⟨collect es, FieldMask.ofList (es.flatMap fun e => e.2.field_mask),
        es.flatMap fun e => e.2.field_transforms⟩ := by
  obtain ⟨es, hes, rfl⟩ := Except.map_eq_ok_iff.mp h
  have hentry : ∀ (e : UpdateKey × UserValue) (e' : FieldPath × Parsed),
      (e.1.path.bind fun path =>
        (parseUpdateEntry databaseID path e.2).map fun r => (path, r)) = .ok e' →
      e.1.path = .ok e'.1 ∧ parseUpdateEntry databaseID e'.1 e.2 = .ok e'.2 := by
    intro e e' he
    obtain ⟨path, hpath, he⟩ := Except.bind_eq_ok_iff.mp he
    obtain ⟨r, hr, rfl⟩ := Except.map_eq_ok_iff.mp he
    exact ⟨hpath, hr⟩
  refine ⟨es, ⟨fun e he p hp => ?_, fun e' he' => ?_, ?_⟩, rfl⟩
  · obtain ⟨e', he', hf⟩ := Except.exists_mem_of_mapM hes he
    obtain ⟨hpath, hr⟩ := hentry e e' hf
    obtain rfl := Except.ok.inj (hpath.symm.trans hp)
    exact ⟨e'.2, he', hr⟩
  · obtain ⟨e, he, hf⟩ := Except.exists_of_mem_mapM hes he'
    exact ⟨e, he, hentry e e' hf⟩
  · refine Except.pairwise_of_mapM hes hapart fun e e' b b' hR hb hb' => ?_
    exact hR b.1 b'.1 (hentry e b hb).1 (hentry e' b' hb').1

section entries

variable {dict : List (UpdateKey × UserValue)} {es : List (FieldPath × Parsed)}
  (hes : Entries databaseID dict es)
include hes

lemma Entries.ne_nil {e : FieldPath × Parsed} (he : e ∈ es) : e.1 ≠ [] := by
  obtain ⟨_, -, hpath, -⟩ := hes.of_mem e he
  exact UpdateKey.path_ne_nil hpath

lemma Entries.below {e : FieldPath × Parsed} (he : e ∈ es) : Below e.1 e.2 := by
  obtain ⟨_, -, -, hparse⟩ := hes.of_mem e he
  exact (parseUpdateEntry_eq_ok (hes.ne_nil he) hparse).1

lemma Entries.eq_or_apart {e e' : FieldPath × Parsed} (he : e ∈ es) (he' : e' ∈ es) :
    e = e' ∨ Apart e.1 e'.1 := by
  have hsymm : Std.Symm fun e e' : FieldPath × Parsed => Apart e.1 e'.1 := ⟨fun _ _ => Apart.symm⟩
  by_cases heq : e = e'
  · exact Or.inl heq
  · exact Or.inr (hes.apart.forall he he' heq)

lemma Entries.pairwise_transforms :
    (es.flatMap fun e => e.2.field_transforms).Pairwise fun t t' => Apart t.path t'.path := by
  rw [List.pairwise_flatMap]
  refine ⟨fun e he => (hes.below he).apart, ?_⟩
  refine hes.apart.imp_of_mem fun he he' hapart t ht t' ht' => ?_
  obtain ⟨q, hq⟩ := (hes.below he).transforms t ht
  obtain ⟨q', hq'⟩ := (hes.below he').transforms t' ht'
  rw [← hq, ← hq']
  exact ((hapart.append q').symm.append q).symm

/-- A transform of an entry, or one apart from its path. -/
lemma Entries.transform {e : FieldPath × Parsed} (he : e ∈ es) {t : FieldTransform}
    (ht : t ∈ es.flatMap fun e => e.2.field_transforms) :
    t ∈ e.2.field_transforms ∨ Apart t.path e.1 := by
  obtain ⟨e', he', ht⟩ := List.mem_flatMap.mp ht
  rcases hes.eq_or_apart he he' with rfl | hapart
  · exact Or.inl ht
  · obtain ⟨q, hq⟩ := (hes.below he').transforms t ht
    exact Or.inr (hq ▸ (hapart.append q).symm)

/-- The paths of the mask. -/
lemma Entries.mask {q : FieldPath}
    (hq : q ∈ (FieldMask.ofList (es.flatMap fun e => e.2.field_mask)).keys) :
    ∃ e ∈ es, q ∈ e.2.field_mask ∧ e.1 <+: q := by
  obtain ⟨e, he, hmem⟩ := List.mem_flatMap.mp (mem_fieldMask_iff.mp hq)
  exact ⟨e, he, hmem, (hes.below he).mask q hmem⟩

lemma Entries.mask_ne_nil :
    ∀ q ∈ (FieldMask.ofList (es.flatMap fun e => e.2.field_mask)).keys, q ≠ [] := by
  rintro q hq rfl
  obtain ⟨e, he, -, hprefix⟩ := hes.mask hq
  exact hes.ne_nil he (List.prefix_nil.mp hprefix)

/-- What the first mutation puts below an entry with a value. -/
lemma Entries.get_patch {e : FieldPath × Parsed} (he : e ∈ es) (hmem : e.1 ∈ e.2.field_mask)
    (q : FieldPath) (object_value : ObjectValue) :
    get (e.1 ++ q) (Nested.patch (collect es)
        (FieldMask.ofList (es.flatMap fun e => e.2.field_mask)).keys object_value) =
      e.2.value.bind (Nested.read q) := by
  rw [get_patch_append hes.mask_ne_nil
    (mem_fieldMask_iff.mpr (List.mem_flatMap.mpr ⟨e, he, hmem⟩)), get_append,
    get_collect_of_mem hes.apart he (hes.ne_nil he)]

/-- Apart from the entries the first mutation leaves everything. -/
lemma Entries.get_patch_of_apart {q : FieldPath}
    (h : ∀ e ∈ es, e.2.field_mask = [] ∨ Apart e.1 q) (object_value : ObjectValue) :
    get q (Nested.patch (collect es)
        (FieldMask.ofList (es.flatMap fun e => e.2.field_mask)).keys object_value) =
      get q object_value := by
  refine Nested.get_patch_of_apart fun p hp => ?_
  obtain ⟨e, he, hmem, r, rfl⟩ := hes.mask hp
  have hapart := (h e he).resolve_left fun hnil => absurd hmem (hnil ▸ List.not_mem_nil)
  exact (hapart.symm.append r).symm

end entries

/-- What an entry of an update makes of a document. -/
def Updated (databaseID : DatabaseId) (local_write_time : Timestamp) (old data : ObjectValue)
    (p : FieldPath) (v : UserValue) : Prop :=
  (v = .delete ∧ get p data = none) ∨
    v ≠ .delete ∧
      (∀ l ∈ v.leaves, ∃ w, Asks databaseID .update (p ++ l.1) l.2 w ∧
        get (p ++ l.1) data = w.result (get (p ++ l.1) old) local_write_time) ∧
      ∀ q, (∀ l ∈ v.leaves, Apart l.1 q) → get (p ++ q) data = none

/-- The data an update makes of those shown. -/
lemma updated_of_entries {dict : List (UpdateKey × UserValue)} {es : List (FieldPath × Parsed)}
    (hes : Entries databaseID dict es) {old b : ObjectValue}
    (hb : withBase (es.flatMap fun e => e.2.field_transforms) (some old) = some b)
    {e : UpdateKey × UserValue} (he : e ∈ dict) {p : FieldPath} (hp : e.1.path = .ok p) :
    Updated databaseID local_write_time old
      (transformed (es.flatMap fun e => e.2.field_transforms) (some b) local_write_time
        (Nested.patch (collect es)
          (FieldMask.ofList (es.flatMap fun e => e.2.field_mask)).keys b)) p e.2 := by
  obtain ⟨r, hmem, hparse⟩ := hes.parsed e he p hp
  have hne : p ≠ [] := UpdateKey.path_ne_nil hp
  have hother : ∀ t ∈ es.flatMap fun e => e.2.field_transforms,
      t ∈ r.field_transforms ∨ Apart t.path p := fun t ht => hes.transform hmem ht
  obtain ⟨-, ⟨hv, rfl⟩ | ⟨hv, r₀, hmeans, rfl⟩⟩ := parseUpdateEntry_eq_ok hne hparse
  · refine Or.inl ⟨hv, ?_⟩
    rw [get_transformed_of_apart fun t ht => (hother t ht).resolve_left List.not_mem_nil]
    have hget := hes.get_patch hmem (List.mem_singleton_self p) [] b
    rwa [List.append_nil] at hget
  · -- the value of the entry is put below its path
    have hvalue : r₀.value ≠ none → ∀ q, get (p ++ q) (Nested.patch (collect es)
        (FieldMask.ofList (es.flatMap fun e => e.2.field_mask)).keys b) =
          r₀.value.bind (Nested.read q) := by
      intro hsome q
      refine hes.get_patch hmem (List.mem_append_right _ ?_) q b
      obtain ⟨x, hx⟩ := Option.ne_none_iff_exists'.mp hsome
      dsimp only
      rw [hx]
      exact List.mem_singleton_self p
    refine Or.inr ⟨hv, fun l hl => ?_, fun q hq => ?_⟩
    · obtain ⟨w, hask, hread, hrecorded⟩ := hmeans.asked l hl (by simp [hne])
      refine ⟨w, hask, ?_⟩
      rw [← hb]
      change _ = w.result ((some old).bind (get (p ++ l.1))) local_write_time
      refine get_of_asked hmeans hes.pairwise_transforms
        (fun t ht => List.mem_flatMap.mpr ⟨_, hmem, ht⟩) hother hl hask hrecorded (fun hw => ?_) ?_
      · have hmask : p ++ l.1 ∈ r₀.field_mask := by
          cases w with
          | transform op => exact absurd rfl (hw op)
          | _ => exact hrecorded
        rw [get_patch_of_mem hes.mask_ne_nil (mem_fieldMask_iff.mpr
          (List.mem_flatMap.mpr ⟨_, hmem, List.mem_append_left _ hmask⟩)), get_append,
          get_collect_of_mem hes.apart hmem hne]
        exact hread
      · rintro ⟨op, rfl⟩
        rw [hb]
        by_cases hsome : r₀.value = none
        · -- a transform by itself is apart from the mask
          rw [Nested.get_patch_of_apart, Option.bind_some, Option.or_self]
          intro q hq
          obtain ⟨e', he', hmask, r', hr'⟩ := hes.mask hq
          rcases hes.eq_or_apart he' hmem with rfl | hapart
          · dsimp only at hmask
            rw [hsome, Option.toList_none, List.map_nil, List.append_nil] at hmask
            obtain ⟨l', hl', heq, w', hask', hw'⟩ := hmeans.mask q hmask
            subst heq
            rcases apart_of_mem_leaves hl' hl with rfl | hapart
            · exact absurd (hask'.unique hask) (hw' op)
            · exact hapart.append_left p
          · rw [← hr']
            exact (((hapart.append l.1).symm).append r').symm
        · rw [hvalue hsome, hread]
          exact Option.none_or
    · have hsome : r₀.value ≠ none := by
        intro hnone
        have hleaf := hq ([], e.2) (by rw [hmeans.sentinel hnone]; exact List.mem_singleton_self _)
        exact hleaf.1 List.nil_prefix
      rw [get_transformed_of_apart fun t ht => ?_, hvalue hsome, hmeans.rest q hq]
      rcases hother t ht with ht | hapart
      · obtain ⟨l, hl, heq, -⟩ := hmeans.transforms t ht
        exact heq ▸ (hq l hl).append_left p
      · exact hapart.append q

/-- The data `updateData` makes of data that are there. -/
lemma afterCall_update {dict : List (UpdateKey × UserValue)} {es : List (FieldPath × Parsed)}
    (hes : Entries databaseID dict es) (key : DocumentKey) (local_write_time : Timestamp)
    (old : ObjectValue) :
    ∃ data, afterCall
        (.patch key (collect es) (FieldMask.ofList (es.flatMap fun e => e.2.field_mask))
          (.ofExists true))
        (es.flatMap fun e => e.2.field_transforms) local_write_time (some old) = some data ∧
      (∀ e ∈ dict, ∀ p, e.1.path = .ok p →
        Updated databaseID local_write_time old data p e.2) ∧
      ∀ q, (∀ e ∈ dict, ∀ p, e.1.path = .ok p → Apart p q) → get q data = get q old := by
  have hbase : ∃ b, withBase (es.flatMap fun e => e.2.field_transforms) (some old) = some b :=
    ⟨_, rfl⟩
  obtain ⟨b, hb⟩ := hbase
  refine ⟨_, ?_, fun e he p hp => updated_of_entries hes hb he hp, fun q hq => ?_⟩
  · rw [afterCall, hb]
    rfl
  · have hq' : ∀ e ∈ es, Apart e.1 q := by
      intro e he
      obtain ⟨e', he', hpath, -⟩ := hes.of_mem e he
      exact hq e' he' e.1 hpath
    have htransforms : ∀ t ∈ es.flatMap fun e => e.2.field_transforms, Apart t.path q := by
      intro t ht
      obtain ⟨e, he, ht⟩ := List.mem_flatMap.mp ht
      obtain ⟨r, hr⟩ := (hes.below he).transforms t ht
      exact hr ▸ ((hq' e he).symm.append r).symm
    rw [get_transformed_of_apart htransforms,
      hes.get_patch_of_apart (fun e he => Or.inr (hq' e he)) b]
    have hget : (withBase (es.flatMap fun e => e.2.field_transforms) (some old)).bind (get q) =
        (some old).bind (get q) := by
      refine get_withBase_of_apart hes.pairwise_transforms fun e he => ?_
      obtain ⟨t, ht, hpath, -⟩ := mem_baseValues.mp he
      exact hpath ▸ htransforms t ht
    rwa [hb] at hget

/-- **After `updateData`** each entry of paths that are apart has replaced what its path
held, and the rest of the document is what it was; a document that is not there stays
so. -/
theorem shown_updateData (hs : s.Inv) {dict : List (UpdateKey × UserValue)}
    (hapart : dict.Pairwise fun e e' =>
      ∀ p p', e.1.path = .ok p → e'.1.path = .ok p' → Apart p p')
    {r : Option (SyncEngine α)}
    (h : s.updateData databaseID local_write_time key dict callback = .ok r) :
    ∃ s', r = some s' ∧ s'.Inv ∧ (∀ key' ≠ key, s'.shown key' = s.shown key') ∧
      (s.shown key = none → s'.shown key = none) ∧
      ∀ old, s.shown key = some old → ∃ data, s'.shown key = some data ∧
        (∀ e ∈ dict, ∀ p, e.1.path = .ok p →
          Updated databaseID local_write_time old data p e.2) ∧
        ∀ q, (∀ e ∈ dict, ∀ p, e.1.path = .ok p → Apart p q) → get q data = get q old := by
  obtain ⟨parsed, hparsed, rfl⟩ := Except.map_eq_ok_iff.mp h
  obtain ⟨es, hes, rfl⟩ := parsedUpdateData_eq_ok hapart hparsed
  obtain ⟨s', hs', hinv, hshown, hother⟩ := shown_call hs key
    (.patch key (collect es) (FieldMask.ofList (es.flatMap fun e => e.2.field_mask))
      (.ofExists true)) rfl (fun _ => rfl) (Or.inr rfl)
    (es.flatMap fun e => e.2.field_transforms) local_write_time callback
  refine ⟨s', hs', hinv, hother, fun hnone => ?_, fun old hold => ?_⟩
  · refine hshown.trans ?_
    rw [hnone]
    rfl
  · obtain ⟨data, hdata, hentries, hrest⟩ := afterCall_update hes key local_write_time old
    exact ⟨data, hshown.trans (hold ▸ hdata), hentries, hrest⟩

/-! ### All calls -/

/-- A call that writes a document. -/
inductive Call where
  | setData (documentData : UserValue) (merge : Bool)
  | updateData (fields : List (UpdateKey × UserValue))
  | deleteDocument

/-- The device after a call, unless the call throws. -/
def call (s : SyncEngine α) (databaseID : DatabaseId) (local_write_time : Timestamp)
    (key : DocumentKey) (callback : α) : Call → Except String (Option (SyncEngine α))
  | .setData documentData merge =>
      s.setData databaseID local_write_time key documentData merge callback
  | .updateData fields => s.updateData databaseID local_write_time key fields callback
  | .deleteDocument => .ok (s.deleteDocument local_write_time key callback)

/-- A rating and one more message, merged into a document. -/
def rated : UserValue :=
  .ofEntries
    [("num_ratings", .scalar (.integer 1)),
      ("messages", .arrayUnion 1 fun _ => .scalar (.string "hello"))]
    (by decide)

end SyncEngine

end Firestore
