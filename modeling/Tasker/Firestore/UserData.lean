import Tasker.Firestore.Paths
import Tasker.Firestore.Mutation
import Tasker.Lib.Errors

/-!
The data an app hands over (`Source/API/FSTUserDataConverter.mm`,
`core/user_data.cc`).

* `UserValue`: what may be handed over, sentinels of `FieldValue` included.
* `parseData`: a value parsed in a context, with what it adds to the field mask and
  to the field transforms; the first thing wrong is an error.
* `parsedSetData`, `parsedMergeData`, `parsedUpdateData`, `toMutations`: the
  mutations of `setData` and `updateData`.
* `leaves`: the fields that are written. `parseData_spec`: each of them is parsed by
  itself, and is a value, a deletion or a transform of its field (`FieldWrite`).
-/

namespace Firestore

open Nested

/-! ### What is handed over -/

/-- What is no dictionary, array or sentinel. A date is given by its timestamp, a
value of another class by its name. -/
inductive UserScalar where
  | null
  | boolean (value : Bool)
  | integer (value : Int64)
  | unsigned (value : UInt64)
  | double (value : Float64)
  | string (value : String)
  | date (value : Timestamp)
  | timestamp (value : Timestamp)
  | geoPoint (value : GeoPoint)
  | data (value : List UInt8)
  | reference (database_id : DatabaseId) (key : DocumentKey)
  | other (className : String)

/-- What an app hands over. The keys of a dictionary stand in the order in which they
are enumerated. -/
inductive UserValue where
  | scalar (value : UserScalar)
  | array (length : ℕ) (value : Fin length → UserValue)
  | dictionary (keys : List String) (nodup : keys.Nodup) (value : Fin keys.length → UserValue)
  | delete
  | serverTimestamp
  | arrayUnion (length : ℕ) (elements : Fin length → UserValue)
  | arrayRemove (length : ℕ) (elements : Fin length → UserValue)
  | increment (operand : Numeric)

/-- A dictionary of some entries. -/
def UserValue.ofEntries (l : List (String × UserValue)) (nodup : (l.map Prod.fst).Nodup) :
    UserValue :=
  .dictionary (l.map Prod.fst) nodup fun i => (l.get (i.cast (List.length_map Prod.fst))).2

/-- `UserDataSource`. -/
inductive UserDataSource where
  | set
  | mergeSet
  | update
  | argument
  | arrayArgument
  deriving DecidableEq, Repr

/-! ### Contexts -/

/-- `ParseContext`; there is no path within arrays. -/
structure ParseContext where
  data_source : UserDataSource
  path : Option FieldPath
  array_element : Bool

namespace ParseContext

/-- `RootContext`. -/
def root (data_source : UserDataSource) : ParseContext := ⟨data_source, some [], false⟩

/-- `write`. -/
def write (context : ParseContext) : Bool :=
  match context.data_source with
  | .set | .mergeSet | .update => true
  | .argument | .arrayArgument => false

/-- `FieldDescription`. -/
def fieldDescription (context : ParseContext) : String :=
  match context.path with
  | none | some [] => ""
  | some path =>
      let field := canonicalString path
      s!" (found in field {field})"

/-- `RESERVED_FIELD_DESIGNATOR`. -/
def reservedFieldDesignator : String := "__"

/-- `ValidatePathSegment`. -/
def validatePathSegment (context : ParseContext) (segment : String) : Except String Unit :=
  let description := context.fieldDescription
  if segment = "" then
    .error s!"Invalid data. Document fields must not be empty{description}"
  else if context.write && reservedFieldDesignator.toList.isPrefixOf segment.toList &&
      reservedFieldDesignator.toList.isSuffixOf segment.toList then
    .error (s!"Invalid data. Document fields cannot begin and end with " ++
      s!"\"{reservedFieldDesignator}\"{description}")
  else .ok ()

/-- `ValidatePath`. -/
def validatePath (context : ParseContext) : Except String Unit :=
  (context.path.getD []).forM context.validatePathSegment

/-- `ChildContext` of a field. -/
def child (context : ParseContext) (field_name : String) : Except String ParseContext :=
  let child : ParseContext :=
    ⟨context.data_source, context.path.map fun path => path ++ [field_name], false⟩
  (child.validatePathSegment field_name).map fun _ => child

/-- `ChildContext` of a path. -/
def childAt (context : ParseContext) (field_path : FieldPath) : Except String ParseContext :=
  let child : ParseContext :=
    ⟨context.data_source, context.path.map fun path => path ++ field_path, false⟩
  child.validatePath.map fun _ => child

/-- `ChildContext` of an element of an array. -/
def element (context : ParseContext) : ParseContext := ⟨context.data_source, none, true⟩

end ParseContext

/-! ### Parsing -/

/-- What parsing gives: the value, if there is one to be written, and what it adds to
the accumulator. -/
structure Parsed where
  value : Option FieldValue
  field_mask : List FieldPath
  field_transforms : List FieldTransform

/-- Values put at their paths: `result.Set`. -/
def collect (parsed : List (FieldPath × Parsed)) : ObjectValue :=
  parsed.foldl
    (fun result e =>
      match e.2.value with
      | some parsedValue => set e.1 parsedValue result
      | none => result)
    .empty

/-- `parseDictionary`; the parser of each value is given with its key. -/
def parseDictionary (context : ParseContext)
    (dict : List (String × (ParseContext → Except String Parsed))) : Except String Parsed :=
  if dict.isEmpty then
    .ok ⟨some (node .empty), context.path.toList.filter (· ≠ []), []⟩
  else
    (dict.mapM fun e =>
      (context.child e.1).bind fun child => (e.2 child).map fun r => ([e.1], r)).map fun parsed =>
        ⟨some (node (collect parsed)), parsed.flatMap fun e => e.2.field_mask,
          parsed.flatMap fun e => e.2.field_transforms⟩

/-- `parseArray`, with the check before it. -/
def parseArray (context : ParseContext) (array : List (ParseContext → Except String Parsed)) :
    Except String Parsed :=
  if context.array_element && context.data_source ≠ .arrayArgument then
    .error "Nested arrays are not supported"
  else
    (array.mapM fun entry : ParseContext → Except String Parsed => entry context.element).map
      fun parsed =>
      ⟨some (FieldValue.fromArray (parsed.map fun r => r.value.getD .null)),
        context.path.toList ++ parsed.flatMap Parsed.field_mask,
        parsed.flatMap Parsed.field_transforms⟩

/-- `parseScalarValue`. -/
def parseScalarValue (databaseID : DatabaseId) (context : ParseContext) :
    UserScalar → Except String FieldValue
  | .null => .ok .null
  | .boolean value => .ok (.boolean value)
  | .integer value => .ok (.integer value)
  | .unsigned value =>
      if value.toNat < 2 ^ 63 then .ok (.integer (Int64.ofNat value.toNat))
      else
        let description := context.fieldDescription
        .error s!"NSNumber ({value}) is too large{description}"
  | .double value => .ok (.double value)
  | .string value => .ok (.string value)
  | .date value => .ok (.timestamp value)
  | .timestamp value => .ok (.timestamp ⟨value.seconds, value.nanoseconds / 1000 * 1000⟩)
  | .geoPoint value => .ok (.geoPoint value)
  | .data value => .ok (.blob value)
  | .reference other key =>
      if other = databaseID then .ok (.reference databaseID key)
      else
        let otherProject := other.project_id
        let otherDatabase := other.database_id
        let project := databaseID.project_id
        let database := databaseID.database_id
        let description := context.fieldDescription
        .error (s!"Document Reference is for database {otherProject}/{otherDatabase} but " ++
          s!"should be for database {project}/{database}{description}")
  | .other className =>
      let description := context.fieldDescription
      .error s!"Unsupported type: {className}{description}"

/-- The checks of `parseSentinelFieldValue`, then what is done with the path. -/
def parseSentinelFieldValue (context : ParseContext) (methodName : String)
    (add : FieldPath → Except String Parsed) : Except String Parsed :=
  if context.write then
    match context.path with
    | none => .error s!"{methodName} is not currently supported inside arrays"
    | some path => add path
  else
    let description := context.fieldDescription
    .error s!"{methodName} can only be used with updateData() and setData(){description}"

/-- The deletion of `parseSentinelFieldValue`. -/
def parseDelete (context : ParseContext) (path : FieldPath) : Except String Parsed :=
  let description := context.fieldDescription
  match context.data_source with
  | .mergeSet => .ok ⟨none, [path], []⟩
  | .update =>
      .error ("FieldValue.delete() can only appear at the top level of your " ++
        s!"update data{description}")
  | _ =>
      .error ("FieldValue.delete() can only be used with updateData() and setData() with " ++
        s!"merge:true{description}")

/-- `AddToFieldTransforms`. -/
def addToFieldTransforms (transformation : TransformOperation) (path : FieldPath) :
    Except String Parsed :=
  -- data written are a dictionary, so that the path is never empty
  if h : path ≠ [] then .ok ⟨none, [], [⟨path, transformation, h⟩]⟩ else .ok ⟨none, [], []⟩

/-- `parseArrayTransformElements`. -/
def parseArrayTransformElements (elements : List (ParseContext → Except String Parsed)) :
    Except String (List FieldValue) :=
  elements.mapM fun element =>
    (element (ParseContext.root .argument).element).bind fun r =>
      match r.value with
      | some parsedElement => .ok parsedElement
      | none => .error "Failed to properly parse array transform element"

/-- `parseData`. -/
def parseData (databaseID : DatabaseId) : UserValue → ParseContext → Except String Parsed
  | .dictionary keys _ f, context =>
      parseDictionary context (List.ofFn fun i => (keys.get i, parseData databaseID (f i)))
  | .delete, context =>
      parseSentinelFieldValue context "FieldValue.delete()" (parseDelete context)
  | .serverTimestamp, context =>
      parseSentinelFieldValue context "FieldValue.serverTimestamp()"
        (addToFieldTransforms .serverTimestamp)
  | .arrayUnion _ f, context =>
      parseSentinelFieldValue context "FieldValue.arrayUnion()" fun path =>
        (parseArrayTransformElements (List.ofFn fun i => parseData databaseID (f i))).bind
          fun parsedElements => addToFieldTransforms (.arrayUnion parsedElements) path
  | .arrayRemove _ f, context =>
      parseSentinelFieldValue context "FieldValue.arrayRemove()" fun path =>
        (parseArrayTransformElements (List.ofFn fun i => parseData databaseID (f i))).bind
          fun parsedElements => addToFieldTransforms (.arrayRemove parsedElements) path
  | .increment operand, context =>
      parseSentinelFieldValue context "FieldValue.increment()"
        (addToFieldTransforms (.increment operand))
  | .array _ f, context =>
      parseArray context (List.ofFn fun i => parseData databaseID (f i))
  | .scalar value, context =>
      (parseScalarValue databaseID context value).map fun v => ⟨some v, context.path.toList, []⟩

/-! ### Writes -/

/-- `ParsedSetData`, with a field mask for a patch. -/
structure ParsedSetData where
  data : ObjectValue
  field_mask : Option FieldMask
  field_transforms : List FieldTransform

/-- `ParsedUpdateData`. -/
structure ParsedUpdateData where
  data : ObjectValue
  field_mask : FieldMask
  field_transforms : List FieldTransform

/-- The data of a dictionary at the root. -/
def parseRoot (databaseID : DatabaseId) (data_source : UserDataSource) (input : UserValue) :
    Except String (ObjectValue × Parsed) :=
  match input with
  | .dictionary .. =>
      (parseData databaseID input (.root data_source)).bind fun r =>
        match r.value.bind fields with
        | some data => .ok (data, r)
        | none => .error "Parsed data should not be nil."
  | _ => .error "Data to be written must be an NSDictionary."

/-- `parsedSetData`. -/
def parsedSetData (databaseID : DatabaseId) (input : UserValue) : Except String ParsedSetData :=
  (parseRoot databaseID .set input).map fun e => ⟨e.1, none, e.2.field_transforms⟩

/-- `parsedMergeData`, without a field mask. -/
def parsedMergeData (databaseID : DatabaseId) (input : UserValue) : Except String ParsedSetData :=
  (parseRoot databaseID .mergeSet input).map fun e =>
    ⟨e.1, some (FieldMask.ofList e.2.field_mask), e.2.field_transforms⟩

/-- The keys of an update: texts, or paths that `ValidateSegments` has passed. -/
inductive UpdateKey where
  | string (key : String)
  | fieldPath (key : FieldPath) (valid : key ≠ [] ∧ "" ∉ key)

/-- The path of a key. -/
def UpdateKey.path : UpdateKey → Except String FieldPath
  | .string key => fromDotSeparatedString key
  | .fieldPath key _ => .ok key

/-- One entry of `parsedUpdateData`. -/
def parseUpdateEntry (databaseID : DatabaseId) (path : FieldPath) :
    UserValue → Except String Parsed
  | .delete => .ok ⟨none, [path], []⟩
  | value =>
      ((ParseContext.root .update).childAt path).bind fun child =>
        (parseData databaseID value child).map fun r =>
          { r with field_mask := r.field_mask ++ r.value.toList.map fun _ => path }

/-- `parsedUpdateData`. -/
def parsedUpdateData (databaseID : DatabaseId) (dict : List (UpdateKey × UserValue)) :
    Except String ParsedUpdateData :=
  (dict.mapM fun e : UpdateKey × UserValue =>
    e.1.path.bind fun path =>
      (parseUpdateEntry databaseID path e.2).map fun r => (path, r)).map fun parsed =>
        ⟨collect parsed, FieldMask.ofList (parsed.flatMap fun e => e.2.field_mask),
          parsed.flatMap fun e => e.2.field_transforms⟩

/-- The transform of `ToMutations`, if there is one. -/
def transformMutations (key : DocumentKey) (field_transforms : List FieldTransform) :
    List Mutation :=
  if field_transforms.isEmpty then [] else [.transform key field_transforms]

/-- `ToMutations`. -/
def ParsedSetData.toMutations (parsed : ParsedSetData) (key : DocumentKey)
    (precondition : Precondition) : List Mutation :=
  (match parsed.field_mask with
    | some field_mask => .patch key parsed.data field_mask precondition
    | none => .set key parsed.data precondition) ::
    transformMutations key parsed.field_transforms

/-- `ToMutations`. -/
def ParsedUpdateData.toMutations (parsed : ParsedUpdateData) (key : DocumentKey)
    (precondition : Precondition) : List Mutation :=
  .patch key parsed.data parsed.field_mask precondition ::
    transformMutations key parsed.field_transforms

/-! ### Fields -/

/-- What is asked for a field. -/
inductive FieldWrite where
  | value (v : FieldValue)
  | delete
  | transform (transformation : TransformOperation)

namespace FieldWrite

/-- The value written by the patch. -/
def value? : FieldWrite → Option FieldValue
  | .value v => some v
  | _ => none

/-- What parsing gives for a field of which this is asked. -/
def parsed (path : FieldPath) (hne : path ≠ []) : FieldWrite → Parsed
  | .value v => ⟨some v, [path], []⟩
  | .delete => ⟨none, [path], []⟩
  | .transform transformation => ⟨none, [], [⟨path, transformation, hne⟩]⟩

lemma parsed_injective {path : FieldPath} (hne : path ≠ []) :
    Function.Injective (parsed path hne) := by
  rintro (v | _ | op) (v' | _ | op') h <;> simp_all [parsed]

end FieldWrite

/-- The fields that are written, with what they are given: what is no dictionary, or an
empty one. -/
def UserValue.leaves : UserValue → List (FieldPath × UserValue)
  | .dictionary keys nodup f =>
      if keys = [] then [([], .dictionary keys nodup f)]
      else (List.ofFn fun i => (leaves (f i)).map fun l => (keys.get i :: l.1, l.2)).flatten
  | v => [([], v)]

/-- The value is a field that is written. -/
def UserValue.IsLeaf (v : UserValue) : Prop :=
  ∀ keys nodup f, v = .dictionary keys nodup f → keys = []

/-- A value is a field that is written or a dictionary of values. -/
@[elab_as_elim]
lemma UserValue.leaf_induction {motive : UserValue → Prop} (v : UserValue)
    (leaf : ∀ v, v.IsLeaf → motive v)
    (dictionary : ∀ (keys : List String) (nodup : keys.Nodup) (f : Fin keys.length → UserValue),
      keys ≠ [] → (∀ i, motive (f i)) → motive (.dictionary keys nodup f)) : motive v := by
  induction v with
  | dictionary keys nodup f ih =>
      by_cases hkeys : keys = []
      · refine leaf _ fun keys' nodup' f' h => ?_
        injection h with h
        rw [← h, hkeys]
      · exact dictionary keys nodup f hkeys ih
  | _ => exact leaf _ fun keys nodup f h => absurd h (by simp)

lemma UserValue.leaves_of_isLeaf {v : UserValue} (h : v.IsLeaf) : v.leaves = [([], v)] := by
  cases v with
  | dictionary keys nodup f => rw [leaves, if_pos (h keys nodup f rfl)]
  | _ => rfl

/-- The value asks this for the field, by itself. -/
def Asks (databaseID : DatabaseId) (data_source : UserDataSource) (path : FieldPath)
    (v : UserValue) (w : FieldWrite) : Prop :=
  ∃ hne : path ≠ [],
    parseData databaseID v ⟨data_source, some path, false⟩ = .ok (w.parsed path hne)

section fields

variable {databaseID : DatabaseId} {data_source : UserDataSource}

lemma Asks.unique {path : FieldPath} {v : UserValue} {w w' : FieldWrite}
    (h : Asks databaseID data_source path v w) (h' : Asks databaseID data_source path v w') :
    w = w' := by
  obtain ⟨hne, h⟩ := h
  obtain ⟨_, h'⟩ := h'
  exact FieldWrite.parsed_injective hne (Except.ok.inj (h.symm.trans h'))

lemma mem_leaves_dictionary {keys : List String} {nodup : keys.Nodup}
    {f : Fin keys.length → UserValue} (hkeys : keys ≠ []) {l : FieldPath × UserValue} :
    l ∈ (UserValue.dictionary keys nodup f).leaves ↔
      ∃ i, ∃ m ∈ (f i).leaves, l = (keys.get i :: m.1, m.2) := by
  rw [UserValue.leaves, if_neg hkeys, List.mem_flatten]
  constructor
  · rintro ⟨ls, hls, hl⟩
    obtain ⟨i, rfl⟩ := List.mem_ofFn.mp hls
    obtain ⟨m, hm, rfl⟩ := List.mem_map.mp hl
    exact ⟨i, m, hm, rfl⟩
  · rintro ⟨i, m, hm, rfl⟩
    exact ⟨_, List.mem_ofFn.mpr ⟨i, rfl⟩, List.mem_map_of_mem hm⟩

lemma UserValue.leaves_ne_nil (v : UserValue) : v.leaves ≠ [] := by
  induction v using UserValue.leaf_induction with
  | leaf v hv =>
      rw [leaves_of_isLeaf hv]
      exact List.cons_ne_nil _ _
  | dictionary keys nodup f hkeys ih =>
      obtain ⟨l, hl⟩ := List.exists_mem_of_ne_nil _ (ih ⟨0, List.length_pos_of_ne_nil hkeys⟩)
      exact List.ne_nil_of_mem ((mem_leaves_dictionary hkeys).mpr ⟨_, l, hl, rfl⟩)

/-- Keys at different places are different. -/
lemma get_ne_get {keys : List String} (nodup : keys.Nodup) {i j : Fin keys.length} (h : i ≠ j) :
    keys.get i ≠ keys.get j := fun heq => h (nodup.get_inj_iff.mp heq)

/-- **The fields written are apart.** -/
lemma apart_of_mem_leaves {v : UserValue} {l l' : FieldPath × UserValue} (hl : l ∈ v.leaves)
    (hl' : l' ∈ v.leaves) : l = l' ∨ Apart l.1 l'.1 := by
  induction v using UserValue.leaf_induction generalizing l l' with
  | leaf v hv =>
      rw [UserValue.leaves_of_isLeaf hv, List.mem_singleton] at hl hl'
      exact Or.inl (hl.trans hl'.symm)
  | dictionary keys nodup f hkeys ih =>
      obtain ⟨i, m, hm, rfl⟩ := (mem_leaves_dictionary hkeys).mp hl
      obtain ⟨j, m', hm', rfl⟩ := (mem_leaves_dictionary hkeys).mp hl'
      by_cases hij : i = j
      · subst hij
        rcases ih i hm hm' with rfl | hapart
        · exact Or.inl rfl
        · exact Or.inr (hapart.append_left [keys.get i])
      · exact Or.inr (apart_cons_of_ne (get_ne_get nodup hij) m.1 m'.1)

/-! ### Within arrays -/

lemma ParseContext.child_eq_ok {context child : ParseContext} {field_name : String}
    (h : context.child field_name = .ok child) :
    child = ⟨context.data_source, context.path.map fun path => path ++ [field_name], false⟩ := by
  obtain ⟨-, -, rfl⟩ := Except.map_eq_ok_iff.mp h
  rfl

/-- A dictionary with entries is parsed entry by entry. -/
lemma parseDictionary_eq_ok {context : ParseContext} {keys : List String} (hkeys : keys ≠ [])
    {g : Fin keys.length → ParseContext → Except String Parsed} {r : Parsed}
    (h : parseDictionary context (List.ofFn fun i => (keys.get i, g i)) = .ok r) :
    ∃ rs : Fin keys.length → Parsed,
      (∀ i, g i ⟨context.data_source, context.path.map fun path => path ++ [keys.get i], false⟩ =
        .ok (rs i)) ∧
      r = ⟨some (node (collect (List.ofFn fun i => ([keys.get i], rs i)))),
        (List.ofFn rs).flatMap Parsed.field_mask,
        (List.ofFn rs).flatMap Parsed.field_transforms⟩ := by
  have hne : (List.ofFn fun i => (keys.get i, g i)).isEmpty = false := by
    rw [List.isEmpty_eq_false_iff, ne_eq, List.ofFn_eq_nil_iff, List.length_eq_zero_iff]
    exact hkeys
  rw [parseDictionary, hne, if_neg Bool.false_ne_true] at h
  obtain ⟨parsed, hparsed, rfl⟩ := Except.map_eq_ok_iff.mp h
  obtain ⟨b, rfl, hb⟩ := Except.mapM_ofFn_eq_ok_iff.mp hparsed
  have hentry : ∀ i, ∃ r, g i
      ⟨context.data_source, context.path.map fun path => path ++ [keys.get i], false⟩ = .ok r ∧
        ([keys.get i], r) = b i := by
    intro i
    obtain ⟨child, hchild, hmap⟩ := Except.bind_eq_ok_iff.mp (hb i)
    obtain ⟨r, hr, hbi⟩ := Except.map_eq_ok_iff.mp hmap
    rw [ParseContext.child_eq_ok hchild] at hr
    exact ⟨r, hr, hbi⟩
  choose rs hrs hb using hentry
  obtain rfl : (fun i => ([keys.get i], rs i)) = b := funext hb
  have hsnd : List.ofFn rs = (List.ofFn fun i => ([keys.get i], rs i)).map Prod.snd := by
    rw [List.map_ofFn]
    rfl
  exact ⟨rs, hrs, by rw [hsnd, List.flatMap_map, List.flatMap_map]⟩

lemma parseArray_eq_ok {context : ParseContext} {n : ℕ}
    {g : Fin n → ParseContext → Except String Parsed} {r : Parsed}
    (h : parseArray context (List.ofFn g) = .ok r) :
    ∃ rs : Fin n → Parsed, (∀ i, g i context.element = .ok (rs i)) ∧
      r = ⟨some (FieldValue.fromArray ((List.ofFn rs).map fun r => r.value.getD .null)),
        context.path.toList ++ (List.ofFn rs).flatMap Parsed.field_mask,
        (List.ofFn rs).flatMap Parsed.field_transforms⟩ := by
  rw [parseArray] at h
  split_ifs at h
  obtain ⟨parsed, hparsed, rfl⟩ := Except.map_eq_ok_iff.mp h
  obtain ⟨rs, rfl, hrs⟩ := Except.mapM_ofFn_eq_ok_iff.mp hparsed
  exact ⟨rs, hrs, rfl⟩

lemma parseSentinelFieldValue_eq_ok {context : ParseContext} {methodName : String}
    {add : FieldPath → Except String Parsed} {r : Parsed}
    (h : parseSentinelFieldValue context methodName add = .ok r) :
    ∃ path, context.path = some path ∧ add path = .ok r := by
  rw [parseSentinelFieldValue] at h
  split_ifs at h
  cases hpath : context.path with
  | none =>
      rw [hpath] at h
      exact absurd h (by simp)
  | some path =>
      rw [hpath] at h
      exact ⟨path, rfl, h⟩

/-- What stands within an array adds nothing to the mask or to the transforms. -/
lemma parseData_of_no_path {v : UserValue} {array_element : Bool} {r : Parsed}
    (h : parseData databaseID v ⟨data_source, none, array_element⟩ = .ok r) :
    r.field_mask = [] ∧ r.field_transforms = [] := by
  induction v generalizing array_element r with
  | scalar value =>
      obtain ⟨x, -, rfl⟩ := Except.map_eq_ok_iff.mp h
      exact ⟨rfl, rfl⟩
  | array n f ih =>
      obtain ⟨rs, hrs, rfl⟩ := parseArray_eq_ok h
      simp only [Option.toList_none, List.nil_append, List.flatMap_eq_nil_iff, List.mem_ofFn]
      refine ⟨?_, ?_⟩
      · rintro _ ⟨i, rfl⟩
        exact (ih i (hrs i)).1
      · rintro _ ⟨i, rfl⟩
        exact (ih i (hrs i)).2
  | dictionary keys nodup f ih =>
      by_cases hkeys : keys = []
      · subst hkeys
        obtain rfl := Except.ok.inj h
        exact ⟨rfl, rfl⟩
      · obtain ⟨rs, hrs, rfl⟩ := parseDictionary_eq_ok hkeys h
        simp only [List.flatMap_eq_nil_iff, List.mem_ofFn]
        refine ⟨?_, ?_⟩
        · rintro _ ⟨i, rfl⟩
          exact (ih i (hrs i)).1
        · rintro _ ⟨i, rfl⟩
          exact (ih i (hrs i)).2
  | _ =>
      obtain ⟨path, hpath, -⟩ := parseSentinelFieldValue_eq_ok h
      exact absurd hpath (by simp)

/-! ### What is asked for each field -/

lemma addToFieldTransforms_eq_ok {transformation : TransformOperation} {path : FieldPath}
    (hne : path ≠ []) {r : Parsed} (h : addToFieldTransforms transformation path = .ok r) :
    r = (FieldWrite.transform transformation).parsed path hne := by
  rw [addToFieldTransforms, dif_pos hne] at h
  exact (Except.ok.inj h).symm

/-- **A field is given a value, deleted or transformed.** -/
lemma parseData_of_isLeaf {v : UserValue} (hv : v.IsLeaf) {path : FieldPath} (hne : path ≠ [])
    {r : Parsed} (h : parseData databaseID v ⟨data_source, some path, false⟩ = .ok r) :
    ∃ w : FieldWrite, r = w.parsed path hne := by
  cases v with
  | scalar value =>
      obtain ⟨x, -, rfl⟩ := Except.map_eq_ok_iff.mp h
      exact ⟨.value x, rfl⟩
  | array n f =>
      obtain ⟨rs, hrs, rfl⟩ := parseArray_eq_ok h
      have hmask : (List.ofFn rs).flatMap Parsed.field_mask = [] := by
        rw [List.flatMap_eq_nil_iff]
        intro r hr
        obtain ⟨i, rfl⟩ := List.mem_ofFn.mp hr
        exact (parseData_of_no_path (hrs i)).1
      have htransforms : (List.ofFn rs).flatMap Parsed.field_transforms = [] := by
        rw [List.flatMap_eq_nil_iff]
        intro r hr
        obtain ⟨i, rfl⟩ := List.mem_ofFn.mp hr
        exact (parseData_of_no_path (hrs i)).2
      rw [hmask, htransforms]
      exact ⟨.value _, rfl⟩
  | dictionary keys nodup f =>
      obtain rfl := hv keys nodup f rfl
      obtain rfl := Except.ok.inj h
      refine ⟨.value (node .empty), ?_⟩
      rw [FieldWrite.parsed, Option.toList_some, List.filter_cons_of_pos (by simpa using hne),
        List.filter_nil]
  | delete =>
      obtain ⟨path', hpath, hadd⟩ := parseSentinelFieldValue_eq_ok h
      obtain rfl := Option.some.inj hpath
      cases data_source <;> simp [parseDelete] at hadd
      exact ⟨.delete, hadd.symm⟩
  | serverTimestamp =>
      obtain ⟨path', hpath, hadd⟩ := parseSentinelFieldValue_eq_ok h
      obtain rfl := Option.some.inj hpath
      exact ⟨_, addToFieldTransforms_eq_ok hne hadd⟩
  | arrayUnion n f =>
      obtain ⟨path', hpath, hadd⟩ := parseSentinelFieldValue_eq_ok h
      obtain rfl := Option.some.inj hpath
      obtain ⟨parsedElements, -, hadd⟩ := Except.bind_eq_ok_iff.mp hadd
      exact ⟨_, addToFieldTransforms_eq_ok hne hadd⟩
  | arrayRemove n f =>
      obtain ⟨path', hpath, hadd⟩ := parseSentinelFieldValue_eq_ok h
      obtain rfl := Option.some.inj hpath
      obtain ⟨parsedElements, -, hadd⟩ := Except.bind_eq_ok_iff.mp hadd
      exact ⟨_, addToFieldTransforms_eq_ok hne hadd⟩
  | increment operand =>
      obtain ⟨path', hpath, hadd⟩ := parseSentinelFieldValue_eq_ok h
      obtain rfl := Option.some.inj hpath
      exact ⟨_, addToFieldTransforms_eq_ok hne hadd⟩

end fields

/-! ### Values put together -/

section collect

variable {parsed : List (FieldPath × Parsed)}

lemma collect_eq_setAll (parsed : List (FieldPath × Parsed)) :
    collect parsed =
      setAll (parsed.filterMap fun e => e.2.value.map fun v => (e.1, v)) .empty := by
  rw [collect, setAll]
  generalize (SortedMap.empty : ObjectValue) = m
  induction parsed generalizing m with
  | nil => rfl
  | cons e parsed ih =>
      rw [List.foldl_cons, ih, List.filterMap_cons]
      cases e.2.value <;> rfl

lemma get_empty {q : FieldPath} (hq : q ≠ []) : get q (.empty : ObjectValue) = none := by
  obtain ⟨k, p, rfl⟩ := List.exists_cons_of_ne_nil hq
  rw [get_cons, SortedMap.find_empty, Option.bind_none]

/-- A value that is put somewhere is one of those parsed. -/
lemma exists_of_mem_filterMap {e : FieldPath × FieldValue}
    (he : e ∈ parsed.filterMap fun e => e.2.value.map fun v => (e.1, v)) :
    ∃ r, (e.1, r) ∈ parsed ∧ r.value = some e.2 := by
  obtain ⟨⟨path, r⟩, hmem, hmap⟩ := List.mem_filterMap.mp he
  obtain ⟨v, hv, rfl⟩ := Option.map_eq_some_iff.mp hmap
  exact ⟨r, hmem, hv⟩

/-- Nothing stands apart from the paths. -/
lemma get_collect_of_apart {q : FieldPath} (hq : q ≠ []) (h : ∀ e ∈ parsed, Apart e.1 q) :
    get q (collect parsed) = none := by
  rw [collect_eq_setAll, get_setAll_of_apart, get_empty hq]
  intro e he
  obtain ⟨r, hmem, -⟩ := exists_of_mem_filterMap he
  exact h (e.1, r) hmem

/-- At each path stands its value. -/
lemma get_collect_of_mem (hparsed : parsed.Pairwise fun e e' => Apart e.1 e'.1)
    {e : FieldPath × Parsed} (he : e ∈ parsed) (hne : e.1 ≠ []) :
    get e.1 (collect parsed) = e.2.value := by
  rw [collect_eq_setAll]
  cases hvalue : e.2.value with
  | some v =>
      have hapart : (parsed.filterMap fun e => e.2.value.map fun v => (e.1, v)).Pairwise
          fun e e' => Apart e.1 e'.1 := by
        refine List.Pairwise.filterMap _ (fun a a' h b hb b' hb' => ?_) hparsed
        obtain ⟨v, -, rfl⟩ := Option.map_eq_some_iff.mp hb
        obtain ⟨v', -, rfl⟩ := Option.map_eq_some_iff.mp hb'
        exact h
      have hmem : (e.1, v) ∈ parsed.filterMap fun e => e.2.value.map fun v => (e.1, v) :=
        List.mem_filterMap.mpr ⟨e, he, by rw [hvalue]; rfl⟩
      exact get_setAll_of_mem hapart hmem hne _
  | none =>
      rw [get_setAll_of_apart, get_empty hne]
      intro e' he'
      obtain ⟨r, hmem, hr⟩ := exists_of_mem_filterMap he'
      have hdiff : (e'.1, r) ≠ e := by
        rintro rfl
        rw [hvalue] at hr
        exact absurd hr (by simp)
      have hsymm : Std.Symm fun e e' : FieldPath × Parsed => Apart e.1 e'.1 :=
        ⟨fun _ _ => Apart.symm⟩
      exact hparsed.forall hmem he hdiff

end collect

/-! ### What is asked by a dictionary -/

section means

variable {databaseID : DatabaseId} {data_source : UserDataSource}

/-- What is asked for the field stands in the mask or among the transforms. -/
def FieldWrite.Recorded (path : FieldPath) (r : Parsed) : FieldWrite → Prop
  | .transform transformation => ∃ hne, ⟨path, transformation, hne⟩ ∈ r.field_transforms
  | _ => path ∈ r.field_mask

/-- The parsing of a value at a path is that of its fields. -/
structure Means (databaseID : DatabaseId) (data_source : UserDataSource) (p : FieldPath)
    (v : UserValue) (r : Parsed) : Prop where
  asked : ∀ l ∈ v.leaves, p ++ l.1 ≠ [] → ∃ w, Asks databaseID data_source (p ++ l.1) l.2 w ∧
    r.value.bind (read l.1) = w.value? ∧ w.Recorded (p ++ l.1) r
  mask : ∀ q ∈ r.field_mask, ∃ l ∈ v.leaves, q = p ++ l.1 ∧
    ∃ w, Asks databaseID data_source q l.2 w ∧ ∀ op, w ≠ .transform op
  transforms : ∀ t ∈ r.field_transforms, ∃ l ∈ v.leaves, t.path = p ++ l.1 ∧
    Asks databaseID data_source t.path l.2 (.transform t.transformation)
  apart : r.field_transforms.Pairwise fun t t' => Apart t.path t'.path
  rest : ∀ q, (∀ l ∈ v.leaves, Apart l.1 q) → r.value.bind (read q) = none
  sentinel : r.value = none → v.leaves = [([], v)]

lemma means_parsed {p : FieldPath} (hne : p ≠ []) {v : UserValue} (hv : v.IsLeaf) {w : FieldWrite}
    (h : parseData databaseID v ⟨data_source, some p, false⟩ = .ok (w.parsed p hne)) :
    Means databaseID data_source p v (w.parsed p hne) := by
  have hask : Asks databaseID data_source p v w := ⟨hne, h⟩
  have hleaves := UserValue.leaves_of_isLeaf hv
  have hmem : (([], v) : FieldPath × UserValue) ∈ v.leaves := by
    rw [hleaves]
    exact List.mem_singleton_self _
  refine ⟨fun l hl _ => ?_, fun q hq => ⟨([], v), hmem, ?_⟩, fun t ht => ⟨([], v), hmem, ?_⟩, ?_,
    fun q hq => absurd List.nil_prefix (hq _ hmem).1, fun _ => hleaves⟩
  · rw [hleaves, List.mem_singleton] at hl
    subst hl
    refine ⟨w, by rwa [List.append_nil], ?_, ?_⟩
    · cases w <;> rfl
    · rw [List.append_nil]
      cases w with
      | transform op => exact ⟨hne, List.mem_singleton_self _⟩
      | _ => exact List.mem_singleton_self p
  · cases w with
    | transform op => exact absurd hq List.not_mem_nil
    | _ =>
        obtain rfl := List.mem_singleton.mp hq
        exact ⟨(List.append_nil q).symm, _, hask, fun op => by simp⟩
  · cases w with
    | transform op =>
        obtain rfl := List.mem_singleton.mp ht
        exact ⟨(List.append_nil p).symm, hask⟩
    | _ => exact absurd ht List.not_mem_nil
  · cases w with
    | transform op => exact List.pairwise_singleton _ _
    | _ => exact List.Pairwise.nil

/-- **A value is parsed field by field.** -/
theorem parseData_spec {v : UserValue} {p : FieldPath} {r : Parsed}
    (hp : p ≠ [] ∨ ∃ keys nodup f, v = .dictionary keys nodup f)
    (h : parseData databaseID v ⟨data_source, some p, false⟩ = .ok r) :
    Means databaseID data_source p v r := by
  induction v using UserValue.leaf_induction generalizing p r with
  | leaf v hv =>
      by_cases hne : p = []
      · subst hne
        obtain ⟨keys, nodup, f, rfl⟩ := hp.resolve_left (fun h => h rfl)
        obtain rfl := hv keys nodup f rfl
        obtain rfl := Except.ok.inj h
        have hleaves := UserValue.leaves_of_isLeaf hv
        refine ⟨fun l hl hne => ?_, fun q hq => absurd hq (by simp),
          fun t ht => absurd ht (by simp), List.Pairwise.nil, fun q hq => ?_, fun _ => hleaves⟩
        · rw [hleaves, List.mem_singleton] at hl
          exact absurd (by rw [hl]; rfl) hne
        · have hmem := hleaves ▸ List.mem_singleton_self _
          exact absurd List.nil_prefix (hq _ hmem).1
      · obtain ⟨w, rfl⟩ := parseData_of_isLeaf hv hne h
        exact means_parsed hne hv h
  | dictionary keys nodup f hkeys ih =>
      obtain ⟨rs, hrs, rfl⟩ := parseDictionary_eq_ok hkeys h
      have hmeans : ∀ i, Means databaseID data_source (p ++ [keys.get i]) (f i) (rs i) :=
        fun i => ih i (Or.inl (by simp)) (hrs i)
      have hpath : ∀ i (q : FieldPath), p ++ keys.get i :: q = p ++ [keys.get i] ++ q := by
        intro i q
        rw [List.append_assoc, List.singleton_append]
      have hentries : (List.ofFn fun i => ([keys.get i], rs i)).Pairwise
          fun e e' => Apart e.1 e'.1 := by
        rw [List.pairwise_ofFn]
        exact fun i j hij => apart_cons_of_ne (get_ne_get nodup hij.ne) [] []
      have hvalue : ∀ i (q : FieldPath),
          read (keys.get i :: q) (node (collect (List.ofFn fun i => ([keys.get i], rs i)))) =
            (rs i).value.bind (read q) := by
        intro i q
        have hget := get_collect_of_mem hentries (List.mem_ofFn.mpr ⟨i, rfl⟩) (List.cons_ne_nil _ _)
        change get ([keys.get i] ++ q) _ = _
        rw [get_append, hget]
      refine ⟨fun l hl hne => ?_, fun q hq => ?_, fun t ht => ?_, ?_, fun q hq => ?_,
        fun h => absurd h (by simp)⟩
      · obtain ⟨i, m, hm, rfl⟩ := (mem_leaves_dictionary hkeys).mp hl
        rw [hpath] at hne ⊢
        obtain ⟨w, hask, hread, hrecorded⟩ := (hmeans i).asked m hm hne
        refine ⟨w, hask, (hvalue i m.1).trans hread, ?_⟩
        have hmem : rs i ∈ List.ofFn rs := List.mem_ofFn.mpr ⟨i, rfl⟩
        cases w with
        | transform op =>
            obtain ⟨hne, ht⟩ := hrecorded
            exact ⟨hne, List.mem_flatMap_of_mem hmem ht⟩
        | _ => exact List.mem_flatMap_of_mem hmem hrecorded
      · obtain ⟨r, hr, hq⟩ := List.mem_flatMap.mp hq
        obtain ⟨i, rfl⟩ := List.mem_ofFn.mp hr
        obtain ⟨m, hm, rfl, hask⟩ := (hmeans i).mask q hq
        exact ⟨_, (mem_leaves_dictionary hkeys).mpr ⟨i, m, hm, rfl⟩, (hpath i m.1).symm, hask⟩
      · obtain ⟨r, hr, ht⟩ := List.mem_flatMap.mp ht
        obtain ⟨i, rfl⟩ := List.mem_ofFn.mp hr
        obtain ⟨m, hm, heq, hask⟩ := (hmeans i).transforms t ht
        exact ⟨_, (mem_leaves_dictionary hkeys).mpr ⟨i, m, hm, rfl⟩, heq.trans (hpath i m.1).symm,
          hask⟩
      · rw [List.pairwise_flatMap]
        refine ⟨fun r hr => ?_, ?_⟩
        · obtain ⟨i, rfl⟩ := List.mem_ofFn.mp hr
          exact (hmeans i).apart
        · rw [List.pairwise_ofFn]
          intro i j hij t ht t' ht'
          obtain ⟨m, -, heq, -⟩ := (hmeans i).transforms t ht
          obtain ⟨m', -, heq', -⟩ := (hmeans j).transforms t' ht'
          rw [heq, heq', ← hpath, ← hpath]
          exact (apart_cons_of_ne (get_ne_get nodup hij.ne) m.1 m'.1).append_left p
      · cases q with
        | nil =>
            obtain ⟨l, hl⟩ := List.exists_mem_of_ne_nil _
              (UserValue.leaves_ne_nil (.dictionary keys nodup f))
            exact absurd List.nil_prefix (hq l hl).2
        | cons k q =>
            by_cases hk : k ∈ keys
            · obtain ⟨i, rfl⟩ := List.mem_iff_get.mp hk
              refine (hvalue i q).trans ((hmeans i).rest q fun m hm => ?_)
              exact (hq _ ((mem_leaves_dictionary hkeys).mpr ⟨i, m, hm, rfl⟩)).tail
            · refine get_collect_of_apart (List.cons_ne_nil k q) fun e he => ?_
              obtain ⟨i, rfl⟩ := List.mem_ofFn.mp he
              refine apart_cons_of_ne (fun h => hk ?_) [] q
              rw [← h]
              exact List.get_mem keys i

end means

/-! ### The entries of an update -/

lemma fromDotSeparatedString_ne_nil {path : String} {segments : FieldPath}
    (h : fromDotSeparatedString path = .ok segments) : segments ≠ [] := by
  rw [fromDotSeparatedString] at h
  dsimp only at h
  split_ifs at h
  obtain rfl := Except.ok.inj h
  exact fun hnil => List.splitOn_ne_nil _ _ (List.map_eq_nil_iff.mp hnil)

lemma UpdateKey.path_ne_nil {key : UpdateKey} {path : FieldPath} (h : key.path = .ok path) :
    path ≠ [] := by
  cases key with
  | string key => exact fromDotSeparatedString_ne_nil h
  | fieldPath key valid => exact Except.ok.inj h ▸ valid.1

/-- What an entry adds lies below its path. -/
structure Below (path : FieldPath) (r : Parsed) : Prop where
  mask : ∀ q ∈ r.field_mask, path <+: q
  transforms : ∀ t ∈ r.field_transforms, path <+: t.path
  apart : r.field_transforms.Pairwise fun t t' => Apart t.path t'.path

lemma below_delete (path : FieldPath) : Below path ⟨none, [path], []⟩ :=
  ⟨fun q hq => by rw [List.mem_singleton.mp hq], fun t ht => absurd ht List.not_mem_nil,
    List.Pairwise.nil⟩

lemma parseUpdateEntry_of_ne_delete {v : UserValue} (hv : v ≠ .delete) (databaseID : DatabaseId)
    (path : FieldPath) :
    parseUpdateEntry databaseID path v =
      ((ParseContext.root .update).childAt path).bind fun child =>
        (parseData databaseID v child).map fun r =>
          { r with field_mask := r.field_mask ++ r.value.toList.map fun _ => path } := by
  cases v with
  | delete => exact absurd rfl hv
  | _ => rfl

/-- An entry is a deletion, or a value parsed at its path. -/
lemma parseUpdateEntry_eq_ok {databaseID : DatabaseId} {path : FieldPath} (hne : path ≠ [])
    {v : UserValue} {r : Parsed} (h : parseUpdateEntry databaseID path v = .ok r) :
    Below path r ∧
      ((v = .delete ∧ r = ⟨none, [path], []⟩) ∨
        v ≠ .delete ∧ ∃ r₀, Means databaseID .update path v r₀ ∧
          r = { r₀ with field_mask := r₀.field_mask ++ r₀.value.toList.map fun _ => path }) := by
  by_cases hv : v = .delete
  · subst hv
    obtain rfl := Except.ok.inj h
    exact ⟨below_delete path, Or.inl ⟨rfl, rfl⟩⟩
  · rw [parseUpdateEntry_of_ne_delete hv] at h
    obtain ⟨child, hchild, hparse⟩ := Except.bind_eq_ok_iff.mp h
    obtain ⟨-, -, rfl⟩ := Except.map_eq_ok_iff.mp hchild
    obtain ⟨r₀, hr₀, rfl⟩ := Except.map_eq_ok_iff.mp hparse
    have hmeans : Means databaseID .update path v r₀ := parseData_spec (Or.inl hne) hr₀
    refine ⟨⟨fun q hq => ?_, fun t ht => ?_, hmeans.apart⟩, Or.inr ⟨hv, r₀, hmeans, rfl⟩⟩
    · rcases List.mem_append.mp hq with hq | hq
      · obtain ⟨l, -, rfl, -⟩ := hmeans.mask q hq
        exact List.prefix_append path l.1
      · obtain ⟨-, -, rfl⟩ := List.mem_map.mp hq
        exact List.prefix_refl path
    · obtain ⟨l, -, heq, -⟩ := hmeans.transforms t ht
      exact heq ▸ List.prefix_append path l.1

end Firestore
