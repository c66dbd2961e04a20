import Tasker.Firestore.FieldValue
import Tasker.Lib.ArrayTransform

/-!
Documents and their mutations (`model/mutation.cc` and the mutations beside it).

* `MaybeDocument`: what is known of a document. Its key is the one under which it
  is kept, so that a mutation is only ever applied to the document it names.
* `Precondition`, `TransformOperation`, `Mutation`: a write of one document.
* `applyToLocalView`: the document as the device shows it before the write is
  acknowledged; `applyToRemoteDocument`: the document after it was.
* `extractBaseValue`: what a write that is not idempotent has to be applied to.
* `effect`, `commit`: what a mutation makes of the data, shown on the device
  (`dataOf_applyToLocalView`) and by the server (`applyToRemoteDocument_spec`).
* `commit_eq_effect`: they agree but for what the server has to complete.
-/

namespace Firestore

open Nested ArrayTransform

/-! ### Documents -/

/-- `SnapshotVersion`. -/
structure SnapshotVersion where
  timestamp : Timestamp
  deriving DecidableEq, Repr

namespace SnapshotVersion

/-- The place of a version among the versions. -/
def key (v : SnapshotVersion) : ℤ ×ₗ ℤ := FieldValue.timestampKey v.timestamp

lemma key_injective : Function.Injective key := by
  rintro ⟨⟨s, n⟩⟩ ⟨⟨s', n'⟩⟩ h
  obtain ⟨rfl, rfl⟩ := Prod.mk.inj (toLex.injective h)
  rfl

/-- Versions are ordered as their timestamps. -/
instance : LinearOrder SnapshotVersion := LinearOrder.lift' key key_injective

/-- `SnapshotVersion::None()`. -/
def none : SnapshotVersion := ⟨⟨0, 0⟩⟩

end SnapshotVersion

/-- `DocumentState`. -/
inductive DocumentState where
  | localMutations
  | committedMutations
  | synced
  deriving DecidableEq, Repr

/-- `MaybeDocument`. -/
inductive MaybeDocument where
  | document (data : ObjectValue) (version : SnapshotVersion) (document_state : DocumentState)
  | noDocument (version : SnapshotVersion) (has_committed_mutations : Bool)
  | unknownDocument (version : SnapshotVersion)

namespace MaybeDocument

def version : MaybeDocument → SnapshotVersion
  | .document _ v _ => v
  | .noDocument v _ => v
  | .unknownDocument v => v

def is_document : MaybeDocument → Bool
  | .document .. => true
  | _ => false

def has_pending_writes : MaybeDocument → Bool
  | .document _ _ state => state = .localMutations || state = .committedMutations
  | .noDocument _ has_committed_mutations => has_committed_mutations
  | .unknownDocument _ => true

/-- The data of a document that exists. -/
def data? : MaybeDocument → Option ObjectValue
  | .document data _ _ => some data
  | _ => none

end MaybeDocument

/-- The data of a document that is known and exists. -/
def dataOf (maybe_doc : Option MaybeDocument) : Option ObjectValue :=
  maybe_doc.bind MaybeDocument.data?

/-- `Document(*maybe_doc).field(path)`, if there is a document. -/
def fieldOf (maybe_doc : Option MaybeDocument) (path : FieldPath) : Option FieldValue :=
  (dataOf maybe_doc).bind fun data => get path data

/-! ### Preconditions -/

/-- `Precondition`. -/
inductive Precondition where
  | none
  | ofExists (isPresent : Bool)
  | updateTime (update_time : SnapshotVersion)
  deriving DecidableEq, Repr

namespace Precondition

/-- `IsValidFor`. -/
def isValidFor : Precondition → Option MaybeDocument → Bool
  | .updateTime t, maybe_doc =>
      maybe_doc.any fun doc => doc.is_document && doc.version = t
  | .ofExists isPresent, maybe_doc => isPresent == maybe_doc.any MaybeDocument.is_document
  | .none, _ => true

/-- The precondition as far as it is one on the data. -/
def allows : Precondition → Option ObjectValue → Bool
  | .ofExists isPresent, data => isPresent == data.isSome
  | _, _ => true

lemma any_is_document (maybe_doc : Option MaybeDocument) :
    maybe_doc.any MaybeDocument.is_document = (dataOf maybe_doc).isSome := by
  rcases maybe_doc with _ | ⟨data, version, state⟩ | ⟨version, committed⟩ | version <;> rfl

/-- A precondition that is not one on the version depends on the data alone. -/
lemma isValidFor_eq {p : Precondition} (h : ∀ t, p ≠ .updateTime t)
    (maybe_doc : Option MaybeDocument) : p.isValidFor maybe_doc = p.allows (dataOf maybe_doc) := by
  cases p with
  | none => rfl
  | ofExists isPresent => rw [isValidFor, allows, any_is_document]
  | updateTime t => exact absurd rfl (h t)

end Precondition

/-! ### Transforms -/

/-- A number: `is_number()`. -/
inductive Numeric where
  | integer (n : Int64)
  | double (d : Float64)

namespace Numeric

def toFieldValue : Numeric → FieldValue
  | .integer n => .integer n
  | .double d => .double d

/-- `AsDouble`. -/
def asDouble : Numeric → Float64
  | .integer n => Float64.ofInt64 n
  | .double d => d

end Numeric

/-- The value as a number, if it is one. -/
def FieldValue.number? : FieldValue → Option Numeric
  | .integer n => some (.integer n)
  | .double d => some (.double d)
  | _ => none

/-- `TransformOperation`. -/
inductive TransformOperation where
  | serverTimestamp
  | arrayUnion (elements : List FieldValue)
  | arrayRemove (elements : List FieldValue)
  | increment (operand : Numeric)

namespace TransformOperation

/-- `CoercedFieldValuesArray`. -/
def coercedFieldValuesArray : Option FieldValue → List FieldValue
  | some (.array _ f) => FieldValue.elements f
  | _ => []

/-- `ArrayTransform::Rep::Apply` of an `ArrayUnion`: each element is pushed back
unless an equal one is found. -/
def applyUnion (elements : List FieldValue) (previous_value : Option FieldValue) : FieldValue :=
  FieldValue.fromArray <|
    unionAll FieldValue.equals elements (coercedFieldValuesArray previous_value)

/-- `ArrayTransform::Rep::Apply` of an `ArrayRemove`: for each element the first
equal one found is erased. -/
def applyRemove (elements : List FieldValue) (previous_value : Option FieldValue) : FieldValue :=
  FieldValue.fromArray <|
    removeAll FieldValue.equals elements (coercedFieldValuesArray previous_value)

/-- The base value of an increment: the previous value if it is a number. -/
def incrementBase (previous_value : Option FieldValue) : Numeric :=
  (previous_value.bind FieldValue.number?).getD (.integer 0)

/-- `NumericIncrementTransform::Rep::ApplyToLocalView`: an integer only if both
are. -/
def increase : Numeric → Numeric → Numeric
  | .integer m, .integer n => .integer (safeIncrement m n)
  | base, operand => .double (base.asDouble.add operand.asDouble)

/-- `ComputeBaseValue`. -/
def computeBaseValue : TransformOperation → Option FieldValue → Option FieldValue
  | .increment _, previous_value => some (incrementBase previous_value).toFieldValue
  | _, _ => none

/-- `ApplyToLocalView`. -/
def applyToLocalView (previous_value : Option FieldValue) (local_write_time : Timestamp) :
    TransformOperation → FieldValue
  | .serverTimestamp => FieldValue.fromServerTimestamp local_write_time previous_value
  | .arrayUnion elements => applyUnion elements previous_value
  | .arrayRemove elements => applyRemove elements previous_value
  | .increment operand => (increase (incrementBase previous_value) operand).toFieldValue

/-- `ApplyToRemoteDocument`. -/
def applyToRemoteDocument (previous_value : Option FieldValue) (transform_result : FieldValue) :
    TransformOperation → FieldValue
  | .serverTimestamp => transform_result
  | .arrayUnion elements => applyUnion elements previous_value
  | .arrayRemove elements => applyRemove elements previous_value
  | .increment _ => transform_result

@[simp] lemma coercedFieldValuesArray_fromArray (l : List FieldValue) :
    coercedFieldValuesArray (some (FieldValue.fromArray l)) = l := FieldValue.elements_get l

/-- **A union a second time adds nothing.** -/
theorem applyUnion_applyUnion (elements : List FieldValue) (previous_value : Option FieldValue) :
    applyUnion elements (some (applyUnion elements previous_value)) =
      applyUnion elements previous_value := by
  rw [applyUnion, applyUnion, coercedFieldValuesArray_fromArray,
    unionAll_unionAll FieldValue.equals_iff]

/-- **A removal a second time removes nothing** if and only if no element occurs in
the array more often than in the removal. -/
theorem applyRemove_applyRemove_iff (elements : List FieldValue)
    (previous_value : Option FieldValue) :
    applyRemove elements (some (applyRemove elements previous_value)) =
        applyRemove elements previous_value ↔
      ∀ e ∈ elements,
        (coercedFieldValuesArray previous_value).countP (fun v => v.equals e) ≤
          elements.countP fun v => v.equals e := by
  rw [← removeAll_removeAll_iff FieldValue.equals_iff, applyRemove, applyRemove,
    coercedFieldValuesArray_fromArray]
  refine ⟨fun h => ?_, fun h => by rw [h]⟩
  have hcoerced := congrArg (fun v => coercedFieldValuesArray (some v)) h
  simpa using hcoerced

end TransformOperation

/-- `FieldTransform`. -/
structure FieldTransform where
  path : FieldPath
  transformation : TransformOperation
  path_ne : path ≠ []

/-! ### Mutations -/

/-- `FieldMask`: a set of paths in order. -/
abbrev FieldMask := SortedMap FieldPath Unit

/-- The mask of some paths. -/
def FieldMask.ofList (paths : List FieldPath) : FieldMask := SortedMap.addAll paths .empty

/-- The paths to the values of a map that are no maps, or empty ones. -/
def FieldValue.leafPaths : FieldValue → List FieldPath
  | .object ks _ f =>
      (List.ofFn fun i =>
        match leafPaths (f i) with
        | [] => [[ks.get i]]
        | nested => nested.map fun p => ks.get i :: p).flatten
  | _ => []

/-- `ToFieldMask`. -/
def toFieldMask (data : ObjectValue) : FieldMask := FieldMask.ofList (node data).leafPaths

/-- `Mutation`, but for `VerifyMutation`, which only transactions use. -/
inductive Mutation where
  | set (key : DocumentKey) (value : ObjectValue) (precondition : Precondition)
  | patch (key : DocumentKey) (value : ObjectValue) (mask : FieldMask)
      (precondition : Precondition)
  | transform (key : DocumentKey) (field_transforms : List FieldTransform)
  | delete (key : DocumentKey) (precondition : Precondition)

/-- The result of a mutation: the version at which it was committed, and what the
server made of the fields of a transform. -/
structure MutationResult where
  version : SnapshotVersion
  transform_results : Option (List FieldValue)

namespace Mutation

def key : Mutation → DocumentKey
  | .set key _ _ => key
  | .patch key _ _ _ => key
  | .transform key _ => key
  | .delete key _ => key

/-- A transform is for a document that exists. -/
def precondition : Mutation → Precondition
  | .set _ _ precondition => precondition
  | .patch _ _ _ precondition => precondition
  | .transform _ _ => .ofExists true
  | .delete _ precondition => precondition

/-- `GetPostMutationVersion`. -/
def getPostMutationVersion : Option MaybeDocument → SnapshotVersion
  | some (.document _ version _) => version
  | _ => SnapshotVersion.none

/-- `PatchDocument`: the paths of the mask, in order. -/
def patchDocument (value : ObjectValue) (mask : FieldMask) (maybe_doc : Option MaybeDocument) :
    ObjectValue :=
  Nested.patch value mask.keys ((dataOf maybe_doc).getD .empty)

/-- `LocalTransformResults`: the previous value is that of the document, or else
the one before the batch. -/
def localTransformResults (field_transforms : List FieldTransform)
    (maybe_doc base_doc : Option MaybeDocument) (local_write_time : Timestamp) :
    List FieldValue :=
  field_transforms.map fun t =>
    t.transformation.applyToLocalView
      ((fieldOf maybe_doc t.path).or (fieldOf base_doc t.path)) local_write_time

/-- `ServerTransformResults`. -/
def serverTransformResults (field_transforms : List FieldTransform)
    (base_doc : Option MaybeDocument) (server_transform_results : List FieldValue) :
    List FieldValue :=
  List.zipWith
    (fun t result => t.transformation.applyToRemoteDocument (fieldOf base_doc t.path) result)
    field_transforms server_transform_results

/-- `TransformObject`. -/
def transformObject (field_transforms : List FieldTransform) (object_value : ObjectValue)
    (transform_results : List FieldValue) : ObjectValue :=
  Nested.setAll ((field_transforms.map FieldTransform.path).zip transform_results) object_value

/-- `ApplyToLocalView`. -/
def applyToLocalView (maybe_doc base_doc : Option MaybeDocument) (local_write_time : Timestamp)
    (m : Mutation) : Option MaybeDocument :=
  if m.precondition.isValidFor maybe_doc then
    match m with
    | .set _ value _ =>
        some (.document value (getPostMutationVersion maybe_doc) .localMutations)
    | .patch _ value mask _ =>
        some (.document (patchDocument value mask maybe_doc) (getPostMutationVersion maybe_doc)
          .localMutations)
    | .transform _ field_transforms =>
        maybe_doc.map fun doc =>
          .document
            (transformObject field_transforms ((dataOf maybe_doc).getD .empty)
              (localTransformResults field_transforms maybe_doc base_doc local_write_time))
            doc.version .localMutations
    | .delete _ _ => some (.noDocument SnapshotVersion.none false)
  else maybe_doc

/-- `ApplyToRemoteDocument`, unless an assertion on the result fails: only
transforms have results, one for each field. -/
def applyToRemoteDocument (maybe_doc : Option MaybeDocument) (result : MutationResult) :
    Mutation → Option MaybeDocument
  | .set _ value _ =>
      match result.transform_results with
      | some _ => none
      | none => some (.document value result.version .committedMutations)
  | .patch _ value mask precondition =>
      match result.transform_results with
      | some _ => none
      | none =>
          if precondition.isValidFor maybe_doc then
            some (.document (patchDocument value mask maybe_doc) result.version
              .committedMutations)
          else some (.unknownDocument result.version)
  | .transform _ field_transforms =>
      match result.transform_results with
      | none => none
      | some server_transform_results =>
          match maybe_doc with
          | some (.document data _ _) =>
              if field_transforms.length = server_transform_results.length then
                some (.document
                  (transformObject field_transforms data
                    (serverTransformResults field_transforms maybe_doc server_transform_results))
                  result.version .committedMutations)
              else none
          | _ => some (.unknownDocument result.version)
  | .delete _ _ =>
      match result.transform_results with
      | some _ => none
      | none => some (.noDocument result.version true)

/-- `ExtractBaseValue`: the fields of the increments as they are. -/
def extractBaseValue (maybe_doc : Option MaybeDocument) : Mutation → Option ObjectValue
  | .transform _ field_transforms =>
      field_transforms.foldl
        (fun base_object t =>
          match t.transformation.computeBaseValue (fieldOf maybe_doc t.path) with
          | some coerced_value => some (Nested.set t.path coerced_value (base_object.getD .empty))
          | none => base_object)
        none
  | _ => none

/-! ### What a mutation does to the data -/

/-- The precondition is not one on the version, which only transactions use. -/
def Plain (m : Mutation) : Prop := ∀ t, m.precondition ≠ .updateTime t

/-- What a mutation makes of the data of a document, given those before the
batch. -/
def effect (base : Option ObjectValue) (local_write_time : Timestamp) (m : Mutation)
    (data : Option ObjectValue) : Option ObjectValue :=
  if m.precondition.allows data then
    match m with
    | .set _ value _ => some value
    | .patch _ value mask _ => some (Nested.patch value mask.keys (data.getD .empty))
    | .transform _ field_transforms =>
        data.map fun object_value =>
          transformObject field_transforms object_value <|
            field_transforms.map fun t =>
              t.transformation.applyToLocalView
                ((get t.path object_value).or (base.bind (get t.path))) local_write_time
    | .delete _ _ => none
  else data

/-- **The view shows the data the mutation makes.** -/
theorem dataOf_applyToLocalView {m : Mutation} (h : m.Plain)
    (maybe_doc base_doc : Option MaybeDocument) (local_write_time : Timestamp) :
    dataOf (m.applyToLocalView maybe_doc base_doc local_write_time) =
      m.effect (dataOf base_doc) local_write_time (dataOf maybe_doc) := by
  unfold applyToLocalView effect
  rw [Precondition.isValidFor_eq h]
  split_ifs with hallows
  · cases m with
    | set key value precondition => rfl
    | patch key value mask precondition => rfl
    | delete key precondition => rfl
    | transform key field_transforms =>
        cases maybe_doc with
        | none => rfl
        | some doc =>
            cases doc with
            | document data version state => rfl
            | noDocument version has_committed_mutations => simp [precondition, dataOf,
                MaybeDocument.data?, Precondition.allows] at hallows
            | unknownDocument version => simp [precondition, dataOf, MaybeDocument.data?,
                Precondition.allows] at hallows
  · rfl

/-- Base values depend on the data alone. -/
lemma extractBaseValue_congr {maybe_doc maybe_doc' : Option MaybeDocument}
    (h : dataOf maybe_doc = dataOf maybe_doc') (m : Mutation) :
    m.extractBaseValue maybe_doc = m.extractBaseValue maybe_doc' := by
  cases m with
  | transform key field_transforms => simp only [extractBaseValue, fieldOf, h]
  | _ => rfl

/-! ### What the server makes of the data -/

/-- The result is one of the mutation: only transforms have results, one for each
field. -/
def Accepts (m : Mutation) (result : MutationResult) : Prop :=
  match m with
  | .transform _ field_transforms =>
      ∃ results, result.transform_results = some results ∧
        field_transforms.length = results.length
  | _ => result.transform_results = none

/-- What an acknowledged mutation makes of the data of the document in the
cache. -/
def commit (result : MutationResult) (m : Mutation) (data : Option ObjectValue) :
    Option ObjectValue :=
  match m with
  | .set _ value _ => some value
  | .patch _ value mask precondition =>
      if precondition.allows data then
        some (Nested.patch value mask.keys (data.getD .empty))
      else none
  | .transform _ field_transforms =>
      data.map fun object_value =>
        transformObject field_transforms object_value <|
          List.zipWith
            (fun t r => t.transformation.applyToRemoteDocument (get t.path object_value) r)
            field_transforms (result.transform_results.getD [])
  | .delete _ _ => none

/-- **An acknowledged mutation leaves a document**, with the data the server
makes and the version of the result. -/
theorem applyToRemoteDocument_spec {m : Mutation} (h : m.Plain) {result : MutationResult}
    (hresult : m.Accepts result) (maybe_doc : Option MaybeDocument) :
    ∃ doc, m.applyToRemoteDocument maybe_doc result = some doc ∧
      dataOf (some doc) = m.commit result (dataOf maybe_doc) ∧
      doc.version = result.version ∧ doc.has_pending_writes = true := by
  cases m with
  | set key value precondition =>
      refine ⟨.document value result.version .committedMutations, ?_, rfl, rfl, rfl⟩
      rw [applyToRemoteDocument, show result.transform_results = none from hresult]
  | delete key precondition =>
      refine ⟨.noDocument result.version true, ?_, rfl, rfl, rfl⟩
      rw [applyToRemoteDocument, show result.transform_results = none from hresult]
  | patch key value mask precondition =>
      have hvalid : precondition.isValidFor maybe_doc = precondition.allows (dataOf maybe_doc) :=
        Precondition.isValidFor_eq h maybe_doc
      rw [applyToRemoteDocument, show result.transform_results = none from hresult, commit,
        hvalid]
      split_ifs with hallows
      · exact ⟨_, rfl, rfl, rfl, rfl⟩
      · exact ⟨_, rfl, rfl, rfl, rfl⟩
  | transform key field_transforms =>
      obtain ⟨results, hresults, hlength⟩ := hresult
      rw [applyToRemoteDocument, hresults, commit, hresults]
      rcases maybe_doc with _ | ⟨data, version, state⟩ | ⟨version, committed⟩ | version
      · exact ⟨_, rfl, rfl, rfl, rfl⟩
      · refine ⟨_, if_pos hlength, rfl, rfl, rfl⟩
      · exact ⟨_, rfl, rfl, rfl, rfl⟩
      · exact ⟨_, rfl, rfl, rfl, rfl⟩

/-- A mutation as the API makes it: what has to exist is only asked of updates. -/
def OfUser : Mutation → Prop
  | .set _ _ precondition => precondition = .none
  | .patch _ _ _ precondition => precondition = .none ∨ precondition = .ofExists true
  | .transform _ _ => True
  | .delete _ precondition => precondition = .none

lemma OfUser.plain {m : Mutation} (h : m.OfUser) : m.Plain := by
  intro t ht
  cases m with
  | set key value precondition =>
      obtain rfl : precondition = .none := h
      exact absurd ht (by simp [precondition])
  | delete key precondition =>
      obtain rfl : precondition = .none := h
      exact absurd ht (by simp [precondition])
  | patch key value mask precondition =>
      rcases (show _ ∨ _ from h) with rfl | rfl <;> exact absurd ht (by simp [precondition])
  | transform key field_transforms => exact absurd ht (by simp [precondition])

/-- What the server makes of a field of the transform the device knows
beforehand, and the previous value of the field is the one in the document. -/
def Foreseen (base data : Option ObjectValue) : Mutation → Prop
  | .transform _ field_transforms =>
      ∀ t ∈ field_transforms,
        ((∃ elements, t.transformation = .arrayUnion elements) ∨
          ∃ elements, t.transformation = .arrayRemove elements) ∧
        (data.bind (get t.path) = none → base.bind (get t.path) = none)
  | _ => True

/-- **The server makes what the view shows** of a mutation it does not have to
complete. -/
theorem commit_eq_effect {m : Mutation} (h : m.OfUser) {result : MutationResult}
    (hresult : m.Accepts result) {base data : Option ObjectValue} (hf : m.Foreseen base data)
    (local_write_time : Timestamp) :
    m.commit result data = m.effect base local_write_time data := by
  unfold effect
  cases m with
  | set key value precondition =>
      obtain rfl : precondition = .none := h
      rfl
  | delete key precondition =>
      obtain rfl : precondition = .none := h
      rfl
  | patch key value mask precondition =>
      rcases (show _ ∨ _ from h) with rfl | rfl
      · rfl
      · cases data <;> rfl
  | transform key field_transforms =>
      obtain ⟨results, hresults, hlength⟩ := hresult
      cases data with
      | none => rfl
      | some object_value =>
          rw [commit, hresults]
          simp only [precondition, Precondition.allows, Option.isSome_some, BEq.rfl, if_true,
            Option.map_some, Option.getD_some]
          congr 2
          refine List.ext_getElem (by simp [hlength]) fun i h₁ h₂ => ?_
          have hi : i < field_transforms.length := by simpa using h₂
          obtain ⟨hop, hbase⟩ := hf field_transforms[i] (List.getElem_mem hi)
          have hprevious : (get field_transforms[i].path object_value).or
              (base.bind (get field_transforms[i].path)) =
                get field_transforms[i].path object_value := by
            cases hget : get field_transforms[i].path object_value with
            | some v => rfl
            | none => rw [Option.none_or, hbase hget]
          rw [List.getElem_zipWith, List.getElem_map, hprevious]
          rcases hop with ⟨elements, hop⟩ | ⟨elements, hop⟩ <;> rw [hop] <;> rfl

end Mutation

end Firestore
