import Tasker.Firestore.MutationQueue

/-!
The documents of the device (`local/local_store.cc`, `local/local_documents_view.cc`).

* `LocalStore`: the queue of the batches and the documents the server sent.
  A document is shown with the batches of the user laid over what the server
  sent.
* `getDocument`, `getDocuments`: the documents shown; `localView` is the plain
  reading, with all batches of the user, and the index gives the same
  (`getDocument_eq`, `getDocuments_eq`).
* `writeLocally`, `acknowledgeBatch`, `rejectBatch`, `applyRemoteEvent`,
  `handleUserChange`, with one lemma each on the state they leave
  (`writeLocally_spec` and so on); no assertion fails.
-/

namespace Firestore

/-- The documents the server sent with a snapshot. -/
structure RemoteEvent where
  snapshot_version : SnapshotVersion
  document_updates : MaybeDocumentMap

/-- `LocalStore`. -/
structure LocalStore where
  mutation_queue : LevelDbMutationQueue
  remote_document_cache : MaybeDocumentMap
  last_remote_snapshot_version : SnapshotVersion

namespace LocalStore

/-! ### Reading -/

/-- `GetLocalViewOfDocuments`: what is not known is shown as no document. -/
def getLocalViewOfDocuments (s : LocalStore)
    (base_docs : SortedMap DocumentKey (Option MaybeDocument)) : Option MaybeDocumentMap :=
  (s.mutation_queue.allMutationBatchesAffectingDocumentKeys
    (base_docs.mapWithKey fun _ _ => ())).map fun batches =>
      (base_docs.mapWithKey fun key local_view =>
          batches.foldl (fun local_view batch => batch.applyToLocalDocument local_view key)
            local_view).mapWithKey fun _ maybe_doc =>
        maybe_doc.getD (.noDocument SnapshotVersion.none false)

/-- `GetDocuments`. -/
def getDocuments (s : LocalStore) (keys : DocumentKeySet) : Option MaybeDocumentMap :=
  s.getLocalViewOfDocuments (keys.mapWithKey fun key _ => s.remote_document_cache.find key)

/-! ### Writing -/

/-- The base values of the mutations that are not idempotent. -/
def baseMutations (existing_documents : MaybeDocumentMap) (mutations : List Mutation) :
    List Mutation :=
  mutations.filterMap fun m =>
    (m.extractBaseValue (existing_documents.find m.key)).map fun base_value =>
      .patch m.key base_value (toFieldMask base_value) (.ofExists true)

/-- `WriteLocally`: the id of the batch and the documents it changes. -/
def writeLocally (s : LocalStore) (local_write_time : Timestamp) (mutations : List Mutation)
    (h : mutations ≠ []) : Option ((ℕ × MaybeDocumentMap) × LocalStore) :=
  (s.getDocuments (SortedMap.addAll (mutations.map Mutation.key) .empty)).map
    fun existing_documents =>
      let r := s.mutation_queue.addMutationBatch local_write_time
        (baseMutations existing_documents mutations) mutations h
      ((r.1.batch_id, r.1.applyToLocalDocumentSet existing_documents),
        { s with mutation_queue := r.2 })

/-- One document of `ApplyBatchResult`: it is replaced if it is older than the
acknowledgement. -/
def applyAcknowledged (batch_result : MutationBatchResult) (cache : MaybeDocumentMap)
    (doc_key : DocumentKey) : Option MaybeDocumentMap :=
  match batch_result.docVersions.find doc_key with
  | none => none
  | some ack_version =>
      let remote_doc := cache.find doc_key
      if remote_doc.all fun doc => doc.version < ack_version then
        match batch_result.batch.applyToRemoteDocument remote_doc doc_key
            batch_result.mutation_results with
        | none => none
        | some none => if remote_doc.isNone then some cache else none
        | some (some doc) => some (cache.insert doc_key doc)
      else some cache

/-- `ApplyBatchResult`. -/
def applyBatchResult (s : LocalStore) (batch_result : MutationBatchResult) : Option LocalStore :=
  (batch_result.batch.keys.keys.foldlM (applyAcknowledged batch_result)
    s.remote_document_cache).bind fun cache =>
      (s.mutation_queue.removeMutationBatch batch_result.batch).map fun queue =>
        { s with remote_document_cache := cache, mutation_queue := queue }

/-- `PerformConsistencyCheck`, and the documents of a batch. -/
def checkedDocuments (s : LocalStore) (keys : DocumentKeySet) :
    Option (MaybeDocumentMap × LocalStore) :=
  if s.mutation_queue.performConsistencyCheck then
    (s.getDocuments keys).map fun documents => (documents, s)
  else none

/-- `AcknowledgeBatch`. -/
def acknowledgeBatch (s : LocalStore) (batch_result : MutationBatchResult) :
    Option (MaybeDocumentMap × LocalStore) :=
  (s.applyBatchResult batch_result).bind fun s' => s'.checkedDocuments batch_result.batch.keys

/-- `RejectBatch`. -/
def rejectBatch (s : LocalStore) (batch_id : ℕ) : Option (MaybeDocumentMap × LocalStore) :=
  (s.mutation_queue.lookupMutationBatch batch_id).bind fun to_reject =>
    (s.mutation_queue.removeMutationBatch to_reject).bind fun queue =>
      { s with mutation_queue := queue }.checkedDocuments to_reject.keys

/-- One document of `ApplyRemoteEvent`: it is removed if access to it was lost, and
replaced if it is older, or as old with writes that were pending. -/
def applyDocumentUpdate (s : LocalStore) (snapshot_version : SnapshotVersion)
    (r : MaybeDocumentMap × SortedMap DocumentKey (Option MaybeDocument))
    (kv : DocumentKey × MaybeDocument) :
    Option (MaybeDocumentMap × SortedMap DocumentKey (Option MaybeDocument)) :=
  let lost : Bool := match kv.2 with
    | .noDocument version _ => version = SnapshotVersion.none
    | _ => false
  let newer : Bool := (s.remote_document_cache.find kv.1).all fun existing_doc =>
    existing_doc.version < kv.2.version ||
      (kv.2.version = existing_doc.version && existing_doc.has_pending_writes)
  if lost then some (r.1.erase kv.1, r.2.insert kv.1 (some kv.2))
  else if newer then
    if snapshot_version ≠ SnapshotVersion.none then
      some (r.1.insert kv.1 kv.2, r.2.insert kv.1 (some kv.2))
    else none
  else some r

/-- `ApplyRemoteEvent`, as far as the documents go. -/
def applyRemoteEvent (s : LocalStore) (remote_event : RemoteEvent) :
    Option (MaybeDocumentMap × LocalStore) :=
  (remote_event.document_updates.entries.foldlM
    (s.applyDocumentUpdate remote_event.snapshot_version)
    (s.remote_document_cache, .empty)).bind fun r =>
      let last_remote_version :=
        if remote_event.snapshot_version = SnapshotVersion.none then
          some s.last_remote_snapshot_version
        else if s.last_remote_snapshot_version ≤ remote_event.snapshot_version then
          some remote_event.snapshot_version
        else none
      last_remote_version.bind fun version =>
        let s' : LocalStore :=
          { s with remote_document_cache := r.1, last_remote_snapshot_version := version }
        (s'.getLocalViewOfDocuments r.2).map fun documents => (documents, s')

/-- `HandleUserChange`. -/
def handleUserChange (s : LocalStore) (user_id : String) :
    Option (MaybeDocumentMap × LocalStore) :=
  let old_batches := s.mutation_queue.allMutationBatches
  let s' : LocalStore := { s with mutation_queue := s.mutation_queue.start user_id }
  let new_batches := s'.mutation_queue.allMutationBatches
  let changed_keys := (old_batches ++ new_batches).flatMap fun b => b.mutations.map Mutation.key
  (s'.getDocuments (SortedMap.addAll changed_keys .empty)).map fun documents => (documents, s')

/-! ### The plain reading -/

/-- A document with all batches of the user laid over it. -/
def localView (s : LocalStore) (key : DocumentKey) : Option MaybeDocument :=
  s.mutation_queue.allMutationBatches.foldl
    (fun document batch => batch.applyToLocalDocument document key)
    (s.remote_document_cache.find key)

/-- The tables belong together, and the batches are those of users. -/
structure Inv (s : LocalStore) : Prop where
  queue : s.mutation_queue.Inv
  ofUser : ∀ user_id id b,
    s.mutation_queue.mutations.find (mutationKey user_id id) = some b → b.OfUser

variable {s : LocalStore}

lemma Inv.ofUser_of_mem (hs : s.Inv) {b : MutationBatch}
    (hb : b ∈ s.mutation_queue.allMutationBatches) : b.OfUser :=
  hs.ofUser _ _ b ((LevelDbMutationQueue.mem_allMutationBatches hs.queue).mp hb)

/-- Batches that do not write the document may be left out. -/
lemma foldl_filter {bs : List MutationBatch} (hbs : ∀ b ∈ bs, b.OfUser)
    {p : MutationBatch → Bool} {key : DocumentKey}
    (hp : ∀ b ∈ bs, (∃ m ∈ b.mutations, m.key = key) → p b = true)
    (maybe_doc : Option MaybeDocument) :
    (bs.filter p).foldl (fun document batch => batch.applyToLocalDocument document key)
        maybe_doc =
      bs.foldl (fun document batch => batch.applyToLocalDocument document key) maybe_doc := by
  induction bs generalizing maybe_doc with
  | nil => rfl
  | cons b bs ih =>
      have htail := ih (fun b' hb' => hbs b' (List.mem_cons_of_mem b hb'))
        fun b' hb' => hp b' (List.mem_cons_of_mem b hb')
      rw [List.filter_cons]
      split_ifs with hpb
      · rw [List.foldl_cons, List.foldl_cons, htail]
      · have hne : ∀ m ∈ b.mutations, m.key ≠ key := fun m hm hkey =>
          hpb (hp b List.mem_cons_self ⟨m, hm, hkey⟩)
        rw [htail, List.foldl_cons,
          MutationBatch.applyToLocalDocument_of_forall_ne (hbs b List.mem_cons_self) hne]

/-- The batches the index finds for keys show each of the documents as all batches
do. -/
lemma foldl_affecting (hs : s.Inv) {keys : DocumentKeySet} {key : DocumentKey}
    (hkey : key ∈ keys.keys) (maybe_doc : Option MaybeDocument) :
    (s.mutation_queue.allMutationBatches.filter
        (LevelDbMutationQueue.affects fun path =>
          keys.keys.any fun key => path = key.path)).foldl
        (fun document batch => batch.applyToLocalDocument document key) maybe_doc =
      s.mutation_queue.allMutationBatches.foldl
        (fun document batch => batch.applyToLocalDocument document key) maybe_doc := by
  refine foldl_filter (fun b hb => hs.ofUser_of_mem hb) (fun b _ hwrites => ?_) maybe_doc
  obtain ⟨m, hm, rfl⟩ := hwrites
  exact List.any_eq_true.mpr ⟨m, hm, List.any_eq_true.mpr ⟨m.key, hkey, by simp⟩⟩

/-- Documents shown with the batches laid over what is given. -/
lemma getLocalViewOfDocuments_eq (hs : s.Inv)
    (base_docs : SortedMap DocumentKey (Option MaybeDocument)) :
    ∃ documents, s.getLocalViewOfDocuments base_docs = some documents ∧
      ∀ key, documents.find key = (base_docs.find key).map fun base_doc =>
        (s.mutation_queue.allMutationBatches.foldl
          (fun document batch => batch.applyToLocalDocument document key) base_doc).getD
            (.noDocument SnapshotVersion.none false) := by
  rw [getLocalViewOfDocuments,
    LevelDbMutationQueue.allMutationBatchesAffectingDocumentKeys_eq hs.queue, Option.map_some]
  refine ⟨_, rfl, fun key => ?_⟩
  rw [SortedMap.find_mapWithKey, SortedMap.find_mapWithKey, Option.map_map]
  cases hkey : base_docs.find key with
  | none => rfl
  | some base_doc =>
      have hmem : key ∈ (base_docs.mapWithKey fun _ _ => ()).keys :=
        SortedMap.mem_keys.mpr (by rw [SortedMap.find_mapWithKey, hkey]; simp)
      rw [Option.map_some, Option.map_some, Function.comp_apply, foldl_affecting hs hmem]

/-- **The documents shown are those of the plain reading.** -/
theorem getDocuments_eq (hs : s.Inv) (keys : DocumentKeySet) :
    ∃ documents, s.getDocuments keys = some documents ∧
      ∀ key, documents.find key =
        if key ∈ keys.keys then
          some ((s.localView key).getD (.noDocument SnapshotVersion.none false))
        else none := by
  obtain ⟨documents, hdocuments, hfind⟩ := getLocalViewOfDocuments_eq hs
    (keys.mapWithKey fun key _ => s.remote_document_cache.find key)
  refine ⟨documents, hdocuments, fun key => ?_⟩
  rw [hfind, SortedMap.find_mapWithKey]
  split_ifs with hkey
  · obtain ⟨u, hu⟩ := Option.ne_none_iff_exists'.mp (SortedMap.mem_keys.mp hkey)
    rw [hu, Option.map_some, Option.map_some, localView]
  · rw [not_ne_iff.mp (mt SortedMap.mem_keys.mpr hkey), Option.map_none, Option.map_none]

/-! ### The operations -/

/-- What is shown where nothing is known has no data. -/
lemma dataOf_getD (maybe_doc : Option MaybeDocument) :
    dataOf (some (maybe_doc.getD (.noDocument SnapshotVersion.none false))) =
      dataOf maybe_doc := by
  cases maybe_doc <;> rfl

/-- The batch that a write adds. -/
def newBatch (s : LocalStore) (local_write_time : Timestamp) (mutations : List Mutation)
    (h : mutations ≠ []) : MutationBatch where
  batch_id := s.mutation_queue.next_batch_id
  local_write_time := local_write_time
  base_mutations := mutations.filterMap fun m =>
    (m.extractBaseValue (s.localView m.key)).map fun base_value =>
      .patch m.key base_value (toFieldMask base_value) (.ofExists true)
  mutations := mutations
  mutations_ne := h

lemma ofUser_newBatch (s : LocalStore) (local_write_time : Timestamp) {mutations : List Mutation}
    (h : mutations ≠ []) (hm : ∀ m ∈ mutations, m.OfUser) :
    (s.newBatch local_write_time mutations h).OfUser := by
  have hbase : ∀ m ∈ (s.newBatch local_write_time mutations h).base_mutations,
      ∃ m' ∈ mutations, ∃ v, m = .patch m'.key v (toFieldMask v) (.ofExists true) := by
    intro m hmem
    obtain ⟨m', hm', hmap⟩ := List.mem_filterMap.mp hmem
    obtain ⟨v, -, rfl⟩ := Option.map_eq_some_iff.mp hmap
    exact ⟨m', hm', v, rfl⟩
  refine ⟨fun m hmem t ht => ?_, fun m hmem => ?_, hm⟩
  · obtain ⟨m', -, v, rfl⟩ := hbase m hmem
    exact absurd ht (by simp [Mutation.precondition])
  · obtain ⟨m', hm', v, rfl⟩ := hbase m hmem
    exact ⟨m', hm', rfl⟩

/-- **A write adds its batch at the end of the queue**, and returns the documents
with the batch laid over what was shown. -/
theorem writeLocally_spec (hs : s.Inv) (local_write_time : Timestamp) {mutations : List Mutation}
    (h : mutations ≠ []) (hm : ∀ m ∈ mutations, m.OfUser) :
    ∃ changes s', s.writeLocally local_write_time mutations h =
        some ((s.mutation_queue.next_batch_id, changes), s') ∧
      s'.Inv ∧ s'.remote_document_cache = s.remote_document_cache ∧
      s'.last_remote_snapshot_version = s.last_remote_snapshot_version ∧
      s.mutation_queue.addMutationBatch local_write_time
          (s.newBatch local_write_time mutations h).base_mutations mutations h =
        (s.newBatch local_write_time mutations h, s'.mutation_queue) ∧
      ∀ m ∈ mutations, changes.find m.key =
        (fun doc => (s.newBatch local_write_time mutations h).applyToLocalDocument doc m.key)^[
          mutations.countP fun m' => m'.key = m.key]
          (some ((s.localView m.key).getD (.noDocument SnapshotVersion.none false))) := by
  obtain ⟨documents, hdocuments, hfind⟩ :=
    getDocuments_eq hs (SortedMap.addAll (mutations.map Mutation.key) .empty)
  have hshown : ∀ m ∈ mutations, documents.find m.key =
      some ((s.localView m.key).getD (.noDocument SnapshotVersion.none false)) := by
    intro m hmem
    rw [hfind, if_pos (SortedMap.mem_addAll_empty.mpr (List.mem_map_of_mem hmem))]
  have hbase : baseMutations documents mutations =
      (s.newBatch local_write_time mutations h).base_mutations := by
    refine List.filterMap_congr fun m hmem => ?_
    rw [hshown m hmem, Mutation.extractBaseValue_congr (dataOf_getD (s.localView m.key))]
  have hbatch : (s.mutation_queue.addMutationBatch local_write_time
      (baseMutations documents mutations) mutations h).1 =
        s.newBatch local_write_time mutations h := by
    rw [LevelDbMutationQueue.addMutationBatch, hbase]
    rfl
  rw [writeLocally, hdocuments, Option.map_some]
  refine ⟨_, _, rfl, ⟨?_, ?_⟩, rfl, rfl, ?_, fun m hmem => ?_⟩
  · exact LevelDbMutationQueue.inv_add local_write_time _ mutations h hs.queue
  · intro user_id id b hb
    rw [LevelDbMutationQueue.find_mutations_add] at hb
    split_ifs at hb with hnew
    · rw [← Option.some.inj hb, hbatch]
      exact ofUser_newBatch s local_write_time h hm
    · exact hs.ofUser user_id id b hb
  · rw [← hbase]
    exact Prod.ext hbatch rfl
  · rw [hbatch, MutationBatch.find_applyToLocalDocumentSet, hshown m hmem]
    rfl

/-- What an acknowledgement does to a document: documents that are as new already,
and those the batch does not write, stay. -/
inductive Acknowledged (r : MutationBatchResult) (key : DocumentKey) :
    Option MaybeDocument → Option MaybeDocument → Prop
  | other {doc} (h : ∀ m ∈ r.batch.mutations, m.key ≠ key) : Acknowledged r key doc doc
  | newer {doc : MaybeDocument} {v : SnapshotVersion} (hv : r.docVersions.find key = some v)
      (hle : v ≤ doc.version) : Acknowledged r key (some doc) (some doc)
  | applied {doc : Option MaybeDocument} {doc' : MaybeDocument} {v : SnapshotVersion}
      (hv : r.docVersions.find key = some v) (hlt : ∀ d, doc = some d → d.version < v)
      (happly : r.batch.applyToRemoteDocument doc key r.mutation_results = some (some doc'))
      (hversion : doc'.version = v) (hpending : doc'.has_pending_writes = true) :
      Acknowledged r key doc (some doc')

lemma applyAcknowledged_spec {r : MutationBatchResult} (hb : r.batch.OfUser)
    (hresults : r.batch.Accepts r.mutation_results) {key : DocumentKey}
    (hkey : ∃ m ∈ r.batch.mutations, m.key = key) (cache : MaybeDocumentMap) :
    ∃ cache', applyAcknowledged r cache key = some cache' ∧
      Acknowledged r key (cache.find key) (cache'.find key) ∧
      ∀ key', key' ≠ key → cache'.find key' = cache.find key' := by
  obtain ⟨m, hm, rfl⟩ := hkey
  obtain ⟨v, hv⟩ :=
    Option.ne_none_iff_exists'.mp (MutationBatch.find_docVersions_ne_none hm)
  obtain ⟨d, hd, hversion, hpending⟩ :=
    MutationBatch.version_applyToRemoteDocument hb hresults m.key (cache.find m.key) hv
  simp only [applyAcknowledged, hv, hd]
  split_ifs with hlt
  · refine ⟨_, rfl, ?_, fun key' hne => SortedMap.find_insert_of_ne hne cache d⟩
    rw [SortedMap.find_insert_self]
    refine Acknowledged.applied hv (fun d₀ hd₀ => ?_) hd hversion hpending
    rw [hd₀] at hlt
    exact of_decide_eq_true hlt
  · refine ⟨cache, rfl, ?_, fun _ _ => rfl⟩
    cases hdoc : cache.find m.key with
    | none => rw [hdoc] at hlt; exact absurd rfl hlt
    | some d₀ =>
        rw [hdoc] at hlt
        exact Acknowledged.newer hv (not_lt.mp (by simpa using hlt))

lemma foldlM_applyAcknowledged {r : MutationBatchResult} (hb : r.batch.OfUser)
    (hresults : r.batch.Accepts r.mutation_results) {keys : List DocumentKey} (hnodup : keys.Nodup)
    (hkeys : ∀ key ∈ keys, ∃ m ∈ r.batch.mutations, m.key = key) (cache : MaybeDocumentMap) :
    ∃ cache', keys.foldlM (applyAcknowledged r) cache = some cache' ∧
      (∀ key ∈ keys, Acknowledged r key (cache.find key) (cache'.find key)) ∧
      ∀ key, key ∉ keys → cache'.find key = cache.find key := by
  induction keys generalizing cache with
  | nil => exact ⟨cache, rfl, fun key hkey => absurd hkey List.not_mem_nil, fun _ _ => rfl⟩
  | cons key keys ih =>
      rw [List.nodup_cons] at hnodup
      obtain ⟨cache₁, h₁, hack, hother⟩ :=
        applyAcknowledged_spec hb hresults (hkeys key List.mem_cons_self) cache
      obtain ⟨cache₂, h₂, hall, hrest⟩ := ih hnodup.2
        (fun key' hkey' => hkeys key' (List.mem_cons_of_mem key hkey')) cache₁
      refine ⟨cache₂, ?_, fun key' hkey' => ?_, fun key' hkey' => ?_⟩
      · rw [List.foldlM_cons, h₁]
        exact h₂
      · rcases List.mem_cons.mp hkey' with rfl | hmem
        · rw [hrest key' hnodup.1]
          exact hack
        · have hne : key' ≠ key := fun heq => hnodup.1 (heq ▸ hmem)
          rw [← hother key' hne]
          exact hall key' hmem
      · rw [List.mem_cons, not_or] at hkey'
        rw [hrest key' hkey'.2, hother key' hkey'.1]

/-- What is left after a batch is removed. -/
lemma inv_removed (hs : s.Inv) {batch : MutationBatch}
    (hbatch : s.mutation_queue.lookupMutationBatch batch.batch_id = some batch)
    (cache : MaybeDocumentMap) :
    ∃ queue, s.mutation_queue.removeMutationBatch batch = some queue ∧
      Inv { s with mutation_queue := queue, remote_document_cache := cache } := by
  have hfind : s.mutation_queue.mutations.find
      (mutationKey s.mutation_queue.user_id batch.batch_id) ≠ none := by
    rw [← LevelDbMutationQueue.lookupMutationBatch, hbatch]
    exact Option.some_ne_none batch
  have hremove := LevelDbMutationQueue.removeMutationBatch_eq_some.mpr ⟨hfind, rfl⟩
  refine ⟨_, hremove, LevelDbMutationQueue.inv_remove hs.queue hbatch hremove,
    fun user_id id b hb => ?_⟩
  refine hs.ofUser user_id id b ?_
  rw [SortedMap.find_erase] at hb
  split_ifs at hb with hrow
  exact hb

lemma checkedDocuments_eq (hs : s.Inv) (keys : DocumentKeySet) :
    ∃ documents, s.checkedDocuments keys = some (documents, s) ∧
      ∀ key ∈ keys.keys, documents.find key =
        some ((s.localView key).getD (.noDocument SnapshotVersion.none false)) := by
  obtain ⟨documents, hdocuments, hfind⟩ := getDocuments_eq hs keys
  refine ⟨documents, ?_, fun key hkey => by rw [hfind, if_pos hkey]⟩
  rw [checkedDocuments, if_pos (LevelDbMutationQueue.performConsistencyCheck_eq hs.queue),
    hdocuments, Option.map_some]

/-- **An acknowledged batch leaves the queue**, and its documents are acknowledged. -/
theorem acknowledgeBatch_spec (hs : s.Inv) {r : MutationBatchResult}
    (hbatch : s.mutation_queue.lookupMutationBatch r.batch.batch_id = some r.batch)
    (hresults : r.batch.Accepts r.mutation_results) :
    ∃ documents s', s.acknowledgeBatch r = some (documents, s') ∧ s'.Inv ∧
      s'.last_remote_snapshot_version = s.last_remote_snapshot_version ∧
      s.mutation_queue.removeMutationBatch r.batch = some s'.mutation_queue ∧
      (∀ key, Acknowledged r key (s.remote_document_cache.find key)
        (s'.remote_document_cache.find key)) ∧
      ∀ m ∈ r.batch.mutations, documents.find m.key =
        some ((s'.localView m.key).getD (.noDocument SnapshotVersion.none false)) := by
  have hb : r.batch.OfUser := hs.ofUser _ _ r.batch hbatch
  have hnodup : r.batch.keys.keys.Nodup := r.batch.keys.sorted.imp fun h => h.ne
  obtain ⟨cache, hcache, hack, hother⟩ := foldlM_applyAcknowledged hb hresults hnodup
    (fun key hkey => MutationBatch.mem_keys.mp hkey) s.remote_document_cache
  obtain ⟨queue, hqueue, hinv⟩ := inv_removed hs hbatch cache
  obtain ⟨documents, hdocuments, hfind⟩ := checkedDocuments_eq hinv r.batch.keys
  refine ⟨documents, _, ?_, hinv, rfl, hqueue, fun key => ?_, fun m hm => ?_⟩
  · rw [acknowledgeBatch, applyBatchResult, hcache, Option.bind_some, hqueue, Option.map_some,
      Option.bind_some, hdocuments]
  · by_cases hkey : key ∈ r.batch.keys.keys
    · exact hack key hkey
    · rw [show s.remote_document_cache.find key = cache.find key from (hother key hkey).symm]
      exact Acknowledged.other fun m hm heq =>
        hkey (MutationBatch.mem_keys.mpr ⟨m, hm, heq⟩)
  · exact hfind m.key (MutationBatch.mem_keys.mpr ⟨m, hm, rfl⟩)

/-- **A rejected batch leaves the queue**, and the documents the server sent stay. -/
theorem rejectBatch_spec (hs : s.Inv) {batch : MutationBatch}
    (hbatch : s.mutation_queue.lookupMutationBatch batch.batch_id = some batch) :
    ∃ documents s', s.rejectBatch batch.batch_id = some (documents, s') ∧ s'.Inv ∧
      s'.remote_document_cache = s.remote_document_cache ∧
      s'.last_remote_snapshot_version = s.last_remote_snapshot_version ∧
      s.mutation_queue.removeMutationBatch batch = some s'.mutation_queue := by
  obtain ⟨queue, hqueue, hinv⟩ := inv_removed hs hbatch s.remote_document_cache
  obtain ⟨documents, hdocuments, -⟩ := checkedDocuments_eq hinv batch.keys
  refine ⟨documents, _, ?_, hinv, rfl, rfl, hqueue⟩
  rw [rejectBatch, hbatch, Option.bind_some, hqueue, Option.bind_some]
  exact hdocuments

/-- What a snapshot does to a document: documents it does not have, and those that
are newer or as new without pending writes, stay. -/
inductive Updated (e : RemoteEvent) (key : DocumentKey) :
    Option MaybeDocument → Option MaybeDocument → Prop
  | other {doc} (h : e.document_updates.find key = none) : Updated e key doc doc
  | lost {doc} {committed : Bool}
      (h : e.document_updates.find key = some (.noDocument SnapshotVersion.none committed)) :
      Updated e key doc none
  | newer {doc : Option MaybeDocument} {doc' : MaybeDocument}
      (h : e.document_updates.find key = some doc')
      (hle : ∀ d, doc = some d → d.version < doc'.version ∨
        doc'.version = d.version ∧ d.has_pending_writes = true) :
      Updated e key doc (some doc')
  | outdated {doc : MaybeDocument} {doc' : MaybeDocument}
      (h : e.document_updates.find key = some doc') (hle : doc'.version ≤ doc.version)
      (hnot : doc'.version = doc.version → doc.has_pending_writes ≠ true) :
      Updated e key (some doc) (some doc)

/-- A snapshot as the server sends it: only one that reports lost access has no
version, and the versions do not go back. -/
structure Follows (e : RemoteEvent) (last : SnapshotVersion) : Prop where
  lost : e.snapshot_version = SnapshotVersion.none → ∀ key doc,
    e.document_updates.find key = some doc → ∃ committed,
      doc = .noDocument SnapshotVersion.none committed
  le : e.snapshot_version ≠ SnapshotVersion.none → last ≤ e.snapshot_version

lemma applyDocumentUpdate_spec (s : LocalStore) {e : RemoteEvent}
    (he : Follows e s.last_remote_snapshot_version)
    (r : MaybeDocumentMap × SortedMap DocumentKey (Option MaybeDocument))
    {kv : DocumentKey × MaybeDocument} (hkv : e.document_updates.find kv.1 = some kv.2)
    (hr : r.1.find kv.1 = s.remote_document_cache.find kv.1) :
    ∃ r', s.applyDocumentUpdate e.snapshot_version r kv = some r' ∧
      Updated e kv.1 (s.remote_document_cache.find kv.1) (r'.1.find kv.1) ∧
      ∀ key, key ≠ kv.1 → r'.1.find key = r.1.find key := by
  obtain ⟨key, doc⟩ := kv
  simp only [applyDocumentUpdate]
  split_ifs with hlost hnewer hversion
  · obtain ⟨committed, rfl⟩ : ∃ committed, doc = .noDocument SnapshotVersion.none committed := by
      rcases doc with ⟨data, version, state⟩ | ⟨version, committed⟩ | version
      · exact absurd hlost (by simp)
      · exact ⟨committed, by rw [of_decide_eq_true hlost]⟩
      · exact absurd hlost (by simp)
    refine ⟨_, rfl, ?_, fun key' hne => ?_⟩
    · rw [SortedMap.find_erase, if_pos rfl]
      exact Updated.lost hkv
    · rw [SortedMap.find_erase, if_neg hne]
  · refine ⟨_, rfl, ?_, fun key' hne => SortedMap.find_insert_of_ne hne r.1 doc⟩
    rw [SortedMap.find_insert_self]
    refine Updated.newer hkv fun d hd => ?_
    rw [hd] at hnewer
    simpa using hnewer
  · -- only lost documents come without a version
    obtain ⟨committed, rfl⟩ := he.lost (not_not.mp hversion) key doc hkv
    exact absurd (by simp) hlost
  · refine ⟨r, rfl, ?_, fun _ _ => rfl⟩
    cases hdoc : s.remote_document_cache.find key with
    | none => rw [hdoc] at hnewer; exact absurd rfl hnewer
    | some d =>
        rw [hdoc] at hnewer hr
        rw [hr]
        refine Updated.outdated hkv (not_lt.mp fun hlt => hnewer ?_) fun heq hpending => hnewer ?_
        · simp [hlt]
        · simp [heq, hpending]

lemma foldlM_applyDocumentUpdate (s : LocalStore) {e : RemoteEvent}
    (he : Follows e s.last_remote_snapshot_version) {l : List (DocumentKey × MaybeDocument)}
    (hnodup : (l.map Prod.fst).Nodup)
    (hl : ∀ kv ∈ l, e.document_updates.find kv.1 = some kv.2)
    (r : MaybeDocumentMap × SortedMap DocumentKey (Option MaybeDocument))
    (hr : ∀ kv ∈ l, r.1.find kv.1 = s.remote_document_cache.find kv.1) :
    ∃ r', l.foldlM (s.applyDocumentUpdate e.snapshot_version) r = some r' ∧
      (∀ kv ∈ l, Updated e kv.1 (s.remote_document_cache.find kv.1) (r'.1.find kv.1)) ∧
      ∀ key, key ∉ l.map Prod.fst → r'.1.find key = r.1.find key := by
  induction l generalizing r with
  | nil => exact ⟨r, rfl, fun kv hkv => absurd hkv List.not_mem_nil, fun _ _ => rfl⟩
  | cons kv l ih =>
      rw [List.map_cons, List.nodup_cons] at hnodup
      have hne : ∀ kv' ∈ l, kv'.1 ≠ kv.1 := fun kv' hkv' heq =>
        hnodup.1 (heq ▸ List.mem_map_of_mem hkv')
      obtain ⟨r₁, h₁, hupdated, hother⟩ := applyDocumentUpdate_spec s he r
        (hl kv List.mem_cons_self) (hr kv List.mem_cons_self)
      obtain ⟨r₂, h₂, hall, hrest⟩ := ih hnodup.2
        (fun kv' hkv' => hl kv' (List.mem_cons_of_mem kv hkv')) r₁ fun kv' hkv' => by
          rw [hother kv'.1 (hne kv' hkv'), hr kv' (List.mem_cons_of_mem kv hkv')]
      refine ⟨r₂, ?_, fun kv' hkv' => ?_, fun key hkey => ?_⟩
      · rw [List.foldlM_cons, h₁]
        exact h₂
      · rcases List.mem_cons.mp hkv' with rfl | hmem
        · rw [hrest kv'.1 hnodup.1]
          exact hupdated
        · exact hall kv' hmem
      · rw [List.map_cons, List.mem_cons, not_or] at hkey
        rw [hrest key hkey.2, hother key hkey.1]

/-- **A snapshot updates the documents it has**, and leaves the queue. -/
theorem applyRemoteEvent_spec (hs : s.Inv) {e : RemoteEvent}
    (he : Follows e s.last_remote_snapshot_version) :
    ∃ documents s', s.applyRemoteEvent e = some (documents, s') ∧ s'.Inv ∧
      s'.mutation_queue = s.mutation_queue ∧
      s.last_remote_snapshot_version ≤ s'.last_remote_snapshot_version ∧
      ∀ key, Updated e key (s.remote_document_cache.find key)
        (s'.remote_document_cache.find key) := by
  have hnodup : (e.document_updates.entries.map Prod.fst).Nodup :=
    e.document_updates.sorted_entries.imp fun h => h.ne
  obtain ⟨r, hr, hupdated, hother⟩ := foldlM_applyDocumentUpdate s he hnodup
    (fun kv hkv => SortedMap.mem_entries.mp hkv) (s.remote_document_cache, .empty)
    fun _ _ => rfl
  obtain ⟨version, hversion, hle⟩ : ∃ version,
      (if e.snapshot_version = SnapshotVersion.none then some s.last_remote_snapshot_version
        else if s.last_remote_snapshot_version ≤ e.snapshot_version then
          some e.snapshot_version
        else none) = some version ∧ s.last_remote_snapshot_version ≤ version := by
    split_ifs with hnone hle
    · exact ⟨_, rfl, le_rfl⟩
    · exact ⟨_, rfl, hle⟩
    · exact absurd (he.le hnone) hle
  have hinv : Inv { s with
      remote_document_cache := r.1, last_remote_snapshot_version := version } :=
    ⟨hs.queue, hs.ofUser⟩
  obtain ⟨documents, hdocuments, -⟩ := getLocalViewOfDocuments_eq hinv r.2
  refine ⟨documents, _, ?_, hinv, rfl, hle, fun key => ?_⟩
  · rw [applyRemoteEvent, hr, Option.bind_some]
    simp only [hversion, Option.bind_some, hdocuments, Option.map_some]
  · cases hkey : e.document_updates.find key with
    | none =>
        have hnot : key ∉ e.document_updates.entries.map Prod.fst := by
          rw [SortedMap.map_fst_entries, SortedMap.mem_keys]
          exact not_ne_iff.mpr hkey
        rw [show r.1.find key = s.remote_document_cache.find key from hother key hnot]
        exact Updated.other hkey
    | some doc => exact hupdated (key, doc) (SortedMap.mem_entries.mpr hkey)

/-- **A change of the user changes the queue only**, and returns the documents of
both users' batches. -/
theorem handleUserChange_spec (hs : s.Inv) (user_id : String) :
    ∃ documents s', s.handleUserChange user_id = some (documents, s') ∧ s'.Inv ∧
      s'.remote_document_cache = s.remote_document_cache ∧
      s'.last_remote_snapshot_version = s.last_remote_snapshot_version ∧
      s'.mutation_queue = s.mutation_queue.start user_id := by
  have hinv : Inv { s with mutation_queue := s.mutation_queue.start user_id } :=
    ⟨LevelDbMutationQueue.inv_start hs.queue user_id, hs.ofUser⟩
  obtain ⟨documents, hdocuments, -⟩ := getDocuments_eq hinv
    (SortedMap.addAll
      ((s.mutation_queue.allMutationBatches ++
        (s.mutation_queue.start user_id).allMutationBatches).flatMap fun b =>
          b.mutations.map Mutation.key) .empty)
  refine ⟨documents, _, ?_, hinv, rfl, rfl, rfl⟩
  rw [handleUserChange]
  exact congrArg (Option.map _) hdocuments

end LocalStore

end Firestore
