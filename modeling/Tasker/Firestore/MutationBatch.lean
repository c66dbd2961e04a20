import Tasker.Firestore.Mutation

/-!
Batches of mutations (`model/mutation_batch.cc`).

* `MutationBatch`: the mutations of one write, with the base values of those that
  are not idempotent.
* `applyToLocalDocument`: a document as the device shows it with the batch laid
  over it; `applyToRemoteDocument`: the document once the batch is acknowledged.
* `effect`: what a batch makes of the data (`dataOf_applyToLocalDocument`).
* `applyToLocalDocumentSet` applies the whole batch to a document once for every
  mutation of it that the batch has (`find_applyToLocalDocumentSet`).
* `dataOf_applyToRemoteDocument`: an acknowledged batch leaves the data the view
  showed, if every mutation of it was foreseen.
-/

namespace Firestore

open Nested

/-- `MutationBatch`. -/
structure MutationBatch where
  batch_id : ℕ
  local_write_time : Timestamp
  base_mutations : List Mutation
  mutations : List Mutation
  mutations_ne : mutations ≠ []

/-- The result of a batch: the version of the commit, and one result for each
mutation. -/
structure MutationBatchResult where
  batch : MutationBatch
  commit_version : SnapshotVersion
  mutation_results : List MutationResult
  length_eq : batch.mutations.length = mutation_results.length

/-- `doc_versions`: the version of the last mutation of each document. -/
def MutationBatchResult.docVersions (r : MutationBatchResult) :
    SortedMap DocumentKey SnapshotVersion :=
  (r.batch.mutations.zip r.mutation_results).foldl
    (fun versions mr => versions.insert mr.1.key mr.2.version) .empty

/-- `DocumentKeySet`. -/
abbrev DocumentKeySet := SortedMap DocumentKey Unit

/-- `MaybeDocumentMap`. -/
abbrev MaybeDocumentMap := SortedMap DocumentKey MaybeDocument

namespace MutationBatch

/-- The mutations of a document, one after the other; the base document of each is
given by the document it is applied to. -/
def applyAll (base_doc : Option MaybeDocument → Option MaybeDocument)
    (local_write_time : Timestamp) (document_key : DocumentKey) (mutations : List Mutation)
    (maybe_doc : Option MaybeDocument) : Option MaybeDocument :=
  mutations.foldl
    (fun doc m =>
      if m.key = document_key then m.applyToLocalView doc (base_doc doc) local_write_time
      else doc)
    maybe_doc

/-- `ApplyToLocalDocument`: the base values first, then the mutations of the
user. -/
def applyToLocalDocument (b : MutationBatch) (maybe_doc : Option MaybeDocument)
    (document_key : DocumentKey) : Option MaybeDocument :=
  let base_doc := applyAll id b.local_write_time document_key b.base_mutations maybe_doc
  applyAll (fun _ => base_doc) b.local_write_time document_key b.mutations base_doc

/-- `ApplyToLocalDocumentSet`. -/
def applyToLocalDocumentSet (b : MutationBatch) (document_set : MaybeDocumentMap) :
    MaybeDocumentMap :=
  b.mutations.foldl
    (fun mutated_documents m =>
      match b.applyToLocalDocument (mutated_documents.find m.key) m.key with
      | some mutated_document => mutated_documents.insert m.key mutated_document
      | none => mutated_documents)
    document_set

/-- `ApplyToRemoteDocument`, unless an assertion fails. -/
def applyToRemoteDocument (b : MutationBatch) (maybe_doc : Option MaybeDocument)
    (document_key : DocumentKey) (mutation_results : List MutationResult) :
    Option (Option MaybeDocument) :=
  if b.mutations.length = mutation_results.length then
    (b.mutations.zip mutation_results).foldlM
      (fun doc r =>
        if r.1.key = document_key then (r.1.applyToRemoteDocument doc r.2).map some
        else some doc)
      maybe_doc
  else none

/-- `keys`. -/
def keys (b : MutationBatch) : DocumentKeySet :=
  SortedMap.addAll (b.mutations.map Mutation.key) .empty

lemma mem_keys {b : MutationBatch} {key : DocumentKey} :
    key ∈ b.keys.keys ↔ ∃ m ∈ b.mutations, m.key = key := by
  rw [keys, SortedMap.mem_addAll_empty, List.mem_map]

/-! ### What a batch does to the data -/

/-- What the mutations of a document make of its data. -/
def effectAll (base : Option ObjectValue → Option ObjectValue) (local_write_time : Timestamp)
    (document_key : DocumentKey) (mutations : List Mutation) (data : Option ObjectValue) :
    Option ObjectValue :=
  mutations.foldl
    (fun data m =>
      if m.key = document_key then m.effect (base data) local_write_time data else data)
    data

/-- What a batch makes of the data of a document. -/
def effect (b : MutationBatch) (document_key : DocumentKey) (data : Option ObjectValue) :
    Option ObjectValue :=
  let base := effectAll id b.local_write_time document_key b.base_mutations data
  effectAll (fun _ => base) b.local_write_time document_key b.mutations base

/-- A batch as the device makes it from the mutations of a user. -/
structure OfUser (b : MutationBatch) : Prop where
  base_plain : ∀ m ∈ b.base_mutations, m.Plain
  base_key : ∀ m ∈ b.base_mutations, ∃ m' ∈ b.mutations, m'.key = m.key
  ofUser : ∀ m ∈ b.mutations, m.OfUser

lemma dataOf_applyAll {mutations : List Mutation} (h : ∀ m ∈ mutations, m.Plain)
    {base_doc : Option MaybeDocument → Option MaybeDocument}
    {base : Option ObjectValue → Option ObjectValue}
    (hbase : ∀ doc, dataOf (base_doc doc) = base (dataOf doc)) (local_write_time : Timestamp)
    (document_key : DocumentKey) (maybe_doc : Option MaybeDocument) :
    dataOf (applyAll base_doc local_write_time document_key mutations maybe_doc) =
      effectAll base local_write_time document_key mutations (dataOf maybe_doc) := by
  induction mutations generalizing maybe_doc with
  | nil => rfl
  | cons m mutations ih =>
      have htail : ∀ m ∈ mutations, m.Plain := fun m' hm' => h m' (List.mem_cons_of_mem m hm')
      rw [applyAll, List.foldl_cons, effectAll, List.foldl_cons]
      split_ifs with hkey
      · rw [← hbase, ← Mutation.dataOf_applyToLocalView (h m List.mem_cons_self)]
        exact ih htail _
      · exact ih htail maybe_doc

/-- **A document with a batch laid over it has the data the batch makes.** -/
theorem dataOf_applyToLocalDocument {b : MutationBatch} (h : b.OfUser)
    (maybe_doc : Option MaybeDocument) (document_key : DocumentKey) :
    dataOf (b.applyToLocalDocument maybe_doc document_key) =
      b.effect document_key (dataOf maybe_doc) := by
  have hid : ∀ doc : Option MaybeDocument, dataOf (id doc) = id (dataOf doc) := fun _ => rfl
  have hbase := dataOf_applyAll h.base_plain hid b.local_write_time document_key maybe_doc
  rw [applyToLocalDocument, effect, ← hbase]
  exact dataOf_applyAll (fun m hm => (h.ofUser m hm).plain) (fun _ => rfl) _ _ _

/-! ### Documents a batch does not write -/

lemma applyAll_of_forall_ne {mutations : List Mutation} {document_key : DocumentKey}
    (h : ∀ m ∈ mutations, m.key ≠ document_key)
    (base_doc : Option MaybeDocument → Option MaybeDocument) (local_write_time : Timestamp)
    (maybe_doc : Option MaybeDocument) :
    applyAll base_doc local_write_time document_key mutations maybe_doc = maybe_doc := by
  induction mutations with
  | nil => rfl
  | cons m mutations ih =>
      rw [applyAll, List.foldl_cons, if_neg (h m List.mem_cons_self)]
      exact ih fun m' hm' => h m' (List.mem_cons_of_mem m hm')

/-- A batch leaves the documents it does not write alone. -/
lemma applyToLocalDocument_of_forall_ne {b : MutationBatch} (hb : b.OfUser)
    {document_key : DocumentKey} (h : ∀ m ∈ b.mutations, m.key ≠ document_key)
    (maybe_doc : Option MaybeDocument) :
    b.applyToLocalDocument maybe_doc document_key = maybe_doc := by
  have hbase : ∀ m ∈ b.base_mutations, m.key ≠ document_key := by
    intro m hm
    obtain ⟨m', hm', hkey⟩ := hb.base_key m hm
    exact hkey ▸ h m' hm'
  rw [applyToLocalDocument, applyAll_of_forall_ne hbase, applyAll_of_forall_ne h]

/-- What is known of a document stays known. -/
lemma applyToLocalDocument_ne_none (b : MutationBatch) (doc : MaybeDocument)
    (document_key : DocumentKey) :
    b.applyToLocalDocument (some doc) document_key ≠ none := by
  have hstep : ∀ (m : Mutation) (doc : MaybeDocument) (base_doc : Option MaybeDocument)
      (t : Timestamp), (m.applyToLocalView (some doc) base_doc t).isSome := by
    intro m doc base_doc t
    unfold Mutation.applyToLocalView
    split_ifs
    · cases m <;> rfl
    · rfl
  have hall : ∀ (base_doc : Option MaybeDocument → Option MaybeDocument) (t : Timestamp)
      (mutations : List Mutation) (doc : Option MaybeDocument), doc.isSome →
      (applyAll base_doc t document_key mutations doc).isSome := by
    intro base_doc t mutations
    induction mutations with
    | nil => exact fun doc h => h
    | cons m mutations ih =>
        intro doc h
        rw [applyAll, List.foldl_cons]
        refine ih _ ?_
        split_ifs
        · obtain ⟨d, rfl⟩ := Option.isSome_iff_exists.mp h
          exact hstep m d _ t
        · exact h
  exact Option.isSome_iff_ne_none.mp (hall _ _ _ _ (hall _ _ _ _ rfl))

/-! ### Sets of documents -/

/-- **The set applies the batch to a document once for every mutation of it.** -/
theorem find_applyToLocalDocumentSet (b : MutationBatch) (document_set : MaybeDocumentMap)
    (key : DocumentKey) :
    (b.applyToLocalDocumentSet document_set).find key =
      (fun doc => b.applyToLocalDocument doc key)^[b.mutations.countP fun m => m.key = key]
        (document_set.find key) := by
  rw [applyToLocalDocumentSet]
  generalize b.mutations = mutations
  induction mutations generalizing document_set with
  | nil => rfl
  | cons m mutations ih =>
      rw [List.foldl_cons, ih, List.countP_cons]
      -- one more application to the document of the first mutation, none to the others
      cases hdoc : b.applyToLocalDocument (document_set.find m.key) m.key with
      | some d =>
          simp only
          by_cases hkey : m.key = key
          · subst hkey
            rw [SortedMap.find_insert_self, if_pos (decide_eq_true rfl),
              Function.iterate_succ_apply, hdoc]
          · rw [SortedMap.find_insert_of_ne (Ne.symm hkey), if_neg (by simpa using hkey),
              Nat.add_zero]
      | none =>
          simp only
          by_cases hkey : m.key = key
          · subst hkey
            have hnone : document_set.find m.key = none := by
              by_contra hne
              obtain ⟨d, hd⟩ := Option.ne_none_iff_exists'.mp hne
              exact applyToLocalDocument_ne_none b d m.key (hd ▸ hdoc)
            rw [if_pos (decide_eq_true rfl), Function.iterate_succ_apply, hdoc, hnone]
          · rw [if_neg (by simpa using hkey), Nat.add_zero]

/-! ### Acknowledged batches -/

/-- Every mutation of the document is foreseen when its turn comes. -/
def ForeseenAll (base : Option ObjectValue) (local_write_time : Timestamp)
    (document_key : DocumentKey) : List Mutation → Option ObjectValue → Prop
  | [], _ => True
  | m :: mutations, data =>
      if m.key = document_key then
        m.Foreseen base data ∧
          ForeseenAll base local_write_time document_key mutations
            (m.effect base local_write_time data)
      else ForeseenAll base local_write_time document_key mutations data

/-- The batch has no base values, and its mutations are foreseen. -/
def Foreseen (b : MutationBatch) (document_key : DocumentKey) (data : Option ObjectValue) :
    Prop :=
  b.base_mutations = [] ∧
    ForeseenAll data b.local_write_time document_key b.mutations data

/-- The results are those of the mutations. -/
def Accepts (b : MutationBatch) (mutation_results : List MutationResult) : Prop :=
  List.Forall₂ Mutation.Accepts b.mutations mutation_results

lemma foldlM_applyToRemoteDocument {mutations : List Mutation}
    {mutation_results : List MutationResult} (h : ∀ m ∈ mutations, m.OfUser)
    (hresults : List.Forall₂ Mutation.Accepts mutations mutation_results)
    (document_key : DocumentKey) (maybe_doc : Option MaybeDocument) :
    ∃ doc, (mutations.zip mutation_results).foldlM
        (fun doc r =>
          if r.1.key = document_key then (r.1.applyToRemoteDocument doc r.2).map some
          else some doc)
        maybe_doc = some doc ∧
      ∀ base local_write_time,
        ForeseenAll base local_write_time document_key mutations (dataOf maybe_doc) →
          dataOf doc =
            effectAll (fun _ => base) local_write_time document_key mutations
              (dataOf maybe_doc) := by
  induction hresults generalizing maybe_doc with
  | nil => exact ⟨maybe_doc, rfl, fun _ _ _ => rfl⟩
  | @cons m r mutations mutation_results hm hresults ih =>
      have htail : ∀ m ∈ mutations, m.OfUser := fun m' hm' => h m' (List.mem_cons_of_mem m hm')
      have huser := h m List.mem_cons_self
      rw [List.zip_cons_cons, List.foldlM_cons]
      simp only [effectAll, List.foldl_cons, ForeseenAll]
      split_ifs with hkey
      · obtain ⟨doc, hdoc, hdata, -, -⟩ :=
          Mutation.applyToRemoteDocument_spec huser.plain hm maybe_doc
        obtain ⟨doc', hdoc', heffect⟩ := ih htail (some doc)
        refine ⟨doc', by rw [hdoc]; exact hdoc', fun base t hf => ?_⟩
        rw [← Mutation.commit_eq_effect huser hm hf.1 t, ← hdata]
        rw [← Mutation.commit_eq_effect huser hm hf.1 t, ← hdata] at hf
        exact heffect base t hf.2
      · obtain ⟨doc', hdoc', heffect⟩ := ih htail maybe_doc
        exact ⟨doc', hdoc', fun base t hf => heffect base t hf⟩

/-- The document and the version of a batch with one more result each. -/
lemma foldl_docVersions {mutations : List Mutation} {mutation_results : List MutationResult}
    (h : ∀ m ∈ mutations, m.OfUser)
    (hresults : List.Forall₂ Mutation.Accepts mutations mutation_results)
    (document_key : DocumentKey) (maybe_doc : Option MaybeDocument)
    (versions : SortedMap DocumentKey SnapshotVersion)
    (hdoc : ∀ v, versions.find document_key = some v →
      ∃ d, maybe_doc = some d ∧ d.version = v ∧ d.has_pending_writes = true) :
    ∃ doc, (mutations.zip mutation_results).foldlM
        (fun doc r =>
          if r.1.key = document_key then (r.1.applyToRemoteDocument doc r.2).map some
          else some doc)
        maybe_doc = some doc ∧
      ∀ v, ((mutations.zip mutation_results).foldl
          (fun versions mr => versions.insert mr.1.key mr.2.version) versions).find
            document_key = some v →
        ∃ d, doc = some d ∧ d.version = v ∧ d.has_pending_writes = true := by
  induction hresults generalizing maybe_doc versions with
  | nil => exact ⟨maybe_doc, rfl, hdoc⟩
  | @cons m r mutations mutation_results hm hresults ih =>
      have htail : ∀ m ∈ mutations, m.OfUser := fun m' hm' => h m' (List.mem_cons_of_mem m hm')
      rw [List.zip_cons_cons, List.foldlM_cons, List.foldl_cons]
      split_ifs with hkey
      · obtain ⟨d, hd, -, hversion, hpending⟩ :=
          Mutation.applyToRemoteDocument_spec (h m List.mem_cons_self).plain hm maybe_doc
        rw [hd]
        refine ih htail (some d) _ fun v hv => ⟨d, rfl, ?_, hpending⟩
        rw [hkey, SortedMap.find_insert_self] at hv
        exact hversion.trans (Option.some.inj hv)
      · refine ih htail maybe_doc _ fun v hv => hdoc v ?_
        rwa [SortedMap.find_insert_of_ne (Ne.symm hkey)] at hv

lemma find_docVersions_ne_none {r : MutationBatchResult} {m : Mutation}
    (hm : m ∈ r.batch.mutations) : r.docVersions.find m.key ≠ none := by
  have hall : ∀ (l : List (Mutation × MutationResult))
      (versions : SortedMap DocumentKey SnapshotVersion),
      versions.find m.key ≠ none ∨ (∃ mr ∈ l, mr.1.key = m.key) →
        (l.foldl (fun versions mr => versions.insert mr.1.key mr.2.version) versions).find
          m.key ≠ none := by
    intro l
    induction l with
    | nil => exact fun versions h => h.resolve_right (by simp)
    | cons mr l ih =>
        intro versions h
        rw [List.foldl_cons]
        refine ih _ ?_
        rw [SortedMap.find_insert]
        split_ifs with hkey
        · exact Or.inl (Option.some_ne_none _)
        · refine h.imp_right fun h => ?_
          obtain ⟨mr', hmr', hkey'⟩ := h
          rcases List.mem_cons.mp hmr' with rfl | hmem
          · exact absurd hkey'.symm hkey
          · exact ⟨mr', hmem, hkey'⟩
  refine hall _ _ (Or.inr ?_)
  have hfst : (r.batch.mutations.zip r.mutation_results).map Prod.fst = r.batch.mutations :=
    List.map_fst_zip r.length_eq.le
  rw [← hfst] at hm
  obtain ⟨mr, hmr, rfl⟩ := List.mem_map.mp hm
  exact ⟨mr, hmr, rfl⟩

/-- **An acknowledged document has the version of its last mutation**, and is shown
as pending until the server sends it. -/
theorem version_applyToRemoteDocument {r : MutationBatchResult} (hb : r.batch.OfUser)
    (hresults : r.batch.Accepts r.mutation_results) (document_key : DocumentKey)
    (maybe_doc : Option MaybeDocument) {v : SnapshotVersion}
    (hv : r.docVersions.find document_key = some v) :
    ∃ d, r.batch.applyToRemoteDocument maybe_doc document_key r.mutation_results =
        some (some d) ∧ d.version = v ∧ d.has_pending_writes = true := by
  obtain ⟨doc, hdoc, hversion⟩ := foldl_docVersions hb.ofUser hresults document_key maybe_doc
    .empty fun v hv => absurd hv (by simp)
  obtain ⟨d, rfl, hd⟩ := hversion v hv
  refine ⟨d, ?_, hd⟩
  rw [applyToRemoteDocument, if_pos hresults.length_eq, hdoc]

/-- **An acknowledged batch leaves the data that the view showed**, if every
mutation of it was foreseen. -/
theorem dataOf_applyToRemoteDocument {b : MutationBatch} (hb : b.OfUser)
    {mutation_results : List MutationResult} (hresults : b.Accepts mutation_results)
    (document_key : DocumentKey) (maybe_doc : Option MaybeDocument) :
    ∃ doc, b.applyToRemoteDocument maybe_doc document_key mutation_results = some doc ∧
      (b.Foreseen document_key (dataOf maybe_doc) →
        dataOf doc = b.effect document_key (dataOf maybe_doc)) := by
  obtain ⟨doc, hdoc, hdata⟩ :=
    foldlM_applyToRemoteDocument hb.ofUser hresults document_key maybe_doc
  refine ⟨doc, ?_, fun hf => ?_⟩
  · rw [applyToRemoteDocument, if_pos hresults.length_eq, hdoc]
  · rw [hdata (dataOf maybe_doc) b.local_write_time hf.2, effect, hf.1]
    rfl

end MutationBatch

end Firestore
