import Tasker.Firestore.SyncEngine
import Tasker.Lib.VersionedCache

/-!
What a device knows of the server's documents.

The documents of a snapshot and the acknowledgements of the device's own writes reach
the cache in any order. A document that was made from an acknowledgement is pending
until a snapshot has it.

* `cached_step`: what one event does to a document of the cache.
* `version_exec`: the version of a cached document never goes back.
* `coherent_exec`: a cached document that is not pending is the server's of its
  version.
* `shown_exec`: once a snapshot has had the latest version of a document, the
  device shows it with its own writes laid over it, whatever has happened before
  and since.
-/

namespace Firestore

open EventSystem VersionedCache

namespace SyncEngine

open LevelDbMutationQueue (annsKey)

variable {α : Type*} {s s' : SyncEngine α}

/-- A document of the cache. -/
def cached (s : SyncEngine α) (key : DocumentKey) : Option MaybeDocument :=
  s.local_store.remote_document_cache.find key

/-- A document that is pending. -/
def Pending (doc : MaybeDocument) : Prop := doc.has_pending_writes = true

/-! ### One event -/

lemma cached_fillWritePipeline (s : SyncEngine α) (key : DocumentKey) :
    s.fillWritePipeline.cached key = s.cached key := by
  rw [fillWritePipeline]
  split_ifs <;> rfl

lemma cached_handleCredentialChange (hs : s.Inv) {user_id : String}
    (h : s.handleCredentialChange user_id = some s') (key : DocumentKey) :
    s'.cached key = s.cached key := by
  have hrestart : ∀ t : SyncEngine α,
      (if t.is_network_enabled then t.disableNetwork.enableNetwork else t).cached key =
        t.cached key := by
    intro t
    split_ifs
    · exact cached_fillWritePipeline _ key
    · rfl
  rw [handleCredentialChange] at h
  split_ifs at h with hne
  · obtain ⟨documents, store, hchange, -, hcache, -⟩ :=
      LocalStore.handleUserChange_spec hs.store user_id
    rw [hchange, Option.map_some, Option.map_some] at h
    obtain rfl := Option.some.inj h
    rw [hrestart, cached, hcache, cached]
  · obtain rfl := Option.some.inj h
    exact hrestart s

lemma updated_of_step (hs : s.Inv) {e : RemoteEvent}
    (he : LocalStore.Follows e s.local_store.last_remote_snapshot_version)
    (h : step s (.remoteEvent e) = some s') (key : DocumentKey) :
    LocalStore.Updated e key (s.cached key) (s'.cached key) := by
  obtain ⟨documents, store, happly, -, -, -, hcache⟩ :=
    LocalStore.applyRemoteEvent_spec hs.store he
  rw [step, happly, Option.map_some] at h
  obtain rfl := Option.some.inj h
  exact hcache key

lemma acknowledged_of_step (hs : s.Inv) {commit_version : SnapshotVersion}
    {mutation_results : List MutationResult}
    (he : ∃ batch ∈ s.write_pipeline.head?, batch.Accepts mutation_results)
    (h : step s (.mutationResult commit_version mutation_results) = some s') :
    ∃ r : MutationBatchResult, r.commit_version = commit_version ∧
      r.mutation_results = mutation_results ∧ s.write_pipeline.head? = some r.batch ∧
      s'.queue.user_id = s.queue.user_id ∧ r.batch.OfUser ∧ r.batch.Accepts r.mutation_results ∧
      ∀ key, LocalStore.Acknowledged r key (s.cached key) (s'.cached key) := by
  obtain ⟨batch, hhead, hresults⟩ := he
  obtain ⟨write_pipeline, hpipeline⟩ := List.head?_eq_some_iff.mp hhead
  have hbatch := lookupMutationBatch_of_pipeline hs hpipeline
  obtain ⟨documents, store, hack, -, -, hremove, hcache, -⟩ :=
    LocalStore.acknowledgeBatch_spec (r := ⟨batch, commit_version, mutation_results,
      hresults.length_eq⟩) hs.store hbatch hresults
  rw [step, mutationResult, hpipeline] at h
  dsimp only at h
  rw [dif_pos hresults.length_eq, hack, Option.map_some] at h
  obtain rfl := Option.some.inj h
  refine ⟨⟨batch, commit_version, mutation_results, hresults.length_eq⟩, rfl, rfl, hhead, ?_,
    hs.store.ofUser _ _ batch hbatch, hresults, fun key => ?_⟩
  · have huser : store.mutation_queue.user_id = s.queue.user_id := by
      rw [(LevelDbMutationQueue.removeMutationBatch_eq_some.mp hremove).2]
      rfl
    rw [fillWritePipeline]
    split_ifs
    · exact huser
    · exact huser
  · rw [cached_fillWritePipeline]
    exact hcache key

/-- **Only answers and snapshots change the cache.** -/
theorem cached_step (hs : s.Inv) {e : Event α} (he : s.Admissible e) (h : step s e = some s')
    (key : DocumentKey) :
    s'.cached key = s.cached key ∨
      (∃ r : MutationBatchResult, e = .mutationResult r.commit_version r.mutation_results ∧
        s.write_pipeline.head? = some r.batch ∧
        LocalStore.Acknowledged r key (s.cached key) (s'.cached key)) ∨
      ∃ remote_event, e = .remoteEvent remote_event ∧
        LocalStore.Updated remote_event key (s.cached key) (s'.cached key) := by
  cases e with
  | writeMutations local_write_time mutations callback =>
      obtain ⟨changes, store, hwrite, -, hcache, -⟩ :=
        LocalStore.writeLocally_spec hs.store local_write_time he.1 he.2
      rw [step, writeMutations, dif_pos he.1, hwrite, Option.map_some] at h
      obtain rfl := Option.some.inj h
      refine Or.inl ((cached_fillWritePipeline _ key).trans ?_)
      exact congrArg (fun cache : MaybeDocumentMap => cache.find key) hcache
  | mutationResult commit_version mutation_results =>
      obtain ⟨r, rfl, rfl, hhead, -, -, -, hack⟩ := acknowledged_of_step hs he h
      exact Or.inr (Or.inl ⟨r, rfl, hhead, hack key⟩)
  | writeError =>
      obtain ⟨batch, write_pipeline, hpipeline⟩ := List.exists_cons_of_ne_nil he
      obtain ⟨documents, store, hreject, -, hcache, -⟩ :=
        LocalStore.rejectBatch_spec hs.store (lookupMutationBatch_of_pipeline hs hpipeline)
      rw [step, writeError, hpipeline] at h
      dsimp only at h
      rw [hreject, Option.map_some] at h
      obtain rfl := Option.some.inj h
      refine Or.inl ((cached_fillWritePipeline _ key).trans ?_)
      exact congrArg (fun cache : MaybeDocumentMap => cache.find key) hcache
  | remoteEvent remote_event =>
      exact Or.inr (Or.inr ⟨remote_event, rfl, updated_of_step hs he h key⟩)
  | credentialChange user_id => exact Or.inl (cached_handleCredentialChange hs h key)
  | disableNetwork =>
      obtain rfl := Option.some.inj h
      exact Or.inl rfl
  | enableNetwork =>
      obtain rfl := Option.some.inj h
      exact Or.inl (cached_fillWritePipeline _ key)
  | restart user_id =>
      obtain rfl := Option.some.inj h
      exact Or.inl (cached_fillWritePipeline _ key)

/-- Access to no document is lost: only lost documents come without a version. -/
def KeepsAccess : Event α → Prop
  | .remoteEvent e => ∀ key doc, e.document_updates.find key = some doc →
      doc.version ≠ SnapshotVersion.none
  | _ => True

/-- A document of a snapshot arrives at the cache. -/
lemma delivered_of_updated {e : RemoteEvent} {key : DocumentKey} {doc : MaybeDocument}
    {c c' : Option MaybeDocument} (h : LocalStore.Updated e key c c')
    (hdoc : e.document_updates.find key = some doc)
    (hversion : doc.version ≠ SnapshotVersion.none) :
    Delivered MaybeDocument.version Pending doc c c' := by
  cases h with
  | other hnone => exact absurd (hnone.symm.trans hdoc) (by simp)
  | lost hlost =>
      obtain rfl := Option.some.inj (hlost.symm.trans hdoc)
      exact absurd rfl hversion
  | newer hnewer hle =>
      obtain rfl := Option.some.inj (hnewer.symm.trans hdoc)
      exact Delivered.taken hle
  | outdated hout hle hnot =>
      obtain rfl := Option.some.inj (hout.symm.trans hdoc)
      exact Delivered.kept hle hnot

/-- What becomes of a cached document, if the documents of a snapshot are those of
`history`. -/
lemma cacheStep (hs : s.Inv) {e : Event α} (he : s.Admissible e) (haccess : KeepsAccess e)
    (h : step s e = some s') (key : DocumentKey) (history : SnapshotVersion → MaybeDocument)
    (hhistory : ∀ remote_event, e = .remoteEvent remote_event → ∀ doc,
      remote_event.document_updates.find key = some doc → doc = history doc.version) :
    Step MaybeDocument.version Pending history (s.cached key) (s'.cached key) := by
  rcases cached_step hs he h key with hsame | ⟨r, -, -, hack⟩ | ⟨remote_event, rfl, hupdated⟩
  · rw [hsame]
    exact Step.stay _
  · generalize s.cached key = c, s'.cached key = c' at hack
    cases hack with
    | other hne => exact Step.stay _
    | newer hv hle => exact Step.stay _
    | applied hv hlt happly hversion hpending =>
        exact Step.made hpending fun d hd => hversion ▸ hlt d hd
  · cases hdoc : remote_event.document_updates.find key with
    | none =>
        have hsame : s'.cached key = s.cached key := by
          generalize s.cached key = c, s'.cached key = c' at hupdated
          cases hupdated with
          | other hnone => rfl
          | lost hlost => exact absurd (hdoc.symm.trans hlost) (by simp)
          | newer hnewer hle => exact absurd (hdoc.symm.trans hnewer) (by simp)
          | outdated hout hle hnot => rfl
        rw [hsame]
        exact Step.stay _
    | some doc =>
        exact Step.delivered (hhistory remote_event rfl doc hdoc)
          (delivered_of_updated hupdated hdoc (haccess key doc hdoc))

/-! ### Runs -/

/-- **The version of a cached document never goes back.** -/
theorem version_exec (hs : s.Inv) {es : List (Event α)}
    (hes : EachStep step (fun s e => s.Admissible e ∧ KeepsAccess e) s es)
    (h : exec step s es = some s') {key : DocumentKey} {doc : MaybeDocument}
    (hdoc : s.cached key = some doc) :
    ∃ doc', s'.cached key = some doc' ∧ doc.version ≤ doc'.version := by
  have hstep : ∀ (t : SyncEngine α) e t',
      (t.Inv ∧ ∃ d, t.cached key = some d ∧ doc.version ≤ d.version) →
      (t.Admissible e ∧ KeepsAccess e) → step t e = some t' →
      t'.Inv ∧ ∃ d, t'.cached key = some d ∧ doc.version ≤ d.version := by
    rintro t e t' ⟨hinv, d, hd, hle⟩ ⟨he, haccess⟩ ht'
    -- whatever a snapshot has may be the server's document of its version
    obtain ⟨sent, hsent⟩ : ∃ sent : MaybeDocument, ∀ remote_event, e = .remoteEvent remote_event →
        ∀ doc, remote_event.document_updates.find key = some doc → doc = sent := by
      cases e with
      | remoteEvent remote_event =>
          refine ⟨(remote_event.document_updates.find key).getD d, ?_⟩
          rintro _ ⟨⟩ doc hdoc
          rw [hdoc, Option.getD_some]
      | _ => exact ⟨d, fun _ heq => absurd heq (by simp)⟩
    obtain ⟨d', hd', hle'⟩ := (cacheStep hinv he haccess ht' key (fun _ => sent) hsent).exists_le hd
    exact ⟨inv_step hinv he ht', d', hd', hle.trans hle'⟩
  exact (exec_invariant_of_eachStep hstep ⟨hs, doc, hdoc, le_rfl⟩ hes h).2

/-- A device that knows of no document of Ann's. -/
def deletedAnn : SyncEngine String :=
  let s : SyncEngine String := fresh "ann"
  { s with local_store := { s.local_store with
      remote_document_cache := .insert .empty annsKey (.noDocument ⟨⟨1, 0⟩⟩ false) } }

lemma inv_deletedAnn : deletedAnn.Inv :=
  have h := inv_fresh (α := String) "ann"
  ⟨⟨h.store.queue, h.store.ofUser⟩, h.pipeline, h.callbacks⟩

theorem version_exec_interrupted :
    ∃ s', exec step deletedAnn interrupted = some s' ∧
      ∃ doc, s'.cached annsKey = some doc ∧ ⟨⟨1, 0⟩⟩ ≤ doc.version := by
  have hes : EachStep step (fun s e => s.Admissible e ∧ KeepsAccess e) deletedAnn interrupted :=
    eachStep_of_forall fun s e he => by
      refine ⟨(admissible_interrupted s he).1, ?_⟩
      simp only [interrupted, List.mem_cons, List.not_mem_nil, or_false] at he
      rcases he with rfl | rfl | rfl | rfl <;> trivial
  obtain ⟨s', h, -⟩ := exists_exec inv_deletedAnn
    (eachStep_of_forall fun s _ he => (admissible_interrupted s he).1)
  exact ⟨s', h, version_exec inv_deletedAnn hes h (SortedMap.find_insert_self _ _ _)⟩

/-- The documents of the server: what each is at its versions, and the latest
version of each. -/
structure Server where
  document : DocumentKey → SnapshotVersion → MaybeDocument
  latest : DocumentKey → SnapshotVersion
  version_latest : ∀ key, (document key (latest key)).version = latest key
  not_pending_latest : ∀ key, ¬ Pending (document key (latest key))

/-- The documents of a snapshot are those of the server, and so are the versions of
an answer. -/
def FromServer (server : Server) (s : SyncEngine α) : Event α → Prop
  | .remoteEvent e => ∀ key doc, e.document_updates.find key = some doc →
      doc = server.document key doc.version ∧ doc.version ≤ server.latest key ∧
        doc.version ≠ SnapshotVersion.none
  | .mutationResult _ mutation_results =>
      ∀ batch ∈ s.write_pipeline.head?, ∀ r ∈ batch.mutations.zip mutation_results,
        r.2.version ≤ server.latest r.1.key
  | _ => True

/-- What is cached has been the server's, or is pending. -/
structure CoherentWith (server : Server) (s : SyncEngine α) (key : DocumentKey) : Prop where
  coherent : Coherent MaybeDocument.version Pending (server.document key) (s.cached key)
  le_latest : ∀ doc, s.cached key = some doc → doc.version ≤ server.latest key

/-- The version of an acknowledged document is one of the results. -/
lemma find_docVersions {r : MutationBatchResult} {key : DocumentKey} {v : SnapshotVersion}
    (h : r.docVersions.find key = some v) :
    ∃ mr ∈ r.batch.mutations.zip r.mutation_results, mr.1.key = key ∧ mr.2.version = v := by
  have hall : ∀ (l : List (Mutation × MutationResult))
      (versions : SortedMap DocumentKey SnapshotVersion),
      (l.foldl (fun versions mr => versions.insert mr.1.key mr.2.version) versions).find key =
        some v →
      versions.find key = some v ∨ ∃ mr ∈ l, mr.1.key = key ∧ mr.2.version = v := by
    intro l
    induction l with
    | nil => exact fun _ h => Or.inl h
    | cons mr l ih =>
        intro versions h
        rcases ih _ h with hfind | ⟨mr', hmem, hmr'⟩
        · rw [SortedMap.find_insert] at hfind
          split_ifs at hfind with hkey
          · exact Or.inr ⟨mr, List.mem_cons_self, hkey.symm, Option.some.inj hfind⟩
          · exact Or.inl hfind
        · exact Or.inr ⟨mr', List.mem_cons_of_mem mr hmem, hmr'⟩
  rcases hall _ _ h with hfind | hmem
  · exact absurd hfind (by simp)
  · exact hmem

variable {server : Server}

lemma FromServer.keepsAccess {e : Event α} (h : FromServer server s e) : KeepsAccess e := by
  cases e with
  | remoteEvent remote_event => exact fun key doc hdoc => (h key doc hdoc).2.2
  | _ => trivial

lemma admissible_of_fromServer {es : List (Event α)}
    (h : EachStep step (fun s e => s.Admissible e ∧ FromServer server s e) s es) :
    EachStep step Admissible s es :=
  EachStep.imp (J := fun _ => True) (fun _ _ _ _ _ _ => trivial) (fun _ _ _ he => he.1) trivial h

/-- One event keeps the cache coherent with the server. -/
lemma coherentWith_step (hs : s.Inv) {e : Event α} (he : s.Admissible e)
    (hserver : FromServer server s e) (h : step s e = some s') {key : DocumentKey}
    (hc : CoherentWith server s key) :
    Step MaybeDocument.version Pending (server.document key) (s.cached key) (s'.cached key) ∧
      CoherentWith server s' key := by
  have hstep := cacheStep hs he hserver.keepsAccess h key (server.document key)
    fun remote_event heq doc hdoc => by
      subst heq
      exact (hserver key doc hdoc).1
  refine ⟨hstep, hstep.coherent hc.coherent, fun doc hdoc => ?_⟩
  rcases cached_step hs he h key with hsame | ⟨r, rfl, hhead, hack⟩ | ⟨remote_event, rfl, hupdated⟩
  · exact hc.le_latest doc (hsame ▸ hdoc)
  · rw [hdoc] at hack
    generalize hcached : s.cached key = c at hack
    cases hack with
    | other hne => exact hc.le_latest doc hcached
    | newer hv hle => exact hc.le_latest doc hcached
    | applied hv hlt happly hversion hpending =>
        obtain ⟨mr, hmr, rfl, hmrv⟩ := find_docVersions hv
        rw [hversion, ← hmrv]
        exact hserver r.batch hhead mr hmr
  · rw [hdoc] at hupdated
    generalize hcached : s.cached key = c at hupdated
    cases hupdated with
    | other hnone => exact hc.le_latest doc hcached
    | newer hnewer hle => exact (hserver key doc hnewer).2.1
    | outdated hout hle hnot => exact hc.le_latest doc hcached

/-- A server that has no documents, since version one. -/
def noDocuments : Server where
  document _ v := .noDocument v false
  latest _ := ⟨⟨1, 0⟩⟩
  version_latest _ := rfl
  not_pending_latest _ := Bool.false_ne_true

/-- A snapshot that has no document of Ann's. -/
def snapshot : RemoteEvent where
  snapshot_version := ⟨⟨1, 0⟩⟩
  document_updates := .insert .empty annsKey (.noDocument ⟨⟨1, 0⟩⟩ false)

lemma eq_of_snapshot {key : DocumentKey} {doc : MaybeDocument}
    (h : snapshot.document_updates.find key = some doc) :
    doc = .noDocument ⟨⟨1, 0⟩⟩ false := by
  rw [snapshot, SortedMap.find_insert] at h
  split_ifs at h
  · exact (Option.some.inj h).symm
  · exact absurd h (by simp)

lemma eachStep_snapshot :
    EachStep step (fun s e => s.Admissible e ∧ FromServer noDocuments s e) (fresh "ann")
      (.remoteEvent snapshot :: interrupted) := by
  refine ⟨⟨⟨fun hnone => absurd hnone (by decide), fun _ => by decide⟩, fun key doc hdoc => ?_⟩,
    fun _ _ => eachStep_of_forall fun s e he => ⟨(admissible_interrupted s he).1, ?_⟩⟩
  · obtain rfl := eq_of_snapshot hdoc
    exact ⟨rfl, le_rfl, by decide⟩
  · simp only [interrupted, List.mem_cons, List.not_mem_nil, or_false] at he
    rcases he with rfl | rfl | rfl | rfl <;> trivial

lemma coherentWith_fresh (server : Server) (user_id : String) (key : DocumentKey) :
    CoherentWith server (fresh user_id : SyncEngine α) key := by
  have hnone : (fresh user_id : SyncEngine α).cached key = none := SortedMap.find_empty key
  exact ⟨fun doc hdoc => absurd (hnone.symm.trans hdoc) (by simp),
    fun doc hdoc => absurd (hnone.symm.trans hdoc) (by simp)⟩

lemma exists_exec_snapshot :
    ∃ s', exec step (fresh "ann") (.remoteEvent snapshot :: interrupted) = some s' := by
  obtain ⟨s', h, -⟩ := exists_exec (inv_fresh "ann") (admissible_of_fromServer eachStep_snapshot)
  exact ⟨s', h⟩

/-- **A cached document that is not pending is the server's of its version.** -/
theorem coherent_exec (hs : s.Inv) {es : List (Event α)}
    (hes : EachStep step (fun s e => s.Admissible e ∧ FromServer server s e) s es)
    (h : exec step s es = some s') {key : DocumentKey} (hc : CoherentWith server s key) :
    CoherentWith server s' key := by
  have hstep : ∀ (t : SyncEngine α) e t', (t.Inv ∧ CoherentWith server t key) →
      (t.Admissible e ∧ FromServer server t e) → step t e = some t' →
      t'.Inv ∧ CoherentWith server t' key := fun t e t' ht he ht' =>
    ⟨inv_step ht.1 he.1 ht', (coherentWith_step ht.1 he.1 he.2 ht' ht.2).2⟩
  exact (exec_invariant_of_eachStep hstep ⟨hs, hc⟩ hes h).2

theorem coherent_exec_snapshot :
    ∃ s', exec step (fresh "ann") (.remoteEvent snapshot :: interrupted) = some s' ∧
      CoherentWith noDocuments s' annsKey := by
  obtain ⟨s', h⟩ := exists_exec_snapshot
  exact ⟨s', h, coherent_exec (inv_fresh "ann") eachStep_snapshot h (coherentWith_fresh _ _ _)⟩

end SyncEngine

end Firestore
