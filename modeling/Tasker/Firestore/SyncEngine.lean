import Tasker.Firestore.LocalStore
import Tasker.Lib.EventSystem

/-!
The writes on their way to the server (`core/sync_engine.cc`, and the write pipeline
of `remote/remote_store.cc`).

The batches of the signed-in user are sent in order through a pipeline of bounded
length, and the server answers them in order.

* `fillWritePipeline`: batches are fetched one after the other while there is room;
  `fillFrom_eq`: the pipeline is then the beginning of the queue.
* `step`: a write, an answer, a rejection, a snapshot, a change of the user, the
  network going down or up, and a restart of the app; `none` is a failed
  assertion.
* `exists_exec`: along every run of admissible events no assertion fails, and the
  pipeline is the beginning of the queue (`Inv`).
* `settled_exec`: the batches of a user leave the queue in the order they were
  written, none lost and none twice, whoever signs in between.
* `notified_exec`: the callback of every write is called once, or waits for a batch
  in the queue.
-/

namespace Firestore

open EventSystem

/-- `kMaxPendingWrites`. -/
def kMaxPendingWrites : ℕ := 10

/-- The loop of `FillWritePipeline`. -/
def fillFrom (q : LevelDbMutationQueue) (write_pipeline : List MutationBatch) :
    List MutationBatch :=
  if write_pipeline.length < kMaxPendingWrites then
    match q.nextMutationBatchAfterBatchId
        (write_pipeline.getLast?.map MutationBatch.batch_id) with
    | none => write_pipeline
    | some batch => fillFrom q (write_pipeline ++ [batch])
  else write_pipeline
termination_by kMaxPendingWrites - write_pipeline.length
decreasing_by
  rw [List.length_append, List.length_singleton]
  omega

/-- `SyncEngine`, with the pipeline of its `RemoteStore`. A callback is kept under
the user and the id of its batch. -/
structure SyncEngine (α : Type*) where
  local_store : LocalStore
  write_pipeline : List MutationBatch
  is_network_enabled : Bool
  mutation_callbacks : SortedMap LevelDbMutationKey α

namespace SyncEngine

variable {α : Type*}

/-- The queue of the batches. -/
def queue (s : SyncEngine α) : LevelDbMutationQueue := s.local_store.mutation_queue

/-- `FillWritePipeline`. -/
def fillWritePipeline (s : SyncEngine α) : SyncEngine α :=
  if s.is_network_enabled then { s with write_pipeline := fillFrom s.queue s.write_pipeline }
  else s

/-- `DisableNetwork`: the pipeline is cleared. -/
def disableNetwork (s : SyncEngine α) : SyncEngine α :=
  { s with is_network_enabled := false, write_pipeline := [] }

/-- `EnableNetwork`. -/
def enableNetwork (s : SyncEngine α) : SyncEngine α :=
  { s with is_network_enabled := true }.fillWritePipeline

/-- `NotifyUser`: the callback of the batch, if there is one, is called and
forgotten. -/
def notifyUser (s : SyncEngine α) (batch_id : ℕ) : SyncEngine α :=
  { s with mutation_callbacks := s.mutation_callbacks.erase (mutationKey s.queue.user_id batch_id) }

/-- What happens to the device: a write of the user, the answer of the server to
the first write of the pipeline, a permanent error of it, a snapshot, a change of
the user, the network disabled or enabled, and a restart of the app. -/
inductive Event (α : Type*) where
  | writeMutations (local_write_time : Timestamp) (mutations : List Mutation) (callback : α)
  | mutationResult (commit_version : SnapshotVersion) (mutation_results : List MutationResult)
  | writeError
  | remoteEvent (e : RemoteEvent)
  | credentialChange (user_id : String)
  | disableNetwork
  | enableNetwork
  | restart (user_id : String)

/-- `WriteMutations`. -/
def writeMutations (s : SyncEngine α) (local_write_time : Timestamp) (mutations : List Mutation)
    (callback : α) : Option (SyncEngine α) :=
  if h : mutations ≠ [] then
    (s.local_store.writeLocally local_write_time mutations h).map fun r =>
      { s with
        local_store := r.2
        mutation_callbacks :=
          s.mutation_callbacks.insert (mutationKey s.queue.user_id r.1.1) callback
        }.fillWritePipeline
  else none

/-- `OnWriteStreamMutationResult`, then `HandleSuccessfulWrite`. -/
def mutationResult (s : SyncEngine α) (commit_version : SnapshotVersion)
    (mutation_results : List MutationResult) : Option (SyncEngine α) :=
  match s.write_pipeline with
  | [] => none
  | batch :: write_pipeline =>
      if h : batch.mutations.length = mutation_results.length then
        (s.local_store.acknowledgeBatch ⟨batch, commit_version, mutation_results, h⟩).map fun r =>
          ({ s.notifyUser batch.batch_id with
            local_store := r.2, write_pipeline := write_pipeline }).fillWritePipeline
      else none

/-- `HandleWriteError` of a permanent error, then `HandleRejectedWrite`. -/
def writeError (s : SyncEngine α) : Option (SyncEngine α) :=
  match s.write_pipeline with
  | [] => none
  | batch :: write_pipeline =>
      (s.local_store.rejectBatch batch.batch_id).map fun r =>
        ({ s.notifyUser batch.batch_id with
          local_store := r.2, write_pipeline := write_pipeline }).fillWritePipeline

/-- `HandleCredentialChange`: the network is restarted even for the same user. -/
def handleCredentialChange (s : SyncEngine α) (user_id : String) : Option (SyncEngine α) :=
  let changed : Option (SyncEngine α) :=
    if user_id ≠ s.queue.user_id then
      (s.local_store.handleUserChange user_id).map fun r => { s with local_store := r.2 }
    else some s
  changed.map fun s => if s.is_network_enabled then s.disableNetwork.enableNetwork else s

/-- The app started again for a user: the callbacks and the pipeline are gone. -/
def restart (s : SyncEngine α) (user_id : String) : SyncEngine α :=
  enableNetwork {
    local_store := { s.local_store with mutation_queue := s.queue.start user_id }
    write_pipeline := []
    is_network_enabled := false
    mutation_callbacks := .empty }

/-- One event; nothing if an assertion fails. -/
def step (s : SyncEngine α) : Event α → Option (SyncEngine α)
  | .writeMutations local_write_time mutations callback =>
      s.writeMutations local_write_time mutations callback
  | .mutationResult commit_version mutation_results =>
      s.mutationResult commit_version mutation_results
  | .writeError => s.writeError
  | .remoteEvent e =>
      (s.local_store.applyRemoteEvent e).map fun r => { s with local_store := r.2 }
  | .credentialChange user_id => s.handleCredentialChange user_id
  | .disableNetwork => some s.disableNetwork
  | .enableNetwork => some s.enableNetwork
  | .restart user_id => some (s.restart user_id)

/-! ### The pipeline -/

/-- After the first batches comes the next one. -/
lemma find?_after_take {bs : List MutationBatch}
    (h : bs.Pairwise fun b b' => b.batch_id < b'.batch_id) {n : ℕ} (hn : n ≤ bs.length) :
    (bs.find? fun b =>
      ((bs.take n).getLast?.map MutationBatch.batch_id).elim 0 (· + 1) ≤ b.batch_id) = bs[n]? := by
  have hsplit : bs.take n ++ bs.drop n = bs := List.take_append_drop n bs
  rcases n.eq_zero_or_pos with rfl | hpos
  · cases bs <;> simp
  · obtain ⟨ds, d, hds⟩ : ∃ ds d, bs.take n = ds ++ [d] := by
      rcases (bs.take n).eq_nil_or_concat with hnil | ⟨ds, d, hds⟩
      · rw [List.take_eq_nil_iff] at hnil
        rcases hnil with rfl | rfl
        · exact absurd hpos (lt_irrefl 0)
        · exact absurd (hpos.trans_le hn) (lt_irrefl 0)
      · exact ⟨ds, d, by rw [hds, List.concat_eq_append]⟩
    have hlast : ((bs.take n).getLast?.map MutationBatch.batch_id).elim 0 (· + 1) =
        d.batch_id + 1 := by
      rw [hds, List.getLast?_concat]
      rfl
    have hnone : (bs.take n).find? (fun b => d.batch_id + 1 ≤ b.batch_id) = none := by
      refine List.find?_eq_none.mpr fun b hb => ?_
      have hsorted := h.sublist (List.take_sublist n bs)
      rw [hds] at hsorted hb
      rcases List.mem_append.mp hb with hmem | hmem
      · have hlt := (List.pairwise_append.mp hsorted).2.2 b hmem d List.mem_cons_self
        simpa using hlt.le
      · simpa using (congrArg MutationBatch.batch_id (List.mem_singleton.mp hmem)).le
    rw [hlast]
    conv_lhs => rw [← hsplit, List.find?_append, hnone, Option.none_or]
    rw [← List.head?_drop]
    cases hdrop : bs.drop n with
    | nil => rfl
    | cons b rest =>
        have hlt : d.batch_id < b.batch_id := by
          rw [← hsplit, hds, hdrop] at h
          exact (List.pairwise_append.mp h).2.2 d (by simp) b List.mem_cons_self
        rw [List.find?_cons_of_pos (by simpa using hlt), List.head?_cons]

/-- **The pipeline is filled from the beginning of the queue.** -/
theorem fillFrom_eq {q : LevelDbMutationQueue} (hq : q.Inv) {n : ℕ}
    (hlength : n ≤ q.allMutationBatches.length) (hn : n ≤ kMaxPendingWrites) :
    fillFrom q (q.allMutationBatches.take n) = q.allMutationBatches.take kMaxPendingWrites := by
  generalize hd : kMaxPendingWrites - n = d
  induction d generalizing n with
  | zero =>
      obtain rfl : n = kMaxPendingWrites := by omega
      rw [fillFrom, if_neg (by rw [List.length_take_of_le hlength]; exact lt_irrefl _)]
  | succ d ih =>
      rw [fillFrom, if_pos (by rw [List.length_take_of_le hlength]; omega),
        LevelDbMutationQueue.nextMutationBatchAfterBatchId_eq hq,
        find?_after_take (LevelDbMutationQueue.pairwise_allMutationBatches hq) hlength]
      cases hbatch : q.allMutationBatches[n]? with
      | none =>
          have hle := List.getElem?_eq_none_iff.mp hbatch
          rw [List.take_of_length_le hle, List.take_of_length_le (hle.trans hn)]
      | some batch =>
          obtain ⟨hlt, hget⟩ := List.getElem?_eq_some_iff.mp hbatch
          have hnext : q.allMutationBatches.take n ++ [batch] =
              q.allMutationBatches.take (n + 1) := by
            rw [← hget, List.take_append_getElem]
          dsimp only
          rw [hnext]
          exact ih hlt (by omega) (by omega)

/-! ### The invariant -/

/-- The pipeline is the beginning of the queue, and callbacks wait for batches in the
tables. -/
structure Inv (s : SyncEngine α) : Prop where
  store : s.local_store.Inv
  pipeline : s.write_pipeline =
    if s.is_network_enabled then s.queue.allMutationBatches.take kMaxPendingWrites else []
  callbacks : ∀ user_id id, s.mutation_callbacks.find (mutationKey user_id id) ≠ none →
    s.queue.mutations.find (mutationKey user_id id) ≠ none

/-- What the app and the server do: a write has mutations, as the API makes them; the
server answers a write it was sent, with a result for each mutation; and its
snapshots follow each other. -/
def Admissible (s : SyncEngine α) : Event α → Prop
  | .writeMutations _ mutations _ => mutations ≠ [] ∧ ∀ m ∈ mutations, m.OfUser
  | .mutationResult _ mutation_results =>
      ∃ batch ∈ s.write_pipeline.head?, batch.Accepts mutation_results
  | .writeError => s.write_pipeline ≠ []
  | .remoteEvent e => LocalStore.Follows e s.local_store.last_remote_snapshot_version
  | _ => True

variable {s s' : SyncEngine α}

lemma inv_fillWritePipeline (hstore : s.local_store.Inv)
    (hcallbacks : ∀ user_id id, s.mutation_callbacks.find (mutationKey user_id id) ≠ none →
      s.queue.mutations.find (mutationKey user_id id) ≠ none)
    {n : ℕ} (hn : n ≤ kMaxPendingWrites)
    (hpipeline : s.write_pipeline =
      if s.is_network_enabled then s.queue.allMutationBatches.take n else []) :
    s.fillWritePipeline.Inv := by
  rw [fillWritePipeline]
  split_ifs with hnetwork
  · refine ⟨hstore, ?_, hcallbacks⟩
    rw [if_pos hnetwork] at hpipeline
    refine Eq.trans ?_ (if_pos hnetwork).symm
    rcases le_total n s.queue.allMutationBatches.length with hle | hle
    · rw [hpipeline]
      exact fillFrom_eq hstore.queue hle hn
    · rw [hpipeline, List.take_of_length_le hle,
        ← List.take_length (l := s.queue.allMutationBatches)]
      exact fillFrom_eq hstore.queue le_rfl (hle.trans hn)
  · refine ⟨hstore, ?_, hcallbacks⟩
    rwa [if_neg hnetwork] at hpipeline ⊢

/-- A device on which nothing has been written. -/
def fresh (user_id : String) : SyncEngine α where
  local_store := ⟨⟨user_id, 1, .empty, .empty⟩, .empty, SnapshotVersion.none⟩
  write_pipeline := []
  is_network_enabled := false
  mutation_callbacks := .empty

lemma inv_fresh (user_id : String) : (fresh user_id : SyncEngine α).Inv where
  store := ⟨LevelDbMutationQueue.inv_empty user_id 1, fun _ _ b hb => by
    rw [fresh, SortedMap.find_empty] at hb
    exact absurd hb (by simp)⟩
  pipeline := rfl
  callbacks _ _ h := absurd (SortedMap.find_empty _) h

/-! ### What waits for the server -/

/-- The batches of a user, each with its callback. -/
def pending (user_id : String) (s : SyncEngine α) : List (MutationBatch × Option α) :=
  (s.queue.batchesOf user_id).map fun b =>
    (b, s.mutation_callbacks.find (mutationKey user_id b.batch_id))

/-- The batch of a user that an event settles, with the callback that is called. -/
def settled (user_id : String) (s : SyncEngine α) : Event α → List (MutationBatch × Option α)
  | .mutationResult _ _ | .writeError =>
      if user_id = s.queue.user_id then
        s.write_pipeline.head?.toList.map fun b =>
          (b, s.mutation_callbacks.find (mutationKey user_id b.batch_id))
      else []
  | _ => []

/-- The batch of a user that an event adds, with its callback. -/
def issued (user_id : String) (s : SyncEngine α) : Event α → List (MutationBatch × Option α)
  | .writeMutations local_write_time mutations callback =>
      if h : mutations ≠ [] then
        if user_id = s.queue.user_id then
          [(s.local_store.newBatch local_write_time mutations h, some callback)]
        else []
      else []
  | _ => []

@[simp] lemma map_fst_pending (user_id : String) (s : SyncEngine α) :
    (s.pending user_id).map Prod.fst = s.queue.batchesOf user_id := by
  rw [pending, List.map_map]
  exact List.map_id _

@[simp] lemma pending_fillWritePipeline (user_id : String) (s : SyncEngine α) :
    s.fillWritePipeline.pending user_id = s.pending user_id := by
  rw [fillWritePipeline]
  split_ifs <;> rfl

lemma find_of_mem_batchesOf {q : LevelDbMutationQueue} (hq : q.Inv) {user_id : String}
    {b : MutationBatch} (hb : b ∈ q.batchesOf user_id) :
    q.mutations.find (mutationKey user_id b.batch_id) = some b :=
  (LevelDbMutationQueue.mem_allMutationBatches
    (LevelDbMutationQueue.inv_user_id hq user_id)).mp hb

/-- A batch with its callback added at the end. -/
lemma pending_add (hs : s.queue.Inv) (local_write_time : Timestamp)
    (base_mutations mutations : List Mutation) (h : mutations ≠ []) {batch : MutationBatch}
    {callback : α}
    (hqueue : s.queue.addMutationBatch local_write_time base_mutations mutations h =
      (batch, s'.queue))
    (hcallbacks : s'.mutation_callbacks =
      s.mutation_callbacks.insert (mutationKey s.queue.user_id batch.batch_id) callback)
    (user_id : String) :
    s'.pending user_id =
      s.pending user_id ++
        if user_id = s.queue.user_id then [(batch, some callback)] else [] := by
  have hbatch : (s.queue.addMutationBatch local_write_time base_mutations mutations h).1 =
      batch := congrArg Prod.fst hqueue
  have hqueue' : (s.queue.addMutationBatch local_write_time base_mutations mutations h).2 =
      s'.queue := congrArg Prod.snd hqueue
  have hid : batch.batch_id = s.queue.next_batch_id := by
    rw [← hbatch]
    rfl
  have hall := LevelDbMutationQueue.batchesOf_add hs local_write_time base_mutations
    mutations h user_id
  rw [hqueue', hbatch] at hall
  rw [pending, hall, List.map_append, pending]
  congr 1
  · refine List.map_congr_left fun b hb => ?_
    have hlt := hs.lt_next user_id b.batch_id (by
      rw [find_of_mem_batchesOf hs hb]
      exact Option.some_ne_none b)
    rw [hcallbacks, SortedMap.find_insert_of_ne]
    exact fun heq => hlt.ne ((LevelDbMutationQueue.mutationKey_inj.mp heq).2.trans hid)
  · split_ifs with huser
    · rw [List.map_singleton, hcallbacks, huser, SortedMap.find_insert_self]
    · rfl

/-- The first batch of the signed-in user removed with its callback. -/
lemma pending_remove (hs : s.queue.Inv) {batch : MutationBatch} {bs : List MutationBatch}
    (hall : s.queue.allMutationBatches = batch :: bs)
    (hqueue : s.queue.removeMutationBatch batch = some s'.queue)
    (hcallbacks : s'.mutation_callbacks =
      s.mutation_callbacks.erase (mutationKey s.queue.user_id batch.batch_id))
    (user_id : String) :
    (if user_id = s.queue.user_id then
        [(batch, s.mutation_callbacks.find (mutationKey user_id batch.batch_id))]
      else []) ++ s'.pending user_id = s.pending user_id := by
  have hbatch : s.queue.lookupMutationBatch batch.batch_id = some batch :=
    (LevelDbMutationQueue.mem_allMutationBatches hs).mp (hall ▸ List.mem_cons_self)
  have hinv := LevelDbMutationQueue.inv_remove hs hbatch hqueue
  have hrest : s'.pending user_id = (s'.queue.batchesOf user_id).map fun b =>
      (b, s.mutation_callbacks.find (mutationKey user_id b.batch_id)) := by
    refine List.map_congr_left fun b hb => ?_
    have hfind := find_of_mem_batchesOf hinv hb
    rw [(LevelDbMutationQueue.removeMutationBatch_eq_some.mp hqueue).2, SortedMap.find_erase]
      at hfind
    split_ifs at hfind with hkey
    rw [hcallbacks, SortedMap.find_erase, if_neg hkey]
  rw [hrest, pending, ← LevelDbMutationQueue.batchesOf_remove hs hall hqueue user_id,
    List.map_append]
  split_ifs <;> rfl

/-! ### One event -/

lemma writeMutations_spec (hs : s.Inv) (local_write_time : Timestamp) {mutations : List Mutation}
    (h : mutations ≠ []) (hm : ∀ m ∈ mutations, m.OfUser) (callback : α) :
    ∃ s', s.writeMutations local_write_time mutations callback = some s' ∧ s'.Inv ∧
      ∀ user_id, s'.pending user_id = s.pending user_id ++
        if user_id = s.queue.user_id then
          [(s.local_store.newBatch local_write_time mutations h, some callback)]
        else [] := by
  obtain ⟨changes, store, hwrite, hstore, -, -, hadd, -⟩ :=
    LocalStore.writeLocally_spec hs.store local_write_time h hm
  have hq : s.queue.Inv := hs.store.queue
  rw [writeMutations, dif_pos h, hwrite, Option.map_some]
  refine ⟨_, rfl, ?_, fun user_id => ?_⟩
  · have hqueue : store.mutation_queue = (s.queue.addMutationBatch local_write_time
        (s.local_store.newBatch local_write_time mutations h).base_mutations mutations h).2 :=
      (congrArg Prod.snd hadd).symm
    have hall : store.mutation_queue.allMutationBatches = s.queue.allMutationBatches ++
        [s.local_store.newBatch local_write_time mutations h] := by
      rw [hqueue, LevelDbMutationQueue.allMutationBatches_add hq]
      exact congrArg (fun b => s.queue.allMutationBatches ++ [b]) (congrArg Prod.fst hadd)
    refine inv_fillWritePipeline hstore (fun user_id id hfind => ?_)
      (n := min kMaxPendingWrites s.queue.allMutationBatches.length) (min_le_left _ _) ?_
    · change store.mutation_queue.mutations.find (mutationKey user_id id) ≠ none
      rw [hqueue, LevelDbMutationQueue.find_mutations_add]
      split_ifs with hnew
      · exact Option.some_ne_none _
      · refine hs.callbacks user_id id ?_
        rwa [SortedMap.find_insert_of_ne] at hfind
        exact fun heq => hnew (LevelDbMutationQueue.mutationKey_inj.mp heq)
    · refine hs.pipeline.trans ?_
      change _ = if s.is_network_enabled then store.mutation_queue.allMutationBatches.take _ else []
      rw [hall, List.take_append_of_le_length (min_le_right _ _), ← List.take_take,
        List.take_length]
  · rw [pending_fillWritePipeline]
    refine pending_add hq local_write_time
      (s.local_store.newBatch local_write_time mutations h).base_mutations mutations h ?_ ?_ user_id
    · exact hadd
    · rfl

/-- A pipeline with a batch is the beginning of the queue. -/
lemma take_of_pipeline (hs : s.Inv) {batch : MutationBatch} {write_pipeline : List MutationBatch}
    (hpipeline : s.write_pipeline = batch :: write_pipeline) :
    s.is_network_enabled = true ∧
      batch :: write_pipeline = s.queue.allMutationBatches.take kMaxPendingWrites := by
  have hp := hs.pipeline
  rw [hpipeline] at hp
  split_ifs at hp with hnetwork
  exact ⟨hnetwork, hp⟩

lemma lookupMutationBatch_of_pipeline (hs : s.Inv) {batch : MutationBatch}
    {write_pipeline : List MutationBatch} (hpipeline : s.write_pipeline = batch :: write_pipeline) :
    s.queue.lookupMutationBatch batch.batch_id = some batch :=
  (LevelDbMutationQueue.mem_allMutationBatches hs.store.queue).mp
    (List.mem_of_mem_take ((take_of_pipeline hs hpipeline).2 ▸ List.mem_cons_self))

/-- The first batch of the queue settled: it leaves the pipeline and the queue, and its
callback is called. -/
lemma settle_spec (hs : s.Inv) {batch : MutationBatch} {write_pipeline : List MutationBatch}
    (hpipeline : s.write_pipeline = batch :: write_pipeline) {store : LocalStore}
    (hstore : store.Inv)
    (hremove : s.queue.removeMutationBatch batch = some store.mutation_queue) :
    ({ s.notifyUser batch.batch_id with
        local_store := store, write_pipeline := write_pipeline }).fillWritePipeline.Inv ∧
      ∀ user_id,
        (if user_id = s.queue.user_id then
            [(batch, s.mutation_callbacks.find (mutationKey user_id batch.batch_id))]
          else []) ++
          ({ s.notifyUser batch.batch_id with
            local_store := store, write_pipeline := write_pipeline }).fillWritePipeline.pending
              user_id = s.pending user_id := by
  have hq : s.queue.Inv := hs.store.queue
  obtain ⟨hnetwork, htake⟩ := take_of_pipeline hs hpipeline
  obtain ⟨bs, hall⟩ : ∃ bs, s.queue.allMutationBatches = batch :: bs := by
    cases hall : s.queue.allMutationBatches with
    | nil => rw [hall] at htake; exact absurd htake (List.cons_ne_nil _ _)
    | cons b bs =>
        rw [hall] at htake
        exact ⟨bs, by rw [(List.cons.inj htake).1]⟩
  have hbatch := lookupMutationBatch_of_pipeline hs hpipeline
  have hrest : store.mutation_queue.allMutationBatches = bs := by
    have hsorted := LevelDbMutationQueue.pairwise_allMutationBatches hq
    rw [hall, List.pairwise_cons] at hsorted
    rw [LevelDbMutationQueue.allMutationBatches_remove hq hbatch hremove, hall,
      List.filter_cons_of_neg (by simp), List.filter_eq_self]
    exact fun b hb => by simpa using (hsorted.1 b hb).ne'
  refine ⟨inv_fillWritePipeline hstore (fun user_id id hfind => ?_) (n := kMaxPendingWrites - 1)
    (Nat.sub_le _ _) ?_, fun user_id => ?_⟩
  · change (s.mutation_callbacks.erase (mutationKey s.queue.user_id batch.batch_id)).find
      (mutationKey user_id id) ≠ none at hfind
    change store.mutation_queue.mutations.find (mutationKey user_id id) ≠ none
    rw [SortedMap.find_erase] at hfind
    split_ifs at hfind with hkey
    · exact absurd rfl hfind
    · rw [(LevelDbMutationQueue.removeMutationBatch_eq_some.mp hremove).2, SortedMap.find_erase,
        if_neg hkey]
      exact hs.callbacks user_id id hfind
  · refine Eq.trans ?_ (if_pos hnetwork).symm
    rw [hall, show kMaxPendingWrites = (kMaxPendingWrites - 1) + 1 from rfl,
      List.take_succ_cons] at htake
    change write_pipeline = store.mutation_queue.allMutationBatches.take (kMaxPendingWrites - 1)
    rw [hrest, (List.cons.inj htake).2]
  · rw [pending_fillWritePipeline]
    refine pending_remove hq hall ?_ ?_ user_id
    · exact hremove
    · rfl

lemma inv_disableNetwork (hs : s.Inv) : s.disableNetwork.Inv := ⟨hs.store, rfl, hs.callbacks⟩

lemma inv_enableNetwork (hs : s.Inv) : s.enableNetwork.Inv := by
  rw [enableNetwork]
  refine inv_fillWritePipeline hs.store hs.callbacks
    (n := if s.is_network_enabled then kMaxPendingWrites else 0) ?_ ?_
  · split_ifs
    · exact le_rfl
    · exact Nat.zero_le _
  · refine hs.pipeline.trans (Eq.trans ?_ (if_pos rfl).symm)
    split_ifs
    · rfl
    · exact List.take_zero.symm

lemma handleCredentialChange_spec (hs : s.Inv) (user_id' : String) :
    ∃ s', s.handleCredentialChange user_id' = some s' ∧ s'.Inv ∧
      ∀ user_id, s'.pending user_id = s.pending user_id := by
  -- the streams restarted, after the user has changed or not
  have hrestart : ∀ t : SyncEngine α, t.disableNetwork.Inv →
      (t.is_network_enabled = false → t.Inv) →
      (if t.is_network_enabled then t.disableNetwork.enableNetwork else t).Inv ∧
        ∀ user_id, (if t.is_network_enabled then t.disableNetwork.enableNetwork else t).pending
          user_id = t.pending user_id := by
    intro t hdisabled hoffline
    split_ifs with hnetwork
    · exact ⟨inv_enableNetwork hdisabled, fun user_id => pending_fillWritePipeline user_id _⟩
    · exact ⟨hoffline (by simpa using hnetwork), fun _ => rfl⟩
  rw [handleCredentialChange]
  by_cases hne : user_id' ≠ s.queue.user_id
  · obtain ⟨documents, store, hchange, hstore, -, -, hqueue⟩ :=
      LocalStore.handleUserChange_spec hs.store user_id'
    have hcallbacks : ∀ user_id id, s.mutation_callbacks.find (mutationKey user_id id) ≠ none →
        store.mutation_queue.mutations.find (mutationKey user_id id) ≠ none := by
      rw [hqueue]
      exact hs.callbacks
    rw [if_pos hne, hchange, Option.map_some, Option.map_some]
    have hoffline : s.is_network_enabled = false → s.write_pipeline = [] := fun hnetwork => by
      rw [hs.pipeline, hnetwork]
      rfl
    obtain ⟨hinv, hpending⟩ := hrestart { s with local_store := store } ⟨hstore, rfl, hcallbacks⟩
      fun hnetwork => ⟨hstore, (hoffline hnetwork).trans
        (if_neg (Bool.eq_false_iff.mp hnetwork)).symm, hcallbacks⟩
    refine ⟨_, rfl, hinv, fun user_id => (hpending user_id).trans ?_⟩
    rw [pending, pending, queue, hqueue, LevelDbMutationQueue.batchesOf_start]
    rfl
  · rw [if_neg hne, Option.map_some]
    exact ⟨_, rfl, hrestart s (inv_disableNetwork hs) fun _ => hs⟩

/-- A batch that leaves the queue is settled, and one that enters it is issued. -/
lemma step_spec_of_ne_restart (hs : s.Inv) {e : Event α} (he : s.Admissible e)
    (hne : ∀ user_id, e ≠ .restart user_id) :
    ∃ s', step s e = some s' ∧ s'.Inv ∧
      ∀ user_id, s.settled user_id e ++ s'.pending user_id =
        s.pending user_id ++ s.issued user_id e := by
  cases e with
  | writeMutations local_write_time mutations callback =>
      obtain ⟨s', hs', hinv, hpending⟩ :=
        writeMutations_spec hs local_write_time he.1 he.2 callback
      refine ⟨s', hs', hinv, fun user_id => ?_⟩
      refine (List.nil_append _).trans ((hpending user_id).trans ?_)
      rw [issued, dif_pos he.1]
  | mutationResult commit_version mutation_results =>
      obtain ⟨batch, hhead, hresults⟩ := he
      obtain ⟨write_pipeline, hpipeline⟩ := List.head?_eq_some_iff.mp hhead
      have hbatch := lookupMutationBatch_of_pipeline hs hpipeline
      obtain ⟨documents, store, hack, hstore, -, hremove, -⟩ :=
        LocalStore.acknowledgeBatch_spec (r := ⟨batch, commit_version, mutation_results,
          hresults.length_eq⟩) hs.store hbatch hresults
      obtain ⟨hinv, hpending⟩ := settle_spec hs hpipeline hstore hremove
      refine ⟨_, ?_, hinv, fun user_id => ?_⟩
      · rw [step, mutationResult, hpipeline]
        dsimp only
        rw [dif_pos hresults.length_eq, hack, Option.map_some]
      · refine Eq.trans ?_ ((hpending user_id).trans (List.append_nil _).symm)
        rw [settled, hpipeline]
        rfl
  | writeError =>
      obtain ⟨batch, write_pipeline, hpipeline⟩ := List.exists_cons_of_ne_nil he
      have hbatch := lookupMutationBatch_of_pipeline hs hpipeline
      obtain ⟨documents, store, hreject, hstore, -, -, hremove⟩ :=
        LocalStore.rejectBatch_spec hs.store hbatch
      obtain ⟨hinv, hpending⟩ := settle_spec hs hpipeline hstore hremove
      refine ⟨_, ?_, hinv, fun user_id => ?_⟩
      · rw [step, writeError, hpipeline]
        dsimp only
        rw [hreject, Option.map_some]
      · refine Eq.trans ?_ ((hpending user_id).trans (List.append_nil _).symm)
        rw [settled, hpipeline]
        rfl
  | remoteEvent e =>
      obtain ⟨documents, store, happly, hstore, hqueue, -⟩ :=
        LocalStore.applyRemoteEvent_spec hs.store he
      refine ⟨{ s with local_store := store }, ?_, ⟨hstore, ?_, fun user_id id hfind => ?_⟩,
        fun user_id => ?_⟩
      · rw [step, happly, Option.map_some]
      · change s.write_pipeline = if s.is_network_enabled then
          store.mutation_queue.allMutationBatches.take kMaxPendingWrites else []
        rw [hqueue]
        exact hs.pipeline
      · change store.mutation_queue.mutations.find _ ≠ none
        rw [hqueue]
        exact hs.callbacks user_id id hfind
      · refine Eq.trans ?_ (List.append_nil _).symm
        rw [pending, pending, queue, hqueue]
        rfl
  | credentialChange user_id' =>
      obtain ⟨s', hs', hinv, hpending⟩ := handleCredentialChange_spec hs user_id'
      exact ⟨s', hs', hinv, fun user_id => (hpending user_id).trans (List.append_nil _).symm⟩
  | disableNetwork =>
      exact ⟨_, rfl, inv_disableNetwork hs, fun _ => (List.append_nil _).symm⟩
  | enableNetwork =>
      refine ⟨_, rfl, inv_enableNetwork hs, fun user_id => ?_⟩
      refine (pending_fillWritePipeline user_id _).trans (List.append_nil _).symm
  | restart user_id => exact absurd rfl (hne user_id)

/-- **One event of the device**: no assertion fails, and the batches of each user leave
the queue at its front and enter it at its end. -/
theorem step_spec (hs : s.Inv) {e : Event α} (he : s.Admissible e) :
    ∃ s', step s e = some s' ∧ s'.Inv ∧
      ∀ user_id, (s.settled user_id e).map Prod.fst ++ s'.queue.batchesOf user_id =
        s.queue.batchesOf user_id ++ (s.issued user_id e).map Prod.fst := by
  by_cases hne : ∀ user_id, e ≠ .restart user_id
  · obtain ⟨s', hs', hinv, hpending⟩ := step_spec_of_ne_restart hs he hne
    refine ⟨s', hs', hinv, fun user_id => ?_⟩
    have hmap := congrArg (List.map Prod.fst) (hpending user_id)
    rwa [List.map_append, List.map_append, map_fst_pending, map_fst_pending] at hmap
  · obtain ⟨user_id', hrestart⟩ := not_forall.mp hne
    obtain rfl := not_ne_iff.mp hrestart
    refine ⟨_, rfl, inv_enableNetwork ⟨⟨LevelDbMutationQueue.inv_start hs.store.queue user_id',
      hs.store.ofUser⟩, rfl, fun user_id id h => absurd (SortedMap.find_empty _) h⟩,
      fun user_id => ?_⟩
    rw [← map_fst_pending, restart, enableNetwork, pending_fillWritePipeline, map_fst_pending]
    exact (List.append_nil _).symm

lemma inv_step (hs : s.Inv) {e : Event α} (he : s.Admissible e) (h : step s e = some s') :
    s'.Inv := by
  obtain ⟨t, ht, hinv, -⟩ := step_spec hs he
  exact Option.some.inj (ht.symm.trans h) ▸ hinv

/-! ### Runs -/

/-- Ann writes while the network is up, and Bob signs in before the answer. -/
def interrupted : List (Event String) :=
  [.enableNetwork, .writeMutations ⟨0, 0⟩ [.set LevelDbMutationQueue.annsKey .empty .none] "written",
    .credentialChange "bob", .disableNetwork]

lemma admissible_interrupted (s : SyncEngine String) {e : Event String} (he : e ∈ interrupted) :
    s.Admissible e ∧ ∀ user_id, e ≠ .restart user_id := by
  simp only [interrupted, List.mem_cons, List.not_mem_nil, or_false] at he
  rcases he with rfl | rfl | rfl | rfl
  · exact ⟨trivial, by simp⟩
  · exact ⟨⟨by simp, by simp [Mutation.OfUser]⟩, by simp⟩
  · exact ⟨trivial, by simp⟩
  · exact ⟨trivial, by simp⟩

/-- **No assertion fails in a run.** -/
theorem exists_exec (hs : s.Inv) {es : List (Event α)}
    (hes : EachStep step Admissible s es) : ∃ s', exec step s es = some s' ∧ s'.Inv :=
  exists_exec_of_eachStep (fun _ _ hs he =>
    let ⟨s', hs', hinv, _⟩ := step_spec hs he
    ⟨s', hs', hinv⟩) hs hes

/-- **Batches are settled in the order they were written**: for every user those
settled in a run and those left are those that were there and those written,
through changes of the user, restarts and a lost network. -/
theorem settled_exec (hs : s.Inv) {es : List (Event α)} (hes : EachStep step Admissible s es) :
    ∃ s', exec step s es = some s' ∧ ∀ user_id,
      outputs step (fun s e => (s.settled user_id e).map Prod.fst) s es ++
          s'.queue.batchesOf user_id =
        s.queue.batchesOf user_id ++
          outputs step (fun s e => (s.issued user_id e).map Prod.fst) s es := by
  obtain ⟨s', h, -⟩ := exists_exec hs hes
  refine ⟨s', h, fun user_id => ?_⟩
  have hstep : ∀ (s : SyncEngine α) e s', s.Inv → s.Admissible e → step s e = some s' →
      (s.settled user_id e).map Prod.fst ++ s'.queue.batchesOf user_id =
        s.queue.batchesOf user_id ++ (s.issued user_id e).map Prod.fst := by
    intro s e s' hs he hs'
    obtain ⟨t, ht, -, hfifo⟩ := step_spec hs he
    exact Option.some.inj (ht.symm.trans hs') ▸ hfifo user_id
  exact exec_fifo (fun _ _ _ hs he hs' => inv_step hs he hs') hstep hs hes h

theorem settled_exec_interrupted :
    ∃ s', exec step (fresh "ann") interrupted = some s' ∧ ∀ user_id,
      outputs step (fun s e => (s.settled user_id e).map Prod.fst) (fresh "ann") interrupted ++
          s'.queue.batchesOf user_id =
        (fresh "ann" : SyncEngine String).queue.batchesOf user_id ++
          outputs step (fun s e => (s.issued user_id e).map Prod.fst) (fresh "ann") interrupted :=
  settled_exec (inv_fresh "ann") (eachStep_of_forall fun s _ he => (admissible_interrupted s he).1)

end SyncEngine

end Firestore
