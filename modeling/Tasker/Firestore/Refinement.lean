import Tasker.Firestore.Coherence
import Tasker.Lib.WriteQueue

/-!
A device as the clients of write queues.

The users of a device are clients of `WriteQueue`: a write makes a batch from what
is shown, an answer commits the first batch of the queue, and a rejection refuses
it. The system of `WriteQueue` has data for documents and batches as writes.

* `clients`: the system; `abs`: a device as one of its states.
* `view_abs`: what a client reads is what the device shows.
* `abs_step`: an event of the device is what `translate` makes of it, if the server
  makes of a batch what the device foresaw (`Foreseen`); `abs_exec`: so for runs.
* `localView_mutationResult`: such an answer changes nothing that is shown.
-/

namespace Firestore

open EventSystem WriteQueue

/-- A write of a user, with the id its batch will have. -/
structure UserWrite where
  batch_id : ℕ
  local_write_time : Timestamp
  mutations : List Mutation
  mutations_ne : mutations ≠ []

/-- The data of documents by their keys. -/
abbrev Documents := DocumentKey → Option ObjectValue

/-- A document with the data. -/
def documentOf (data : Option ObjectValue) : Option MaybeDocument :=
  data.map fun object_value => .document object_value SnapshotVersion.none .synced

@[simp] lemma dataOf_documentOf (data : Option ObjectValue) : dataOf (documentOf data) = data := by
  cases data <;> rfl

/-- The batch of a write, with base values from what is shown. -/
def UserWrite.batch (w : UserWrite) (view : Documents) : MutationBatch where
  batch_id := w.batch_id
  local_write_time := w.local_write_time
  base_mutations := w.mutations.filterMap fun m =>
    (m.extractBaseValue (documentOf (view m.key))).map fun base_value =>
      .patch m.key base_value (toFieldMask base_value) (.ofExists true)
  mutations := w.mutations
  mutations_ne := w.mutations_ne

/-- The users of a device, who write batches. -/
def clients : App String Documents MutationBatch Unit Unit UserWrite where
  apply b st key := b.effect key (st key)
  act _ g x view w := some (g, x, [w.batch view])

namespace SyncEngine

variable {α : Type*} {s s' : SyncEngine α}

/-- The data of the documents of the cache, and the batches of all users. -/
def abs (s : SyncEngine α) : State String Documents MutationBatch Unit Unit where
  store key := dataOf (s.cached key)
  queue user_id := s.queue.batchesOf user_id
  screen _ := ()
  shared := ()

lemma dataOf_foldl {bs : List MutationBatch} (hbs : ∀ b ∈ bs, b.OfUser) (key : DocumentKey)
    (maybe_doc : Option MaybeDocument) (st : Documents) (hst : st key = dataOf maybe_doc) :
    dataOf (bs.foldl (fun document batch => batch.applyToLocalDocument document key) maybe_doc) =
      clients.applyAll bs st key := by
  induction bs generalizing maybe_doc st with
  | nil => exact hst.symm
  | cons b bs ih =>
      refine ih (fun b' hb' => hbs b' (List.mem_cons_of_mem b hb')) _ _ ?_
      rw [MutationBatch.dataOf_applyToLocalDocument (hbs b List.mem_cons_self), ← hst]
      rfl

/-- **A client reads what the device shows.** -/
theorem view_abs (hs : s.Inv) (key : DocumentKey) :
    clients.view s.abs s.queue.user_id key = dataOf (s.local_store.localView key) :=
  (dataOf_foldl (fun _ hb => hs.store.ofUser_of_mem hb) key _ _ rfl).symm

/-- An event as events of the clients. -/
def translate (s : SyncEngine α) : Event α → List (FaultyEvent String UserWrite)
  | .writeMutations local_write_time mutations _ =>
      if h : mutations ≠ [] then
        [.ok (.act s.queue.user_id ⟨s.queue.next_batch_id, local_write_time, mutations, h⟩)]
      else []
  | .mutationResult _ _ => [.ok (.commit s.queue.user_id)]
  | .writeError => [.refuse s.queue.user_id]
  | _ => []

/-- The answer to a batch is what the device foresaw, and is news to it. -/
def Foreseen (s : SyncEngine α) : Event α → Prop
  | .mutationResult _ mutation_results =>
      ∀ batch ∈ s.write_pipeline.head?,
        (∀ m ∈ batch.mutations, batch.Foreseen m.key (dataOf (s.cached m.key))) ∧
        ∀ r ∈ batch.mutations.zip mutation_results, ∀ doc, s.cached r.1.key = some doc →
          doc.version < r.2.version
  | .remoteEvent _ => False
  | _ => True

/-- A batch leaves the data of documents it does not write. -/
lemma effect_of_forall_ne {b : MutationBatch} (hb : b.OfUser) {key : DocumentKey}
    (h : ∀ m ∈ b.mutations, m.key ≠ key) (data : Option ObjectValue) :
    b.effect key data = data := by
  have heffect := MutationBatch.dataOf_applyToLocalDocument hb (documentOf data) key
  rwa [MutationBatch.applyToLocalDocument_of_forall_ne hb h, dataOf_documentOf, eq_comm] at heffect

/-- The data of a document after a foreseen answer. -/
lemma dataOf_of_acknowledged {r : MutationBatchResult} (hb : r.batch.OfUser)
    (hresults : r.batch.Accepts r.mutation_results) {key : DocumentKey}
    {c c' : Option MaybeDocument} (h : LocalStore.Acknowledged r key c c')
    (hforeseen : ∀ m ∈ r.batch.mutations, m.key = key → r.batch.Foreseen key (dataOf c))
    (hnews : ∀ mr ∈ r.batch.mutations.zip r.mutation_results, mr.1.key = key →
      ∀ doc, c = some doc → doc.version < mr.2.version) :
    dataOf c' = r.batch.effect key (dataOf c) := by
  cases h with
  | other hne => exact (effect_of_forall_ne hb hne _).symm
  | newer hv hle =>
      obtain ⟨mr, hmr, hkey, rfl⟩ := find_docVersions hv
      exact absurd hle (not_le.mpr (hnews mr hmr hkey _ rfl))
  | applied hv hlt happly hversion hpending =>
      obtain ⟨mr, hmr, hkey, -⟩ := find_docVersions hv
      obtain ⟨doc, hdoc, hdata⟩ :=
        MutationBatch.dataOf_applyToRemoteDocument hb hresults key c
      obtain rfl := Option.some.inj (hdoc.symm.trans happly)
      exact hdata (hforeseen mr.1 (List.of_mem_zip hmr).1 hkey)

lemma abs_ext {t : State String Documents MutationBatch Unit Unit}
    (hstore : ∀ key, dataOf (s.cached key) = t.store key)
    (hqueue : ∀ user_id, s.queue.batchesOf user_id = t.queue user_id) : s.abs = t := by
  obtain ⟨store, queue, screen, shared⟩ := t
  rw [abs, State.mk.injEq]
  exact ⟨funext hstore, funext hqueue, rfl, rfl⟩

/-- A batch added to the queue of a user. -/
lemma update_append (queue : String → List MutationBatch) (user_id user_id' : String)
    (batch : MutationBatch) :
    Function.update queue user_id (queue user_id ++ [batch]) user_id' =
      queue user_id' ++ if user_id' = user_id then [batch] else [] := by
  split_ifs with h
  · rw [h, Function.update_self]
  · rw [Function.update_of_ne h, List.append_nil]

/-- The batch of a write is the one the device makes. -/
lemma batch_eq_newBatch (hs : s.Inv) (local_write_time : Timestamp) {mutations : List Mutation}
    (h : mutations ≠ []) :
    UserWrite.batch ⟨s.queue.next_batch_id, local_write_time, mutations, h⟩
        (clients.view s.abs s.queue.user_id) =
      s.local_store.newBatch local_write_time mutations h := by
  rw [UserWrite.batch, LocalStore.newBatch, MutationBatch.mk.injEq]
  refine ⟨rfl, rfl, List.filterMap_congr fun m _ => ?_, rfl⟩
  have hdata : dataOf (documentOf (clients.view s.abs s.queue.user_id m.key)) =
      dataOf (s.local_store.localView m.key) := by
    rw [dataOf_documentOf, view_abs hs]
  rw [Mutation.extractBaseValue_congr hdata]

/-- The first batch of the pipeline is the first of the queue, and leaves it when it is
settled. -/
lemma queue_settled {batch : MutationBatch}
    (hhead : s.write_pipeline.head? = some batch) {e : Event α}
    (he : (∃ commit_version results, e = .mutationResult commit_version results) ∨ e = .writeError)
    {queue : String → List MutationBatch}
    (h : ∀ user_id, (s.settled user_id e).map Prod.fst ++ queue user_id =
      s.queue.batchesOf user_id ++ (s.issued user_id e).map Prod.fst) :
    ∃ bs, s.abs.queue s.queue.user_id = batch :: bs ∧
      ∀ user_id, queue user_id = Function.update s.abs.queue s.queue.user_id bs user_id := by
  have hrest : ∀ user_id, (if user_id = s.queue.user_id then [batch] else []) ++ queue user_id =
      s.queue.batchesOf user_id := by
    intro user_id
    have hsettled : s.settled user_id e = if user_id = s.queue.user_id then
        s.write_pipeline.head?.toList.map fun b =>
          (b, s.mutation_callbacks.find (mutationKey user_id b.batch_id))
      else [] := by
      rcases he with ⟨_, _, rfl⟩ | rfl <;> rfl
    have hissued : s.issued user_id e = [] := by
      rcases he with ⟨_, _, rfl⟩ | rfl <;> rfl
    have hqueue := h user_id
    rw [hsettled, hissued, hhead, apply_ite (List.map Prod.fst), List.map_nil,
      List.append_nil] at hqueue
    exact hqueue
  refine ⟨queue s.queue.user_id, ?_, fun user_id => ?_⟩
  · have huser := hrest s.queue.user_id
    rw [if_pos rfl] at huser
    exact huser.symm
  · by_cases huser : user_id = s.queue.user_id
    · rw [huser, Function.update_self]
    · have hother := hrest user_id
      rw [if_neg huser, List.nil_append] at hother
      rw [Function.update_of_ne huser]
      exact hother

/-- **An event of the device is one of the clients.** -/
theorem abs_step (hs : s.Inv) {e : Event α} (he : s.Admissible e) (hf : s.Foreseen e)
    (h : step s e = some s') :
    exec clients.faultyStep s.abs (s.translate e) = some s'.abs := by
  obtain ⟨t, ht, -, hfifo⟩ := step_spec hs he
  obtain rfl := Option.some.inj (ht.symm.trans h)
  -- an event that the clients do not notice
  have hsame : s.translate e = [] → (∀ key, t.cached key = s.cached key) →
      (∀ user_id, s.settled user_id e = [] ∧ s.issued user_id e = []) →
      exec clients.faultyStep s.abs (s.translate e) = some t.abs := by
    intro hnil hcached hqueue
    rw [hnil, exec_nil, Option.some_inj]
    refine abs_ext (fun key => by rw [← hcached]; rfl) fun user_id => ?_
    have hbatches := hfifo user_id
    rw [(hqueue user_id).1, (hqueue user_id).2, List.map_nil, List.nil_append,
      List.append_nil] at hbatches
    exact hbatches.symm
  have hcached : (∀ commit_version results, e ≠ .mutationResult commit_version results) →
      ∀ key, t.cached key = s.cached key := by
    intro hne key
    rcases cached_step hs he ht key with hsame | ⟨r, heq, -⟩ | ⟨remote_event, rfl, -⟩
    · exact hsame
    · exact absurd heq (hne _ _)
    · exact absurd hf id
  cases e with
  | writeMutations local_write_time mutations callback =>
      rw [translate, dif_pos he.1, exec_cons, App.faultyStep]
      rw [App.step_act_eq_some.mpr ⟨(), (), _, rfl, rfl⟩, Option.bind_some, exec_nil,
        Option.some_inj]
      refine (abs_ext (fun key => ?_) fun user_id => ?_).symm
      · rw [hcached (by simp)]
        rfl
      · have hbatches : t.queue.batchesOf user_id = s.queue.batchesOf user_id ++ _ :=
          hfifo user_id
        rw [issued, dif_pos he.1, ← batch_eq_newBatch hs] at hbatches
        rw [hbatches]
        refine Eq.trans ?_ (update_append s.abs.queue s.queue.user_id user_id _).symm
        rw [apply_ite (List.map Prod.fst)]
        rfl
  | mutationResult commit_version mutation_results =>
      obtain ⟨r, rfl, rfl, hhead, -, hb, hresults, hack⟩ := acknowledged_of_step hs he ht
      obtain ⟨bs, hall, hrest⟩ := queue_settled hhead (Or.inl ⟨_, _, rfl⟩) hfifo
      rw [translate, exec_cons, App.faultyStep,
        App.step_commit_eq_some.mpr ⟨r.batch, bs, hall, rfl⟩, Option.bind_some, exec_nil,
        Option.some_inj]
      refine (abs_ext (fun key => ?_) hrest).symm
      exact dataOf_of_acknowledged hb hresults (hack key)
        (fun m hm hkey => hkey ▸ (hf _ hhead).1 m hm)
        fun mr hmr hkey => hkey ▸ (hf _ hhead).2 mr hmr
  | writeError =>
      obtain ⟨batch, hhead⟩ := Option.ne_none_iff_exists'.mp (mt List.head?_eq_none_iff.mp he)
      obtain ⟨bs, hall, hrest⟩ := queue_settled hhead (Or.inr rfl) hfifo
      rw [translate, exec_cons, App.faultyStep_refuse_eq_some.mpr ⟨batch, bs, hall, rfl⟩,
        Option.bind_some, exec_nil, Option.some_inj]
      refine (abs_ext (fun key => ?_) hrest).symm
      rw [hcached (by simp)]
      rfl
  | remoteEvent remote_event => exact absurd hf id
  | credentialChange user_id => exact hsame rfl (hcached (by simp)) fun _ => ⟨rfl, rfl⟩
  | disableNetwork => exact hsame rfl (hcached (by simp)) fun _ => ⟨rfl, rfl⟩
  | enableNetwork => exact hsame rfl (hcached (by simp)) fun _ => ⟨rfl, rfl⟩
  | restart user_id => exact hsame rfl (hcached (by simp)) fun _ => ⟨rfl, rfl⟩

/-- **A run of the device is one of the clients.** -/
theorem abs_exec (hs : s.Inv) {es : List (Event α)}
    (hes : EachStep step (fun s e => s.Admissible e ∧ s.Foreseen e) s es)
    (h : exec step s es = some s') :
    exec clients.faultyStep s.abs (outputs step translate s es) = some s'.abs := by
  induction es generalizing s with
  | nil =>
      obtain rfl := Option.some.inj h
      rfl
  | cons e es ih =>
      obtain ⟨t, ht, h'⟩ := exec_cons_eq_some.mp h
      rw [outputs_cons ht, exec_append, abs_step hs hes.1.1 hes.1.2 ht, Option.bind_some]
      exact ih (inv_step hs hes.1.1 ht) (hes.2 t ht) h'

theorem abs_exec_interrupted :
    ∃ s', exec step (fresh "ann") interrupted = some s' ∧
      exec clients.faultyStep (fresh "ann" : SyncEngine String).abs
        (outputs step translate (fresh "ann") interrupted) = some s'.abs := by
  obtain ⟨s', h, -⟩ := exists_exec (inv_fresh "ann")
    (eachStep_of_forall fun s _ he => (admissible_interrupted s he).1)
  refine ⟨s', h, abs_exec (inv_fresh "ann") (eachStep_of_forall fun s e he => ?_) h⟩
  refine ⟨(admissible_interrupted s he).1, ?_⟩
  simp only [interrupted, List.mem_cons, List.not_mem_nil, or_false] at he
  rcases he with rfl | rfl | rfl | rfl <;> trivial

/-- **A foreseen answer changes nothing that is shown.** -/
theorem localView_mutationResult (hs : s.Inv) {commit_version : SnapshotVersion}
    {mutation_results : List MutationResult}
    (he : s.Admissible (.mutationResult commit_version mutation_results))
    (hf : s.Foreseen (.mutationResult commit_version mutation_results))
    (h : step s (.mutationResult commit_version mutation_results) = some s')
    (key : DocumentKey) :
    dataOf (s'.local_store.localView key) = dataOf (s.local_store.localView key) := by
  obtain ⟨r, -, -, -, huser, -⟩ := acknowledged_of_step hs he h
  obtain ⟨u, hu, hnil⟩ := exec_cons_eq_some.mp (abs_step hs he hf h)
  obtain rfl := Option.some.inj hnil
  obtain ⟨w, q, hq, habs⟩ := App.step_commit_eq_some.mp hu
  rw [← view_abs (inv_step hs he h), ← view_abs hs, huser, habs, App.view_commit hq]

/-- Ann has written, and waits for the answer. -/
def sending : SyncEngine String :=
  { (fresh "ann" : SyncEngine String) with
    local_store := ⟨LevelDbMutationQueue.written, .empty, SnapshotVersion.none⟩
    write_pipeline := [LevelDbMutationQueue.firstBatch]
    is_network_enabled := true }

lemma inv_sending : sending.Inv := by
  have hempty := LevelDbMutationQueue.inv_empty "ann" 1
  have hnil : (⟨"ann", 1, .empty, .empty⟩ : LevelDbMutationQueue).allMutationBatches = [] := by
    refine List.eq_nil_iff_forall_not_mem.mpr fun b hb => ?_
    rw [LevelDbMutationQueue.mem_allMutationBatches hempty,
      LevelDbMutationQueue.lookupMutationBatch, SortedMap.find_empty] at hb
    exact absurd hb (by simp)
  refine ⟨⟨LevelDbMutationQueue.inv_written, fun user_id id b hb => ?_⟩, ?_,
    fun _ _ h => absurd (SortedMap.find_empty _) h⟩
  · rw [sending, LevelDbMutationQueue.written, LevelDbMutationQueue.find_mutations_add] at hb
    split_ifs at hb with hnew
    · obtain rfl := Option.some.inj hb
      exact ⟨fun _ hm => absurd hm List.not_mem_nil, fun _ hm => absurd hm List.not_mem_nil,
        fun m hm => List.mem_singleton.mp hm ▸ rfl⟩
    · exact absurd (hb.symm.trans (SortedMap.find_empty _)) (by simp)
  · have hall := LevelDbMutationQueue.allMutationBatches_add hempty
      LevelDbMutationQueue.firstBatch.local_write_time
      LevelDbMutationQueue.firstBatch.base_mutations LevelDbMutationQueue.firstBatch.mutations
      LevelDbMutationQueue.firstBatch.mutations_ne
    rw [hnil] at hall
    exact (congrArg (List.take kMaxPendingWrites) hall).symm

theorem localView_mutationResult_sending :
    ∃ s', step sending (.mutationResult ⟨⟨1, 0⟩⟩ [⟨⟨⟨1, 0⟩⟩, none⟩]) = some s' ∧
      ∀ key, dataOf (s'.local_store.localView key) =
        dataOf (sending.local_store.localView key) := by
  have he : sending.Admissible (.mutationResult ⟨⟨1, 0⟩⟩ [⟨⟨⟨1, 0⟩⟩, none⟩]) :=
    ⟨_, rfl, .cons rfl .nil⟩
  have hf : sending.Foreseen (.mutationResult ⟨⟨1, 0⟩⟩ [⟨⟨⟨1, 0⟩⟩, none⟩]) := by
    rintro _ ⟨⟩
    refine ⟨fun m hm => ⟨rfl, ?_⟩, fun r _ doc hdoc => ?_⟩
    · obtain rfl := List.mem_singleton.mp hm
      exact (if_pos rfl).mpr ⟨trivial, trivial⟩
    · exact absurd (hdoc.symm.trans (SortedMap.find_empty _)) (by simp)
  obtain ⟨s', h, -⟩ := step_spec inv_sending he
  exact ⟨s', h, localView_mutationResult inv_sending he hf h⟩

end SyncEngine

end Firestore
