import Tasker.Firestore.MutationBatch

/-!
The queue of the batches not yet acknowledged (`local/leveldb_mutation_queue.cc`).

A table has the batches of every user of the device by user and batch id, and an
index has the ids of the batches that write a document.

* `LevelDbMutationQueue`: the tables, the signed-in user and the next batch id;
  `start`, `addMutationBatch`, `removeMutationBatch` and the queries.
* `loadNextBatchIdFromDb_spec`: the scan that looks at the last batch of each user
  finds the first id above all those in the table.
* `Inv`: ids are those of the rows, unused ids are free, and the index has a row
  for each document a batch writes; it holds initially and is kept
  (`inv_empty`, `inv_start`, `inv_add`, `inv_remove`).
* `allMutationBatches_add`, `allMutationBatches_remove`: the batches of the user
  after each operation; `nextMutationBatchAfterBatchId_eq`: the next one to send.
* `allMutationBatchesAffectingDocumentKeys_eq`,
  `allMutationBatchesAffectingQuery_eq`: the index finds the batches that write
  the documents, in order; a reference never dangles.
-/

namespace Firestore

/-- `LevelDbMutationKey`. -/
abbrev LevelDbMutationKey := String ×ₗ ℕ

/-- `LevelDbDocumentMutationKey`. -/
abbrev LevelDbDocumentMutationKey := String ×ₗ ResourcePath ×ₗ ℕ

def mutationKey (user_id : String) (batch_id : ℕ) : LevelDbMutationKey := toLex (user_id, batch_id)

def documentMutationKey (user_id : String) (path : ResourcePath) (batch_id : ℕ) :
    LevelDbDocumentMutationKey := toLex (user_id, toLex (path, batch_id))

namespace LevelDbMutationKey

def user_id (row : LevelDbMutationKey) : String := (ofLex row).1

def batch_id (row : LevelDbMutationKey) : ℕ := (ofLex row).2

end LevelDbMutationKey

namespace LevelDbDocumentMutationKey

def user_id (row : LevelDbDocumentMutationKey) : String := (ofLex row).1

def path (row : LevelDbDocumentMutationKey) : ResourcePath := (ofLex (ofLex row).2).1

def batch_id (row : LevelDbDocumentMutationKey) : ℕ := (ofLex (ofLex row).2).2

end LevelDbDocumentMutationKey

/-- The largest of the batch ids in the last row of each user, and of `max_batch_id`:
the loop of `LoadNextBatchIdFromDb`. -/
def maxBatchId : List LevelDbMutationKey → ℕ → ℕ
  | [], max_batch_id => max_batch_id
  | row :: rows, max_batch_id =>
      let last := (rows.takeWhile fun r => r.user_id = row.user_id).getLastD row
      maxBatchId (rows.dropWhile fun r => r.user_id = row.user_id) (max max_batch_id last.batch_id)
termination_by rows => rows.length
decreasing_by exact Nat.lt_succ_of_le (List.length_dropWhile_le _ rows)

/-- `LoadNextBatchIdFromDb`. -/
def loadNextBatchIdFromDb (mutations : SortedMap LevelDbMutationKey MutationBatch) : ℕ :=
  maxBatchId mutations.keys 0 + 1

/-- `LevelDbMutationQueue`, with the tables it works on. -/
structure LevelDbMutationQueue where
  user_id : String
  next_batch_id : ℕ
  mutations : SortedMap LevelDbMutationKey MutationBatch
  document_mutations : SortedMap LevelDbDocumentMutationKey Unit

namespace LevelDbMutationQueue

/-- The queue of a user, after `Start`. -/
def start (q : LevelDbMutationQueue) (user_id : String) : LevelDbMutationQueue :=
  { q with user_id := user_id, next_batch_id := loadNextBatchIdFromDb q.mutations }

/-- `AddMutationBatch`. -/
def addMutationBatch (q : LevelDbMutationQueue) (local_write_time : Timestamp)
    (base_mutations mutations : List Mutation) (h : mutations ≠ []) :
    MutationBatch × LevelDbMutationQueue :=
  let batch : MutationBatch := ⟨q.next_batch_id, local_write_time, base_mutations, mutations, h⟩
  (batch, { q with
    next_batch_id := q.next_batch_id + 1
    mutations := q.mutations.insert (mutationKey q.user_id batch.batch_id) batch
    document_mutations := SortedMap.addAll
      (mutations.map fun m => documentMutationKey q.user_id m.key.path batch.batch_id)
      q.document_mutations })

/-- `RemoveMutationBatch`, unless the batch is not there. -/
def removeMutationBatch (q : LevelDbMutationQueue) (batch : MutationBatch) :
    Option LevelDbMutationQueue :=
  if (q.mutations.find (mutationKey q.user_id batch.batch_id)).isSome then
    some { q with
      mutations := q.mutations.erase (mutationKey q.user_id batch.batch_id)
      document_mutations := SortedMap.eraseAll
        (batch.mutations.map fun m => documentMutationKey q.user_id m.key.path batch.batch_id)
        q.document_mutations }
  else none

/-- The rows of the user. -/
def rows (q : LevelDbMutationQueue) : List (LevelDbMutationKey × MutationBatch) :=
  q.mutations.scan (mutationKey q.user_id 0) fun row => row.user_id = q.user_id

/-- `AllMutationBatches`. -/
def allMutationBatches (q : LevelDbMutationQueue) : List MutationBatch := q.rows.map Prod.snd

/-- `IsEmpty`. -/
def isEmpty (q : LevelDbMutationQueue) : Bool := q.rows.isEmpty

/-- `LookupMutationBatch`. -/
def lookupMutationBatch (q : LevelDbMutationQueue) (batch_id : ℕ) : Option MutationBatch :=
  q.mutations.find (mutationKey q.user_id batch_id)

/-- `NextMutationBatchAfterBatchId`; without an id it is the first batch. -/
def nextMutationBatchAfterBatchId (q : LevelDbMutationQueue) (batch_id : Option ℕ) :
    Option MutationBatch :=
  let next_batch_id := batch_id.elim 0 (· + 1)
  match q.mutations.entriesFrom (mutationKey q.user_id next_batch_id) with
  | [] => none
  | (row, batch) :: _ => if row.user_id = q.user_id then some batch else none

/-- `AllMutationBatchesWithIds`, unless a batch is missing. -/
def allMutationBatchesWithIds (q : LevelDbMutationQueue) (batch_ids : SortedMap ℕ Unit) :
    Option (List MutationBatch) :=
  batch_ids.keys.mapM q.lookupMutationBatch

/-- The ids of some rows of the index added to others. -/
def collectIds (rows : List (LevelDbDocumentMutationKey × Unit)) (batch_ids : SortedMap ℕ Unit) :
    SortedMap ℕ Unit :=
  SortedMap.addAll (rows.map fun row => row.1.batch_id) batch_ids

/-- `AllMutationBatchesAffectingDocumentKeys`. -/
def allMutationBatchesAffectingDocumentKeys (q : LevelDbMutationQueue)
    (document_keys : DocumentKeySet) : Option (List MutationBatch) :=
  q.allMutationBatchesWithIds <|
    document_keys.keys.foldl
      (fun batch_ids key =>
        collectIds
          (q.document_mutations.scan (documentMutationKey q.user_id key.path 0) fun row =>
            row.user_id = q.user_id && row.path = key.path)
          batch_ids)
      .empty

/-- `AllMutationBatchesAffectingQuery`, for the path of the query. -/
def allMutationBatchesAffectingQuery (q : LevelDbMutationQueue) (query_path : ResourcePath) :
    Option (List MutationBatch) :=
  q.allMutationBatchesWithIds <|
    collectIds
      ((q.document_mutations.scan (documentMutationKey q.user_id query_path 0) fun row =>
          row.user_id = q.user_id && query_path.isPrefixOf row.path).filter fun row =>
        row.1.path.length = query_path.length + 1)
      .empty

/-- `PerformConsistencyCheck`: without batches the index has no rows. -/
def performConsistencyCheck (q : LevelDbMutationQueue) : Bool :=
  !q.isEmpty ||
    (q.document_mutations.scan (documentMutationKey q.user_id [] 0) fun row =>
      row.user_id = q.user_id).isEmpty

end LevelDbMutationQueue

/-! ### The next id -/

lemma getLastD_mem {α : Type*} (a : α) (l : List α) : l.getLastD a ∈ a :: l := by
  induction l generalizing a with
  | nil => exact List.mem_cons_self
  | cons b l ih =>
      rw [List.getLastD_cons]
      exact List.mem_cons_of_mem a (ih b)

lemma rel_getLastD {α : Type*} {r : α → α → Prop} (hr : ∀ a, r a a) {a : α} {l : List α}
    (h : (a :: l).Pairwise r) {b : α} (hb : b ∈ a :: l) : r b (l.getLastD a) := by
  induction l generalizing a b with
  | nil => rw [List.mem_singleton.mp hb]; exact hr a
  | cons c l ih =>
      rw [List.getLastD_cons]
      rw [List.pairwise_cons] at h
      rcases List.mem_cons.mp hb with rfl | hmem
      · exact h.1 _ (getLastD_mem c l)
      · exact ih h.2 hmem

/-- The loop finds the largest id of all rows. -/
lemma maxBatchId_le_iff {rows : List LevelDbMutationKey} (h : rows.Pairwise (· < ·))
    (max_batch_id n : ℕ) :
    maxBatchId rows max_batch_id ≤ n ↔ max_batch_id ≤ n ∧ ∀ row ∈ rows, row.batch_id ≤ n := by
  induction rows, max_batch_id using maxBatchId.induct with
  | case1 max_batch_id => simp [maxBatchId]
  | case2 row rows max_batch_id last ih =>
      rw [List.pairwise_cons] at h
      have hsplit := List.takeWhile_append_dropWhile
        (p := fun r : LevelDbMutationKey => decide (r.user_id = row.user_id)) (l := rows)
      rw [maxBatchId, ih (h.2.sublist (List.dropWhile_sublist _)), max_le_iff]
      -- the last row of a user has the largest id of the user
      have hmem := getLastD_mem row
        (rows.takeWhile fun r : LevelDbMutationKey => decide (r.user_id = row.user_id))
      have hlast : ∀ r ∈ row :: rows.takeWhile fun r => decide (r.user_id = row.user_id),
          r.batch_id ≤ last.batch_id := by
        intro r hr
        refine rel_getLastD (r := fun r r' : LevelDbMutationKey => r.batch_id ≤ r'.batch_id)
          (fun _ => le_rfl) ?_ hr
        have huser : ∀ r ∈ row :: rows.takeWhile fun r => decide (r.user_id = row.user_id),
            r.user_id = row.user_id := by
          intro r hr
          rcases List.mem_cons.mp hr with rfl | hr
          · rfl
          · exact of_decide_eq_true (List.all_eq_true.mp List.all_takeWhile r hr)
        have hsorted : (row :: rows.takeWhile fun r => decide (r.user_id = row.user_id)).Pairwise
            (· < ·) := (List.pairwise_cons.mpr h).sublist
              ((List.takeWhile_sublist _).cons_cons row)
        refine hsorted.imp_of_mem fun {r r'} hr hr' hlt => ?_
        rcases Prod.Lex.lt_iff.mp hlt with hlt | ⟨-, hlt⟩
        · have heq := (huser r hr).trans (huser r' hr').symm
          exact absurd hlt (not_lt.mpr heq.ge)
        · exact hlt.le
      constructor
      · rintro ⟨⟨hmax, hle⟩, hrest⟩
        refine ⟨hmax, fun r hr => ?_⟩
        rcases List.mem_cons.mp hr with rfl | hr
        · exact (hlast r List.mem_cons_self).trans hle
        · rw [← hsplit] at hr
          rcases List.mem_append.mp hr with hr | hr
          · exact (hlast r (List.mem_cons_of_mem row hr)).trans hle
          · exact hrest r hr
      · rintro ⟨hmax, hall⟩
        refine ⟨⟨hmax, hall _ ?_⟩, fun r hr => ?_⟩
        · exact List.Sublist.mem hmem ((List.takeWhile_sublist _).cons_cons row)
        · exact hall r (List.mem_cons_of_mem row ((List.dropWhile_sublist _).mem hr))

/-- **The next id is the first above all those in the table.** -/
theorem loadNextBatchIdFromDb_spec (mutations : SortedMap LevelDbMutationKey MutationBatch)
    (n : ℕ) :
    loadNextBatchIdFromDb mutations ≤ n ↔
      1 ≤ n ∧ ∀ user_id batch_id, mutations.find (mutationKey user_id batch_id) ≠ none →
        batch_id < n := by
  cases n with
  | zero => simp [loadNextBatchIdFromDb]
  | succ n =>
      rw [loadNextBatchIdFromDb, Nat.add_le_add_iff_right, maxBatchId_le_iff mutations.sorted]
      simp only [SortedMap.mem_keys, Nat.zero_le, true_and, Nat.le_add_left, Nat.lt_succ_iff]
      exact ⟨fun h user_id batch_id hb => h _ hb, fun h row hrow => h row.user_id row.batch_id hrow⟩

/-! ### Ranges of rows -/

lemma isRange_user (user_id : String) :
    SortedMap.IsRange (mutationKey user_id 0) fun row : LevelDbMutationKey =>
      row.user_id = user_id where
  le row h := Prod.Lex.le_iff.mpr (Or.inr ⟨(of_decide_eq_true h).symm, Nat.zero_le _⟩)
  convex row row' hle hle' h := by
    have huser : row'.user_id = user_id := of_decide_eq_true h
    exact decide_eq_true
      (le_antisymm ((Prod.Lex.monotone_fst _ _ hle').trans huser.le)
        (Prod.Lex.monotone_fst _ _ hle))

/-- The rows of the index for a range of paths. -/
lemma isRange_document (user_id : String) {start : ResourcePath} {p : ResourcePath → Bool}
    (hp : SortedMap.IsRange start p) :
    SortedMap.IsRange (documentMutationKey user_id start 0)
      fun row : LevelDbDocumentMutationKey => row.user_id = user_id && p row.path where
  le row h := by
    obtain ⟨huser, hpath⟩ := Bool.and_eq_true_iff.mp h
    refine Prod.Lex.le_iff.mpr (Or.inr ⟨(of_decide_eq_true huser).symm, ?_⟩)
    rcases (hp.le row.path hpath).lt_or_eq with hlt | heq
    · exact Prod.Lex.le_iff.mpr (Or.inl hlt)
    · exact Prod.Lex.le_iff.mpr (Or.inr ⟨heq, Nat.zero_le _⟩)
  convex row row' hle hle' h := by
    obtain ⟨huser', hpath'⟩ := Bool.and_eq_true_iff.mp h
    have huser : row.user_id = user_id :=
      le_antisymm ((Prod.Lex.monotone_fst _ _ hle').trans (of_decide_eq_true huser').le)
        (Prod.Lex.monotone_fst _ _ hle)
    have hsame : row.user_id = row'.user_id := huser.trans (of_decide_eq_true huser').symm
    refine Bool.and_eq_true_iff.mpr ⟨decide_eq_true huser, ?_⟩
    have hstart : start ≤ row.path := by
      rcases Prod.Lex.le_iff.mp hle with hlt | ⟨-, hle⟩
      · exact absurd hlt (not_lt.mpr huser.le)
      · exact Prod.Lex.monotone_fst _ _ hle
    have hpath : row.path ≤ row'.path := by
      rcases Prod.Lex.le_iff.mp hle' with hlt | ⟨-, hle'⟩
      · exact absurd hlt (not_lt.mpr hsame.ge)
      · exact Prod.Lex.monotone_fst _ _ hle'
    exact hp.convex row.path row'.path hstart hpath hpath'

lemma isRange_eq (path : ResourcePath) :
    SortedMap.IsRange path fun path' : ResourcePath => path' = path where
  le path' h := (of_decide_eq_true h).ge
  convex path' path'' hle hle' h := by
    have heq : path'' = path := of_decide_eq_true h
    exact decide_eq_true (le_antisymm (hle'.trans heq.le) hle)

lemma path_cons_le_cons {s s' : String} {path path' : ResourcePath} :
    s :: path ≤ s' :: path' ↔ s < s' ∨ s = s' ∧ path ≤ path' := by
  rw [← not_lt, List.cons_lt_cons_iff, not_or, not_lt, not_and, not_lt]
  constructor
  · rintro ⟨hle, himp⟩
    rcases hle.lt_or_eq with hlt | rfl
    · exact Or.inl hlt
    · exact Or.inr ⟨rfl, himp rfl⟩
  · rintro (hlt | ⟨rfl, hle⟩)
    · exact ⟨hlt.le, fun heq => absurd heq hlt.ne'⟩
    · exact ⟨le_rfl, fun _ => hle⟩

lemma nil_le_path (path : ResourcePath) : [] ≤ path := not_lt.mp (List.not_lt_nil path)

/-- Paths below another one follow it. -/
lemma isRange_isPrefixOf (path : ResourcePath) :
    SortedMap.IsRange path fun path' : ResourcePath => path.isPrefixOf path' where
  le path' h := by
    obtain ⟨rest, rfl⟩ := List.isPrefixOf_iff_prefix.mp h
    induction path with
    | nil => exact nil_le_path rest
    | cons s path ih => exact path_cons_le_cons.mpr (Or.inr ⟨rfl, ih (by simp)⟩)
  convex path' path'' hle hle' h := by
    rw [List.isPrefixOf_iff_prefix] at h ⊢
    induction path generalizing path' path'' with
    | nil => exact List.nil_prefix
    | cons s path ih =>
        obtain ⟨rest, rfl⟩ := h
        cases path' with
        | nil => exact absurd (hle.antisymm (nil_le_path _)) (by simp)
        | cons s' path' =>
            rw [List.cons_append] at hle'
            have hss' : s ≤ s' := by
              rcases path_cons_le_cons.mp hle with hlt | ⟨rfl, -⟩
              · exact hlt.le
              · exact le_rfl
            rcases path_cons_le_cons.mp hle' with hlt | ⟨rfl, htail'⟩
            · exact absurd hlt (not_lt.mpr hss')
            · rcases path_cons_le_cons.mp hle with hlt | ⟨-, htail⟩
              · exact absurd hlt (lt_irrefl _)
              · exact List.cons_prefix_cons.mpr
                  ⟨rfl, ih path' _ htail htail' (List.prefix_append path rest)⟩

/-! ### The invariant -/

namespace LevelDbMutationQueue

/-- The rows of the tables belong together. -/
structure Inv (q : LevelDbMutationQueue) : Prop where
  batch_id : ∀ user_id id b, q.mutations.find (mutationKey user_id id) = some b → b.batch_id = id
  lt_next : ∀ user_id id, q.mutations.find (mutationKey user_id id) ≠ none → id < q.next_batch_id
  index : ∀ user_id path id,
    q.document_mutations.find (documentMutationKey user_id path id) ≠ none ↔
      ∃ b, q.mutations.find (mutationKey user_id id) = some b ∧
        ∃ m ∈ b.mutations, m.key.path = path

variable {q : LevelDbMutationQueue}

/-- A new device has no batches. -/
lemma inv_empty (user_id : String) (next_batch_id : ℕ) :
    Inv ⟨user_id, next_batch_id, .empty, .empty⟩ where
  batch_id user_id id b h := absurd h (by simp)
  lt_next user_id id h := absurd (SortedMap.find_empty _) h
  index user_id path id := by simp

lemma inv_start (hq : q.Inv) (user_id : String) : (q.start user_id).Inv where
  batch_id := hq.batch_id
  lt_next user_id id h :=
    ((loadNextBatchIdFromDb_spec q.mutations (loadNextBatchIdFromDb q.mutations)).mp le_rfl).2
      user_id id h
  index := hq.index

/-! ### Adding and removing a batch -/

lemma mutationKey_inj {user_id user_id' : String} {id id' : ℕ} :
    mutationKey user_id id = mutationKey user_id' id' ↔ user_id = user_id' ∧ id = id' := by
  rw [mutationKey, mutationKey, toLex_inj, Prod.mk.injEq]

lemma documentMutationKey_inj {user_id user_id' : String} {path path' : ResourcePath}
    {id id' : ℕ} :
    documentMutationKey user_id path id = documentMutationKey user_id' path' id' ↔
      user_id = user_id' ∧ path = path' ∧ id = id' := by
  rw [documentMutationKey, documentMutationKey, toLex_inj, Prod.mk.injEq, toLex_inj,
    Prod.mk.injEq]

section add

variable (local_write_time : Timestamp) (base_mutations mutations : List Mutation)
  (hne : mutations ≠ [])

lemma find_mutations_add (user_id : String) (id : ℕ) :
    (q.addMutationBatch local_write_time base_mutations mutations hne).2.mutations.find
        (mutationKey user_id id) =
      if user_id = q.user_id ∧ id = q.next_batch_id then
        some (q.addMutationBatch local_write_time base_mutations mutations hne).1
      else q.mutations.find (mutationKey user_id id) := by
  rw [addMutationBatch, SortedMap.find_insert]
  simp only [mutationKey_inj]

/-- A new batch takes a free id. -/
lemma inv_add (hq : q.Inv) :
    (q.addMutationBatch local_write_time base_mutations mutations hne).2.Inv := by
  have hfree : ∀ user_id, q.mutations.find (mutationKey user_id q.next_batch_id) = none := by
    intro user_id
    by_contra h
    exact lt_irrefl _ (hq.lt_next user_id q.next_batch_id h)
  refine ⟨fun user_id id b hb => ?_, fun user_id id hb => ?_, fun user_id path id => ?_⟩
  · rw [find_mutations_add] at hb
    split_ifs at hb with hnew
    · obtain rfl := Option.some.inj hb
      exact hnew.2.symm
    · exact hq.batch_id user_id id b hb
  · rw [find_mutations_add] at hb
    split_ifs at hb with hnew
    · exact hnew.2 ▸ Nat.lt_succ_self _
    · exact Nat.lt_succ_of_lt (hq.lt_next user_id id hb)
  · rw [find_mutations_add]
    refine (SortedMap.find_addAll _ q.document_mutations _).trans ?_
    rw [hq.index, List.mem_map]
    simp only [documentMutationKey_inj]
    split_ifs with hnew
    · obtain ⟨rfl, rfl⟩ := hnew
      rw [hfree]
      constructor
      · rintro (⟨b, hb, -⟩ | ⟨m, hm, -, hpath, -⟩)
        · exact absurd hb (by simp)
        · exact ⟨_, rfl, m, hm, hpath⟩
      · rintro ⟨b, hb, m, hm, hpath⟩
        obtain rfl := Option.some.inj hb
        exact Or.inr ⟨m, hm, rfl, hpath, rfl⟩
    · exact or_iff_left fun ⟨_, _, huser, _, hid⟩ => hnew ⟨huser.symm, hid.symm⟩

end add

lemma removeMutationBatch_eq_some {batch : MutationBatch} {q' : LevelDbMutationQueue} :
    q.removeMutationBatch batch = some q' ↔
      q.mutations.find (mutationKey q.user_id batch.batch_id) ≠ none ∧
        q' = { q with
          mutations := q.mutations.erase (mutationKey q.user_id batch.batch_id)
          document_mutations := SortedMap.eraseAll
            (batch.mutations.map fun m =>
              documentMutationKey q.user_id m.key.path batch.batch_id)
            q.document_mutations } := by
  rw [removeMutationBatch, Option.ite_none_right_eq_some, Option.isSome_iff_ne_none]
  exact and_congr_right fun _ => Option.some_inj.trans eq_comm

/-- Removing a batch of the queue. -/
lemma inv_remove (hq : q.Inv) {batch : MutationBatch} {q' : LevelDbMutationQueue}
    (hbatch : q.lookupMutationBatch batch.batch_id = some batch)
    (h : q.removeMutationBatch batch = some q') : q'.Inv := by
  obtain ⟨-, rfl⟩ := removeMutationBatch_eq_some.mp h
  refine ⟨fun user_id id b hb => ?_, fun user_id id hb => ?_, fun user_id path id => ?_⟩
  · rw [SortedMap.find_erase] at hb
    split_ifs at hb with hrow
    exact hq.batch_id user_id id b hb
  · rw [SortedMap.find_erase] at hb
    split_ifs at hb with hrow
    · exact absurd rfl hb
    · exact hq.lt_next user_id id hb
  · rw [SortedMap.find_eraseAll, SortedMap.find_erase]
    simp only [List.mem_map, documentMutationKey_inj, mutationKey_inj]
    by_cases hrow : user_id = q.user_id ∧ id = batch.batch_id
    · obtain ⟨rfl, rfl⟩ := hrow
      refine iff_of_false (fun hne => ?_) (by simp)
      split_ifs at hne with hmem
      · exact hne rfl
      · obtain ⟨b, hb, m, hm, rfl⟩ := (hq.index _ _ _).mp hne
        obtain rfl := Option.some.inj (hbatch.symm.trans hb)
        exact hmem ⟨m, hm, rfl, rfl, rfl⟩
    · rw [if_neg hrow, if_neg fun ⟨m, _, huser, _, hid⟩ => hrow ⟨huser.symm, hid.symm⟩, hq.index]

/-! ### The batches of the user -/

lemma mem_rows {row : LevelDbMutationKey} {b : MutationBatch} :
    (row, b) ∈ q.rows ↔ row.user_id = q.user_id ∧ q.mutations.find row = some b := by
  rw [rows, SortedMap.scan_eq_filter q.mutations (isRange_user q.user_id), List.mem_filter,
    SortedMap.mem_entries, decide_eq_true_eq, and_comm]

lemma mem_allMutationBatches (hq : q.Inv) {b : MutationBatch} :
    b ∈ q.allMutationBatches ↔ q.lookupMutationBatch b.batch_id = some b := by
  rw [allMutationBatches, List.mem_map, lookupMutationBatch]
  constructor
  · rintro ⟨⟨row, b⟩, hrow, rfl⟩
    obtain ⟨huser, hb⟩ := mem_rows.mp hrow
    have hid : b.batch_id = row.batch_id := hq.batch_id row.user_id row.batch_id b hb
    rwa [hid, ← huser]
  · exact fun h => ⟨(mutationKey q.user_id b.batch_id, b), mem_rows.mpr ⟨rfl, h⟩, rfl⟩

lemma pairwise_allMutationBatches (hq : q.Inv) :
    q.allMutationBatches.Pairwise fun b b' => b.batch_id < b'.batch_id := by
  have hsorted : q.rows.Pairwise fun e e' => e.1 < e'.1 := by
    rw [rows, SortedMap.scan_eq_filter q.mutations (isRange_user q.user_id)]
    exact (List.pairwise_map.mp q.mutations.sorted_entries).filter _
  refine List.pairwise_map.mpr (hsorted.imp_of_mem fun {e e'} he he' hlt => ?_)
  obtain ⟨huser, hb⟩ := mem_rows.mp he
  obtain ⟨huser', hb'⟩ := mem_rows.mp he'
  rw [hq.batch_id e.1.user_id e.1.batch_id e.2 hb, hq.batch_id e'.1.user_id e'.1.batch_id e'.2 hb']
  rcases Prod.Lex.lt_iff.mp hlt with hlt | ⟨-, hlt⟩
  · exact absurd hlt (not_lt.mpr (huser'.trans huser.symm).le)
  · exact hlt

/-- Batches in order of their ids are determined by which they are. -/
lemma eq_of_mem_iff {bs bs' : List MutationBatch}
    (h : bs.Pairwise fun b b' => b.batch_id < b'.batch_id)
    (h' : bs'.Pairwise fun b b' => b.batch_id < b'.batch_id) (hmem : ∀ b, b ∈ bs ↔ b ∈ bs') :
    bs = bs' := by
  have : Std.Irrefl fun b b' : MutationBatch => b.batch_id < b'.batch_id :=
    ⟨fun b => lt_irrefl b.batch_id⟩
  have : Std.Antisymm fun b b' : MutationBatch => b.batch_id < b'.batch_id :=
    ⟨fun b b' hlt hlt' => absurd hlt hlt'.not_gt⟩
  exact h.eq_of_mem_iff h' hmem

lemma isEmpty_iff : q.isEmpty = true ↔ q.allMutationBatches = [] := by
  rw [isEmpty, List.isEmpty_iff, allMutationBatches, List.map_eq_nil_iff]

/-- **A new batch is the last one.** -/
theorem allMutationBatches_add (hq : q.Inv) (local_write_time : Timestamp)
    (base_mutations mutations : List Mutation) (hne : mutations ≠ []) :
    (q.addMutationBatch local_write_time base_mutations mutations hne).2.allMutationBatches =
      q.allMutationBatches ++
        [(q.addMutationBatch local_write_time base_mutations mutations hne).1] := by
  have hq' := inv_add local_write_time base_mutations mutations hne hq
  have hlt : ∀ b ∈ q.allMutationBatches, b.batch_id < q.next_batch_id := by
    intro b hb
    refine hq.lt_next q.user_id b.batch_id ?_
    rw [← lookupMutationBatch, (mem_allMutationBatches hq).mp hb]
    exact Option.some_ne_none b
  refine eq_of_mem_iff (pairwise_allMutationBatches hq') ?_ fun b => ?_
  · refine List.pairwise_append.mpr
      ⟨pairwise_allMutationBatches hq, List.pairwise_singleton _ _, fun b hb b' hb' => ?_⟩
    rw [List.mem_singleton.mp hb']
    exact hlt b hb
  · rw [mem_allMutationBatches hq', List.mem_append, mem_allMutationBatches hq,
      List.mem_singleton, lookupMutationBatch, find_mutations_add]
    split_ifs with hnew
    · constructor
      · exact fun h => Or.inr (Option.some.inj h).symm
      · rintro (h | rfl)
        · have hlt' := hlt b ((mem_allMutationBatches hq).mpr h)
          exact absurd hnew.2 hlt'.ne
        · rfl
    · refine (or_iff_left ?_).symm
      rintro rfl
      exact hnew ⟨rfl, rfl⟩

/-- **A removed batch is gone, and the others stay.** -/
theorem allMutationBatches_remove (hq : q.Inv) {batch : MutationBatch}
    {q' : LevelDbMutationQueue} (hbatch : q.lookupMutationBatch batch.batch_id = some batch)
    (h : q.removeMutationBatch batch = some q') :
    q'.allMutationBatches = q.allMutationBatches.filter fun b => b.batch_id ≠ batch.batch_id := by
  have hq' := inv_remove hq hbatch h
  refine eq_of_mem_iff (pairwise_allMutationBatches hq')
    ((pairwise_allMutationBatches hq).filter _) fun b => ?_
  obtain ⟨-, rfl⟩ := removeMutationBatch_eq_some.mp h
  rw [mem_allMutationBatches hq', List.mem_filter, mem_allMutationBatches hq,
    lookupMutationBatch, lookupMutationBatch, SortedMap.find_erase]
  simp only [mutationKey_inj, true_and, ne_eq, decide_eq_true_eq]
  split_ifs with hid
  · simp [hid]
  · simp [hid]

/-! ### The batches of every user -/

/-- The batches of a user who may not be signed in. -/
def batchesOf (q : LevelDbMutationQueue) (user_id : String) : List MutationBatch :=
  { q with user_id := user_id }.allMutationBatches

@[simp] lemma batchesOf_user_id (q : LevelDbMutationQueue) :
    q.batchesOf q.user_id = q.allMutationBatches := rfl

@[simp] lemma batchesOf_start (q : LevelDbMutationQueue) (user_id user_id' : String) :
    (q.start user_id').batchesOf user_id = q.batchesOf user_id := rfl

lemma inv_user_id (hq : q.Inv) (user_id : String) : Inv { q with user_id := user_id } :=
  ⟨hq.batch_id, hq.lt_next, hq.index⟩

/-- The batches of a user are determined by their rows. -/
lemma batchesOf_congr {q' : LevelDbMutationQueue} (hq : q.Inv) (hq' : q'.Inv) {user_id : String}
    (h : ∀ id, q.mutations.find (mutationKey user_id id) =
      q'.mutations.find (mutationKey user_id id)) :
    q.batchesOf user_id = q'.batchesOf user_id := by
  refine eq_of_mem_iff (pairwise_allMutationBatches (inv_user_id hq user_id))
    (pairwise_allMutationBatches (inv_user_id hq' user_id)) fun b => ?_
  rw [batchesOf, batchesOf, mem_allMutationBatches (inv_user_id hq user_id),
    mem_allMutationBatches (inv_user_id hq' user_id), lookupMutationBatch, lookupMutationBatch, h]

/-- A new batch is one of the user who is signed in. -/
lemma batchesOf_add (hq : q.Inv) (local_write_time : Timestamp)
    (base_mutations mutations : List Mutation) (hne : mutations ≠ []) (user_id : String) :
    (q.addMutationBatch local_write_time base_mutations mutations hne).2.batchesOf user_id =
      q.batchesOf user_id ++
        if user_id = q.user_id then
          [(q.addMutationBatch local_write_time base_mutations mutations hne).1]
        else [] := by
  split_ifs with huser
  · rw [huser]
    exact allMutationBatches_add hq local_write_time base_mutations mutations hne
  · rw [List.append_nil]
    refine batchesOf_congr (inv_add local_write_time base_mutations mutations hne hq) hq
      fun id => ?_
    rw [find_mutations_add, if_neg fun h => huser h.1]

/-- The first batch of the signed-in user removed. -/
lemma batchesOf_remove (hq : q.Inv) {batch : MutationBatch} {bs : List MutationBatch}
    {q' : LevelDbMutationQueue} (hall : q.allMutationBatches = batch :: bs)
    (h : q.removeMutationBatch batch = some q') (user_id : String) :
    (if user_id = q.user_id then [batch] else []) ++ q'.batchesOf user_id =
      q.batchesOf user_id := by
  have hbatch : q.lookupMutationBatch batch.batch_id = some batch :=
    (mem_allMutationBatches hq).mp (hall ▸ List.mem_cons_self)
  have huser' : q'.user_id = q.user_id := by
    obtain ⟨-, rfl⟩ := removeMutationBatch_eq_some.mp h
    rfl
  split_ifs with huser
  · have hsorted := pairwise_allMutationBatches hq
    rw [hall, List.pairwise_cons] at hsorted
    have hrest : q'.allMutationBatches = bs := by
      rw [allMutationBatches_remove hq hbatch h, hall, List.filter_cons_of_neg (by simp),
        List.filter_eq_self]
      exact fun b hb => by simpa using (hsorted.1 b hb).ne'
    rw [huser, batchesOf_user_id, hall, ← huser', batchesOf_user_id, hrest]
    rfl
  · rw [List.nil_append]
    refine batchesOf_congr (inv_remove hq hbatch h) hq fun id => ?_
    obtain ⟨-, rfl⟩ := removeMutationBatch_eq_some.mp h
    rw [SortedMap.find_erase, if_neg fun heq => huser (mutationKey_inj.mp heq).1]

/-! ### The index -/

lemma mem_collectIds (rows : List (LevelDbDocumentMutationKey × Unit))
    (batch_ids : SortedMap ℕ Unit) (id : ℕ) :
    id ∈ (collectIds rows batch_ids).keys ↔
      id ∈ batch_ids.keys ∨ ∃ row ∈ rows, row.1.batch_id = id := by
  rw [collectIds, SortedMap.mem_addAll, List.mem_map]

lemma mapM_eq_some {α β : Type*} {f : α → Option β} {l : List α} (h : ∀ a ∈ l, f a ≠ none) :
    ∃ bs, l.mapM f = some bs ∧ l.map f = bs.map some := by
  induction l with
  | nil => exact ⟨[], rfl, rfl⟩
  | cons a l ih =>
      obtain ⟨b, hb⟩ := Option.ne_none_iff_exists'.mp (h a List.mem_cons_self)
      obtain ⟨bs, hbs, hmap⟩ := ih fun a' ha' => h a' (List.mem_cons_of_mem a ha')
      exact ⟨b :: bs, by simp [List.mapM_cons, hb, hbs],
        by rw [List.map_cons, List.map_cons, hb, hmap]⟩

/-- Of ids in the table the batches are found, in order. -/
lemma allMutationBatchesWithIds_eq (hq : q.Inv) {batch_ids : SortedMap ℕ Unit}
    (h : ∀ id ∈ batch_ids.keys, q.lookupMutationBatch id ≠ none) :
    q.allMutationBatchesWithIds batch_ids =
      some (q.allMutationBatches.filter fun b => b.batch_id ∈ batch_ids.keys) := by
  obtain ⟨bs, hbs, hmap⟩ := mapM_eq_some h
  rw [allMutationBatchesWithIds, hbs, Option.some_inj]
  have hmem : ∀ b, b ∈ bs ↔ ∃ id ∈ batch_ids.keys, q.lookupMutationBatch id = some b := by
    intro b
    rw [← List.mem_map, hmap, List.mem_map]
    exact ⟨fun hb => ⟨b, hb, rfl⟩, fun ⟨b', hb', heq⟩ => Option.some.inj heq ▸ hb'⟩
  have hids : bs.map MutationBatch.batch_id = batch_ids.keys := by
    have hmap' := congrArg (List.map fun b => b.elim 0 MutationBatch.batch_id) hmap
    rw [List.map_map, List.map_map] at hmap'
    refine hmap'.symm.trans ((List.map_congr_left fun id hid => ?_).trans (List.map_id _))
    obtain ⟨b, hb⟩ := Option.ne_none_iff_exists'.mp (h id hid)
    rw [Function.comp_apply, hb]
    exact hq.batch_id q.user_id id b hb
  refine eq_of_mem_iff ?_ ((pairwise_allMutationBatches hq).filter _) fun b => ?_
  · refine List.pairwise_map.mp ?_
    rw [hids]
    exact batch_ids.sorted
  · rw [hmem, List.mem_filter, mem_allMutationBatches hq, decide_eq_true_eq]
    constructor
    · rintro ⟨id, hid, hb⟩
      obtain rfl := hq.batch_id q.user_id id b hb
      exact ⟨hb, hid⟩
    · exact fun ⟨hb, hid⟩ => ⟨b.batch_id, hid, hb⟩

/-- The batch writes a document whose path passes. -/
def affects (p : ResourcePath → Bool) (b : MutationBatch) : Bool :=
  b.mutations.any fun m => p m.key.path

/-- The ids that the index has for paths that pass are those of the batches that
write them. -/
lemma exists_index_row (hq : q.Inv) (p : ResourcePath → Bool) (id : ℕ) :
    (∃ row, q.document_mutations.find row ≠ none ∧ row.user_id = q.user_id ∧
        p row.path = true ∧ row.batch_id = id) ↔
      ∃ b, q.lookupMutationBatch id = some b ∧ affects p b = true := by
  constructor
  · rintro ⟨row, hrow, huser, hpath, rfl⟩
    obtain ⟨b, hb, m, hm, hkey⟩ := (hq.index row.user_id row.path row.batch_id).mp hrow
    refine ⟨b, ?_, List.any_eq_true.mpr ⟨m, hm, hkey ▸ hpath⟩⟩
    rw [lookupMutationBatch, ← huser, hb]
  · rintro ⟨b, hb, haffects⟩
    obtain ⟨m, hm, hpath⟩ := List.any_eq_true.mp haffects
    exact ⟨documentMutationKey q.user_id m.key.path id,
      (hq.index q.user_id m.key.path id).mpr ⟨b, hb, m, hm, rfl⟩, rfl, hpath, rfl⟩

/-- Ids collected from the index for paths that pass give the batches that write
them. -/
lemma allMutationBatchesWithIds_of_index (hq : q.Inv) {p : ResourcePath → Bool}
    {batch_ids : SortedMap ℕ Unit}
    (h : ∀ id, id ∈ batch_ids.keys ↔
      ∃ row, q.document_mutations.find row ≠ none ∧ row.user_id = q.user_id ∧
        p row.path = true ∧ row.batch_id = id) :
    q.allMutationBatchesWithIds batch_ids = some (q.allMutationBatches.filter (affects p)) := by
  have hids : ∀ id, id ∈ batch_ids.keys ↔
      ∃ b, q.lookupMutationBatch id = some b ∧ affects p b = true :=
    fun id => (h id).trans (exists_index_row hq p id)
  rw [allMutationBatchesWithIds_eq hq]
  · refine congrArg some (List.filter_congr fun b hb => ?_)
    have hlookup := (mem_allMutationBatches hq).mp hb
    rw [Bool.eq_iff_iff, decide_eq_true_eq, hids]
    constructor
    · rintro ⟨b', hb', haffects⟩
      rwa [Option.some.inj (hlookup.symm.trans hb')]
    · exact fun haffects => ⟨b, hlookup, haffects⟩
  · intro id hid
    obtain ⟨b, hb, -⟩ := (hids id).mp hid
    rw [hb]
    exact Option.some_ne_none b

/-- The rows a scan of the index finds. -/
lemma mem_scan_index {start : ResourcePath} {p : ResourcePath → Bool}
    (hp : SortedMap.IsRange start p) (row : LevelDbDocumentMutationKey) :
    (row, ()) ∈ q.document_mutations.scan (documentMutationKey q.user_id start 0)
        (fun row => row.user_id = q.user_id && p row.path) ↔
      q.document_mutations.find row ≠ none ∧ row.user_id = q.user_id ∧ p row.path = true := by
  rw [SortedMap.scan_eq_filter _ (isRange_document q.user_id hp), List.mem_filter,
    SortedMap.mem_entries, Bool.and_eq_true_iff, decide_eq_true_eq]
  refine and_congr_left fun _ => ?_
  cases q.document_mutations.find row <;> simp

/-- **The index finds the batches that write the documents.** -/
theorem allMutationBatchesAffectingDocumentKeys_eq (hq : q.Inv) (document_keys : DocumentKeySet) :
    q.allMutationBatchesAffectingDocumentKeys document_keys =
      some (q.allMutationBatches.filter
        (affects fun path => document_keys.keys.any fun key => path = key.path)) := by
  rw [allMutationBatchesAffectingDocumentKeys]
  refine allMutationBatchesWithIds_of_index hq fun id => ?_
  -- the keys one after the other
  have hall : ∀ (keys : List DocumentKey) (batch_ids : SortedMap ℕ Unit),
      id ∈ (keys.foldl
        (fun batch_ids key =>
          collectIds
            (q.document_mutations.scan (documentMutationKey q.user_id key.path 0) fun row =>
              row.user_id = q.user_id && row.path = key.path)
            batch_ids)
        batch_ids).keys ↔
      id ∈ batch_ids.keys ∨
        ∃ row, q.document_mutations.find row ≠ none ∧ row.user_id = q.user_id ∧
          (keys.any fun key => row.path = key.path) = true ∧ row.batch_id = id := by
    intro keys
    induction keys with
    | nil => simp
    | cons key keys ih =>
        intro batch_ids
        rw [List.foldl_cons, ih, mem_collectIds, or_assoc]
        refine or_congr_right ?_
        constructor
        · rintro (⟨⟨row, _⟩, hrow, hid⟩ | ⟨row, hrow, huser, hkeys, hid⟩)
          · obtain ⟨hrow, huser, hpath⟩ := (mem_scan_index (isRange_eq key.path) row).mp hrow
            exact ⟨row, hrow, huser, by rw [List.any_cons, hpath, Bool.true_or], hid⟩
          · exact ⟨row, hrow, huser, by rw [List.any_cons, hkeys, Bool.or_true], hid⟩
        · rintro ⟨row, hrow, huser, hkeys, hid⟩
          rw [List.any_cons, Bool.or_eq_true] at hkeys
          rcases hkeys with hpath | hkeys
          · exact Or.inl ⟨(row, ()),
              (mem_scan_index (isRange_eq key.path) row).mpr ⟨hrow, huser, hpath⟩, hid⟩
          · exact Or.inr ⟨row, hrow, huser, hkeys, hid⟩
  rw [hall]
  exact or_iff_right (by simp [SortedMap.mem_keys])

/-- **The index finds the batches that write documents of a collection.** -/
theorem allMutationBatchesAffectingQuery_eq (hq : q.Inv) (query_path : ResourcePath) :
    q.allMutationBatchesAffectingQuery query_path =
      some (q.allMutationBatches.filter
        (affects fun path =>
          query_path.isPrefixOf path && path.length = query_path.length + 1)) := by
  rw [allMutationBatchesAffectingQuery]
  refine allMutationBatchesWithIds_of_index hq fun id => ?_
  rw [mem_collectIds]
  refine (or_iff_right (by simp [SortedMap.mem_keys])).trans ?_
  constructor
  · rintro ⟨⟨row, _⟩, hrow, hid⟩
    obtain ⟨hscan, hlength⟩ := List.mem_filter.mp hrow
    obtain ⟨hrow, huser, hbelow⟩ := (mem_scan_index (isRange_isPrefixOf query_path) row).mp hscan
    exact ⟨row, hrow, huser, Bool.and_eq_true_iff.mpr ⟨hbelow, hlength⟩, hid⟩
  · rintro ⟨row, hrow, huser, hpath, hid⟩
    obtain ⟨hbelow, hlength⟩ := Bool.and_eq_true_iff.mp hpath
    exact ⟨(row, ()), List.mem_filter.mpr
      ⟨(mem_scan_index (isRange_isPrefixOf query_path) row).mpr ⟨hrow, huser, hbelow⟩,
        hlength⟩, hid⟩

/-- Ann's document. -/
def annsKey : DocumentKey := ⟨["users", "ann"], rfl⟩

/-- The first write to it. -/
def firstBatch : MutationBatch where
  batch_id := 1
  local_write_time := ⟨0, 0⟩
  base_mutations := []
  mutations := [.set annsKey .empty .none]
  mutations_ne := List.cons_ne_nil _ _

/-- The queue after it. -/
def written : LevelDbMutationQueue :=
  (addMutationBatch ⟨"ann", 1, .empty, .empty⟩ firstBatch.local_write_time
    firstBatch.base_mutations firstBatch.mutations firstBatch.mutations_ne).2

lemma inv_written : written.Inv := inv_add _ _ _ _ (inv_empty "ann" 1)

theorem allMutationBatchesAffectingQuery_eq_written :
    written.allMutationBatchesAffectingQuery ["users"] =
      some (written.allMutationBatches.filter
        (affects fun path => ["users"].isPrefixOf path && path.length = ["users"].length + 1)) :=
  allMutationBatchesAffectingQuery_eq inv_written ["users"]

/-! ### The next batch -/

lemma le_mutationKey {user_id : String} {id : ℕ} {row : LevelDbMutationKey} :
    mutationKey user_id id ≤ row ↔
      user_id < row.user_id ∨ user_id = row.user_id ∧ id ≤ row.batch_id :=
  Prod.Lex.le_iff

/-- The first row from a key on, if it is one of the user, is the first of the
user's from there. -/
lemma head_dropWhile {l : List (LevelDbMutationKey × MutationBatch)}
    (hl : (l.map Prod.fst).Pairwise (· < ·)) (user_id : String) (id : ℕ) :
    (match l.dropWhile fun e => e.1 < mutationKey user_id id with
      | [] => none
      | (row, batch) :: _ => if row.user_id = user_id then some batch else none) =
      ((l.filter fun e => e.1.user_id = user_id).find? fun e =>
        mutationKey user_id id ≤ e.1).map Prod.snd := by
  induction l with
  | nil => rfl
  | cons e l ih =>
      rw [List.map_cons, List.pairwise_cons] at hl
      by_cases hlt : e.1 < mutationKey user_id id
      · rw [List.dropWhile_cons_of_pos (by simpa using hlt), ih hl.2, List.filter_cons]
        split_ifs with huser
        · rw [List.find?_cons_of_neg (by simpa using hlt)]
        · rfl
      · have hle : mutationKey user_id id ≤ e.1 := not_lt.mp hlt
        rw [List.dropWhile_cons_of_neg (by simpa using hlt), List.filter_cons]
        by_cases huser : e.1.user_id = user_id
        · rw [if_pos (by simpa using huser), List.find?_cons_of_pos (by simpa using hle)]
          exact if_pos huser
        · -- the row is one of a later user, and so are the rows after it
          have hafter : user_id < e.1.user_id := by
            rcases le_mutationKey.mp hle with hlt' | ⟨heq, -⟩
            · exact hlt'
            · exact absurd heq.symm huser
          have hnone : (l.filter fun e' => e'.1.user_id = user_id) = [] := by
            refine List.filter_eq_nil_iff.mpr fun e' he' heq => ?_
            have hle' := Prod.Lex.monotone_fst _ _ (hl.1 e'.1 (List.mem_map_of_mem he')).le
            exact absurd (hafter.trans_le hle') (not_lt.mpr (of_decide_eq_true heq).le)
          rw [if_neg (by simpa using huser), hnone]
          exact if_neg huser

/-- **The next batch is the first of the user's with a larger id.** -/
theorem nextMutationBatchAfterBatchId_eq (hq : q.Inv) (batch_id : Option ℕ) :
    q.nextMutationBatchAfterBatchId batch_id =
      q.allMutationBatches.find? fun b => batch_id.elim 0 (· + 1) ≤ b.batch_id := by
  have hrows : q.rows = q.mutations.entries.filter fun e => e.1.user_id = q.user_id :=
    SortedMap.scan_eq_filter q.mutations (isRange_user q.user_id)
  rw [nextMutationBatchAfterBatchId, SortedMap.entriesFrom,
    head_dropWhile q.mutations.sorted_entries, allMutationBatches, List.find?_map, ← hrows]
  refine congrArg (Option.map Prod.snd) (List.find?_congr fun e he => ?_)
  obtain ⟨huser, hb⟩ := mem_rows.mp he
  rw [Function.comp_apply, hq.batch_id e.1.user_id e.1.batch_id e.2 hb, decide_eq_decide,
    le_mutationKey]
  refine ⟨fun h => ?_, fun h => Or.inr ⟨huser.symm, h⟩⟩
  rcases h with hlt | ⟨-, hle⟩
  · exact absurd hlt (not_lt.mpr huser.le)
  · exact hle

/-- Without batches the index has no rows. -/
lemma performConsistencyCheck_eq (hq : q.Inv) : q.performConsistencyCheck = true := by
  rw [performConsistencyCheck, Bool.or_eq_true, Bool.not_eq_true']
  cases hempty : q.isEmpty with
  | false => exact Or.inl rfl
  | true =>
      refine Or.inr (List.isEmpty_iff.mpr (List.eq_nil_iff_forall_not_mem.mpr fun e he => ?_))
      have hrange : SortedMap.IsRange [] fun _ : ResourcePath => true :=
        ⟨fun path _ => nil_le_path path, fun _ _ _ _ _ => rfl⟩
      have hscan : e ∈ q.document_mutations.scan (documentMutationKey q.user_id [] 0)
          fun row => row.user_id = q.user_id && true := by
        simpa only [Bool.and_true] using he
      obtain ⟨hrow, huser, -⟩ := (mem_scan_index hrange e.1).mp hscan
      obtain ⟨b, hb, -⟩ := (hq.index e.1.user_id e.1.path e.1.batch_id).mp hrow
      have hmem : b ∈ q.allMutationBatches := List.mem_map.mpr
        ⟨(mutationKey e.1.user_id e.1.batch_id, b), mem_rows.mpr ⟨huser, hb⟩, rfl⟩
      rw [isEmpty_iff.mp hempty] at hmem
      exact absurd hmem List.not_mem_nil

end LevelDbMutationQueue

end Firestore
