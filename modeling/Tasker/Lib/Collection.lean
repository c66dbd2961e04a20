import Mathlib.Tactic
import Mathlib.Data.List.AList

/-!
Collections of documents addressed by a key, with the three write primitives of
a document store.

A document is a record of fields each of which may be absent, so that the same
type serves for a stored document and for the fields a write carries.

* `Document`: a kind of document, with the empty document (`default`) and the
  two ways of laying fields over a stored document: `mergeFields` merges nested
  maps, `updateFields` replaces them.
* `setData`, `mergeData`, `updateData`: the document becomes the fields given;
  the fields given are merged into the document, which is created if it is
  missing; the fields given replace the document's, which must exist.
* `lookup_setData`, `lookup_mergeData`, `lookup_updateData`: what a key holds
  after a write, the frame included.
* `AllDocs`: a property of every stored document, and the rule for each
  primitive.
* `documents`: the stored documents in order, and `countDocs`: how many have a
  property, with the two laws of a write (`countDocs_setData_of_none`,
  `countDocs_setData_of_some`).
-/

namespace DocStore

variable {K D : Type*}

/-- A collection of documents of type `D` addressed by keys of type `K`. -/
abbrev Collection (K D : Type*) := AList fun _ : K => D

/-- A kind of document whose fields may each be absent; `default` is the
document with no field. -/
class Document (D : Type*) extends Inhabited D where
  /-- The first fields over the second, nested maps merged. -/
  mergeFields : D → D → D
  /-- The first fields over the second, nested maps replaced. -/
  updateFields : D → D → D

/-- The stored documents with their keys. -/
def documents (c : Collection K D) : List (K × D) := c.entries.map fun e => (e.1, e.2)

/-- How many stored documents have the property `p`. -/
def countDocs (p : K → D → Bool) (c : Collection K D) : ℕ := c.entries.countP fun e => p e.1 e.2

@[simp] lemma countDocs_empty (p : K → D → Bool) : countDocs p (∅ : Collection K D) = 0 := rfl

variable [DecidableEq K]

/-- The document becomes exactly the fields given. -/
def setData (c : Collection K D) (k : K) (d : D) : Collection K D := c.insert k d

/-- The fields given are merged into the document, which is created if it is
missing. -/
def mergeData [Document D] (c : Collection K D) (k : K) (fields : D) : Collection K D :=
  setData c k (Document.mergeFields fields ((c.lookup k).getD default))

/-- The fields given replace those of the document; nothing happens if there is
no document. -/
def updateData [Document D] (c : Collection K D) (k : K) (fields : D) : Collection K D :=
  match c.lookup k with
  | some d => setData c k (Document.updateFields fields d)
  | none => c

/-! ### What a key holds after a write -/

lemma lookup_setData (c : Collection K D) (k k' : K) (d : D) :
    (setData c k d).lookup k' = if k' = k then some d else c.lookup k' := by
  by_cases h : k' = k
  · subst h
    rw [setData, AList.lookup_insert, if_pos rfl]
  · rw [setData, AList.lookup_insert_ne h, if_neg h]

@[simp] lemma lookup_setData_self (c : Collection K D) (k : K) (d : D) :
    (setData c k d).lookup k = some d := by
  rw [lookup_setData, if_pos rfl]

lemma lookup_setData_ne {k k' : K} (h : k' ≠ k) (c : Collection K D) (d : D) :
    (setData c k d).lookup k' = c.lookup k' := by
  rw [lookup_setData, if_neg h]

lemma lookup_mergeData [Document D] (c : Collection K D) (k k' : K) (fields : D) :
    (mergeData c k fields).lookup k' =
      if k' = k then some (Document.mergeFields fields ((c.lookup k).getD default))
      else c.lookup k' := lookup_setData c k k' _

lemma lookup_updateData [Document D] (c : Collection K D) (k k' : K) (fields : D) :
    (updateData c k fields).lookup k' =
      if k' = k then (c.lookup k).map (Document.updateFields fields) else c.lookup k' := by
  unfold updateData
  cases hk : c.lookup k with
  | none =>
      by_cases h : k' = k
      · rw [if_pos h, h, hk, Option.map_none]
      · rw [if_neg h]
  | some d => exact lookup_setData c k k' _

/-- A write never removes a document. -/
lemma lookup_ne_none_setData {c : Collection K D} {k' : K} (h : c.lookup k' ≠ none)
    (k : K) (d : D) : (setData c k d).lookup k' ≠ none := by
  rw [lookup_setData]
  split
  · exact Option.some_ne_none d
  · exact h

lemma lookup_ne_none_updateData [Document D] {c : Collection K D} {k k' : K} {fields : D} :
    (updateData c k fields).lookup k' ≠ none ↔ c.lookup k' ≠ none := by
  rw [lookup_updateData]
  split
  · next h => subst h; simp
  · rfl

/-! ### Properties of every stored document -/

/-- Every stored document has the property `P`. -/
def AllDocs (P : K → D → Prop) (c : Collection K D) : Prop :=
  ∀ k d, c.lookup k = some d → P k d

lemma allDocs_empty (P : K → D → Prop) : AllDocs P (∅ : Collection K D) := by
  intro k d h
  exact absurd h (by simp)

lemma AllDocs.setData {P : K → D → Prop} {c : Collection K D} (hc : AllDocs P c)
    {k : K} {d : D} (hd : P k d) : AllDocs P (setData c k d) := by
  intro k' d' h
  rw [lookup_setData] at h
  split at h
  · next hk => obtain rfl := Option.some.inj h; exact hk ▸ hd
  · exact hc k' d' h

lemma AllDocs.mergeData [Document D] {P : K → D → Prop} {c : Collection K D}
    (hc : AllDocs P c) {k : K} {fields : D}
    (hnew : c.lookup k = none → P k (Document.mergeFields fields default))
    (hold : ∀ d, c.lookup k = some d → P k d → P k (Document.mergeFields fields d)) :
    AllDocs P (mergeData c k fields) := by
  refine hc.setData ?_
  cases hk : c.lookup k with
  | none => exact hnew hk
  | some d => exact hold d hk (hc k d hk)

lemma AllDocs.updateData [Document D] {P : K → D → Prop} {c : Collection K D}
    (hc : AllDocs P c) {k : K} {fields : D}
    (hold : ∀ d, c.lookup k = some d → P k d → P k (Document.updateFields fields d)) :
    AllDocs P (updateData c k fields) := by
  unfold DocStore.updateData
  cases hk : c.lookup k with
  | none => exact hc
  | some d => exact hc.setData (hold d hk (hc k d hk))

/-- The documents listed are the documents stored. -/
lemma mem_documents {c : Collection K D} {k : K} {d : D} :
    (k, d) ∈ documents c ↔ c.lookup k = some d := by
  rw [← Option.mem_def, AList.mem_lookup_iff, documents, List.mem_map]
  constructor
  · rintro ⟨⟨k', d'⟩, hmem, heq⟩
    obtain ⟨rfl, rfl⟩ := Prod.mk.inj heq
    exact hmem
  · exact fun h => ⟨⟨k, d⟩, h, rfl⟩

omit [DecidableEq K] in
/-- Every key is listed once. -/
lemma nodup_documents (c : Collection K D) : ((documents c).map Prod.fst).Nodup := by
  have hkeys : (documents c).map Prod.fst = c.keys := by
    rw [documents, List.map_map]
    rfl
  rw [hkeys]
  exact c.keys_nodup

omit [DecidableEq K] in
/-- Of keys listed once, those of some of the documents are. -/
lemma nodup_filterMap {E : Type*} {g : K × D → Option (K × E)}
    (hg : ∀ d d', g d = some d' → d'.1 = d.1) {ds : List (K × D)} (h : (ds.map Prod.fst).Nodup) :
    ((ds.filterMap g).map Prod.fst).Nodup := by
  have hsub : ((ds.filterMap g).map Prod.fst).Sublist (ds.map Prod.fst) := by
    clear h
    induction ds with
    | nil => exact List.Sublist.slnil
    | cons d ds ih =>
        cases hd : g d with
        | none =>
            rw [List.filterMap_cons_none hd]
            exact ih.cons d.1
        | some d' =>
            rw [List.filterMap_cons_some hd, List.map_cons, List.map_cons, hg d d' hd]
            exact ih.cons_cons d.1
  exact h.sublist hsub

/-! ### Counting documents -/

/-- A new document adds itself to the count. -/
lemma countDocs_setData_of_none (p : K → D → Bool) {c : Collection K D} {k : K}
    (h : c.lookup k = none) (d : D) :
    countDocs p (setData c k d) = countDocs p c + if p k d then 1 else 0 := by
  rw [countDocs, setData, AList.entries_insert_of_notMem (AList.lookup_eq_none.mp h),
    List.countP_cons, countDocs]

/-- A document written again leaves the count with its old contribution and
enters it with its new one. -/
lemma countDocs_setData_of_some (p : K → D → Bool) {c : Collection K D} {k : K} {d₀ : D}
    (h : c.lookup k = some d₀) (d : D) :
    countDocs p (setData c k d) + (if p k d₀ then 1 else 0) =
      countDocs p c + if p k d then 1 else 0 := by
  have hmem : k ∈ c := by
    rw [← AList.lookup_isSome, h]
    rfl
  obtain ⟨d₁, l₁, l₂, hl₁, heq, hker⟩ := List.exists_of_kerase (AList.mem_keys.mp hmem)
  have hd₁ : d₁ = d₀ := by
    have hin : (⟨k, d₁⟩ : Sigma fun _ : K => D) ∈ c.entries := by
      rw [heq]
      simp
    have := AList.mem_lookup_iff.mpr hin
    rw [h] at this
    exact (Option.some.inj this).symm
  subst hd₁
  rw [countDocs, setData, AList.entries_insert, hker, countDocs, heq]
  simp only [List.countP_cons, List.countP_append]
  omega

end DocStore
