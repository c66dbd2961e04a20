import Mathlib.Tactic
import Mathlib.Data.List.Lemmas

/-!
Finite maps with sorted keys.

* `SortedMap`: the keys in order, and a value for each. The values are given by a
  function of the position, so that the map of a type of values may occur in the
  definition of that type.
* `entries`, `ofEntries`: a map is the list of its entries (`entries_ofEntries`,
  `ofEntries_entries`).
* `find`, `insert`, `erase`, with one equation each for what a key holds
  afterwards (`find_insert`, `find_erase`, `find_empty`).
* `mem_entries`, `mem_keys`: the entries are what the keys hold.
* `ext_find`: maps that hold the same are equal; `insert_eq_self`,
  `erase_eq_self`: writing what is there changes nothing.
* `addAll`, `eraseAll`: several keys added to a set or removed (`mem_addAll`,
  `find_eraseAll`).
* `mapWithKey`: every value changed (`find_mapWithKey`).
* `scan`: the entries from a key on as long as their keys pass; where the keys
  that pass are a range (`IsRange`) these are all that do (`scan_eq_filter`).
-/

/-- Keys in order, and a value for each. -/
structure SortedMap (K V : Type*) [LT K] where
  keys : List K
  sorted : keys.Pairwise (· < ·)
  value : Fin keys.length → V

namespace SortedMap

variable {K V : Type*}

section entries

variable [LT K]

/-- The entries in order. -/
def entries (m : SortedMap K V) : List (K × V) := List.ofFn fun i => (m.keys.get i, m.value i)

/-- The map of some entries in order. -/
def ofEntries (l : List (K × V)) (h : (l.map Prod.fst).Pairwise (· < ·)) : SortedMap K V where
  keys := l.map Prod.fst
  sorted := h
  value i := (l.get (i.cast (List.length_map Prod.fst))).2

@[simp] lemma map_fst_entries (m : SortedMap K V) : m.entries.map Prod.fst = m.keys := by
  rw [entries, List.map_ofFn]
  exact List.ofFn_get m.keys

@[simp] lemma entries_ofEntries (l : List (K × V)) (h : (l.map Prod.fst).Pairwise (· < ·)) :
    (ofEntries l h).entries = l := by
  refine List.ext_getElem (by simp [entries, ofEntries]) fun i h₁ h₂ => ?_
  simp [entries, ofEntries]

lemma entries_injective {m m' : SortedMap K V} (h : m.entries = m'.entries) : m = m' := by
  have hkeys : m.keys = m'.keys := by
    rw [← map_fst_entries, h, map_fst_entries]
  obtain ⟨keys, sorted, value⟩ := m
  obtain ⟨keys', sorted', value'⟩ := m'
  simp only at hkeys
  subst hkeys
  have hvalue : value = value' := by
    funext i
    have hi := congrFun (List.ofFn_injective h) i
    exact (Prod.mk.inj hi).2
  rw [hvalue]

lemma sorted_entries (m : SortedMap K V) : (m.entries.map Prod.fst).Pairwise (· < ·) := by
  rw [map_fst_entries]
  exact m.sorted

@[simp] lemma ofEntries_entries (m : SortedMap K V) : ofEntries m.entries m.sorted_entries = m :=
  entries_injective (entries_ofEntries _ _)

/-- The map without entries. -/
def empty : SortedMap K V := ofEntries [] List.Pairwise.nil

end entries

/-! ### Lists of entries -/

variable [LinearOrder K]

/-- The entry put in its place, or in that of the entry with its key. -/
def insertEntry (k : K) (v : V) : List (K × V) → List (K × V)
  | [] => [(k, v)]
  | e :: l =>
      if k < e.1 then (k, v) :: e :: l
      else if e.1 = k then (k, v) :: l
      else e :: insertEntry k v l

lemma lookup_cons (e : K × V) (l : List (K × V)) (k : K) :
    (e :: l).lookup k = if k = e.1 then some e.2 else l.lookup k := by
  rw [List.lookup_cons]
  by_cases h : k = e.1
  · subst h
    simp
  · have hbeq : (k == e.1) = false := by simpa using h
    rw [hbeq, if_neg h]

lemma lookup_insertEntry (k k' : K) (v : V) (l : List (K × V)) :
    (insertEntry k v l).lookup k' = if k' = k then some v else l.lookup k' := by
  induction l with
  | nil => rw [insertEntry, lookup_cons]
  | cons e l ih =>
      rw [insertEntry]
      by_cases hk : k' = k
      · rw [if_pos hk]
        split_ifs with hlt heq
        · rw [lookup_cons, if_pos hk]
        · rw [lookup_cons, if_pos hk]
        · rw [lookup_cons, ih, if_pos hk, if_neg (hk ▸ Ne.symm heq)]
      · rw [if_neg hk]
        split_ifs with hlt heq
        · rw [lookup_cons, if_neg hk]
        · rw [lookup_cons, lookup_cons, if_neg hk, if_neg (heq ▸ hk)]
        · rw [lookup_cons, lookup_cons, ih, if_neg hk]

lemma mem_insertEntry {k : K} {v : V} {l : List (K × V)} {e : K × V}
    (h : e ∈ insertEntry k v l) : e = (k, v) ∨ e ∈ l := by
  induction l with
  | nil => exact Or.inl (List.mem_singleton.mp h)
  | cons e' l ih =>
      rw [insertEntry] at h
      split_ifs at h with hlt heq
      · exact (List.mem_cons.mp h)
      · exact (List.mem_cons.mp h).imp_right (List.mem_cons_of_mem e')
      · rcases List.mem_cons.mp h with rfl | hmem
        · exact Or.inr List.mem_cons_self
        · exact (ih hmem).imp_right (List.mem_cons_of_mem e')

lemma sorted_insertEntry (k : K) (v : V) {l : List (K × V)}
    (h : (l.map Prod.fst).Pairwise (· < ·)) :
    ((insertEntry k v l).map Prod.fst).Pairwise (· < ·) := by
  induction l with
  | nil => simp [insertEntry]
  | cons e l ih =>
      rw [List.map_cons, List.pairwise_cons] at h
      obtain ⟨hhead, htail⟩ := h
      rw [insertEntry]
      split_ifs with hlt heq
      · refine List.pairwise_cons.mpr ⟨fun k' hk' => ?_, List.pairwise_cons.mpr ⟨hhead, htail⟩⟩
        rcases List.mem_cons.mp hk' with rfl | hmem
        · exact hlt
        · exact hlt.trans (hhead k' hmem)
      · exact List.pairwise_cons.mpr ⟨fun k' hk' => heq ▸ hhead k' hk', htail⟩
      · refine List.pairwise_cons.mpr ⟨fun k' hk' => ?_, ih htail⟩
        obtain ⟨e', he', rfl⟩ := List.mem_map.mp hk'
        rcases mem_insertEntry he' with rfl | hmem
        · exact lt_of_le_of_ne (not_lt.mp hlt) heq
        · exact hhead e'.1 (List.mem_map_of_mem hmem)

lemma lookup_filter_ne (k k' : K) (l : List (K × V)) :
    (l.filter fun e => e.1 ≠ k).lookup k' = if k' = k then none else l.lookup k' := by
  induction l with
  | nil => simp
  | cons e l ih =>
      rw [List.filter_cons, lookup_cons]
      by_cases he : e.1 = k
      · rw [if_neg (by simpa using he), ih, he]
        by_cases h : k' = k <;> simp [h]
      · rw [if_pos (by simpa using he), lookup_cons, ih]
        by_cases h : k' = k
        · rw [h, if_neg (Ne.symm he), if_pos rfl, if_pos rfl]
        · rw [if_neg h, if_neg h]

lemma lookup_eq_none_of_lt {k : K} {l : List (K × V)} (h : ∀ k' ∈ l.map Prod.fst, k < k') :
    l.lookup k = none := by
  induction l with
  | nil => rfl
  | cons e l ih =>
      have hne : k ≠ e.1 := (h e.1 (by simp)).ne
      rw [lookup_cons, if_neg hne, ih fun k' hk' => h k' (List.mem_cons_of_mem _ hk')]

/-- Entries in order are determined by what the keys hold. -/
lemma eq_of_lookup_eq {l l' : List (K × V)} (hl : (l.map Prod.fst).Pairwise (· < ·))
    (hl' : (l'.map Prod.fst).Pairwise (· < ·)) (h : ∀ k, l.lookup k = l'.lookup k) : l = l' := by
  induction l generalizing l' with
  | nil =>
      cases l' with
      | nil => rfl
      | cons e' l' => simpa [lookup_cons] using h e'.1
  | cons e l ih =>
      cases l' with
      | nil => simpa [lookup_cons] using h e.1
      | cons e' l' =>
          rw [List.map_cons, List.pairwise_cons] at hl hl'
          -- the first keys agree: the smaller one would be missing on the other side
          have hkey : e.1 = e'.1 := by
            rcases lt_trichotomy e.1 e'.1 with hlt | heq | hgt
            · have hnone : ((e' :: l').lookup e.1) = none := by
                refine lookup_eq_none_of_lt fun k' hk' => ?_
                rcases List.mem_cons.mp hk' with rfl | hmem
                · exact hlt
                · exact hlt.trans (hl'.1 k' hmem)
              rw [← h e.1] at hnone
              simp [lookup_cons] at hnone
            · exact heq
            · have hnone : ((e :: l).lookup e'.1) = none := by
                refine lookup_eq_none_of_lt fun k' hk' => ?_
                rcases List.mem_cons.mp hk' with rfl | hmem
                · exact hgt
                · exact hgt.trans (hl.1 k' hmem)
              rw [h e'.1] at hnone
              simp [lookup_cons] at hnone
          have hvalue : e.2 = e'.2 := by
            have hhead := h e.1
            rw [lookup_cons, lookup_cons, if_pos rfl, if_pos hkey] at hhead
            exact Option.some.inj hhead
          have htail : ∀ k, l.lookup k = l'.lookup k := by
            intro k
            by_cases hk : k = e.1
            · subst hk
              rw [lookup_eq_none_of_lt hl.1, hkey, lookup_eq_none_of_lt hl'.1]
            · have hboth := h k
              rwa [lookup_cons, lookup_cons, if_neg hk, if_neg (hkey ▸ hk)] at hboth
          rw [ih hl.2 hl'.2 htail, Prod.ext hkey hvalue]

/-! ### Maps -/

/-- What a key holds. -/
def find (m : SortedMap K V) (k : K) : Option V := m.entries.lookup k

/-- The key holds the value. -/
def insert (m : SortedMap K V) (k : K) (v : V) : SortedMap K V :=
  ofEntries (insertEntry k v m.entries) (sorted_insertEntry k v m.sorted_entries)

/-- The key holds nothing. -/
def erase (m : SortedMap K V) (k : K) : SortedMap K V :=
  ofEntries (m.entries.filter fun e => e.1 ≠ k)
    (m.sorted_entries.sublist (List.filter_sublist.map Prod.fst))

@[simp] lemma find_empty (k : K) : (empty : SortedMap K V).find k = none := by
  rw [find, empty, entries_ofEntries, List.lookup_nil]

lemma find_insert (m : SortedMap K V) (k k' : K) (v : V) :
    (m.insert k v).find k' = if k' = k then some v else m.find k' := by
  rw [find, insert, entries_ofEntries, lookup_insertEntry, find]

@[simp] lemma find_insert_self (m : SortedMap K V) (k : K) (v : V) :
    (m.insert k v).find k = some v := by
  rw [find_insert, if_pos rfl]

lemma find_insert_of_ne {k k' : K} (h : k' ≠ k) (m : SortedMap K V) (v : V) :
    (m.insert k v).find k' = m.find k' := by
  rw [find_insert, if_neg h]

lemma find_erase (m : SortedMap K V) (k k' : K) :
    (m.erase k).find k' = if k' = k then none else m.find k' := by
  rw [find, erase, entries_ofEntries, lookup_filter_ne, find]

/-- Maps that hold the same are equal. -/
theorem ext_find {m m' : SortedMap K V} (h : ∀ k, m.find k = m'.find k) : m = m' :=
  entries_injective (eq_of_lookup_eq m.sorted_entries m'.sorted_entries h)

/-- The entries are what the keys hold. -/
lemma mem_entries {m : SortedMap K V} {k : K} {v : V} : (k, v) ∈ m.entries ↔ m.find k = some v := by
  rw [find]
  have hsorted := m.sorted_entries
  revert hsorted
  generalize m.entries = l
  intro hsorted
  induction l with
  | nil => simp
  | cons e l ih =>
      rw [List.map_cons, List.pairwise_cons] at hsorted
      rw [lookup_cons]
      refine List.mem_cons.trans ((or_congr_right (ih hsorted.2)).trans ?_)
      split_ifs with hk
      · subst hk
        rw [lookup_eq_none_of_lt hsorted.1, Option.some_inj]
        exact ⟨fun h => h.elim (fun h => (congrArg Prod.snd h).symm) (fun h => absurd h (by simp)),
          fun h => Or.inl (by rw [← h])⟩
      · exact or_iff_right fun h => hk (congrArg Prod.fst h)

lemma mem_keys {m : SortedMap K V} {k : K} : k ∈ m.keys ↔ m.find k ≠ none := by
  rw [← map_fst_entries, List.mem_map, Option.ne_none_iff_exists']
  constructor
  · rintro ⟨⟨k', v⟩, he, rfl⟩
    exact ⟨v, mem_entries.mp he⟩
  · rintro ⟨v, hv⟩
    exact ⟨(k, v), mem_entries.mpr hv, rfl⟩

lemma insert_eq_self {m : SortedMap K V} {k : K} {v : V} (h : m.find k = some v) :
    m.insert k v = m := by
  refine ext_find fun k' => ?_
  rw [find_insert]
  split_ifs with hk
  · rw [hk, h]
  · rfl

lemma erase_eq_self {m : SortedMap K V} {k : K} (h : m.find k = none) : m.erase k = m := by
  refine ext_find fun k' => ?_
  rw [find_erase]
  split_ifs with hk
  · rw [hk, h]
  · rfl

/-! ### Several keys -/

/-- Some keys added to a set. -/
def addAll (ks : List K) (m : SortedMap K Unit) : SortedMap K Unit :=
  ks.foldl (fun m k => m.insert k ()) m

/-- Some keys removed. -/
def eraseAll (ks : List K) (m : SortedMap K V) : SortedMap K V := ks.foldl erase m

lemma find_addAll (ks : List K) (m : SortedMap K Unit) (k : K) :
    (addAll ks m).find k ≠ none ↔ m.find k ≠ none ∨ k ∈ ks := by
  induction ks generalizing m with
  | nil => simp [addAll]
  | cons k' ks ih =>
      rw [addAll, List.foldl_cons, ← addAll, ih, find_insert, List.mem_cons, ← or_assoc]
      refine or_congr_left ?_
      split_ifs with hk <;> simp [hk]

lemma mem_addAll {ks : List K} {m : SortedMap K Unit} {k : K} :
    k ∈ (addAll ks m).keys ↔ k ∈ m.keys ∨ k ∈ ks := by
  rw [mem_keys, mem_keys, find_addAll]

lemma mem_addAll_empty {ks : List K} {k : K} : k ∈ (addAll ks .empty).keys ↔ k ∈ ks := by
  rw [mem_addAll, mem_keys]
  exact or_iff_right fun h => h (find_empty k)

lemma find_eraseAll (ks : List K) (m : SortedMap K V) (k : K) :
    (eraseAll ks m).find k = if k ∈ ks then none else m.find k := by
  induction ks generalizing m with
  | nil => simp [eraseAll]
  | cons k' ks ih =>
      rw [eraseAll, List.foldl_cons, ← eraseAll, ih, find_erase]
      by_cases hk : k ∈ ks
      · rw [if_pos hk, if_pos (List.mem_cons_of_mem k' hk)]
      · by_cases hk' : k = k'
        · rw [if_neg hk, if_pos hk', if_pos (hk' ▸ List.mem_cons_self)]
        · rw [if_neg hk, if_neg hk', if_neg (by simp [hk, hk'])]

/-! ### Values changed -/

/-- Every value replaced by what a function makes of it and its key. -/
def mapWithKey {W : Type*} (f : K → V → W) (m : SortedMap K V) : SortedMap K W where
  keys := m.keys
  sorted := m.sorted
  value i := f (m.keys.get i) (m.value i)

lemma entries_mapWithKey {W : Type*} (f : K → V → W) (m : SortedMap K V) :
    (m.mapWithKey f).entries = m.entries.map fun e => (e.1, f e.1 e.2) := by
  rw [entries, entries, List.map_ofFn]
  rfl

lemma find_mapWithKey {W : Type*} (f : K → V → W) (m : SortedMap K V) (k : K) :
    (m.mapWithKey f).find k = (m.find k).map (f k) := by
  rw [find, entries_mapWithKey, find]
  generalize m.entries = l
  induction l with
  | nil => rfl
  | cons e l ih =>
      rw [List.map_cons, lookup_cons, lookup_cons, ih]
      split_ifs with hk
      · rw [Option.map_some, hk]
      · rfl

/-! ### Scans -/

/-- The entries from a key on. -/
def entriesFrom (m : SortedMap K V) (start : K) : List (K × V) :=
  m.entries.dropWhile fun e => e.1 < start

/-- The entries from a key on as long as their keys pass. -/
def scan (m : SortedMap K V) (start : K) (p : K → Bool) : List (K × V) :=
  (m.entriesFrom start).takeWhile fun e => p e.1

/-- Keys that pass are from the start on, and there are none in between that do
not. -/
structure IsRange (start : K) (p : K → Bool) : Prop where
  le : ∀ k, p k = true → start ≤ k
  convex : ∀ k k', start ≤ k → k ≤ k' → p k' = true → p k = true

lemma takeWhile_eq_filter {l : List (K × V)} (hl : (l.map Prod.fst).Pairwise (· < ·)) {start : K}
    {p : K → Bool} (hp : IsRange start p) (hstart : ∀ e ∈ l, start ≤ e.1) :
    (l.takeWhile fun e => p e.1) = l.filter fun e => p e.1 := by
  induction l with
  | nil => rfl
  | cons e l ih =>
      rw [List.map_cons, List.pairwise_cons] at hl
      cases he : p e.1 with
      | true =>
          rw [List.takeWhile_cons_of_pos (by simpa using he),
            List.filter_cons_of_pos (by simpa using he),
            ih hl.2 fun e' he' => hstart e' (List.mem_cons_of_mem e he')]
      | false =>
          rw [List.takeWhile_cons_of_neg (by simpa using he), Eq.comm,
            List.filter_cons_of_neg (by simpa using he), List.filter_eq_nil_iff]
          intro e' he' hp'
          have hlt := hl.1 e'.1 (List.mem_map_of_mem he')
          rw [hp.convex e.1 e'.1 (hstart e List.mem_cons_self) hlt.le hp'] at he
          exact absurd he (by simp)

/-- **A scan of a range finds the entries whose keys pass.** -/
theorem scan_eq_filter (m : SortedMap K V) {start : K} {p : K → Bool} (hp : IsRange start p) :
    m.scan start p = m.entries.filter fun e => p e.1 := by
  have hsplit :=
    List.takeWhile_append_dropWhile (p := fun e => decide (e.1 < start)) (l := m.entries)
  have hsorted := m.sorted_entries
  rw [scan, entriesFrom]
  have hdrop : ∀ e ∈ m.entries.dropWhile fun e => decide (e.1 < start), start ≤ e.1 := by
    revert hsorted
    generalize m.entries = l
    intro hsorted
    induction l with
    | nil => simp
    | cons e l ih =>
        rw [List.map_cons, List.pairwise_cons] at hsorted
        rw [List.dropWhile_cons]
        split_ifs with he
        · exact ih hsorted.2
        · intro e' he'
          have hle : start ≤ e.1 := not_lt.mp (by simpa using he)
          rcases List.mem_cons.mp he' with rfl | hmem
          · exact hle
          · exact hle.trans (hsorted.1 e'.1 (List.mem_map_of_mem hmem)).le
  have hskip :
      ((m.entries.takeWhile fun e => decide (e.1 < start)).filter fun e => p e.1) = [] := by
    refine List.filter_eq_nil_iff.mpr fun e he hpe => ?_
    have hlt : e.1 < start := by simpa using List.all_eq_true.mp List.all_takeWhile e he
    exact absurd (hp.le e.1 hpe) (not_le.mpr hlt)
  have hsub : ((m.entries.dropWhile fun e => decide (e.1 < start)).map Prod.fst).Pairwise
      (· < ·) := hsorted.sublist ((List.dropWhile_sublist _).map Prod.fst)
  rw [takeWhile_eq_filter hsub hp hdrop]
  conv_rhs => rw [← hsplit, List.filter_append, hskip, List.nil_append]

end SortedMap
