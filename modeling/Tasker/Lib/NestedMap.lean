import Tasker.Lib.SortedMap

/-!
Maps of maps, read and written by paths of keys.

* `Nested`: values some of which are maps from keys to values.
* `get`, `set`, `delete`: what a path holds, a value put at a path, with maps on
  the way where there are none, and a path removed.
* `get_set_self`, `get_delete_self`: what is written is read, and nothing is where a
  path was removed; `get_set_of_apart`, `get_delete_of_apart`: paths that do not
  extend one another do not interfere.
* `set_eq_self`, `delete_eq_self`: writing what is there changes nothing.
* `setAll`: several values put at their paths.
* `writeAt`, `patch`: the paths of a mask made to hold what some data hold there,
  one after the other. `get_patch_append`: afterwards every path of the mask
  holds what the data hold, whatever else is in the mask; `get_patch_of_apart`:
  the paths apart from the mask hold what they held.
-/

/-- Values some of which are maps from keys to values. -/
class Nested (K : outParam (Type*)) (V : Type*) [LT K] where
  /-- The entries of a value that is a map. -/
  fields : V → Option (SortedMap K V)
  node : SortedMap K V → V
  fields_node : ∀ m, fields (node m) = some m
  node_of_fields : ∀ {v m}, fields v = some m → node m = v

namespace Nested

attribute [simp] fields_node

/-! ### Paths -/

section apart

variable {K : Type*}

/-- Paths neither of which extends the other. -/
def Apart (p q : List K) : Prop := ¬ p <+: q ∧ ¬ q <+: p

lemma Apart.symm {p q : List K} (h : Apart p q) : Apart q p := ⟨h.2, h.1⟩

lemma Apart.tail {k : K} {p q : List K} (h : Apart (k :: p) (k :: q)) : Apart p q :=
  ⟨fun hpq => h.1 (List.cons_prefix_cons.mpr ⟨rfl, hpq⟩),
    fun hqp => h.2 (List.cons_prefix_cons.mpr ⟨rfl, hqp⟩)⟩

lemma Apart.append_left {p q : List K} (h : Apart p q) (r : List K) : Apart (r ++ p) (r ++ q) :=
  ⟨fun hpq => h.1 ((List.prefix_append_right_inj r).mp hpq),
    fun hqp => h.2 ((List.prefix_append_right_inj r).mp hqp)⟩

lemma apart_cons_of_ne {k k' : K} (h : k ≠ k') (p q : List K) : Apart (k :: p) (k' :: q) :=
  ⟨fun hpq => h (List.cons_prefix_cons.mp hpq).1,
    fun hqp => h (List.cons_prefix_cons.mp hqp).1.symm⟩

/-- What is apart from a path is apart from what extends it. -/
lemma Apart.append {p q : List K} (h : Apart p q) (r : List K) : Apart p (q ++ r) := by
  refine ⟨fun hp => ?_, fun hq => h.2 ((List.prefix_append q r).trans hq)⟩
  rcases List.prefix_or_prefix_of_prefix hp (List.prefix_append q r) with hpq | hqp
  · exact h.1 hpq
  · exact h.2 hqp

end apart

variable {K V : Type*} [LinearOrder K] [Nested K V]

/-! ### Reading -/

/-- What a path holds in a value. -/
def read : List K → V → Option V
  | [], v => some v
  | k :: p, v => ((fields v).bind fun m => m.find k).bind (read p)

/-- What a path holds in a map. -/
def get (p : List K) (m : SortedMap K V) : Option V := read p (node m)

/-- The map a key holds, without entries if it holds none. -/
def child (m : SortedMap K V) (k : K) : SortedMap K V :=
  ((m.find k).bind fields).getD .empty

lemma get_cons (k : K) (p : List K) (m : SortedMap K V) :
    get (k :: p) m = (m.find k).bind (read p) := by
  rw [get, read, fields_node, Option.bind_some]

lemma read_append (p q : List K) (v : V) : read (p ++ q) v = (read p v).bind (read q) := by
  induction p generalizing v with
  | nil => rfl
  | cons k p ih =>
      rw [List.cons_append, read, read]
      cases (fields v).bind fun m => m.find k with
      | none => rfl
      | some w => exact ih w

/-- What a path holds below another. -/
lemma get_append (p q : List K) (m : SortedMap K V) :
    get (p ++ q) m = (get p m).bind (read q) := read_append p q (node m)

lemma get_cons_cons (k k' : K) (p : List K) (m : SortedMap K V) :
    get (k :: k' :: p) m = get (k' :: p) (child m k) := by
  rw [get_cons, get_cons, child]
  cases m.find k with
  | none => simp
  | some v =>
      rw [Option.bind_some, Option.bind_some, read]
      cases fields v with
      | none => simp
      | some c => rfl

/-! ### Writing -/

/-- The value put at the path, with maps on the way; nothing for the empty
path. -/
def set : List K → V → SortedMap K V → SortedMap K V
  | [], _, m => m
  | [k], x, m => m.insert k x
  | k :: k' :: p, x, m => m.insert k (node (set (k' :: p) x (child m k)))

/-- The path removed, if there are maps on the way. -/
def delete : List K → SortedMap K V → SortedMap K V
  | [], m => m
  | [k], m => m.erase k
  | k :: k' :: p, m =>
      match (m.find k).bind fields with
      | some c => m.insert k (node (delete (k' :: p) c))
      | none => m

lemma delete_of_child {m c : SortedMap K V} {k k' : K} {p : List K}
    (h : (m.find k).bind fields = some c) :
    delete (k :: k' :: p) m = m.insert k (node (delete (k' :: p) c)) := by
  rw [delete, h]

lemma delete_of_no_child {m : SortedMap K V} {k k' : K} {p : List K}
    (h : (m.find k).bind fields = none) : delete (k :: k' :: p) m = m := by
  rw [delete, h]

lemma child_of_bind {m c : SortedMap K V} {k : K} (h : (m.find k).bind fields = some c) :
    child m k = c := by
  rw [child, h, Option.getD_some]

/-- A map that a key holds, put there again. -/
lemma insert_child {m c : SortedMap K V} {k : K} (h : (m.find k).bind fields = some c) :
    m.insert k (node c) = m := by
  obtain ⟨v, hv, hc⟩ := Option.bind_eq_some_iff.mp h
  rw [node_of_fields hc]
  exact SortedMap.insert_eq_self hv

/-- **What is written is read.** -/
theorem get_set_self {p : List K} (hp : p ≠ []) (x : V) (m : SortedMap K V) :
    get p (set p x m) = some x := by
  induction p generalizing m with
  | nil => exact absurd rfl hp
  | cons k p ih =>
      cases p with
      | nil => rw [set, get_cons, SortedMap.find_insert_self, Option.bind_some, read]
      | cons k' p =>
          rw [set, get_cons, SortedMap.find_insert_self, Option.bind_some]
          exact ih (by simp) (child m k)

theorem get_delete_self {p : List K} (hp : p ≠ []) (m : SortedMap K V) :
    get p (delete p m) = none := by
  induction p generalizing m with
  | nil => exact absurd rfl hp
  | cons k p ih =>
      cases p with
      | nil => rw [delete, get_cons, SortedMap.find_erase, if_pos rfl, Option.bind_none]
      | cons k' p =>
          cases hc : (m.find k).bind fields with
          | none =>
              rw [delete_of_no_child hc, get_cons_cons, child, hc, Option.getD_none, get_cons,
                SortedMap.find_empty, Option.bind_none]
          | some c =>
              rw [delete_of_child hc, get_cons, SortedMap.find_insert_self, Option.bind_some]
              exact ih (by simp) c

/-- **Paths that do not extend one another do not interfere.** -/
theorem get_set_of_apart {p q : List K} (h : Apart p q) (x : V) (m : SortedMap K V) :
    get q (set p x m) = get q m := by
  induction p generalizing q m with
  | nil => exact absurd List.nil_prefix h.1
  | cons k p ih =>
      cases q with
      | nil => exact absurd List.nil_prefix h.2
      | cons l q =>
          by_cases hkl : l = k
          · subst hkl
            cases p with
            | nil => exact absurd (List.cons_prefix_cons.mpr ⟨rfl, List.nil_prefix⟩) h.1
            | cons k' p =>
                cases q with
                | nil => exact absurd (List.cons_prefix_cons.mpr ⟨rfl, List.nil_prefix⟩) h.2
                | cons l' q =>
                    rw [set, get_cons, SortedMap.find_insert_self, Option.bind_some,
                      get_cons_cons]
                    exact ih h.tail (child m l)
          · cases p with
            | nil => rw [set, get_cons, SortedMap.find_insert_of_ne hkl, get_cons]
            | cons k' p => rw [set, get_cons, SortedMap.find_insert_of_ne hkl, get_cons]

theorem get_delete_of_apart {p q : List K} (h : Apart p q) (m : SortedMap K V) :
    get q (delete p m) = get q m := by
  induction p generalizing q m with
  | nil => exact absurd List.nil_prefix h.1
  | cons k p ih =>
      cases q with
      | nil => exact absurd List.nil_prefix h.2
      | cons l q =>
          cases p with
          | nil =>
              have hkl : l ≠ k := by
                rintro rfl
                exact h.1 (List.cons_prefix_cons.mpr ⟨rfl, List.nil_prefix⟩)
              rw [delete, get_cons, SortedMap.find_erase, if_neg hkl, get_cons]
          | cons k' p =>
              cases hc : (m.find k).bind fields with
              | none => rw [delete_of_no_child hc]
              | some c =>
                  rw [delete_of_child hc]
                  by_cases hkl : l = k
                  · subst hkl
                    cases q with
                    | nil => exact absurd (List.cons_prefix_cons.mpr ⟨rfl, List.nil_prefix⟩) h.2
                    | cons l' q =>
                        rw [get_cons, SortedMap.find_insert_self, Option.bind_some,
                          get_cons_cons, child_of_bind hc]
                        exact ih h.tail c
                  · rw [get_cons, SortedMap.find_insert_of_ne hkl, get_cons]

/-- Writing what is there changes nothing. -/
theorem set_eq_self {p : List K} {x : V} {m : SortedMap K V} (h : get p m = some x) :
    set p x m = m := by
  induction p generalizing m with
  | nil => rfl
  | cons k p ih =>
      cases p with
      | nil =>
          rw [get_cons] at h
          obtain ⟨v, hv, hx⟩ := Option.bind_eq_some_iff.mp h
          obtain rfl := Option.some.inj hx
          exact SortedMap.insert_eq_self hv
      | cons k' p =>
          rw [get_cons_cons] at h
          rw [set, ih h]
          cases hc : (m.find k).bind fields with
          | none =>
              rw [child, hc, Option.getD_none, get_cons, SortedMap.find_empty] at h
              exact absurd h (by simp)
          | some c =>
              rw [child_of_bind hc]
              exact insert_child hc

/-- Removing what is not there changes nothing. -/
theorem delete_eq_self {p : List K} {m : SortedMap K V} (h : get p m = none) :
    delete p m = m := by
  induction p generalizing m with
  | nil => rfl
  | cons k p ih =>
      cases p with
      | nil =>
          rw [get_cons, Option.bind_eq_none_iff] at h
          refine SortedMap.erase_eq_self (Option.eq_none_iff_forall_ne_some.mpr fun v hv => ?_)
          exact absurd (h v hv) (by simp [read])
      | cons k' p =>
          cases hc : (m.find k).bind fields with
          | none => exact delete_of_no_child hc
          | some c =>
              rw [get_cons_cons, child_of_bind hc] at h
              rw [delete_of_child hc, ih h]
              exact insert_child hc

/-! ### Several values -/

/-- Values put at their paths, in order. -/
def setAll (l : List (List K × V)) (m : SortedMap K V) : SortedMap K V :=
  l.foldl (fun m e => set e.1 e.2 m) m

lemma setAll_cons (e : List K × V) (l : List (List K × V)) (m : SortedMap K V) :
    setAll (e :: l) m = setAll l (set e.1 e.2 m) := rfl

/-- The paths apart from those written hold what they held. -/
lemma get_setAll_of_apart {l : List (List K × V)} {q : List K} (h : ∀ e ∈ l, Apart e.1 q)
    (m : SortedMap K V) : get q (setAll l m) = get q m := by
  induction l generalizing m with
  | nil => rfl
  | cons e l ih =>
      rw [setAll_cons, ih (fun e' he' => h e' (List.mem_cons_of_mem e he')),
        get_set_of_apart (h e List.mem_cons_self)]

/-- Of paths apart from one another, each holds what was written there. -/
lemma get_setAll_of_mem {l : List (List K × V)} (hl : l.Pairwise fun e e' => Apart e.1 e'.1)
    {e : List K × V} (he : e ∈ l) (hne : e.1 ≠ []) (m : SortedMap K V) :
    get e.1 (setAll l m) = some e.2 := by
  induction l generalizing m with
  | nil => exact absurd he List.not_mem_nil
  | cons e' l ih =>
      rw [List.pairwise_cons] at hl
      rw [setAll_cons]
      rcases List.mem_cons.mp he with rfl | hmem
      · rw [get_setAll_of_apart fun e' he' => (hl.1 e' he').symm, get_set_self hne]
      · exact ih hl.2 hmem _

/-! ### Patches -/

/-- The path made to hold what the data hold there. -/
def writeAt (data m : SortedMap K V) (p : List K) : SortedMap K V :=
  match get p data with
  | some x => set p x m
  | none => delete p m

/-- The paths of a mask made to hold what the data hold there, in order. -/
def patch (data : SortedMap K V) (mask : List (List K)) (m : SortedMap K V) : SortedMap K V :=
  mask.foldl (writeAt data) m

variable {data m : SortedMap K V} {mask : List (List K)} {p q : List K}

lemma writeAt_of_some {x : V} (h : get p data = some x) : writeAt data m p = set p x m := by
  rw [writeAt, h]

lemma writeAt_of_none (h : get p data = none) : writeAt data m p = delete p m := by
  rw [writeAt, h]

lemma get_writeAt_self (hp : p ≠ []) : get p (writeAt data m p) = get p data := by
  cases h : get p data with
  | none => rw [writeAt_of_none h, get_delete_self hp]
  | some x => rw [writeAt_of_some h, get_set_self hp]

lemma get_writeAt_of_apart (h : Apart p q) : get q (writeAt data m p) = get q m := by
  cases hp : get p data with
  | none => rw [writeAt_of_none hp, get_delete_of_apart h]
  | some x => rw [writeAt_of_some hp, get_set_of_apart h]

/-- Where the data are held already nothing changes. -/
lemma writeAt_eq_self (h : get p m = get p data) : writeAt data m p = m := by
  cases hp : get p data with
  | none => rw [writeAt_of_none hp, delete_eq_self (h.trans hp)]
  | some x => rw [writeAt_of_some hp, set_eq_self (h.trans hp)]

/-- A path that holds the data holds them after any other path is written. -/
lemma get_writeAt (hq : q ≠ []) (h : get p m = get p data) :
    get p (writeAt data m q) = get p data := by
  by_cases hqp : q <+: p
  · obtain ⟨r, rfl⟩ := hqp
    rw [get_append, get_writeAt_self hq, ← get_append]
  · by_cases hpq : p <+: q
    · -- the data are there already, and so is what is written below
      obtain ⟨r, rfl⟩ := hpq
      rw [writeAt_eq_self, h]
      rw [get_append, h, ← get_append]
    · rw [get_writeAt_of_apart ⟨hqp, hpq⟩, h]

lemma patch_cons (data m : SortedMap K V) (p : List K) (mask : List (List K)) :
    patch data (p :: mask) m = patch data mask (writeAt data m p) := rfl

/-- A path that holds the data holds them after a patch. -/
lemma get_patch_of_get (hmask : ∀ q ∈ mask, q ≠ []) (h : get p m = get p data) :
    get p (patch data mask m) = get p data := by
  induction mask generalizing m with
  | nil => exact h
  | cons q mask ih =>
      rw [patch_cons]
      exact ih (fun q' hq' => hmask q' (List.mem_cons_of_mem q hq'))
        (get_writeAt (hmask q List.mem_cons_self) h)

/-- **Every path of the mask holds the data**, whatever else is in the mask. -/
theorem get_patch_of_mem (hmask : ∀ q ∈ mask, q ≠ []) (hp : p ∈ mask) :
    get p (patch data mask m) = get p data := by
  induction mask generalizing m with
  | nil => exact absurd hp List.not_mem_nil
  | cons q mask ih =>
      have htail : ∀ q' ∈ mask, q' ≠ [] := fun q' hq' => hmask q' (List.mem_cons_of_mem q hq')
      rw [patch_cons]
      rcases List.mem_cons.mp hp with rfl | hmem
      · exact get_patch_of_get htail (get_writeAt_self (hmask p List.mem_cons_self))
      · exact ih htail hmem

/-- And so does every path below one of the mask. -/
lemma get_patch_append (hmask : ∀ q ∈ mask, q ≠ []) (hp : p ∈ mask) (r : List K) :
    get (p ++ r) (patch data mask m) = get (p ++ r) data := by
  rw [get_append, get_patch_of_mem hmask hp, ← get_append]

/-- **The paths apart from the mask hold what they held.** -/
theorem get_patch_of_apart (h : ∀ p ∈ mask, Apart p q) : get q (patch data mask m) = get q m := by
  induction mask generalizing m with
  | nil => rfl
  | cons p mask ih =>
      rw [patch_cons, ih fun p' hp' => h p' (List.mem_cons_of_mem p hp'),
        get_writeAt_of_apart (h p List.mem_cons_self)]

end Nested
