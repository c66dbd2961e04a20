import Tasker.Lib.ArrayUnion

/-!
Adding and removing elements of an array up to an equality of their own.

* `eq`: the equality, given by a key that equal elements share.
* `union`, `unionAll`: an element appended unless an equal one is there.
  `unionAll_unionAll`: a second time adds nothing; `map_arrayUnion`: where equal
  elements are the same it is the union of `ArrayUnion`.
* `remove`, `removeAll`: the first equal element removed.
  `countP_removeAll`: each occurrence among the elements removes one from the
  array; `removeAll_removeAll_iff`: a second time removes nothing if and only if
  no element occurs in the array more often than among those to remove.
-/

namespace ArrayTransform

variable {α κ : Type*} (eq : α → α → Bool)

/-- The element appended unless an equal one is there. -/
def union (array : List α) (a : α) : List α :=
  if array.any fun v => eq v a then array else array ++ [a]

def unionAll (elements array : List α) : List α := elements.foldl (union eq) array

/-- The first equal element removed. -/
def remove (array : List α) (a : α) : List α := array.eraseP fun v => eq v a

def removeAll (elements array : List α) : List α := elements.foldl (remove eq) array

variable {eq} {key : α → κ} (heq : ∀ a b, eq a b = true ↔ key a = key b)

/-! ### Union -/

lemma unionAll_cons (a : α) (elements array : List α) :
    unionAll eq (a :: elements) array = unionAll eq elements (union eq array a) := rfl

lemma any_union_of_any {array : List α} {p : α → Bool} (h : array.any p = true) (a : α) :
    (union eq array a).any p = true := by
  rw [union]
  split_ifs
  · exact h
  · rw [List.any_append, h, Bool.true_or]

lemma any_unionAll_of_any {elements array : List α} {p : α → Bool} (h : array.any p = true) :
    (unionAll eq elements array).any p = true := by
  induction elements generalizing array with
  | nil => exact h
  | cons a elements ih => exact ih (any_union_of_any h a)

include heq in
lemma any_union_self (array : List α) (a : α) :
    ((union eq array a).any fun v => eq v a) = true := by
  rw [union]
  split_ifs with h
  · exact h
  · rw [List.any_append, List.any_cons, (heq a a).mpr rfl, Bool.true_or, Bool.or_true]

include heq in
/-- Every element is there afterwards. -/
lemma any_unionAll {elements : List α} {a : α} (ha : a ∈ elements) (array : List α) :
    ((unionAll eq elements array).any fun v => eq v a) = true := by
  induction elements generalizing array with
  | nil => exact absurd ha List.not_mem_nil
  | cons b elements ih =>
      rw [unionAll_cons]
      rcases List.mem_cons.mp ha with rfl | hmem
      · exact any_unionAll_of_any (any_union_self heq array a)
      · exact ih hmem _

/-- Elements that are all there add nothing. -/
lemma unionAll_eq_self {elements array : List α}
    (h : ∀ a ∈ elements, (array.any fun v => eq v a) = true) :
    unionAll eq elements array = array := by
  induction elements with
  | nil => rfl
  | cons a elements ih =>
      rw [unionAll_cons, union, if_pos (h a List.mem_cons_self)]
      exact ih fun b hb => h b (List.mem_cons_of_mem a hb)

include heq in
/-- **A union a second time adds nothing.** -/
theorem unionAll_unionAll (elements array : List α) :
    unionAll eq elements (unionAll eq elements array) = unionAll eq elements array :=
  unionAll_eq_self fun _ ha => any_unionAll heq ha array

/-- Where equal elements are the same this is the union of arrays. -/
lemma map_arrayUnion {β : Type*} [DecidableEq β] {f : β → α}
    (hf : ∀ a b, eq (f a) (f b) = true ↔ a = b) (elements array : List β) :
    unionAll eq (elements.map f) (array.map f) =
      (ArrayUnion.arrayUnion elements array).map f := by
  induction elements generalizing array with
  | nil => rfl
  | cons a elements ih =>
      have hany : ((array.map f).any fun v => eq v (f a)) = true ↔ a ∈ array := by
        simp only [List.any_map, List.any_eq_true, Function.comp_apply, hf]
        exact ⟨fun ⟨b, hb, hba⟩ => hba ▸ hb, fun h => ⟨a, h, rfl⟩⟩
      rw [List.map_cons, unionAll_cons, ArrayUnion.arrayUnion_cons, union]
      by_cases ha : a ∈ array
      · rw [if_pos (hany.mpr ha), if_pos ha, ih]
      · rw [if_neg (mt hany.mp ha), if_neg ha, ← ih, List.map_append]
        rfl

/-! ### Removal -/

lemma removeAll_cons (a : α) (elements array : List α) :
    removeAll eq (a :: elements) array = removeAll eq elements (remove eq array a) := rfl

include heq in
lemma eq_congr_right {a b : α} (h : eq a b = true) (v : α) : eq v a = eq v b := by
  rw [Bool.eq_iff_iff, heq, heq, (heq a b).mp h]

include heq in
lemma not_eq_of_not_eq {a b v : α} (h : ¬ eq a b = true) (hv : eq v a = true) :
    ¬ eq v b = true := by
  rw [heq] at h hv ⊢
  exact fun hb => h (hv.symm.trans hb)

include heq in
/-- One occurrence is removed, if there is one. -/
lemma countP_remove (array : List α) (a e : α) :
    (remove eq array a).countP (fun v => eq v e) =
      array.countP (fun v => eq v e) - if eq a e = true then 1 else 0 := by
  induction array with
  | nil => simp [remove]
  | cons v array ih =>
      rw [remove, List.eraseP_cons, List.countP_cons]
      by_cases hva : eq v a = true
      · rw [hva, cond_true]
        by_cases hae : eq a e = true
        · have hve : eq v e = true := (eq_congr_right heq hae v).symm.trans hva
          simp [hae, hve]
        · have hve : ¬ eq v e = true := not_eq_of_not_eq heq hae hva
          simp [hae, hve]
      · have hva' : eq v a = false := by simpa using hva
        rw [remove] at ih
        rw [hva', cond_false, List.countP_cons, ih]
        by_cases hae : eq a e = true
        · have hve : eq v e = false := (eq_congr_right heq hae v).symm.trans hva'
          simp [hae, hve]
        · simp [hae]

include heq in
/-- **Each occurrence among the elements removes one from the array.** -/
theorem countP_removeAll (elements array : List α) (e : α) :
    (removeAll eq elements array).countP (fun v => eq v e) =
      array.countP (fun v => eq v e) - elements.countP fun v => eq v e := by
  induction elements generalizing array with
  | nil => rw [removeAll, List.foldl_nil, List.countP_nil, Nat.sub_zero]
  | cons a elements ih =>
      rw [removeAll_cons, ih, countP_remove heq, List.countP_cons, Nat.sub_sub, Nat.add_comm]

/-- Nothing is removed if and only if no element is there. -/
lemma removeAll_eq_self_iff {elements array : List α} :
    removeAll eq elements array = array ↔ ∀ a ∈ elements, array.countP (fun v => eq v a) = 0 := by
  have hlength : ∀ elements array : List α,
      (removeAll eq elements array).length ≤ array.length := by
    intro elements
    induction elements with
    | nil => exact fun array => le_rfl
    | cons a elements ih =>
        intro array
        exact (ih _).trans (List.length_eraseP_le)
  induction elements with
  | nil => simp [removeAll]
  | cons a elements ih =>
      rw [removeAll_cons]
      by_cases ha : array.countP (fun v => eq v a) = 0
      · have hnone : remove eq array a = array :=
          List.eraseP_of_forall_not fun v hv => List.countP_eq_zero.mp ha v hv
        rw [hnone, List.forall_mem_cons]
        exact ih.trans (and_iff_right ha).symm
      · -- an element is removed, and the array stays shorter
        obtain ⟨v, hv, hva⟩ := List.countP_pos_iff.mp (Nat.pos_of_ne_zero ha)
        have hshort : (remove eq array a).length < array.length := by
          rw [remove, List.length_eraseP_of_mem hv hva]
          exact Nat.sub_lt (List.length_pos_of_mem hv) Nat.one_pos
        refine iff_of_false (fun h => ?_) fun h => ha (h a List.mem_cons_self)
        have hle := hlength elements (remove eq array a)
        rw [h] at hle
        exact absurd hle (not_le.mpr hshort)

include heq in
/-- **A removal a second time removes nothing** if and only if no element occurs
in the array more often than among those to remove. -/
theorem removeAll_removeAll_iff (elements array : List α) :
    removeAll eq elements (removeAll eq elements array) = removeAll eq elements array ↔
      ∀ a ∈ elements, array.countP (fun v => eq v a) ≤ elements.countP fun v => eq v a := by
  rw [removeAll_eq_self_iff]
  refine forall₂_congr fun a _ => ?_
  rw [countP_removeAll heq, Nat.sub_eq_zero_iff_le]

end ArrayTransform
