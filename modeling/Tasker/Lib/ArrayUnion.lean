import Mathlib.Tactic
import Mathlib.Data.List.Nodup

/-!
Adding elements to an array only if they are absent.

* `arrayUnion`: each of some elements is appended unless an equal one is there.
* `prefix_arrayUnion`: what was there stays in place.
* `arrayUnion_eq_append_iff`: nothing is left out if and only if the elements
  are pairwise distinct and none is there already. An element left out keeps the
  array shorter for good (`length_arrayUnion_le`).
-/

namespace ArrayUnion

variable {α : Type*} [DecidableEq α]

/-- The elements appended one after the other, each unless an equal one is
there. -/
def arrayUnion (elements array : List α) : List α :=
  elements.foldl (fun result a => if a ∈ result then result else result ++ [a]) array

@[simp] lemma arrayUnion_nil (array : List α) : arrayUnion [] array = array := rfl

lemma arrayUnion_cons (a : α) (elements array : List α) :
    arrayUnion (a :: elements) array =
      arrayUnion elements (if a ∈ array then array else array ++ [a]) := rfl

/-- What was there stays in place. -/
lemma prefix_arrayUnion (elements array : List α) : array <+: arrayUnion elements array := by
  induction elements generalizing array with
  | nil => exact List.prefix_rfl
  | cons a elements ih =>
      rw [arrayUnion_cons]
      split
      · exact ih array
      · exact (List.prefix_append array [a]).trans (ih _)

/-- Every element adds at most one entry. -/
lemma length_arrayUnion_le (elements array : List α) :
    (arrayUnion elements array).length ≤ array.length + elements.length := by
  induction elements generalizing array with
  | nil => simp
  | cons a elements ih =>
      rw [arrayUnion_cons, List.length_cons]
      split
      · have := ih array
        omega
      · have := ih (array ++ [a])
        rw [List.length_append, List.length_singleton] at this
        omega

/-- **Nothing is left out** if and only if the elements are pairwise distinct and
none is there already. -/
theorem arrayUnion_eq_append_iff {elements array : List α} :
    arrayUnion elements array = array ++ elements ↔
      elements.Nodup ∧ ∀ a ∈ elements, a ∉ array := by
  induction elements generalizing array with
  | nil => simp
  | cons a elements ih =>
      rw [arrayUnion_cons]
      by_cases ha : a ∈ array
      · -- an element left out: the result is too short
        rw [if_pos ha]
        have hlen := length_arrayUnion_le elements array
        refine iff_of_false (fun heq => ?_) fun h => h.2 a (by simp) ha
        rw [heq, List.length_append, List.length_cons] at hlen
        omega
      · have hcons : array ++ a :: elements = array ++ [a] ++ elements := by simp
        rw [if_neg ha, hcons, ih, List.nodup_cons]
        constructor
        · rintro ⟨hnodup, hnew⟩
          refine ⟨⟨fun hmem => hnew a hmem (by simp), hnodup⟩, fun b hb => ?_⟩
          rcases List.mem_cons.mp hb with rfl | hb
          · exact ha
          · exact fun hmem => hnew b hb (by simp [hmem])
        · rintro ⟨⟨hnotMem, hnodup⟩, hnew⟩
          refine ⟨hnodup, fun b hb hmem => ?_⟩
          rcases List.mem_append.mp hmem with hmem | hmem
          · exact hnew b (by simp [hb]) hmem
          · rw [List.mem_singleton.mp hmem] at hb
            exact hnotMem hb

end ArrayUnion
