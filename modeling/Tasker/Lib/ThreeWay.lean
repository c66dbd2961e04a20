import Mathlib.Tactic
import Mathlib.Order.Compare

/-!
Three-way comparisons.

* `defaultCompare`: the comparison that `<` gives.
* `compareContainer`: sequences compared element by element, a proper prefix
  first.
* `TransAt`: the comparisons of three values fit together. It is stated for one
  triple, so that it can be shown of nested values by induction on the first of
  them: `TransAt.then`, `transAt_compareContainer`, `transAt_of_key`.
* `compareContainer_swap`: likewise for the comparison of two values the other
  way round.
* `transCmp_of_transAt`: a comparison that is oriented and fits for all triples is
  transitive.
-/

namespace ThreeWay

variable {α β κ : Type*}

/-! ### Comparisons -/

/-- The comparison given by `<`. -/
def defaultCompare [LT α] [DecidableLT α] (left right : α) : Ordering :=
  if left < right then .lt else if right < left then .gt else .eq

/-- Element by element, a proper prefix first. -/
def compareContainer (cmp : α → β → Ordering) : List α → List β → Ordering
  | [], [] => .eq
  | [], _ :: _ => .lt
  | _ :: _, [] => .gt
  | a :: l, b :: l' => (cmp a b).then (compareContainer cmp l l')

section defaultCompare

variable [LinearOrder α] [DecidableLT α] {a b : α}

lemma defaultCompare_eq_lt : defaultCompare a b = .lt ↔ a < b := by
  rw [defaultCompare]
  split_ifs <;> simp_all

lemma defaultCompare_eq_gt : defaultCompare a b = .gt ↔ b < a := by
  rw [defaultCompare]
  split_ifs with h h'
  · simp [h.not_gt]
  · simp [h']
  · simp [h']

lemma defaultCompare_eq_eq : defaultCompare a b = .eq ↔ a = b := by
  rw [defaultCompare]
  split_ifs with h h'
  · simp [h.ne]
  · simp [h'.ne']
  · simp [le_antisymm (not_lt.mp h') (not_lt.mp h)]

lemma defaultCompare_swap (a b : α) : defaultCompare b a = (defaultCompare a b).swap := by
  rcases lt_trichotomy a b with h | rfl | h
  · rw [defaultCompare_eq_lt.mpr h, defaultCompare_eq_gt.mpr h]
    rfl
  · rw [defaultCompare_eq_eq.mpr rfl]
    rfl
  · rw [defaultCompare_eq_gt.mpr h, defaultCompare_eq_lt.mpr h]
    rfl

/-- It is the comparison of the order. -/
lemma defaultCompare_eq_compare (a b : α) : defaultCompare a b = compare a b := by
  rcases lt_trichotomy a b with h | rfl | h
  · rw [defaultCompare_eq_lt.mpr h, compare_lt_iff_lt.mpr h]
  · rw [defaultCompare_eq_eq.mpr rfl, compare_eq_iff_eq.mpr rfl]
  · rw [defaultCompare_eq_gt.mpr h, compare_gt_iff_gt.mpr h]

end defaultCompare

lemma compareContainer_map_left {γ : Type*} (cmp : α → β → Ordering) (f : γ → α) (l : List γ)
    (l' : List β) :
    compareContainer cmp (l.map f) l' = compareContainer (fun c b => cmp (f c) b) l l' := by
  induction l generalizing l' with
  | nil => cases l' <;> rfl
  | cons c l ih =>
      cases l' with
      | nil => rfl
      | cons b l' => rw [List.map_cons, compareContainer, compareContainer, ih]

lemma compareContainer_congr {cmp cmp' : α → β → Ordering} {l : List α}
    (h : ∀ a ∈ l, ∀ b, cmp a b = cmp' a b) (l' : List β) :
    compareContainer cmp l l' = compareContainer cmp' l l' := by
  induction l generalizing l' with
  | nil => cases l' <;> rfl
  | cons a l ih =>
      cases l' with
      | nil => rfl
      | cons b l' =>
          rw [compareContainer, compareContainer, h a List.mem_cons_self,
            ih fun a' ha' => h a' (List.mem_cons_of_mem a ha')]

/-! ### The other way round -/

/-- Sequences compare the other way round if their elements do. -/
lemma compareContainer_swap {cmp : α → β → Ordering} {cmp' : β → α → Ordering} {l : List α}
    (h : ∀ a ∈ l, ∀ b, cmp' b a = (cmp a b).swap) (l' : List β) :
    compareContainer cmp' l' l = (compareContainer cmp l l').swap := by
  induction l generalizing l' with
  | nil => cases l' <;> rfl
  | cons a l ih =>
      cases l' with
      | nil => rfl
      | cons b l' =>
          rw [compareContainer, compareContainer, Ordering.swap_then, h a List.mem_cons_self,
            ih fun a' ha' => h a' (List.mem_cons_of_mem a ha')]

/-! ### Three values -/

/-- The comparisons of three values fit together. -/
structure TransAt (cmp : α → α → Ordering) (a b c : α) : Prop where
  of_eq : cmp a b = .eq → cmp a c = cmp b c
  lt_lt : cmp a b = .lt → cmp b c = .lt → cmp a c = .lt
  lt_eq : cmp a b = .lt → cmp b c = .eq → cmp a c = .lt

/-- Comparisons by a key in an order fit together. -/
lemma transAt_of_key [LinearOrder κ] [DecidableLT κ] {cmp : α → α → Ordering} {a b c : α}
    {ka kb kc : κ}
    (hab : cmp a b = defaultCompare ka kb) (hbc : cmp b c = defaultCompare kb kc)
    (hac : cmp a c = defaultCompare ka kc) : TransAt cmp a b c := by
  refine ⟨fun h => ?_, fun h h' => ?_, fun h h' => ?_⟩
  · rw [hac, hbc, defaultCompare_eq_eq.mp (hab.symm.trans h)]
  · have hlt := defaultCompare_eq_lt.mp (hab.symm.trans h)
    rw [hac]
    exact defaultCompare_eq_lt.mpr (hlt.trans (defaultCompare_eq_lt.mp (hbc.symm.trans h')))
  · have hlt := defaultCompare_eq_lt.mp (hab.symm.trans h)
    rw [hac, ← defaultCompare_eq_eq.mp (hbc.symm.trans h')]
    exact defaultCompare_eq_lt.mpr hlt

lemma then_eq_lt {o o' : Ordering} : o.then o' = .lt ↔ o = .lt ∨ o = .eq ∧ o' = .lt := by
  cases o <;> simp [Ordering.then]

lemma then_eq_eq {o o' : Ordering} : o.then o' = .eq ↔ o = .eq ∧ o' = .eq := by
  cases o <;> simp [Ordering.then]

/-- One comparison after the other. -/
lemma TransAt.then {f g : α → α → Ordering} {a b c : α} (hf : TransAt f a b c)
    (hg : TransAt g a b c) : TransAt (fun x y => (f x y).then (g x y)) a b c := by
  refine ⟨fun h => ?_, fun h h' => ?_, fun h h' => ?_⟩
  · obtain ⟨hfab, hgab⟩ := then_eq_eq.mp h
    simp only [hf.of_eq hfab, hg.of_eq hgab]
  · rw [then_eq_lt] at h h' ⊢
    rcases h with h | ⟨h, hgab⟩ <;> rcases h' with h' | ⟨h', hgbc⟩
    · exact Or.inl (hf.lt_lt h h')
    · exact Or.inl (hf.lt_eq h h')
    · exact Or.inl ((hf.of_eq h).trans h')
    · exact Or.inr ⟨(hf.of_eq h).trans h', hg.lt_lt hgab hgbc⟩
  · obtain ⟨hfbc, hgbc⟩ := then_eq_eq.mp h'
    rw [then_eq_lt] at h ⊢
    rcases h with h | ⟨h, hgab⟩
    · exact Or.inl (hf.lt_eq h hfbc)
    · exact Or.inr ⟨(hf.of_eq h).trans hfbc, hg.lt_eq hgab hgbc⟩

/-- Sequences fit together if the elements of the first fit with all others. -/
lemma transAt_compareContainer {cmp : α → α → Ordering} {l : List α}
    (h : ∀ a ∈ l, ∀ b c, TransAt cmp a b c) (l' l'' : List α) :
    TransAt (compareContainer cmp) l l' l'' := by
  induction l generalizing l' l'' with
  | nil => cases l' <;> cases l'' <;> constructor <;> simp [compareContainer]
  | cons a l ih =>
      cases l' with
      | nil => cases l'' <;> constructor <;> simp [compareContainer]
      | cons b l' =>
          cases l'' with
          | nil => constructor <;> simp [compareContainer]
          | cons c l'' =>
              have hhead := h a List.mem_cons_self b c
              have htail := ih (fun a' ha' => h a' (List.mem_cons_of_mem a ha')) l' l''
              -- heads first, then tails
              have hboth := TransAt.then (α := α × List α)
                (f := fun x y => cmp x.1 y.1) (g := fun x y => compareContainer cmp x.2 y.2)
                (a := (a, l)) (b := (b, l')) (c := (c, l''))
                ⟨hhead.of_eq, hhead.lt_lt, hhead.lt_eq⟩ ⟨htail.of_eq, htail.lt_lt, htail.lt_eq⟩
              exact ⟨hboth.of_eq, hboth.lt_lt, hboth.lt_eq⟩

/-- **An oriented comparison that fits for all triples is transitive.** -/
lemma transCmp_of_transAt {cmp : α → α → Ordering} (hswap : ∀ a b, cmp b a = (cmp a b).swap)
    (h : ∀ a b c, TransAt cmp a b c) : Std.TransCmp cmp where
  eq_swap {a b} := hswap b a
  isLE_trans {a b c} hab hbc := by
    cases hab' : cmp a b with
    | eq => rwa [(h a b c).of_eq hab']
    | gt => exact absurd hab (by simp [hab'])
    | lt =>
        cases hbc' : cmp b c with
        | eq => simp [(h a b c).lt_eq hab' hbc']
        | lt => simp [(h a b c).lt_lt hab' hbc']
        | gt => exact absurd hbc (by simp [hbc'])

end ThreeWay
