import Tasker.Lib.WriteQueue

/-!
Refinement of the clients of write queues.

Two systems may keep different data in their stores, and write them differently.

* `Performs`: a write makes related stores of related stores, as another does.
* `Related`: the stores are related, and the queues of the clients hold writes that
  perform each other.
* `Related.view`: the clients read related data.
* `Related.act`, `Related.commit`, `Related.refuse`: a step of the first system is one
  of the second; `Related.stored`: the second may follow what happens to the store.
-/

namespace WriteQueue

open App

variable {C S W X G A C' S' W' X' G' A' : Type*} (app : App C S W X G A)
  (app' : App C' S' W' X' G' A') (R : S → S' → Prop)

/-- The one write does to related stores what the other does. -/
def Performs (w : W) (w' : W') : Prop :=
  ∀ st st', R st st' → R (app.apply w st) (app'.apply w' st')

/-- The stores are related, and so are the queues of the clients of the first system. -/
structure Related (f : C → C') (s : State C S W X G) (t : State C' S' W' X' G') : Prop where
  store : R s.store t.store
  queue : ∀ c, List.Forall₂ (Performs app app' R) (s.queue c) (t.queue (f c))

variable {app app' R} {f : C → C'} {s : State C S W X G} {t : State C' S' W' X' G'}

/-- Writes that perform each other make related stores. -/
lemma applyAll_of_performs {ws : List W} {ws' : List W'}
    (h : List.Forall₂ (Performs app app' R) ws ws') {st : S} {st' : S'} (hst : R st st') :
    R (app.applyAll ws st) (app'.applyAll ws' st') := by
  induction h generalizing st st' with
  | nil => exact hst
  | cons hw _ ih => exact ih (hw st st' hst)

/-- **The clients read related data.** -/
theorem Related.view (h : Related app app' R f s t) (c : C) :
    R (app.view s c) (app'.view t (f c)) :=
  applyAll_of_performs (h.queue c) h.store

/-- The second system may follow what happens to the store of the first. -/
lemma Related.stored (h : Related app app' R f s t) {s₁ : State C S W X G}
    {t₁ : State C' S' W' X' G'} (hstore : R s₁.store t₁.store) (hqueue : s₁.queue = s.queue)
    (hqueue' : t₁.queue = t.queue) : Related app app' R f s₁ t₁ where
  store := hstore
  queue c := by
    rw [hqueue, hqueue']
    exact h.queue c

variable [DecidableEq C] [DecidableEq C'] (hf : Function.Injective f)
include hf

/-- Queues that are replaced by related ones. -/
lemma forall₂_update (h : ∀ c, List.Forall₂ (Performs app app' R) (s.queue c) (t.queue (f c)))
    {c : C} {ws : List W} {ws' : List W'} (hws : List.Forall₂ (Performs app app' R) ws ws')
    (c₁ : C) :
    List.Forall₂ (Performs app app' R) (Function.update s.queue c ws c₁)
      (Function.update t.queue (f c) ws' (f c₁)) := by
  by_cases hc : c₁ = c
  · rw [hc, Function.update_self, Function.update_self]
    exact hws
  · rw [Function.update_of_ne hc, Function.update_of_ne (hf.ne hc)]
    exact h c₁

omit [DecidableEq C] hf in
lemma update_of_notMem_range (queue : C' → List W') (c : C) (ws : List W') :
    ∀ c' ∉ Set.range f, Function.update queue (f c) ws c' = queue c' := by
  intro c' hc'
  exact Function.update_of_ne (fun h => hc' ⟨c, h.symm⟩) _ _

/-- An action of the first system is one of the second that issues the same. -/
lemma Related.act (h : Related app app' R f s t) {s₁ : State C S W X G} {c : C} {a : A} (a' : A')
    (hs : app.step s (.act c a) = some s₁)
    (hissue : ∀ g x ws, app.act c s.shared (s.screen c) (app.view s c) a = some (g, x, ws) →
      ∃ g' x' ws', app'.act (f c) t.shared (t.screen (f c)) (app'.view t (f c)) a' =
          some (g', x', ws') ∧ List.Forall₂ (Performs app app' R) ws ws') :
    ∃ t₁, app'.step t (.act (f c) a') = some t₁ ∧ Related app app' R f s₁ t₁ ∧
      ∀ c' ∉ Set.range f, t₁.queue c' = t.queue c' := by
  obtain ⟨g, x, ws, hact, rfl⟩ := step_act_eq_some.mp hs
  obtain ⟨g', x', ws', hact', hws⟩ := hissue g x ws hact
  refine ⟨_, step_act_eq_some.mpr ⟨g', x', ws', hact', rfl⟩, ⟨h.store, ?_⟩,
    update_of_notMem_range t.queue c _⟩
  exact forall₂_update hf h.queue (List.rel_append (h.queue c) hws)

/-- A commit of the first system is one of the second. -/
lemma Related.commit (h : Related app app' R f s t) {s₁ : State C S W X G} {c : C}
    (hs : app.step s (.commit c) = some s₁) :
    ∃ t₁, app'.step t (.commit (f c)) = some t₁ ∧ Related app app' R f s₁ t₁ ∧
      ∀ c' ∉ Set.range f, t₁.queue c' = t.queue c' := by
  obtain ⟨w, q, hq, rfl⟩ := step_commit_eq_some.mp hs
  have hqueue := h.queue c
  rw [hq] at hqueue
  obtain ⟨w', q', hw, hrest, hq'⟩ := List.forall₂_cons_left_iff.mp hqueue
  exact ⟨_, step_commit_eq_some.mpr ⟨w', q', hq', rfl⟩,
    ⟨hw _ _ h.store, forall₂_update hf h.queue hrest⟩, update_of_notMem_range t.queue c q'⟩

/-- A refusal of the first system is one of the second. -/
lemma Related.refuse (h : Related app app' R f s t) {s₁ : State C S W X G} {c : C}
    (hs : app.faultyStep s (.refuse c) = some s₁) :
    ∃ t₁, app'.faultyStep t (.refuse (f c)) = some t₁ ∧ Related app app' R f s₁ t₁ ∧
      ∀ c' ∉ Set.range f, t₁.queue c' = t.queue c' := by
  obtain ⟨w, q, hq, rfl⟩ := faultyStep_refuse_eq_some.mp hs
  have hqueue := h.queue c
  rw [hq] at hqueue
  obtain ⟨w', q', -, hrest, hq'⟩ := List.forall₂_cons_left_iff.mp hqueue
  exact ⟨_, faultyStep_refuse_eq_some.mpr ⟨w', q', hq', rfl⟩,
    ⟨h.store, forall₂_update hf h.queue hrest⟩, update_of_notMem_range t.queue c q'⟩

end WriteQueue
