import Tasker.Lib.EventSystem

/-!
Clients that write through queues to a shared store.

Every client has a screen and a queue of writes not yet committed. An action of
a client reads the client's view of the store, which is the store with the
client's own queued writes laid over it, and appends writes to the client's
queue. The server commits, or refuses, the first write of a queue.

* `App`: the effect of a write and of an action; `step`: actions and commits;
  `faultyStep`: refusals as well.
* `view`: what a client reads; `view_commit`: committing a client's own write
  leaves its view alone.
* `committed`: the writes a run commits; the store after the run is the store
  before it with these writes applied (`store_exec`).
* `queued`, `issued`: the writes in flight, and the writes a run issues; none is
  lost or duplicated on the way (`queued_exec`).
* `mem_update_append`, `mem_update_tail`: what a queue holds after a step.
* `OwnKeys`, `ownKeys_step`: keys that are given to one write when it is issued
  are in one queue only.
* `Discipline`: what has to be shown to keep an invariant of store, queues and
  screens. A queued write has to be fit for the store the earlier writes of its
  own queue will leave (`QueueOk`), a screen for the view of its client; what
  the others commit, or what is refused, may change the store under a screen and
  a queue only as `Rely` allows.
* `Discipline.inv_step`, `Discipline.inv_faultyStep`: the invariant is kept.
-/

namespace WriteQueue

open EventSystem

/-- The effect of the writes, and of the actions of the clients: an action sees
the data all clients share, its screen and its view, and yields the shared data,
the screen and the writes it issues. -/
structure App (C S W X G A : Type*) where
  apply : W → S → S
  act : C → G → X → S → A → Option (G × X × List W)

/-- The store, the queues and screens of the clients, and the data they
share. -/
structure State (C S W X G : Type*) where
  store : S
  queue : C → List W
  screen : C → X
  shared : G

/-- An action of a client, or the commit of its first queued write. -/
inductive Event (C A : Type*) where
  | act (c : C) (a : A)
  | commit (c : C)

/-- An event, or the refusal of a client's first queued write. -/
inductive FaultyEvent (C A : Type*) where
  | ok (e : Event C A)
  | refuse (c : C)

variable {C S W X G A : Type*} (app : App C S W X G A)

namespace App

/-- The store after some writes. -/
def applyAll (ws : List W) (st : S) : S := ws.foldl (fun st w => app.apply w st) st

@[simp] lemma applyAll_nil (st : S) : app.applyAll [] st = st := rfl

@[simp] lemma applyAll_cons (w : W) (ws : List W) (st : S) :
    app.applyAll (w :: ws) st = app.applyAll ws (app.apply w st) := rfl

lemma applyAll_append (ws ws' : List W) (st : S) :
    app.applyAll (ws ++ ws') st = app.applyAll ws' (app.applyAll ws st) :=
  List.foldl_append

/-- What every write of a list keeps, the list keeps. -/
lemma applyAll_of_forall {P : S → Prop} {ws : List W} {st : S} (h : P st)
    (hws : ∀ w ∈ ws, ∀ st, P st → P (app.apply w st)) : P (app.applyAll ws st) := by
  induction ws generalizing st with
  | nil => exact h
  | cons w ws ih => exact ih (hws w (by simp) st h) fun w' hw' => hws w' (by simp [hw'])

/-- What a client reads: the store with its own queued writes laid over it. -/
def view (s : State C S W X G) (c : C) : S := app.applyAll (s.queue c) s.store

section step

variable [DecidableEq C]

/-- Actions and commits. -/
def step (s : State C S W X G) : Event C A → Option (State C S W X G)
  | .act c a =>
      (app.act c s.shared (s.screen c) (app.view s c) a).map fun r =>
        { s with
          shared := r.1
          screen := Function.update s.screen c r.2.1
          queue := Function.update s.queue c (s.queue c ++ r.2.2) }
  | .commit c =>
      match s.queue c with
      | [] => none
      | w :: q => some
          { s with store := app.apply w s.store, queue := Function.update s.queue c q }

/-- Actions, commits and refusals. -/
def faultyStep (s : State C S W X G) : FaultyEvent C A → Option (State C S W X G)
  | .ok e => app.step s e
  | .refuse c =>
      match s.queue c with
      | [] => none
      | _ :: q => some { s with queue := Function.update s.queue c q }

variable {app}

lemma step_act_eq_some {s s' : State C S W X G} {c : C} {a : A} :
    app.step s (.act c a) = some s' ↔
      ∃ g x ws, app.act c s.shared (s.screen c) (app.view s c) a = some (g, x, ws) ∧
        s' = { s with
          shared := g
          screen := Function.update s.screen c x
          queue := Function.update s.queue c (s.queue c ++ ws) } := by
  rw [step, Option.map_eq_some_iff]
  constructor
  · rintro ⟨⟨g, x, ws⟩, h, rfl⟩
    exact ⟨g, x, ws, h, rfl⟩
  · rintro ⟨g, x, ws, h, rfl⟩
    exact ⟨(g, x, ws), h, rfl⟩

lemma step_commit_eq_some {s s' : State C S W X G} {c : C} :
    app.step s (.commit c) = some s' ↔
      ∃ w q, s.queue c = w :: q ∧
        s' = { s with store := app.apply w s.store, queue := Function.update s.queue c q } := by
  rw [step]
  cases h : s.queue c with
  | nil => simp
  | cons w q => simp [eq_comm]

lemma faultyStep_refuse_eq_some {s s' : State C S W X G} {c : C} :
    app.faultyStep s (.refuse c) = some s' ↔
      ∃ w q, s.queue c = w :: q ∧ s' = { s with queue := Function.update s.queue c q } := by
  rw [faultyStep]
  cases h : s.queue c with
  | nil => simp
  | cons w q => simp [eq_comm]

/-- The commit of a client's own write leaves its view alone. -/
lemma view_commit {s : State C S W X G} {c : C} {w : W} {q : List W} (h : s.queue c = w :: q) :
    app.view { s with store := app.apply w s.store, queue := Function.update s.queue c q } c =
      app.view s c := by
  simp only [view, h, Function.update_self, applyAll_cons]

/-! ### The writes a run commits -/

/-- The write an event commits. -/
def committedBy (s : State C S W X G) : Event C A → List W
  | .commit c => (s.queue c).take 1
  | .act _ _ => []

variable (app) in
/-- The writes a run commits, in order. -/
def committed : State C S W X G → List (Event C A) → List W
  | _, [] => []
  | s, e :: es =>
      committedBy s e ++ match app.step s e with
        | some s' => committed s' es
        | none => []

lemma committed_cons {s s' : State C S W X G} {e : Event C A}
    (h : app.step s e = some s') (es : List (Event C A)) :
    app.committed s (e :: es) = committedBy s e ++ app.committed s' es := by
  rw [committed, h]

/-- The store after one event. -/
lemma store_step {s s' : State C S W X G} {e : Event C A} (h : app.step s e = some s') :
    s'.store = app.applyAll (committedBy s e) s.store := by
  cases e with
  | act c a =>
      obtain ⟨g, x, ws, -, rfl⟩ := step_act_eq_some.mp h
      rfl
  | commit c =>
      obtain ⟨w, q, hq, rfl⟩ := step_commit_eq_some.mp h
      simp [committedBy, hq]

/-- The store after a run is the store before it with the writes committed. -/
theorem store_exec {s s' : State C S W X G} {es : List (Event C A)}
    (h : exec app.step s es = some s') :
    s'.store = app.applyAll (app.committed s es) s.store := by
  induction es generalizing s with
  | nil => obtain rfl := Option.some.inj h; rfl
  | cons e es ih =>
      obtain ⟨t, ht, h'⟩ := exec_cons_eq_some.mp h
      rw [ih h', committed_cons ht, applyAll_append, store_step ht]

/-! ### The writes in flight -/

section queued

variable [Fintype C]

/-- The queued writes of all clients. -/
def queued (s : State C S W X G) : Multiset W := ∑ c, (s.queue c : Multiset W)

omit [DecidableEq C] in
lemma mem_queued {s : State C S W X G} {w : W} : w ∈ queued s ↔ ∃ c, w ∈ s.queue c := by
  simp [queued, Multiset.mem_sum]

/-- One queue replaced. -/
lemma sum_update_add (queue : C → List W) (c : C) (q : List W) :
    (∑ c', (Function.update queue c q c' : Multiset W)) + (queue c : Multiset W) =
      (∑ c', (queue c' : Multiset W)) + (q : Multiset W) := by
  have hrest : ∑ c' ∈ Finset.univ.erase c, (Function.update queue c q c' : Multiset W) =
      ∑ c' ∈ Finset.univ.erase c, (queue c' : Multiset W) :=
    Finset.sum_congr rfl fun c' hc' => by
      rw [Function.update_of_ne (Finset.ne_of_mem_erase hc')]
  rw [← Finset.add_sum_erase _ _ (Finset.mem_univ c), hrest, Function.update_self,
    ← Finset.add_sum_erase _ (fun c' => (queue c' : Multiset W)) (Finset.mem_univ c)]
  abel

/-- An action adds the writes it issues. -/
lemma queued_act {s : State C S W X G} (c : C) (g : G) (x : C → X) (ws : List W) :
    queued { s with
      shared := g
      screen := x
      queue := Function.update s.queue c (s.queue c ++ ws) } = queued s + (ws : Multiset W) := by
  have h := sum_update_add s.queue c (s.queue c ++ ws)
  rw [← Multiset.coe_add, ← add_assoc, add_right_comm] at h
  exact add_right_cancel h

/-- The first write of a queue leaves it. -/
lemma queued_tail {s : State C S W X G} {c : C} {w : W} {q : List W} (hq : s.queue c = w :: q)
    (st : S) :
    w ::ₘ queued { s with store := st, queue := Function.update s.queue c q } = queued s := by
  have h := sum_update_add s.queue c q
  rw [hq, ← Multiset.cons_coe, Multiset.add_cons, ← Multiset.cons_add] at h
  exact add_right_cancel h

variable (app) in
/-- The writes an event issues. -/
def issuedBy (s : State C S W X G) : Event C A → List W
  | .act c a => ((app.act c s.shared (s.screen c) (app.view s c) a).map fun r => r.2.2).getD []
  | .commit _ => []

variable (app) in
/-- The writes a run issues, in order. -/
def issued : State C S W X G → List (Event C A) → List W
  | _, [] => []
  | s, e :: es =>
      app.issuedBy s e ++ match app.step s e with
        | some s' => issued s' es
        | none => []

lemma queued_step {s s' : State C S W X G} {e : Event C A} (h : app.step s e = some s') :
    (committedBy s e : Multiset W) + queued s' = queued s + (app.issuedBy s e : Multiset W) := by
  cases e with
  | act c a =>
      obtain ⟨g, x, ws, hact, rfl⟩ := step_act_eq_some.mp h
      rw [committedBy, issuedBy, hact, queued_act]
      exact zero_add _
  | commit c =>
      obtain ⟨w, q, hq, rfl⟩ := step_commit_eq_some.mp h
      rw [committedBy, issuedBy, hq, List.take_one, List.head?_cons, Option.toList_some,
        Multiset.coe_singleton, Multiset.singleton_add, queued_tail hq]
      exact (add_zero _).symm

/-- **No write is lost or duplicated on the way**: what a run commits and leaves
queued is what was queued and what it issues. -/
theorem queued_exec {s s' : State C S W X G} {es : List (Event C A)}
    (h : exec app.step s es = some s') :
    (app.committed s es : Multiset W) + queued s' = queued s + (app.issued s es : Multiset W) := by
  induction es generalizing s with
  | nil =>
      obtain rfl := Option.some.inj h
      exact (zero_add _).trans (add_zero _).symm
  | cons e es ih =>
      obtain ⟨t, ht, h'⟩ := exec_cons_eq_some.mp h
      have hhead := queued_step ht
      rw [committed_cons ht, issued, ht, ← Multiset.coe_add, ← Multiset.coe_add, add_assoc, ih h',
        ← add_assoc, hhead, add_assoc]

end queued

/-! ### What a queue holds after a step -/

/-- A queued write was queued before, or is one of the action's. -/
lemma mem_update_append {queue : C → List W} {c c' : C} {ws : List W} {w : W}
    (h : w ∈ Function.update queue c (queue c ++ ws) c') : w ∈ queue c' ∨ c' = c ∧ w ∈ ws := by
  by_cases hc : c' = c
  · subst hc
    rw [Function.update_self, List.mem_append] at h
    exact h.imp_right fun hw => ⟨rfl, hw⟩
  · rw [Function.update_of_ne hc] at h
    exact Or.inl h

/-- What is queued after a commit was queued before. -/
lemma mem_update_tail {queue : C → List W} {c c' : C} {w₀ w : W} {q : List W}
    (hq : queue c = w₀ :: q) (h : w ∈ Function.update queue c q c') : w ∈ queue c' := by
  by_cases hc : c' = c
  · subst hc
    rw [Function.update_self] at h
    rw [hq]
    exact List.mem_cons_of_mem w₀ h
  · rw [Function.update_of_ne hc] at h
    exact h

/-! ### Keys given to one write -/

/-- The keys of the queued writes are known, each queued by one client. -/
structure OwnKeys {K : Type*} (key : W → Option K) (known : G → K → Prop)
    (s : State C S W X G) : Prop where
  known : ∀ c w k, w ∈ s.queue c → key w = some k → known s.shared k
  one : ∀ c c' w w' k, w ∈ s.queue c → w' ∈ s.queue c' → key w = some k → key w' = some k → c = c'

section ownKeys

variable {K : Type*} {key : W → Option K} {known : G → K → Prop}

omit [DecidableEq C] in
lemma ownKeys_of_queue_eq_nil {s : State C S W X G} (h : ∀ c, s.queue c = []) :
    OwnKeys key known s :=
  ⟨by simp [h], by simp [h]⟩

omit [DecidableEq C] in
/-- Shorter queues have keys of their own as well. -/
lemma OwnKeys.mono {s s' : State C S W X G} (h : OwnKeys key known s)
    (hq : ∀ c, s'.queue c ⊆ s.queue c) (hg : s'.shared = s.shared) : OwnKeys key known s' :=
  ⟨fun c w k hw hk => hg ▸ h.known c w k (hq c hw) hk,
    fun c c' w w' k hw hw' => h.one c c' w w' k (hq c hw) (hq c' hw')⟩

/-- If the keys issued are new, and known from then on, every queued write has
a key of its own client. -/
lemma ownKeys_step {s s' : State C S W X G} {e : Event C A}
    (hgrow : ∀ c g x v a g' x' ws, app.act c g x v a = some (g', x', ws) →
      ∀ k, known g k → known g' k)
    (hnew : ∀ c g x v a g' x' ws, app.act c g x v a = some (g', x', ws) →
      ∀ w ∈ ws, ∀ k, key w = some k → ¬ known g k ∧ known g' k)
    (h : OwnKeys key known s) (hs : app.step s e = some s') : OwnKeys key known s' := by
  cases e with
  | act c a =>
      obtain ⟨g, x, ws, hact, rfl⟩ := step_act_eq_some.mp hs
      refine ⟨fun c' w k hw hk => ?_, fun c₁ c₂ w w' k hw hw' hk hk' => ?_⟩
      · rcases mem_update_append hw with hold | ⟨-, hissued⟩
        · exact hgrow _ _ _ _ _ _ _ _ hact k (h.known c' w k hold hk)
        · exact (hnew _ _ _ _ _ _ _ _ hact w hissued k hk).2
      · rcases mem_update_append hw with hold | ⟨hc₁, hissued⟩ <;>
          rcases mem_update_append hw' with hold' | ⟨hc₂, hissued'⟩
        · exact h.one c₁ c₂ w w' k hold hold' hk hk'
        · exact absurd (h.known c₁ w k hold hk) (hnew _ _ _ _ _ _ _ _ hact w' hissued' k hk').1
        · exact absurd (h.known c₂ w' k hold' hk') (hnew _ _ _ _ _ _ _ _ hact w hissued k hk).1
        · exact hc₁.trans hc₂.symm
  | commit c =>
      obtain ⟨w, q, hq, rfl⟩ := step_commit_eq_some.mp hs
      exact h.mono (fun _ _ hw => mem_update_tail hq hw) rfl

end ownKeys

end step

/-! ### Invariants -/

/-- Every queued write is fit for the store that the earlier ones leave. -/
def QueueOk (ok : S → W → Prop) : S → List W → Prop
  | _, [] => True
  | st, w :: ws => ok st w ∧ QueueOk ok (app.apply w st) ws

variable {app}

lemma queueOk_append {ok : S → W → Prop} {st : S} {ws ws' : List W} :
    app.QueueOk ok st (ws ++ ws') ↔
      app.QueueOk ok st ws ∧ app.QueueOk ok (app.applyAll ws st) ws' := by
  induction ws generalizing st with
  | nil => exact (iff_of_eq (true_and _)).symm
  | cons w ws ih => rw [List.cons_append, QueueOk, QueueOk, ih, applyAll_cons, and_assoc]

/-- Fitness that does not depend on the store. -/
lemma queueOk_of_forall {ok : W → Prop} {st : S} {ws : List W} (h : ∀ w ∈ ws, ok w) :
    app.QueueOk (fun _ => ok) st ws := by
  induction ws generalizing st with
  | nil => trivial
  | cons w ws ih => exact ⟨h w (by simp), ih fun w' hw' => h w' (by simp [hw'])⟩

end App

/-- An invariant of the store, the queues and the screens, with what keeps it.
`Side` is an invariant shown beforehand, and `Refusable` says when the first
write of a queue may be refused. -/
structure Discipline (app : App C S W X G A) where
  StoreOk : G → S → Prop
  WriteOk : G → S → W → Prop
  ScreenOk : C → G → S → X → Prop
  /-- What an action may do to the shared data. -/
  Grow : G → G → Prop
  /-- What may happen to the store under a screen and a queue. -/
  Rely : X → List W → S → S → Prop
  Side : State C S W X G → Prop
  Refusable : State C S W X G → C → Prop
  grow_store : ∀ g g' st, Grow g g' → StoreOk g st → StoreOk g' st
  grow_write : ∀ g g' st w, Grow g g' → WriteOk g st w → WriteOk g' st w
  grow_screen : ∀ c g g' st x, Grow g g' → ScreenOk c g st x → ScreenOk c g' st x
  apply : ∀ g st w, StoreOk g st → WriteOk g st w → StoreOk g (app.apply w st)
  rely_cons : ∀ g x w q st st', Rely x (w :: q) st st' → WriteOk g st w →
    WriteOk g st' w ∧ Rely x q (app.apply w st) (app.apply w st')
  rely_nil : ∀ c g st st' x, Rely x [] st st' → ScreenOk c g st x → ScreenOk c g st' x
  act : ∀ c g v x a g' x' ws, StoreOk g v → ScreenOk c g v x →
    app.act c g x v a = some (g', x', ws) →
    Grow g g' ∧ app.QueueOk (WriteOk g') v ws ∧ ScreenOk c g' (app.applyAll ws v) x'
  commit : ∀ s c c' w q, Side s → s.queue c = w :: q → WriteOk s.shared s.store w → c' ≠ c →
    Rely (s.screen c') (s.queue c') s.store (app.apply w s.store)
  refuse : ∀ s c w q, s.queue c = w :: q → WriteOk s.shared s.store w → Refusable s c →
    Rely (s.screen c) q (app.apply w s.store) s.store

namespace Discipline

variable {app} (D : Discipline app)

/-- The invariant of a discipline. -/
structure Inv (s : State C S W X G) : Prop where
  store : D.StoreOk s.shared s.store
  queue : ∀ c, app.QueueOk (D.WriteOk s.shared) s.store (s.queue c)
  screen : ∀ c, D.ScreenOk c s.shared (app.view s c) (s.screen c)

variable {D}

lemma storeOk_applyAll {g : G} {st : S} {ws : List W} (h : D.StoreOk g st)
    (hws : app.QueueOk (D.WriteOk g) st ws) : D.StoreOk g (app.applyAll ws st) := by
  induction ws generalizing st with
  | nil => exact h
  | cons w ws ih => exact ih (D.apply g st w h hws.1) hws.2

lemma queueOk_grow {g g' : G} {st : S} {ws : List W} (hg : D.Grow g g')
    (hws : app.QueueOk (D.WriteOk g) st ws) : app.QueueOk (D.WriteOk g') st ws := by
  induction ws generalizing st with
  | nil => trivial
  | cons w ws ih => exact ⟨D.grow_write g g' st w hg hws.1, ih hws.2⟩

/-- Queued writes stay fit when the store changes under them as the rely
allows, and the views stay related. -/
lemma queueOk_rely {g : G} {x : X} {st st' : S} {ws : List W} (hR : D.Rely x ws st st')
    (hws : app.QueueOk (D.WriteOk g) st ws) :
    app.QueueOk (D.WriteOk g) st' ws ∧ D.Rely x [] (app.applyAll ws st) (app.applyAll ws st') := by
  induction ws generalizing st st' with
  | nil => exact ⟨trivial, hR⟩
  | cons w ws ih =>
      obtain ⟨hw, hrest⟩ := D.rely_cons g x w ws st st' hR hws.1
      obtain ⟨hq, hv⟩ := ih hrest hws.2
      exact ⟨⟨hw, hq⟩, hv⟩

/-- What a client sees is in order. -/
lemma Inv.view {s : State C S W X G} (h : D.Inv s) (c : C) :
    D.StoreOk s.shared (app.view s c) :=
  storeOk_applyAll h.store (h.queue c)

variable [DecidableEq C]

/-- Actions and commits keep the invariant. -/
theorem inv_step {s s' : State C S W X G} {e : Event C A} (hside : D.Side s) (h : D.Inv s)
    (hs : app.step s e = some s') : D.Inv s' := by
  cases e with
  | act c a =>
      obtain ⟨g, x, ws, hact, rfl⟩ := App.step_act_eq_some.mp hs
      obtain ⟨hg, hws, hx⟩ := D.act c _ _ _ a g x ws (h.view c) (h.screen c) hact
      refine ⟨D.grow_store _ _ _ hg h.store, fun c' => ?_, fun c' => ?_⟩
      · by_cases hc : c' = c
        · subst hc
          simp only [Function.update_self]
          exact App.queueOk_append.mpr ⟨queueOk_grow hg (h.queue c'), hws⟩
        · simp only [Function.update_of_ne hc]
          exact queueOk_grow hg (h.queue c')
      · by_cases hc : c' = c
        · subst hc
          simp only [App.view, Function.update_self, App.applyAll_append]
          exact hx
        · simp only [App.view, Function.update_of_ne hc]
          exact D.grow_screen c' _ _ _ _ hg (h.screen c')
  | commit c =>
      obtain ⟨w, q, hq, rfl⟩ := App.step_commit_eq_some.mp hs
      have hc := h.queue c
      rw [hq] at hc
      refine ⟨D.apply _ _ w h.store hc.1, fun c' => ?_, fun c' => ?_⟩
      · by_cases hcc : c' = c
        · subst hcc
          simp only [Function.update_self]
          exact hc.2
        · simp only [Function.update_of_ne hcc]
          exact (queueOk_rely (D.commit s c c' w q hside hq hc.1 hcc) (h.queue c')).1
      · by_cases hcc : c' = c
        · subst hcc
          rw [App.view_commit hq]
          exact h.screen c'
        · simp only [App.view, Function.update_of_ne hcc]
          have hR := D.commit s c c' w q hside hq hc.1 hcc
          exact D.rely_nil c' _ _ _ _ (queueOk_rely hR (h.queue c')).2 (h.screen c')

/-- So does the refusal of a write that may be refused. -/
theorem inv_faultyStep {s s' : State C S W X G} {e : FaultyEvent C A} (hside : D.Side s)
    (h : D.Inv s) (hrefuse : ∀ c, e = .refuse c → D.Refusable s c)
    (hs : app.faultyStep s e = some s') : D.Inv s' := by
  cases e with
  | ok e => exact inv_step hside h hs
  | refuse c =>
      obtain ⟨w, q, hq, rfl⟩ := App.faultyStep_refuse_eq_some.mp hs
      have hc := h.queue c
      rw [hq] at hc
      have hR := queueOk_rely (D.refuse s c w q hq hc.1 (hrefuse c rfl)) hc.2
      refine ⟨h.store, fun c' => ?_, fun c' => ?_⟩
      · by_cases hcc : c' = c
        · subst hcc
          simp only [Function.update_self]
          exact hR.1
        · simp only [Function.update_of_ne hcc]
          exact h.queue c'
      · by_cases hcc : c' = c
        · subst hcc
          have hx := h.screen c'
          rw [App.view, hq, App.applyAll_cons] at hx
          simp only [App.view, Function.update_self]
          exact D.rely_nil c' _ _ _ _ hR.2 hx
        · simp only [App.view, Function.update_of_ne hcc]
          exact h.screen c'

end Discipline

end WriteQueue
