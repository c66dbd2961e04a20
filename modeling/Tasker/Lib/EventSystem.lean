import Mathlib.Tactic

/-!
Runs of partial event systems.

A system is a step function `step : σ → ε → Option σ`: the event `e` is enabled
at `s` when `step s e` is some state, and is the state it leads to. A run is a
list of events, executed from left to right.

* `exec`: the state a list of events leads to, `none` as soon as an event is
  not enabled; `exec_append` and `exec_concat` split a run.
* `exec_invariant`: the invariant rule; `exec_history` is the rule for what
  relates a run to the state it leads to. Along the runs whose steps meet a
  condition, `exec_invariant_of_eachStep` is the invariant rule, and
  `exec_rel_of_eachStep` lifts a preorder that every step respects.
* `exec_field`: what a field holds after a run that sets it now and then.
* `EachStep`, `EachState`: a condition met by every step of a run, with its
  state before the step, and a property of every state a run visits;
  `eachStep_cons_iff` and `eachState_cons_iff` take the first step off,
  `EachStep.decidable` decides the former, and `EachStep.imp`,
  `eachStep_iff_of_keeps`, `eachStep_congr`: a condition that follows from another,
  or agrees with it, under an invariant.
* `eachState_iff_eachStep`: if one step keeps the property exactly when it
  meets the condition, the runs that keep the property throughout are the runs
  whose steps all meet the condition; `exec_iff_eachStep` is the form for a
  property that is never regained.
* `exists_exec_of_eachStep`: a run whose steps meet a condition that enables them
  can be executed.
* `outputs`: what the steps of a run put out, in order; `EachStep.of_outputs`: a
  condition that follows from what is put out; `exec_fifo`: what leaves a
  queue in a run and what is left of it is what it had and what entered.
-/

namespace EventSystem

variable {σ ε : Type*} {step : σ → ε → Option σ}

/-- The state a list of events leads to, `none` as soon as an event is not
enabled. -/
def exec (step : σ → ε → Option σ) : σ → List ε → Option σ
  | s, [] => some s
  | s, e :: es => (step s e).bind fun s' => exec step s' es

@[simp] lemma exec_nil (s : σ) : exec step s [] = some s := rfl

lemma exec_cons (s : σ) (e : ε) (es : List ε) :
    exec step s (e :: es) = (step s e).bind fun s' => exec step s' es := rfl

/-- A nonempty run is a step followed by a run. -/
lemma exec_cons_eq_some {s s' : σ} {e : ε} {es : List ε} :
    exec step s (e :: es) = some s' ↔ ∃ t, step s e = some t ∧ exec step t es = some s' := by
  rw [exec_cons, Option.bind_eq_some_iff]

/-- Runs compose. -/
lemma exec_append (s : σ) (es fs : List ε) :
    exec step s (es ++ fs) = (exec step s es).bind fun t => exec step t fs := by
  induction es generalizing s with
  | nil => rfl
  | cons e es ih =>
      rw [List.cons_append, exec_cons, exec_cons, Option.bind_assoc]
      congr 1
      funext t
      exact ih t

lemma exec_append_eq_some {s s' : σ} {es fs : List ε} :
    exec step s (es ++ fs) = some s' ↔
      ∃ t, exec step s es = some t ∧ exec step t fs = some s' := by
  rw [exec_append, Option.bind_eq_some_iff]

/-- The last step of a run. -/
lemma exec_concat_eq_some {s s' : σ} {es : List ε} {e : ε} :
    exec step s (es ++ [e]) = some s' ↔
      ∃ t, exec step s es = some t ∧ step t e = some s' := by
  rw [exec_append_eq_some]
  refine exists_congr fun t => and_congr_right fun _ => ?_
  rw [exec_cons, Option.bind_eq_some_iff]
  simp

/-! ### Invariants -/

/-- The invariant rule: what every step keeps, every run keeps. -/
theorem exec_invariant {Inv : σ → Prop}
    (hstep : ∀ s e s', Inv s → step s e = some s' → Inv s')
    {s s' : σ} {es : List ε} (hs : Inv s) (h : exec step s es = some s') : Inv s' := by
  induction es generalizing s with
  | nil => exact Option.some.inj h ▸ hs
  | cons e es ih =>
      obtain ⟨t, ht, h'⟩ := exec_cons_eq_some.mp h
      exact ih (hstep s e t hs ht) h'

/-- What relates the empty run to the first state, and is kept when a step is
added, relates every run to the state it leads to. -/
theorem exec_history {R : List ε → σ → Prop} {s s' : σ} (hnil : R [] s)
    (hstep : ∀ es t e u, R es t → step t e = some u → R (es ++ [e]) u)
    {es : List ε} (h : exec step s es = some s') : R es s' := by
  induction es using List.reverseRecOn generalizing s' with
  | nil => exact Option.some.inj h ▸ hnil
  | append_singleton es e ih =>
      obtain ⟨t, ht, hs⟩ := exec_concat_eq_some.mp h
      exact hstep es t e s' (ih ht) hs

/-- **Fields that events set**: what some events set and the others leave alone
is after a run what the last of them has set, if setting it again leaves
nothing of what was set before. -/
theorem exec_field {τ β : Type*} {π : σ → τ} {f : ε → Option β} {g : τ → β → τ}
    (hg : ∀ a x y, g (g a x) y = g a y)
    (hstep : ∀ s e s', step s e = some s' → π s' = (f e).elim (π s) (g (π s)))
    {s s' : σ} {es : List ε} (h : exec step s es = some s') :
    π s' = (es.filterMap f).getLast?.elim (π s) (g (π s)) := by
  induction es generalizing s with
  | nil => exact congrArg π (Option.some.inj h).symm
  | cons e es ih =>
      obtain ⟨t, ht, h'⟩ := exec_cons_eq_some.mp h
      rw [ih h', hstep s e t ht]
      cases hfe : f e with
      | none => rw [List.filterMap_cons_none hfe, Option.elim_none]
      | some x =>
          rw [List.filterMap_cons_some hfe, List.getLast?_cons, Option.elim_some, Option.elim_some]
          cases (es.filterMap f).getLast? with
          | none => rfl
          | some y => exact hg _ _ _

/-! ### Conditions on the steps and properties of the states of a run -/

/-- Every step of the run meets the condition `C` on the state before it and
its event. -/
def EachStep (step : σ → ε → Option σ) (C : σ → ε → Prop) : σ → List ε → Prop
  | _, [] => True
  | s, e :: es => C s e ∧ ∀ s', step s e = some s' → EachStep step C s' es

/-- Every state the run visits has the property `P`, its first and its last
state included. -/
def EachState (step : σ → ε → Option σ) (P : σ → Prop) : σ → List ε → Prop
  | s, [] => P s
  | s, e :: es => P s ∧ ∀ s', step s e = some s' → EachState step P s' es

/-- The condition on a run whose first event leads to `t`. -/
lemma eachStep_cons_iff {C : σ → ε → Prop} {s t : σ} {e : ε} {es : List ε}
    (ht : step s e = some t) :
    EachStep step C s (e :: es) ↔ C s e ∧ EachStep step C t es := by
  refine and_congr_right fun _ => ⟨fun hall => hall t ht, fun hall u hu => ?_⟩
  obtain rfl := Option.some.inj (ht.symm.trans hu)
  exact hall

lemma eachState_cons_iff {P : σ → Prop} {s t : σ} {e : ε} {es : List ε}
    (ht : step s e = some t) :
    EachState step P s (e :: es) ↔ P s ∧ EachState step P t es := by
  refine and_congr_right fun _ => ⟨fun hall => hall t ht, fun hall u hu => ?_⟩
  obtain rfl := Option.some.inj (ht.symm.trans hu)
  exact hall

/-- A condition that the events meet in every state. -/
lemma eachStep_of_forall {C : σ → ε → Prop} {s : σ} {es : List ε} (h : ∀ s, ∀ e ∈ es, C s e) :
    EachStep step C s es := by
  induction es generalizing s with
  | nil => trivial
  | cons e es ih => exact ⟨h s e (by simp), fun _ _ => ih fun s e he => h s e (by simp [he])⟩

/-- Whether the steps of a run meet a decidable condition is decided by running
it. -/
instance EachStep.decidable {C : σ → ε → Prop} [∀ s e, Decidable (C s e)] :
    (s : σ) → (es : List ε) → Decidable (EachStep step C s es)
  | _, [] => isTrue trivial
  | s, e :: es =>
      match h : step s e with
      | none => decidable_of_iff (C s e) (by simp [EachStep, h])
      | some t =>
          have : Decidable (EachStep step C t es) := EachStep.decidable t es
          decidable_of_iff (C s e ∧ EachStep step C t es) (by simp [EachStep, h])

/-- A condition that follows from another one, under an invariant that this one
keeps. -/
lemma EachStep.imp {J : σ → Prop} {C D : σ → ε → Prop}
    (hJ : ∀ s e s', J s → C s e → step s e = some s' → J s')
    (hD : ∀ s e, J s → C s e → D s e) {s : σ} {es : List ε} (hs : J s)
    (h : EachStep step C s es) : EachStep step D s es := by
  induction es generalizing s with
  | nil => trivial
  | cons e es ih =>
      exact ⟨hD s e hs h.1, fun s' hs' => ih (hJ s e s' hs h.1 hs') (h.2 s' hs')⟩

/-- Two conditions that agree wherever an invariant holds are met by the same
runs of events that keep the invariant. -/
lemma eachStep_congr_of_forall {J : σ → Prop} {E : ε → Prop} {C C' : σ → ε → Prop}
    (hJ : ∀ s e s', J s → E e → step s e = some s' → J s')
    (hC : ∀ s e s', J s → E e → step s e = some s' → (C s e ↔ C' s e))
    {s s' : σ} {es : List ε} (hs : J s) (hE : ∀ e ∈ es, E e) (h : exec step s es = some s') :
    EachStep step C s es ↔ EachStep step C' s es := by
  induction es generalizing s with
  | nil => exact Iff.rfl
  | cons e es ih =>
      obtain ⟨t, ht, h'⟩ := exec_cons_eq_some.mp h
      have he : E e := hE e List.mem_cons_self
      have hrest := ih (hJ s e t hs he ht) (fun e' he' => hE e' (List.mem_cons_of_mem e he')) h'
      rw [eachStep_cons_iff ht, eachStep_cons_iff ht, hC s e t hs he ht, hrest]

/-- Two conditions that agree wherever an invariant holds are met by the same
runs. -/
lemma eachStep_congr {J : σ → Prop} {C C' : σ → ε → Prop}
    (hJ : ∀ s e s', J s → step s e = some s' → J s')
    (hC : ∀ s e s', J s → step s e = some s' → (C s e ↔ C' s e))
    {s s' : σ} {es : List ε} (hs : J s) (h : exec step s es = some s') :
    EachStep step C s es ↔ EachStep step C' s es :=
  eachStep_congr_of_forall (E := fun _ => True) (fun s e s' hs _ => hJ s e s' hs)
    (fun s e s' hs _ => hC s e s' hs) hs (fun _ _ => trivial) h

lemma EachState.head {P : σ → Prop} {s : σ} {es : List ε}
    (h : EachState step P s es) : P s := by
  cases es with
  | nil => exact h
  | cons e es => exact h.1

lemma EachState.last {P : σ → Prop} {s s' : σ} {es : List ε} (h : EachState step P s es)
    (hs : exec step s es = some s') : P s' := by
  induction es generalizing s with
  | nil => exact Option.some.inj hs ▸ h
  | cons e es ih =>
      obtain ⟨t, ht, h'⟩ := exec_cons_eq_some.mp hs
      exact ih (h.2 t ht) h'

lemma EachState.mono {P Q : σ → Prop} (hPQ : ∀ s, P s → Q s) {s : σ} {es : List ε}
    (h : EachState step P s es) : EachState step Q s es := by
  induction es generalizing s with
  | nil => exact hPQ s h
  | cons e es ih => exact ⟨hPQ s h.1, fun s' hs' => ih (h.2 s' hs')⟩

/-- The invariant rule along the runs whose steps meet a condition. -/
theorem exec_invariant_of_eachStep {Inv : σ → Prop} {C : σ → ε → Prop}
    (hstep : ∀ s e s', Inv s → C s e → step s e = some s' → Inv s')
    {s s' : σ} {es : List ε} (hs : Inv s) (hC : EachStep step C s es)
    (h : exec step s es = some s') : Inv s' := by
  induction es generalizing s with
  | nil => exact Option.some.inj h ▸ hs
  | cons e es ih =>
      obtain ⟨t, ht, h'⟩ := exec_cons_eq_some.mp h
      exact ih (hstep s e t hs hC.1 ht) (hC.2 t ht) h'

/-- A preorder that every step respects that meets a condition, from states with an
invariant, relates the ends of every run of such steps. -/
theorem exec_rel_of_eachStep {Inv : σ → Prop} {C : σ → ε → Prop} {R : σ → σ → Prop}
    (hrefl : ∀ s, R s s) (htrans : ∀ s t u, R s t → R t u → R s u)
    (hstep : ∀ s e s', Inv s → C s e → step s e = some s' → Inv s' ∧ R s s')
    {s s' : σ} {es : List ε} (hs : Inv s) (hC : EachStep step C s es)
    (h : exec step s es = some s') : R s s' := by
  induction es generalizing s with
  | nil => exact Option.some.inj h ▸ hrefl s
  | cons e es ih =>
      obtain ⟨t, ht, h'⟩ := exec_cons_eq_some.mp h
      obtain ⟨hinv, hrel⟩ := hstep s e t hs hC.1 ht
      exact htrans s t s' hrel (ih hinv (hC.2 t ht) h')

/-- If, under an invariant `J`, a step keeps `P` exactly when it meets `C`,
then the runs that keep `P` throughout are the runs whose steps all meet
`C`. -/
theorem eachState_iff_eachStep {J P : σ → Prop} {C : σ → ε → Prop}
    (hJ : ∀ s e s', J s → step s e = some s' → J s')
    (hP : ∀ s e s', J s → P s → step s e = some s' → (P s' ↔ C s e))
    {s s' : σ} {es : List ε} (hs : J s) (hPs : P s) (h : exec step s es = some s') :
    EachState step P s es ↔ EachStep step C s es := by
  induction es generalizing s with
  | nil => exact iff_of_true hPs trivial
  | cons e es ih =>
      obtain ⟨t, ht, h'⟩ := exec_cons_eq_some.mp h
      rw [eachState_cons_iff ht, eachStep_cons_iff ht, and_iff_right hPs, ← hP s e t hs hPs ht]
      constructor
      · exact fun hall => ⟨hall.head, (ih (hJ s e t hs ht) hall.head h').mp hall⟩
      · exact fun hall => (ih (hJ s e t hs ht) hall.1 h').mpr hall.2

/-- If, under an invariant `J`, a step leads to `P` exactly from `P` and by
meeting `C`, then a run leads to `P` exactly from `P` and by meeting `C` at
every step. -/
theorem exec_iff_eachStep {J P : σ → Prop} {C : σ → ε → Prop}
    (hJ : ∀ s e s', J s → step s e = some s' → J s')
    (hP : ∀ s e s', J s → step s e = some s' → (P s' ↔ P s ∧ C s e))
    {s s' : σ} {es : List ε} (hs : J s) (h : exec step s es = some s') :
    P s' ↔ P s ∧ EachStep step C s es := by
  induction es generalizing s with
  | nil => rw [Option.some.inj h]; exact (and_iff_left trivial).symm
  | cons e es ih =>
      obtain ⟨t, ht, h'⟩ := exec_cons_eq_some.mp h
      rw [ih (hJ s e t hs ht) h', hP s e t hs ht, eachStep_cons_iff ht, and_assoc]

/-- A run whose steps meet a condition that enables them, under an invariant that
they keep. -/
theorem exists_exec_of_eachStep {Inv : σ → Prop} {C : σ → ε → Prop}
    (hstep : ∀ s e, Inv s → C s e → ∃ s', step s e = some s' ∧ Inv s')
    {s : σ} {es : List ε} (hs : Inv s) (hC : EachStep step C s es) :
    ∃ s', exec step s es = some s' ∧ Inv s' := by
  induction es generalizing s with
  | nil => exact ⟨s, rfl, hs⟩
  | cons e es ih =>
      obtain ⟨t, ht, hinv⟩ := hstep s e hs hC.1
      obtain ⟨s', hs', hinv'⟩ := ih hinv (hC.2 t ht)
      exact ⟨s', exec_cons_eq_some.mpr ⟨t, ht, hs'⟩, hinv'⟩

/-! ### What a run puts out -/

section

variable {β : Type*}

/-- What the steps of a run put out, one after the other. -/
def outputs (step : σ → ε → Option σ) (out : σ → ε → List β) : σ → List ε → List β
  | _, [] => []
  | s, e :: es => out s e ++ (step s e).elim [] fun s' => outputs step out s' es

lemma outputs_cons {out : σ → ε → List β} {s t : σ} {e : ε} {es : List ε}
    (ht : step s e = some t) :
    outputs step out s (e :: es) = out s e ++ outputs step out t es := by
  rw [outputs, ht, Option.elim_some]

/-- **Queues**: if in every step what leaves followed by what stays is what was
there followed by what enters, then so it is in every run. -/
theorem exec_fifo {Inv : σ → Prop} {C : σ → ε → Prop} {queue : σ → List β}
    {left entered : σ → ε → List β}
    (hinv : ∀ s e s', Inv s → C s e → step s e = some s' → Inv s')
    (hstep : ∀ s e s', Inv s → C s e → step s e = some s' →
      left s e ++ queue s' = queue s ++ entered s e)
    {s s' : σ} {es : List ε} (hs : Inv s) (hC : EachStep step C s es)
    (h : exec step s es = some s') :
    outputs step left s es ++ queue s' = queue s ++ outputs step entered s es := by
  induction es generalizing s with
  | nil => rw [Option.some.inj h, outputs, outputs, List.nil_append, List.append_nil]
  | cons e es ih =>
      obtain ⟨t, ht, h'⟩ := exec_cons_eq_some.mp h
      calc outputs step left s (e :: es) ++ queue s'
          = left s e ++ (outputs step left t es ++ queue s') := by
            rw [outputs_cons ht, List.append_assoc]
        _ = left s e ++ (queue t ++ outputs step entered t es) := by
            rw [ih (hinv s e t hs hC.1 ht) (hC.2 t ht) h']
        _ = queue s ++ outputs step entered s (e :: es) := by
            rw [← List.append_assoc, hstep s e t hs hC.1 ht, outputs_cons ht, List.append_assoc]

end

end EventSystem
