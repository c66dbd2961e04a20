import Tasker.Lib.EventSystem

/-!
A page on the main thread of an app.

The handlers of a page run one after the other. Each may change the page, start
requests, which are answered in any order and as late as can be, and queue
blocks, which run in the order in which they were queued.

* `State`: the page, the requests in flight and the blocks in the queue;
  `State.andThen` adds what a handler leaves behind.
* `Handlers`, `step`: what the handlers do, and one event.
* `step_act`, `step_answer`, `step_block`: the three kinds of events.
* `Idle`: nothing is in flight and nothing is queued.
-/

namespace MainQueue

open EventSystem

variable {σ ρ β ι α : Type*}

/-- The page, the requests in flight, and the blocks in the queue; also what a
handler leaves behind. -/
structure State (σ ρ β : Type*) where
  page : σ
  requests : List ρ := []
  blocks : List β := []

/-- What a handler leaves behind is added to what was there. -/
def State.andThen (s t : State σ ρ β) : State σ ρ β where
  page := t.page
  requests := s.requests ++ t.requests
  blocks := s.blocks ++ t.blocks

@[simp] lemma State.andThen_page (s t : State σ ρ β) : (s.andThen t).page = t.page := rfl

@[simp] lemma State.andThen_requests (s t : State σ ρ β) :
    (s.andThen t).requests = s.requests ++ t.requests := rfl

@[simp] lemma State.andThen_blocks (s t : State σ ρ β) :
    (s.andThen t).blocks = s.blocks ++ t.blocks := rfl

/-- Nothing is in flight and nothing is queued. -/
def State.Idle (s : State σ ρ β) : Prop := s.requests = [] ∧ s.blocks = []

/-- What can happen: an action of the user, the answer to a request, or the run
of the next block. -/
inductive Event (ρ ι α : Type*) where
  | act (a : ι)
  | answer (r : ρ) (a : α)
  | block
  deriving DecidableEq, Repr

/-- The handlers of a page; `none` if a handler does not apply, or traps. -/
structure Handlers (σ ρ β ι α : Type*) where
  act : σ → ι → Option (State σ ρ β)
  callback : σ → ρ → α → Option (State σ ρ β)
  block : σ → β → Option (State σ ρ β)

variable [DecidableEq ρ]

/-- One event. -/
def step (h : Handlers σ ρ β ι α) (s : State σ ρ β) : Event ρ ι α → Option (State σ ρ β)
  | .act a => (h.act s.page a).map s.andThen
  | .answer r a =>
      if r ∈ s.requests then
        (h.callback s.page r a).map ({ s with requests := s.requests.erase r } : State σ ρ β).andThen
      else none
  | .block =>
      match s.blocks with
      | [] => none
      | b :: bs => (h.block s.page b).map ({ s with blocks := bs } : State σ ρ β).andThen

variable {h : Handlers σ ρ β ι α} {s s' : State σ ρ β}

/-- An action. -/
lemma step_act {a : ι} :
    step h s (.act a) = some s' ↔ ∃ t, h.act s.page a = some t ∧ s' = s.andThen t := by
  rw [step, Option.map_eq_some_iff]
  exact exists_congr fun t => and_congr_right fun _ => eq_comm

/-- An answer. -/
lemma step_answer {r : ρ} {a : α} :
    step h s (.answer r a) = some s' ↔ r ∈ s.requests ∧ ∃ t, h.callback s.page r a = some t ∧
      s' = ({ s with requests := s.requests.erase r } : State σ ρ β).andThen t := by
  rw [step, Option.ite_none_right_eq_some, Option.map_eq_some_iff]
  exact and_congr_right fun _ => exists_congr fun t => and_congr_right fun _ => eq_comm

/-- The run of a block. -/
lemma step_block :
    step h s .block = some s' ↔ ∃ b bs t, s.blocks = b :: bs ∧ h.block s.page b = some t ∧
      s' = ({ s with blocks := bs } : State σ ρ β).andThen t := by
  rw [step]
  cases hblocks : s.blocks with
  | nil => simp
  | cons b bs =>
      simp only [Option.map_eq_some_iff, List.cons.injEq]
      constructor
      · rintro ⟨t, ht, rfl⟩
        exact ⟨b, bs, t, ⟨rfl, rfl⟩, ht, rfl⟩
      · rintro ⟨b', bs', t, ⟨rfl, rfl⟩, ht, rfl⟩
        exact ⟨t, ht, rfl⟩

end MainQueue
