import Tasker.Market.System

/-!
The life of a task.

* `Later`: how a task may change: the fields it was posted with are kept, a flag
  that is set stays set, an accepted task stays accepted.
* `LifeWrite`: the writes of tasks are posts under new ids, flags of accepted
  tasks, and acceptances. The flag of a payment or of a rating comes from a row
  that had an employee when it was read; the row may be old, but no write takes
  the employee away, and a pending acceptance is committed before the flag that
  follows it.
* `Uses`, `LifeRely`: what a device relies on are the tasks that its pages show and
  those it has flags queued for.
* `lifecycle`: the discipline of these writes.
* `lifecycle_of_refusedUnseen`: posted fields are kept, flags and acceptances
  persist, and a flag implies an employee, if no post or acceptance is refused that
  its own device relies on; `payingRefused_unaccepted` is a run in which one is.
* `employee_eq_last_accepted`: the employee of an accepted task is the one whose
  acceptance was committed last; `accepted_twice` is a run in which a second
  employee takes the task over.
-/

namespace Tasker.Market

open DocStore EventSystem WriteQueue

/-- The task has an employee. -/
def Accepted (d : TaskDoc) : Prop := ∃ e, d.employeeID = some e ∧ e ≠ ""

/-- The document has the fields the task was posted with. -/
structure PostedAs (t : Errand) (d : TaskDoc) : Prop where
  title : d.title = some t.title
  category : d.category = some t.category
  taskDescription : d.taskDescription = some t.taskDescription
  price : d.price = t.price
  negotiable : d.negotiable = t.negotiable
  location : d.location = t.location
  clientID : d.clientID = t.clientID

/-- How a document may change: the posted fields are kept, flags and the
acceptance persist. -/
structure Later (d d' : TaskDoc) : Prop where
  posted : ∀ t, PostedAs t d → PostedAs t d'
  hasPaid : d.hasPaid = some true → d'.hasPaid = some true
  employeeRated : d.employeeRated = some true → d'.employeeRated = some true
  accepted : Accepted d → Accepted d'

lemma Later.refl (d : TaskDoc) : Later d d := ⟨fun _ h => h, id, id, id⟩

lemma Later.trans {d d' d'' : TaskDoc} (h : Later d d') (h' : Later d' d'') : Later d d'' :=
  ⟨fun t ht => h'.posted t (h.posted t ht), h'.hasPaid ∘ h.hasPaid,
    h'.employeeRated ∘ h.employeeRated, h'.accepted ∘ h.accepted⟩

/-- A set flag implies an employee. -/
def FlagsOk (d : TaskDoc) : Prop :=
  d.hasPaid = some true ∨ d.employeeRated = some true → Accepted d

/-! ### The fields that are written -/

/-- The fields of a payment or a rating. -/
def FlagFields (f : TaskDoc) : Prop :=
  f = { hasPaid := some true } ∨ f = { employeeRated := some true }

/-- The fields of an acceptance. -/
def AcceptFields (f : TaskDoc) : Prop := ∃ u, u ≠ "" ∧ f = { employeeID := some u }

/-- The fields of a new task. -/
structure NewFields (t : Errand) (f : TaskDoc) : Prop where
  eq : f = t.encode
  employeeID : f.employeeID = some ""
  hasPaid : f.hasPaid = some false
  employeeRated : f.employeeRated = some false

lemma FlagFields.accepted {f d : TaskDoc} (hf : FlagFields f) :
    Accepted (f.over d) ↔ Accepted d := by
  rcases hf with rfl | rfl <;> simp [Accepted, TaskDoc.over]

lemma AcceptFields.accepted {f : TaskDoc} (hf : AcceptFields f) (d : TaskDoc) :
    Accepted (f.over d) := by
  obtain ⟨u, hu, rfl⟩ := hf
  exact ⟨u, rfl, hu⟩

/-- Neither brings a posted field. -/
lemma posted_over {f d : TaskDoc} (hf : FlagFields f ∨ AcceptFields f) {t : Errand} :
    PostedAs t (f.over d) ↔ PostedAs t d := by
  have hsame : (f.over d).title = d.title ∧ (f.over d).category = d.category ∧
      (f.over d).taskDescription = d.taskDescription ∧ (f.over d).price = d.price ∧
      (f.over d).negotiable = d.negotiable ∧ (f.over d).location = d.location ∧
      (f.over d).clientID = d.clientID := by
    rcases hf with (rfl | rfl) | ⟨u, -, rfl⟩ <;> simp [TaskDoc.over]
  obtain ⟨h₁, h₂, h₃, h₄, h₅, h₆, h₇⟩ := hsame
  constructor
  · rintro ⟨p₁, p₂, p₃, p₄, p₅, p₆, p₇⟩
    exact ⟨h₁ ▸ p₁, h₂ ▸ p₂, h₃ ▸ p₃, h₄ ▸ p₄, h₅ ▸ p₅, h₆ ▸ p₆, h₇ ▸ p₇⟩
  · rintro ⟨p₁, p₂, p₃, p₄, p₅, p₆, p₇⟩
    exact ⟨h₁.trans p₁, h₂.trans p₂, h₃.trans p₃, h₄.trans p₄, h₅.trans p₅, h₆.trans p₆,
      h₇.trans p₇⟩

/-- Both persist what has to persist. -/
lemma later_over {f : TaskDoc} (hf : FlagFields f ∨ AcceptFields f) (d : TaskDoc) :
    Later d (f.over d) := by
  refine ⟨fun t ht => (posted_over hf).mpr ht, fun h => ?_, fun h => ?_, fun h => ?_⟩
  · rcases hf with (rfl | rfl) | ⟨u, -, rfl⟩ <;> simp [TaskDoc.over, h]
  · rcases hf with (rfl | rfl) | ⟨u, -, rfl⟩ <;> simp [TaskDoc.over, h]
  · rcases hf with hf | hf
    · exact hf.accepted.mpr h
    · exact hf.accepted d

/-! ### The writes -/

/-- The document `id` is stored and accepted. -/
def AcceptedIn (st : Store) (id : String) : Prop :=
  ∃ d, st.tasks.lookup id = some d ∧ Accepted d

/-- Every task was posted, with the fields it has, and its flags imply an
employee. -/
def LifeOk (g : Posted) (st : Store) : Prop :=
  AllDocs (fun id d => (∃ t, g.lookup id = some t ∧ PostedAs t d) ∧ FlagsOk d) st.tasks

/-- A post under a new id, a flag of an accepted task, or an acceptance. -/
def LifeWrite (g : Posted) (st : Store) : Write → Prop
  | .addTask id f => st.tasks.lookup id = none ∧ ∃ t, g.lookup id = some t ∧ NewFields t f
  | .mergeTask id f => AcceptedIn st id ∧ FlagFields f
  | .updateTask _ f => AcceptFields f
  | _ => True

/-- Every task of the first store is a later one in the second. -/
def TasksLe (st st' : Store) : Prop :=
  ∀ id d, st.tasks.lookup id = some d → ∃ d', st'.tasks.lookup id = some d' ∧ Later d d'

lemma TasksLe.refl (st : Store) : TasksLe st st := fun _ d hd => ⟨d, hd, Later.refl d⟩

lemma TasksLe.trans {st st' st'' : Store} (h : TasksLe st st') (h' : TasksLe st' st'') :
    TasksLe st st'' := by
  intro id d hd
  obtain ⟨d', hd', hlater⟩ := h id d hd
  obtain ⟨d'', hd'', hlater'⟩ := h' id d' hd'
  exact ⟨d'', hd'', hlater.trans hlater'⟩

lemma TasksLe.acceptedIn {st st' : Store} (h : TasksLe st st') {id : String}
    (ha : AcceptedIn st id) : AcceptedIn st' id := by
  obtain ⟨d, hd, hacc⟩ := ha
  obtain ⟨d', hd', hlater⟩ := h id d hd
  exact ⟨d', hd', hlater.accepted hacc⟩

/-- A write on a stored task lays fields over it. -/
lemma lookup_mergeTask {st : Store} {id id' : String} {f d : TaskDoc}
    (hd : st.tasks.lookup id = some d) :
    (Write.apply (.mergeTask id f) st).tasks.lookup id' =
      if id' = id then some (f.over d) else st.tasks.lookup id' := by
  rw [mergeTask_tasks, lookup_mergeData, hd]
  rfl

lemma lookup_updateTask (st : Store) (id id' : String) (f : TaskDoc) :
    (Write.apply (.updateTask id f) st).tasks.lookup id' =
      if id' = id then (st.tasks.lookup id).map f.over else st.tasks.lookup id' := by
  rw [updateTask_tasks, lookup_updateData]
  rfl

/-- A write only moves tasks forward. -/
lemma LifeWrite.tasksLe {g : Posted} {st : Store} {w : Write} (hw : LifeWrite g st w) :
    TasksLe st (w.apply st) := by
  intro id d hd
  cases w with
  | addTask id' f =>
      have hne : id ≠ id' := by
        rintro rfl
        exact absurd (hw.1.symm.trans hd) (by simp)
      exact ⟨d, by rw [addTask_tasks, lookup_setData_ne hne, hd], Later.refl d⟩
  | mergeTask id' f =>
      obtain ⟨⟨d', hd', -⟩, hf⟩ := hw
      by_cases hid : id = id'
      · subst hid
        exact ⟨f.over d, by rw [lookup_mergeTask hd, if_pos rfl], later_over (Or.inl hf) d⟩
      · exact ⟨d, by rw [lookup_mergeTask hd', if_neg hid, hd], Later.refl d⟩
  | updateTask id' f =>
      by_cases hid : id = id'
      · subst hid
        exact ⟨f.over d, by rw [lookup_updateTask, if_pos rfl, hd]; rfl, later_over (Or.inr hw) d⟩
      · exact ⟨d, by rw [lookup_updateTask, if_neg hid, hd], Later.refl d⟩
  | setUser u f => exact ⟨d, hd, Later.refl d⟩
  | mergeUser u f => exact ⟨d, hd, Later.refl d⟩
  | updateUser u f => exact ⟨d, hd, Later.refl d⟩

/-- Only a post adds a document. -/
lemma LifeWrite.lookup_eq_none {g : Posted} {st : Store} {w : Write} (hw : LifeWrite g st w)
    {id : String} (hid : ∀ f, w ≠ .addTask id f) (h : st.tasks.lookup id = none) :
    (w.apply st).tasks.lookup id = none := by
  cases w with
  | addTask id' f =>
      have hne : id ≠ id' := by
        rintro rfl
        exact hid f rfl
      rw [addTask_tasks, lookup_setData_ne hne, h]
  | mergeTask id' f =>
      obtain ⟨⟨d', hd', -⟩, -⟩ := hw
      have hne : id ≠ id' := by
        rintro rfl
        exact absurd (h.symm.trans hd') (by simp)
      rw [lookup_mergeTask hd', if_neg hne, h]
  | updateTask id' f =>
      rw [lookup_updateTask]
      split
      · next heq => rw [← heq, h]; rfl
      · exact h
  | setUser u f => exact h
  | mergeUser u f => exact h
  | updateUser u f => exact h

lemma LifeOk.apply {g : Posted} {st : Store} (h : LifeOk g st) {w : Write}
    (hw : LifeWrite g st w) : LifeOk g (w.apply st) := by
  cases w with
  | addTask id f =>
      obtain ⟨-, t, ht, hnew⟩ := hw
      refine h.setData ⟨⟨t, ht, ?_⟩, fun hflag => ?_⟩
      · rw [hnew.eq]
        exact ⟨rfl, rfl, rfl, rfl, rfl, rfl, rfl⟩
      · simp [hnew.hasPaid, hnew.employeeRated] at hflag
  | mergeTask id f =>
      obtain ⟨⟨d', hd', hacc⟩, hf⟩ := hw
      refine h.mergeData (fun hnone => absurd (hnone.symm.trans hd') (by simp)) ?_
      rintro d hd ⟨⟨t, ht, hposted⟩, -⟩
      obtain rfl : d' = d := Option.some.inj (hd'.symm.trans hd)
      exact ⟨⟨t, ht, (posted_over (Or.inl hf)).mpr hposted⟩, fun _ => hf.accepted.mpr hacc⟩
  | updateTask id f =>
      refine h.updateData ?_
      rintro d hd ⟨⟨t, ht, hposted⟩, -⟩
      exact ⟨⟨t, ht, (posted_over (Or.inr hw)).mpr hposted⟩, fun _ => hw.accepted d⟩
  | setUser u f => exact h
  | mergeUser u f => exact h
  | updateUser u f => exact h

/-! ### What others and refusals may do -/

/-- The pages of a device show the task. -/
def Shown (x : Screens) (id : String) : Prop :=
  (∃ vc ∈ x.recent, ∃ task ∈ vc.recentTasks, task.docID = some id) ∨
    (∃ vc ∈ x.rate, vc.docID = id) ∨ ∃ vc ∈ x.pay, vc.docID = id

/-- The task whose flag a write sets. -/
def flagged : Write → Option String
  | .mergeTask id _ => some id
  | _ => none

/-- The task that a write posts or accepts. -/
def postedOrAccepted : Write → Option String
  | .addTask id _ => some id
  | .updateTask id _ => some id
  | _ => none

/-- A device shows the task, or has a flag of it queued. -/
def Uses (x : Screens) (q : List Write) (id : String) : Prop :=
  Shown x id ∨ ∃ w ∈ q, flagged w = some id

lemma Uses.cons {x : Screens} {q : List Write} {id : String} (h : Uses x q id) (w : Write) :
    Uses x (w :: q) id :=
  h.imp_right fun ⟨w', hw', hid⟩ => ⟨w', List.mem_cons_of_mem w hw', hid⟩

/-- The tasks in use stay stored and accepted, and the ids of queued posts stay
new. -/
structure LifeRely (x : Screens) (q : List Write) (st st' : Store) : Prop where
  stored : ∀ id, Uses x q id → st.tasks.lookup id ≠ none → st'.tasks.lookup id ≠ none
  accepted : ∀ id, Uses x q id → AcceptedIn st id → AcceptedIn st' id
  fresh : ∀ id f, .addTask id f ∈ q → st.tasks.lookup id = none → st'.tasks.lookup id = none

/-- What moves tasks forward may happen under a device. -/
lemma TasksLe.lifeRely {st st' : Store} (h : TasksLe st st') {x : Screens} {q : List Write}
    (hfresh : ∀ id f, .addTask id f ∈ q → st.tasks.lookup id = none →
      st'.tasks.lookup id = none) : LifeRely x q st st' where
  stored id _ hne := by
    obtain ⟨d, hd⟩ := Option.ne_none_iff_exists'.mp hne
    obtain ⟨d', hd', -⟩ := h id d hd
    simp [hd']
  accepted id _ := h.acceptedIn
  fresh := hfresh

/-- A queued write stays fit. -/
lemma LifeRely.lifeWrite {g : Posted} {x : Screens} {w : Write} {q : List Write} {st st' : Store}
    (h : LifeRely x (w :: q) st st') (hw : LifeWrite g st w) : LifeWrite g st' w := by
  cases w with
  | addTask id f => exact ⟨h.fresh id f (by simp) hw.1, hw.2⟩
  | mergeTask id f => exact ⟨h.accepted id (Or.inr ⟨.mergeTask id f, by simp, rfl⟩) hw.1, hw.2⟩
  | updateTask id f => exact hw
  | setUser u f => trivial
  | mergeUser u f => trivial
  | updateUser u f => trivial

/-- A document is stored after a write if it was before, or is written anew. -/
lemma lookup_apply_ne_none {g : Posted} {st : Store} {w : Write} (hw : LifeWrite g st w)
    {id : String} : (w.apply st).tasks.lookup id ≠ none ↔
      st.tasks.lookup id ≠ none ∨ ∃ f, w = .addTask id f := by
  constructor
  · intro hne
    by_contra hnot
    push Not at hnot
    exact hne (hw.lookup_eq_none hnot.2 hnot.1)
  · rintro (hne | ⟨f, rfl⟩)
    · obtain ⟨d, hd⟩ := Option.ne_none_iff_exists'.mp hne
      obtain ⟨d', hd', -⟩ := hw.tasksLe id d hd
      simp [hd']
    · simp

/-- A task is accepted after a write if it was before, or the write accepts
it. -/
lemma acceptedIn_apply {g : Posted} {st : Store} {w : Write} (hw : LifeWrite g st w)
    {id : String} : AcceptedIn (w.apply st) id ↔
      AcceptedIn st id ∨ st.tasks.lookup id ≠ none ∧ ∃ f, w = .updateTask id f := by
  constructor
  · rintro ⟨d, hd, hacc⟩
    cases w with
    | addTask id' f =>
        rw [addTask_tasks, lookup_setData] at hd
        split at hd
        · obtain ⟨-, t, -, hnew⟩ := hw
          obtain ⟨e, he, hne⟩ := hacc
          rw [← Option.some.inj hd, hnew.employeeID] at he
          exact absurd (Option.some.inj he).symm hne
        · exact Or.inl ⟨d, hd, hacc⟩
    | mergeTask id' f =>
        obtain ⟨⟨d', hd', hacc'⟩, -⟩ := hw
        rw [lookup_mergeTask hd'] at hd
        split at hd
        · next heq => exact Or.inl (heq ▸ ⟨d', hd', hacc'⟩)
        · exact Or.inl ⟨d, hd, hacc⟩
    | updateTask id' f =>
        rw [lookup_updateTask] at hd
        split at hd
        · next heq =>
            subst heq
            obtain ⟨d', hd', -⟩ := Option.map_eq_some_iff.mp hd
            exact Or.inr ⟨by simp [hd'], f, rfl⟩
        · exact Or.inl ⟨d, hd, hacc⟩
    | setUser u f => exact Or.inl ⟨d, hd, hacc⟩
    | mergeUser u f => exact Or.inl ⟨d, hd, hacc⟩
    | updateUser u f => exact Or.inl ⟨d, hd, hacc⟩
  · rintro (hacc | ⟨hne, f, rfl⟩)
    · exact hw.tasksLe.acceptedIn hacc
    · obtain ⟨d, hd⟩ := Option.ne_none_iff_exists'.mp hne
      exact ⟨f.over d, by rw [lookup_updateTask, if_pos rfl, hd]; rfl, AcceptFields.accepted hw d⟩

/-- A queued write stays fit, and what it leaves is related as before. -/
lemma LifeRely.cons {g : Posted} {x : Screens} {w : Write} {q : List Write} {st st' : Store}
    (h : LifeRely x (w :: q) st st') (hw : LifeWrite g st w) :
    LifeWrite g st' w ∧ LifeRely x q (w.apply st) (w.apply st') := by
  have hw' := h.lifeWrite hw
  refine ⟨hw', fun id hid => ?_, fun id hid => ?_, fun id f hf hnone => ?_⟩
  · rw [lookup_apply_ne_none hw, lookup_apply_ne_none hw']
    exact Or.imp_left (h.stored id (hid.cons w))
  · rw [acceptedIn_apply hw, acceptedIn_apply hw']
    exact Or.imp (h.accepted id (hid.cons w)) (And.imp_left (h.stored id (hid.cons w)))
  · -- an id that is new after the write was new before it
    have hnot := mt (lookup_apply_ne_none hw).mpr (not_not.mpr hnone)
    push Not at hnot
    exact hw'.lookup_eq_none hnot.2 (h.fresh id f (by simp [hf]) hnot.1)

/-- A refused write leaves what is in use stored and accepted, if it does not post
or accept it. -/
lemma LifeWrite.lifeRely_refuse {g : Posted} {st : Store} {w : Write} (hw : LifeWrite g st w)
    {x : Screens} {q : List Write}
    (hunseen : ∀ id, postedOrAccepted w = some id → Uses x q id → AcceptedIn st id) :
    LifeRely x q (w.apply st) st where
  stored id hid := by
    rw [lookup_apply_ne_none hw]
    rintro (hne | ⟨f, rfl⟩)
    · exact hne
    · obtain ⟨d, hd, -⟩ := hunseen id rfl hid
      simp [hd]
  accepted id hid := by
    rw [acceptedIn_apply hw]
    rintro (hacc | ⟨-, f, rfl⟩)
    · exact hacc
    · exact hunseen id rfl hid
  fresh id f _ hnone := by
    have hnot := mt (lookup_apply_ne_none hw).mpr (not_not.mpr hnone)
    push Not at hnot
    exact hnot.1

/-! ### Pages -/

/-- The rows of Recent Tasks, and the pages opened from them, are for accepted
tasks. -/
structure LifeScreens (u : Uid) (st : Store) (x : Screens) : Prop where
  accept : ∀ vc ∈ x.accept, vc.userID = some u.1
  recent : ∀ vc ∈ x.recent, ∀ task ∈ vc.recentTasks, ∀ id, task.docID = some id →
    AcceptedIn st id
  rate : ∀ vc ∈ x.rate, vc.clientID = "" ∧ AcceptedIn st vc.docID
  pay : ∀ vc ∈ x.pay, AcceptedIn st vc.docID

lemma LifeScreens.rely {u : Uid} {st st' : Store} {x : Screens} (hx : LifeScreens u st x)
    (h : LifeRely x [] st st') : LifeScreens u st' x where
  accept := hx.accept
  recent vc hvc task ht id hid :=
    h.accepted id (Or.inl (Or.inl ⟨vc, hvc, task, ht, hid⟩)) (hx.recent vc hvc task ht id hid)
  rate vc hvc := ⟨(hx.rate vc hvc).1,
    h.accepted _ (Or.inl (Or.inr (Or.inl ⟨vc, hvc, rfl⟩))) (hx.rate vc hvc).2⟩
  pay vc hvc := h.accepted _ (Or.inl (Or.inr (Or.inr ⟨vc, hvc, rfl⟩))) (hx.pay vc hvc)

lemma LifeScreens.mono {u : Uid} {st st' : Store} {x : Screens} (hx : LifeScreens u st x)
    (h : TasksLe st st') : LifeScreens u st' x :=
  hx.rely (h.lifeRely (by simp))

/-- A posted task is new. -/
lemma newFields_of_post {form : ListTaskViewController} {page : SubmitTaskViewController}
    {now : ℤ} {task : Errand} (hpage : page.task = form.navigateToSubmitVC)
    (hpost : (page.postTaskButtonPressed now).2 = some task) : NewFields task task.encode := by
  rw [postTaskButtonPressed_eq_some hpage hpost]
  exact ⟨rfl, rfl, rfl, rfl⟩

variable {C : Type*} (uid : C → Uid)

/-- The writes an action issues are fit, one after the other, and the pages it
leaves are for accepted tasks. -/
lemma Effect.life {u : Uid} {g g' : Posted} {x x' : Screens} {v : Store} {ws : List Write}
    (h : Effect u g x v g' x' ws) (hv : LifeOk g v) (hx : LifeScreens u v x) :
    (app uid).QueueOk (LifeWrite g') v ws ∧ LifeScreens u v x' := by
  have hrate : ∀ vc ∈ x'.rate, vc.clientID = "" ∧ AcceptedIn v vc.docID :=
    h.forall_rate (P := fun _ c id => c = "" ∧ AcceptedIn v id) hx.rate
      fun page hpage task ht _ id _ hid => ⟨rfl, hx.recent page hpage task ht id hid⟩
  cases h with
  | idle => exact ⟨trivial, hx⟩
  | own w hw => cases hw <;> exact ⟨⟨trivial, trivial⟩, hx⟩
  | home vc _ => exact ⟨trivial, { hx with }⟩
  | post id form task hnew htask =>
      obtain ⟨page, now, -, hpage, hpost⟩ := htask
      refine ⟨⟨⟨?_, task, by simp, newFields_of_post hpage hpost⟩, trivial⟩, hx⟩
      by_contra hne
      obtain ⟨d, hd⟩ := Option.ne_none_iff_exists'.mp hne
      obtain ⟨⟨t, ht, -⟩, -⟩ := hv id d hd
      exact absurd (hnew.symm.trans ht) (by simp)
  | openExplore vc _ => exact ⟨trivial, { hx with }⟩
  | selectTask vc hvc _ =>
      exact ⟨trivial, { hx with accept := forall_mem_opened hx.accept hvc }⟩
  | accept vc u' hvc hu =>
      obtain rfl : u.1 = u' := Option.some.inj ((hx.accept vc hvc).symm.trans hu)
      exact ⟨⟨⟨u.1, u.2, rfl⟩, trivial⟩, hx⟩
  | openRecent =>
      refine ⟨trivial,
        { hx with recent := forall_mem_opened hx.recent fun task ht id hid => ?_ }⟩
      obtain ⟨id', d, e, hd, he, hne, -, hid', -⟩ :=
        RecentTasksTableViewController.mem_recentTasks ht
      obtain rfl : id' = id := Option.some.inj (hid'.symm.trans hid)
      exact ⟨d, hd, e, he, hne⟩
  | openRate page task e id _ _ _ _ => exact ⟨trivial, { hx with rate := hrate }⟩
  | loadRate page vc vc' answered _ _ => exact ⟨trivial, { hx with rate := hrate }⟩
  | star page vc c tag _ => exact ⟨trivial, { hx with rate := hrate }⟩
  | complete page vc hmem =>
      obtain ⟨hclient, hacc⟩ := hx.rate vc hmem
      refine ⟨?_, { hx with rate := hrate }⟩
      rw [RateUserViewController.completeButtonTapped_writes hclient]
      split
      · exact ⟨trivial, ⟨hacc, Or.inr rfl⟩, trivial⟩
      · trivial
  | openPay page task id hpage htask hid =>
      have hpay := forall_mem_opened hx.pay (hx.recent page hpage task htask id hid)
      exact ⟨trivial, { hx with pay := hpay }⟩
  | confirmPay vc hvc => exact ⟨⟨⟨hx.pay vc hvc, Or.inl rfl⟩, trivial⟩, hx⟩

lemma tasksLe_applyAll {g : Posted} {st : Store} {ws : List Write}
    (h : (app uid).QueueOk (LifeWrite g) st ws) : TasksLe st ((app uid).applyAll ws st) := by
  induction ws generalizing st with
  | nil => exact TasksLe.refl st
  | cons w ws ih => exact (LifeWrite.tasksLe h.1).trans (ih h.2)

/-- The post or acceptance refused is of a task that its device neither shows nor
has flagged, or that has an employee. -/
def RefusedUnseen {C : Type*} (s : State C Store Write Screens Posted) :
    FaultyEvent C Action → Prop
  | .refuse c => ∀ w ∈ (s.queue c).head?, ∀ id ∈ postedOrAccepted w,
      Uses (s.screen c) (s.queue c).tail id → AcceptedIn s.store id
  | .ok _ => True

/-- Posts under new ids, flags of accepted tasks, acceptances; others move tasks
forward meanwhile, and what is refused is not in use. -/
def lifecycle : Discipline (app uid) where
  StoreOk g st := LifeOk g st
  WriteOk g st w := LifeWrite g st w
  ScreenOk c _ st x := LifeScreens (uid c) st x
  Grow := Grow
  Rely := LifeRely
  Side := Fresh
  Refusable s c := RefusedUnseen s (.refuse c)
  grow_store _ _ _ hg h id d hd := by
    obtain ⟨⟨t, ht, hposted⟩, hflags⟩ := h id d hd
    exact ⟨⟨t, hg id t ht, hposted⟩, hflags⟩
  grow_write _ _ _ w hg hw := by
    cases w with
    | addTask id f =>
        obtain ⟨hnone, t, ht, hnew⟩ := hw
        exact ⟨hnone, t, hg id t ht, hnew⟩
    | _ => exact hw
  grow_screen _ _ _ _ _ _ h := h
  apply _ _ _ h hw := h.apply hw
  rely_cons _ _ _ _ _ _ hR hw := hR.cons hw
  rely_nil _ _ _ _ _ hR h := h.rely hR
  act c g v x a g' x' ws hv hx h := by
    obtain ⟨hws, hx'⟩ := (effect_of_act h).life uid hv hx
    exact ⟨(effect_of_act h).grow, hws, hx'.mono (tasksLe_applyAll uid hws)⟩
  commit s c c' w q hside hq hw hc := by
    refine hw.tasksLe.lifeRely fun id f hf hnone => hw.lookup_eq_none (fun f' heq => hc ?_) hnone
    exact hside.one c' c id f f' hf (by rw [hq, heq]; simp)
  refuse s c w q hq hw hunseen := by
    refine hw.lifeRely_refuse fun id hid huses => hunseen w (by rw [hq]; rfl) id hid ?_
    rwa [hq]

/-- What holds in every reachable state. -/
structure LifeInv (s : State C Store Write Screens Posted) : Prop where
  fresh : Fresh s
  inv : (lifecycle uid).Inv s

variable {uid}

lemma lifeInv_start : LifeInv uid start := by
  refine ⟨fresh_start, allDocs_empty _, fun _ => trivial, fun c => ?_⟩
  exact ⟨by simp [start], by simp [start], by simp [start], by simp [start]⟩

variable [DecidableEq C]

lemma LifeInv.step {s s' : State C Store Write Screens Posted} {e : Event C Action}
    (hs : LifeInv uid s) (h : (app uid).step s e = some s') : LifeInv uid s' :=
  ⟨fresh_step hs.fresh h, Discipline.inv_step hs.fresh hs.inv h⟩

lemma LifeInv.faultyStep {s s' : State C Store Write Screens Posted} {e : FaultyEvent C Action}
    (hs : LifeInv uid s) (hunseen : RefusedUnseen s e) (h : (app uid).faultyStep s e = some s') :
    LifeInv uid s' :=
  ⟨fresh_faultyStep hs.fresh h, Discipline.inv_faultyStep hs.fresh hs.inv
    (fun c hc => by subst hc; exact hunseen) h⟩

lemma lifeInv_exec {es : List (Event C Action)} {s : State C Store Write Screens Posted}
    (h : exec (app uid).step start es = some s) : LifeInv uid s :=
  exec_invariant (fun _ _ _ hs hstep => hs.step hstep) lifeInv_start h

/-- One step moves tasks forward. -/
lemma tasksLe_step {s s' : State C Store Write Screens Posted} {e : Event C Action}
    (hs : LifeInv uid s) (h : (app uid).step s e = some s') :
    TasksLe s.store s'.store := by
  cases e with
  | act c a =>
      obtain ⟨g, x, ws, -, rfl⟩ := App.step_act_eq_some.mp h
      exact TasksLe.refl s.store
  | commit c =>
      obtain ⟨w, q, hq, rfl⟩ := App.step_commit_eq_some.mp h
      have hw := hs.inv.queue c
      rw [hq] at hw
      exact LifeWrite.tasksLe hw.1

/-- A refusal leaves them as they are. -/
lemma tasksLe_faultyStep {s s' : State C Store Write Screens Posted} {e : FaultyEvent C Action}
    (hs : LifeInv uid s) (h : (app uid).faultyStep s e = some s') :
    TasksLe s.store s'.store := by
  cases e with
  | ok e => exact tasksLe_step hs h
  | refuse c =>
      obtain ⟨w, q, -, rfl⟩ := App.faultyStep_refuse_eq_some.mp h
      exact TasksLe.refl s.store

/-- So does a run in which no write that its own device relies on is refused. -/
lemma tasksLe_faultyExec {s s' : State C Store Write Screens Posted}
    {es : List (FaultyEvent C Action)} (hs : LifeInv uid s)
    (hC : EachStep (app uid).faultyStep RefusedUnseen s es)
    (h : exec (app uid).faultyStep s es = some s') : TasksLe s.store s'.store := by
  have hkeep : ∀ t e t', LifeInv uid t → RefusedUnseen t e → (app uid).faultyStep t e = some t' →
      LifeInv uid t' ∧ TasksLe t.store t'.store :=
    fun _ _ _ ht hunseen hstep => ⟨ht.faultyStep hunseen hstep, tasksLe_faultyStep ht hstep⟩
  exact exec_rel_of_eachStep (R := fun t t' => TasksLe t.store t'.store)
    (fun t => TasksLe.refl t.store) (fun _ _ _ => TasksLe.trans) hkeep hs hC h

/-- The task posted under an id. -/
def postedTask (s : State C Store Write Screens Posted) (id : String) : Option Errand :=
  s.shared.lookup id

/-- **Life of a task**: in runs that may refuse writes, but no post and no acceptance
of a task without an employee that its device shows in Recent Tasks, or has a
payment or a rating queued for, a stored task has the fields it was posted with, and
an employee if it is paid or rated; in every later state it still has these fields,
its flags if they were set, and an employee if it had one. -/
theorem lifecycle_of_refusedUnseen {es es' : List (FaultyEvent C Action)}
    {s s' : State C Store Write Screens Posted}
    (hC : EachStep (app uid).faultyStep RefusedUnseen start es)
    (h : exec (app uid).faultyStep start es = some s)
    (hC' : EachStep (app uid).faultyStep RefusedUnseen s es')
    (h' : exec (app uid).faultyStep s es' = some s') {id : String} {d : TaskDoc}
    (hd : s.store.tasks.lookup id = some d) :
    (∃ t, postedTask s id = some t ∧ PostedAs t d) ∧
      (d.hasPaid = some true ∨ d.employeeRated = some true → Accepted d) ∧
      ∃ d', s'.store.tasks.lookup id = some d' ∧ (∀ t, PostedAs t d → PostedAs t d') ∧
        (d.hasPaid = some true → d'.hasPaid = some true) ∧
        (d.employeeRated = some true → d'.employeeRated = some true) ∧
        (Accepted d → Accepted d') := by
  have hs : LifeInv uid s := exec_invariant_of_eachStep
    (fun _ _ _ hs hunseen hstep => hs.faultyStep hunseen hstep) lifeInv_start hC h
  obtain ⟨hposted, hflags⟩ := hs.inv.store id d hd
  obtain ⟨d', hd', hlater⟩ := tasksLe_faultyExec hs hC' h' id d hd
  exact ⟨hposted, hflags, d', hd', hlater.posted, hlater.hasPaid, hlater.employeeRated,
    hlater.accepted⟩

instance (d : TaskDoc) : Decidable (Accepted d) :=
  decidable_of_iff (∃ e ∈ d.employeeID, e ≠ "") Iff.rfl

instance (st : Store) (id : String) : Decidable (AcceptedIn st id) :=
  decidable_of_iff (∃ d ∈ st.tasks.lookup id, Accepted d) Iff.rfl

instance (x : Screens) (q : List Write) (id : String) : Decidable (Uses x q id) :=
  inferInstanceAs (Decidable (((∃ vc ∈ x.recent, ∃ task ∈ vc.recentTasks, task.docID = some id) ∨
    (∃ vc ∈ x.rate, vc.docID = id) ∨ ∃ vc ∈ x.pay, vc.docID = id) ∨
      ∃ w ∈ q, flagged w = some id))

instance RefusedUnseen.decidable :
    ∀ (s : State C Store Write Screens Posted) (e : FaultyEvent C Action),
      Decidable (RefusedUnseen s e)
  | s, .refuse c => inferInstanceAs (Decidable (∀ w ∈ (s.queue c).head?,
      ∀ id ∈ postedOrAccepted w, Uses (s.screen c) (s.queue c).tail id → AcceptedIn s.store id))
  | _, .ok _ => isTrue trivial

/-- A second acceptance of a task is refused. -/
def refusing : List (FaultyEvent Device Action) :=
  (registering .second ++ registering .third ++ posting ++ accepting .second ++
    (accepting .third).dropLast).map .ok ++ [.refuse .third]

/-- A task accepted, and by somebody else in vain, then rated. -/
theorem lifecycle_of_refusedUnseen_rated : ∃ s s' d,
    exec (app users).faultyStep start refusing = some s ∧
    exec (app users).faultyStep s (rating.map .ok) = some s' ∧
    s.store.tasks.lookup "t1" = some d ∧
    (∃ t, postedTask s "t1" = some t ∧ PostedAs t d) ∧
      (d.hasPaid = some true ∨ d.employeeRated = some true → Accepted d) ∧
      ∃ d', s'.store.tasks.lookup "t1" = some d' ∧ (∀ t, PostedAs t d → PostedAs t d') ∧
        (d.hasPaid = some true → d'.hasPaid = some true) ∧
        (d.employeeRated = some true → d'.employeeRated = some true) ∧
        (Accepted d → Accepted d') := by
  have hrun : (exec (app users).faultyStep start refusing).map (fun s =>
      (s.store.tasks.lookup "t1").isSome &&
        (exec (app users).faultyStep s (rating.map .ok)).isSome) = some true := by
    decide +kernel
  have hunseen : EachStep (app users).faultyStep RefusedUnseen start refusing := by
    decide +kernel
  obtain ⟨s, hs, hboth⟩ := Option.map_eq_some_iff.mp hrun
  obtain ⟨hsome, hsome'⟩ := Bool.and_eq_true_iff.mp hboth
  obtain ⟨d, hd⟩ := Option.isSome_iff_exists.mp hsome
  obtain ⟨s', hs'⟩ := Option.isSome_iff_exists.mp hsome'
  have hunseen' : EachStep (app users).faultyStep RefusedUnseen s (rating.map .ok) := by
    refine eachStep_of_forall fun s e he => ?_
    obtain ⟨e', -, rfl⟩ := List.mem_map.mp he
    trivial
  exact ⟨s, s', d, hs, hs', hd, lifecycle_of_refusedUnseen hunseen hs hunseen' hs' hd⟩

/-- The client, who is registered as an employee, accepts his own task, finds it in
Recent Tasks at once, and pays; then the acceptance is refused. -/
def payingRefused : List (FaultyEvent Device Action) :=
  (registering .first ++ posting ++ (accepting .first).dropLast).map .ok ++
    [.ok (.act .first .openRecent), .ok (.act .first (.openPay 0 0)),
      .ok (.act .first (.confirmPay 0)), .refuse .first, .ok (.commit .first)]

/-- The task is paid and has no employee. -/
theorem payingRefused_unaccepted : ∃ s d,
    exec (app users).faultyStep start payingRefused = some s ∧
    s.store.tasks.lookup "t1" = some d ∧ d.hasPaid = some true ∧ d.employeeID = some "" ∧
    ¬ (d.hasPaid = some true ∨ d.employeeRated = some true → Accepted d) := by
  have hrun : (exec (app users).faultyStep start payingRefused).map (fun s =>
      (s.store.tasks.lookup "t1").map fun d => (d.hasPaid, d.employeeID)) =
      some (some (some true, some "")) := by
    decide +kernel
  obtain ⟨s, hs, hend⟩ := Option.map_eq_some_iff.mp hrun
  obtain ⟨d, hd, hfields⟩ := Option.map_eq_some_iff.mp hend
  obtain ⟨hpaid, hnobody⟩ := Prod.mk.inj hfields
  refine ⟨s, d, hs, hd, hpaid, hnobody, fun hflags => ?_⟩
  obtain ⟨e, he, hne⟩ := hflags (Or.inl hpaid)
  exact hne (Option.some.inj (he.symm.trans hnobody))

/-! ### The employee of a task -/

/-- Who accepts the task `id` by a write. -/
def acceptedBy (id : String) : Write → Option String
  | .updateTask id' f => if id' = id then f.employeeID else none
  | _ => none

/-- A write on an accepted task changes its employee by an acceptance only. -/
lemma LifeWrite.employeeID {g : Posted} {st : Store} {w : Write} (hw : LifeWrite g st w)
    {id e : String} {d : TaskDoc} (hd : st.tasks.lookup id = some d)
    (he : d.employeeID = some e) : ∃ d', (w.apply st).tasks.lookup id = some d' ∧
      d'.employeeID = some ((acceptedBy id w).getD e) := by
  cases w with
  | addTask id' f =>
      have hne : id ≠ id' := by
        rintro rfl
        exact absurd (hw.1.symm.trans hd) (by simp)
      exact ⟨d, by rw [addTask_tasks, lookup_setData_ne hne, hd], he⟩
  | mergeTask id' f =>
      obtain ⟨⟨d', hd', -⟩, hf⟩ := hw
      by_cases hid : id = id'
      · subst hid
        refine ⟨f.over d, by rw [lookup_mergeTask hd, if_pos rfl], ?_⟩
        rcases hf with rfl | rfl <;> exact he
      · exact ⟨d, by rw [lookup_mergeTask hd', if_neg hid, hd], he⟩
  | updateTask id' f =>
      obtain ⟨u, -, rfl⟩ := hw
      by_cases hid : id = id'
      · subst hid
        exact ⟨_, by rw [lookup_updateTask, if_pos rfl, hd]; rfl,
          by simp [acceptedBy, TaskDoc.over]⟩
      · refine ⟨d, by rw [lookup_updateTask, if_neg hid, hd], ?_⟩
        rw [acceptedBy, if_neg (Ne.symm hid)]
        exact he
  | setUser u f => exact ⟨d, hd, he⟩
  | mergeUser u f => exact ⟨d, hd, he⟩
  | updateUser u f => exact ⟨d, hd, he⟩

/-- **The employee of a task**: once a task has an employee, in every later state
its employee is the one whose acceptance was committed last, and there is one. -/
theorem employee_eq_last_accepted {es es' : List (Event C Action)}
    {s s' : State C Store Write Screens Posted} (h : exec (app uid).step start es = some s)
    (h' : exec (app uid).step s es' = some s') {id e : String} {d : TaskDoc}
    (hd : s.store.tasks.lookup id = some d) (he : d.employeeID = some e) (hne : e ≠ "") :
    ∃ d' e', s'.store.tasks.lookup id = some d' ∧ d'.employeeID = some e' ∧ e' ≠ "" ∧
      e' = ((((app uid).committed s es').filterMap (acceptedBy id)).getLast?).getD e := by
  have hs := lifeInv_exec h
  clear h
  induction es' generalizing s d e with
  | nil =>
      obtain rfl := Option.some.inj h'
      exact ⟨d, e, hd, he, hne, rfl⟩
  | cons ev es' ih =>
      obtain ⟨t, ht, hrest⟩ := exec_cons_eq_some.mp h'
      rw [App.committed_cons ht]
      cases ev with
      | act c a =>
          obtain ⟨g, x, ws, -, rfl⟩ := App.step_act_eq_some.mp ht
          exact ih hrest hd he hne (hs.step ht)
      | commit c =>
          obtain ⟨w, q, hq, rfl⟩ := App.step_commit_eq_some.mp ht
          have hw := hs.inv.queue c
          rw [hq] at hw
          obtain ⟨d₁, hd₁, he₁⟩ := LifeWrite.employeeID hw.1 hd he
          have hne₁ : (acceptedBy id w).getD e ≠ "" := by
            obtain ⟨d₂, hd₂, hlater⟩ := LifeWrite.tasksLe hw.1 id d hd
            obtain rfl : d₁ = d₂ := Option.some.inj (hd₁.symm.trans hd₂)
            obtain ⟨e₂, he₂, hne₂⟩ := hlater.accepted ⟨e, he, hne⟩
            rwa [Option.some.inj (he₁.symm.trans he₂)]
          obtain ⟨d', e', hd', he', hne', heq⟩ := ih hrest hd₁ he₁ hne₁ (hs.step ht)
          refine ⟨d', e', hd', he', hne', heq.trans ?_⟩
          rw [App.committedBy, hq, List.take_succ_cons, List.take_zero, List.singleton_append,
            List.filterMap_cons]
          cases acceptedBy id w with
          | none => rfl
          | some u =>
              rw [List.getLast?_cons]
              rfl

/-- The employee of the task in the state a run ends in. -/
def employeeOf (s : State C Store Write Screens Posted) (id : String) : Option String :=
  (s.store.tasks.lookup id).bind TaskDoc.employeeID

/-- Two employees accept the task one after the other, each from a fresh list. -/
theorem accepted_twice : ∃ s s',
    exec (app users).step start
        (registering .second ++ registering .third ++ posting ++ accepting .second) =
      some s ∧
    exec (app users).step s (accepting .third) = some s' ∧
    employeeOf s "t1" = some "employee" ∧ employeeOf s' "t1" = some "other" := by
  have hrun : (exec (app users).step start
      (registering .second ++ registering .third ++ posting ++ accepting .second)).map (fun s =>
        (employeeOf s "t1", (exec (app users).step s (accepting .third)).map (employeeOf · "t1"))) =
      some (some "employee", some (some "other")) := by decide +kernel
  obtain ⟨s, hs, hboth⟩ := Option.map_eq_some_iff.mp hrun
  obtain ⟨h₁, h₂⟩ := Prod.mk.inj hboth
  obtain ⟨s', hs', hother⟩ := Option.map_eq_some_iff.mp h₂
  exact ⟨s, s', hs, hs', h₁, hother⟩

/-- The task stays accepted while the client rates the employee. -/
theorem employee_eq_last_accepted_rated : ∃ s s' d,
    exec (app users).step start (registering .second ++ posting ++ accepting .second) = some s ∧
    exec (app users).step s rating = some s' ∧ s.store.tasks.lookup "t1" = some d ∧
    d.employeeID = some "employee" ∧
    ∃ d' e', s'.store.tasks.lookup "t1" = some d' ∧ d'.employeeID = some e' ∧ e' ≠ "" ∧
      e' = ((((app users).committed s rating).filterMap (acceptedBy "t1")).getLast?).getD
        "employee" := by
  have hrun : (exec (app users).step start
      (registering .second ++ posting ++ accepting .second)).map
      (fun s => (employeeOf s "t1", (exec (app users).step s rating).isSome)) =
      some (some "employee", true) := by decide +kernel
  obtain ⟨s, hs, hboth⟩ := Option.map_eq_some_iff.mp hrun
  obtain ⟨h₁, h₂⟩ := Prod.mk.inj hboth
  obtain ⟨d, hd, he⟩ := Option.bind_eq_some_iff.mp h₁
  obtain ⟨s', hs'⟩ := Option.isSome_iff_exists.mp h₂
  exact ⟨s, s', d, hs, hs', hd, he, employee_eq_last_accepted hs hs' hd he (by decide)⟩

end Tasker.Market
