import Tasker.Market.Lifecycle

/-!
Who rates whom.

* `NotClient`: the task was posted by someone else.
* `OthersOk`, `OthersWrite`, `OthersScreens`: a stored task has the client it was
  posted by, no employee of it, and no acceptance on its way, is this client; the
  pages of a device know the clients of their tasks, and no rating page of a device
  is for its own user.
* `others_act`: an action keeps this, unless it accepts a task of its own user.
* `ratesOthers_of_acceptsOthers`: if nobody accepts a task of his own, nobody
  rates himself, whatever writes are refused; `acceptingOwn` is a run in which
  somebody does both.
-/

namespace Tasker.Market

open DocStore EventSystem WriteQueue

/-- The task `id` was posted, and not by `e`. -/
def NotClient (g : Posted) (id e : String) : Prop := ∃ t, g.lookup id = some t ∧ t.clientID ≠ some e

lemma NotClient.grow {g g' : Posted} (hg : Grow g g') {id e : String} (h : NotClient g id e) :
    NotClient g' id e := by
  obtain ⟨t, ht, hne⟩ := h
  exact ⟨t, hg id t ht, hne⟩

/-- The task `id` was posted by `u`. -/
def IsClient (g : Posted) (id u : String) : Prop := ∃ t, g.lookup id = some t ∧ t.clientID = some u

lemma IsClient.grow {g g' : Posted} (hg : Grow g g') {id u : String} (h : IsClient g id u) :
    IsClient g' id u := by
  obtain ⟨t, ht, heq⟩ := h
  exact ⟨t, hg id t ht, heq⟩

/-- A task that somebody posted was not posted by anybody else. -/
lemma IsClient.ne {g : Posted} {id u e : String} (h : IsClient g id u) (he : NotClient g id e) :
    e ≠ u := by
  obtain ⟨t, ht, heq⟩ := h
  obtain ⟨t', ht', hne⟩ := he
  obtain rfl : t = t' := Option.some.inj (ht.symm.trans ht')
  rintro rfl
  exact hne heq

/-- And nobody else posted it. -/
lemma IsClient.notClient {g : Posted} {id u e : String} (h : IsClient g id u) (hne : u ≠ e) :
    NotClient g id e := by
  obtain ⟨t, ht, heq⟩ := h
  exact ⟨t, ht, fun heq' => hne (Option.some.inj (heq.symm.trans heq'))⟩

/-! ### Stored tasks -/

/-- The client is who posted the task, and no employee. -/
structure OthersDoc (g : Posted) (id : String) (d : TaskDoc) : Prop where
  client : ∀ u, d.clientID = some u → IsClient g id u
  employee : ∀ e, d.employeeID = some e → e ≠ "" → NotClient g id e

/-- The clients are who posted the tasks, and no employees. -/
def OthersOk (g : Posted) (st : Store) : Prop := AllDocs (OthersDoc g) st.tasks

/-- A write brings no employee, or one who is not the client, and no client but
with the whole task. -/
def OthersWrite (g : Posted) : Write → Prop
  | .addTask id f => OthersDoc g id f
  | .mergeTask id f => f.clientID = none ∧ OthersDoc g id f
  | .updateTask id f => f.clientID = none ∧ OthersDoc g id f
  | _ => True

lemma OthersDoc.grow {g g' : Posted} (hg : Grow g g') {id : String} {d : TaskDoc}
    (h : OthersDoc g id d) : OthersDoc g' id d :=
  ⟨fun u hu => (h.client u hu).grow hg, fun e he hne => (h.employee e he hne).grow hg⟩

lemma OthersOk.grow {g g' : Posted} (hg : Grow g g') {st : Store} (h : OthersOk g st) :
    OthersOk g' st := fun id d hd => (h id d hd).grow hg

lemma OthersWrite.grow {g g' : Posted} (hg : Grow g g') {w : Write} (hw : OthersWrite g w) :
    OthersWrite g' w := by
  cases w with
  | addTask id f => exact OthersDoc.grow hg hw
  | mergeTask id f => exact ⟨hw.1, hw.2.grow hg⟩
  | updateTask id f => exact ⟨hw.1, hw.2.grow hg⟩
  | _ => trivial

/-- Fields without a client laid over a task. -/
lemma OthersDoc.over {g : Posted} {id : String} {f d : TaskDoc} (hclient : f.clientID = none)
    (hf : OthersDoc g id f) (hd : OthersDoc g id d) : OthersDoc g id (f.over d) := by
  refine ⟨fun u hu => hd.client u (by simpa [TaskDoc.over, hclient] using hu),
    fun e he hne => ?_⟩
  rcases Option.or_eq_some_iff.mp he with he | ⟨-, he⟩
  · exact hf.employee e he hne
  · exact hd.employee e he hne

/-- A document without fields. -/
lemma othersDoc_default (g : Posted) (id : String) : OthersDoc g id default :=
  ⟨fun _ hu => absurd hu (by simp [default, instInhabitedTaskDoc.default]),
    fun _ he => absurd he (by simp [default, instInhabitedTaskDoc.default])⟩

/-- A flag brings neither. -/
lemma othersWrite_flag {g : Posted} {id : String} {f : TaskDoc} (hf : FlagFields f) :
    OthersWrite g (.mergeTask id f) := by
  rcases hf with rfl | rfl <;> exact ⟨rfl, by simp, by simp⟩

lemma OthersOk.apply {g : Posted} {st : Store} (h : OthersOk g st) {w : Write}
    (hw : OthersWrite g w) : OthersOk g (w.apply st) := by
  cases w with
  | addTask id f => exact AllDocs.setData h hw
  | mergeTask id f =>
      exact AllDocs.mergeData h (fun _ => OthersDoc.over hw.1 hw.2 (othersDoc_default g id))
        fun d _ hd => OthersDoc.over hw.1 hw.2 hd
  | updateTask id f => exact AllDocs.updateData h fun d _ hd => OthersDoc.over hw.1 hw.2 hd
  | setUser u f => exact h
  | mergeUser u f => exact h
  | updateUser u f => exact h

/-! ### Pages -/

/-- A page lists a task with its client. -/
def Listed (g : Posted) (task : Errand) : Prop :=
  ∀ id u, task.docID = some id → task.clientID = some u → IsClient g id u

/-- The pages of a device know the clients of their tasks, and no row and no
rating page is for its user. -/
structure OthersScreens (u : Uid) (g : Posted) (x : Screens) : Prop where
  explore : ∀ page ∈ x.explore, ∀ l, ∀ task ∈ page.shown l, Listed g task
  accept : ∀ vc ∈ x.accept, vc.userID = some u.1 ∧ IsClient g vc.dID vc.taskClientID
  recent : ∀ page ∈ x.recent, ∀ task ∈ page.recentTasks, task.employeeID ≠ some u.1
  rate : ∀ vc ∈ x.rate, vc.clientID = "" ∧ vc.employeeID ≠ u.1

lemma OthersScreens.grow {u : Uid} {g g' : Posted} (hg : Grow g g') {x : Screens}
    (hx : OthersScreens u g x) : OthersScreens u g' x where
  explore page hp l task ht id c hid hc := (hx.explore page hp l task ht id c hid hc).grow hg
  accept vc hvc := ⟨(hx.accept vc hvc).1, (hx.accept vc hvc).2.grow hg⟩
  recent := hx.recent
  rate := hx.rate

/-- A document that decodes lists its task. -/
lemma listed_of_decode {g : Posted} {st : Store} (h : OthersOk g st) {d : String × TaskDoc}
    (hd : d ∈ documents st.tasks) {task : Errand} (htask : Errand.decode d.1 d.2 = some task) :
    Listed g task := by
  intro id u hid hu
  obtain ⟨hdoc, hencode⟩ := Errand.decode_eq_some htask
  obtain rfl : d.1 = id := Option.some.inj (hdoc.symm.trans hid)
  refine (h d.1 d.2 (mem_documents.mp hd)).client u ?_
  rw [← hencode]
  exact hu

/-- Every task of a page that has just been opened is a document that decodes. -/
lemma mem_shown {a : Fetched User} {docs : List (String × TaskDoc)}
    {l : EmployeeExplorePageViewController.TaskList} {task : Errand}
    (h : task ∈ ((EmployeeExplorePageViewController.showCity {} a).appendTasks docs).fillLists.shown
      l) : ∃ d ∈ docs, Errand.decode d.1 d.2 = some task := by
  have hempty : (EmployeeExplorePageViewController.showCity {} a).tasks = [] ∧
      (EmployeeExplorePageViewController.showCity {} a).skillsTasks = [] ∧
      (EmployeeExplorePageViewController.showCity {} a).nearByTasks = [] ∧
      (EmployeeExplorePageViewController.showCity {} a).negotiableTasks = [] := by
    unfold EmployeeExplorePageViewController.showCity
    split
    · split <;> exact ⟨rfl, rfl, rfl, rfl⟩
    · exact ⟨rfl, rfl, rfl, rfl⟩
  obtain ⟨htasks, hskills, hnearBy, hnegotiable⟩ := hempty
  have hmem : task ∈ docs.filterMap fun d => Errand.decode d.1 d.2 := by
    cases l <;>
      simp only [EmployeeExplorePageViewController.shown,
        EmployeeExplorePageViewController.fillLists,
        EmployeeExplorePageViewController.appendTasks, htasks, hskills, hnearBy, hnegotiable,
        List.nil_append] at h <;>
      exact (List.mem_filter.mp h).1
  exact List.mem_filterMap.mp hmem

/-- The accept page of a row is for its task and client. -/
lemma didSelectItemAt_eq_some {vc : EmployeeExplorePageViewController} {u : Option String}
    {l : EmployeeExplorePageViewController.TaskList} {row : ℕ} {vc' : AcceptTaskViewController}
    (h : vc.didSelectItemAt u l row = some vc') :
    ∃ task ∈ vc.shown l, task.docID = some vc'.dID ∧ task.clientID = some vc'.taskClientID := by
  obtain ⟨task, htask, hsome⟩ := Option.bind_eq_some_iff.mp h
  refine ⟨task, List.mem_of_getElem? htask, ?_⟩
  split at hsome
  · next hclient hdoc _ =>
      obtain rfl := Option.some.inj hsome
      exact ⟨hdoc, hclient⟩
  · exact absurd hsome (by simp)

/-- No row of Recent Tasks is for its own user. -/
lemma employeeID_ne_of_recent {u : Uid} {g : Posted} {st : Store} (h : OthersOk g st)
    {task : Errand}
    (htask : task ∈ (RecentTasksTableViewController.appendTasks {}
      (RecentTasksTableViewController.query u st.tasks)).recentTasks) :
    task.employeeID ≠ some u.1 := by
  obtain ⟨id, d, e, hd, he, hne, hclient, -, hencode⟩ :=
    RecentTasksTableViewController.mem_recentTasks htask
  have htaskEmployee : task.employeeID = d.employeeID := by
    rw [← hencode]
    rfl
  rw [htaskEmployee, he]
  have hdoc := h id d hd
  exact fun heq => (hdoc.client u hclient).ne (hdoc.employee e he hne) (Option.some.inj heq)

/-! ### Actions -/

/-- A post names its client. -/
lemma othersWrite_post {g : Posted} {id : String} {form : ListTaskViewController}
    {page : SubmitTaskViewController} {now : ℤ} {task : Errand}
    (hpage : page.task = form.navigateToSubmitVC)
    (hpost : (page.postTaskButtonPressed now).2 = some task) :
    OthersWrite (setData g id task) (.addTask id task.encode) := by
  have hnew := newFields_of_post hpage hpost
  refine ⟨fun c hc => ⟨task, by simp, hc⟩, fun e he hne => ?_⟩
  exact absurd (Option.some.inj (he.symm.trans hnew.employeeID)) hne

/-- An acceptance is by another user than the client. -/
lemma othersWrite_accept {g : Posted} {id u : String} (h : NotClient g id u) :
    OthersWrite g (.updateTask id { employeeID := some u }) := by
  refine ⟨rfl, fun c hc => absurd hc (by simp), fun e he _ => ?_⟩
  obtain rfl : u = e := Option.some.inj he
  exact h

/-- An action keeps this, if it accepts no task of its own user. -/
lemma others_act {u : Uid} {g g' : Posted} {x x' : Screens} {v : Store} {a : Action}
    {ws : List Write} (hv : OthersOk g v) (hx : OthersScreens u g x)
    (ha : ∀ page vc, a = .accept page → x.accept[page]? = some vc → vc.taskClientID ≠ u.1)
    (h : act u g x v a = some (g', x', ws)) :
    (∀ w ∈ ws, OthersWrite g' w) ∧ OthersScreens u g' x' := by
  have hrate : ∀ vc ∈ x'.rate, vc.clientID = "" ∧ vc.employeeID ≠ u.1 :=
    (effect_of_act h).forall_rate (P := fun e c _ => c = "" ∧ e ≠ u.1)
      (fun vc hvc => hx.rate vc hvc)
      fun page hp task ht e id he _ => ⟨rfl, fun heq => hx.recent page hp task ht (heq ▸ he)⟩
  cases a with
  | register r =>
      obtain ⟨rfl, rfl, rfl⟩ := act_eq_some h
      exact ⟨by simp [OthersWrite], hx⟩
  | home answered =>
      obtain ⟨vc, -, rfl, rfl, rfl⟩ := act_map_eq_some h
      exact ⟨by simp, { hx with }⟩
  | editProfile p =>
      obtain ⟨rfl, rfl, rfl⟩ := act_eq_some h
      exact ⟨by simp [OthersWrite], hx⟩
  | signUp answered =>
      obtain ⟨⟨vc, ws'⟩, hr, rfl, rfl, rfl⟩ := act_map_eq_some h
      rcases signUpTapped_writes hr with hws | hws <;>
        exact ⟨by simp [hws, OthersWrite], hx⟩
  | toggleNotifications isOn =>
      obtain ⟨rfl, rfl, rfl⟩ := act_eq_some h
      exact ⟨by simp [NotificationSettingsViewController.switchToggled, OthersWrite], hx⟩
  | post id form page now =>
      have hgrow := (effect_of_act h).grow
      rw [act] at h
      split at h
      · next hguard =>
          split at h
          · next task htask =>
              obtain ⟨rfl, rfl, rfl⟩ := act_eq_some h
              exact ⟨List.forall_mem_singleton.mpr (othersWrite_post hguard.2.1 htask),
                hx.grow hgrow⟩
          · obtain ⟨rfl, rfl, rfl⟩ := act_eq_some h
            exact ⟨by simp, hx⟩
      · exact absurd h (by simp)
  | openExplore cityAnswered =>
      rw [act] at h
      split at h
      · exact absurd h (by simp)
      · obtain ⟨rfl, rfl, rfl⟩ := act_eq_some h
        refine ⟨by simp, { hx with explore := forall_mem_opened hx.explore fun l task ht => ?_ }⟩
        obtain ⟨d, hd, htask⟩ := mem_shown ht
        exact listed_of_decode hv hd htask
  | selectTask page l row =>
      obtain ⟨vc, hvc, rfl, rfl, rfl⟩ := act_map_eq_some h
      obtain ⟨epage, hpage, hsel⟩ := Option.bind_eq_some_iff.mp hvc
      obtain ⟨task, htask, hdoc, hclient⟩ := didSelectItemAt_eq_some hsel
      have hlisted := hx.explore epage (List.mem_of_getElem? hpage) l task htask
      have hopened := forall_mem_opened hx.accept
        ⟨didSelectItemAt_userID hsel, hlisted vc.dID vc.taskClientID hdoc hclient⟩
      exact ⟨by simp, { hx with accept := hopened }⟩
  | accept page =>
      obtain ⟨ws', hws, rfl, rfl, rfl⟩ := act_map_eq_some h
      obtain ⟨vc, hvc, hacc⟩ := Option.bind_eq_some_iff.mp hws
      obtain ⟨huser, hclient⟩ := hx.accept vc (List.mem_of_getElem? hvc)
      rw [AcceptTaskViewController.acceptClicked, huser, Option.map_some] at hacc
      rw [← Option.some.inj hacc]
      -- the page knows the client, and it is not the user
      have hwrite := othersWrite_accept (hclient.notClient (ha page vc rfl hvc))
      exact ⟨List.forall_mem_singleton.mpr hwrite, hx⟩
  | openRecent =>
      obtain ⟨rfl, rfl, rfl⟩ := act_eq_some h
      have hopened := forall_mem_opened hx.recent fun task ht => employeeID_ne_of_recent hv ht
      exact ⟨by simp, { hx with recent := hopened }⟩
  | openRate page row =>
      obtain ⟨task, htask, hcan⟩ := Option.bind_eq_some_iff.mp h
      split at hcan
      · obtain ⟨rvc, hrvc, rfl, rfl, rfl⟩ := act_map_eq_some hcan
        exact ⟨by simp, { hx with rate := hrate }⟩
      · exact absurd hcan (by simp)
  | loadRate page answered =>
      obtain ⟨vc', -, rfl, rfl, rfl⟩ := act_map_eq_some h
      exact ⟨by simp, { hx with rate := hrate }⟩
  | star page c tag =>
      obtain ⟨vc, -, rfl, rfl, rfl⟩ := act_map_eq_some h
      exact ⟨by simp, { hx with rate := hrate }⟩
  | complete page =>
      obtain ⟨vc, hvc, rfl, rfl, rfl⟩ := act_map_eq_some h
      obtain ⟨hclient, -⟩ := hx.rate vc (List.mem_of_getElem? hvc)
      refine ⟨?_, { hx with rate := hrate }⟩
      rw [RateUserViewController.completeButtonTapped_writes hclient]
      split
      · intro w hw
        rcases List.mem_pair.mp hw with rfl | rfl
        · trivial
        · exact othersWrite_flag (Or.inr rfl)
      · simp
  | openPay page row =>
      obtain ⟨task, htask, hcan⟩ := Option.bind_eq_some_iff.mp h
      split at hcan
      · obtain ⟨pvc, hpvc, rfl, rfl, rfl⟩ := act_map_eq_some hcan
        exact ⟨by simp, { hx with }⟩
      · exact absurd hcan (by simp)
  | confirmPay page =>
      obtain ⟨vc, -, rfl, rfl, rfl⟩ := act_map_eq_some h
      exact ⟨List.forall_mem_singleton.mpr (othersWrite_flag (Or.inl rfl)), hx⟩

/-! ### Runs -/

variable {C : Type*} (uid : C → Uid)

/-- What holds while nobody accepts a task of his own. -/
structure OthersInv (s : State C Store Write Screens Posted) : Prop where
  stored : OthersOk s.shared s.store
  queued : ∀ c, ∀ w ∈ s.queue c, OthersWrite s.shared w
  screens : ∀ c, OthersScreens (uid c) s.shared (s.screen c)

/-- A tap on Accept is for a task of another user. -/
def AcceptsOthers (s : State C Store Write Screens Posted) : FaultyEvent C Action → Prop
  | .ok (.act c (.accept page)) =>
      ∀ vc, (s.screen c).accept[page]? = some vc → vc.taskClientID ≠ (uid c).1
  | _ => True

/-- The count and the rating of a user. -/
def ratingOf (st : Store) (u : String) : Option (Option ℤ × Option ℚ) :=
  (st.users.lookup u).map fun d => (d.numRatings, d.rating)

variable [DecidableEq C]

/-- A tap on Complete issues no write that changes the count or the rating of its
own user. -/
def RatesOthers (s : State C Store Write Screens Posted) : FaultyEvent C Action → Prop
  | .ok (.act c (.complete page)) =>
      ∀ w ∈ (app uid).issuedBy s (.act c (.complete page)), ∀ st : Store,
        ratingOf (w.apply st) (uid c).1 = ratingOf st (uid c).1
  | _ => True

variable {uid} {s s' : State C Store Write Screens Posted}

omit [DecidableEq C] in
lemma OthersInv.view (h : OthersInv uid s) (c : C) : OthersOk s.shared ((app uid).view s c) :=
  (app uid).applyAll_of_forall h.stored fun w hw _ hst => hst.apply (h.queued c w hw)

omit [DecidableEq C] in
lemma othersInv_start : OthersInv uid start :=
  ⟨allDocs_empty _, by simp [start],
    fun c => ⟨by simp [start], by simp [start], by simp [start], by simp [start]⟩⟩

lemma OthersInv.faultyStep {e : FaultyEvent C Action} (h : OthersInv uid s)
    (hc : AcceptsOthers uid s e) (hs : (app uid).faultyStep s e = some s') : OthersInv uid s' := by
  cases e with
  | ok e =>
      cases e with
      | act c a =>
          obtain ⟨g, x, ws, hact, rfl⟩ := App.step_act_eq_some.mp hs
          have hgrow : Grow s.shared g := Effect.grow (effect_of_act hact)
          obtain ⟨hws, hx⟩ := others_act (h.view c) (h.screens c)
            (fun page vc ha hvc => by subst ha; exact hc vc hvc) hact
          refine ⟨h.stored.grow hgrow, fun c' w hw => ?_, fun c' => ?_⟩
          · rcases App.mem_update_append hw with hold | ⟨-, hissued⟩
            · exact (h.queued c' w hold).grow hgrow
            · exact hws w hissued
          · by_cases hcc : c' = c
            · subst hcc
              simp only [Function.update_self]
              exact hx
            · simp only [Function.update_of_ne hcc]
              exact (h.screens c').grow hgrow
      | commit c =>
          obtain ⟨w, q, hq, rfl⟩ := App.step_commit_eq_some.mp hs
          exact ⟨h.stored.apply (h.queued c w (by simp [hq])),
            fun c' w' hw' => h.queued c' w' (App.mem_update_tail hq hw'), h.screens⟩
  | refuse c =>
      obtain ⟨w, q, hq, rfl⟩ := App.faultyStep_refuse_eq_some.mp hs
      exact ⟨h.stored, fun c' w' hw' => h.queued c' w' (App.mem_update_tail hq hw'), h.screens⟩

omit [DecidableEq C] in
/-- A submission writes the rating of another user. -/
lemma OthersInv.complete (h : OthersInv uid s) {c : C} {page : ℕ} {w : Write}
    (hw : w ∈ (app uid).issuedBy s (.act c (.complete page))) (st : Store) :
    ratingOf (w.apply st) (uid c).1 = ratingOf st (uid c).1 := by
  have hpage : ∃ vc ∈ (s.screen c).rate, w ∈ vc.completeButtonTapped.2 := by
    rw [App.issuedBy, app_act, act] at hw
    cases hvc : (s.screen c).rate[page]? with
    | none => simp [hvc] at hw
    | some vc => exact ⟨vc, List.mem_of_getElem? hvc, by simpa [hvc] using hw⟩
  obtain ⟨vc, hvc, hw⟩ := hpage
  obtain ⟨hclient, hother⟩ := (h.screens c).rate vc hvc
  rw [RateUserViewController.completeButtonTapped_writes hclient] at hw
  split at hw
  · rcases List.mem_pair.mp hw with rfl | rfl
    · rw [ratingOf, mergeUser_users, lookup_mergeData, if_neg (Ne.symm hother)]
      rfl
    · rfl
  · exact absurd hw (by simp)

omit [DecidableEq C] in
lemma OthersInv.ratesOthers (h : OthersInv uid s) (e : FaultyEvent C Action) :
    RatesOthers uid s e := by
  cases e with
  | refuse c => trivial
  | ok e =>
      cases e with
      | commit c => trivial
      | act c a =>
          cases a with
          | complete page => exact fun w hw st => h.complete hw st
          | _ => trivial

/-- **Nobody rates himself**: in every run in which nobody accepts a task of his
own, no submission of a user changes his own count or rating; any write may be
refused. -/
theorem ratesOthers_of_acceptsOthers {es : List (FaultyEvent C Action)}
    (h : EachStep (app uid).faultyStep (AcceptsOthers uid) start es) :
    EachStep (app uid).faultyStep (RatesOthers uid) start es :=
  h.imp (fun _ _ _ hs hc he => hs.faultyStep hc he) (fun _ e hs _ => hs.ratesOthers e)
    othersInv_start

/-! ### A client who is an employee -/

instance AcceptsOthers.decidable :
    ∀ (s : State C Store Write Screens Posted) (e : FaultyEvent C Action),
      Decidable (AcceptsOthers uid s e)
  | s, .ok (.act c (.accept page)) =>
      inferInstanceAs (Decidable (∀ vc ∈ (s.screen c).accept[page]?, vc.taskClientID ≠ (uid c).1))
  | _, .ok (.act _ (.register _)) | _, .ok (.act _ (.home _)) | _, .ok (.act _ (.editProfile _))
  | _, .ok (.act _ (.signUp _)) | _, .ok (.act _ (.toggleNotifications _))
  | _, .ok (.act _ (.post _ _ _ _)) | _, .ok (.act _ (.openExplore _))
  | _, .ok (.act _ (.selectTask _ _ _)) | _, .ok (.act _ .openRecent)
  | _, .ok (.act _ (.openRate _ _)) | _, .ok (.act _ (.loadRate _ _))
  | _, .ok (.act _ (.star _ _ _)) | _, .ok (.act _ (.complete _))
  | _, .ok (.act _ (.openPay _ _)) | _, .ok (.act _ (.confirmPay _))
  | _, .ok (.commit _) | _, .refuse _ => isTrue trivial

/-- The employee accepts the client's task, somebody else in vain, and the client
rates the employee. -/
theorem ratesOthers_of_acceptsOthers_rating :
    EachStep (app users).faultyStep (RatesOthers users) start (refusing ++ rating.map .ok) := by
  have haccepts : EachStep (app users).faultyStep (AcceptsOthers users) start
      (refusing ++ rating.map .ok) := by
    decide +kernel
  exact ratesOthers_of_acceptsOthers haccepts

/-- The client, who is registered as an employee, accepts his own task. -/
def acceptingOwn : List (Event Device Action) :=
  registering .first ++ posting ++ accepting .first ++ rating.take 6

/-- He rates himself. -/
theorem acceptingOwn_rates : ∃ s w,
    exec (app users).step start acceptingOwn = some s ∧
    w ∈ (app users).issuedBy s (.act .first (.complete 0)) ∧
    ratingOf s.store "client" = some (some 0, some 0) ∧
    ratingOf (w.apply s.store) "client" = some (some 1, some 5) := by
  have hrun : (exec (app users).step start acceptingOwn).map (fun s =>
      ratingOf s.store "client" :: ((app users).issuedBy s (.act .first (.complete 0))).map
        (fun w => ratingOf (w.apply s.store) "client")) =
      some [some (some 0, some 0), some (some 1, some 5), some (some 0, some 0)] := by
    decide +kernel
  obtain ⟨s, hs, hend⟩ := Option.map_eq_some_iff.mp hrun
  obtain ⟨hbefore, hissued⟩ := List.cons.inj hend
  obtain ⟨w, ws, hws, hafter, -⟩ := List.map_eq_cons_iff.mp hissued
  have hw : w ∈ (app users).issuedBy s (.act .first (.complete 0)) := by simp [hws]
  exact ⟨s, w, hs, hw, hbefore, hafter⟩

end Tasker.Market
