import Tasker.Market.System

/-!
The fields every users document has.

The rating of an employee merges two fields into the employee's users document,
and would create a document of these two fields if there were none. The
documents stay complete because whoever is rated owns one: the employee page
opens only from a home page that has shown the own document, accepting puts the
own id into the task, and a rating page takes the id from the task. On one
device this may be the pending document of a registration: it is committed
before the writes that follow it.

* `SchemaOk`: every users document is complete, and every task's employee owns
  one.
* `schema`: the discipline. What a queued write needs is that the accounts it
  refers to own a document once the earlier writes of its queue are committed;
  documents are never removed, so other devices cannot break it, and a refused
  write cannot either unless it is a registration.
* `users_complete`: if no registration of a new account is refused, every users
  document of every state is complete, and no screen that reads one traps.
* `refused_registration`: a refused registration leaves the employee's home page
  with the button, and the rating creates a document without a name.
-/

namespace Tasker.Market

open DocStore EventSystem WriteQueue

/-- Every users document of the first store is one of the second. -/
def UsersLe (st st' : Store) : Prop :=
  ∀ u, st.users.lookup u ≠ none → st'.users.lookup u ≠ none

/-- Every users document is complete, and every employee of a task owns one. -/
structure SchemaOk (st : Store) : Prop where
  complete : AllDocs (fun _ d => d.Complete) st.users
  employees : AllDocs (fun _ d => ∀ e, d.employeeID = some e → e ≠ "" →
    st.users.lookup e ≠ none) st.tasks

/-- A write that keeps `SchemaOk`. -/
def SchemaWrite (st : Store) : Write → Prop
  | .setUser _ f => f.Complete
  | .mergeUser u f => st.users.lookup u ≠ none ∧ f.address = none
  | .updateUser _ f => ∀ a, f.address = some a → a.Complete
  | .addTask _ f => f.employeeID = some ""
  | .mergeTask _ f => f.employeeID = none
  | .updateTask _ f => ∀ e, f.employeeID = some e → st.users.lookup e ≠ none

/-- Pages that refer to accounts with a users document only. -/
structure SchemaScreens (u : Uid) (st : Store) (x : Screens) : Prop where
  home : x.home.employeeProfileButtonHidden = false → st.users.lookup u.1 ≠ none
  explore : x.explore ≠ [] → st.users.lookup u.1 ≠ none
  accept : ∀ vc ∈ x.accept, vc.userID = some u.1 ∧ st.users.lookup u.1 ≠ none
  recent : ∀ vc ∈ x.recent, ∀ task ∈ vc.recentTasks, ∀ e, task.employeeID = some e →
    st.users.lookup e ≠ none
  rate : ∀ vc ∈ x.rate, vc.clientID = "" ∧ st.users.lookup vc.employeeID ≠ none

/-! ### Writes -/

/-- No write removes a users document. -/
lemma usersLe_apply (w : Write) (st : Store) : UsersLe st (w.apply st) := by
  intro u hu
  cases w with
  | setUser u' f => exact lookup_ne_none_setData hu u' f
  | mergeUser u' f => exact lookup_ne_none_setData hu u' _
  | updateUser u' f => exact lookup_ne_none_updateData.mpr hu
  | addTask id f => exact hu
  | mergeTask id f => exact hu
  | updateTask id f => exact hu

/-- A write on more documents leaves more documents. -/
lemma UsersLe.apply {st st' : Store} (h : UsersLe st st') (w : Write) :
    UsersLe (w.apply st) (w.apply st') := by
  intro u hu
  cases w with
  | setUser u' f =>
      rw [setUser_users, lookup_setData] at hu ⊢
      split
      · exact Option.some_ne_none f
      · next hne => rw [if_neg hne] at hu; exact h u hu
  | mergeUser u' f =>
      rw [mergeUser_users, lookup_mergeData] at hu ⊢
      split
      · exact Option.some_ne_none _
      · next hne => rw [if_neg hne] at hu; exact h u hu
  | updateUser u' f =>
      exact lookup_ne_none_updateData.mpr (h u (lookup_ne_none_updateData.mp hu))
  | addTask id f => exact h u hu
  | mergeTask id f => exact h u hu
  | updateTask id f => exact h u hu

lemma SchemaWrite.mono {st st' : Store} {w : Write} (hw : SchemaWrite st w)
    (h : UsersLe st st') : SchemaWrite st' w := by
  cases w with
  | mergeUser u f => exact ⟨h u hw.1, hw.2⟩
  | updateTask id f => exact fun e he => h e (hw e he)
  | setUser u f => exact hw
  | updateUser u f => exact hw
  | addTask id f => exact hw
  | mergeTask id f => exact hw

/-- A write other than the registration of a new account creates no users
document. -/
lemma SchemaWrite.usersLe {st : Store} {w : Write} (hw : SchemaWrite st w)
    (hset : ∀ u f, w = .setUser u f → st.users.lookup u ≠ none) : UsersLe (w.apply st) st := by
  intro u hu
  cases w with
  | setUser u' f =>
      rw [setUser_users, lookup_setData] at hu
      split at hu
      · next heq => exact heq ▸ hset u' f rfl
      · exact hu
  | mergeUser u' f =>
      rw [mergeUser_users, lookup_mergeData] at hu
      split at hu
      · next heq => exact heq ▸ hw.1
      · exact hu
  | updateUser u' f => exact lookup_ne_none_updateData.mp hu
  | addTask id f => exact hu
  | mergeTask id f => exact hu
  | updateTask id f => exact hu

/-- A new employee of a task owns a users document. -/
lemma employees_over (st : Store) {p d : TaskDoc}
    (hp : ∀ e, p.employeeID = some e → e ≠ "" → st.users.lookup e ≠ none)
    (hd : ∀ e, d.employeeID = some e → e ≠ "" → st.users.lookup e ≠ none) :
    ∀ e, (p.over d).employeeID = some e → e ≠ "" → st.users.lookup e ≠ none := by
  intro e he
  rcases hpe : p.employeeID with - | e'
  · exact hd e (by simpa [TaskDoc.over, hpe] using he)
  · exact hp e (by simpa [TaskDoc.over, hpe] using he)

lemma SchemaOk.apply {st : Store} (h : SchemaOk st) {w : Write} (hw : SchemaWrite st w) :
    SchemaOk (w.apply st) := by
  have hle := usersLe_apply w st
  -- what was an owner before the write is one after it
  have hold : AllDocs (fun _ d => ∀ e, d.employeeID = some e → e ≠ "" →
      (w.apply st).users.lookup e ≠ none) st.tasks :=
    fun id d hd e he hne => hle e (h.employees id d hd e he hne)
  cases w with
  | setUser u f => exact ⟨h.complete.setData hw, hold⟩
  | updateUser u f => exact ⟨h.complete.updateData fun d _ hd => hd.update hw, hold⟩
  | mergeUser u f =>
      refine ⟨h.complete.mergeData (fun hnone => absurd hnone hw.1) fun d _ hd => ?_, hold⟩
      rw [mergeFields_eq_updateFields hw.2]
      exact hd.update (by simp [hw.2])
  | addTask id f =>
      refine ⟨h.complete, hold.setData fun e he hne => ?_⟩
      rw [SchemaWrite] at hw
      exact absurd (Option.some.inj (hw.symm.trans he)).symm hne
  | mergeTask id f =>
      rw [SchemaWrite] at hw
      refine ⟨h.complete, hold.mergeData (fun _ e he => ?_) fun d _ hd => ?_⟩
      · simp [Document.mergeFields, TaskDoc.over, hw] at he
        exact absurd he (by simp [default, instInhabitedTaskDoc.default])
      · exact employees_over st (by simp [hw]) hd
  | updateTask id f =>
      exact ⟨h.complete, hold.updateData fun d _ hd =>
        employees_over st (fun e he _ => hw e he) hd⟩

/-! ### Pages -/

lemma SchemaScreens.mono {u : Uid} {st st' : Store} {x : Screens} (hx : SchemaScreens u st x)
    (h : UsersLe st st') : SchemaScreens u st' x where
  home hh := h _ (hx.home hh)
  explore he := h _ (hx.explore he)
  accept vc hvc := ⟨(hx.accept vc hvc).1, h _ (hx.accept vc hvc).2⟩
  recent vc hvc task ht e he := h _ (hx.recent vc hvc task ht e he)
  rate vc hvc := ⟨(hx.rate vc hvc).1, h _ (hx.rate vc hvc).2⟩

/-- The writes an action issues are fit, and the pages it leaves refer to
accounts with a document. -/
lemma Effect.schema {uid : Uid} {g g' : Posted} {x x' : Screens} {v : Store} {ws : List Write}
    (h : Effect uid g x v g' x' ws) (hv : SchemaOk v) (hx : SchemaScreens uid v x) :
    (∀ w ∈ ws, SchemaWrite v w) ∧ SchemaScreens uid v x' := by
  have hrate : ∀ vc ∈ x'.rate, vc.clientID = "" ∧ v.users.lookup vc.employeeID ≠ none :=
    h.forall_rate (P := fun e c _ => c = "" ∧ v.users.lookup e ≠ none) hx.rate
      fun page hpage task ht e _ he _ => ⟨rfl, hx.recent page hpage task ht e he⟩
  cases h with
  | idle => exact ⟨by simp, hx⟩
  | own w hw =>
      refine ⟨List.forall_mem_singleton.mpr ?_, hx⟩
      cases hw with
      | register r => exact setUserData_complete r _
      | editProfile p => exact fun a ha => updateUserInfo_address ha
      | signUp => exact fun a ha => absurd ha (by simp)
      | toggle isOn => exact fun a ha => absurd ha (by simp)
  | home vc hhome =>
      refine ⟨by simp, { hx with home := fun hh => ?_ }⟩
      rcases hhome with heq | hdoc
      · exact hx.home (heq ▸ hh)
      · exact hdoc
  | post id form task hnew htask =>
      obtain ⟨page, now, -, hpage, hpost⟩ := htask
      refine ⟨List.forall_mem_singleton.mpr ?_, hx⟩
      rw [postTaskButtonPressed_eq_some hpage hpost]
      rfl
  | openExplore vc hhidden => exact ⟨by simp, { hx with explore := fun _ => hx.home hhidden }⟩
  | selectTask vc hvc hpage =>
      have haccept := forall_mem_opened hx.accept ⟨hvc, hx.explore hpage⟩
      exact ⟨by simp, { hx with accept := haccept }⟩
  | accept vc u hvc hu =>
      refine ⟨List.forall_mem_singleton.mpr fun e he => ?_, hx⟩
      obtain ⟨hown, hdoc⟩ := hx.accept vc hvc
      obtain rfl : uid.1 = e := Option.some.inj (hown.symm.trans (hu.trans he))
      exact hdoc
  | openRecent =>
      refine ⟨by simp, { hx with recent := forall_mem_opened hx.recent fun task ht e he => ?_ }⟩
      obtain ⟨id, d, e', hd, he', hne, -, -, hencode⟩ :=
        RecentTasksTableViewController.mem_recentTasks ht
      have hsame : task.employeeID = some e' := by
        rw [← he', ← hencode]
        rfl
      obtain rfl : e' = e := Option.some.inj (hsame.symm.trans he)
      exact hv.employees id d hd e' he' hne
  | openRate page task e id _ _ _ _ => exact ⟨by simp, { hx with rate := hrate }⟩
  | loadRate page vc vc' answered _ _ => exact ⟨by simp, { hx with rate := hrate }⟩
  | star page vc c tag _ => exact ⟨by simp, { hx with rate := hrate }⟩
  | complete page vc hmem =>
      obtain ⟨hclient, hdoc⟩ := hx.rate vc hmem
      refine ⟨fun w hw => ?_, { hx with rate := hrate }⟩
      rw [RateUserViewController.completeButtonTapped_writes hclient] at hw
      split at hw
      · rcases List.mem_pair.mp hw with rfl | rfl
        · exact ⟨hdoc, rfl⟩
        · rfl
      · simp at hw
  | openPay page task id _ _ _ => exact ⟨by simp, { hx with }⟩
  | confirmPay vc _ =>
      exact ⟨by simp [PaidMechanismViewController.confirmButtonTapped, SchemaWrite], hx⟩

variable {C : Type*} (uid : C → Uid)

lemma usersLe_applyAll (ws : List Write) (st : Store) :
    UsersLe st ((app uid).applyAll ws st) :=
  (app uid).applyAll_of_forall (P := UsersLe st) (fun _ hu => hu)
    fun w _ st' h u hu => usersLe_apply w st' u (h u hu)

/-- Writes fit for one store are fit one after the other. -/
lemma queueOk_schemaWrite {st : Store} {ws : List Write} (h : ∀ w ∈ ws, SchemaWrite st w) :
    (app uid).QueueOk SchemaWrite st ws := by
  induction ws generalizing st with
  | nil => trivial
  | cons w ws ih =>
      refine ⟨h w (by simp), ih fun w' hw' => ?_⟩
      exact (h w' (by simp [hw'])).mono (usersLe_apply w st)

/-- The write refused is not the registration of an account without a users
document. -/
def RegistrationAccepted {C : Type*} (s : State C Store Write Screens Posted) :
    FaultyEvent C Action → Prop
  | .refuse c => ∀ u f, (s.queue c).head? = some (.setUser u f) → s.store.users.lookup u ≠ none
  | .ok _ => True

/-- Accounts referred to own a document. Others may add documents meanwhile, and
a write that is not the registration of a new account may be refused. -/
def schema : Discipline (app uid) where
  StoreOk _ st := SchemaOk st
  WriteOk _ st w := SchemaWrite st w
  ScreenOk c _ st x := SchemaScreens (uid c) st x
  Grow _ _ := True
  Rely _ _ st st' := UsersLe st st'
  Side _ := True
  Refusable s c := RegistrationAccepted s (.refuse c)
  grow_store _ _ _ _ h := h
  grow_write _ _ _ _ _ h := h
  grow_screen _ _ _ _ _ _ h := h
  apply _ _ _ h hw := h.apply hw
  rely_cons _ _ w _ _ _ hR hw := ⟨hw.mono hR, hR.apply w⟩
  rely_nil _ _ _ _ _ hR h := h.mono hR
  act c g v x a g' x' ws hv hx h := by
    obtain ⟨hws, hx'⟩ := (effect_of_act h).schema hv hx
    exact ⟨trivial, queueOk_schemaWrite uid hws, hx'.mono (usersLe_applyAll uid ws v)⟩
  commit s c c' w q _ _ _ _ := usersLe_apply w s.store
  refuse s c w q hq hw hrefuse := hw.usersLe fun u f heq =>
    hrefuse u f (by rw [hq, heq]; rfl)

variable {uid} [DecidableEq C]

/-- **Schema of the users documents**: in a run in which no registration of a new
account is refused, every users document that is stored, or shown to a device, is complete,
and no screen that reads it traps. -/
theorem users_complete {es : List (FaultyEvent C Action)}
    {s : State C Store Write Screens Posted}
    (hC : EachStep (app uid).faultyStep RegistrationAccepted start es)
    (h : exec (app uid).faultyStep start es = some s) {u : String} {d : User}
    (hd : s.store.users.lookup u = some d ∨
      ∃ c, ((app uid).view s c).users.lookup u = some d) :
    d.Complete ∧ d.Reads := by
  have hstart : (schema uid).Inv start := by
    refine ⟨⟨allDocs_empty _, allDocs_empty _⟩, fun _ => trivial, fun c => ?_⟩
    exact ⟨by simp [start], by simp [start], by simp [start], by simp [start], by simp [start]⟩
  have hinv : (schema uid).Inv s := exec_invariant_of_eachStep
    (fun s e s' hs hC hstep => Discipline.inv_faultyStep trivial hs
      (fun c hc => by subst hc; exact hC) hstep) hstart hC h
  have hcomplete : d.Complete := by
    rcases hd with hd | ⟨c, hd⟩
    · exact hinv.store.complete u d hd
    · exact (hinv.view c).complete u d hd
  exact ⟨hcomplete, hcomplete.reads⟩

/-- A registered employee accepts a task and is rated. -/
theorem users_complete_rated : ∃ s d,
    exec (app users).faultyStep start
      ((registering .second ++ posting ++ accepting .second ++ rating).map .ok) = some s ∧
    s.store.users.lookup "employee" = some d ∧ d.Complete ∧ d.Reads := by
  have hrun : (exec (app users).faultyStep start
      ((registering .second ++ posting ++ accepting .second ++ rating).map .ok)).map
      (fun s => (s.store.users.lookup "employee").isSome) = some true := by decide +kernel
  obtain ⟨s, hs, hsome⟩ := Option.map_eq_some_iff.mp hrun
  obtain ⟨d, hd⟩ := Option.isSome_iff_exists.mp hsome
  refine ⟨s, d, hs, hd, users_complete (eachStep_of_forall fun s e he => ?_) hs (Or.inl hd)⟩
  obtain ⟨e', -, rfl⟩ := List.mem_map.mp he
  trivial

/-- The employee's home page shows the pending document of a registration that
is refused later; the employee accepts, the client rates, and the users document
has no name for the home page to show. -/
theorem refused_registration : ∃ s d,
    exec (app users).faultyStep start
      (posting.map .ok ++
        [.ok (.act .second (.register registration)), .ok (.act .second (.home true)),
        .refuse .second] ++ ((accepting .second).tail ++ rating).map .ok) = some s ∧
    s.store.users.lookup "employee" = some d ∧ ¬ d.Complete ∧
    HomeExplorePageViewController.showUser {} (.document d) = none := by
  have hrun : (exec (app users).faultyStep start
      (posting.map .ok ++
        [.ok (.act .second (.register registration)), .ok (.act .second (.home true)),
        .refuse .second] ++ ((accepting .second).tail ++ rating).map .ok)).map
      (fun s => (s.store.users.lookup "employee").map User.firstname) = some (some none) := by
    decide +kernel
  obtain ⟨s, hs, hname⟩ := Option.map_eq_some_iff.mp hrun
  obtain ⟨d, hd, hfirst⟩ := Option.map_eq_some_iff.mp hname
  refine ⟨s, d, hs, hd, fun hcomplete => ?_, ?_⟩
  · exact absurd hcomplete.firstname (by simp [hfirst])
  · simp [HomeExplorePageViewController.showUser, hfirst]

end Tasker.Market
