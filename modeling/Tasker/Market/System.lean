import Tasker.Lib.WriteQueue
import Tasker.Screens.Profile
import Tasker.Screens.Tasks

/-!
The app on the devices of its users: accounts, tasks and ratings.

Every device is signed in to one account. Its screens read `users` and `tasks`
through the local view of the Firestore client, which shows the device's own
writes as soon as they are issued, and their writes are committed in the order
in which the device issued them.

* `Action`: what can happen on a device; `act`: its effect, by the handlers of
  the screens. An action that is not possible, or traps, is `none`.
* `app`: the system of `WriteQueue` these actions make; `start`: no documents,
  fresh devices.
* `Effect`, `effect_of_act`: what an action can do.
* `Fresh`, `fresh_step`, `fresh_faultyStep`: the id of a queued post was issued,
  to one device.

A page once opened stays open with what it shows, so that the rows a tap refers
to are as old as can be; the answer to a rating page can come at any time, more
than once, or be an error.
-/

namespace Tasker.Market

open DocStore EventSystem WriteQueue

/-- The id of an account; Firebase ids are not empty. -/
abbrev Uid := { u : String // u ≠ "" }

/-- The open pages of a device. -/
structure Screens where
  home : HomeExplorePageViewController := {}
  explore : List EmployeeExplorePageViewController := []
  accept : List AcceptTaskViewController := []
  recent : List RecentTasksTableViewController := []
  rate : List RateUserViewController := []
  pay : List PaidMechanismViewController := []

/-- The tasks posted so far, by the ids generated for them. -/
abbrev Posted := Collection String Errand

/-- What can happen on a device. Pages and rows are given by their positions;
`answered` tells an answer from an error. -/
inductive Action where
  /-- `SetupPageViewController.setUserData`. -/
  | register (r : Registration)
  /-- `HomeExplorePageViewController.viewWillAppear`. -/
  | home (answered : Bool)
  /-- `EditProfileViewController.updateUserInfo`. -/
  | editProfile (p : ProfileEdit)
  /-- `EmployeeStatusViewController.signUpTapped`. -/
  | signUp (answered : Bool)
  /-- `NotificationSettingsViewController.switchToggled`. -/
  | toggleNotifications (isOn : Bool)
  /-- `SubmitTaskViewController.postTaskButtonPressed`, with the id
  `addDocument` generates. -/
  | post (id : String) (form : ListTaskViewController) (page : SubmitTaskViewController)
      (now : ℤ)
  /-- `EmployeeExplorePageViewController.viewDidLoad`. -/
  | openExplore (cityAnswered : Bool)
  /-- `EmployeeExplorePageViewController.collectionView(didSelectItemAt:)`. -/
  | selectTask (page : ℕ) (l : EmployeeExplorePageViewController.TaskList) (row : ℕ)
  /-- `AcceptTaskViewController.acceptClicked`. -/
  | accept (page : ℕ)
  /-- `RecentTasksTableViewController.viewDidLoad`. -/
  | openRecent
  /-- `RecentTasksTableViewController.didRateButtonPressed`. -/
  | openRate (page row : ℕ)
  /-- The answer to `RateUserViewController.retriveEmployeeRatings`. -/
  | loadRate (page : ℕ) (answered : Bool)
  /-- A star button of `RateUserViewController`. -/
  | star (page : ℕ) (c : RateUserViewController.Category) (tag : Fin 5)
  /-- `RateUserViewController.completeButtonTapped`. -/
  | complete (page : ℕ)
  /-- `RecentTasksTableViewController.didPayButtonPressed`. -/
  | openPay (page row : ℕ)
  /-- `PaidMechanismViewController.confirmButtonTapped`. -/
  | confirmPay (page : ℕ)

/-- The answer of a `getDocument` that reads what a key holds. -/
def fetch (answered : Bool) (d : Option User) : Fetched User :=
  if answered then .ofLookup d else .error

/-- The effect of an action on the posted tasks, the pages of a device signed in
as `uid`, and its writes. -/
def act (uid : Uid) (posted : Posted) (x : Screens) (view : Store) :
    Action → Option (Posted × Screens × List Write)
  | .register r => some (posted, x, [.setUser uid (setUserData r uid)])
  | .home answered =>
      (x.home.showUser (fetch answered (view.users.lookup uid.1))).map fun home =>
        (posted, { x with home }, [])
  | .editProfile p => some (posted, x, [.updateUser uid (updateUserInfo p)])
  | .signUp answered =>
      (EmployeeStatusViewController.signUpTapped ⟨"", ""⟩ uid
        (fetch answered (view.users.lookup uid.1))).map fun r => (posted, x, r.2)
  | .toggleNotifications isOn =>
      some (posted, x, NotificationSettingsViewController.switchToggled ⟨isOn⟩ uid)
  | .post id form page now =>
      if form.uid = uid ∧ page.task = form.navigateToSubmitVC ∧ posted.lookup id = none then
        match (page.postTaskButtonPressed now).2 with
        | some task => some (setData posted id task, x, [.addTask id task.encode])
        | none => some (posted, x, [])
      else none
  | .openExplore cityAnswered =>
      if x.home.employeeProfileButtonHidden then none
      else
        let page := EmployeeExplorePageViewController.showCity {}
          (fetch cityAnswered (view.users.lookup uid.1))
        some (posted, { x with
          explore := x.explore ++ [(page.appendTasks (documents view.tasks)).fillLists] }, [])
  | .selectTask page l row =>
      (x.explore[page]?.bind fun vc => vc.didSelectItemAt (some uid) l row).map fun vc =>
        (posted, { x with accept := x.accept ++ [vc] }, [])
  | .accept page =>
      (x.accept[page]?.bind AcceptTaskViewController.acceptClicked).map fun ws => (posted, x, ws)
  | .openRecent =>
      some (posted, { x with
        recent := x.recent ++ [RecentTasksTableViewController.appendTasks {}
          (RecentTasksTableViewController.query uid view.tasks)] }, [])
  | .openRate page row =>
      (x.recent[page]?.bind fun vc => vc.recentTasks[row]?).bind fun task =>
        if RecentTasksTableViewController.canRate task then
          (RecentTasksTableViewController.didRateButtonPressed task).map fun vc =>
            (posted, { x with rate := x.rate ++ [vc] }, [])
        else none
  | .loadRate page answered =>
      (x.rate[page]?.bind fun vc =>
        vc.retriveRatings (fetch answered (view.users.lookup vc.requestedID))).map fun vc =>
          (posted, { x with rate := x.rate.set page vc }, [])
  | .star page c tag =>
      x.rate[page]?.map fun vc =>
        (posted, { x with rate := x.rate.set page (vc.starButtonTapped c tag) }, [])
  | .complete page =>
      x.rate[page]?.map fun vc =>
        (posted, { x with rate := x.rate.set page vc.completeButtonTapped.1 },
          vc.completeButtonTapped.2)
  | .openPay page row =>
      (x.recent[page]?.bind fun vc => vc.recentTasks[row]?).bind fun task =>
        if RecentTasksTableViewController.canPay task then
          (RecentTasksTableViewController.didPayButtonPressed task).map fun vc =>
            (posted, { x with pay := x.pay ++ [vc] }, [])
        else none
  | .confirmPay page =>
      x.pay[page]?.map fun vc => (posted, x, vc.confirmButtonTapped)

variable {C : Type*} (uid : C → Uid)

/-- The app as a system of clients with write queues. -/
def app : App C Store Write Screens Posted Action where
  apply := Write.apply
  act c := act (uid c)

@[simp] lemma app_apply (w : Write) (st : Store) : (app uid).apply w st = w.apply st := rfl

@[simp] lemma app_act (c : C) : (app uid).act c = act (uid c) := rfl

/-- No documents, fresh devices. -/
def start : State C Store Write Screens Posted where
  store := {}
  queue _ := []
  screen _ := {}
  shared := ∅

/-! ### Three devices -/

/-- The devices of the examples. -/
inductive Device where
  | first
  | second
  | third
  deriving DecidableEq, Repr

instance : Fintype Device where
  elems := {.first, .second, .third}
  complete c := by cases c <;> decide

def client : Uid := ⟨"client", by decide⟩

def employee : Uid := ⟨"employee", by decide⟩

def other : Uid := ⟨"other", by decide⟩

/-- A client and two employees. -/
def users : Device → Uid
  | .first => client
  | .second => employee
  | .third => other

/-- The registration of an employee. -/
def registration : Registration where
  email := "employee@example.com"
  skills := "painting"
  isEmployee := true
  firstName := "Ed"
  lastName := "Lee"
  dateOfBirth := "01/31/1990"
  city := "Olympia"
  street := "1 Main St"
  zipCode := 98501
  bio := ""
  state := "WA"

/-- The task of the client. -/
def form : ListTaskViewController where
  uid := "client"
  titleText := some "Fence"
  categoryText := some "Programming"
  taskDescription := some "Paint it"

def posting : List (Event Device Action) :=
  [.act .first (.post "t1" form
    { task := form.navigateToSubmitVC, validPrice := true, cost := some (.finite 20) } 0),
    .commit .first]

def registering (c : Device) : List (Event Device Action) :=
  [.act c (.register registration), .commit c]

/-- An employee's home page shows the button, and the task is accepted. -/
def accepting (c : Device) : List (Event Device Action) :=
  [.act c (.home true), .act c (.openExplore true), .act c (.selectTask 0 .skills 0),
    .act c (.accept 0), .commit c]

/-- The client gives five stars. -/
def rating : List (Event Device Action) :=
  [.act .first .openRecent, .act .first (.openRate 0 0), .act .first (.loadRate 0 true),
    .act .first (.star 0 .category1 (Fin.last 4)), .act .first (.star 0 .category2 (Fin.last 4)),
    .act .first (.star 0 .category3 (Fin.last 4)), .act .first (.complete 0), .commit .first,
    .commit .first]

/-! ### What an action can do -/

/-- A write of a device to the users document of its own account. -/
inductive OwnWrite (uid : Uid) : Write → Prop where
  | register (r : Registration) : OwnWrite uid (.setUser uid (setUserData r uid))
  | editProfile (p : ProfileEdit) : OwnWrite uid (.updateUser uid (updateUserInfo p))
  | signUp : OwnWrite uid (.updateUser uid { employee := some true })
  | toggle (isOn : Bool) : OwnWrite uid (.updateUser uid { notifications := some isOn })

/-- The possible effects of an action on the posted tasks `g`, the pages `x` and
the view `v`. -/
inductive Effect (uid : Uid) (g : Posted) (x : Screens) (v : Store) :
    Posted → Screens → List Write → Prop where
  | idle : Effect uid g x v g x []
  | own (w : Write) (h : OwnWrite uid w) : Effect uid g x v g x [w]
  | home (vc : HomeExplorePageViewController)
      (h : vc.employeeProfileButtonHidden = x.home.employeeProfileButtonHidden ∨
        v.users.lookup uid.1 ≠ none) :
      Effect uid g x v g { x with home := vc } []
  | post (id : String) (form : ListTaskViewController) (task : Errand) (h : g.lookup id = none)
      (htask : ∃ page now, form.uid = uid ∧ page.task = form.navigateToSubmitVC ∧
        (SubmitTaskViewController.postTaskButtonPressed page now).2 = some task) :
      Effect uid g x v (setData g id task) x [.addTask id task.encode]
  | openExplore (vc : EmployeeExplorePageViewController)
      (h : x.home.employeeProfileButtonHidden = false) :
      Effect uid g x v g { x with explore := x.explore ++ [vc] } []
  | selectTask (vc : AcceptTaskViewController) (h : vc.userID = some uid.1)
      (hpage : x.explore ≠ []) :
      Effect uid g x v g { x with accept := x.accept ++ [vc] } []
  | accept (vc : AcceptTaskViewController) (u : String) (h : vc ∈ x.accept)
      (hu : vc.userID = some u) :
      Effect uid g x v g x [.updateTask vc.dID { employeeID := some u }]
  | openRecent : Effect uid g x v g { x with
      recent := x.recent ++ [RecentTasksTableViewController.appendTasks {}
        (RecentTasksTableViewController.query uid v.tasks)] } []
  | openRate (page : RecentTasksTableViewController) (task : Errand) (e id : String)
      (hpage : page ∈ x.recent) (htask : task ∈ page.recentTasks)
      (he : task.employeeID = some e) (hid : task.docID = some id) :
      Effect uid g x v g { x with rate := x.rate ++ [{ employeeID := e, docID := id }] } []
  | loadRate (page : ℕ) (vc vc' : RateUserViewController) (answered : Bool) (h : vc ∈ x.rate)
      (hload : vc.retriveRatings (fetch answered (v.users.lookup vc.requestedID)) = some vc') :
      Effect uid g x v g { x with rate := x.rate.set page vc' } []
  | star (page : ℕ) (vc : RateUserViewController) (c : RateUserViewController.Category)
      (tag : Fin 5) (h : vc ∈ x.rate) :
      Effect uid g x v g { x with rate := x.rate.set page (vc.starButtonTapped c tag) } []
  | complete (page : ℕ) (vc : RateUserViewController) (h : vc ∈ x.rate) :
      Effect uid g x v g { x with rate := x.rate.set page vc.completeButtonTapped.1 }
        vc.completeButtonTapped.2
  | openPay (page : RecentTasksTableViewController) (task : Errand) (id : String)
      (hpage : page ∈ x.recent) (htask : task ∈ page.recentTasks) (hid : task.docID = some id) :
      Effect uid g x v g { x with pay := x.pay ++ [{ docID := id }] } []
  | confirmPay (vc : PaidMechanismViewController) (h : vc ∈ x.pay) :
      Effect uid g x v g x vc.confirmButtonTapped

/-- What holds of the open pages and of the one opened holds of all. -/
lemma forall_mem_opened {α : Type*} {P : α → Prop} {l : List α} {a : α} (hl : ∀ b ∈ l, P b)
    (ha : P a) : ∀ b ∈ l ++ [a], P b :=
  List.forall_mem_append.mpr ⟨hl, List.forall_mem_singleton.mpr ha⟩

/-- What holds of the open pages and of the one put in place of another holds of
all. -/
lemma forall_mem_replaced {α : Type*} {P : α → Prop} {l : List α} {i : ℕ} {a : α}
    (hl : ∀ b ∈ l, P b) (ha : P a) : ∀ b ∈ l.set i a, P b := by
  intro b hb
  rcases List.mem_or_eq_of_mem_set hb with hb | rfl
  · exact hl b hb
  · exact ha

/-- What the ids of the open rating pages satisfy, and those of the rows they are
opened from, the ids of every rating page satisfy after an action. -/
lemma Effect.forall_rate {P : String → String → String → Prop} {uid : Uid} {g g' : Posted}
    {x x' : Screens} {v : Store} {ws : List Write} (h : Effect uid g x v g' x' ws)
    (hopen : ∀ vc ∈ x.rate, P vc.employeeID vc.clientID vc.docID)
    (hrow : ∀ page ∈ x.recent, ∀ task ∈ page.recentTasks, ∀ e id, task.employeeID = some e →
      task.docID = some id → P e "" id) :
    ∀ vc ∈ x'.rate, P vc.employeeID vc.clientID vc.docID := by
  cases h with
  | openRate page task e id hpage htask he hid =>
      exact forall_mem_opened hopen (hrow page hpage task htask e id he hid)
  | loadRate page vc vc' answered hmem hload =>
      obtain ⟨he, hc, hd⟩ := RateUserViewController.retriveRatings_frame hload
      refine forall_mem_replaced hopen ?_
      rw [he, hc, hd]
      exact hopen vc hmem
  | star page vc c tag hmem =>
      obtain ⟨he, hc, hd, -⟩ := RateUserViewController.starButtonTapped_frame vc c tag
      refine forall_mem_replaced hopen ?_
      rw [he, hc, hd]
      exact hopen vc hmem
  | complete page vc hmem =>
      obtain ⟨he, hc, hd, -⟩ := RateUserViewController.completeButtonTapped_frame vc
      refine forall_mem_replaced hopen ?_
      rw [he, hc, hd]
      exact hopen vc hmem
  | _ => exact hopen

/-- The row of a page. -/
lemma mem_row {x : Screens} {page row : ℕ} {task : Errand}
    (h : (x.recent[page]?.bind fun vc => vc.recentTasks[row]?) = some task) :
    ∃ vc ∈ x.recent, task ∈ vc.recentTasks := by
  obtain ⟨vc, hvc, htask⟩ := Option.bind_eq_some_iff.mp h
  exact ⟨vc, List.mem_of_getElem? hvc, List.mem_of_getElem? htask⟩

/-- Taking over a users document shows the employee button only if there is a
document. -/
lemma showUser_hidden {vc vc' : HomeExplorePageViewController} {answered : Bool}
    {d : Option User} (h : vc.showUser (fetch answered d) = some vc') :
    vc'.employeeProfileButtonHidden = vc.employeeProfileButtonHidden ∨ d ≠ none := by
  cases d with
  | some d => exact Or.inr (by simp)
  | none =>
      left
      cases answered <;> exact (Option.some.inj h) ▸ rfl

/-- What signing up writes. -/
lemma signUpTapped_writes {vc vc' : EmployeeStatusViewController} {uid : Uid} {a : Fetched User}
    {ws : List Write} (h : vc.signUpTapped uid a = some (vc', ws)) :
    ws = [] ∨ ws = [.updateUser uid { employee := some true }] := by
  cases a with
  | error => obtain ⟨-, rfl⟩ := Prod.mk.inj (Option.some.inj h); exact Or.inl rfl
  | missing => exact absurd h (by simp [EmployeeStatusViewController.signUpTapped])
  | undecodable => exact absurd h (by simp [EmployeeStatusViewController.signUpTapped])
  | document d =>
      obtain ⟨employOrNot, -, heq⟩ := Option.map_eq_some_iff.mp h
      cases employOrNot with
      | true => obtain ⟨-, rfl⟩ := Prod.mk.inj heq; exact Or.inl rfl
      | false => obtain ⟨-, rfl⟩ := Prod.mk.inj heq; exact Or.inr rfl

/-- The page opened by a row is the signed-in user's. -/
lemma didSelectItemAt_userID {vc : EmployeeExplorePageViewController} {u : Option String}
    {l : EmployeeExplorePageViewController.TaskList} {row : ℕ} {vc' : AcceptTaskViewController}
    (h : vc.didSelectItemAt u l row = some vc') : vc'.userID = u := by
  obtain ⟨task, -, htask⟩ := Option.bind_eq_some_iff.mp h
  split at htask
  · exact (Option.some.inj htask) ▸ rfl
  · exact absurd htask (by simp)

/-- Two results of an action agree in their three parts. -/
lemma act_eq_some {g g' : Posted} {x x' : Screens} {ws ws' : List Write}
    (h : some (g, x, ws) = some (g', x', ws')) : g = g' ∧ x = x' ∧ ws = ws' := by
  simpa using h

/-- An action that computes its result from a value that may be missing. -/
lemma act_map_eq_some {α : Type*} {o : Option α} {f : α → Posted × Screens × List Write}
    {g : Posted} {x : Screens} {ws : List Write} (h : o.map f = some (g, x, ws)) :
    ∃ a, o = some a ∧ (f a).1 = g ∧ (f a).2.1 = x ∧ (f a).2.2 = ws := by
  obtain ⟨a, ha, heq⟩ := Option.map_eq_some_iff.mp h
  exact ⟨a, ha, act_eq_some (congrArg some heq)⟩

/-- An action has one of the effects. -/
theorem effect_of_act {uid : Uid} {g g' : Posted} {x x' : Screens} {v : Store} {a : Action}
    {ws : List Write} (h : act uid g x v a = some (g', x', ws)) :
    Effect uid g x v g' x' ws := by
  cases a with
  | register r =>
      obtain ⟨rfl, rfl, rfl⟩ := act_eq_some h
      exact .own _ (.register r)
  | home answered =>
      obtain ⟨vc, hvc, rfl, rfl, rfl⟩ := act_map_eq_some h
      exact .home vc (showUser_hidden hvc)
  | editProfile p =>
      obtain ⟨rfl, rfl, rfl⟩ := act_eq_some h
      exact .own _ (.editProfile p)
  | signUp answered =>
      obtain ⟨⟨vc, ws'⟩, hr, rfl, rfl, rfl⟩ := act_map_eq_some h
      rcases signUpTapped_writes hr with hws | hws
      · rw [hws]
        exact .idle
      · rw [hws]
        exact .own _ .signUp
  | toggleNotifications isOn =>
      obtain ⟨rfl, rfl, rfl⟩ := act_eq_some h
      exact .own _ (.toggle isOn)
  | post id form page now =>
      rw [act] at h
      split at h
      · next hguard =>
          split at h
          · next task htask =>
              obtain ⟨rfl, rfl, rfl⟩ := act_eq_some h
              exact .post id form task hguard.2.2 ⟨page, now, hguard.1, hguard.2.1, htask⟩
          · obtain ⟨rfl, rfl, rfl⟩ := act_eq_some h
            exact .idle
      · exact absurd h (by simp)
  | openExplore cityAnswered =>
      rw [act] at h
      split at h
      · exact absurd h (by simp)
      · next hhidden =>
          obtain ⟨rfl, rfl, rfl⟩ := act_eq_some h
          exact .openExplore _ (by simpa using hhidden)
  | selectTask page l row =>
      obtain ⟨vc, hvc, rfl, rfl, rfl⟩ := act_map_eq_some h
      obtain ⟨epage, hpage, hsel⟩ := Option.bind_eq_some_iff.mp hvc
      exact .selectTask vc (didSelectItemAt_userID hsel)
        (List.ne_nil_of_mem (List.mem_of_getElem? hpage))
  | accept page =>
      obtain ⟨ws', hws, rfl, rfl, rfl⟩ := act_map_eq_some h
      obtain ⟨vc, hvc, hacc⟩ := Option.bind_eq_some_iff.mp hws
      obtain ⟨u, hu, rfl⟩ := Option.map_eq_some_iff.mp hacc
      exact .accept vc u (List.mem_of_getElem? hvc) hu
  | openRecent =>
      obtain ⟨rfl, rfl, rfl⟩ := act_eq_some h
      exact .openRecent
  | openRate page row =>
      obtain ⟨task, htask, hrate⟩ := Option.bind_eq_some_iff.mp h
      obtain ⟨vc, hvc, hmem⟩ := mem_row htask
      split at hrate
      · obtain ⟨rvc, hrvc, rfl, rfl, rfl⟩ := act_map_eq_some hrate
        obtain ⟨e, id, he, hid, rfl⟩ :=
          RecentTasksTableViewController.didRateButtonPressed_eq_some hrvc
        exact .openRate vc task e id hvc hmem he hid
      · exact absurd hrate (by simp)
  | loadRate page answered =>
      obtain ⟨vc', hvc', rfl, rfl, rfl⟩ := act_map_eq_some h
      obtain ⟨vc, hvc, hload⟩ := Option.bind_eq_some_iff.mp hvc'
      exact .loadRate page vc vc' answered (List.mem_of_getElem? hvc) hload
  | star page c tag =>
      obtain ⟨vc, hvc, rfl, rfl, rfl⟩ := act_map_eq_some h
      exact .star page vc c tag (List.mem_of_getElem? hvc)
  | complete page =>
      obtain ⟨vc, hvc, rfl, rfl, rfl⟩ := act_map_eq_some h
      exact .complete page vc (List.mem_of_getElem? hvc)
  | openPay page row =>
      obtain ⟨task, htask, hpay⟩ := Option.bind_eq_some_iff.mp h
      obtain ⟨vc, hvc, hmem⟩ := mem_row htask
      split at hpay
      · obtain ⟨pvc, hpvc, rfl, rfl, rfl⟩ := act_map_eq_some hpay
        obtain ⟨id, hid, rfl⟩ := Option.map_eq_some_iff.mp hpvc
        exact .openPay vc task id hvc hmem hid
      · exact absurd hpay (by simp)
  | confirmPay page =>
      obtain ⟨vc, hvc, rfl, rfl, rfl⟩ := act_map_eq_some h
      exact .confirmPay vc (List.mem_of_getElem? hvc)

/-! ### The ids of the posts -/

/-- The posted tasks only grow. -/
def Grow (g g' : Posted) : Prop := ∀ id t, g.lookup id = some t → g'.lookup id = some t

lemma Effect.grow {uid : Uid} {g g' : Posted} {x x' : Screens} {v : Store} {ws : List Write}
    (h : Effect uid g x v g' x' ws) : Grow g g' := by
  intro id t ht
  cases h with
  | post id' form task hnew htask =>
      rw [lookup_setData_ne]
      · exact ht
      · rintro rfl
        exact absurd (hnew.symm.trans ht) (by simp)
  | _ => exact ht

/-- A submission does not post. -/
lemma addTask_notMem_complete (vc : RateUserViewController) (id : String) (f : TaskDoc) :
    .addTask id f ∉ vc.completeButtonTapped.2 := by
  rw [RateUserViewController.completeButtonTapped]
  split
  · simp
  · split <;> simp

/-- A post that an action queues has a new id, which is issued to it. -/
lemma Effect.addTask {uid : Uid} {g g' : Posted} {x x' : Screens} {v : Store} {ws : List Write}
    (h : Effect uid g x v g' x' ws) {id : String} {f : TaskDoc} (hmem : .addTask id f ∈ ws) :
    g.lookup id = none ∧ g'.lookup id ≠ none := by
  cases h with
  | own w hw => cases hw <;> simp at hmem
  | post id' form task hnew htask =>
      obtain ⟨rfl, rfl⟩ : id = id' ∧ f = task.encode := by simpa using hmem
      exact ⟨hnew, by simp⟩
  | complete page vc hvc => exact absurd hmem (addTask_notMem_complete vc id f)
  | confirmPay vc hvc => simp [PaidMechanismViewController.confirmButtonTapped] at hmem
  | _ => simp at hmem

/-- Queued posts have issued ids, each queued on one device. -/
structure Fresh (s : State C Store Write Screens Posted) : Prop where
  issued : ∀ c id f, .addTask id f ∈ s.queue c → s.shared.lookup id ≠ none
  one : ∀ c c' id f f', .addTask id f ∈ s.queue c → .addTask id f' ∈ s.queue c' → c = c'

variable {uid}

lemma fresh_start : Fresh (start : State C Store Write Screens Posted) :=
  ⟨by simp [start], by simp [start]⟩

/-- The id of the task posted by a write. -/
def postedID : Write → Option String
  | .addTask id _ => some id
  | _ => none

lemma postedID_eq_some {w : Write} {id : String} :
    postedID w = some id ↔ ∃ f, w = .addTask id f := by
  cases w <;> simp [postedID]

/-- Queued posts have ids of their own. -/
lemma fresh_iff {s : State C Store Write Screens Posted} :
    Fresh s ↔ App.OwnKeys postedID (fun (g : Posted) id => g.lookup id ≠ none) s := by
  constructor
  · intro h
    refine ⟨fun c w id hw hid => ?_, fun c c' w w' id hw hw' hid hid' => ?_⟩
    · obtain ⟨f, rfl⟩ := postedID_eq_some.mp hid
      exact h.issued c id f hw
    · obtain ⟨f, rfl⟩ := postedID_eq_some.mp hid
      obtain ⟨f', rfl⟩ := postedID_eq_some.mp hid'
      exact h.one c c' id f f' hw hw'
  · exact fun h => ⟨fun c id f hf => h.known c _ id hf rfl,
      fun c c' id f f' hf hf' => h.one c c' _ _ id hf hf' rfl rfl⟩

variable [DecidableEq C]

lemma fresh_step {s s' : State C Store Write Screens Posted} {e : Event C Action}
    (h : Fresh s) (hs : (app uid).step s e = some s') : Fresh s' := by
  refine fresh_iff.mpr (App.ownKeys_step (fun c g x v a g' x' ws hact id hid => ?_)
    (fun c g x v a g' x' ws hact w hw id hid => ?_) (fresh_iff.mp h) hs)
  · have heff : Effect (uid c) g x v g' x' ws := effect_of_act hact
    obtain ⟨t, ht⟩ := Option.ne_none_iff_exists'.mp hid
    simp [heff.grow id t ht]
  · have heff : Effect (uid c) g x v g' x' ws := effect_of_act hact
    obtain ⟨f, rfl⟩ := postedID_eq_some.mp hid
    exact ⟨not_not.mpr (heff.addTask hw).1, (heff.addTask hw).2⟩

lemma fresh_faultyStep {s s' : State C Store Write Screens Posted} {e : FaultyEvent C Action}
    (h : Fresh s) (hs : (app uid).faultyStep s e = some s') : Fresh s' := by
  cases e with
  | ok e => exact fresh_step h hs
  | refuse c =>
      obtain ⟨w, q, hq, rfl⟩ := App.faultyStep_refuse_eq_some.mp hs
      exact fresh_iff.mpr ((fresh_iff.mp h).mono (fun _ _ hw => App.mem_update_tail hq hw) rfl)

end Tasker.Market
