import Tasker.Screens.RateUser

/-!
The screens of a task's life: posting it, listing it for employees, accepting
it, listing it for its client, confirming the payment.

* `ListTaskViewController`, `SubmitTaskViewController`: the task posted has the
  texts of the form, the price and the place, no employee, and no flag set.
* `EmployeeExplorePageViewController`: all tasks, in three lists; a row opens
  the accept page. The filter of the query on tasks without an employee is
  commented out in the source, and no list looks at `employeeID`.
* `AcceptTaskViewController.acceptClicked`: an unconditional update.
* `RecentTasksTableViewController`: the client's tasks that have an employee; a
  row opens the rating page or the payment page while its flag is not set.
-/

namespace Tasker

open DocStore

/-! ### Posting -/

/-- `ListTaskViewController`. -/
structure ListTaskViewController where
  uid : String
  titleText : Option String := none
  categoryText : Option String := none
  taskDescription : Option String := none
  deriving DecidableEq, Repr

/-- `navigateToSubmitVC`: the task handed to the next page. -/
def ListTaskViewController.navigateToSubmitVC (vc : ListTaskViewController) : Errand where
  title := vc.titleText.getD ""
  category := vc.categoryText.getD ""
  taskDescription := vc.taskDescription.getD ""
  employeeID := some ""
  clientID := some vc.uid
  isCompleted := some false
  hasPaid := some false
  employeeRated := some false
  clientRated := some false

/-- `SubmitTaskViewController`. -/
structure SubmitTaskViewController where
  task : Errand
  negotiableChecked : Bool := false
  validPrice : Bool := false
  cost : Option Double := none
  taskLocation : Address := {}
  errorLabel : String := ""
  deriving DecidableEq, Repr

/-- `postTaskButtonPressed` at the time `now`: the page and the task posted. -/
def SubmitTaskViewController.postTaskButtonPressed (vc : SubmitTaskViewController) (now : ℤ) :
    SubmitTaskViewController × Option Errand :=
  if vc.validPrice then
    let task := { vc.task with
      price := vc.cost, negotiable := some vc.negotiableChecked
      location := some vc.taskLocation, listingDate := some now }
    ({ vc with task, errorLabel := "Task posted successfully! (segue back)" }, some task)
  else ({ vc with errorLabel := "Please enter a valid dollar amount." }, none)

/-- The task posted by the two pages: nobody's, with no flag set. -/
lemma postTaskButtonPressed_eq_some {form : ListTaskViewController}
    {page : SubmitTaskViewController} {now : ℤ} {task : Errand}
    (hpage : page.task = form.navigateToSubmitVC)
    (h : (page.postTaskButtonPressed now).2 = some task) :
    task = { form.navigateToSubmitVC with
      price := page.cost, negotiable := some page.negotiableChecked
      location := some page.taskLocation, listingDate := some now } := by
  rw [SubmitTaskViewController.postTaskButtonPressed] at h
  split at h
  · rw [← Option.some.inj h, hpage]
  · exact absurd h (by simp)

/-! ### Listing for employees -/

/-- `AcceptTaskViewController`; `lbRate` shows the price `rate`. -/
structure AcceptTaskViewController where
  userID : Option String
  dID : String := ""
  taskClientID : String := ""
  lbTitle : String := ""
  lbLocation : String := ""
  lbBody : String := ""
  rate : Double
  deriving DecidableEq, Repr

/-- `acceptClicked`; a nil user id traps. -/
def AcceptTaskViewController.acceptClicked (vc : AcceptTaskViewController) :
    Option (List Write) :=
  vc.userID.map fun userID => [.updateTask vc.dID { employeeID := some userID }]

/-- `EmployeeExplorePageViewController`, the lists. -/
structure EmployeeExplorePageViewController where
  userCity : String := ""
  tasks : List Errand := []
  skillsTasks : List Errand := []
  nearByTasks : List Errand := []
  negotiableTasks : List Errand := []
  deriving DecidableEq, Repr

namespace EmployeeExplorePageViewController

/-- The callback of the query for the user's city. -/
def showCity (vc : EmployeeExplorePageViewController) : Fetched User →
    EmployeeExplorePageViewController
  | .document user =>
      match user.address with
      | some address => { vc with userCity := address.city.getD "Washington" }
      | none => vc
  | _ => vc

/-- The callback of the query for all tasks: the documents that decode. -/
def appendTasks (vc : EmployeeExplorePageViewController) (docs : List (String × TaskDoc)) :
    EmployeeExplorePageViewController :=
  { vc with tasks := vc.tasks ++ docs.filterMap fun d => Errand.decode d.1 d.2 }

/-- The three loops queued by that callback. -/
def fillLists (vc : EmployeeExplorePageViewController) : EmployeeExplorePageViewController :=
  { vc with
    nearByTasks := vc.nearByTasks ++ vc.tasks.filter fun t =>
      let city := t.location.bind Address.city
      city = some vc.userCity ∨ city = some "Washington"
    negotiableTasks := vc.negotiableTasks ++ vc.tasks.filter fun t => t.negotiable = some true
    skillsTasks := vc.skillsTasks ++ vc.tasks.filter fun t =>
      t.category = "Programming" ∨ t.category = "engineering" }

/-- The three collection views. -/
inductive TaskList where
  | skills
  | nearBy
  | negotiable
  deriving DecidableEq, Repr

/-- The tasks a collection view shows. -/
def shown (vc : EmployeeExplorePageViewController) : TaskList → List Errand
  | .skills => vc.skillsTasks
  | .nearBy => vc.nearByTasks
  | .negotiable => vc.negotiableTasks

/-- `collectionView(didSelectItemAt:)`: the accept page of a row, opened by the
signed-in user. A row out of range, or without a client, an id or a price,
traps. -/
def didSelectItemAt (vc : EmployeeExplorePageViewController) (userID : Option String)
    (l : TaskList) (row : ℕ) : Option AcceptTaskViewController :=
  (vc.shown l)[row]?.bind fun task =>
    match task.clientID, task.docID, task.price with
    | some clientID, some docID, some price =>
        some {
          userID, dID := docID, taskClientID := clientID, lbTitle := task.title
          lbLocation := (task.location.bind Address.city).getD "no city"
          lbBody := task.taskDescription, rate := price }
    | _, _, _ => none

end EmployeeExplorePageViewController

/-! ### Listing for the client -/

/-- `PaidMechanismViewController`. -/
structure PaidMechanismViewController where
  docID : String := ""
  deriving DecidableEq, Repr

/-- `confirmButtonTapped`. -/
def PaidMechanismViewController.confirmButtonTapped (vc : PaidMechanismViewController) :
    List Write := [.mergeTask vc.docID { hasPaid := some true }]

/-- `RecentTasksTableViewController`. -/
structure RecentTasksTableViewController where
  recentTasks : List Errand := []
  deriving DecidableEq, Repr

namespace RecentTasksTableViewController

/-- The query: the tasks of the client `userID`. -/
def query (userID : String) (tasks : Collection String TaskDoc) : List (String × TaskDoc) :=
  (documents tasks).filter fun d => d.2.clientID = some userID

/-- The callback of the query: the documents that decode and have an
employee. -/
def appendTasks (vc : RecentTasksTableViewController) (docs : List (String × TaskDoc)) :
    RecentTasksTableViewController :=
  { recentTasks := vc.recentTasks ++ docs.filterMap fun d =>
      (Errand.decode d.1 d.2).filter fun task => task.employeeID.getD "" ≠ "" }

/-- The rate button of a row can be tapped. -/
def canRate (task : Errand) : Prop := task.employeeRated ≠ some true

/-- The pay button of a row can be tapped. -/
def canPay (task : Errand) : Prop := task.hasPaid ≠ some true

instance (task : Errand) : Decidable (canRate task) := inferInstanceAs (Decidable (_ ≠ _))

instance (task : Errand) : Decidable (canPay task) := inferInstanceAs (Decidable (_ ≠ _))

/-- `didRateButtonPressed`: the rating page of a row; a missing employee or id
traps. -/
def didRateButtonPressed (task : Errand) : Option RateUserViewController :=
  match task.employeeID, task.docID with
  | some employeeID, some docID => some { employeeID, docID }
  | _, _ => none

/-- `didPayButtonPressed`: the payment page of a row; a missing id traps. -/
def didPayButtonPressed (task : Errand) : Option PaidMechanismViewController :=
  task.docID.map fun docID => { docID }

/-- A row is a stored task of the client that has an employee. -/
lemma mem_recentTasks {userID : String} {tasks : Collection String TaskDoc} {task : Errand}
    (h : task ∈ (appendTasks {} (query userID tasks)).recentTasks) :
    ∃ id d e, tasks.lookup id = some d ∧ d.employeeID = some e ∧ e ≠ "" ∧
      d.clientID = some userID ∧ task.docID = some id ∧ task.encode = d := by
  simp only [appendTasks, List.nil_append, List.mem_filterMap] at h
  obtain ⟨⟨id, d⟩, hmem, htask⟩ := h
  obtain ⟨hdec, hne⟩ := Option.filter_eq_some_iff.mp htask
  obtain ⟨hid, hencode⟩ : task.docID = some id ∧ task.encode = d := Errand.decode_eq_some hdec
  obtain ⟨hdoc, hclient⟩ := List.mem_filter.mp hmem
  have hd : tasks.lookup id = some d := mem_documents.mp hdoc
  have hne' : d.employeeID.getD "" ≠ "" := by
    rw [← hencode]
    simpa [Errand.encode] using hne
  cases he : d.employeeID with
  | none => simp [he] at hne'
  | some e =>
      exact ⟨id, d, e, hd, he, by simpa [he] using hne', by simpa using hclient, hid, hencode⟩

/-- The rating page of a row is for the row's employee and task. -/
lemma didRateButtonPressed_eq_some {task : Errand} {vc : RateUserViewController}
    (h : didRateButtonPressed task = some vc) :
    ∃ e id, task.employeeID = some e ∧ task.docID = some id ∧
      vc = { employeeID := e, docID := id } := by
  rw [didRateButtonPressed] at h
  split at h
  · next e id he hid => exact ⟨e, id, he, hid, (Option.some.inj h).symm⟩
  · exact absurd h (by simp)

end RecentTasksTableViewController

end Tasker
