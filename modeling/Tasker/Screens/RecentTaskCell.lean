import Tasker.Lib.EventSystem
import Tasker.Screens.Tasks

/-!
The cells of the list of recent tasks, which the table uses again for other rows.

* `RecentTaskTableViewCell`, `cellForRowAt`: what a cell shows, and how a row is
  put into it. A button is disabled for a task that is done with, and never
  enabled.
* `enabled_of_exec`: a button is enabled as long as no row put into its cell has
  disabled it.
* `showsTask_iff`: a cell shows the last row put into it as a new cell would, if
  and only if no earlier row has disabled a button the last one needs.
-/

namespace Tasker

open EventSystem

/-- `UIColor`, with the components as parts of 255. -/
inductive UIColor where
  | clear
  | gray
  | rgb (red green blue : ℕ)
  deriving DecidableEq, Repr

/-- The green of the app. -/
def taskerGreen : UIColor := .rgb 41 191 157

/-- `UIButton`, with the corners of its layer. -/
structure UIButton where
  backgroundColor : UIColor := .clear
  cornerRadius : ℕ := 0
  isUserInteractionEnabled : Bool := true
  deriving DecidableEq, Repr

/-- `RecentTaskTableViewCell`, as in its nib. -/
structure RecentTaskTableViewCell where
  task : Option Errand := none
  taskerNameLabel : String := "Name Label"
  taskNameLabel : String := "Task Name Label"
  rateButton : UIButton := {}
  paybuttonoutlet : UIButton := {}
  hasDelegate : Bool := false
  deriving DecidableEq, Repr

/-- Either branch on a button: green, or gray and disabled. -/
def UIButton.show (b : UIButton) (done : Bool) : UIButton :=
  if done then { backgroundColor := .gray, cornerRadius := 16, isUserInteractionEnabled := false }
  else { b with backgroundColor := taskerGreen, cornerRadius := 16 }

/-- `tableView(cellForRowAt:)` with the task of the row. -/
def RecentTaskTableViewCell.configure (cell : RecentTaskTableViewCell) (task : Errand) :
    RecentTaskTableViewCell where
  task := some task
  taskerNameLabel := task.title
  taskNameLabel := task.taskDescription
  rateButton := cell.rateButton.show (task.employeeRated = some true)
  paybuttonoutlet := cell.paybuttonoutlet.show (task.hasPaid = some true)
  hasDelegate := true

/-- `tableView(cellForRowAt:)`, with the cell that is dequeued; a row out of range
traps. -/
def RecentTasksTableViewController.cellForRowAt (vc : RecentTasksTableViewController)
    (cell : RecentTaskTableViewCell) (row : ℕ) : Option RecentTaskTableViewCell :=
  vc.recentTasks[row]?.map cell.configure

/-- The button can be tapped, and looks like it. -/
def UIButton.Active (b : UIButton) : Prop :=
  b.isUserInteractionEnabled = true ∧ b.backgroundColor = taskerGreen

/-- The cell shows the task: the buttons are active while there is something to
do, the labels and the task are those of the task, and a new cell would show the
same. -/
structure RecentTaskTableViewCell.ShowsTask (cell : RecentTaskTableViewCell) (task : Errand) :
    Prop where
  pay : cell.paybuttonoutlet.Active ↔ task.hasPaid ≠ some true
  rate : cell.rateButton.Active ↔ task.employeeRated ≠ some true
  taskerNameLabel : cell.taskerNameLabel = task.title
  taskNameLabel : cell.taskNameLabel = task.taskDescription
  asNew : cell = ({} : RecentTaskTableViewCell).configure task
  task : cell.task = some task

namespace RecentTaskTableViewCell

variable {vc : RecentTasksTableViewController} {cell cell' : RecentTaskTableViewCell}
  {rows : List ℕ}

lemma isUserInteractionEnabled_show {b : UIButton} {done : Bool} :
    (b.show done).isUserInteractionEnabled = true ↔
      b.isUserInteractionEnabled = true ∧ done = false := by
  cases done with
  | true => simp [UIButton.show]
  | false => simp [UIButton.show]

/-- A button is active while there is something to do, and as on a new cell, if it
was enabled or there is nothing to do. -/
lemma show_iff {b : UIButton} {done : Bool} :
    ((b.show done).Active ↔ done = false) ∧ b.show done = ({} : UIButton).show done ↔
      done = true ∨ b.isUserInteractionEnabled = true := by
  cases done with
  | true =>
      refine iff_of_true ⟨iff_of_false (fun h => ?_) (by simp), rfl⟩ (Or.inl rfl)
      exact absurd h.1 (by simp [UIButton.show])
  | false =>
      rw [or_iff_right (by simp)]
      constructor
      · intro h
        exact (h.1.mpr rfl).1
      · intro h
        exact ⟨iff_of_true ⟨h, rfl⟩ rfl, by simp [UIButton.show, h]⟩

/-- **A button is never enabled again**: it is enabled after some rows if and only
if it was before and each of them left something to do. -/
theorem enabled_of_exec (button : RecentTaskTableViewCell → UIButton) (done : Errand → Bool)
    (hbutton : ∀ cell task, button (configure cell task) = (button cell).show (done task))
    (h : exec vc.cellForRowAt cell rows = some cell') :
    (button cell').isUserInteractionEnabled = true ↔
      (button cell).isUserInteractionEnabled = true ∧
        ∀ row ∈ rows, ∀ task, vc.recentTasks[row]? = some task → done task = false := by
  induction rows generalizing cell with
  | nil =>
      obtain rfl := Option.some.inj h
      simp
  | cons row rows ih =>
      obtain ⟨t, ht, h'⟩ := exec_cons_eq_some.mp h
      obtain ⟨task, htask, rfl⟩ := Option.map_eq_some_iff.mp ht
      rw [ih h', hbutton, isUserInteractionEnabled_show, and_assoc, List.forall_mem_cons]
      refine and_congr_right fun _ => and_congr_left fun _ => ?_
      rw [htask]
      exact ⟨fun hdone _ heq => Option.some.inj heq ▸ hdone, fun hall => hall task rfl⟩

/-- **Cells that are used again**: whatever rows have been put into a cell, it
shows the last one as a new cell would, if and only if each button whose task is
done with now has not been disabled by an earlier row. -/
theorem showsTask_iff {row : ℕ} (h : exec vc.cellForRowAt {} (rows ++ [row]) = some cell) :
    ∃ task, vc.recentTasks[row]? = some task ∧
      (cell.ShowsTask task ↔
        (task.hasPaid = some true ∨ ∀ i ∈ rows, ∀ earlier, vc.recentTasks[i]? = some earlier →
          earlier.hasPaid ≠ some true) ∧
        (task.employeeRated = some true ∨ ∀ i ∈ rows, ∀ earlier,
          vc.recentTasks[i]? = some earlier → earlier.employeeRated ≠ some true)) := by
  obtain ⟨old, hold, hrow⟩ := exec_concat_eq_some.mp h
  obtain ⟨task, htask, rfl⟩ := Option.map_eq_some_iff.mp hrow
  have hpay := enabled_of_exec paybuttonoutlet (fun task => task.hasPaid = some true)
    (fun _ _ => rfl) hold
  have hrate := enabled_of_exec RecentTaskTableViewCell.rateButton
    (fun task => task.employeeRated = some true) (fun _ _ => rfl) hold
  simp only [true_and, decide_eq_false_iff_not] at hpay hrate
  refine ⟨task, htask, ?_⟩
  rw [← hpay, ← hrate, ← decide_eq_true_iff (p := task.hasPaid = some true),
    ← decide_eq_true_iff (p := task.employeeRated = some true), ← show_iff, ← show_iff]
  simp only [decide_eq_false_iff_not]
  constructor
  · intro hshows
    exact ⟨⟨hshows.pay, congrArg paybuttonoutlet hshows.asNew⟩,
      hshows.rate, congrArg RecentTaskTableViewCell.rateButton hshows.asNew⟩
  · rintro ⟨⟨hactive, hnew⟩, hactive', hnew'⟩
    refine ⟨hactive, hactive', rfl, rfl, ?_, rfl⟩
    rw [configure, configure, hnew, hnew']

/-! ### Two tasks -/

/-- A task that is paid, and one that is not. -/
def paidThenNew : RecentTasksTableViewController where
  recentTasks := [
    { docID := some "t1", title := "Fence", category := "Programming"
      taskDescription := "Paint it", hasPaid := some true, employeeRated := some false
      employeeID := some "e", clientID := some "c" },
    { docID := some "t2", title := "Lawn", category := "Programming"
      taskDescription := "Mow it", hasPaid := some false, employeeRated := some false
      employeeID := some "e", clientID := some "c" }]

theorem showsTask_iff_newThenPaid : ∃ cell task,
    exec paidThenNew.cellForRowAt {} ([1] ++ [0]) = some cell ∧
    paidThenNew.recentTasks[0]? = some task ∧
    (cell.ShowsTask task ↔
      (task.hasPaid = some true ∨ ∀ i ∈ [1], ∀ earlier,
        paidThenNew.recentTasks[i]? = some earlier → earlier.hasPaid ≠ some true) ∧
      (task.employeeRated = some true ∨ ∀ i ∈ [1], ∀ earlier,
        paidThenNew.recentTasks[i]? = some earlier → earlier.employeeRated ≠ some true)) := by
  have hrun : exec paidThenNew.cellForRowAt {} ([1] ++ [0]) = some _ := rfl
  obtain ⟨task, htask, hshows⟩ := showsTask_iff hrun
  exact ⟨_, task, hrun, htask, hshows⟩

/-- The cell of the paid task is used again for the other one, and its pay button
stays disabled. -/
theorem paidThenNew_disables : ∃ cell task,
    exec paidThenNew.cellForRowAt {} ([0] ++ [1]) = some cell ∧
    paidThenNew.recentTasks[1]? = some task ∧ cell.task = some task ∧
    task.hasPaid = some false ∧ cell.paybuttonoutlet.backgroundColor = taskerGreen ∧
    cell.paybuttonoutlet.isUserInteractionEnabled = false ∧ ¬ cell.ShowsTask task := by
  refine ⟨_, _, rfl, rfl, rfl, rfl, rfl, rfl, fun hshows => ?_⟩
  exact absurd (hshows.pay.mpr (by decide)).1 (by decide)

end RecentTaskTableViewCell

end Tasker
