import Tasker.Screens.Tasks

/-!
The two writes of a rating, one to the employee's document and one to the
task's. Nothing ties them together: each may fail on its own, and they may
arrive in either order.

* `submit`: the store after a submission, for every outcome of its writes.
* `AllOrNothing`: both documents carry the change, or neither does.
* `RetrySafe`: a fresh list of recent tasks offers the task again only if its
  rating is not counted, and withdraws it only if it is.
* `allOrNothing_iff`: what is true of a submission whose writes end alike, or
  that sets a flag already set; `usersWriteOnly_counts` is one whose rating is
  counted, and offered again.
-/

namespace Tasker.TwoWrites

open DocStore RateUserViewController RecentTasksTableViewController

/-- Which of the two writes arrives first. -/
inductive Order where
  | usersFirst
  | tasksFirst
  deriving DecidableEq, Repr

/-- A write that succeeds, or fails. -/
def attempt (ok : Bool) (w : Write) (st : Store) : Store := if ok then w.apply st else st

/-- The store after a submission: whether its users write and its tasks write
succeed, and in which order. -/
def submit (vc : RateUserViewController) (order : Order) (okUsers okTasks : Bool) (st : Store) :
    Store :=
  match vc.completeButtonTapped.2, order with
  | [w, w'], .usersFirst => attempt okTasks w' (attempt okUsers w st)
  | [w, w'], .tasksFirst => attempt okUsers w (attempt okTasks w' st)
  | _, _ => st

/-- The employee's document with the rating. -/
def usersAfter (vc : RateUserViewController) (st : Store) : Option User :=
  (mergeData st.users vc.employeeID vc.ratingFields).lookup vc.employeeID

/-- The task's document with the flag. -/
def tasksAfter (vc : RateUserViewController) (st : Store) : Option TaskDoc :=
  (mergeData st.tasks vc.docID { employeeRated := some true }).lookup vc.docID

/-- Both documents carry the change, or neither does. -/
def AllOrNothing (vc : RateUserViewController) (st st' : Store) : Prop :=
  (st'.users.lookup vc.employeeID = usersAfter vc st ∧
      st'.tasks.lookup vc.docID = tasksAfter vc st) ∨
    (st'.users.lookup vc.employeeID = st.users.lookup vc.employeeID ∧
      st'.tasks.lookup vc.docID = st.tasks.lookup vc.docID)

/-- A fresh list of the client `userID` offers to rate the task. -/
def Offered (userID docID : String) (st : Store) : Prop :=
  ∃ task ∈ (appendTasks {} (query userID st.tasks)).recentTasks,
    task.docID = some docID ∧ canRate task

instance (userID docID : String) (st : Store) : Decidable (Offered userID docID st) :=
  inferInstanceAs (Decidable (∃ task ∈ (appendTasks {} (query userID st.tasks)).recentTasks,
    task.docID = some docID ∧ canRate task))

/-- What a fresh list offers has not been counted, and what it does not offer
any more has been. -/
def RetrySafe (vc : RateUserViewController) (st st' : Store) : Prop :=
  (∀ userID, Offered userID vc.docID st' →
      st'.users.lookup vc.employeeID = st.users.lookup vc.employeeID) ∧
    ∀ userID, Offered userID vc.docID st → ¬ Offered userID vc.docID st' →
      st'.users.lookup vc.employeeID = usersAfter vc st

/-- The task's document has the flag. -/
def FlagSet (docID : String) (st : Store) : Prop :=
  (st.tasks.lookup docID).bind TaskDoc.employeeRated = some true

instance (docID : String) (st : Store) : Decidable (FlagSet docID st) :=
  inferInstanceAs (Decidable (_ = _))

variable {vc : RateUserViewController} {order : Order} {okUsers okTasks : Bool} {st : Store}

/-! ### What is stored -/

/-- The writes go to different collections, so that their order does not matter. -/
lemma submit_eq (hc : vc.clientID = "") (hv : vc.validateFields = none) :
    submit vc order okUsers okTasks st =
      { users := if okUsers then mergeData st.users vc.employeeID vc.ratingFields else st.users
        tasks := if okTasks then mergeData st.tasks vc.docID { employeeRated := some true }
          else st.tasks } := by
  have hw := completeButtonTapped_writes hc
  rw [if_pos hv] at hw
  cases order <;> cases okUsers <;> cases okTasks <;> simp only [submit, hw] <;> rfl

lemma submit_of_validateFields (hc : vc.clientID = "") (hv : vc.validateFields ≠ none) :
    submit vc order okUsers okTasks st = st := by
  have hw := completeButtonTapped_writes hc
  rw [if_neg hv] at hw
  simp only [submit, hw]

/-- One rating more is another document. -/
lemma usersAfter_ne {d : User} (hd : st.users.lookup vc.employeeID = some d)
    (hn : d.numRatings = some vc.numOfRatings) :
    usersAfter vc st ≠ st.users.lookup vc.employeeID := by
  rw [usersAfter, lookup_mergeData, if_pos rfl, hd, Option.getD_some]
  intro h
  have hcount : some (vc.numOfRatings + 1) = some vc.numOfRatings :=
    (congrArg User.numRatings (Option.some.inj h)).trans hn
  exact absurd (Option.some.inj hcount) (by omega)

/-- The flag leaves the document alone exactly when it is set. -/
lemma tasksAfter_eq_iff :
    tasksAfter vc st = st.tasks.lookup vc.docID ↔ FlagSet vc.docID st := by
  rw [tasksAfter, lookup_mergeData, if_pos rfl, FlagSet]
  cases hd : st.tasks.lookup vc.docID with
  | none => simp
  | some d =>
      rw [Option.getD_some, Option.bind_some, Option.some_inj]
      constructor
      · intro h
        exact (congrArg TaskDoc.employeeRated h).symm
      · intro h
        have hflag : (some true).or d.employeeRated = d.employeeRated := h.symm
        cases d
        simp only at hflag
        simp only [Document.mergeFields, TaskDoc.over, Option.none_or, hflag]

/-- A fresh list does not offer a task with the flag. -/
lemma not_offered_of_flagSet {userID docID : String} (h : FlagSet docID st) :
    ¬ Offered userID docID st := by
  rintro ⟨task, htask, hid, hcan⟩
  obtain ⟨id, d, e, hd, -, -, -, hid', hencode⟩ := mem_recentTasks htask
  obtain rfl : id = docID := Option.some.inj (hid'.symm.trans hid)
  rw [FlagSet, hd] at h
  refine hcan (Eq.trans ?_ h)
  rw [Option.bind_some, ← hencode]
  rfl

/-- After the tasks write the flag is set. -/
lemma flagSet_mergeData {users : DocStore.Collection String User} : FlagSet vc.docID
    { users := users, tasks := mergeData st.tasks vc.docID { employeeRated := some true } } := by
  rw [FlagSet, lookup_mergeData, if_pos rfl]
  rfl

/-! ### All or nothing -/

/-- When both documents carry the change, or neither. -/
lemma allOrNothing_submit_iff {d : User} (hc : vc.clientID = "") (hv : vc.validateFields = none)
    (hd : st.users.lookup vc.employeeID = some d) (hn : d.numRatings = some vc.numOfRatings) :
    AllOrNothing vc st (submit vc order okUsers okTasks st) ↔
      okUsers = okTasks ∨ FlagSet vc.docID st := by
  have hne := usersAfter_ne hd hn
  rw [submit_eq hc hv, ← tasksAfter_eq_iff]
  cases okUsers <;> cases okTasks
  · exact iff_of_true (Or.inr ⟨rfl, rfl⟩) (Or.inl rfl)
  · constructor
    · rintro (⟨husers, -⟩ | ⟨-, htasks⟩)
      · exact absurd husers.symm hne
      · exact Or.inr htasks
    · rintro (heq | htasks)
      · exact absurd heq (by simp)
      · exact Or.inr ⟨rfl, htasks⟩
  · constructor
    · rintro (⟨-, htasks⟩ | ⟨husers, -⟩)
      · exact Or.inr htasks.symm
      · exact absurd husers hne
    · rintro (heq | htasks)
      · exact absurd heq (by simp)
      · exact Or.inl ⟨rfl, htasks.symm⟩
  · exact iff_of_true (Or.inl ⟨rfl, rfl⟩) (Or.inl rfl)

/-- Then a fresh list agrees. -/
lemma retrySafe_submit (hc : vc.clientID = "") (hv : vc.validateFields = none)
    (h : okUsers = okTasks ∨ FlagSet vc.docID st) :
    RetrySafe vc st (submit vc order okUsers okTasks st) := by
  rw [submit_eq hc hv]
  rcases h with rfl | hflag
  · cases okUsers with
    | false => exact ⟨fun _ _ => rfl, fun _ hoffered hnot => absurd hoffered hnot⟩
    | true =>
        exact ⟨fun _ hoffered => absurd hoffered (not_offered_of_flagSet flagSet_mergeData),
          fun _ _ _ => rfl⟩
  · have hset : FlagSet vc.docID (submit vc order okUsers okTasks st) := by
      rw [submit_eq hc hv]
      cases okTasks with
      | false => exact hflag
      | true => exact flagSet_mergeData
    rw [submit_eq hc hv] at hset
    exact ⟨fun _ hoffered => absurd hoffered (not_offered_of_flagSet hset),
      fun _ hoffered _ => absurd hoffered (not_offered_of_flagSet hflag)⟩

/-- **When a submission is all or nothing**: both documents carry the change or
neither does, and a fresh list of recent tasks agrees, exactly if the two writes
end alike, or none is issued, or the task's document has the flag already. -/
theorem allOrNothing_iff {d : User} (hc : vc.clientID = "")
    (hd : st.users.lookup vc.employeeID = some d) (hn : d.numRatings = some vc.numOfRatings) :
    AllOrNothing vc st (submit vc order okUsers okTasks st) ∧
        RetrySafe vc st (submit vc order okUsers okTasks st) ↔
      okUsers = okTasks ∨ FlagSet vc.docID st ∨ vc.validateFields ≠ none := by
  by_cases hv : vc.validateFields = none
  · rw [allOrNothing_submit_iff hc hv hd hn, ← or_assoc, or_iff_left (not_not_intro hv)]
    exact and_iff_left_of_imp (retrySafe_submit hc hv)
  · rw [submit_of_validateFields hc hv]
    exact iff_of_true ⟨Or.inr ⟨rfl, rfl⟩, fun _ _ => rfl, fun _ h h' => absurd h h'⟩
      (Or.inr (Or.inr hv))

/-! ### The users write alone -/

/-- The client's task, accepted by the employee, who has no ratings. -/
def accepted : Store where
  users := setData ∅ "e" { numRatings := some 0, rating := some 0 }
  tasks := setData ∅ "t1" {
    title := some "Paint", category := some "Home", taskDescription := some "A fence"
    employeeRated := some false, employeeID := some "e", clientID := some "c" }

/-- The rating screen with five stars throughout, the load done. -/
def filledIn : RateUserViewController where
  category1Rating := 5
  category2Rating := 5
  category3Rating := 5
  employeeID := "e"
  docID := "t1"

theorem allOrNothing_iff_both :
    AllOrNothing filledIn accepted (submit filledIn .tasksFirst true true accepted) ∧
      RetrySafe filledIn accepted (submit filledIn .tasksFirst true true accepted) :=
  (allOrNothing_iff (d := { numRatings := some 0, rating := some 0 }) rfl rfl rfl).mpr (Or.inl rfl)

/-- The tasks write fails: the rating is counted, and offered again. -/
theorem usersWriteOnly_counts :
    ((submit filledIn .usersFirst true false accepted).users.lookup "e").bind User.numRatings =
        some 1 ∧
      Offered "c" "t1" (submit filledIn .usersFirst true false accepted) ∧
      ¬ (AllOrNothing filledIn accepted (submit filledIn .usersFirst true false accepted) ∧
        RetrySafe filledIn accepted (submit filledIn .usersFirst true false accepted)) := by
  refine ⟨by decide +kernel, by decide +kernel, fun h => ?_⟩
  have hends := (allOrNothing_submit_iff rfl rfl (d := { numRatings := some 0, rating := some 0 })
    rfl rfl).mp h.1
  exact absurd hends (by decide +kernel)

end Tasker.TwoWrites
