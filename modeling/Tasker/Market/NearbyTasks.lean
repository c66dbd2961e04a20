import Tasker.Lib.MainQueue
import Tasker.Screens.Tasks

/-!
The tasks near the user, on the page of an employee from its opening on.

* `explore`: the handlers of the page. The request for the user's city is made by
  a queued block, and the answer with the tasks queues the block that fills the
  lists, once.
* `Run`, `run_of_exec`: the runs of the page, up to the two ways in which they
  end.
* `nearByTasks_iff`: when all is done the list holds the tasks in the user's city
  or in Washington, if and only if it was filled last or the tasks do not tell
  the user's city from no city; every run gives the same list if and only if they
  do not.
-/

namespace Tasker

open DocStore EventSystem

namespace EmployeeExplorePageViewController

/-- The requests for the user's document and for all tasks. -/
inductive Request where
  | city
  | tasks
  deriving DecidableEq, Repr

/-- The blocks queued by `viewDidLoad` and by the callback of the tasks. -/
inductive Block where
  | requestCity
  | fillLists
  deriving DecidableEq, Repr

/-- The page, and what it waits for. -/
abbrev State := MainQueue.State EmployeeExplorePageViewController Request Block

/-- What happens on the page. -/
abbrev Event := MainQueue.Event Request Empty Unit

/-- The answer to a request. -/
abbrev answer (r : Request) : Event := .answer r ()

/-- The handlers of the page, for the user's document and the collection of
tasks. -/
def explore (user : User) (tasks : Collection String TaskDoc) :
    MainQueue.Handlers EmployeeExplorePageViewController Request Block Empty Unit where
  act _ a := a.elim
  callback vc r _ :=
    match r with
    | .city => some { page := vc.showCity (.document user) }
    | .tasks => some { page := vc.appendTasks (documents tasks), blocks := [.fillLists] }
  block vc b :=
    match b with
    | .requestCity => some { page := vc, requests := [.city] }
    | .fillLists => some { page := vc.fillLists }

/-- `viewDidLoad`. -/
def opened : State where
  page := {}
  requests := [.tasks]
  blocks := [.requestCity]

/-- The tasks that decode, in the order of their documents. -/
def loaded (tasks : Collection String TaskDoc) : List Errand :=
  (documents tasks).filterMap fun d => Errand.decode d.1 d.2

/-- The city of a task. -/
def cityOf (task : Errand) : Option String := task.location.bind Address.city

/-- The tasks in a city or in Washington. -/
def nearBy (city : String) (tasks : Collection String TaskDoc) : List Errand :=
  (loaded tasks).filter fun t => cityOf t = some city ∨ cityOf t = some "Washington"

/-- No task outside Washington is in the user's city or in the empty city, unless
they are the same. -/
def Agree (city : String) (tasks : Collection String TaskDoc) : Prop :=
  ∀ t ∈ loaded tasks, cityOf t = some city ∨ cityOf t = some "" →
    city = "" ∨ cityOf t = some "Washington"

/-! ### The runs of the page -/

/-- The page with the user's city and the tasks `l`, before the lists are
filled. -/
def page (userCity : String) (l : List Errand) : EmployeeExplorePageViewController where
  userCity := userCity
  tasks := l

/-- The runs of the page with the states they lead to, `l` being the tasks
loaded. -/
inductive Run (city : String) (l : List Errand) : List Event → State → Prop where
  | opened : Run city l [] { page := page "" [], requests := [.tasks], blocks := [.requestCity] }
  | early (es) : Run city l es
      { page := page "" l, requests := [], blocks := [.requestCity, .fillLists] }
  | requested (es) : Run city l es
      { page := page "" [], requests := [.tasks, .city], blocks := [] }
  | city (es) : Run city l es { page := page city [], requests := [.tasks], blocks := [] }
  | tasks (es) : Run city l es
      { page := page "" l, requests := [.city], blocks := [.fillLists] }
  | both (es) : Run city l es { page := page city l, requests := [], blocks := [.fillLists] }
  | filled (es) : Run city l es
      { page := (page "" l).fillLists, requests := [.city], blocks := [] }
  | filledLast (es) : Run city l (es ++ [.block])
      { page := (page city l).fillLists, requests := [], blocks := [] }
  | cityLast (es) : Run city l (es ++ [answer .city])
      { page := { (page "" l).fillLists with userCity := city }, requests := [], blocks := [] }

variable {user : User} {city : String} {tasks : Collection String TaskDoc} {s t : State}
  {es : List Event}

/-- The answer with the user's document. -/
lemma showCity_document (vc : EmployeeExplorePageViewController)
    (hcity : user.address.bind Address.city = some city) :
    vc.showCity (.document user) = { vc with userCity := city } := by
  obtain ⟨address, haddress, hcity⟩ := Option.bind_eq_some_iff.mp hcity
  simp only [showCity, haddress, hcity, Option.getD_some]

/-- One event. -/
lemma Run.step {e : Event} (hcity : user.address.bind Address.city = some city)
    (h : Run city (loaded tasks) es t) (hs : MainQueue.step (explore user tasks) t e = some s) :
    Run city (loaded tasks) (es ++ [e]) s := by
  cases e with
  | act a => exact a.elim
  | answer r _ =>
      obtain ⟨hr, t', ht', rfl⟩ := MainQueue.step_answer.mp hs
      cases r with
      | city =>
          obtain rfl := Option.some.inj ht'
          rw [showCity_document _ hcity]
          cases h with
          | requested => exact .city _
          | tasks => exact .both _
          | filled => exact .cityLast _
          | _ => exact absurd hr (by simp)
      | tasks =>
          obtain rfl := Option.some.inj ht'
          cases h with
          | opened => exact .early _
          | requested => exact .tasks _
          | city => exact .both _
          | _ => exact absurd hr (by simp)
  | block =>
      obtain ⟨b, bs, t', hb, ht', rfl⟩ := MainQueue.step_block.mp hs
      cases h with
      | opened =>
          obtain ⟨rfl, rfl⟩ := List.cons.inj hb
          obtain rfl := Option.some.inj ht'
          exact .requested _
      | early =>
          obtain ⟨rfl, rfl⟩ := List.cons.inj hb
          obtain rfl := Option.some.inj ht'
          exact .tasks _
      | tasks =>
          obtain ⟨rfl, rfl⟩ := List.cons.inj hb
          obtain rfl := Option.some.inj ht'
          exact .filled _
      | both =>
          obtain ⟨rfl, rfl⟩ := List.cons.inj hb
          obtain rfl := Option.some.inj ht'
          exact .filledLast _
      | _ => exact absurd hb (by simp)

/-- Every run. -/
lemma run_of_exec (hcity : user.address.bind Address.city = some city)
    (h : exec (MainQueue.step (explore user tasks)) opened es = some s) :
    Run city (loaded tasks) es s :=
  exec_history .opened (fun _ _ _ _ hrun hs => hrun.step hcity hs) h

/-! ### The list at the end -/

/-- The list filled with the tasks loaded. -/
lemma fillLists_nearByTasks (userCity : String) :
    ((page userCity (loaded tasks)).fillLists).nearByTasks = nearBy userCity tasks := rfl

/-- The tasks in the empty city or in Washington are those in the user's city or
in Washington exactly if the tasks do not tell the two cities apart. -/
lemma nearBy_empty_iff : nearBy "" tasks = nearBy city tasks ↔ Agree city tasks := by
  have htask : ∀ t : Errand,
      ((cityOf t = some "" ∨ cityOf t = some "Washington") ↔
        (cityOf t = some city ∨ cityOf t = some "Washington")) ↔
      (cityOf t = some city ∨ cityOf t = some "" → city = "" ∨ cityOf t = some "Washington") := by
    intro t
    by_cases hempty : city = ""
    · simp [hempty]
    · by_cases hown : cityOf t = some city
      · simp [hown, hempty]
      · simp [hown, hempty]
  constructor
  · intro h t ht
    refine (htask t).mp ?_
    have hmem := congrArg (t ∈ ·) h
    simpa [nearBy, ht] using hmem
  · intro h
    refine List.filter_congr fun t ht => ?_
    exact decide_eq_decide.mpr ((htask t).mpr (h t ht))

/-- What a run with nothing left to do shows. -/
lemma nearByTasks_of_exec (hcity : user.address.bind Address.city = some city)
    (h : exec (MainQueue.step (explore user tasks)) opened es = some s) (hidle : s.Idle) :
    s.page.nearByTasks = nearBy (if es.getLast? = some .block then city else "") tasks := by
  cases run_of_exec hcity h with
  | filledLast => rw [if_pos (by simp), fillLists_nearByTasks]
  | cityLast => rw [if_neg (by simp)]; rfl
  | _ => exact absurd hidle (by simp [MainQueue.State.Idle])

/-- The lists filled before the user's city is known, and after it. -/
def cityLast : List Event := [.block, answer .tasks, .block, answer .city]

def filledLast : List Event := [.block, answer .city, answer .tasks, .block]

variable (user tasks) in
lemma exec_cityLast : ∃ s, exec (MainQueue.step (explore user tasks)) opened cityLast = some s ∧
    s.Idle := ⟨_, rfl, rfl, rfl⟩

variable (user tasks) in
lemma exec_filledLast :
    ∃ s, exec (MainQueue.step (explore user tasks)) opened filledLast = some s ∧ s.Idle :=
  ⟨_, rfl, rfl, rfl⟩

/-- **The tasks near the user**: when both requests have been answered and every
block has run, the list is right if and only if it was filled last or the tasks
do not tell the user's city from the empty one; and all these runs show the same
list if and only if the tasks do not. -/
theorem nearByTasks_iff (hcity : user.address.bind Address.city = some city) :
    (∀ es s, exec (MainQueue.step (explore user tasks)) opened es = some s → s.Idle →
      (s.page.nearByTasks = nearBy city tasks ↔
        es.getLast? = some .block ∨ Agree city tasks)) ∧
    ((∀ es s fs t, exec (MainQueue.step (explore user tasks)) opened es = some s → s.Idle →
        exec (MainQueue.step (explore user tasks)) opened fs = some t → t.Idle →
        s.page.nearByTasks = t.page.nearByTasks) ↔ Agree city tasks) := by
  constructor
  · intro es s h hidle
    rw [nearByTasks_of_exec hcity h hidle]
    split
    · next hlast => exact iff_of_true rfl (Or.inl hlast)
    · next hlast => rw [or_iff_right hlast, nearBy_empty_iff]
  · constructor
    · intro hsame
      obtain ⟨s, hs, hidle⟩ := exec_cityLast user tasks
      obtain ⟨t, ht, hidle'⟩ := exec_filledLast user tasks
      have hlists := hsame _ s _ t hs hidle ht hidle'
      rw [nearByTasks_of_exec hcity hs hidle, nearByTasks_of_exec hcity ht hidle',
        if_neg (by decide), if_pos (by decide)] at hlists
      exact nearBy_empty_iff.mp hlists
    · intro hagree es s fs t hs hidle ht hidle'
      have hnearBy := nearBy_empty_iff.mpr hagree
      rw [nearByTasks_of_exec hcity hs hidle, nearByTasks_of_exec hcity ht hidle']
      split <;> split <;> simp only [hnearBy]

/-! ### A task in Spokane -/

/-- A user in Spokane, and a task there. -/
def spokaneUser : User := { address := some { city := some "Spokane" } }

def spokaneTasks : Collection String TaskDoc :=
  setData ∅ "t1" {
    title := some "Lawn", category := some "Garden", taskDescription := some "Mow it"
    location := some { city := some "Spokane" } }

theorem nearByTasks_iff_spokane : ∃ s,
    exec (MainQueue.step (explore spokaneUser spokaneTasks)) opened filledLast = some s ∧
    s.Idle ∧ (s.page.nearByTasks = nearBy "Spokane" spokaneTasks ↔
      filledLast.getLast? = some .block ∨ Agree "Spokane" spokaneTasks) := by
  obtain ⟨s, hs, hidle⟩ := exec_filledLast spokaneUser spokaneTasks
  exact ⟨s, hs, hidle, (nearByTasks_iff rfl).1 _ s hs hidle⟩

/-- The task is near the user if their city comes before the lists are filled, and
is not if it comes after. -/
theorem spokaneTask_shown_or_not : ∃ s t,
    exec (MainQueue.step (explore spokaneUser spokaneTasks)) opened filledLast = some s ∧
    s.Idle ∧ s.page.nearByTasks.map Errand.docID = [some "t1"] ∧
    exec (MainQueue.step (explore spokaneUser spokaneTasks)) opened cityLast = some t ∧
    t.Idle ∧ t.page.nearByTasks = [] ∧
    t.page.nearByTasks ≠ nearBy "Spokane" spokaneTasks :=
  ⟨_, _, rfl, ⟨rfl, rfl⟩, by decide, rfl, ⟨rfl, rfl⟩, by decide, by decide⟩

end EmployeeExplorePageViewController

end Tasker
