import Tasker.Lib.Counter
import Tasker.Screens.RateUser

/-!
Sessions that rate the same employee at the same time.

`k` rating screens are open for tasks of one employee. Each loads the
employee's count and rating once, is filled in and submitted, and its two
writes are committed one by one; the server commits each write of a document
atomically. Every load succeeds before the submission and every write is
committed.

* `step`: one step of one session; `start`: the screens as Recent Tasks opens
  them.
* `Inv`: the employee's document keeps a count and a rating, and a write in
  flight carries the count its session loaded plus one.
* `ratingCounter`: the stored count is a counter in the sense of
  `ReadModifyWrite`, with the loads as its reads and the commits of the users
  writes as its writes.
* `numRatings_eq_add_iff`: the `k` ratings are all counted if and only if no
  users write is committed between the load of another session and the commit
  of its own.
-/

namespace Tasker.Rating

open DocStore EventSystem ReadModifyWrite RunningMean RateUserViewController

/-- One open rating screen: whether its load has been answered, the writes of
its submission still in flight, and whether its users write is committed. -/
structure Session where
  vc : RateUserViewController
  loaded : Bool := false
  submitted : Bool := false
  usersWrite : Option Write := none
  tasksWrite : Option Write := none
  written : Bool := false

/-- The store and the open screens. -/
structure State (k : ℕ) where
  store : Store
  session : Fin k → Session

/-- What can happen to a session. -/
inductive Event (k : ℕ) where
  | load (i : Fin k)
  | star (i : Fin k) (c : Category) (tag : Fin 5)
  | complete (i : Fin k)
  | commitUsers (i : Fin k)
  | commitTasks (i : Fin k)

variable {k : ℕ}

/-- One session replaced. -/
def State.set (s : State k) (i : Fin k) (x : Session) : State k :=
  { s with session := Function.update s.session i x }

/-- One step of one session. A load stands at the place of its snapshot in the order of
the commits; a snapshot that shows own writes in flight is the one after their
commits. -/
def step (s : State k) : Event k → Option (State k)
  | .load i =>
      if (s.session i).loaded then none
      else
        ((s.session i).vc.retriveRatings
          (.ofLookup (s.store.users.lookup (s.session i).vc.requestedID))).map fun vc' =>
            s.set i { s.session i with vc := vc', loaded := true }
  | .star i c tag =>
      some (s.set i { s.session i with vc := (s.session i).vc.starButtonTapped c tag })
  | .complete i =>
      if (s.session i).loaded ∧ ¬ (s.session i).submitted then
        match (s.session i).vc.completeButtonTapped with
        | (vc', [w₁, w₂]) => some (s.set i
            { s.session i with
              vc := vc', submitted := true, usersWrite := some w₁, tasksWrite := some w₂ })
        | (vc', _) => some (s.set i { s.session i with vc := vc' })
      else none
  | .commitUsers i =>
      (s.session i).usersWrite.map fun w =>
        { State.set s i { s.session i with usersWrite := none, written := true } with
          store := w.apply s.store }
  | .commitTasks i =>
      (s.session i).tasksWrite.map fun w =>
        { State.set s i { s.session i with tasksWrite := none } with store := w.apply s.store }

/-- `k` screens just opened for tasks `docID i` of the employee `e`. -/
def start (store : Store) (e : String) (docID : Fin k → String) : State k where
  store := store
  session i := { vc := { employeeID := e, docID := docID i } }

/-- The stored count of `e`. -/
def numRatings (e : String) (s : State k) : Option ℤ :=
  (s.store.users.lookup e).bind User.numRatings

/-! ### The invariant -/

/-- What holds of a session that rates `e`: a write in flight was issued after
the load and carries the count loaded plus one. -/
structure SessionInv (e : String) (x : Session) : Prop where
  employeeID : x.vc.employeeID = e
  clientID : x.vc.clientID = ""
  usersWrite : ∀ w, x.usersWrite = some w → x.loaded = true ∧ x.submitted = true ∧
    x.written = false ∧ ∃ r, w = .mergeUser e
      { numRatings := some (x.vc.numOfRatings + 1), rating := some r }
  tasksWrite : ∀ w, x.tasksWrite = some w → ∃ id fields, w = .mergeTask id fields
  written : x.written = true → x.loaded = true ∧ x.submitted = true

/-- The invariant of the sessions that rate `e`. -/
structure Inv (e : String) (s : State k) : Prop where
  stored : ∃ d n r, s.store.users.lookup e = some d ∧ d.numRatings = some n ∧ d.rating = some r
  session : ∀ i, SessionInv e (s.session i)

lemma inv_start {store : Store} {e : String} {d : User} {n : ℤ} {r : ℚ}
    (hd : store.users.lookup e = some d) (hn : d.numRatings = some n) (hr : d.rating = some r)
    (docID : Fin k → String) : Inv e (start store e docID) where
  stored := ⟨d, n, r, hd, hn, hr⟩
  session i := ⟨rfl, rfl, by simp [start], by simp [start], by simp [start]⟩

/-- Replacing a session by one that keeps the invariant. -/
lemma Inv.set {e : String} {s : State k} (h : Inv e s) {i : Fin k} {x : Session}
    (hx : SessionInv e x) : Inv e (s.set i x) := by
  refine ⟨h.stored, fun j => ?_⟩
  by_cases hj : j = i
  · subst hj
    simpa [State.set] using hx
  · simpa [State.set, hj] using h.session j

/-- What a load does: it shows the document stored at that moment. -/
lemma step_load {e : String} {s s' : State k} {i : Fin k} (h : Inv e s)
    (hs : step s (.load i) = some s') :
    (s.session i).loaded = false ∧ ∃ d n r, s.store.users.lookup e = some d ∧
      d.numRatings = some n ∧ d.rating = some r ∧
      s' = s.set i { s.session i with
        vc := { (s.session i).vc with numOfRatings := n, currentRating := r }
        loaded := true } := by
  have hi := h.session i
  obtain ⟨d, n, r, hd, hn, hr⟩ := h.stored
  have hid : (s.session i).vc.requestedID = e := by
    simp [requestedID, hi.clientID, hi.employeeID]
  rw [step] at hs
  split at hs
  · exact absurd hs (by simp)
  · next hl =>
      rw [hid, hd, Fetched.ofLookup_some, retriveRatings_document hn hr] at hs
      exact ⟨by simpa using hl, d, n, r, hd, hn, hr, (Option.some.inj hs).symm⟩

/-- What a submission does: nothing but showing an error, or issuing the two
writes. -/
lemma step_complete {e : String} {s s' : State k} {i : Fin k} (h : Inv e s)
    (hs : step s (.complete i) = some s') :
    (s.session i).loaded = true ∧ (s.session i).submitted = false ∧ ∃ vc' : RateUserViewController,
      vc'.employeeID = e ∧ vc'.clientID = "" ∧
      vc'.numOfRatings = (s.session i).vc.numOfRatings ∧
      (s' = s.set i { s.session i with vc := vc' } ∨ ∃ r id, s' = s.set i
        { s.session i with
          vc := vc', submitted := true
          usersWrite := some (.mergeUser e
            { numRatings := some ((s.session i).vc.numOfRatings + 1), rating := some r })
          tasksWrite := some (.mergeTask id { employeeRated := some true }) }) := by
  have hi := h.session i
  have hw := completeButtonTapped_writes hi.clientID
  obtain ⟨he, hc, -, hn, -⟩ := completeButtonTapped_frame (s.session i).vc
  rw [step] at hs
  split at hs
  · next hguard =>
      refine ⟨by simpa using hguard.1, by simpa using hguard.2,
        (s.session i).vc.completeButtonTapped.1, he.trans hi.employeeID,
        hc.trans hi.clientID, hn, ?_⟩
      rcases hcb : (s.session i).vc.completeButtonTapped with ⟨vc', ws⟩
      rw [hcb] at hs hw
      by_cases hv : (s.session i).vc.validateFields = none
      · simp only [hv, if_true] at hw
        subst hw
        refine Or.inr ⟨roundHundredths (s.session i).vc.mean, (s.session i).vc.docID, ?_⟩
        simp only [hi.employeeID] at hs
        exact (Option.some.inj hs).symm
      · simp only [hv, if_false] at hw
        subst hw
        exact Or.inl (Option.some.inj hs).symm
  · exact absurd hs (by simp)

lemma step_commitUsers {e : String} {s s' : State k} {i : Fin k} (h : Inv e s)
    (hs : step s (.commitUsers i) = some s') :
    (s.session i).loaded = true ∧ (s.session i).submitted = true ∧
      (s.session i).written = false ∧ ∃ r, s' =
        { State.set s i { s.session i with usersWrite := none, written := true } with
          store := Write.apply (.mergeUser e
            { numRatings := some ((s.session i).vc.numOfRatings + 1), rating := some r })
            s.store } := by
  rw [step] at hs
  cases hw : (s.session i).usersWrite with
  | none => rw [hw] at hs; exact absurd hs (by simp)
  | some w =>
      rw [hw] at hs
      obtain ⟨hl, hsub, hwr, r, rfl⟩ := (h.session i).usersWrite w hw
      exact ⟨hl, hsub, hwr, r, (Option.some.inj hs).symm⟩

lemma step_commitTasks {e : String} {s s' : State k} {i : Fin k} (h : Inv e s)
    (hs : step s (.commitTasks i) = some s') :
    ∃ id fields, s' = { State.set s i { s.session i with tasksWrite := none } with
      store := Write.apply (.mergeTask id fields) s.store } := by
  rw [step] at hs
  cases hw : (s.session i).tasksWrite with
  | none => rw [hw] at hs; exact absurd hs (by simp)
  | some w =>
      rw [hw] at hs
      obtain ⟨id, fields, rfl⟩ := (h.session i).tasksWrite w hw
      exact ⟨id, fields, (Option.some.inj hs).symm⟩

/-- A committed rating leaves a count and a rating. -/
lemma lookup_mergeRating (s : Store) (e : String) (n : ℤ) (r : ℚ) :
    ∃ d', (Write.apply (.mergeUser e { numRatings := some n, rating := some r }) s).users.lookup e
      = some d' ∧ d'.numRatings = some n ∧ d'.rating = some r := by
  rw [mergeUser_users, lookup_mergeData, if_pos rfl]
  exact ⟨_, rfl, rfl, rfl⟩

lemma inv_step {e : String} (s : State k) (a : Event k) (s' : State k) (h : Inv e s)
    (hs : step s a = some s') : Inv e s' := by
  cases a with
  | load i =>
      obtain ⟨hl, d, n, r, -, -, -, rfl⟩ := step_load h hs
      have hi := h.session i
      refine h.set ⟨hi.employeeID, hi.clientID, fun w hw => ?_, hi.tasksWrite, fun hw => ?_⟩
      · exact absurd (hi.usersWrite w hw).1 (by simp [hl])
      · exact absurd (hi.written hw).1 (by simp [hl])
  | star i c tag =>
      obtain rfl := Option.some.inj hs
      obtain ⟨he, hc, -, hn, -⟩ := starButtonTapped_frame (s.session i).vc c tag
      have hi := h.session i
      refine h.set ⟨he.trans hi.employeeID, hc.trans hi.clientID, fun w hw => ?_,
        hi.tasksWrite, hi.written⟩
      obtain ⟨hl, hsub, hwr, r, heq⟩ := hi.usersWrite w hw
      exact ⟨hl, hsub, hwr, r, by rw [heq, hn]⟩
  | complete i =>
      obtain ⟨hl, hsub, vc', he, hc, hn, rfl | ⟨r, id, rfl⟩⟩ := step_complete h hs
      · have hi := h.session i
        refine h.set ⟨he, hc, fun w hw => ?_, hi.tasksWrite, hi.written⟩
        exact absurd (hi.usersWrite w hw).2.1 (by simp [hsub])
      · have hi := h.session i
        refine h.set ⟨he, hc, fun w hw => ?_, fun w hw => ⟨id, _, (Option.some.inj hw).symm⟩,
          fun _ => ⟨hl, rfl⟩⟩
        have hwr : (s.session i).written = false := by
          by_contra hne
          exact absurd (hi.written (by simpa using hne)).2 (by simp [hsub])
        exact ⟨hl, rfl, hwr, r, by rw [← Option.some.inj hw, hn]⟩
  | commitUsers i =>
      obtain ⟨hl, hsub, -, r, rfl⟩ := step_commitUsers h hs
      have hi := h.session i
      have hset := h.set (i := i) (x := { s.session i with usersWrite := none, written := true })
        ⟨hi.employeeID, hi.clientID, by simp, hi.tasksWrite, fun _ => ⟨hl, hsub⟩⟩
      obtain ⟨d', hd', hn', hr'⟩ :=
        lookup_mergeRating s.store e ((s.session i).vc.numOfRatings + 1) r
      exact ⟨⟨d', _, _, hd', hn', hr'⟩, hset.session⟩
  | commitTasks i =>
      obtain ⟨id, fields, rfl⟩ := step_commitTasks h hs
      have hi := h.session i
      have hset := h.set (i := i) (x := { s.session i with tasksWrite := none })
        ⟨hi.employeeID, hi.clientID, hi.usersWrite, by simp, hi.written⟩
      exact ⟨by simpa using h.stored, hset.session⟩

/-! ### The stored count as a counter -/

/-- Which events read and write the count. -/
def access : Event k → Access (Fin k)
  | .load i => .read i
  | .commitUsers i => .write i
  | _ => .other

/-- Where a session is between its load and its users write. -/
def phase (s : State k) (i : Fin k) : Phase :=
  if (s.session i).written then .done
  else if (s.session i).loaded then .holds (s.session i).vc.numOfRatings
  else .idle

/-- Replacing a session changes its phase only. -/
lemma phase_set (s : State k) (i : Fin k) (x : Session) :
    phase (s.set i x) = Function.update (phase s) i
      (if x.written then .done else if x.loaded then .holds x.vc.numOfRatings else .idle) := by
  funext j
  by_cases hj : j = i
  · subst hj
    simp [phase, State.set]
  · simp [phase, State.set, hj]

/-- A step that keeps the count, the load and the commit of its session leaves
all phases alone. -/
lemma phase_set_of_eq {s : State k} {i : Fin k} {x : Session}
    (hw : x.written = (s.session i).written) (hl : x.loaded = (s.session i).loaded)
    (hn : x.vc.numOfRatings = (s.session i).vc.numOfRatings) : phase (s.set i x) = phase s := by
  rw [phase_set, hw, hl, hn]
  exact Function.update_eq_self i (phase s)

/-- The stored count of `e` is read by the loads and written by the commits of
the users writes. -/
def ratingCounter (e : String) : Counter (step (k := k)) (Fin k) where
  access := access
  count s := (numRatings e s).getD 0
  phase := phase
  Inv := Inv e
  inv_step := inv_step
  other := by
    intro s a s' h hs ha
    cases a with
    | load i => exact absurd ha (by simp [access])
    | commitUsers i => exact absurd ha (by simp [access])
    | star i c tag =>
        obtain rfl := Option.some.inj hs
        exact ⟨rfl, phase_set_of_eq rfl rfl (starButtonTapped_frame _ c tag).2.2.2.1⟩
    | complete i =>
        obtain ⟨-, -, vc', -, -, hn, rfl | ⟨r, id, rfl⟩⟩ := step_complete h hs
        · exact ⟨rfl, phase_set_of_eq rfl rfl hn⟩
        · exact ⟨rfl, phase_set_of_eq rfl rfl hn⟩
    | commitTasks i =>
        obtain ⟨id, fields, rfl⟩ := step_commitTasks h hs
        exact ⟨rfl, phase_set_of_eq rfl rfl rfl⟩
  read := by
    intro s a s' i h hs ha
    cases a with
    | load j =>
        obtain rfl := Access.read.inj ha
        obtain ⟨hl, d, n, r, hd, hn, -, rfl⟩ := step_load h hs
        have hwr : (s.session j).written = false := by
          by_contra hne
          exact absurd ((h.session j).written (by simpa using hne)).1 (by simp [hl])
        have hcount : numRatings e s = some n := by rw [numRatings, hd]; exact hn
        refine ⟨by simp [phase, hwr, hl], rfl, ?_⟩
        rw [phase_set, hcount]
        simp [hwr]
    | star j c tag => exact absurd ha (by simp [access])
    | complete j => exact absurd ha (by simp [access])
    | commitUsers j => exact absurd ha (by simp [access])
    | commitTasks j => exact absurd ha (by simp [access])
  write := by
    intro s a s' i h hs ha
    cases a with
    | commitUsers j =>
        obtain rfl := Access.write.inj ha
        obtain ⟨hl, -, hwr, r, rfl⟩ := step_commitUsers h hs
        obtain ⟨d', hd', hn', -⟩ :=
          lookup_mergeRating s.store e ((s.session j).vc.numOfRatings + 1) r
        refine ⟨(s.session j).vc.numOfRatings, by simp [phase, hwr, hl], ?_, ?_⟩
        · rw [numRatings, hd', Option.bind_some, hn', Option.getD_some]
        · exact (phase_set s j _).trans (by simp)
    | load j => exact absurd ha (by simp [access])
    | star j c tag => exact absurd ha (by simp [access])
    | complete j => exact absurd ha (by simp [access])
    | commitTasks j => exact absurd ha (by simp [access])

/-! ### Lost ratings -/

/-- No users write is committed between the load of a session and the commit of
its own users write. -/
def Undisturbed (es : List (Event k)) : Prop :=
  ∀ pre mid post i, es = pre ++ .load i :: (mid ++ .commitUsers i :: post) →
    ∀ j, .commitUsers j ∉ mid

lemma undisturbed_iff (e : String) (es : List (Event k)) :
    (ratingCounter e).Undisturbed es ↔ Undisturbed es := by
  constructor
  · intro h pre mid post i heq j hj
    have := h pre mid post _ _ i heq rfl rfl _ hj
    exact absurd this (by simp [ratingCounter, access, Access.isWrite])
  · intro h pre mid post a b i heq ha hb x hx
    have hload : a = .load i := by cases a <;> simp_all [ratingCounter, access]
    have hcommit : b = .commitUsers i := by cases b <;> simp_all [ratingCounter, access]
    subst hload hcommit
    have hnot := h pre mid post i heq
    cases x with
    | commitUsers j => exact absurd hx (hnot j)
    | load j => rfl
    | star j c tag => rfl
    | complete j => rfl
    | commitTasks j => rfl

/-- **Concurrent ratings**: once all `k` sessions have their users write
committed, the count has grown by `k` if and only if no users write was
committed between another session's load and the commit of its own. -/
theorem numRatings_eq_add_iff {store : Store} {e : String} {d : User} {n : ℤ} {r : ℚ}
    (hd : store.users.lookup e = some d) (hn : d.numRatings = some n) (hr : d.rating = some r)
    (docID : Fin k → String) {es : List (Event k)} {s : State k}
    (h : exec step (start store e docID) es = some s) (hall : ∀ i, (s.session i).written = true) :
    numRatings e s = some (n + k) ↔ Undisturbed es := by
  have hinv := inv_start hd hn hr docID
  have hidle : ∀ i, (ratingCounter e).phase (start store e docID) i = .idle := fun i => rfl
  have hcount : (ratingCounter e).writes es = k := by
    have hdone : ∀ i, (ratingCounter e).phase s i = .done := fun i => by
      simp [ratingCounter, phase, hall i]
    rw [Counter.writes_eq_card hinv hidle h]
    simp [hdone]
  have hstart : (ratingCounter e).count (start store e docID) = n := by
    simp [ratingCounter, numRatings, start, hd, hn]
  obtain ⟨d', n', r', hd', hn', -⟩ := (exec_invariant inv_step hinv h).stored
  have hend : numRatings e s = some n' := by rw [numRatings, hd']; exact hn'
  have hmain := Counter.count_eq_iff hinv hidle h
  rw [hcount, hstart, undisturbed_iff] at hmain
  rw [← hmain, hend]
  simp [ratingCounter, hend]

/-! ### Two sessions -/

/-- A registered employee `e` without ratings. -/
def unrated : Store where
  users := DocStore.setData ∅ "e" { numRatings := some 0, rating := some 0 }

/-- Five stars throughout, submitted. -/
def fiveStars (i : Fin k) : List (Event k) :=
  [.star i .category1 (Fin.last 4), .star i .category2 (Fin.last 4),
    .star i .category3 (Fin.last 4), .complete i]

/-- Both writes committed. -/
def commits (i : Fin k) : List (Event k) := [.commitUsers i, .commitTasks i]

def first : Fin 2 := ⟨0, Nat.zero_lt_two⟩

def second : Fin 2 := ⟨1, Nat.one_lt_two⟩

/-- One session after the other. -/
def serialRun : List (Event 2) :=
  .load first :: fiveStars first ++ commits first ++
    .load second :: fiveStars second ++ commits second

/-- Both sessions load before the first commit. -/
def overlappingRun : List (Event 2) :=
  [.load first, .load second] ++ fiveStars first ++ fiveStars second ++ commits first ++
    commits second

theorem serialRun_counted : ∃ s, exec step (start unrated "e" ![("t1" : String), "t2"]) serialRun =
    some s ∧ (numRatings "e" s = some (0 + (2 : ℕ)) ↔ Undisturbed serialRun) := by
  have hrun : (exec step (start unrated "e" ![("t1" : String), "t2"]) serialRun).map
      (fun s => decide (∀ i, (s.session i).written = true)) = some true := by decide +kernel
  obtain ⟨s, hs, hall⟩ := Option.map_eq_some_iff.mp hrun
  exact ⟨s, hs, numRatings_eq_add_iff (d := { numRatings := some 0, rating := some 0 })
    rfl rfl rfl _ hs (of_decide_eq_true hall)⟩

/-- Both ratings are loaded, submitted and committed, and one is counted. -/
theorem overlappingRun_loses_one : ∃ s,
    exec step (start unrated "e" ![("t1" : String), "t2"]) overlappingRun = some s ∧
    (∀ i, (s.session i).written = true ∧ (s.session i).tasksWrite.isNone) ∧
    numRatings "e" s = some 1 ∧ numRatings "e" s ≠ some (0 + (2 : ℕ)) := by
  have hrun : (exec step (start unrated "e" ![("t1" : String), "t2"]) overlappingRun).map
      (fun s => decide ((∀ i, (s.session i).written = true ∧ (s.session i).tasksWrite.isNone) ∧
        numRatings "e" s = some 1)) = some true := by decide +kernel
  obtain ⟨s, hs, hend⟩ := Option.map_eq_some_iff.mp hrun
  obtain ⟨hall, hcount⟩ := of_decide_eq_true hend
  exact ⟨s, hs, hall, hcount, by rw [hcount]; decide⟩

end Tasker.Rating
