import Tasker.Market.Lifecycle

/-!
The account of ratings: does the count of an employee equal the number of tasks
of the employee that are marked rated?

Writes are queued on their device and committed at any time later, one by one.
Rating sessions do not overlap: a session opens its page when the two writes of the
one before are committed, and is submitted with the document loaded. The lists, and
the accept pages opened from them, may be as old as can be.

* `Ledger`, `step`: the app with at most one rating session; `Session.credit`: whom
  it has credited while the flag of the task is not committed.
* `Balances`: every count is the number of rated tasks, and one more between the two
  commits of a rating.
* `LedgerInv`: the queues hold posts, acceptances and what is left of the session,
  which holds the count of the employee it credits.
* `Settled`: the condition on a commit: the task that is marked rated is not rated
  yet and has the employee credited, and a task that is rated is accepted only by the
  employee it has.
* `balances_step`: a step keeps the account balanced exactly if it meets the
  condition; `balanced_iff_settled`: so does a run.
* `rated_from_two_lists`: a task rated from two lists is counted twice;
  `accepted_between_writes`: one that somebody else accepts between the two commits
  is not counted for the employee credited.
-/

namespace Tasker.Market

open DocStore EventSystem WriteQueue

variable {C : Type*}

/-- Where the rating session is: there is none; its page is open on a device, or
shows the users document as well; the page is submitted, and none of the two writes or
the first is committed. -/
inductive Session (C : Type*) where
  | idle
  | opened (c : C) (i : ℕ)
  | loaded (c : C) (i : ℕ)
  | submitted (c : C) (vc : RateUserViewController)
  | credited (c : C) (vc : RateUserViewController)

namespace Session

/-- The device and the position of the open page. -/
def place : Session C → Option (C × ℕ)
  | .opened c i => some (c, i)
  | .loaded c i => some (c, i)
  | _ => none

/-- The session after the commit of a write. -/
def commit : Session C → Write → Session C
  | .submitted c vc, .mergeUser _ _ => .credited c vc
  | .credited _ _, .mergeTask _ _ => .idle
  | s, _ => s

/-- The employee who is credited with a rating whose task is not marked yet. -/
def credit : Session C → Option String
  | .credited _ vc => some vc.employeeID
  | _ => none

end Session

/-- The app, and the rating session. -/
structure Ledger (C : Type*) where
  market : State C Store Write Screens Posted
  session : Session C := .idle

/-- What can happen: posting, listing and accepting on a device, the commit of a
write, or a step of a rating session. -/
inductive Entry (C : Type*) where
  | act (c : C) (a : Action)
  | commit (c : C)
  | rate (c : C) (page row : ℕ)
  | load
  | star (cat : RateUserViewController.Category) (tag : Fin 5)
  | complete
  | back

/-- Posting, listing and accepting. -/
def Action.isListing : Action → Bool
  | .home _ => true
  | .post .. => true
  | .openExplore _ => true
  | .selectTask .. => true
  | .accept _ => true
  | .openRecent => true
  | _ => false

/-- The open rating page. -/
def Ledger.page (s : Ledger C) : Option RateUserViewController :=
  s.session.place.bind fun i => (s.market.screen i.1).rate[i.2]?

section step

variable [DecidableEq C] (uid : C → Uid)

/-- One step. A page is opened when no session is, its load succeeds, and it is
left when its submission is written, or by the back button. -/
def Ledger.step (s : Ledger C) : Entry C → Option (Ledger C)
  | .act c a =>
      if a.isListing then ((app uid).step s.market (.act c a)).map fun m => { s with market := m }
      else none
  | .commit c =>
      ((app uid).step s.market (.commit c)).map fun m =>
        { market := m
          session := (s.market.queue c).head?.elim s.session s.session.commit }
  | .rate c page row =>
      match s.session with
      | .idle =>
          ((app uid).step s.market (.act c (.openRate page row))).map fun m =>
            { market := m, session := .opened c (s.market.screen c).rate.length }
      | _ => none
  | .load =>
      match s.session with
      | .opened c i =>
          ((app uid).step s.market (.act c (.loadRate i true))).map fun m =>
            { market := m, session := .loaded c i }
      | _ => none
  | .star cat tag =>
      s.session.place.bind fun i =>
        ((app uid).step s.market (.act i.1 (.star i.2 cat tag))).map fun m =>
          { s with market := m }
  | .complete =>
      match s.session with
      | .loaded c i =>
          ((app uid).step s.market (.act c (.complete i))).map fun m =>
            { market := m
              session := (s.page.filter fun vc => vc.validateFields = none).elim (.loaded c i)
                (.submitted c) }
      | _ => none
  | .back => s.session.place.map fun _ => { s with session := .idle }

end step

/-- The accounts in `users`, and no tasks. -/
def Ledger.start (users : Collection String User) : Ledger C where
  market := { Market.start with store := { users } }

/-- The count of an account, zero without a document. -/
def numRatings (st : Store) (u : String) : ℤ :=
  ((st.users.lookup u).bind User.numRatings).getD 0

/-- The task is marked rated and its employee is `u`. -/
def RatedOf (u : String) (_ : String) (d : TaskDoc) : Bool :=
  d.employeeRated = some true ∧ d.employeeID = some u

/-- The account balances: every count is the number of rated tasks, and one more for
the employee credited. -/
def Balances (credit : Option String) (st : Store) : Prop :=
  ∀ u, numRatings st u = countDocs (RatedOf u) st.tasks + if credit = some u then 1 else 0

/-- The write fits the stored task: a rated task is accepted by its employee only,
and a task that is marked rated is not rated yet and has the employee credited. -/
def Fits (credit : Option String) (st : Store) : Write → Prop
  | .updateTask id f => ∀ d ∈ st.tasks.lookup id, d.employeeRated = some true →
      d.employeeID = f.employeeID
  | .mergeTask id _ => ∀ d ∈ st.tasks.lookup id,
      d.employeeRated ≠ some true ∧ d.employeeID = credit
  | _ => True

/-- What is committed fits. -/
def Settled (s : Ledger C) : Entry C → Prop
  | .commit c => ∀ w ∈ (s.market.queue c).head?, Fits s.session.credit s.market.store w
  | _ => True

/-! ### One document written -/

section writes

variable {credit : Option String} {st : Store} {id e : String} {d : TaskDoc}

/-- Accepting a task moves it to another account if it is rated. -/
lemma balances_updateTask (h : Balances credit st) (id e : String) :
    Balances credit (Write.apply (.updateTask id { employeeID := some e }) st) ↔
      ∀ d ∈ st.tasks.lookup id, d.employeeRated = some true → d.employeeID = some e := by
  rw [Balances, updateTask_tasks, updateData]
  cases hd : st.tasks.lookup id with
  | none => exact iff_of_true h (by simp)
  | some d =>
      have hcount := fun u => countDocs_setData_of_some (RatedOf u) hd
        (Document.updateFields { employeeID := some e } d)
      have hnew : ∀ u, RatedOf u id (Document.updateFields { employeeID := some e } d) =
          decide (d.employeeRated = some true ∧ e = u) := fun u => by
        simp [RatedOf, Document.updateFields, TaskDoc.over]
      have hsame : ∀ u, numRatings
          (Write.apply (.updateTask id { employeeID := some e }) st) u = numRatings st u :=
        fun u => rfl
      simp only [Option.mem_def, Option.some.injEq, forall_eq']
      constructor
      · intro hbal hrated
        by_contra hne
        have hc := hcount e
        have hb := hbal e
        rw [hsame, h e] at hb
        rw [hnew] at hc
        simp [RatedOf, hrated, hne] at hc
        omega
      · intro hcond u
        have hc := hcount u
        rw [hsame, h u]
        rw [hnew] at hc
        have hiff : (RatedOf u id d : Prop) ↔ d.employeeRated = some true ∧ e = u := by
          simp only [RatedOf, decide_eq_true_eq]
          refine and_congr_right fun hrated => ?_
          rw [hcond hrated, Option.some.injEq]
        simp only [hiff, decide_eq_true_eq] at hc
        rw [Nat.add_right_cancel hc]

/-- A new task is not rated. -/
lemma balances_addTask (h : Balances credit st) {f : TaskDoc}
    (hnew : st.tasks.lookup id = none) (hf : f.employeeRated = some false) :
    Balances credit (Write.apply (.addTask id f) st) := by
  intro u
  have hrated : RatedOf u id f = false := by simp [RatedOf, hf]
  rw [addTask_tasks, countDocs_setData_of_none _ hnew, hrated]
  exact h u

/-- The first write of a rating credits the employee. -/
lemma balances_mergeUser (h : Balances none st) {f : User}
    (hf : f.numRatings = some (numRatings st e + 1)) :
    Balances (some e) (Write.apply (.mergeUser e f) st) := by
  intro u
  have hu := h u
  rw [if_neg (by simp), add_zero] at hu
  rw [mergeUser_tasks, ← hu, numRatings, mergeUser_users, lookup_mergeData]
  by_cases hue : u = e
  · subst hue
    rw [if_pos rfl, if_pos rfl, Option.bind_some]
    have hcount : (Document.mergeFields f ((st.users.lookup u).getD default)).numRatings =
        some (numRatings st u + 1) := by
      simp [Document.mergeFields, User.over, hf]
    rw [hcount, Option.getD_some]
  · rw [if_neg hue, if_neg (by simpa using Ne.symm hue), add_zero, numRatings]

/-- Its second write balances if the task is not rated and its employee is the one
credited. -/
lemma balances_mergeTask (h : Balances (some e) st) (hd : st.tasks.lookup id = some d) :
    Balances none (Write.apply (.mergeTask id { employeeRated := some true }) st) ↔
      d.employeeRated ≠ some true ∧ d.employeeID = some e := by
  have hnew : ∀ u, RatedOf u id (Document.mergeFields { employeeRated := some true } d) =
      decide (d.employeeID = some u) := fun u => by
    simp [RatedOf, Document.mergeFields, TaskDoc.over]
  have hcount : ∀ u, countDocs (RatedOf u)
      (Write.apply (.mergeTask id { employeeRated := some true }) st).tasks +
        (if RatedOf u id d then 1 else 0) =
      countDocs (RatedOf u) st.tasks + if d.employeeID = some u then 1 else 0 := fun u => by
    have hset := countDocs_setData_of_some (RatedOf u) hd
      (Document.mergeFields { employeeRated := some true } d)
    rw [hnew] at hset
    rw [mergeTask_tasks, mergeData, hd, Option.getD_some, hset]
    simp
  have hsame : ∀ u, numRatings
      (Write.apply (.mergeTask id { employeeRated := some true }) st) u = numRatings st u :=
    fun u => rfl
  constructor
  · intro hbal
    have hb := hbal e
    have hc := hcount e
    rw [hsame, h e, if_pos rfl, if_neg (by simp), mergeTask_tasks] at hb
    by_cases hemp : d.employeeID = some e
    · refine ⟨fun hrated => ?_, hemp⟩
      simp [RatedOf, hrated, hemp] at hc
      omega
    · simp [RatedOf, hemp] at hc
      omega
  · rintro ⟨hrated, hemp⟩ u
    have hc := hcount u
    rw [hsame, h u, if_neg (c := none = some u) (by simp)]
    by_cases hu : e = u
    · subst hu
      simp [RatedOf, hrated, hemp] at hc ⊢
      omega
    · simp [RatedOf, hrated, hemp, hu] at hc ⊢
      omega

end writes

/-! ### The queues -/

/-- Whether a write is no post and no acceptance. -/
def isRatingWrite : Write → Bool
  | .addTask _ _ => false
  | .updateTask _ _ => false
  | _ => true

namespace Session

variable [DecidableEq C]

/-- The writes of the session that are not committed, on a device. -/
def due : Session C → C → List Write
  | .submitted c vc, c' =>
      if c' = c then [.mergeUser vc.employeeID vc.ratingFields,
        .mergeTask vc.docID { employeeRated := some true }] else []
  | .credited c vc, c' =>
      if c' = c then [.mergeTask vc.docID { employeeRated := some true }] else []
  | _, _ => []

end Session

/-- A users document that a rating page can load. -/
def Loadable (d : User) : Prop := ∃ n r, d.numRatings = some n ∧ d.rating = some r

/-- What holds of a run: a page holds zeros until its load is answered, and the count
of its employee from then on. -/
structure LedgerInv [DecidableEq C] (uid : C → Uid) (s : Ledger C) : Prop where
  life : LifeInv uid s.market
  queue : ∀ c, (s.market.queue c).filter isRatingWrite = s.session.due c
  users : AllDocs (fun _ d => Loadable d) s.market.store.users
  page : ∀ vc, s.page = some vc → vc.clientID = ""
  opened : ∀ c i, s.session = .opened c i → ∀ vc, s.page = some vc → vc.numOfRatings = 0
  loaded : ∀ c i, s.session = .loaded c i → ∀ vc, s.page = some vc →
    vc.numOfRatings = numRatings s.market.store vc.employeeID
  submitted : ∀ c vc, s.session = .submitted c vc →
    vc.numOfRatings = numRatings s.market.store vc.employeeID

section steps

variable [DecidableEq C] {uid : C → Uid} {s s' : Ledger C}
  {m m' : State C Store Write Screens Posted} {c : C}

omit [DecidableEq C] in
/-- Posts and acceptances leave the users documents alone. -/
lemma users_applyAll (uid : C → Uid) (ws : List Write) {st : Store}
    (h : ws.filter isRatingWrite = []) :
    ((app uid).applyAll ws st).users = st.users := by
  refine App.applyAll_of_forall (P := fun st' : Store => st'.users = st.users) _ rfl
    fun w hw st' hst' => ?_
  have hlisting := List.filter_eq_nil_iff.mp h w hw
  cases w with
  | addTask id f => exact hst'
  | updateTask id f => exact hst'
  | _ => exact absurd hlisting (by simp [isRatingWrite])

/-- The counts depend on the users documents only. -/
lemma numRatings_congr {st st' : Store} (h : st'.users = st.users) (u : String) :
    numRatings st' u = numRatings st u := by
  rw [numRatings, numRatings, h]

/-- What a device shows of the open page after an action that leaves the rating pages
alone. -/
lemma rate_update {screen : C → Screens} {x : Screens} (h : x.rate = (screen c).rate) (c' : C) :
    (Function.update screen c x c').rate = (screen c').rate := by
  by_cases hc : c' = c
  · rw [hc, Function.update_self, h]
  · rw [Function.update_of_ne hc]

/-- What posting, listing and accepting do: no rating page is touched, and the
only writes are posts and acceptances. -/
lemma listing_of_act {u : Uid} {g g' : Posted} {x x' : Screens} {v : Store} {a : Action}
    {ws : List Write} (ha : a.isListing = true) (h : act u g x v a = some (g', x', ws)) :
    x'.rate = x.rate ∧ ws.filter isRatingWrite = [] := by
  cases a with
  | home answered =>
      obtain ⟨vc, -, rfl, rfl, rfl⟩ := act_map_eq_some h
      exact ⟨rfl, rfl⟩
  | post id form page now =>
      rw [act] at h
      split at h
      · split at h
        · obtain ⟨rfl, rfl, rfl⟩ := act_eq_some h
          exact ⟨rfl, rfl⟩
        · obtain ⟨rfl, rfl, rfl⟩ := act_eq_some h
          exact ⟨rfl, rfl⟩
      · exact absurd h (by simp)
  | openExplore cityAnswered =>
      rw [act] at h
      split at h
      · exact absurd h (by simp)
      · obtain ⟨rfl, rfl, rfl⟩ := act_eq_some h
        exact ⟨rfl, rfl⟩
  | selectTask page l row =>
      obtain ⟨vc, -, rfl, rfl, rfl⟩ := act_map_eq_some h
      exact ⟨rfl, rfl⟩
  | accept page =>
      obtain ⟨ws', hws, rfl, rfl, rfl⟩ := act_map_eq_some h
      obtain ⟨vc, hvc, hacc⟩ := Option.bind_eq_some_iff.mp hws
      obtain ⟨e, he, rfl⟩ := Option.map_eq_some_iff.mp hacc
      exact ⟨rfl, rfl⟩
  | openRecent =>
      obtain ⟨rfl, rfl, rfl⟩ := act_eq_some h
      exact ⟨rfl, rfl⟩
  | _ => exact absurd ha (by simp [Action.isListing])

/-- An action that issues no write of the session. -/
lemma filter_queue_act {queue : C → List Write} {ws : List Write}
    (hws : ws.filter isRatingWrite = []) (c' : C) :
    (Function.update queue c (queue c ++ ws) c').filter isRatingWrite =
      (queue c').filter isRatingWrite := by
  by_cases hc : c' = c
  · rw [hc, Function.update_self, List.filter_append, hws, List.append_nil]
  · rw [Function.update_of_ne hc]

/-- The page of a row. -/
lemma act_openRate {u : Uid} {g g' : Posted} {x x' : Screens} {v : Store} {page row : ℕ}
    {ws : List Write} (h : act u g x v (.openRate page row) = some (g', x', ws)) :
    ∃ e id, ws = [] ∧ x' = { x with rate := x.rate ++ [{ employeeID := e, docID := id }] } := by
  obtain ⟨task, -, hrate⟩ := Option.bind_eq_some_iff.mp h
  split at hrate
  · obtain ⟨vc, hvc, rfl, rfl, rfl⟩ := act_map_eq_some hrate
    obtain ⟨e, id, -, -, rfl⟩ := RecentTasksTableViewController.didRateButtonPressed_eq_some hvc
    exact ⟨e, id, rfl, rfl⟩
  · exact absurd hrate (by simp)

/-! ### What a step does -/

omit [DecidableEq C] in
/-- The page of a session whose page is open. -/
lemma page_eq_of_place {s : Ledger C} {i : ℕ} (hi : s.session.place = some (c, i)) :
    s.page = (s.market.screen c).rate[i]? := by
  rw [Ledger.page, hi, Option.bind_some]

omit [DecidableEq C] in
/-- The page of the session if the rating pages stay as they are. -/
lemma page_congr (h : ∀ c, (m.screen c).rate = (s.market.screen c).rate) :
    Ledger.page { s with market := m } = s.page :=
  congrArg (Option.bind s.session.place) (funext fun i => by rw [h])

/-- A session with an open page. -/
lemma ledgerInv_of_place {session : Session C} {i : ℕ} (vc : RateUserViewController)
    (hlife : LifeInv uid m) (hqueue : ∀ c, (m.queue c).filter isRatingWrite = [])
    (husers : AllDocs (fun _ d => Loadable d) m.store.users)
    (hvc : (m.screen c).rate[i]? = some vc) (hclient : vc.clientID = "")
    (hcount : session = .opened c i ∧ vc.numOfRatings = 0 ∨
      session = .loaded c i ∧ vc.numOfRatings = numRatings m.store vc.employeeID) :
    LedgerInv uid { market := m, session } := by
  have hplace : session.place = some (c, i) := by
    rcases hcount with ⟨rfl, -⟩ | ⟨rfl, -⟩ <;> rfl
  have hpage : ∀ vc', Ledger.page { market := m, session } = some vc' → vc' = vc := fun vc' h =>
    Option.some.inj (h.symm.trans ((page_eq_of_place hplace).trans hvc))
  refine ⟨hlife, fun c' => (hqueue c').trans ?_, husers, fun vc' h => hpage vc' h ▸ hclient,
    fun c' j hs vc' h => ?_, fun c' j hs vc' h => ?_, fun c' vc' hs => ?_⟩
  · rcases hcount with ⟨rfl, -⟩ | ⟨rfl, -⟩ <;> rfl
  · rcases hcount with ⟨-, hzero⟩ | ⟨rfl, -⟩
    · exact hpage vc' h ▸ hzero
    · exact absurd hs (by simp)
  · rcases hcount with ⟨rfl, -⟩ | ⟨-, heq⟩
    · exact absurd hs (by simp)
    · exact hpage vc' h ▸ heq
  · rcases hcount with ⟨rfl, -⟩ | ⟨rfl, -⟩ <;> exact absurd hs (by simp)

/-- An action leaves the documents alone. -/
lemma store_act {a : Action} (hm : (app uid).step s.market (.act c a) = some m) :
    m.store = s.market.store := by
  obtain ⟨g, x, ws, -, rfl⟩ := App.step_act_eq_some.mp hm
  rfl

/-- An action on the pages other than the rating pages. -/
lemma LedgerInv.act (hs : LedgerInv uid s) {a : Action} (ha : a.isListing = true)
    (hm : (app uid).step s.market (.act c a) = some m) : LedgerInv uid { s with market := m } := by
  have hlife := hs.life.step hm
  obtain ⟨g, x, ws, hact, rfl⟩ := App.step_act_eq_some.mp hm
  obtain ⟨hrate, hws⟩ := listing_of_act ha hact
  refine ⟨hlife, fun c' => (filter_queue_act hws c').trans (hs.queue c'), hs.users, ?_, ?_, ?_,
    hs.submitted⟩
  · rw [page_congr fun c' => rate_update hrate c']
    exact hs.page
  · rw [page_congr fun c' => rate_update hrate c']
    exact hs.opened
  · rw [page_congr fun c' => rate_update hrate c']
    exact hs.loaded

lemma LedgerInv.openRate {page row : ℕ} (hs : LedgerInv uid s) (hidle : s.session = .idle)
    (hm : (app uid).step s.market (.act c (.openRate page row)) = some m) :
    LedgerInv uid { market := m, session := .opened c (s.market.screen c).rate.length } := by
  have hlife := hs.life.step hm
  obtain ⟨g, x, ws, hact, rfl⟩ := App.step_act_eq_some.mp hm
  obtain ⟨e, id, rfl, rfl⟩ := act_openRate (u := uid c)
    (v := (app uid).view s.market c) hact
  refine ledgerInv_of_place { employeeID := e, docID := id } hlife (fun c' => ?_) hs.users
    (by simp) rfl (Or.inl ⟨rfl, rfl⟩)
  rw [filter_queue_act rfl, hs.queue c', hidle]
  rfl

/-- A page that loads a users document holds its count. -/
lemma retriveRatings_numRatings {st : Store} (h : AllDocs (fun _ d => Loadable d) st.users)
    {vc vc' : RateUserViewController} (hzero : vc.numOfRatings = 0) (hclient : vc.clientID = "")
    (hload : vc.retriveRatings (.ofLookup (st.users.lookup vc.requestedID)) = some vc') :
    vc'.clientID = "" ∧ vc'.numOfRatings = numRatings st vc'.employeeID := by
  have hid : vc.requestedID = vc.employeeID := by simp [RateUserViewController.requestedID, hclient]
  obtain ⟨he, hc, -⟩ := RateUserViewController.retriveRatings_frame hload
  rw [hid] at hload
  refine ⟨hc.trans hclient, ?_⟩
  rw [he]
  cases hd : st.users.lookup vc.employeeID with
  | none =>
      rw [hd] at hload
      obtain rfl := Option.some.inj hload
      simp [numRatings, hd, hzero]
  | some d =>
      obtain ⟨n, r, hn, hr⟩ := h _ d hd
      rw [hd, Fetched.ofLookup_some, RateUserViewController.retriveRatings_document hn hr] at hload
      obtain rfl := Option.some.inj hload
      simp [numRatings, hd, hn]

/-- The answer to the page of the session shows the stored document. -/
lemma LedgerInv.loadRate {i : ℕ} (hs : LedgerInv uid s) (hopened : s.session = .opened c i)
    (hm : (app uid).step s.market (.act c (.loadRate i true)) = some m) :
    LedgerInv uid { market := m, session := .loaded c i } := by
  have hlife := hs.life.step hm
  have hqueue : ∀ c', (s.market.queue c').filter isRatingWrite = [] := fun c' => by
    rw [hs.queue c', hopened]
    rfl
  obtain ⟨g, x, ws, hact, rfl⟩ := App.step_act_eq_some.mp hm
  obtain ⟨vc', hvc', rfl, rfl, rfl⟩ := act_map_eq_some hact
  obtain ⟨vc, hvc, hload⟩ := Option.bind_eq_some_iff.mp hvc'
  have hpage : s.page = some vc := (page_eq_of_place (by rw [hopened]; rfl)).trans hvc
  have hview : ((app uid).view s.market c).users = s.market.store.users :=
    users_applyAll uid _ (hqueue c)
  rw [hview] at hload
  obtain ⟨hclient, hcount⟩ := retriveRatings_numRatings hs.users (hs.opened c i hopened vc hpage)
    (hs.page vc hpage) hload
  refine ledgerInv_of_place vc' hlife (fun c' => ?_) hs.users ?_ hclient
    (Or.inr ⟨rfl, hcount⟩)
  · rw [filter_queue_act rfl, hqueue c']
  · simp [List.getElem?_set_self (List.getElem?_eq_some_iff.mp hvc).1]

omit [DecidableEq C] in
/-- A session whose page is open. -/
lemma place_eq_some {session : Session C} {i : ℕ} (h : session.place = some (c, i)) :
    session = .opened c i ∨ session = .loaded c i := by
  cases session with
  | opened c' j =>
      obtain ⟨rfl, rfl⟩ := Prod.mk.inj (Option.some.inj h)
      exact Or.inl rfl
  | loaded c' j =>
      obtain ⟨rfl, rfl⟩ := Prod.mk.inj (Option.some.inj h)
      exact Or.inr rfl
  | _ => exact absurd h (by simp [Session.place])

/-- The page of the session, replaced by one for the same employee with the same
count. -/
lemma LedgerInv.setPage {i : ℕ} {vc vc' : RateUserViewController} (hs : LedgerInv uid s)
    (hi : s.session.place = some (c, i)) (hvc : (s.market.screen c).rate[i]? = some vc)
    (hlife : LifeInv uid m) (hstore : m.store = s.market.store)
    (hqueue : ∀ c', (m.queue c').filter isRatingWrite =
      (s.market.queue c').filter isRatingWrite)
    (hrate : (m.screen c).rate = (s.market.screen c).rate.set i vc')
    (he : vc'.employeeID = vc.employeeID) (hc : vc'.clientID = vc.clientID)
    (hn : vc'.numOfRatings = vc.numOfRatings) : LedgerInv uid { s with market := m } := by
  have hpage : s.page = some vc := (page_eq_of_place hi).trans hvc
  have hvc' : (m.screen c).rate[i]? = some vc' := by
    rw [hrate, List.getElem?_set_self (List.getElem?_eq_some_iff.mp hvc).1]
  have hdue : ∀ c', (m.queue c').filter isRatingWrite = [] := fun c' => by
    rw [hqueue, hs.queue c']
    rcases place_eq_some hi with hopened | hloaded
    · rw [hopened]
      rfl
    · rw [hloaded]
      rfl
  refine ledgerInv_of_place vc' hlife hdue (hstore ▸ hs.users) hvc' (hc.trans (hs.page vc hpage)) ?_
  rcases place_eq_some hi with hopened | hloaded
  · exact Or.inl ⟨hopened, hn.trans (hs.opened c i hopened vc hpage)⟩
  · refine Or.inr ⟨hloaded, ?_⟩
    rw [hn, he, hstore]
    exact hs.loaded c i hloaded vc hpage

lemma LedgerInv.star {i : ℕ} {cat : RateUserViewController.Category} {tag : Fin 5}
    (hs : LedgerInv uid s) (hi : s.session.place = some (c, i))
    (hm : (app uid).step s.market (.act c (.star i cat tag)) = some m) :
    LedgerInv uid { s with market := m } := by
  have hlife := hs.life.step hm
  obtain ⟨g, x, ws, hact, rfl⟩ := App.step_act_eq_some.mp hm
  obtain ⟨vc, hvc, rfl, rfl, rfl⟩ := act_map_eq_some hact
  obtain ⟨he, hc, -, hn, -⟩ := RateUserViewController.starButtonTapped_frame vc cat tag
  exact hs.setPage hi hvc hlife rfl (fun c' => filter_queue_act rfl c') (by simp) he hc hn

/-- A submission leaves its two writes to be committed. -/
lemma LedgerInv.complete {i : ℕ} (hs : LedgerInv uid s) (hloaded : s.session = .loaded c i)
    (hm : (app uid).step s.market (.act c (.complete i)) = some m) :
    LedgerInv uid { market := m
                    session := (s.page.filter fun vc => vc.validateFields = none).elim
                      (.loaded c i) (.submitted c) } := by
  have hlife := hs.life.step hm
  have hi : s.session.place = some (c, i) := by
    rw [hloaded]
    rfl
  obtain ⟨g, x, ws, hact, rfl⟩ := App.step_act_eq_some.mp hm
  obtain ⟨vc, hvc, rfl, rfl, rfl⟩ := act_map_eq_some hact
  have hpage : s.page = some vc := (page_eq_of_place hi).trans hvc
  have hclient := hs.page vc hpage
  have hwrites := RateUserViewController.completeButtonTapped_writes hclient
  obtain ⟨he, hc, -, hn, -⟩ := RateUserViewController.completeButtonTapped_frame vc
  by_cases hv : vc.validateFields = none
  · rw [if_pos hv] at hwrites
    rw [hpage, Option.filter_some, if_pos (by simpa using hv), Option.elim_some]
    refine ⟨hlife, fun c' => ?_, hs.users, by simp [Ledger.page, Session.place], by simp, by simp,
      fun c' vc' hsub => ?_⟩
    · have hqueue := hs.queue c'
      rw [hloaded] at hqueue
      by_cases hcc : c' = c
      · subst hcc
        simp only [Function.update_self, List.filter_append, hqueue, hwrites, Session.due]
        rfl
      · simp only [Function.update_of_ne hcc, hqueue, Session.due, if_neg hcc]
    · obtain ⟨rfl, rfl⟩ := Session.submitted.inj hsub
      exact hs.loaded c i hloaded vc hpage
  · rw [if_neg hv] at hwrites
    rw [hpage, Option.filter_some, if_neg (by simpa using hv), Option.elim_none, ← hloaded]
    refine hs.setPage hi hvc hlife rfl (fun c' => filter_queue_act ?_ c') (by simp) he hc hn
    rw [hwrites]
    rfl

/-- What a commit commits: a post or an acceptance, or a write of the session. -/
lemma LedgerInv.commit_cases (hs : LedgerInv uid s)
    (hm : (app uid).step s.market (.commit c) = some m) : ∃ w q, s.market.queue c = w :: q ∧
      m = { s.market with
        store := w.apply s.market.store, queue := Function.update s.market.queue c q } ∧
      LifeWrite s.market.shared s.market.store w ∧
      ((isRatingWrite w = false ∧ s.session.commit w = s.session) ∨
        (∃ vc, s.session = .submitted c vc ∧ w = .mergeUser vc.employeeID vc.ratingFields) ∨
        ∃ vc, s.session = .credited c vc ∧
          w = .mergeTask vc.docID { employeeRated := some true }) := by
  obtain ⟨w, q, hq, rfl⟩ := App.step_commit_eq_some.mp hm
  have hlife := hs.life.inv.queue c
  rw [hq] at hlife
  refine ⟨w, q, hq, rfl, hlife.1, ?_⟩
  have hqueue := hs.queue c
  rw [hq] at hqueue
  by_cases hw : isRatingWrite w = true
  · rw [List.filter_cons_of_pos hw] at hqueue
    right
    cases hsession : s.session with
    | submitted c' vc =>
        rw [hsession, Session.due] at hqueue
        split at hqueue
        · next hc => exact Or.inl ⟨vc, by rw [hc], (List.cons.inj hqueue).1⟩
        · exact absurd hqueue (by simp)
    | credited c' vc =>
        rw [hsession, Session.due] at hqueue
        split at hqueue
        · next hc => exact Or.inr ⟨vc, by rw [hc], (List.cons.inj hqueue).1⟩
        · exact absurd hqueue (by simp)
    | _ =>
        rw [hsession] at hqueue
        exact absurd hqueue (by simp [Session.due])
  · refine Or.inl ⟨by simpa using hw, ?_⟩
    cases w with
    | addTask id f => cases s.session <;> rfl
    | updateTask id f => cases s.session <;> rfl
    | _ => exact absurd rfl hw

/-- A commit leaves what is due. -/
lemma LedgerInv.commit (hs : LedgerInv uid s)
    (hm : (app uid).step s.market (.commit c) = some m) :
    LedgerInv uid { market := m
                    session := (s.market.queue c).head?.elim s.session s.session.commit } := by
  have hlife := hs.life.step hm
  obtain ⟨w, q, hq, rfl, -, hcase⟩ := hs.commit_cases hm
  have hqueue := hs.queue c
  rw [hq, List.head?_cons, Option.elim_some]
  rw [hq] at hqueue
  rcases hcase with ⟨hw, hsession⟩ | ⟨vc, hsub, rfl⟩ | ⟨vc, hcred, rfl⟩
  · have husers : (w.apply s.market.store).users = s.market.store.users :=
      users_applyAll uid [w] (by rw [List.filter_cons_of_neg (by simp [hw])]; rfl)
    rw [hsession]
    rw [List.filter_cons_of_neg (by simp [hw])] at hqueue
    refine ⟨hlife, fun c' => ?_, husers ▸ hs.users, ?_, ?_, ?_, fun c' vc hsub => ?_⟩
    · by_cases hc : c' = c
      · rw [hc]
        simpa only [Function.update_self] using hqueue
      · simpa only [Function.update_of_ne hc] using hs.queue c'
    · exact hs.page
    · exact hs.opened
    · intro c' i hloaded vc hvc
      rw [numRatings_congr husers]
      exact hs.loaded c' i hloaded vc hvc
    · rw [numRatings_congr husers]
      exact hs.submitted c' vc hsub
  · rw [hsub, Session.due, if_pos rfl, List.filter_cons_of_pos rfl] at hqueue
    rw [hsub]
    refine ⟨hlife, fun c' => ?_, ?_, by simp [Ledger.page, Session.place, Session.commit],
      by simp [Session.commit], by simp [Session.commit], by simp [Session.commit]⟩
    · by_cases hc : c' = c
      · rw [hc]
        simpa only [Function.update_self, Session.commit, Session.due, if_true] using
          (List.cons.inj hqueue).2
      · have hother := hs.queue c'
        rw [hsub, Session.due, if_neg hc] at hother
        simpa only [Function.update_of_ne hc, Session.commit, Session.due, if_neg hc] using hother
    · exact hs.users.mergeData (fun _ => ⟨_, _, rfl, rfl⟩) fun d _ _ => ⟨_, _, rfl, rfl⟩
  · rw [hcred, Session.due, if_pos rfl, List.filter_cons_of_pos rfl] at hqueue
    rw [hcred]
    refine ⟨hlife, fun c' => ?_, hs.users, by simp [Ledger.page, Session.place, Session.commit],
      by simp [Session.commit], by simp [Session.commit], by simp [Session.commit]⟩
    by_cases hc : c' = c
    · rw [hc]
      simpa only [Function.update_self, Session.commit, Session.due] using
        (List.cons.inj hqueue).2
    · have hother := hs.queue c'
      rw [hcred, Session.due, if_neg hc] at hother
      simpa only [Function.update_of_ne hc, Session.commit, Session.due] using hother

/-- A step other than a commit keeps the invariant, and leaves the documents and the
credit alone. -/
lemma LedgerInv.step_of_ne_commit {e : Entry C} (hs : LedgerInv uid s)
    (he : ∀ c, e ≠ .commit c) (h : s.step uid e = some s') :
    LedgerInv uid s' ∧ s'.market.store = s.market.store ∧ s'.session.credit = s.session.credit := by
  cases e with
  | act c a =>
      rw [Ledger.step] at h
      split at h
      · next ha =>
          obtain ⟨m, hm, rfl⟩ := Option.map_eq_some_iff.mp h
          exact ⟨hs.act ha hm, store_act hm, rfl⟩
      · exact absurd h (by simp)
  | commit c => exact absurd rfl (he c)
  | rate c page row =>
      rw [Ledger.step] at h
      split at h
      · next hidle =>
          obtain ⟨m, hm, rfl⟩ := Option.map_eq_some_iff.mp h
          exact ⟨hs.openRate hidle hm, store_act hm, by rw [hidle]; rfl⟩
      · exact absurd h (by simp)
  | load =>
      rw [Ledger.step] at h
      split at h
      · next c i hopened =>
          obtain ⟨m, hm, rfl⟩ := Option.map_eq_some_iff.mp h
          exact ⟨hs.loadRate hopened hm, store_act hm, by rw [hopened]; rfl⟩
      · exact absurd h (by simp)
  | star cat tag =>
      obtain ⟨⟨c, i⟩, hi, h⟩ := Option.bind_eq_some_iff.mp h
      obtain ⟨m, hm, rfl⟩ := Option.map_eq_some_iff.mp h
      exact ⟨hs.star hi hm, store_act hm, rfl⟩
  | complete =>
      rw [Ledger.step] at h
      split at h
      · next c i hloaded =>
          obtain ⟨m, hm, rfl⟩ := Option.map_eq_some_iff.mp h
          refine ⟨hs.complete hloaded hm, store_act hm, ?_⟩
          rw [hloaded]
          cases s.page.filter fun vc => vc.validateFields = none <;> rfl
      · exact absurd h (by simp)
  | back =>
      obtain ⟨⟨c, i⟩, hi, rfl⟩ := Option.map_eq_some_iff.mp h
      refine ⟨⟨hs.life, fun c' => ?_, hs.users, by simp [Ledger.page, Session.place], by simp,
        by simp, by simp⟩, rfl, ?_⟩
      · rw [hs.queue c']
        rcases place_eq_some hi with hi | hi <;> rw [hi] <;> rfl
      · rcases place_eq_some hi with hi | hi <;> rw [hi] <;> rfl

lemma LedgerInv.step {e : Entry C} (hs : LedgerInv uid s) (h : s.step uid e = some s') :
    LedgerInv uid s' := by
  cases e with
  | commit c =>
      obtain ⟨m, hm, rfl⟩ := Option.map_eq_some_iff.mp h
      exact hs.commit hm
  | _ => exact (hs.step_of_ne_commit (by simp) h).1

/-! ### The balance -/

/-- A commit keeps the account balanced exactly if what is committed fits. -/
lemma balances_commit (hs : LedgerInv uid s)
    (hbal : Balances s.session.credit s.market.store) (h : s.step uid (.commit c) = some s') :
    Balances s'.session.credit s'.market.store ↔ Settled s (.commit c) := by
  obtain ⟨m, hm, rfl⟩ := Option.map_eq_some_iff.mp h
  obtain ⟨w, q, hq, rfl, hlife, hcase⟩ := hs.commit_cases hm
  have hsettled : Settled s (.commit c) ↔ Fits s.session.credit s.market.store w := by
    simp [Settled, hq]
  rw [hsettled, hq, List.head?_cons, Option.elim_some]
  rcases hcase with ⟨hw, hsession⟩ | ⟨vc, hsub, rfl⟩ | ⟨vc, hcred, rfl⟩
  · rw [hsession]
    cases w with
    | addTask id f =>
        obtain ⟨hnone, t, -, hnew⟩ := hlife
        exact iff_of_true (balances_addTask hbal hnone hnew.employeeRated) trivial
    | updateTask id f =>
        obtain ⟨e, -, rfl⟩ := hlife
        exact balances_updateTask hbal id e
    | _ => exact absurd hw (by simp [isRatingWrite])
  · rw [hsub] at hbal ⊢
    refine iff_of_true (balances_mergeUser hbal ?_) trivial
    rw [RateUserViewController.ratingFields, hs.submitted c vc hsub]
  · obtain ⟨⟨d, hd, -⟩, -⟩ := hlife
    rw [hcred] at hbal ⊢
    refine (balances_mergeTask hbal hd).trans ?_
    simp only [Fits, Option.mem_def, hd, Option.some.injEq, forall_eq', Session.credit]

/-- A step keeps the account balanced exactly if it meets the condition. -/
lemma balances_step {e : Entry C} (hs : LedgerInv uid s)
    (hbal : Balances s.session.credit s.market.store) (h : s.step uid e = some s') :
    Balances s'.session.credit s'.market.store ↔ Settled s e := by
  cases e with
  | commit c => exact balances_commit hs hbal h
  | _ =>
      obtain ⟨-, hstore, hcredit⟩ := hs.step_of_ne_commit (by simp) h
      rw [hstore, hcredit]
      exact iff_of_true hbal trivial

/-- With nothing in flight nobody is credited. -/
lemma LedgerInv.credit_eq_none (hs : LedgerInv uid s) (hq : ∀ c, s.market.queue c = []) :
    s.session.credit = none := by
  cases hsession : s.session with
  | credited c vc =>
      have hqueue := hs.queue c
      rw [hq, hsession, Session.due, if_pos rfl] at hqueue
      exact absurd hqueue (by simp)
  | _ => rfl

end steps

/-! ### Whole runs -/

variable {uid : C → Uid}

/-- Registered accounts without ratings. -/
def Unrated (users : Collection String User) : Prop :=
  AllDocs (fun _ d => d.numRatings = some 0 ∧ d.rating = some 0) users

variable [DecidableEq C]

lemma ledgerInv_start {users : Collection String User} (h : Unrated users) :
    LedgerInv uid (Ledger.start users) := by
  refine ⟨⟨?_, ?_⟩, fun _ => rfl, fun u d hd => ⟨0, 0, h u d hd⟩,
    by simp [Ledger.page, Ledger.start, Session.place], by simp [Ledger.start],
    by simp [Ledger.start], by simp [Ledger.start]⟩
  · exact ⟨by simp [Ledger.start, Market.start], by simp [Ledger.start, Market.start]⟩
  · refine ⟨allDocs_empty _, fun _ => trivial, fun c => ?_⟩
    exact ⟨by simp [Ledger.start, Market.start], by simp [Ledger.start, Market.start],
      by simp [Ledger.start, Market.start], by simp [Ledger.start, Market.start]⟩

omit [DecidableEq C] in
lemma balances_start {users : Collection String User} (h : Unrated users) :
    Balances none (Ledger.start (C := C) users).market.store := by
  intro u
  rw [numRatings]
  cases hd : users.lookup u with
  | none => simp [Ledger.start, hd]
  | some d => simp [Ledger.start, hd, (h u d hd).1]

/-- **The account of ratings**: along a run of postings, acceptances, lists and
rating sessions that do not overlap, with every write committed at some time after it
is issued, the count of every account equals the number of its rated tasks in every
state, and is one more for the employee credited between the two commits of a rating,
if and only if what is committed fits. In particular they are equal whenever no rating
is between its commits, and with nothing in flight. -/
theorem balanced_iff_settled {users : Collection String User} (hu : Unrated users)
    {es : List (Entry C)} {s : Ledger C}
    (h : exec (Ledger.step uid) (Ledger.start users) es = some s) :
    (EachState (Ledger.step uid) (fun s => ∀ u, numRatings s.market.store u =
        countDocs (RatedOf u) s.market.store.tasks + if s.session.credit = some u then 1 else 0)
        (Ledger.start users) es ↔
      EachStep (Ledger.step uid) Settled (Ledger.start users) es) ∧
    (EachStep (Ledger.step uid) Settled (Ledger.start users) es →
      EachState (Ledger.step uid) (fun s =>
        s.session.credit = none ∨ (∀ c, s.market.queue c = []) → ∀ u,
          numRatings s.market.store u = countDocs (RatedOf u) s.market.store.tasks)
        (Ledger.start users) es) := by
  have hinv : ∀ s e s', LedgerInv uid s → s.step uid e = some s' → LedgerInv uid s' :=
    fun _ _ _ hs hstep => hs.step hstep
  have hbal : ∀ s e s', LedgerInv uid s → Balances s.session.credit s.market.store →
      s.step uid e = some s' → (Balances s'.session.credit s'.market.store ↔ Settled s e) :=
    fun _ _ _ hs hb hstep => balances_step hs hb hstep
  have hboth : EachState (Ledger.step uid) (fun s => LedgerInv uid s ∧
      Balances s.session.credit s.market.store) (Ledger.start users) es ↔
      EachStep (Ledger.step uid) Settled (Ledger.start users) es := by
    refine eachState_iff_eachStep hinv (fun s e s' hs hb hstep => ?_) (ledgerInv_start hu)
      ⟨ledgerInv_start hu, balances_start hu⟩ h
    rw [and_iff_right (hs.step hstep)]
    exact balances_step hs hb.2 hstep
  refine ⟨eachState_iff_eachStep hinv hbal (ledgerInv_start hu) (balances_start hu) h,
    fun hsettled => (hboth.mpr hsettled).mono fun s hs hquiet u => ?_⟩
  have hcredit : s.session.credit = none := hquiet.elim id hs.1.credit_eq_none
  have hbalances := hs.2 u
  rwa [hcredit, if_neg (by simp), add_zero] at hbalances

/-! ### A client with two devices -/

instance (credit : Option String) (st : Store) : (w : Write) → Decidable (Fits credit st w)
  | .updateTask id f => inferInstanceAs (Decidable (∀ d ∈ st.tasks.lookup id,
      d.employeeRated = some true → d.employeeID = f.employeeID))
  | .mergeTask id _ => inferInstanceAs (Decidable (∀ d ∈ st.tasks.lookup id,
      d.employeeRated ≠ some true ∧ d.employeeID = credit))
  | .addTask _ _ | .setUser _ _ | .mergeUser _ _ | .updateUser _ _ => isTrue trivial

instance Settled.decidable : (s : Ledger C) → (e : Entry C) → Decidable (Settled s e)
  | s, .commit c => inferInstanceAs (Decidable (∀ w ∈ (s.market.queue c).head?,
      Fits s.session.credit s.market.store w))
  | _, .act _ _ | _, .rate _ _ _ | _, .load | _, .star _ _ | _, .complete | _, .back =>
      isTrue trivial

/-- The client on two devices, and an employee. -/
def clientTwice : Device → Uid
  | .first => client
  | .second => employee
  | .third => client

/-- The employee is registered. -/
def registered : Collection String User :=
  DocStore.setData ∅ "employee" (setUserData registration "employee")

lemma unrated_registered : Unrated registered :=
  (allDocs_empty _).setData ⟨rfl, rfl⟩

/-- The task is posted and accepted, and both devices of the client list it. -/
def listed : List (Entry Device) :=
  [.act .first (.post "t1" form
      { task := form.navigateToSubmitVC, validPrice := true, cost := some (.finite 20) } 0),
    .commit .first, .act .second (.home true), .act .second (.openExplore true),
    .act .second (.selectTask 0 .skills 0), .act .second (.accept 0), .commit .second,
    .act .first .openRecent, .act .third .openRecent]

/-- A session on a device: five stars for the listed task, submitted. -/
def fiveStars (c : Device) : List (Entry Device) :=
  [.rate c 0 0, .load, .star .category1 (Fin.last 4), .star .category2 (Fin.last 4),
    .star .category3 (Fin.last 4), .complete]

/-- The two writes of a rating are committed. -/
def committing (c : Device) : List (Entry Device) := [.commit c, .commit c]

/-- The task is rated once. -/
theorem balanced_iff_settled_once :
    EachState (Ledger.step clientTwice) (fun s =>
      s.session.credit = none ∨ (∀ c, s.market.queue c = []) → ∀ u,
        numRatings s.market.store u = countDocs (RatedOf u) s.market.store.tasks)
      (Ledger.start registered) (listed ++ fiveStars .first ++ committing .first) := by
  have hrun : (exec (Ledger.step clientTwice) (Ledger.start registered)
      (listed ++ fiveStars .first ++ committing .first)).isSome = true := by
    decide +kernel
  have hsettled : EachStep (Ledger.step clientTwice) Settled (Ledger.start registered)
      (listed ++ fiveStars .first ++ committing .first) := by
    decide +kernel
  obtain ⟨s, hs⟩ := Option.isSome_iff_exists.mp hrun
  exact (balanced_iff_settled unrated_registered hs).2 hsettled

/-- The task is rated on one device, and then on the other, whose list is
older: with nothing in flight it is counted twice. -/
theorem rated_from_two_lists : ∃ s,
    exec (Ledger.step clientTwice) (Ledger.start registered)
      (listed ++ fiveStars .first ++ committing .first ++ fiveStars .third ++
        committing .third) = some s ∧
    (∀ c, s.market.queue c = []) ∧ numRatings s.market.store "employee" = 2 ∧
    countDocs (RatedOf "employee") s.market.store.tasks = 1 := by
  have hrun : (exec (Ledger.step clientTwice) (Ledger.start registered)
      (listed ++ fiveStars .first ++ committing .first ++ fiveStars .third ++
        committing .third)).map (fun s =>
          (decide (∀ c, (s.market.queue c).isEmpty), numRatings s.market.store "employee",
            countDocs (RatedOf "employee") s.market.store.tasks)) = some (true, 2, 1) := by
    decide +kernel
  obtain ⟨s, hs, hcounts⟩ := Option.map_eq_some_iff.mp hrun
  obtain ⟨hempty, hnum, hrated⟩ : _ ∧ _ ∧ _ := by simpa only [Prod.mk.injEq] using hcounts
  exact ⟨s, hs, by simpa using hempty, hnum, hrated⟩

/-- Both employees are registered. -/
def registeredBoth : Collection String User :=
  DocStore.setData registered "other" (setUserData registration "other")

/-- Both open the accept page of the task, the first accepts, and the client lists it. -/
def listedOnce : List (Entry Device) :=
  [.act .first (.post "t1" form
      { task := form.navigateToSubmitVC, validPrice := true, cost := some (.finite 20) } 0),
    .commit .first, .act .second (.home true), .act .second (.openExplore true),
    .act .second (.selectTask 0 .skills 0), .act .third (.home true),
    .act .third (.openExplore true), .act .third (.selectTask 0 .skills 0),
    .act .second (.accept 0), .commit .second, .act .first .openRecent]

/-- The other employee accepts the task between the two commits of its rating: the
rating counts for the first, and the task for the other. -/
theorem accepted_between_writes : ∃ s,
    exec (Ledger.step users) (Ledger.start registeredBoth)
      (listedOnce ++ fiveStars .first ++ [.commit .first, .act .third (.accept 0), .commit .third,
        .commit .first]) = some s ∧
    (∀ c, s.market.queue c = []) ∧ numRatings s.market.store "employee" = 1 ∧
    countDocs (RatedOf "employee") s.market.store.tasks = 0 := by
  have hrun : (exec (Ledger.step users) (Ledger.start registeredBoth)
      (listedOnce ++ fiveStars .first ++ [.commit .first, .act .third (.accept 0), .commit .third,
        .commit .first])).map (fun s =>
          (decide (∀ c, (s.market.queue c).isEmpty), numRatings s.market.store "employee",
            countDocs (RatedOf "employee") s.market.store.tasks)) = some (true, 1, 0) := by
    decide +kernel
  obtain ⟨s, hs, hcounts⟩ := Option.map_eq_some_iff.mp hrun
  obtain ⟨hempty, hnum, hrated⟩ : _ ∧ _ ∧ _ := by simpa only [Prod.mk.injEq] using hcounts
  exact ⟨s, hs, by simpa using hempty, hnum, hrated⟩

end Tasker.Market
