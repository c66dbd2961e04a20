import Tasker.Screens.SubmitTask

/-!
The taskers near the user, on the home page from its opening on.

* `UserDoc`, `near`: a document a query for nearby taskers brings, and whether it
  can.
* `fetchAndLoadNearbyTaskers`, `loadNearbyTaskers`: the query and its callback,
  which appends to a list that nothing ever clears, and indexes it from its end
  when the lengths agree. An index out of range stops the app, which `crashed`
  records.
* `homeExplore`: the handlers of the page. Each appearance requests the location,
  whose place queues the query.
* `follows_iff`: one answer, and `eachStep_follows_iff`: a run follows the answers
  if and only if each brings a document, and none but the last a tasker.
-/

namespace Tasker

open EventSystem

/-- A document of the collection `users` with a zip code, and the user it decodes
to, if it does. -/
structure UserDoc where
  zipcode : ℤ
  user : Option User := none
  deriving DecidableEq, Repr

/-- The taskers of `HomeExplorePageViewController`. -/
structure HomeTaskers where
  nearbyTaskers : List User := []
  userLocation : Address := {}
  crashed : Bool := false
  deriving DecidableEq, Repr

namespace HomeTaskers

/-- `requestLocation`, `reverseGeocodeLocation`, and the query around a zip
code. -/
inductive Request where
  | location
  | geocode
  | taskers (zipcode : ℤ)
  deriving DecidableEq, Repr

/-- A location or an error, a place or none, and documents or an error. -/
inductive Answer where
  | didUpdateLocations
  | didFailWithError
  | placemark (placemark : Placemark)
  | noPlacemark
  | documents (docs : List UserDoc)
  | error
  deriving DecidableEq, Repr

/-- The page appears. -/
inductive Appearance where
  | viewWillAppear
  deriving DecidableEq, Repr

/-- The block queued by the callback of the geocoder. -/
inductive Block where
  | fetchAndLoadNearbyTaskers
  deriving DecidableEq, Repr

/-- The page, and what it waits for. -/
abbrev State := MainQueue.State HomeTaskers Request Block

/-- What happens on the page. -/
abbrev Event := MainQueue.Event Request Appearance Answer

/-- A query around a zip code can bring the document. -/
def near (zipcode : ℤ) (d : UserDoc) : Bool :=
  zipcode - 10000 < d.zipcode && d.zipcode < zipcode + 10000

/-- `fetchAndLoadNearbyTaskers`: the query around the place of the user, which
traps without a zip code. -/
def fetchAndLoadNearbyTaskers (vc : HomeTaskers) : Option State :=
  vc.userLocation.zipcode.map fun zipcode => { page := vc, requests := [.taskers zipcode] }

/-- The callback of a query that succeeds. -/
def loadNearbyTaskers (vc : HomeTaskers) (docs : List UserDoc) : HomeTaskers :=
  let nearbyTaskers := vc.nearbyTaskers ++ docs.filterMap UserDoc.user
  -- the last tasker is printed when the lengths agree, be it there or not
  { vc with
    nearbyTaskers
    crashed := nearbyTaskers.length = docs.length && nearbyTaskers.getLast?.isNone }

/-- The callback of the geocoder, which traps on a place without a postal
code. -/
def showPlacemark (vc : HomeTaskers) (placemark : Placemark) : Option State :=
  placemark.postalCode.map fun postalCode => {
    page := { vc with
      userLocation := { vc.userLocation with
        city := placemark.locality
        state := placemark.administrativeArea
        zipcode := int postalCode } }
    blocks := [.fetchAndLoadNearbyTaskers] }

/-- The callbacks of the page. -/
def callback (vc : HomeTaskers) : Request → Answer → Option State
  | .location, .didUpdateLocations => some { page := vc, requests := [.geocode] }
  | .location, .didFailWithError => some { page := vc }
  | .geocode, .placemark placemark => vc.showPlacemark placemark
  | .geocode, .noPlacemark => some { page := vc }
  | .taskers zipcode, .documents docs =>
      if docs.all (near zipcode) then some { page := vc.loadNearbyTaskers docs } else none
  | .taskers _, .error => some { page := vc }
  | _, _ => none

/-- The handlers of the page, until it has crashed. -/
def homeExplore : MainQueue.Handlers HomeTaskers Request Block Appearance Answer where
  act vc _ := if vc.crashed then none else some { page := vc, requests := [.location] }
  callback vc r a := if vc.crashed then none else vc.callback r a
  block vc _ := if vc.crashed then none else vc.fetchAndLoadNearbyTaskers

/-- The page before it appears. -/
def opened : State where
  page := {}

/-- The documents of a query that succeeds. -/
def documentsOf : Event → Option (List UserDoc)
  | .answer (.taskers _) (.documents docs) => some docs
  | _ => none

/-- The successful answers of a run, in the order in which they come. -/
def answers (es : List Event) : List (List UserDoc) := es.filterMap documentsOf

/-- The users an answer brings. -/
def decodable (docs : List UserDoc) : List User := docs.filterMap UserDoc.user

/-- After a successful answer the app runs on, and the taskers are the users of
the answer, each once. -/
def Follows (s : State) (e : Event) : Prop :=
  ∀ docs, documentsOf e = some docs → ∀ s', MainQueue.step homeExplore s e = some s' →
    s'.page.crashed = false ∧ s'.page.nearbyTaskers.Perm (decodable docs)

variable {s s' : State} {e : Event} {es : List Event} {docs : List UserDoc}

/-! ### One event -/

/-- The answer of a query that succeeds. -/
lemma step_documents (hdocs : documentsOf e = some docs)
    (hs : MainQueue.step homeExplore s e = some s') :
    s'.page = s.page.loadNearbyTaskers docs := by
  unfold documentsOf at hdocs
  split at hdocs
  · obtain rfl := Option.some.inj hdocs
    obtain ⟨-, t, ht, rfl⟩ := MainQueue.step_answer.mp hs
    obtain ⟨-, ht⟩ := Option.ite_none_left_eq_some.mp ht
    obtain ⟨-, ht⟩ := Option.ite_none_right_eq_some.mp ht
    obtain rfl := Option.some.inj ht
    rfl
  · exact absurd hdocs (by simp)

/-- No other event changes the taskers. -/
lemma step_of_documentsOf_none (hdocs : documentsOf e = none)
    (hs : MainQueue.step homeExplore s e = some s') :
    s'.page.nearbyTaskers = s.page.nearbyTaskers := by
  cases e with
  | act a =>
      obtain ⟨t, ht, rfl⟩ := MainQueue.step_act.mp hs
      obtain ⟨-, ht⟩ := Option.ite_none_left_eq_some.mp ht
      obtain rfl := Option.some.inj ht
      rfl
  | block =>
      obtain ⟨b, bs, t, -, ht, rfl⟩ := MainQueue.step_block.mp hs
      obtain ⟨-, ht⟩ := Option.ite_none_left_eq_some.mp ht
      obtain ⟨zipcode, -, rfl⟩ := Option.map_eq_some_iff.mp ht
      rfl
  | answer r a =>
      obtain ⟨-, t, ht, rfl⟩ := MainQueue.step_answer.mp hs
      obtain ⟨-, ht⟩ := Option.ite_none_left_eq_some.mp ht
      unfold callback at ht
      split at ht
      · obtain rfl := Option.some.inj ht
        rfl
      · obtain rfl := Option.some.inj ht
        rfl
      · obtain ⟨postalCode, -, rfl⟩ := Option.map_eq_some_iff.mp ht
        rfl
      · obtain rfl := Option.some.inj ht
        rfl
      · exact absurd hdocs (by simp [documentsOf])
      · obtain rfl := Option.some.inj ht
        rfl
      · exact absurd ht (by simp)

/-- The taskers after an event. -/
lemma nearbyTaskers_step (hs : MainQueue.step homeExplore s e = some s') :
    s'.page.nearbyTaskers = s.page.nearbyTaskers ++ (documentsOf e).elim [] decodable := by
  cases hdocs : documentsOf e with
  | none => rw [step_of_documentsOf_none hdocs hs, Option.elim_none, List.append_nil]
  | some docs =>
      rw [step_documents hdocs hs]
      rfl

/-- The callback crashes exactly on an answer without documents, if there were no
taskers. -/
lemma loadNearbyTaskers_crashed (vc : HomeTaskers) (docs : List UserDoc) :
    (vc.loadNearbyTaskers docs).crashed = true ↔ vc.nearbyTaskers = [] ∧ docs = [] := by
  simp only [loadNearbyTaskers, Bool.and_eq_true, decide_eq_true_eq, Option.isNone_iff_eq_none,
    List.getLast?_eq_none_iff, List.append_eq_nil_iff]
  constructor
  · rintro ⟨hlength, hnil, hdec⟩
    rw [hnil, hdec] at hlength
    exact ⟨hnil, List.length_eq_zero_iff.mp hlength.symm⟩
  · rintro ⟨hnil, rfl⟩
    simp [hnil]

/-- **One answer** is followed exactly if there were no taskers before it, and it
has a document. -/
lemma follows_iff (hs : MainQueue.step homeExplore s e = some s') :
    Follows s e ↔ ∀ docs, documentsOf e = some docs →
      s.page.nearbyTaskers = [] ∧ docs ≠ [] := by
  refine forall_congr' fun docs => forall_congr' fun hdocs => ?_
  have hpage := step_documents hdocs hs
  have hlist : s'.page.nearbyTaskers = s.page.nearbyTaskers ++ decodable docs := by
    rw [nearbyTaskers_step hs, hdocs, Option.elim_some]
  have hcrashed := loadNearbyTaskers_crashed s.page docs
  rw [← hpage] at hcrashed
  constructor
  · intro h
    obtain ⟨hruns, hperm⟩ := h s' hs
    have hlength := hperm.length_eq
    rw [hlist, List.length_append] at hlength
    have hnil : s.page.nearbyTaskers = [] := List.length_eq_zero_iff.mp (by omega)
    refine ⟨hnil, fun hdoc => ?_⟩
    rw [hcrashed.mpr ⟨hnil, hdoc⟩] at hruns
    exact absurd hruns (by simp)
  · rintro ⟨hnil, hdoc⟩ t ht
    obtain rfl := Option.some.inj (hs.symm.trans ht)
    refine ⟨Bool.eq_false_of_not_eq_true fun hc => hdoc (hcrashed.mp hc).2, ?_⟩
    rw [hlist, hnil, List.nil_append]

/-! ### Runs -/

/-- Each answer brings a document, and none but the last a tasker. -/
def OneBrings (docss : List (List UserDoc)) : Prop :=
  (∀ docs ∈ docss, docs ≠ []) ∧ ∀ docs ∈ docss.dropLast, decodable docs = []

/-- A run from a page with some taskers. -/
lemma eachStep_follows_of_exec (h : exec (MainQueue.step homeExplore) s es = some s') :
    EachStep (MainQueue.step homeExplore) Follows s es ↔
      OneBrings (answers es) ∧ (answers es = [] ∨ s.page.nearbyTaskers = []) := by
  induction es generalizing s with
  | nil => simp [EachStep, answers, OneBrings]
  | cons e es ih =>
      obtain ⟨t, ht, h'⟩ := exec_cons_eq_some.mp h
      rw [eachStep_cons_iff ht, ih h', follows_iff ht, nearbyTaskers_step ht]
      cases hdocs : documentsOf e with
      | none => simp [answers, hdocs]
      | some docs =>
          -- after this answer the list is empty only if it was, and the answer brings no tasker
          have hcons : answers (e :: es) = docs :: answers es := List.filterMap_cons_some hdocs
          rw [hcons]
          cases answers es with
          | nil => simp [OneBrings, and_comm]
          | cons docs' docss =>
              simp only [OneBrings, Option.some.injEq, forall_eq', Option.elim_some,
                List.append_eq_nil_iff, List.forall_mem_cons, List.dropLast_cons_cons, reduceCtorEq,
                false_or]
              tauto

/-- **The taskers nearby**: in a run the page follows every successful answer if
and only if each brings a document, and none but the last a tasker. -/
theorem eachStep_follows_iff (h : exec (MainQueue.step homeExplore) opened es = some s) :
    EachStep (MainQueue.step homeExplore) Follows opened es ↔
      (∀ docs ∈ answers es, docs ≠ []) ∧
        ∀ docs ∈ (answers es).dropLast, decodable docs = [] := by
  rw [eachStep_follows_of_exec h]
  exact and_iff_left (Or.inr rfl)

/-! ### Appearances in Seattle -/

/-- The page appears in Seattle, up to the query. -/
def appears : List Event :=
  [.act .viewWillAppear, .answer .location .didUpdateLocations,
    .answer .geocode (.placemark { locality := some "Seattle", postalCode := some "98101" }),
    .block]

/-- The query brings documents. -/
def brings (docs : List UserDoc) : Event := .answer (.taskers 98101) (.documents docs)

/-- A tasker in Seattle. -/
def seattleTasker : UserDoc where
  zipcode := 98104
  user := some { firstname := some "Dan", address := some { zipcode := some 98104 } }

theorem eachStep_follows_iff_seattle : ∃ s,
    exec (MainQueue.step homeExplore) opened (appears ++ [brings [seattleTasker]]) = some s ∧
    (EachStep (MainQueue.step homeExplore) Follows opened (appears ++ [brings [seattleTasker]]) ↔
      (∀ docs ∈ answers (appears ++ [brings [seattleTasker]]), docs ≠ []) ∧
        ∀ docs ∈ (answers (appears ++ [brings [seattleTasker]])).dropLast, decodable docs = []) := by
  have hrun : exec (MainQueue.step homeExplore) opened (appears ++ [brings [seattleTasker]]) =
    some _ := rfl
  exact ⟨_, hrun, eachStep_follows_iff hrun⟩

/-- An answer without documents crashes the app, and the second time the page
appears its only tasker is there twice. -/
theorem emptyAnswer_crashes_and_tasker_twice : ∃ s t,
    exec (MainQueue.step homeExplore) opened (appears ++ [brings []]) = some s ∧
    s.page.crashed = true ∧
    ¬ EachStep (MainQueue.step homeExplore) Follows opened (appears ++ [brings []]) ∧
    exec (MainQueue.step homeExplore) opened
      (appears ++ [brings [seattleTasker]] ++ appears ++ [brings [seattleTasker]]) = some t ∧
    t.page.nearbyTaskers.map User.firstname = [some "Dan", some "Dan"] ∧
    ¬ EachStep (MainQueue.step homeExplore) Follows opened
      (appears ++ [brings [seattleTasker]] ++ appears ++ [brings [seattleTasker]]) := by
  refine ⟨_, _, rfl, rfl, ?_, rfl, rfl, ?_⟩
  · rw [eachStep_follows_of_exec rfl, OneBrings]
    decide
  · rw [eachStep_follows_of_exec rfl, OneBrings]
    decide

end HomeTaskers

end Tasker
