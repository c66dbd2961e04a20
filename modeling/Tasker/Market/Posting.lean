import Tasker.Screens.SubmitTask

/-!
What the page that posts a task makes of the prices and places it is given.

* `page_step`: all an event does to the page, and `Shows`, `shows_of_exec`: the
  price, the check box and the address it shows after a run.
* `postsPrice_iff`: the price posted is the one on screen, and none is posted
  without one, unless the price on screen is too high and the one before it was
  a price.
* `FollowsBox`: the address posted is that of the device's place, as the geocoder
  gives it, if the box is checked, and empty if it is not.
* `followsBox_iff`: it is so if and only if, with the box checked, the place that
  has come is that of the latest location and its postal code is a number, and,
  with the box unchecked, no place has come.
-/

namespace Tasker.SubmitTaskPage

open EventSystem

variable {L : Type*} {place : L → Placemark} {s s' : State L}
  {es : List (Event L)}

/-! ### One event -/

/-- The text is a number that is not below the limit. -/
def tooHigh (text : String) : Bool := (double text).any fun price => !price.lt priceLimit

/-- The text an event leaves in the price field, unless it is too high. -/
def enteredOf (e : Event L) : Option String := (priceText e).filter fun text => !tooHigh text

/-- The latest text of the price field that is not too high. -/
def entered (es : List (Event L)) : Option String := (es.filterMap enteredOf).getLast?

/-- Whether the page would post, and at which price. -/
def posting (vc : SubmitTaskPage L) : Bool × Option Double :=
  (vc.validPrice, if vc.validPrice then vc.cost else none)

/-- The same after a text of the price field. -/
def postingOf (text : String) : Bool × Option Double := ((double text).isSome, double text)

/-- An edit of the price counts unless it is too high. -/
lemma posting_textFieldEndedEditing (vc : SubmitTaskPage L) (text : String) :
    posting { vc with toSubmitTaskViewController := vc.textFieldEndedEditing text } =
      if tooHigh text then posting vc else postingOf text := by
  rw [SubmitTaskViewController.textFieldEndedEditing, tooHigh, postingOf]
  cases hdouble : double text with
  | none => simp [posting]
  | some price =>
      cases hlt : price.lt priceLimit with
      | true => simp [posting, hlt]
      | false => simp [posting, hlt]

variable [DecidableEq L]

/-- All an event does to the page. -/
lemma page_step {e : Event L} (hs : MainQueue.step (submitTask place) s e = some s') :
    posting s'.page = (enteredOf e).elim (posting s.page) postingOf ∧
    s'.page.locationChecked = (s.page.locationChecked ^^ tapsBox e) ∧
    s'.page.currentLocation = (locationOf e).elim s.page.currentLocation some ∧
    s'.page.taskLocation = (geocodedOf e).elim s.page.taskLocation
      fun location => fillAddress s.page.taskLocation (place location) := by
  cases e with
  | act a =>
      obtain ⟨t, ht, rfl⟩ := MainQueue.step_act.mp hs
      obtain rfl := Option.some.inj ht
      cases a with
      | textFieldEndedEditing text =>
          refine ⟨?_, by simp [act, tapsBox], rfl, ?_⟩
          · rw [MainQueue.State.andThen_page, act, posting_textFieldEndedEditing, enteredOf]
            cases hhigh : tooHigh text <;> simp [priceText, hhigh, Option.filter]
          · simp only [MainQueue.State.andThen_page, act,
              SubmitTaskViewController.textFieldEndedEditing]
            split
            · split <;> rfl
            · rfl
      | currentLocationTextChecked => exact ⟨rfl, by simp [act, tapsBox], rfl, rfl⟩
      | negotiableTextChecked => exact ⟨rfl, by simp [act, tapsBox], rfl, rfl⟩
  | answer r a =>
      obtain ⟨-, t, ht, rfl⟩ := MainQueue.step_answer.mp hs
      cases r with
      | location =>
          cases a with
          | didUpdateLocations location =>
              obtain rfl := Option.some.inj ht
              exact ⟨rfl, by simp [tapsBox], rfl, rfl⟩
          | didFailWithError =>
              obtain rfl := Option.some.inj ht
              exact ⟨rfl, by simp [tapsBox], rfl, rfl⟩
          | placemark => exact absurd ht (by simp [submitTask, callback])
          | noPlacemark => exact absurd ht (by simp [submitTask, callback])
      | geocode location =>
          cases a with
          | placemark =>
              obtain ⟨-, ht⟩ := Option.ite_none_right_eq_some.mp ht
              obtain rfl := Option.some.inj ht
              exact ⟨rfl, by simp [tapsBox], rfl, rfl⟩
          | noPlacemark =>
              obtain rfl := Option.some.inj ht
              exact ⟨rfl, by simp [tapsBox], rfl, rfl⟩
          | didUpdateLocations location => exact absurd ht (by simp [submitTask, callback])
          | didFailWithError => exact absurd ht (by simp [submitTask, callback])
  | block =>
      obtain ⟨b, -, -, -, -, -⟩ := MainQueue.step_block.mp hs
      exact b.elim

/-! ### Runs -/

/-- The address of a place, and none without a place. -/
def addressOf (place : L → Placemark) (location : Option L) : Address :=
  location.elim {} fun location => fillAddress {} (place location)

omit [DecidableEq L] in
variable (place) in
/-- What the page shows after a run. -/
structure Shows (es : List (Event L)) (vc : SubmitTaskPage L) : Prop where
  posting : vc.posting = (((entered es).bind double).isSome, (entered es).bind double)
  locationChecked : vc.locationChecked = (boxTaps es).bodd
  currentLocation : vc.currentLocation = located es
  taskLocation : vc.taskLocation = addressOf place (geocoded es)

/-- The check box after a run. -/
lemma locationChecked_of_exec (h : exec (MainQueue.step (submitTask place)) s es = some s') :
    s'.page.locationChecked = (s.page.locationChecked ^^ (boxTaps es).bodd) := by
  induction es generalizing s with
  | nil =>
      obtain rfl := Option.some.inj h
      simp [boxTaps]
  | cons e es ih =>
      obtain ⟨t, ht, h'⟩ := exec_cons_eq_some.mp h
      obtain ⟨-, hbox, -⟩ := page_step ht
      rw [ih h', hbox, boxTaps, boxTaps, List.countP_cons]
      cases tapsBox e <;> simp

/-- The page after a run. -/
lemma shows_of_exec {task : Errand}
    (h : exec (MainQueue.step (submitTask place)) (opened L task) es = some s) :
    Shows place es s.page := by
  constructor
  · have hposting := exec_field (π := fun s : State L => s.page.posting) (f := enteredOf)
      (g := fun _ => postingOf) (fun _ _ _ => rfl) (fun _ _ _ hs => (page_step hs).1) h
    rw [hposting, entered]
    cases (es.filterMap enteredOf).getLast? <;> rfl
  · rw [locationChecked_of_exec h]
    exact Bool.false_xor _
  · have hlocated := exec_field (π := fun s : State L => s.page.currentLocation) (f := locationOf)
      (g := fun _ => some) (fun _ _ _ => rfl) (fun _ _ _ hs => (page_step hs).2.2.1) h
    rw [hlocated, located]
    cases (es.filterMap locationOf).getLast? <;> rfl
  · exact exec_field (π := fun s : State L => s.page.taskLocation) (f := geocodedOf)
      (g := fun address location => fillAddress address (place location)) (fun _ _ _ => rfl)
      (fun _ _ _ hs => (page_step hs).2.2.2) h

/-! ### The price -/

/-- Nothing is posted, and the page says why. -/
def NotPosted (r : SubmitTaskViewController × Option Errand) : Prop :=
  r.2 = none ∧ r.1.errorLabel = "Please enter a valid dollar amount."

/-- The task is posted at the price the text stands for, if it is below the
limit, and not posted otherwise. -/
def PostsPrice (text : String) (r : SubmitTaskViewController × Option Errand) : Prop :=
  match (double text).filter fun price => price.lt priceLimit with
  | some price => ∃ task, r.2 = some task ∧ task.price = some price
  | none => NotPosted r

omit [DecidableEq L] in
/-- What the button does. -/
lemma postTaskButtonPressed_posting (vc : SubmitTaskPage L) (now : ℤ) :
    if vc.posting.1 then
      ∃ task, (vc.postTaskButtonPressed now).2 = some task ∧ task.price = vc.posting.2
    else NotPosted (vc.postTaskButtonPressed now) := by
  rw [posting, SubmitTaskViewController.postTaskButtonPressed]
  cases hvalid : vc.validPrice with
  | false => exact ⟨rfl, rfl⟩
  | true => exact ⟨_, rfl, rfl⟩

omit [DecidableEq L] in
/-- A text that is not too high counts as soon as it is entered. -/
lemma entered_of_shownPrice (h : tooHigh (shownPrice es) = false) :
    (entered es).bind double = double (shownPrice es) := by
  have hentered : entered es = ((es.filterMap priceText).filter fun t => !tooHigh t).getLast? := by
    rw [entered, List.filter_filterMap]
    rfl
  rw [shownPrice] at h ⊢
  rw [hentered]
  cases hlast : (es.filterMap priceText).getLast? with
  | none =>
      rw [List.getLast?_eq_none_iff.mp hlast]
      decide +kernel
  | some text =>
      obtain ⟨texts, htexts⟩ := List.getLast?_eq_some_iff.mp hlast
      have htext : tooHigh text = false := by
        rw [hlast] at h
        exact h
      rw [htexts, List.filter_append]
      simp [htext]

/-- **The posted price**: after every run of the page, its button posts the task
at the price on screen, and does not post it without a price below the limit, if
and only if the text on screen is not too high, or the latest one that was not
is no number. -/
theorem postsPrice_iff {task : Errand}
    (h : exec (MainQueue.step (submitTask place)) (opened L task) es = some s) (now : ℤ) :
    PostsPrice (shownPrice es) (s.page.postTaskButtonPressed now) ↔
      (tooHigh (shownPrice es) = true → ∀ text ∈ entered es, double text = none) := by
  have hposts := postTaskButtonPressed_posting s.page now
  rw [(shows_of_exec h).posting] at hposts
  rw [PostsPrice]
  cases hhigh : tooHigh (shownPrice es) with
  | false =>
      refine iff_of_true ?_ (by simp)
      rw [entered_of_shownPrice hhigh] at hposts
      cases hprice : double (shownPrice es) with
      | none =>
          rw [hprice] at hposts
          exact hposts
      | some price =>
          have hlt : price.lt priceLimit = true := by simpa [tooHigh, hprice] using hhigh
          rw [hprice] at hposts
          rw [Option.filter_some, if_pos hlt]
          exact hposts
  | true =>
      obtain ⟨price, hprice, hlt⟩ := (Option.any_eq_true _ _).mp hhigh
      have hnot : price.lt priceLimit = false := by simpa using hlt
      rw [hprice, Option.filter_some, hnot, if_neg (by simp), imp_iff_right rfl]
      cases hentered : (entered es).bind double with
      | none =>
          rw [hentered] at hposts
          exact iff_of_true hposts fun text htext => Option.bind_eq_none_iff.mp hentered text htext
      | some old =>
          -- the price entered before is posted
          rw [hentered] at hposts
          obtain ⟨task', htask, -⟩ := hposts
          obtain ⟨text, htext, hold⟩ := Option.bind_eq_some_iff.mp hentered
          refine iff_of_false (fun hnone => ?_) fun hall => ?_
          · exact absurd (htask.symm.trans hnone.1) (by simp)
          · exact absurd (hold.symm.trans (hall text htext)) (by simp)

/-! ### The address -/

/-- The zip code is the number that the postal code is, and there is none
without a postal code. -/
def HoldsZipcode (zipcode : Option ℤ) : Option String → Prop
  | some postalCode => ∃ n, int postalCode = some n ∧ zipcode = some n
  | none => zipcode = none

/-- The address has the city, the state and the zip code of the place. -/
structure HoldsPlace (address : Address) (placemark : Placemark) : Prop where
  city : address.city = placemark.locality
  state : address.state = placemark.administrativeArea
  zipcode : HoldsZipcode address.zipcode placemark.postalCode

variable (place) in
/-- The address posted after a run is that of the latest location of the device if
the box is checked, and empty if it is not. -/
def FollowsBox (es : List (Event L)) (posted : Errand) : Prop :=
  if (boxTaps es).bodd then
    ∃ location ∈ located es, ∃ address, posted.location = some address ∧
      HoldsPlace address (place location)
  else posted.location = some {}

/-- The first place agrees with the second in its city and its state, and in its
postal code, which is a number. -/
structure AgreesWith (p q : Placemark) : Prop where
  locality : p.locality = q.locality
  administrativeArea : p.administrativeArea = q.administrativeArea
  postalCode : HoldsZipcode (p.postalCode.bind int) q.postalCode

/-- The place has no city, no state and no country, and no number for a postal
code. -/
structure Nowhere (p : Placemark) : Prop where
  locality : p.locality = none
  administrativeArea : p.administrativeArea = none
  postalCode : p.postalCode.bind int = none
  country : p.country = none

/-- The place that has come, if any. -/
def placeOf (place : L → Placemark) (location : Option L) : Placemark :=
  location.elim {} place

omit [DecidableEq L] in
/-- The address of a place that has come. -/
lemma addressOf_eq (location : Option L) :
    addressOf place location = fillAddress {} (placeOf place location) := by
  cases location <;> rfl

/-- An address filled in has what the place has. -/
lemma holdsPlace_fillAddress {p q : Placemark} :
    HoldsPlace (fillAddress {} p) q ↔ AgreesWith p q :=
  ⟨fun h => ⟨h.city, h.state, h.zipcode⟩, fun h => ⟨h.locality, h.administrativeArea, h.postalCode⟩⟩

/-- An address stays empty if there is nothing to fill in. -/
lemma fillAddress_eq_empty {p : Placemark} : fillAddress {} p = {} ↔ Nowhere p := by
  rw [fillAddress, Address.mk.injEq]
  constructor
  · rintro ⟨-, -, hcity, hstate, hcountry, hzip⟩
    exact ⟨hcity, hstate, hzip, hcountry⟩
  · rintro ⟨hcity, hstate, hzip, hcountry⟩
    exact ⟨rfl, rfl, hcity, hstate, hcountry, hzip⟩

/-- **The posted address**: after every run of the page, what is posted follows
the check box if and only if, when the box is checked, a location has come, and
the latest place to come agrees with its place in the city, the state and the
postal code, which is a number; and when it is not, no place has come that is
anywhere. -/
theorem followsBox_iff {task posted : Errand} {now : ℤ}
    (h : exec (MainQueue.step (submitTask place)) (opened L task) es = some s)
    (hposted : (s.page.postTaskButtonPressed now).2 = some posted) :
    FollowsBox place es posted ↔
      if (boxTaps es).bodd then
        ∃ location ∈ located es, AgreesWith (placeOf place (geocoded es)) (place location)
      else Nowhere (placeOf place (geocoded es)) := by
  have hlocation : posted.location = some (fillAddress {} (placeOf place (geocoded es))) := by
    rw [SubmitTaskViewController.postTaskButtonPressed] at hposted
    split at hposted
    · rw [← Option.some.inj hposted, ← addressOf_eq, ← (shows_of_exec h).taskLocation]
    · exact absurd hposted (by simp)
  rw [FollowsBox, hlocation]
  cases (boxTaps es).bodd with
  | true =>
      rw [if_pos rfl, if_pos rfl]
      refine exists_congr fun location => and_congr_right fun _ => ?_
      constructor
      · rintro ⟨address, heq, hholds⟩
        obtain rfl := Option.some.inj heq
        exact holdsPlace_fillAddress.mp hholds
      · exact fun hagrees => ⟨_, rfl, holdsPlace_fillAddress.mpr hagrees⟩
  | false =>
      rw [if_neg (by simp), if_neg (by simp), Option.some_inj, fillAddress_eq_empty]

/-! ### A fence -/

/-- The task of the examples. -/
def fence : Errand where
  title := "Fence"
  category := "Programming"
  taskDescription := "Paint it"

/-- Wherever the device is, it is in Olympia. -/
def olympia (_ : Unit) : Placemark where
  locality := some "Olympia"
  administrativeArea := some "WA"
  postalCode := some "98501"
  country := some "United States"

/-- A price is entered. -/
def pricing : List (Event Unit) := [.act (.textFieldEndedEditing "20")]

/-- The box is checked, and the place comes. -/
def locating : List (Event Unit) :=
  [.act .currentLocationTextChecked, .answer .location (.didUpdateLocations ()),
    .answer (.geocode ()) .placemark]

theorem postsPrice_iff_pricing : ∃ s,
    exec (MainQueue.step (submitTask olympia)) (opened Unit fence) pricing = some s ∧
    (PostsPrice (shownPrice pricing) (s.page.postTaskButtonPressed 0) ↔
      (tooHigh (shownPrice pricing) = true → ∀ text ∈ entered pricing, double text = none)) := by
  have hrun : exec (MainQueue.step (submitTask olympia)) (opened Unit fence) pricing = some _ := rfl
  exact ⟨_, hrun, postsPrice_iff hrun 0⟩

theorem followsBox_iff_locating : ∃ s posted,
    exec (MainQueue.step (submitTask olympia)) (opened Unit fence) (pricing ++ locating) = some s ∧
    (s.page.postTaskButtonPressed 0).2 = some posted ∧
    (FollowsBox olympia (pricing ++ locating) posted ↔
      if (boxTaps (pricing ++ locating)).bodd then
        ∃ location ∈ located (pricing ++ locating),
          AgreesWith (placeOf olympia (geocoded (pricing ++ locating))) (olympia location)
      else Nowhere (placeOf olympia (geocoded (pricing ++ locating)))) := by
  have hrun : (exec (MainQueue.step (submitTask olympia)) (opened Unit fence)
      (pricing ++ locating)).map (fun s => (s.page.postTaskButtonPressed 0).2.isSome) =
        some true := by decide +kernel
  obtain ⟨s, hs, hend⟩ := Option.map_eq_some_iff.mp hrun
  obtain ⟨posted, hposted⟩ := Option.isSome_iff_exists.mp hend
  exact ⟨s, posted, hs, hposted, followsBox_iff hs hposted⟩

/-- A postal code that is no number is not posted. -/
example : ¬ AgreesWith { postalCode := some "V6B 1A1" } { postalCode := some "V6B 1A1" } := by
  rintro ⟨-, -, n, hn, -⟩
  have hnone : int "V6B 1A1" = none := by decide
  exact absurd (hnone.symm.trans hn) (by simp)

/-- Twenty is entered, and then two millions. -/
def repricing : List (Event Unit) :=
  [.act (.textFieldEndedEditing "20"), .act (.textFieldEndedEditing "2000000")]

/-- Two millions are on screen, and the task is posted at twenty. -/
theorem repricing_posts_old : ∃ s posted,
    exec (MainQueue.step (submitTask olympia)) (opened Unit fence) repricing = some s ∧
    shownPrice repricing = "2000000" ∧ double "2000000" = some (.finite 2000000) ∧
    (s.page.postTaskButtonPressed 0).2 = some posted ∧ posted.price = some (.finite 20) ∧
    ¬ PostsPrice (shownPrice repricing) (s.page.postTaskButtonPressed 0) := by
  have hrun : (exec (MainQueue.step (submitTask olympia)) (opened Unit fence) repricing).map
      (fun s => (s.page.postTaskButtonPressed 0).2.map Errand.price) =
        some (some (some (.finite 20))) := by decide +kernel
  obtain ⟨s, hs, hend⟩ := Option.map_eq_some_iff.mp hrun
  obtain ⟨posted, hposted, hprice⟩ := Option.map_eq_some_iff.mp hend
  have hshown : shownPrice repricing = "2000000" := by decide
  have hdouble : double "2000000" = some (.finite 2000000) := by decide +kernel
  refine ⟨s, posted, hs, hshown, hdouble, hposted, hprice, fun hposts => ?_⟩
  rw [hshown, PostsPrice, hdouble] at hposts
  have hnone : NotPosted (s.page.postTaskButtonPressed 0) := hposts
  exact absurd (hposted.symm.trans hnone.1) (by simp)

/-- The box is checked. -/
def checking : List (Event Unit) := pricing ++ [.act .currentLocationTextChecked]

/-- The box is checked, the place comes, and the box is unchecked again. -/
def unchecking : List (Event Unit) := pricing ++ locating ++ [.act .currentLocationTextChecked]

/-- With the box checked and no place yet, no address is posted; with the box
unchecked again, the address of the device is. -/
theorem locating_posts_other : ∃ s posted t leaked,
    exec (MainQueue.step (submitTask olympia)) (opened Unit fence) checking = some s ∧
    (s.page.postTaskButtonPressed 0).2 = some posted ∧ s.page.locationChecked = true ∧
    posted.location = some {} ∧ ¬ FollowsBox olympia checking posted ∧
    exec (MainQueue.step (submitTask olympia)) (opened Unit fence) unchecking = some t ∧
    (t.page.postTaskButtonPressed 0).2 = some leaked ∧ t.page.locationChecked = false ∧
    (leaked.location.bind Address.city) = some "Olympia" ∧
    ¬ FollowsBox olympia unchecking leaked := by
  have hrun : (exec (MainQueue.step (submitTask olympia)) (opened Unit fence) checking).map
      (fun s => (s.page.locationChecked, (s.page.postTaskButtonPressed 0).2.map Errand.location)) =
        some (true, some (some {})) := by decide +kernel
  have hrun' : (exec (MainQueue.step (submitTask olympia)) (opened Unit fence) unchecking).map
      (fun s => (s.page.locationChecked, (s.page.postTaskButtonPressed 0).2.map Errand.location)) =
        some (false, some (some (fillAddress {} (olympia ())))) := by decide +kernel
  obtain ⟨s, hs, hend⟩ := Option.map_eq_some_iff.mp hrun
  obtain ⟨hbox, hend⟩ := Prod.mk.inj hend
  obtain ⟨posted, hposted, hlocation⟩ := Option.map_eq_some_iff.mp hend
  obtain ⟨t, ht, hend'⟩ := Option.map_eq_some_iff.mp hrun'
  obtain ⟨hbox', hend'⟩ := Prod.mk.inj hend'
  obtain ⟨leaked, hleaked, hlocation'⟩ := Option.map_eq_some_iff.mp hend'
  have hnowhere : located checking = none := by decide
  have hunchecked : (boxTaps unchecking).bodd = false := by decide
  refine ⟨s, posted, t, leaked, hs, hposted, hbox, hlocation, ?_, ht, hleaked, hbox', ?_, ?_⟩
  · rw [FollowsBox, hnowhere, if_pos (by decide)]
    simp
  · rw [hlocation']
    rfl
  · rw [FollowsBox, hunchecked, if_neg (by simp), hlocation']
    decide

end Tasker.SubmitTaskPage
