import Tasker.Double
import Tasker.Lib.MainQueue
import Tasker.Screens.Tasks

/-!
The page that posts a task, in use.

* `textFieldEndedEditing`: what an edit of the price does.
* `SubmitTaskPage`: the page with its check box and the location of the device.
* `Tap`, `Request`, `Answer`, `submitTask`: its handlers. Every tap on the check
  box requests the location, which is handed to the geocoder when it comes, and
  the place that comes from there fills the address of the task.
* `shownPrice`, `boxTaps`, `located`, `geocoded`: what a run brings to the page.

Locations are those of single fixes, with their times, so that each has one
place; `place` is that of the geocoder.
-/

namespace Tasker

open EventSystem

/-- The least price that is too high. -/
def priceLimit : Double := .finite 1000000

/-- `textFieldEndedEditing` with the text of the price field. -/
def SubmitTaskViewController.textFieldEndedEditing (vc : SubmitTaskViewController)
    (priceText : String) : SubmitTaskViewController :=
  match double priceText with
  | some cost => if cost.lt priceLimit then { vc with validPrice := true, cost := some cost } else vc
  | none => { vc with validPrice := false }

/-- `CLPlacemark`. -/
structure Placemark where
  locality : Option String := none
  administrativeArea : Option String := none
  postalCode : Option String := none
  country : Option String := none
  deriving DecidableEq, Repr

/-- `SubmitTaskViewController` with its check box for the current location. -/
structure SubmitTaskPage (L : Type*) extends SubmitTaskViewController where
  locationChecked : Bool := false
  currentLocation : Option L := none

namespace SubmitTaskPage

/-- What the user does on the page before posting. -/
inductive Tap where
  | textFieldEndedEditing (priceText : String)
  | currentLocationTextChecked
  | negotiableTextChecked
  deriving DecidableEq, Repr

/-- `requestLocation` and `reverseGeocodeLocation`. -/
inductive Request (L : Type*) where
  | location
  | geocode (location : L)
  deriving DecidableEq, Repr

/-- A location or an error, and a place or none. -/
inductive Answer (L : Type*) where
  | didUpdateLocations (location : L)
  | didFailWithError
  | placemark
  | noPlacemark
  deriving DecidableEq, Repr

variable {L : Type*}

/-- What happens on the page. -/
abbrev Event (L : Type*) := MainQueue.Event (Request L) Tap (Answer L)

/-- The page, and the requests it waits for; it queues no blocks. -/
abbrev State (L : Type*) := MainQueue.State (SubmitTaskPage L) (Request L) Empty

/-- The handlers of the taps. -/
def act (vc : SubmitTaskPage L) : Tap → State L
  | .textFieldEndedEditing priceText => { page := { vc with
      toSubmitTaskViewController := vc.textFieldEndedEditing priceText } }
  | .currentLocationTextChecked =>
      { page := { vc with locationChecked := !vc.locationChecked }, requests := [.location] }
  | .negotiableTextChecked =>
      { page := { vc with negotiableChecked := !vc.negotiableChecked } }

/-- The address of the task from a place. -/
def fillAddress (address : Address) (placemark : Placemark) : Address :=
  { address with
    city := placemark.locality
    state := placemark.administrativeArea
    zipcode := placemark.postalCode.bind int
    country := placemark.country }

/-- `locationManager(didUpdateLocations:)`, `locationManager(didFailWithError:)`
and the callback of the geocoder, which traps on a place without a postal
code. -/
def callback (place : L → Placemark) (vc : SubmitTaskPage L) :
    Request L → Answer L → Option (State L)
  | .location, .didUpdateLocations location =>
      some { page := { vc with currentLocation := some location }, requests := [.geocode location] }
  | .location, .didFailWithError => some { page := vc }
  | .geocode location, .placemark =>
      if (place location).postalCode.isSome then
        some { page := { vc with taskLocation := fillAddress vc.taskLocation (place location) } }
      else none
  | .geocode _, .noPlacemark => some { page := vc }
  | _, _ => none

/-- The handlers of the page. -/
def submitTask (place : L → Placemark) :
    MainQueue.Handlers (SubmitTaskPage L) (Request L) Empty Tap (Answer L) where
  act vc a := some (vc.act a)
  callback := callback place
  block _ b := b.elim

/-- The page opened for a task. -/
def opened (L : Type*) (task : Errand) : State L where
  page := { task := task }

/-! ### What a run brings -/

/-- The text an event leaves in the price field. -/
def priceText : Event L → Option String
  | .act (.textFieldEndedEditing text) => some text
  | _ => none

/-- The location an event brings. -/
def locationOf : Event L → Option L
  | .answer .location (.didUpdateLocations location) => some location
  | _ => none

/-- The location whose place an event brings. -/
def geocodedOf : Event L → Option L
  | .answer (.geocode location) .placemark => some location
  | _ => none

/-- The event is a tap on the check box for the current location. -/
def tapsBox : Event L → Bool
  | .act .currentLocationTextChecked => true
  | _ => false

/-- The text in the price field, which is empty at first. -/
def shownPrice (es : List (Event L)) : String := (es.filterMap priceText).getLast?.getD ""

/-- The latest location of the device. -/
def located (es : List (Event L)) : Option L := (es.filterMap locationOf).getLast?

/-- The latest location whose place has come. -/
def geocoded (es : List (Event L)) : Option L := (es.filterMap geocodedOf).getLast?

/-- How often the check box for the current location has been tapped. -/
def boxTaps (es : List (Event L)) : ℕ := es.countP tapsBox

end SubmitTaskPage

end Tasker
