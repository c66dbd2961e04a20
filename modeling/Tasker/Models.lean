import Tasker.Lib.Collection

/-!
The data model (`tasker/Models`): the structures the screens encode to and
decode from the documents of Firestore.

* `Address`, `User`, `Errand`, `Message`, `Conversation`: the model classes.
  The fields of `User` are all optional in the source, so that `User` is also
  the type of a stored document of the collection `users` and of the fields a
  write to it carries (`Document User`).
* `TaskDoc`: a stored document of the collection `tasks`, every field of which
  may be absent, with the coding of an `Errand` in it (`Errand.encode`,
  `Errand.decode`).

Document ids, uids and texts are strings. `Int` is `ℤ`; `Double` has exact
rationals for its finite values. The numbers that ratings are is a parameter, the
exact rationals if nothing else is said.
-/

namespace Tasker

open DocStore

/-- `Address.swift`. -/
structure Address where
  phone : Option String := none
  streetAddress : Option String := none
  city : Option String := none
  state : Option String := none
  country : Option String := none
  zipcode : Option ℤ := none
  deriving DecidableEq, Inhabited, Repr

/-- The fields of the first address over those of the second. -/
def Address.over (p a : Address) : Address where
  phone := p.phone.or a.phone
  streetAddress := p.streetAddress.or a.streetAddress
  city := p.city.or a.city
  state := p.state.or a.state
  country := p.country.or a.country
  zipcode := p.zipcode.or a.zipcode

/-- `User.swift`, with the field `notifications` that only the settings screen
reads. -/
structure User (R : Type := ℚ) where
  firstname : Option String := none
  lastname : Option String := none
  dateOfBirth : Option String := none
  address : Option Address := none
  phone : Option String := none
  rating : Option R := none
  bio : Option String := none
  employeeDescription : Option String := none
  skills : Option String := none
  employee : Option Bool := none
  uid : Option String := none
  email : Option String := none
  gender : Option String := none
  profilePicLink : Option String := none
  numRatings : Option ℤ := none
  notifications : Option Bool := none
  deriving DecidableEq, Inhabited, Repr

variable {R : Type}

/-- The fields of the first user over those of the second, with the given
address. -/
def User.over (p d : User R) (address : Option Address) : User R where
  firstname := p.firstname.or d.firstname
  lastname := p.lastname.or d.lastname
  dateOfBirth := p.dateOfBirth.or d.dateOfBirth
  address := address
  phone := p.phone.or d.phone
  rating := p.rating.or d.rating
  bio := p.bio.or d.bio
  employeeDescription := p.employeeDescription.or d.employeeDescription
  skills := p.skills.or d.skills
  employee := p.employee.or d.employee
  uid := p.uid.or d.uid
  email := p.email.or d.email
  gender := p.gender.or d.gender
  profilePicLink := p.profilePicLink.or d.profilePicLink
  numRatings := p.numRatings.or d.numRatings
  notifications := p.notifications.or d.notifications

/-- The nested map `address` is merged by `setData(_, merge: true)` and
replaced as a whole by `updateData`. -/
instance : Document (User R) where
  mergeFields p d := p.over d <|
    match p.address, d.address with
    | some a, some b => some (a.over b)
    | some a, none => some a
    | none, b => b
  updateFields p d := p.over d (p.address.or d.address)

/-- A Swift `Double`, with exact rationals for the finite values. -/
inductive Double where
  | finite (q : ℚ)
  | infinity
  | negInfinity
  | nan
  deriving DecidableEq, Inhabited, Repr

/-- `Errand.swift`: a decoded task, `docID` being the id of its document. -/
structure Errand where
  docID : Option String := none
  title : String
  category : String
  taskDescription : String
  price : Option Double := none
  negotiable : Option Bool := none
  isCompleted : Option Bool := none
  hasPaid : Option Bool := none
  employeeRated : Option Bool := none
  clientRated : Option Bool := none
  location : Option Address := none
  listingDate : Option ℤ := none
  employeeID : Option String := none
  clientID : Option String := none
  deriving DecidableEq, Repr

/-- A stored document of the collection `tasks`, or the fields a write to one
carries. -/
structure TaskDoc where
  title : Option String := none
  category : Option String := none
  taskDescription : Option String := none
  price : Option Double := none
  negotiable : Option Bool := none
  isCompleted : Option Bool := none
  hasPaid : Option Bool := none
  employeeRated : Option Bool := none
  clientRated : Option Bool := none
  location : Option Address := none
  listingDate : Option ℤ := none
  employeeID : Option String := none
  clientID : Option String := none
  deriving DecidableEq, Inhabited, Repr

/-- The fields of the first task over those of the second. The only nested map,
`location`, is written with the whole document. -/
def TaskDoc.over (p d : TaskDoc) : TaskDoc where
  title := p.title.or d.title
  category := p.category.or d.category
  taskDescription := p.taskDescription.or d.taskDescription
  price := p.price.or d.price
  negotiable := p.negotiable.or d.negotiable
  isCompleted := p.isCompleted.or d.isCompleted
  hasPaid := p.hasPaid.or d.hasPaid
  employeeRated := p.employeeRated.or d.employeeRated
  clientRated := p.clientRated.or d.clientRated
  location := p.location.or d.location
  listingDate := p.listingDate.or d.listingDate
  employeeID := p.employeeID.or d.employeeID
  clientID := p.clientID.or d.clientID

instance : Document TaskDoc where
  mergeFields := TaskDoc.over
  updateFields := TaskDoc.over

/-- The document `addDocument(from:)` writes for a task: the fields that are
not nil, without the document id. -/
def Errand.encode (t : Errand) : TaskDoc where
  title := some t.title
  category := some t.category
  taskDescription := some t.taskDescription
  price := t.price
  negotiable := t.negotiable
  isCompleted := t.isCompleted
  hasPaid := t.hasPaid
  employeeRated := t.employeeRated
  clientRated := t.clientRated
  location := t.location
  listingDate := t.listingDate
  employeeID := t.employeeID
  clientID := t.clientID

/-- `data(as: Errand.self)`: decoding fails without a title, a category or a
description. -/
def Errand.decode (docID : String) (d : TaskDoc) : Option Errand :=
  match d.title, d.category, d.taskDescription with
  | some title, some category, some taskDescription =>
      some {
        docID := some docID, title, category, taskDescription, price := d.price,
        negotiable := d.negotiable, isCompleted := d.isCompleted, hasPaid := d.hasPaid,
        employeeRated := d.employeeRated, clientRated := d.clientRated,
        location := d.location, listingDate := d.listingDate,
        employeeID := d.employeeID, clientID := d.clientID }
  | _, _, _ => none

/-- A decoded task carries the fields of its document and its id. -/
lemma Errand.decode_eq_some {id : String} {d : TaskDoc} {t : Errand}
    (h : Errand.decode id d = some t) : t.docID = some id ∧ t.encode = d := by
  unfold Errand.decode at h
  split at h
  · next title category taskDescription h₁ h₂ h₃ =>
      obtain rfl := Option.some.inj h
      refine ⟨rfl, ?_⟩
      cases d
      simp only at h₁ h₂ h₃
      subst h₁ h₂ h₃
      rfl
  · exact absurd h (by simp)

/-- What is encoded can be decoded. -/
@[simp] lemma Errand.decode_encode (id : String) (t : Errand) :
    Errand.decode id t.encode = some { t with docID := some id } := rfl

/-- `Message.swift`. -/
structure Message where
  body : String
  sender : String
  deriving DecidableEq, Inhabited, Repr

/-- `Conversation.swift`, the document id apart: what a document of the
collection `conversations` holds. -/
structure Conversation where
  user1ID : String
  user2ID : String
  messages : List Message
  deriving DecidableEq, Repr

end Tasker
