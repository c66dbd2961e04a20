import Tasker.Screens.RateUser

/-!
The screens that read or write a users document: the setup page of the
registration, the home and employee pages, the profile pages and the settings.

* `setUserData`, `updateUserInfo`: the fields the registration and a profile
  edit write.
* `HomeExplorePageViewController.showUser` and its siblings: the callbacks that
  take over a fetched document. `none` is the trap of a forced unwrap or a
  forced cast.
* `Complete`: the fields every users document has to have;
  `Complete.reads`: on a complete document no callback traps.
-/

namespace Tasker

open DocStore

/-! ### What the screens write -/

/-- What `setUserData` is given: its arguments, and the state of the page it
reads (`email`, `skills`, `picTemp`, `isEmployee`). -/
structure Registration where
  email : String
  skills : String
  picTemp : String := ""
  isEmployee : Bool := false
  firstName : String
  lastName : String
  dateOfBirth : String
  city : String
  street : String
  zipCode : ℤ
  bio : String
  state : String
  deriving DecidableEq, Repr

/-- `SetupPageViewController.setUserData`: the fields of a new users document. -/
def setUserData (r : Registration) (userID : String) : User where
  firstname := some r.firstName
  lastname := some r.lastName
  dateOfBirth := some r.dateOfBirth
  address := some {
    city := some r.city, country := some "US", streetAddress := some r.street
    state := some r.state, zipcode := some r.zipCode }
  phone := some ""
  rating := some 0
  bio := some r.bio
  employeeDescription := some ""
  skills := some r.skills
  employee := some r.isEmployee
  uid := some userID
  email := some r.email
  gender := some ""
  profilePicLink := some r.picTemp
  numRatings := some 0
  notifications := some true

/-- The arguments of `updateUserInfo`. -/
structure ProfileEdit where
  fname : String
  lname : String
  dateb : String
  city : String
  country : String
  street : String
  state : String
  zip : ℤ
  bio : String
  skills : String
  phone : String
  linkToImg : String
  deriving DecidableEq, Repr

/-- `EditProfileViewController.updateUserInfo`: the fields a profile edit
updates. -/
def updateUserInfo (p : ProfileEdit) : User where
  firstname := some p.fname
  lastname := some p.lname
  dateOfBirth := some p.dateb
  address := some {
    city := some p.city, country := some p.country, streetAddress := some p.street
    state := some p.state, zipcode := some p.zip }
  phone := some p.phone
  bio := some p.bio
  skills := some p.skills
  profilePicLink := some p.linkToImg

/-! ### What the screens read -/

/-- `HomeExplorePageViewController`, the menu. -/
structure HomeExplorePageViewController where
  employeeProfileButtonHidden : Bool := true
  name : String := ""
  email : Option String := none
  cityAndState : String := ""
  picture : String := ""
  deriving DecidableEq, Repr

/-- `viewWillAppear`, the callback. -/
def HomeExplorePageViewController.showUser (vc : HomeExplorePageViewController) :
    Fetched User → Option HomeExplorePageViewController
  | .document user =>
      match user.firstname, user.lastname, user.address.bind Address.city,
        user.address.bind Address.state with
      | some first, some last, some city, some state =>
          some {
            employeeProfileButtonHidden := !user.employee.getD false
            name := first ++ " " ++ last, email := user.email
            cityAndState := city ++ ", " ++ state, picture := user.profilePicLink.getD "" }
      | _, _, _, _ => none
  | _ => some vc

/-- A cell of the home page for a tasker; its city is a field of the document that
no screen writes. -/
structure TaskerCollectionViewCell where
  taskerName : Option String
  taskerRating : ℚ
  taskerDescription : Option String
  deriving DecidableEq, Repr

/-- `HomeExplorePageViewController.collectionView(cellForItemAt:)`, for a tasker. -/
def TaskerCollectionViewCell.ofTasker (tasker : User) : Option TaskerCollectionViewCell :=
  tasker.rating.map fun rating =>
    { taskerName := tasker.firstname, taskerRating := rating
      taskerDescription := tasker.employeeDescription }

/-- The menu of `EmployeeExplorePageViewController`. -/
structure EmployeeMenu where
  name : String := ""
  email : Option String := none
  rating : Option ℚ := none
  location : String := ""
  picture : String := ""
  deriving DecidableEq, Repr

/-- `EmployeeExplorePageViewController.viewDidLoad`, the callback that fills the
menu. -/
def EmployeeMenu.showUser (menu : EmployeeMenu) : Fetched User → Option EmployeeMenu
  | .document user =>
      match user.firstname, user.lastname, user.address.bind Address.city,
        user.address.bind Address.state with
      | some first, some last, some city, some state =>
          some {
            name := first ++ " " ++ last, email := user.email, rating := user.rating
            location := city ++ ", " ++ state, picture := user.profilePicLink.getD "" }
      | _, _, _, _ => none
  | _ => some menu

/-- `EditProfileViewController`, the texts of its fields. -/
structure EditProfileViewController where
  firstName : String := ""
  lastName : String := ""
  dob : String := ""
  phoneNumber : String := ""
  street : String := ""
  city : String := ""
  state : String := ""
  zipCode : String := ""
  country : String := ""
  bioTextfield : String := ""
  skills : String := ""
  bioExists : Bool := false
  skillsExists : Bool := false
  picture : String := ""
  deriving DecidableEq, Repr

/-- `viewDidLoad`, the callback. -/
def EditProfileViewController.showUser (vc : EditProfileViewController) :
    Fetched User → Option EditProfileViewController
  | .document user =>
      match user.address.bind Address.streetAddress, user.address.bind Address.city,
        user.address.bind Address.state, user.address.bind Address.country with
      | some str, some cit, some statee, some ctr =>
          some {
            firstName := user.firstname.getD "", lastName := user.lastname.getD ""
            dob := user.dateOfBirth.getD "", phoneNumber := user.phone.getD ""
            street := if str.isEmpty then vc.street else str
            city := if cit.isEmpty then vc.city else cit
            state := if statee.isEmpty then vc.state else statee
            zipCode := toString ((user.address.bind Address.zipcode).getD 0)
            country := if ctr.isEmpty then vc.country else ctr
            bioTextfield := if (user.bio.getD "").isEmpty then
              "You currently do not have a bio, add one to tell people more about you!"
              else user.bio.getD ""
            bioExists := if (user.bio.getD "").isEmpty then vc.bioExists else true
            skills := if (user.skills.getD "").isEmpty then
              "You currently do not have any skills added, add some to tell people more about your skills!"
              else user.skills.getD ""
            skillsExists := if (user.skills.getD "").isEmpty then vc.skillsExists else true
            picture := user.profilePicLink.getD "" }
      | _, _, _, _ => none
  | _ => some vc

/-- `PublicProfileViewController`. -/
structure PublicProfileViewController where
  name : String := ""
  city : String := ""
  bio : String := ""
  skills : String := ""
  picture : String := ""
  deriving DecidableEq, Repr

/-- `viewWillAppear`, the callback. -/
def PublicProfileViewController.showUser (vc : PublicProfileViewController) :
    Fetched User → Option PublicProfileViewController
  | .document user =>
      match user.firstname, user.lastname, user.address.bind Address.city,
        user.address.bind Address.state with
      | some first, some last, some cit, some statee =>
          some {
            name := first ++ " " ++ last, city := cit ++ statee
            bio := if (user.bio.getD "").isEmpty then "This user has no bio listed or added!"
              else user.bio.getD ""
            skills := if (user.skills.getD "").isEmpty then
              "This user has no skills listed or added!" else user.skills.getD ""
            picture := user.profilePicLink.getD "" }
      | _, _, _, _ => none
  | _ => some vc

/-- `EmployeeStatusViewController`. -/
structure EmployeeStatusViewController where
  employeeStatus : String
  errorMessage : String
  deriving DecidableEq, Repr

/-- `viewDidLoad`, the callback; `get("employee")` of a missing document is
nil. -/
def EmployeeStatusViewController.showStatus (vc : EmployeeStatusViewController) :
    Fetched User → Option EmployeeStatusViewController
  | .error => some vc
  | .document user =>
      user.employee.map fun employOrNot =>
        if employOrNot then { vc with employeeStatus := "Active" } else vc
  | _ => none

/-- `signUpTapped`, the callback, with the writes it issues. -/
def EmployeeStatusViewController.signUpTapped (vc : EmployeeStatusViewController)
    (userID : String) : Fetched User → Option (EmployeeStatusViewController × List Write)
  | .error => some (vc, [])
  | .document user =>
      user.employee.map fun employOrNot =>
        if employOrNot then
          ({ vc with
            errorMessage := "You are already signed up for an employee account!" }, [])
        else
          ({ employeeStatus := "Active"
             errorMessage := "You have successfully signed up for an employee account." },
            [.updateUser userID { employee := some true }])
  | _ => none

/-- `NotificationSettingsViewController`, the position of its switch. -/
structure NotificationSettingsViewController where
  toggle : Bool
  deriving DecidableEq, Repr

/-- `viewDidLoad`, the callback. -/
def NotificationSettingsViewController.showToggle (vc : NotificationSettingsViewController) :
    Fetched User → Option NotificationSettingsViewController
  | .error => some vc
  | .document user => user.notifications.map fun property => { vc with toggle := property }
  | _ => none

/-- `switchToggled`. -/
def NotificationSettingsViewController.switchToggled (vc : NotificationSettingsViewController)
    (userID : String) : List Write :=
  [.updateUser userID { notifications := some vc.toggle }]

/-! ### Complete documents -/

/-- An address with the fields the screens unwrap. -/
structure Address.Complete (a : Address) : Prop where
  city : a.city.isSome
  state : a.state.isSome
  streetAddress : a.streetAddress.isSome
  country : a.country.isSome
  zipcode : a.zipcode.isSome

/-- A users document with the fields the screens unwrap or cast. -/
structure User.Complete (d : User) : Prop where
  firstname : d.firstname.isSome
  lastname : d.lastname.isSome
  email : d.email.isSome
  numRatings : d.numRatings.isSome
  rating : d.rating.isSome
  employee : d.employee.isSome
  notifications : d.notifications.isSome
  address : ∃ a, d.address = some a ∧ a.Complete

/-- Every callback takes over the document `d` without a trap, and so does the cell
of a tasker. -/
structure User.Reads (d : User) : Prop where
  home : ∀ vc : HomeExplorePageViewController, (vc.showUser (.document d)).isSome
  cell : (TaskerCollectionViewCell.ofTasker d).isSome
  rate : ∀ vc : RateUserViewController, (vc.retriveRatings (.document d)).isSome
  employee : ∀ vc : EmployeeMenu, (vc.showUser (.document d)).isSome
  edit : ∀ vc : EditProfileViewController, (vc.showUser (.document d)).isSome
  profile : ∀ vc : PublicProfileViewController, (vc.showUser (.document d)).isSome
  status : ∀ vc : EmployeeStatusViewController, (vc.showStatus (.document d)).isSome
  signUp : ∀ (vc : EmployeeStatusViewController) (userID : String),
    (vc.signUpTapped userID (.document d)).isSome
  notifications : ∀ vc : NotificationSettingsViewController,
    (vc.showToggle (.document d)).isSome

/-- On a complete document no callback traps. -/
lemma User.Complete.reads {d : User} (h : d.Complete) : d.Reads := by
  obtain ⟨first, hfirst⟩ := Option.isSome_iff_exists.mp h.firstname
  obtain ⟨last, hlast⟩ := Option.isSome_iff_exists.mp h.lastname
  obtain ⟨count, hcount⟩ := Option.isSome_iff_exists.mp h.numRatings
  obtain ⟨rating, hrating⟩ := Option.isSome_iff_exists.mp h.rating
  obtain ⟨employee, hemployee⟩ := Option.isSome_iff_exists.mp h.employee
  obtain ⟨notifications, hnot⟩ := Option.isSome_iff_exists.mp h.notifications
  obtain ⟨a, ha, hcomplete⟩ := h.address
  obtain ⟨city, hcity⟩ := Option.isSome_iff_exists.mp hcomplete.city
  obtain ⟨state, hstate⟩ := Option.isSome_iff_exists.mp hcomplete.state
  obtain ⟨street, hstreet⟩ := Option.isSome_iff_exists.mp hcomplete.streetAddress
  obtain ⟨country, hcountry⟩ := Option.isSome_iff_exists.mp hcomplete.country
  refine ⟨fun vc => ?_, ?_, fun vc => ?_, fun vc => ?_, fun vc => ?_, fun vc => ?_, fun vc => ?_,
    fun vc userID => ?_, fun vc => ?_⟩
  · simp [HomeExplorePageViewController.showUser, hfirst, hlast, ha, hcity, hstate]
  · simp [TaskerCollectionViewCell.ofTasker, hrating]
  · simp [RateUserViewController.retriveRatings, hcount, hrating]
  · simp [EmployeeMenu.showUser, hfirst, hlast, ha, hcity, hstate]
  · simp [EditProfileViewController.showUser, ha, hstreet, hcity, hstate, hcountry]
  · simp [PublicProfileViewController.showUser, hfirst, hlast, ha, hcity, hstate]
  · simp [EmployeeStatusViewController.showStatus, hemployee]
  · simp [EmployeeStatusViewController.signUpTapped, hemployee]
  · simp [NotificationSettingsViewController.showToggle, hnot]

/-- The registration writes a complete document. -/
lemma setUserData_complete (r : Registration) (userID : String) :
    (setUserData r userID).Complete :=
  ⟨rfl, rfl, rfl, rfl, rfl, rfl, rfl, _, rfl, rfl, rfl, rfl, rfl, rfl⟩

/-- A profile edit brings a complete address. -/
lemma updateUserInfo_address {p : ProfileEdit} {a : Address}
    (h : (updateUserInfo p).address = some a) : a.Complete := by
  obtain rfl := Option.some.inj h
  exact ⟨rfl, rfl, rfl, rfl, rfl⟩

/-- Fields laid over a complete document leave it complete if they bring a
complete address or none. -/
lemma User.Complete.update {d : User} (h : d.Complete) {p : User}
    (hp : ∀ a, p.address = some a → a.Complete) :
    (Document.updateFields p d).Complete := by
  obtain ⟨a, ha, hcomplete⟩ := h.address
  refine ⟨?_, ?_, ?_, ?_, ?_, ?_, ?_, ?_⟩
  · simp [Document.updateFields, User.over, h.firstname]
  · simp [Document.updateFields, User.over, h.lastname]
  · simp [Document.updateFields, User.over, h.email]
  · simp [Document.updateFields, User.over, h.numRatings]
  · simp [Document.updateFields, User.over, h.rating]
  · simp [Document.updateFields, User.over, h.employee]
  · simp [Document.updateFields, User.over, h.notifications]
  · cases hpa : p.address with
    | none => exact ⟨a, by simp [Document.updateFields, User.over, hpa, ha], hcomplete⟩
    | some b => exact ⟨b, by simp [Document.updateFields, User.over, hpa], hp b hpa⟩

/-- A merge without an address is an update. -/
lemma mergeFields_eq_updateFields {p : User} (hp : p.address = none) (d : User) :
    Document.mergeFields p d = Document.updateFields p d := by
  simp [Document.mergeFields, Document.updateFields, hp]

end Tasker
