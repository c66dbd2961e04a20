import Tasker.Auth
import Tasker.Screens.Profile
import Tasker.Utilities

/-!
The two pages of the registration.

* `RegistrationStep1ViewController`: it checks the email address and the
  password, and hands both, trimmed, to the setup page.
* `SetupPageViewController`: `validateFields`, the values `continuePressed`
  takes from the fields (`cleaned`), what it does with the avatar once there is
  an account (`avatarStep`), and what it passes to `setUserData`
  (`registration`). `none` is the trap of a forced unwrap.
-/

namespace Tasker

/-- The bytes of a picture. -/
abbrev Data := List UInt8

/-- A picture: a symbol of the system or one of the user's, with the result of
`jpegData(compressionQuality: 0.75)`. -/
structure UIImage where
  isSymbolImage : Bool
  jpegData : Option Data := none
  deriving DecidableEq, Repr

/-- `SetupPageViewController`, with the texts of its fields. -/
structure SetupPageViewController where
  firstNameTextField : String := ""
  lastNameTextField : String := ""
  dateOfBirthTextField : String := ""
  zipCodeTextField : String := ""
  streetTextField : String := ""
  aptTextField : String := ""
  cityTextField : String := ""
  stateTextField : String := ""
  bioTextField : String := ""
  skillsTextField : String := ""
  avatarImage : Option UIImage := some { isSymbolImage := true }
  isEmployee : Bool := false
  email : String := ""
  password : String := ""
  credentials : Option String := none
  picTemp : String := ""
  errorLabel : Option String := none
  deriving Repr

/-- The values `continuePressed` takes from the fields before its request. -/
structure SetupForm where
  firstName : String
  lastName : String
  dateOfBirth : String
  zipCode : Option ℤ
  street : String
  city : String
  state : String
  bio : String
  deriving Repr

/-- What is done with the avatar. -/
inductive AvatarStep where
  | stop
  | upload (imageData : Data)
  | save
  deriving DecidableEq, Repr

namespace SetupPageViewController

/-- `validateFields`. -/
def validateFields (dates : Dates) (now : ℤ) (vc : SetupPageViewController) : Option String :=
  if trimmingCharacters vc.firstNameTextField = "" ∨
      trimmingCharacters vc.lastNameTextField = "" ∨
      trimmingCharacters vc.dateOfBirthTextField = "" ∨
      trimmingCharacters vc.cityTextField = "" ∨
      trimmingCharacters vc.stateTextField = "" ∨
      trimmingCharacters vc.skillsTextField = "" ∨
      trimmingCharacters vc.zipCodeTextField = "" then
    some "Please fill in all required fields."
  else if isAgeValid dates now (trimmingCharacters vc.dateOfBirthTextField) = false then
    some "Please enter a valid date of birth\n(must be 18 years or older)."
  else if isZipCodeValid (trimmingCharacters vc.zipCodeTextField) = false then
    some "The zip code you entered was not valid\n(must be a 5 digit U.S. zip code)."
  else none

/-- The cleaned data of `continuePressed`; it traps if the date of birth is no
date. -/
def cleaned (dates : Dates) (vc : SetupPageViewController) : Option SetupForm :=
  (dates.date (trimmingCharacters vc.dateOfBirthTextField)).map fun dateConversion => {
    firstName := trimmingCharacters vc.firstNameTextField
    lastName := trimmingCharacters vc.lastNameTextField
    dateOfBirth := dates.string dateConversion
    zipCode := int (trimmingCharacters vc.zipCodeTextField)
    street :=
      if vc.aptTextField ≠ "" then vc.streetTextField ++ vc.aptTextField else vc.streetTextField
    city := vc.cityTextField
    state := vc.stateTextField
    bio := vc.bioTextField }

/-- The branches on the avatar, in the callback that has the account. -/
def avatarStep (vc : SetupPageViewController) : AvatarStep :=
  match vc.avatarImage with
  | none => .stop
  | some image =>
      if image.isSymbolImage then .save
      else
        match image.jpegData with
        | none => .stop
        | some imageData => .upload imageData

/-- What the call of `setUserData` passes and reads; it traps without an integer
as the zip code. -/
def registration (vc : SetupPageViewController) (form : SetupForm) : Option Registration :=
  form.zipCode.map fun zipCode => {
    email := vc.email
    skills := vc.skillsTextField
    picTemp := vc.picTemp
    isEmployee := vc.isEmployee
    firstName := form.firstName
    lastName := form.lastName
    dateOfBirth := form.dateOfBirth
    city := form.city
    street := form.street
    zipCode := zipCode
    bio := form.bio
    state := form.state }

/-- Valid fields are cleaned without a trap, with a zip code of the accepted
form. -/
lemma cleaned_of_valid {dates : Dates} {now : ℤ} {vc : SetupPageViewController}
    (h : vc.validateFields dates now = none) :
    isZipCodeValid (trimmingCharacters vc.zipCodeTextField) = true ∧
      ∃ form, vc.cleaned dates = some form ∧
        form.zipCode = int (trimmingCharacters vc.zipCodeTextField) := by
  rw [validateFields] at h
  split_ifs at h with _ hage hzip
  obtain ⟨d, hd⟩ := date_of_isAgeValid (Bool.of_not_eq_false hage)
  have hcleaned : (vc.cleaned dates).map SetupForm.zipCode =
      some (int (trimmingCharacters vc.zipCodeTextField)) := by
    rw [cleaned, hd, Option.map_some, Option.map_some]
  obtain ⟨form, hform, hzipCode⟩ := Option.map_eq_some_iff.mp hcleaned
  exact ⟨Bool.of_not_eq_false hzip, form, hform, hzipCode⟩

lemma registration_isSome {vc : SetupPageViewController} {form : SetupForm} :
    (vc.registration form).isSome = form.zipCode.isSome := Option.isSome_map

end SetupPageViewController

/-- `RegistrationStep1ViewController`, with the texts of its fields. -/
structure RegistrationStep1ViewController where
  emailAddressTextField : String := ""
  passwordTextField : String := ""
  confirmPasswordTextField : String := ""
  errorLabel : Option String := none
  deriving Repr

namespace RegistrationStep1ViewController

/-- `validateFields`. -/
def validateFields (vc : RegistrationStep1ViewController) : Option String :=
  if trimmingCharacters vc.emailAddressTextField = "" ∨
      trimmingCharacters vc.passwordTextField = "" ∨
      trimmingCharacters vc.confirmPasswordTextField = "" then
    some "Please fill in all fields."
  else if isEmailValid (trimmingCharacters vc.emailAddressTextField) = false then
    some "Please enter a valid email address."
  else if isPasswordValid (trimmingCharacters vc.passwordTextField) = false then
    some "Password must be 8 characters long\nwith numbers and a special character."
  else if trimmingCharacters vc.confirmPasswordTextField ≠
      trimmingCharacters vc.passwordTextField then
    some "You've entered passwords that do not match."
  else none

/-- `continueTapped`: the page, and the setup page it presents. -/
def continueTapped (vc : RegistrationStep1ViewController) :
    RegistrationStep1ViewController × Option SetupPageViewController :=
  match vc.validateFields with
  | some error => ({ vc with errorLabel := some error }, none)
  | none =>
      (vc, some {
        email := trimmingCharacters vc.emailAddressTextField
        password := trimmingCharacters vc.confirmPasswordTextField })

end RegistrationStep1ViewController

end Tasker
