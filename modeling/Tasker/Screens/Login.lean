import Tasker.Auth
import Tasker.Utilities

/-!
The pages that ask for a password later: the login and the account settings.

* `LoginViewController.continueTapped`: it signs in with the trimmed texts.
* `AccountSettingsViewController.confirmTapped`: it checks the trimmed texts,
  then reauthenticates with, and stores, the texts as typed.

The description of an error of Firebase Auth is given to the handlers.
-/

namespace Tasker

/-- `LoginViewController`, with the texts of its fields. -/
structure LoginViewController where
  emailAddressTextField : String := ""
  passwordTextField : String := ""
  errorLabel : Option String := none
  deriving Repr

namespace LoginViewController

/-- `validateFields`. -/
def validateFields (vc : LoginViewController) : Option String :=
  if trimmingCharacters vc.emailAddressTextField = "" ∨
      trimmingCharacters vc.passwordTextField = "" then
    some "Please fill in all fields."
  else none

/-- `continueTapped`: the page, and the uid signed in. -/
def continueTapped (auth : Auth) (description : String) (vc : LoginViewController) :
    LoginViewController × Option String :=
  match vc.validateFields with
  | some error => ({ vc with errorLabel := some error }, none)
  | none =>
      match auth.signIn (trimmingCharacters vc.emailAddressTextField)
        (trimmingCharacters vc.passwordTextField) with
      | some uid => (vc, some uid)
      | none => ({ vc with errorLabel := some description }, none)

end LoginViewController

/-- `AccountSettingsViewController`, with the texts of its fields. -/
structure AccountSettingsViewController where
  curPass : String := ""
  newPass : String := ""
  confirmPass : String := ""
  errorMessage : Option String := none
  deriving Repr

namespace AccountSettingsViewController

/-- `validateFields`. -/
def validateFields (vc : AccountSettingsViewController) : Option String :=
  if trimmingCharacters vc.curPass = "" ∨ trimmingCharacters vc.newPass = "" ∨
      trimmingCharacters vc.confirmPass = "" then
    some "Please fill in all fields."
  else if isPasswordValid (trimmingCharacters vc.newPass) = false then
    some "Password must be 8 characters long\nwith numbers and a special character."
  else if trimmingCharacters vc.newPass ≠ trimmingCharacters vc.confirmPass then
    some "You've entered passwords that do not match."
  else none

/-- The reauthentication of the user with the address `email`. -/
def reauthenticate (auth : Auth) (email : String) (vc : AccountSettingsViewController) :
    Option String := auth.signIn email vc.curPass

/-- `confirmTapped` of the user with the address `email`: the page, and the
accounts if the password is updated. -/
def confirmTapped (auth : Auth) (email description : String)
    (vc : AccountSettingsViewController) : AccountSettingsViewController × Option Auth :=
  match vc.validateFields with
  | some er => ({ vc with errorMessage := some er }, none)
  | none =>
      match vc.reauthenticate auth email with
      | none => ({ vc with errorMessage := some description }, none)
      | some _ =>
          match auth.updatePassword email vc.newPass with
          | none => ({ vc with errorMessage := some description }, none)
          | some auth' =>
              ({ vc with errorMessage := some "Password updated successfully" }, some auth')

/-- What an update of the password takes. -/
lemma confirmTapped_eq_some {auth auth' : Auth} {email description : String}
    {vc : AccountSettingsViewController}
    (h : (vc.confirmTapped auth email description).2 = some auth') :
    vc.validateFields = none ∧ auth.updatePassword email vc.newPass = some auth' := by
  rw [confirmTapped] at h
  split at h
  · exact absurd h (by simp)
  · next hvalid =>
      split at h
      · exact absurd h (by simp)
      · split at h
        · exact absurd h (by simp)
        · next hupdate => exact ⟨hvalid, hupdate.trans h⟩

end AccountSettingsViewController

end Tasker
