import Tasker.Screens.Registration
import Tasker.Screens.Login

/-!
The buttons of Google and Facebook, on the login page and on the first page of
the registration.

* `ThirdPartyButton.tapped`: what the four handlers do once the provider has
  given a credential. A new user is sent to the setup page, with the credential,
  and the account just created is deleted; a known one is sent home.
* `tapped_eq_presentSetup`: what it takes to get to the setup page.
-/

namespace Tasker

open DocStore

/-- What the provider tells of the user. -/
structure ThirdPartyProfile where
  givenName : Option String := none
  familyName : Option String := none
  email : Option String := none
  deriving DecidableEq, Repr

/-- What the callback of `signIn(with:)` does. -/
inductive SignedIn where
  | showError (message : String)
  /-- The setup page is presented, and the account `uid` deleted. -/
  | presentSetup (page : SetupPageViewController) (uid : String)
  | segueToHomeVC
  | trapped

/-- The setup page as it is presented. -/
def setupPageVC (givenName familyName email credential : String) : SetupPageViewController where
  firstNameTextField := givenName
  lastNameTextField := familyName
  email := email
  credentials := some credential

/-- The setup page for a profile of Google; all three texts are unwrapped. -/
def googleSetupPage (profile : ThirdPartyProfile) (credential : String) :
    Option SetupPageViewController :=
  profile.givenName.bind fun givenName => profile.familyName.bind fun familyName =>
    profile.email.map fun email => setupPageVC givenName familyName email credential

/-- The setup page for a profile of Facebook; only the email address is
unwrapped. -/
def facebookSetupPage (profile : ThirdPartyProfile) (credential : String) :
    Option SetupPageViewController :=
  profile.email.map fun email =>
    setupPageVC (profile.givenName.getD "") (profile.familyName.getD "") email credential

/-- The callback of `signIn(with:)`, with the uid of a new account. -/
def signedIn (setupPage : Option SetupPageViewController) (auth : Auth) (credential : String) :
    Except String String → Auth × SignedIn
  | .error description => (auth, .showError description)
  | .ok newUserID =>
      let isNewUser := (auth.identities.lookup credential).isNone
      let result := auth.signInWith credential newUserID
      if isNewUser then
        match setupPage with
        | some page => (result.1, .presentSetup page result.2)
        | none => (result.1, .trapped)
      else (result.1, .segueToHomeVC)

/-- `LoginViewController.loginWithGoogleTapped`. -/
def LoginViewController.loginWithGoogleTapped (profile : ThirdPartyProfile) (auth : Auth)
    (credential : String) : Except String String → Auth × SignedIn :=
  signedIn (googleSetupPage profile credential) auth credential

/-- `LoginViewController.loginWithFacebookTapped`. -/
def LoginViewController.loginWithFacebookTapped (profile : ThirdPartyProfile) (auth : Auth)
    (credential : String) : Except String String → Auth × SignedIn :=
  signedIn (facebookSetupPage profile credential) auth credential

/-- `RegistrationStep1ViewController.registerWithGoogleTapped`. -/
def RegistrationStep1ViewController.registerWithGoogleTapped (profile : ThirdPartyProfile)
    (auth : Auth) (credential : String) : Except String String → Auth × SignedIn :=
  signedIn (googleSetupPage profile credential) auth credential

/-- `RegistrationStep1ViewController.registerWithFacebookTapped`. -/
def RegistrationStep1ViewController.registerWithFacebookTapped (profile : ThirdPartyProfile)
    (auth : Auth) (credential : String) : Except String String → Auth × SignedIn :=
  signedIn (facebookSetupPage profile credential) auth credential

/-- The four buttons. -/
inductive ThirdPartyButton where
  | loginWithGoogle
  | loginWithFacebook
  | registerWithGoogle
  | registerWithFacebook
  deriving DecidableEq, Repr

/-- The handler of a button. -/
def ThirdPartyButton.tapped : ThirdPartyButton → ThirdPartyProfile → Auth → String →
    Except String String → Auth × SignedIn
  | .loginWithGoogle => LoginViewController.loginWithGoogleTapped
  | .loginWithFacebook => LoginViewController.loginWithFacebookTapped
  | .registerWithGoogle => RegistrationStep1ViewController.registerWithGoogleTapped
  | .registerWithFacebook => RegistrationStep1ViewController.registerWithFacebookTapped

/-- The page is set up for the credential, without a password. -/
def SetupPageViewController.FromThirdParty (vc : SetupPageViewController) (credential : String) :
    Prop := vc.password = "" ∧ vc.credentials = some credential

lemma googleSetupPage_eq_some {profile : ThirdPartyProfile} {credential : String}
    {page : SetupPageViewController} (h : googleSetupPage profile credential = some page) :
    page.FromThirdParty credential := by
  obtain ⟨givenName, -, h⟩ := Option.bind_eq_some_iff.mp h
  obtain ⟨familyName, -, h⟩ := Option.bind_eq_some_iff.mp h
  obtain ⟨email, -, rfl⟩ := Option.map_eq_some_iff.mp h
  exact ⟨rfl, rfl⟩

lemma facebookSetupPage_eq_some {profile : ThirdPartyProfile} {credential : String}
    {page : SetupPageViewController} (h : facebookSetupPage profile credential = some page) :
    page.FromThirdParty credential := by
  obtain ⟨email, -, rfl⟩ := Option.map_eq_some_iff.mp h
  exact ⟨rfl, rfl⟩

/-- The setup page is presented for a new account. -/
lemma signedIn_eq_presentSetup {setupPage : Option SetupPageViewController} {auth auth' : Auth}
    {credential uid : String} {answer : Except String String} {page : SetupPageViewController}
    (h : signedIn setupPage auth credential answer = (auth', .presentSetup page uid)) :
    setupPage = some page ∧ auth'.identities.lookup credential = some uid := by
  cases answer with
  | error description => simp [signedIn] at h
  | ok newUserID =>
      simp only [signedIn] at h
      split at h
      · next hnew =>
          rw [Auth.signInWith_of_none newUserID (Option.isNone_iff_eq_none.mp hnew)] at h
          split at h
          · obtain ⟨rfl, hpage⟩ := Prod.mk.inj h
            obtain ⟨rfl, rfl⟩ := SignedIn.presentSetup.inj hpage
            exact ⟨rfl, lookup_setData_self _ _ _⟩
          · exact absurd h (by simp)
      · exact absurd h (by simp)

/-- The setup page is presented for the credential and a new account. -/
lemma tapped_eq_presentSetup {button : ThirdPartyButton} {profile : ThirdPartyProfile}
    {auth auth' : Auth} {credential uid : String} {answer : Except String String}
    {page : SetupPageViewController}
    (h : button.tapped profile auth credential answer = (auth', .presentSetup page uid)) :
    page.FromThirdParty credential ∧ auth'.identities.lookup credential = some uid := by
  cases button with
  | loginWithGoogle =>
      exact (signedIn_eq_presentSetup h).imp_left googleSetupPage_eq_some
  | loginWithFacebook =>
      exact (signedIn_eq_presentSetup h).imp_left facebookSetupPage_eq_some
  | registerWithGoogle =>
      exact (signedIn_eq_presentSetup h).imp_left googleSetupPage_eq_some
  | registerWithFacebook =>
      exact (signedIn_eq_presentSetup h).imp_left facebookSetupPage_eq_some

end Tasker
