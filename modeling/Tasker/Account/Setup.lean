import Tasker.Lib.EventSystem
import Tasker.Screens.Registration

/-!
The setup page, from the tap on Continue to the last callback.

* `Stage`, `State`: the request that is not answered yet, and what the page, the
  accounts, the users documents and the pictures are.
* `Event`, `step`: the tap, the answers of the requests, and the edits of the
  page meanwhile. A trap ends the run.
* `Branch`, `branch_of_step`: all that an event can lead to.
* `Registered`, `Refused`: the two ways in which a registration may end.
* `Unfailing`: the answer is a success, and the branch it leads to can go on.
* `registered_or_refused_iff`: a registration ends in one of the two ways if and
  only if every answer after the account is created is such.
* `retryStep`: the page stays open after an error or a silent return, and Continue can
  be tapped again; `orphaned_exec`: an account without a document is not mended so.
-/

namespace Tasker.Account

open DocStore EventSystem

/-- The answer of `putData`: whether there is an error, and the metadata with
their path. -/
structure PutAnswer where
  error : Bool
  metadata : Option (Option String)
  deriving DecidableEq, Repr

/-- The callback of `putData` goes on. -/
def PutAnswer.ok (a : PutAnswer) : Bool := !a.error && (a.metadata.bind id).isSome

/-- What the setup page is waiting for. -/
inductive Stage where
  | form
  | creating (form : SetupForm)
  | signingIn (form : SetupForm)
  | uploading (form : SetupForm) (userID : String) (imageData : Data)
  | saving (userID : String) (r : Registration)
  | finished
  | trapped

/-- The setup page and what it has a hand in. -/
structure State where
  page : SetupPageViewController
  stage : Stage := .form
  auth : Auth := {}
  users : Collection String User := ∅
  pictures : Collection String Data := ∅
  homeShown : Bool := false

/-- What can happen. An answer is an error or a success. -/
inductive Event where
  /-- The user edits the fields, picks an avatar or ticks the box. -/
  | edit (fields : SetupPageViewController)
  | continuePressed
  /-- The callback of `createUser`, with the uid of the account. -/
  | createUser (answer : Except String String)
  /-- The callback of `signIn(with:)`, with the uid of a new account. -/
  | signIn (answer : Except String String)
  | putData (answer : PutAnswer)
  | setData (error : Bool)

/-- The page with its fields, its avatar and its box edited. -/
def edited (page fields : SetupPageViewController) : SetupPageViewController :=
  { fields with
    email := page.email
    password := page.password
    credentials := page.credentials
    picTemp := page.picTemp
    errorLabel := page.errorLabel }

/-- The call of `setUserData`: the request, the home page, or a trap. -/
def setUserDataCalled (s : State) (form : SetupForm) (userID : String) : State :=
  match s.page.registration form with
  | some r => { s with stage := .saving userID r, homeShown := true }
  | none => { s with stage := .trapped }

/-- The callback that has the account. -/
def userCreated (s : State) (form : SetupForm) (userID : String) : State :=
  match s.page.avatarStep with
  | .stop => { s with stage := .finished }
  | .upload imageData => { s with stage := .uploading form userID imageData }
  | .save => setUserDataCalled s form userID

/-- `showError`. -/
def State.showError (s : State) (message : String) : State :=
  { s with page := { s.page with errorLabel := some message } }

/-- `continuePressed`, up to its request. One tap makes a run; see `retryStep` for
further ones. -/
def continuePressed (dates : Dates) (now : ℤ) (s : State) : Option State :=
  match s.stage with
  | .form =>
      match s.page.validateFields dates now with
      | some error => some (s.showError error)
      | none =>
          match s.page.cleaned dates with
          | none => some { s with stage := .trapped }
          | some form =>
              if s.page.password ≠ "" then some { s with stage := .creating form }
              else if s.page.credentials.isSome then some { s with stage := .signingIn form }
              else some { s with stage := .trapped }
  | _ => none

/-- The callback of `createUser`; the account is new, and so is its uid. -/
def createUserAnswered (s : State) (answer : Except String String) : Option State :=
  match s.stage, answer with
  | .creating _, .error description =>
      some { s.showError ("Error creating user: " ++ description) with stage := .finished }
  | .creating form, .ok userID =>
      if s.users.lookup userID = none then
        (s.auth.createUser s.page.email s.page.password userID).map fun auth =>
          userCreated { s with auth } form userID
      else none
  | _, _ => none

/-- The callback of `signIn(with:)`. -/
def signInAnswered (s : State) (answer : Except String String) : Option State :=
  match s.stage, answer with
  | .signingIn _, .error description => some { s.showError description with stage := .finished }
  | .signingIn form, .ok newUserID =>
      s.page.credentials.map fun credentials =>
        userCreated { s with auth := (s.auth.signInWith credentials newUserID).1 } form
          (s.auth.signInWith credentials newUserID).2
  | _, _ => none

/-- The callback of `putData`. -/
def putDataAnswered (s : State) (answer : PutAnswer) : Option State :=
  match s.stage with
  | .uploading form userID imageData =>
      if answer.error then some { s with stage := .finished }
      else if answer.ok then
        some (setUserDataCalled { s with
          pictures := setData s.pictures userID imageData
          page := { s.page with picTemp := userID } } form userID)
      else some { s with pictures := setData s.pictures userID imageData, stage := .finished }
  | _ => none

/-- The callback of `setData`. -/
def setDataAnswered (s : State) (error : Bool) : Option State :=
  match s.stage with
  | .saving userID r =>
      if error then some { s.showError "Error saving user data." with stage := .finished }
      else some { s with
        users := setData s.users userID (setUserData r userID), stage := .finished }
  | _ => none

/-- One event. -/
def step (dates : Dates) (now : ℤ) (s : State) : Event → Option State
  | .edit fields => some { s with page := edited s.page fields }
  | .continuePressed => continuePressed dates now s
  | .createUser answer => createUserAnswered s answer
  | .signIn answer => signInAnswered s answer
  | .putData answer => putDataAnswered s answer
  | .setData error => setDataAnswered s error

/-! ### The branches of an event -/

/-- What an event leads to, with the branch of the source it takes. -/
inductive Branch (dates : Dates) (now : ℤ) (s : State) : Event → State → Prop where
  | edit (fields : SetupPageViewController) :
      Branch dates now s (.edit fields) { s with page := edited s.page fields }
  | invalid (error : String) : s.stage = .form →
      s.page.validateFields dates now = some error →
      Branch dates now s .continuePressed (s.showError error)
  | noDate : s.stage = .form → s.page.validateFields dates now = none →
      s.page.cleaned dates = none → Branch dates now s .continuePressed { s with stage := .trapped }
  | standard (form : SetupForm) : s.stage = .form → s.page.validateFields dates now = none →
      s.page.cleaned dates = some form → s.page.password ≠ "" →
      Branch dates now s .continuePressed { s with stage := .creating form }
  | thirdParty (form : SetupForm) : s.stage = .form → s.page.validateFields dates now = none →
      s.page.cleaned dates = some form → s.page.password = "" → s.page.credentials.isSome = true →
      Branch dates now s .continuePressed { s with stage := .signingIn form }
  | noCredentials : s.stage = .form → s.page.password = "" → s.page.credentials = none →
      Branch dates now s .continuePressed { s with stage := .trapped }
  | notCreated (form : SetupForm) (description : String) : s.stage = .creating form →
      Branch dates now s (.createUser (.error description))
        { s.showError ("Error creating user: " ++ description) with stage := .finished }
  | created (form : SetupForm) (userID : String) (auth : Auth) : s.stage = .creating form →
      s.users.lookup userID = none →
      s.auth.createUser s.page.email s.page.password userID = some auth →
      Branch dates now s (.createUser (.ok userID)) (userCreated { s with auth } form userID)
  | notSignedIn (form : SetupForm) (description : String) : s.stage = .signingIn form →
      Branch dates now s (.signIn (.error description))
        { s.showError description with stage := .finished }
  | signedIn (form : SetupForm) (newUserID credentials : String) : s.stage = .signingIn form →
      s.page.credentials = some credentials →
      Branch dates now s (.signIn (.ok newUserID))
        (userCreated { s with auth := (s.auth.signInWith credentials newUserID).1 } form
          (s.auth.signInWith credentials newUserID).2)
  | notUploaded (form : SetupForm) (userID : String) (imageData : Data) (answer : PutAnswer) :
      s.stage = .uploading form userID imageData → answer.ok = false →
      Branch dates now s (.putData answer) { s with stage := .finished }
  | noPath (form : SetupForm) (userID : String) (imageData : Data) (answer : PutAnswer) :
      s.stage = .uploading form userID imageData → answer.ok = false →
      Branch dates now s (.putData answer)
        { s with pictures := setData s.pictures userID imageData, stage := .finished }
  | uploaded (form : SetupForm) (userID : String) (imageData : Data) (answer : PutAnswer) :
      s.stage = .uploading form userID imageData → answer.ok = true →
      Branch dates now s (.putData answer)
        (setUserDataCalled { s with
          pictures := setData s.pictures userID imageData
          page := { s.page with picTemp := userID } } form userID)
  | notSaved (userID : String) (r : Registration) : s.stage = .saving userID r →
      Branch dates now s (.setData true)
        { s.showError "Error saving user data." with stage := .finished }
  | saved (userID : String) (r : Registration) : s.stage = .saving userID r →
      Branch dates now s (.setData false)
        { s with users := setData s.users userID (setUserData r userID), stage := .finished }

/-- Every event takes one of the branches. -/
lemma branch_of_step {dates : Dates} {now : ℤ} {s s' : State} {e : Event}
    (hs : step dates now s e = some s') : Branch dates now s e s' := by
  cases e with
  | edit fields =>
      obtain rfl := Option.some.inj hs
      exact .edit fields
  | continuePressed =>
      rw [step, continuePressed] at hs
      split at hs
      · next hstage =>
          split at hs
          · next error herror =>
              obtain rfl := Option.some.inj hs
              exact .invalid error hstage herror
          · next hvalid =>
              split at hs
              · next hcleaned =>
                  obtain rfl := Option.some.inj hs
                  exact .noDate hstage hvalid hcleaned
              · next form hcleaned =>
                  split_ifs at hs with hpassword hcredentials
                  · obtain rfl := Option.some.inj hs
                    exact .standard form hstage hvalid hcleaned hpassword
                  · obtain rfl := Option.some.inj hs
                    exact .thirdParty form hstage hvalid hcleaned (not_not.mp hpassword)
                      hcredentials
                  · obtain rfl := Option.some.inj hs
                    exact .noCredentials hstage (not_not.mp hpassword)
                      (Option.not_isSome_iff_eq_none.mp hcredentials)
      · exact absurd hs (by simp)
  | createUser answer =>
      rw [step] at hs
      unfold createUserAnswered at hs
      split at hs
      · next form description hstage =>
          obtain rfl := Option.some.inj hs
          exact .notCreated form description hstage
      · next form userID hstage =>
          split at hs
          · next hnew =>
              obtain ⟨auth, hauth, rfl⟩ := Option.map_eq_some_iff.mp hs
              exact .created form userID auth hstage hnew hauth
          · exact absurd hs (by simp)
      · exact absurd hs (by simp)
  | signIn answer =>
      rw [step] at hs
      unfold signInAnswered at hs
      split at hs
      · next form description hstage =>
          obtain rfl := Option.some.inj hs
          exact .notSignedIn form description hstage
      · next form newUserID hstage =>
          obtain ⟨credentials, hcredentials, rfl⟩ := Option.map_eq_some_iff.mp hs
          exact .signedIn form newUserID credentials hstage hcredentials
      · exact absurd hs (by simp)
  | putData answer =>
      rw [step, putDataAnswered] at hs
      split at hs
      · next form userID imageData hstage =>
          split_ifs at hs with herror hok
          · obtain rfl := Option.some.inj hs
            exact .notUploaded form userID imageData answer hstage (by simp [PutAnswer.ok, herror])
          · obtain rfl := Option.some.inj hs
            exact .uploaded form userID imageData answer hstage hok
          · obtain rfl := Option.some.inj hs
            exact .noPath form userID imageData answer hstage (Bool.eq_false_of_not_eq_true hok)
      · exact absurd hs (by simp)
  | setData error =>
      rw [step, setDataAnswered] at hs
      split at hs
      · next userID r hstage =>
          cases error with
          | true =>
              obtain rfl := Option.some.inj hs
              exact .notSaved userID r hstage
          | false =>
              obtain rfl := Option.some.inj hs
              exact .saved userID r hstage
      · exact absurd hs (by simp)

/-! ### The end of a registration -/

/-- There is a new account under the email address. -/
def Created (s₀ s : State) (userID : String) : Prop :=
  s₀.auth.accounts.lookup s₀.page.email = none ∧
    s.auth = { s₀.auth with
      accounts := setData s₀.auth.accounts s₀.page.email
        { uid := userID, password := s₀.page.password } }

/-- The new account has a users document with the fields `setUserData` writes. -/
def Registered (s₀ s : State) : Prop :=
  ∃ userID r, Created s₀ s userID ∧ s.users.lookup userID = some (setUserData r userID)

/-- There is no new account, and an error is shown. -/
def Refused (s₀ s : State) : Prop := s.auth = s₀.auth ∧ s.page.errorLabel ≠ none

/-- The answer is a success, and the registration can go on: the zip code text
has five characters, and the avatar is a symbol or a picture that has data. -/
def Unfailing (zipCodeText : String) (s : State) : Event → Prop
  | .createUser (.ok _) =>
      (trimmingCharacters zipCodeText).toList.length = 5 ∧ s.page.avatarStep ≠ .stop
  | .putData answer => answer.ok = true
  | .setData error => error = false
  | _ => True

/-! ### The account and its document along a run -/

section run

variable {dates : Dates} {now : ℤ} {s₀ s s' : State} {userID : String} {form : SetupForm}

/-- The zip code text of the tap. -/
def zipCodeText (s₀ : State) : String := trimmingCharacters s₀.page.zipCodeTextField

/-- There is a new account, and no users document for it. -/
def Orphaned (s₀ s : State) : Prop :=
  ∃ userID, Created s₀ s userID ∧ s.users.lookup userID = none

/-- What holds at every stage after the tap. -/
def Progress (s₀ s : State) : Prop :=
  match s.stage with
  | .creating form => s.auth = s₀.auth ∧ s.page.email = s₀.page.email ∧
      s.page.password = s₀.page.password ∧ form.zipCode = int (zipCodeText s₀)
  | .uploading form userID _ => Created s₀ s userID ∧ s.users.lookup userID = none ∧
      form.zipCode = int (zipCodeText s₀)
  | .saving userID _ => Created s₀ s userID ∧ s.users.lookup userID = none
  | .finished => Registered s₀ s ∨ Refused s₀ s ∨ Orphaned s₀ s
  | .trapped => Orphaned s₀ s
  | _ => False

/-- The registration can still end well. -/
def OnTrack (s₀ s : State) : Prop :=
  match s.stage with
  | .creating _ => True
  | .uploading _ _ _ => (zipCodeText s₀).toList.length = 5
  | .saving _ _ => True
  | .finished => Registered s₀ s ∨ Refused s₀ s
  | _ => False

/-- The new account is one. -/
lemma Created.lookup (h : Created s₀ s userID) :
    s.auth.accounts.lookup s₀.page.email =
      some { uid := userID, password := s₀.page.password } := by
  rw [h.2]
  exact lookup_setData_self _ _ _

/-- An account without a document is no good end. -/
lemma Orphaned.not_registered_or_refused (h : Orphaned s₀ s) :
    ¬ (Registered s₀ s ∨ Refused s₀ s) := by
  obtain ⟨userID, hcreated, hnone⟩ := h
  rintro (⟨userID', r, hcreated', hdoc⟩ | ⟨hauth, -⟩)
  · have heq := hcreated.lookup.symm.trans hcreated'.lookup
    rw [(Account.mk.inj (Option.some.inj heq)).1, hdoc] at hnone
    exact absurd hnone (by simp)
  · have hsome := hcreated.lookup
    rw [hauth, hcreated.1] at hsome
    exact absurd hsome (by simp)

variable (hzip : isZipCodeValid (zipCodeText s₀) = true)

include hzip in
/-- Calling `setUserData` for a new account. -/
lemma setUserDataCalled_spec (hcreated : Created s₀ s userID)
    (hnone : s.users.lookup userID = none) (hform : form.zipCode = int (zipCodeText s₀)) :
    Progress s₀ (setUserDataCalled s form userID) ∧
      (OnTrack s₀ (setUserDataCalled s form userID) ↔ (zipCodeText s₀).toList.length = 5) := by
  have hsome : (s.page.registration form).isSome = form.zipCode.isSome :=
    SetupPageViewController.registration_isSome
  rw [← int_zipCode hzip, ← hform, ← hsome]
  cases hr : s.page.registration form with
  | some r =>
      rw [setUserDataCalled, hr]
      exact ⟨⟨hcreated, hnone⟩, iff_of_true trivial rfl⟩
  | none =>
      rw [setUserDataCalled, hr]
      exact ⟨⟨userID, hcreated, hnone⟩, iff_of_false id (by simp)⟩

include hzip in
/-- The callback that has the new account. -/
lemma userCreated_spec (hcreated : Created s₀ s userID)
    (hnone : s.users.lookup userID = none) (hform : form.zipCode = int (zipCodeText s₀)) :
    Progress s₀ (userCreated s form userID) ∧
      (OnTrack s₀ (userCreated s form userID) ↔
        (zipCodeText s₀).toList.length = 5 ∧ s.page.avatarStep ≠ .stop) := by
  cases hstep : s.page.avatarStep with
  | stop =>
      have horphan : Orphaned s₀ { s with stage := .finished } := ⟨userID, hcreated, hnone⟩
      rw [userCreated, hstep]
      exact ⟨Or.inr (Or.inr horphan),
        iff_of_false horphan.not_registered_or_refused fun h => h.2 rfl⟩
  | upload imageData =>
      rw [userCreated, hstep]
      exact ⟨⟨hcreated, hnone, hform⟩, (and_iff_left (by simp)).symm⟩
  | save =>
      have hcalled := setUserDataCalled_spec hzip hcreated hnone hform
      rw [userCreated, hstep]
      exact ⟨hcalled.1, hcalled.2.trans (and_iff_left (by simp)).symm⟩

include hzip in
/-- The account is created. -/
lemma created_spec {auth : Auth} (h : Progress s₀ s) (hstage : s.stage = .creating form)
    (hnone : s.users.lookup userID = none)
    (hauth : s.auth.createUser s.page.email s.page.password userID = some auth) :
    Progress s₀ (userCreated { s with auth } form userID) ∧
      (OnTrack s₀ (userCreated { s with auth } form userID) ↔
        OnTrack s₀ s ∧ Unfailing s₀.page.zipCodeTextField s (.createUser (.ok userID))) := by
  simp only [Progress, hstage] at h
  obtain ⟨hold, hemail, hpassword, hform⟩ := h
  obtain ⟨hnew, rfl⟩ := Auth.createUser_eq_some hauth
  have hcreated : Created s₀ { s with
      auth := { s.auth with
        accounts := setData s.auth.accounts s.page.email
          { uid := userID, password := s.page.password } } } userID := by
    refine ⟨?_, ?_⟩
    · rw [← hold, ← hemail]
      exact hnew
    · rw [← hold, ← hemail, ← hpassword]
  have hspec := userCreated_spec hzip hcreated hnone hform
  refine ⟨hspec.1, hspec.2.trans ?_⟩
  rw [OnTrack, hstage]
  exact (iff_of_eq (true_and _)).symm

/-- The page stops for good, before or after the picture is stored. -/
lemma notUploaded_spec {imageData : Data} {answer : PutAnswer}
    (pictures : Collection String Data) (h : Progress s₀ s)
    (hstage : s.stage = .uploading form userID imageData) (hfail : answer.ok = false) :
    Progress s₀ { s with pictures := pictures, stage := .finished } ∧
      (OnTrack s₀ { s with pictures := pictures, stage := .finished } ↔
        OnTrack s₀ s ∧ answer.ok = true) := by
  simp only [Progress, hstage] at h
  obtain ⟨hcreated, hnone, -⟩ := h
  have horphan : Orphaned s₀ { s with pictures := pictures, stage := .finished } :=
    ⟨userID, hcreated, hnone⟩
  exact ⟨Or.inr (Or.inr horphan), iff_of_false horphan.not_registered_or_refused
    fun h => absurd h.2 (by simp [hfail])⟩

include hzip in
/-- The picture is uploaded. -/
lemma uploaded_spec {imageData : Data} {answer : PutAnswer} {t : State} (h : Progress s₀ s)
    (hstage : s.stage = .uploading form userID imageData) (hok : answer.ok = true)
    (hauth : t.auth = s.auth) (husers : t.users = s.users) :
    Progress s₀ (setUserDataCalled t form userID) ∧
      (OnTrack s₀ (setUserDataCalled t form userID) ↔ OnTrack s₀ s ∧ answer.ok = true) := by
  simp only [Progress, hstage] at h
  obtain ⟨hcreated, hnone, hform⟩ := h
  have hspec := setUserDataCalled_spec (s := t) hzip ⟨hcreated.1, hauth.trans hcreated.2⟩
    (husers ▸ hnone) hform
  refine ⟨hspec.1, hspec.2.trans ?_⟩
  rw [OnTrack, hstage]
  exact (and_iff_left hok).symm

/-- A new account whose document is not saved. -/
lemma notSaved_spec {r : Registration} (h : Progress s₀ s)
    (hstage : s.stage = .saving userID r) :
    Orphaned s₀ { s.showError "Error saving user data." with stage := .finished } := by
  simp only [Progress, hstage] at h
  exact ⟨userID, h⟩

/-- A new account whose document is saved. -/
lemma saved_spec {r : Registration} (h : Progress s₀ s) (hstage : s.stage = .saving userID r) :
    Registered s₀ { s with
      users := DocStore.setData s.users userID (setUserData r userID), stage := .finished } := by
  simp only [Progress, hstage] at h
  exact ⟨userID, r, h.1, lookup_setData_self _ _ _⟩

include hzip in
/-- One event after the tap keeps the progress, and the registration on track
exactly if it was and the event is unfailing. -/
lemma step_spec {e : Event} (h : Progress s₀ s) (hs : step dates now s e = some s') :
    Progress s₀ s' ∧
      (OnTrack s₀ s' ↔ OnTrack s₀ s ∧ Unfailing s₀.page.zipCodeTextField s e) := by
  -- at these stages the tap is over, and the registration is a standard one
  have hform : s.stage ≠ .form := fun hstage => by simp only [Progress, hstage] at h
  have hsigning : ∀ form, s.stage ≠ .signingIn form :=
    fun _ hstage => by simp only [Progress, hstage] at h
  cases branch_of_step hs with
  | edit fields => exact ⟨h, (and_iff_left trivial).symm⟩
  | invalid _ hstage => exact absurd hstage hform
  | noDate hstage => exact absurd hstage hform
  | standard _ hstage => exact absurd hstage hform
  | thirdParty _ hstage => exact absurd hstage hform
  | noCredentials hstage => exact absurd hstage hform
  | notCreated form description hstage =>
      simp only [Progress, hstage] at h
      have hrefused : Refused s₀
          { s.showError ("Error creating user: " ++ description) with stage := .finished } :=
        ⟨h.1, by simp [State.showError]⟩
      have htrack : OnTrack s₀ s := by
        rw [OnTrack, hstage]
        trivial
      exact ⟨Or.inr (Or.inl hrefused), iff_of_true (Or.inr hrefused) ⟨htrack, trivial⟩⟩
  | created form userID auth hstage hnone hauth => exact created_spec hzip h hstage hnone hauth
  | notSignedIn form _ hstage => exact absurd hstage (hsigning form)
  | signedIn form _ _ hstage => exact absurd hstage (hsigning form)
  | notUploaded form userID imageData answer hstage hfail =>
      exact notUploaded_spec s.pictures h hstage hfail
  | noPath form userID imageData answer hstage hfail => exact notUploaded_spec _ h hstage hfail
  | uploaded form userID imageData answer hstage hok =>
      exact uploaded_spec hzip h hstage hok rfl rfl
  | notSaved userID r hstage =>
      have horphan := notSaved_spec h hstage
      exact ⟨Or.inr (Or.inr horphan), iff_of_false horphan.not_registered_or_refused
        fun h => Bool.noConfusion h.2⟩
  | saved userID r hstage =>
      have hregistered := saved_spec h hstage
      have htrack : OnTrack s₀ s := by
        rw [OnTrack, hstage]
        trivial
      exact ⟨Or.inl hregistered, iff_of_true (Or.inl hregistered) ⟨htrack, rfl⟩⟩

/-- The tap on Continue with valid fields and a password. -/
lemma continuePressed_spec (hstage : s₀.stage = .form)
    (hvalid : s₀.page.validateFields dates now = none) (hpassword : s₀.page.password ≠ "") :
    ∃ form, step dates now s₀ .continuePressed = some { s₀ with stage := .creating form } ∧
      form.zipCode = int (zipCodeText s₀) := by
  obtain ⟨-, form, hform, hzipCode⟩ := SetupPageViewController.cleaned_of_valid hvalid
  refine ⟨form, ?_, hzipCode⟩
  rw [step, continuePressed, hstage]
  simp only [hvalid, hform]
  rw [if_pos hpassword]

/-- At the end, a registration is on track exactly if it has ended well. -/
lemma onTrack_iff (h : Progress s₀ s) (hdone : s.stage = .finished ∨ s.stage = .trapped) :
    OnTrack s₀ s ↔ Registered s₀ s ∨ Refused s₀ s := by
  rcases hdone with hstage | hstage
  · rw [OnTrack, hstage]
  · rw [Progress, hstage] at h
    rw [OnTrack, hstage]
    exact iff_of_false id h.not_registered_or_refused

/-- **Registration**: a standard registration with valid fields ends with an
account and its document, or with no account and an error, if and only if every
answer after the account is created is a success and the registration can go on
from there. -/
theorem registered_or_refused_iff {es : List Event} (hstage : s₀.stage = .form)
    (hvalid : s₀.page.validateFields dates now = none) (hpassword : s₀.page.password ≠ "")
    (h : exec (step dates now) s₀ (.continuePressed :: es) = some s)
    (hdone : s.stage = .finished ∨ s.stage = .trapped) :
    Registered s₀ s ∨ Refused s₀ s ↔
      EachStep (step dates now) (Unfailing s₀.page.zipCodeTextField) s₀
        (.continuePressed :: es) := by
  have hzip : isZipCodeValid (zipCodeText s₀) = true :=
    (SetupPageViewController.cleaned_of_valid hvalid).1
  obtain ⟨form, hstep, hform⟩ := continuePressed_spec hstage hvalid hpassword
  obtain ⟨t, ht, h'⟩ := exec_cons_eq_some.mp h
  obtain rfl := Option.some.inj (hstep.symm.trans ht)
  have hprogress : Progress s₀ { s₀ with stage := .creating form } := ⟨rfl, rfl, rfl, hform⟩
  have hkeep : ∀ s e s', Progress s₀ s → step dates now s e = some s' → Progress s₀ s' :=
    fun _ _ _ hs he => (step_spec hzip hs he).1
  have htrack := exec_iff_eachStep hkeep (fun _ _ _ hs he => (step_spec hzip hs he).2) hprogress h'
  rw [← onTrack_iff (exec_invariant hkeep hprogress h') hdone, htrack, eachStep_cons_iff ht]
  exact and_congr_left fun _ => iff_of_true trivial trivial

/-! ### Continue tapped again -/

/-- What can happen to a page that stays open: an event, or `none`, Continue ready for
another tap after an error or a silent return. -/
def retryStep (dates : Dates) (now : ℤ) (s : State) : Option Event → Option State
  | some e => step dates now s e
  | none =>
      match s.stage with
      | .finished => some { s with stage := .form }
      | _ => none

/-- An account without a document, and a page that holds its email address and its
password. -/
structure Stuck (s₀ s : State) : Prop where
  orphaned : Orphaned s₀ s
  email : s.page.email = s₀.page.email
  password : s.page.password = s₀.page.password
  stage : s.stage = .form ∨ (∃ form, s.stage = .creating form) ∨ s.stage = .finished ∨
    s.stage = .trapped

omit hzip in
/-- A tap registers nobody: the address is taken. -/
lemma Stuck.step {e : Event} (h : Stuck s₀ s) (hpassword : s₀.page.password ≠ "")
    (hs : step dates now s e = some s') : Stuck s₀ s' := by
  have hstage := h.stage
  have htaken : ∀ userID, s.auth.createUser s.page.email s.page.password userID = none := by
    obtain ⟨userID, hcreated, -⟩ := h.orphaned
    intro userID'
    by_contra hsome
    obtain ⟨auth, hauth⟩ := Option.ne_none_iff_exists'.mp hsome
    have hfree := (Auth.createUser_eq_some hauth).1
    rw [h.email, hcreated.lookup] at hfree
    exact absurd hfree (by simp)
  cases branch_of_step hs with
  | edit fields => exact ⟨h.orphaned, h.email, h.password, hstage⟩
  | invalid error hform => exact ⟨h.orphaned, h.email, h.password, hstage⟩
  | noDate => exact ⟨h.orphaned, h.email, h.password, by simp⟩
  | standard form => exact ⟨h.orphaned, h.email, h.password, by simp⟩
  | thirdParty form _ _ _ hempty => exact absurd (h.password.symm.trans hempty) hpassword
  | noCredentials _ hempty => exact absurd (h.password.symm.trans hempty) hpassword
  | notCreated form description => exact ⟨h.orphaned, h.email, h.password, by simp⟩
  | created form userID auth _ _ hauth => exact absurd ((htaken userID).symm.trans hauth) (by simp)
  | notSignedIn form description hform => simp [hform] at hstage
  | signedIn form newUserID credentials hform => simp [hform] at hstage
  | notUploaded form userID imageData answer hform => simp [hform] at hstage
  | noPath form userID imageData answer hform => simp [hform] at hstage
  | uploaded form userID imageData answer hform => simp [hform] at hstage
  | notSaved userID r hform => simp [hform] at hstage
  | saved userID r hform => simp [hform] at hstage

omit hzip in
/-- **An account left without its document stays so**, however often Continue is tapped
on the page again. -/
theorem orphaned_exec {es : List (Option Event)} (h : Stuck s₀ s)
    (hpassword : s₀.page.password ≠ "") (hs : exec (retryStep dates now) s es = some s') :
    Orphaned s₀ s' := by
  have hkeep : ∀ t e t', Stuck s₀ t → retryStep dates now t e = some t' → Stuck s₀ t' := by
    intro t e t' ht hstep
    cases e with
    | some e => exact ht.step hpassword hstep
    | none =>
        rw [retryStep] at hstep
        split at hstep
        · obtain rfl := Option.some.inj hstep
          exact ⟨ht.orphaned, ht.email, ht.password, Or.inl rfl⟩
        · exact absurd hstep (by simp)
  exact (exec_invariant hkeep h hs).orphaned

end run

/-! ### A registration -/

/-- A device in May 2022, for the date of birth of the registration. -/
def may2022 : Dates where
  date s := if s = "01/31/1990" then some 633744000 else none
  string _ := "01/31/1990"
  addingYears years now :=
    if years = -18 then now - 567993600 else if years = -99 then now - 3124224000 else now

/-- The page filled in, with the given avatar. -/
def filledIn (avatarImage : UIImage) : SetupPageViewController where
  firstNameTextField := "Ed"
  lastNameTextField := "Lee"
  dateOfBirthTextField := "01/31/1990"
  zipCodeTextField := "98501"
  streetTextField := "1 Main St"
  cityTextField := "Olympia"
  stateTextField := "WA"
  skillsTextField := "painting"
  avatarImage := some avatarImage
  email := "ed@example.com"
  password := "passw0rd!"

/-- A picture of two bytes. -/
def photo : UIImage where
  isSymbolImage := false
  jpegData := some [255, 216]

/-- The account is created, the picture uploaded, the document written. -/
def succeeding : List Event :=
  [.continuePressed, .createUser (.ok "u1"),
    .putData { error := false, metadata := some (some "UserPictures/u1") }, .setData false]

/-- The upload of the picture fails. -/
def uploadFailing : List Event :=
  [.continuePressed, .createUser (.ok "u1"), .putData { error := true, metadata := none }]

theorem registered_or_refused_iff_succeeding : ∃ s,
    exec (step may2022 1651363200) { page := filledIn photo } succeeding = some s ∧
    (Registered { page := filledIn photo } s ∨ Refused { page := filledIn photo } s ↔
      EachStep (step may2022 1651363200) (Unfailing "98501") { page := filledIn photo }
        succeeding) := by
  have hrun : (exec (step may2022 1651363200) { page := filledIn photo } succeeding).map
      (fun s => match s.stage with | .finished => true | _ => false) = some true := by
    decide +kernel
  obtain ⟨s, hs, hend⟩ := Option.map_eq_some_iff.mp hrun
  have hdone : s.stage = .finished := by
    split at hend
    · assumption
    · exact absurd hend (by simp)
  have hvalid : (filledIn photo).validateFields may2022 1651363200 = none := by decide +kernel
  have hform : ({ page := filledIn photo } : State).stage = .form := rfl
  exact ⟨s, hs, registered_or_refused_iff hform hvalid (by decide) hs (Or.inl hdone)⟩

/-- The account remains without a document, and no error is shown. -/
theorem uploadFailing_orphans : ∃ s,
    exec (step may2022 1651363200) { page := filledIn photo } uploadFailing = some s ∧
    (filledIn photo).validateFields may2022 1651363200 = none ∧
    s.auth.accounts.lookup "ed@example.com" = some { uid := "u1", password := "passw0rd!" } ∧
    s.users.lookup "u1" = none ∧ s.page.errorLabel = none ∧ s.stage = .finished ∧
    ¬ (Registered { page := filledIn photo } s ∨ Refused { page := filledIn photo } s) := by
  have hrun : (exec (step may2022 1651363200) { page := filledIn photo } uploadFailing).map
      (fun s => (s.auth.accounts.lookup "ed@example.com", s.users.lookup "u1", s.page.errorLabel,
        match s.stage with | .finished => true | _ => false)) =
      some (some { uid := "u1", password := "passw0rd!" }, none, none, true) := by
    decide +kernel
  have hvalid : (filledIn photo).validateFields may2022 1651363200 = none := by decide +kernel
  obtain ⟨s, hs, hend⟩ := Option.map_eq_some_iff.mp hrun
  obtain ⟨haccount, hdoc, herror, hstage⟩ : _ ∧ _ ∧ _ ∧ _ := by
    simpa only [Prod.mk.injEq] using hend
  have hdone : s.stage = .finished := by
    split at hstage
    · assumption
    · exact absurd hstage (by simp)
  refine ⟨s, hs, hvalid, haccount, hdoc, herror, hdone, ?_⟩
  rintro (⟨userID, r, hcreated, hstored⟩ | hrefused)
  · have heq := hcreated.lookup.symm.trans haccount
    rw [(Account.mk.inj (Option.some.inj heq)).1, hdoc] at hstored
    exact absurd hstored (by simp)
  · exact hrefused.2 herror

/-- Continue is tapped again, and the address is taken. -/
def retrying : List (Option Event) :=
  [none, some .continuePressed, some (.createUser (.error "already in use"))]

theorem orphaned_exec_retrying : ∃ s s',
    exec (step may2022 1651363200) { page := filledIn photo } uploadFailing = some s ∧
    exec (retryStep may2022 1651363200) s retrying = some s' ∧
    Orphaned { page := filledIn photo } s' := by
  have hrun : ((exec (step may2022 1651363200) { page := filledIn photo } uploadFailing).bind
      fun s => (exec (retryStep may2022 1651363200) s retrying).map fun _ =>
        (s.auth.accounts.entries, s.auth.identities.entries,
          match s.stage with | .finished => true | _ => false)) =
      some ((setData ∅ "ed@example.com" { uid := "u1", password := "passw0rd!" } :
        Collection String Account).entries, [], true) := by
    decide +kernel
  have hpage : (exec (step may2022 1651363200) { page := filledIn photo } uploadFailing).map
      (fun s => (s.users.lookup "u1", s.page.email, s.page.password)) =
      some (none, "ed@example.com", "passw0rd!") := by
    decide +kernel
  obtain ⟨s, hs, hrest⟩ := Option.bind_eq_some_iff.mp hrun
  obtain ⟨s', hs', hend⟩ := Option.map_eq_some_iff.mp hrest
  obtain ⟨haccounts, hidentities, hstage⟩ : _ ∧ _ ∧ _ := by
    simpa only [Prod.mk.injEq] using hend
  obtain ⟨hdoc, hemail, hpassword⟩ : s.users.lookup "u1" = none ∧
      s.page.email = "ed@example.com" ∧ s.page.password = "passw0rd!" := by
    simpa only [hs, Option.map_some, Option.some.injEq, Prod.mk.injEq] using hpage
  have hdone : s.stage = .finished := by
    split at hstage
    · assumption
    · exact absurd hstage (by simp)
  have hcreated : Created { page := filledIn photo } s "u1" :=
    ⟨rfl, Auth.mk.injEq .. ▸ ⟨AList.ext haccounts, AList.ext hidentities⟩⟩
  exact ⟨s, s', hs, hs', orphaned_exec ⟨⟨"u1", hcreated, hdoc⟩, hemail, hpassword,
    Or.inr (Or.inr (Or.inl hdone))⟩ (by decide) hs'⟩

end Tasker.Account
