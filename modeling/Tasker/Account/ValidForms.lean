import Tasker.Account.Setup
import Tasker.Screens.EditProfile

/-!
What becomes of forms whose fields are valid.

* `Sound`: the setup page has taken an integer from the zip code text, so that
  nothing is left to trap; `Sound.step` keeps it.
* `NeverTraps`: no run from the tap on Continue traps, whatever the answers of
  the requests and the edits meanwhile.
* `neverTraps_iff`: valid fields never trap if and only if the zip code text has
  five characters, and there is something to sign up with.
* `validForms_iff`: this for both pages; `zipPlusFour_traps` are the two pages
  with a zip code of nine digits.
-/

namespace Tasker.Account

open DocStore EventSystem

/-- The setup page is past the form, and has an integer for the zip code. -/
def Sound (s : State) : Prop :=
  match s.stage with
  | .form => False
  | .creating form => form.zipCode.isSome
  | .signingIn form => form.zipCode.isSome
  | .uploading form _ _ => form.zipCode.isSome
  | .saving _ _ => True
  | .finished => True
  | .trapped => False

/-- No run from the tap on Continue of the page traps. -/
def NeverTraps (dates : Dates) (now : ℤ) (page : SetupPageViewController) : Prop :=
  ∀ (s₀ s : State) (es : List Event), s₀.page = page → s₀.stage = .form →
    exec (step dates now) s₀ (.continuePressed :: es) = some s → s.stage ≠ .trapped

variable {dates : Dates} {now : ℤ} {s s' s₀ : State} {form : SetupForm} {userID : String}
  {page : SetupPageViewController}

/-! ### Nothing left to trap -/

lemma sound_setUserDataCalled (h : form.zipCode.isSome) :
    Sound (setUserDataCalled s form userID) := by
  have hsome : (s.page.registration form).isSome := by
    rw [SetupPageViewController.registration_isSome]
    exact h
  obtain ⟨r, hr⟩ := Option.isSome_iff_exists.mp hsome
  rw [setUserDataCalled, hr]
  trivial

lemma sound_userCreated (h : form.zipCode.isSome) : Sound (userCreated s form userID) := by
  cases hstep : s.page.avatarStep with
  | stop =>
      rw [userCreated, hstep]
      trivial
  | upload imageData =>
      rw [userCreated, hstep]
      exact h
  | save =>
      rw [userCreated, hstep]
      exact sound_setUserDataCalled h

/-- No event after the tap on Continue leaves anything to trap. -/
lemma Sound.step {e : Event} (h : Sound s) (hs : step dates now s e = some s') : Sound s' := by
  have hform : s.stage ≠ .form := fun hstage => by simp only [Sound, hstage] at h
  cases branch_of_step hs with
  | edit fields => exact h
  | invalid _ hstage => exact absurd hstage hform
  | noDate hstage => exact absurd hstage hform
  | standard _ hstage => exact absurd hstage hform
  | thirdParty _ hstage => exact absurd hstage hform
  | noCredentials hstage => exact absurd hstage hform
  | notCreated => trivial
  | created form _ _ hstage =>
      simp only [Sound, hstage] at h
      exact sound_userCreated h
  | notSignedIn => trivial
  | signedIn form _ _ hstage =>
      simp only [Sound, hstage] at h
      exact sound_userCreated h
  | notUploaded => trivial
  | noPath => trivial
  | uploaded form _ _ _ hstage =>
      simp only [Sound, hstage] at h
      exact sound_setUserDataCalled h
  | notSaved => trivial
  | saved => trivial

/-! ### Valid fields -/

/-- What the tap on Continue does with valid fields. -/
lemma continuePressed_valid (s₀ : State) (hstage : s₀.stage = .form)
    (hvalid : s₀.page.validateFields dates now = none) : ∃ form,
    form.zipCode = int (trimmingCharacters s₀.page.zipCodeTextField) ∧
      step dates now s₀ .continuePressed = some
        (if s₀.page.password ≠ "" then { s₀ with stage := .creating form }
        else if s₀.page.credentials.isSome then { s₀ with stage := .signingIn form }
        else { s₀ with stage := .trapped }) := by
  obtain ⟨-, form, hform, hzipCode⟩ := SetupPageViewController.cleaned_of_valid hvalid
  refine ⟨form, hzipCode, ?_⟩
  rw [step, continuePressed, hstage]
  simp only [hvalid, hform]
  split_ifs <;> rfl

/-- If the zip code text has five characters, nothing is left to trap. -/
lemma neverTraps_of_length (hvalid : page.validateFields dates now = none)
    (hlen : (trimmingCharacters page.zipCodeTextField).toList.length = 5)
    (hsign : page.password ≠ "" ∨ page.credentials.isSome = true) : NeverTraps dates now page := by
  rintro s₀ s es rfl hstage h
  obtain ⟨form, hzipCode, hstep⟩ := continuePressed_valid s₀ hstage hvalid
  obtain ⟨t, ht, h'⟩ := exec_cons_eq_some.mp h
  obtain rfl := Option.some.inj (hstep.symm.trans ht)
  have hinteger : form.zipCode.isSome := by
    rw [hzipCode]
    exact (int_zipCode (SetupPageViewController.cleaned_of_valid hvalid).1).mpr hlen
  have hsound : Sound (if s₀.page.password ≠ "" then { s₀ with stage := .creating form }
      else if s₀.page.credentials.isSome then { s₀ with stage := .signingIn form }
      else { s₀ with stage := .trapped }) := by
    split_ifs with hpassword hcredentials
    · exact hinteger
    · exact hinteger
    · exact (hsign.elim hpassword hcredentials).elim
  have hlast := exec_invariant (fun _ _ _ hs he => hs.step he) hsound h'
  intro htrapped
  simp only [Sound, htrapped] at hlast

/-! ### Traps -/

lemma stage_userCreated (hstep : s.page.avatarStep = .save) (hnone : form.zipCode = none) :
    (userCreated s form userID).stage = .trapped := by
  have hcall : s.page.registration form = none := by
    rw [SetupPageViewController.registration, hnone]
    rfl
  rw [userCreated, hstep]
  simp only [setUserDataCalled, hcall]

/-- The page with a new server. -/
def fresh (page : SetupPageViewController) : State := { page }

/-- After the answer of the sign-up with a symbol as the avatar, an account is
there, and the trap is not far. -/
lemma exists_trapped_of_int (hvalid : page.validateFields dates now = none)
    (hint : int (trimmingCharacters page.zipCodeTextField) = none) : ∃ s es,
      exec (step dates now) (fresh page) (.continuePressed :: es) = some s ∧
        s.stage = .trapped := by
  obtain ⟨form, hzipCode, hstep⟩ := continuePressed_valid (fresh page) rfl hvalid
  have hnone : form.zipCode = none := hzipCode.trans hint
  by_cases hpassword : page.password ≠ ""
  · rw [if_pos (show (fresh page).page.password ≠ "" from hpassword)] at hstep
    have hanswer : exec (step dates now) { fresh page with stage := .creating form }
        [.edit {}, .createUser (.ok "u1")] =
        some (userCreated { fresh (edited page {}) with
          stage := .creating form
          auth := { accounts := setData ∅ page.email { uid := "u1", password := page.password } } }
            form "u1") := rfl
    exact ⟨_, _, exec_cons_eq_some.mpr ⟨_, hstep, hanswer⟩, stage_userCreated rfl hnone⟩
  · rw [if_neg (show ¬ (fresh page).page.password ≠ "" from hpassword)] at hstep
    cases hcredentials : page.credentials with
    | none =>
        rw [if_neg (by simp [fresh, hcredentials])] at hstep
        exact ⟨_, [], exec_cons_eq_some.mpr ⟨_, hstep, rfl⟩, rfl⟩
    | some credentials =>
        rw [if_pos (by simp [fresh, hcredentials])] at hstep
        have hanswer : exec (step dates now) { fresh page with stage := .signingIn form }
            [.edit {}, .signIn (.ok "u1")] =
            some (userCreated { fresh (edited page {}) with
              stage := .signingIn form
              auth := { identities := setData ∅ credentials "u1" } } form "u1") := by
          show (page.credentials.map fun _ => userCreated _ form _).bind _ = _
          rw [hcredentials]
          rfl
        exact ⟨_, _, exec_cons_eq_some.mpr ⟨_, hstep, hanswer⟩, stage_userCreated rfl hnone⟩

/-- Without anything to sign up with, the tap traps. -/
lemma exists_trapped_of_credentials (hvalid : page.validateFields dates now = none)
    (hpassword : page.password = "") (hcredentials : page.credentials = none) : ∃ s,
      exec (step dates now) (fresh page) [.continuePressed] = some s ∧ s.stage = .trapped := by
  obtain ⟨form, -, hstep⟩ := continuePressed_valid (fresh page) rfl hvalid
  rw [if_neg (by simp [fresh, hpassword]), if_neg (by simp [fresh, hcredentials])] at hstep
  exact ⟨_, exec_cons_eq_some.mpr ⟨_, hstep, rfl⟩, rfl⟩

/-- When a setup page with valid fields never traps. -/
lemma neverTraps_iff (hvalid : page.validateFields dates now = none) :
    NeverTraps dates now page ↔
      (trimmingCharacters page.zipCodeTextField).toList.length = 5 ∧
        (page.password ≠ "" ∨ page.credentials.isSome = true) := by
  have hzip := (SetupPageViewController.cleaned_of_valid hvalid).1
  refine ⟨fun hnever => ?_, fun h => neverTraps_of_length hvalid h.1 h.2⟩
  constructor
  · rw [← int_zipCode hzip, Option.isSome_iff_ne_none]
    intro hint
    obtain ⟨s, es, hs, htrapped⟩ := exists_trapped_of_int hvalid hint
    exact hnever _ _ _ rfl rfl hs htrapped
  · by_contra hsign
    obtain ⟨hpassword, hcredentials⟩ := not_or.mp hsign
    obtain ⟨s, hs, htrapped⟩ := exists_trapped_of_credentials hvalid (not_not.mp hpassword)
      (Option.not_isSome_iff_eq_none.mp hcredentials)
    exact hnever _ _ _ rfl rfl hs htrapped

/-- **Valid forms**: with valid fields, the setup page never traps if and only if
the zip code text has five characters and there is a password or a credential;
and saving the profile page does not trap if and only if the zip code text has
five characters, or the picture shown stops the saving before. -/
theorem validForms_iff (dates : Dates) (now : ℤ) :
    (∀ page : SetupPageViewController, page.validateFields dates now = none →
      (NeverTraps dates now page ↔
        (trimmingCharacters page.zipCodeTextField).toList.length = 5 ∧
          (page.password ≠ "" ∨ page.credentials.isSome = true))) ∧
    ∀ (vc : EditProfilePage) (userID : String), vc.validateFields dates now = none →
      vc.editPressed = true →
      ((vc.saveChangesTapped dates now userID).trapped = false ↔
        (trimmingCharacters vc.zipCode).toList.length = 5 ∨ vc.pictureReady = false) := by
  refine ⟨fun page hvalid => neverTraps_iff hvalid, fun vc userID hvalid hedit => ?_⟩
  rw [← Bool.not_eq_true, EditProfilePage.trapped_saveChangesTapped_iff hedit hvalid, not_and_or,
    not_not, Bool.not_eq_true, or_comm]

/-! ### Ed's zip code -/

/-- The profile page filled in, with the given zip code. -/
def editing (zipCode : String) : EditProfilePage where
  firstName := "Ed"
  lastName := "Lee"
  dob := "01/31/1990"
  city := "Olympia"
  state := "WA"
  skills := "painting"
  zipCode := zipCode
  editPressed := true

theorem validForms_iff_fiveDigits :
    NeverTraps may2022 1651363200 (filledIn photo) ∧
      ((editing "98501").saveChangesTapped may2022 1651363200 "u1").trapped = false := by
  have hpage : (filledIn photo).validateFields may2022 1651363200 = none := by decide +kernel
  have hprofile : (editing "98501").validateFields may2022 1651363200 = none := by decide +kernel
  have hboth := validForms_iff may2022 1651363200
  exact ⟨(hboth.1 (filledIn photo) hpage).mpr ⟨by decide +kernel, Or.inl (by decide)⟩,
    (hboth.2 (editing "98501") "u1" hprofile rfl).mpr (Or.inl (by decide +kernel))⟩

/-- With nine digits both pages are valid, and both trap; the setup page has
created the account before. -/
theorem zipPlusFour_traps :
    (∃ s, exec (step may2022 1651363200)
        { page := { filledIn photo with zipCodeTextField := "98501-1234" } } succeeding.dropLast =
        some s ∧
      s.stage = .trapped ∧ (s.auth.accounts.lookup "ed@example.com").isSome = true) ∧
    { filledIn photo with zipCodeTextField := "98501-1234" }.validateFields may2022 1651363200 =
      none ∧
    (editing "98501-1234").validateFields may2022 1651363200 = none ∧
    ((editing "98501-1234").saveChangesTapped may2022 1651363200 "u1").trapped = true := by
  have hrun : (exec (step may2022 1651363200)
      { page := { filledIn photo with zipCodeTextField := "98501-1234" } }
      succeeding.dropLast).map (fun s => (match s.stage with | .trapped => true | _ => false,
        (s.auth.accounts.lookup "ed@example.com").isSome)) = some (true, true) := by
    decide +kernel
  obtain ⟨s, hs, hend⟩ := Option.map_eq_some_iff.mp hrun
  obtain ⟨hstage, haccount⟩ := Prod.mk.inj hend
  have htrapped : s.stage = .trapped := by
    split at hstage
    · assumption
    · exact absurd hstage (by simp)
  exact ⟨⟨s, hs, htrapped, haccount⟩, by decide +kernel, by decide +kernel, by decide +kernel⟩

end Tasker.Account
