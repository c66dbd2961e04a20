import Tasker.Account.ValidForms

/-!
Zip codes, from a form to the users document and back.

The setup page and the profile page store the integer of the text, and the
profile page shows the integer stored.

* `ShowsAgain`: the profile page shows the text stored, and takes it.
* `zipCode_roundTrip_iff`: for a text of five digits, stored by either page, it
  does so if and only if the text does not start with a zero;
  `leadingZero_refused` is a text that does.
-/

namespace Tasker.Account

/-- The profile page shows the text `t` as the zip code, and takes it. -/
def ShowsAgain (t : String) (vc : EditProfileViewController) : Prop :=
  vc.zipCode = t ∧ isZipCodeValid (trimmingCharacters vc.zipCode) = true

/-- The profile page shows the zip code of a complete address. -/
lemma exists_showUser (vc : EditProfileViewController) {d : User} {a : Address}
    (ha : d.address = some a) (hcomplete : a.Complete) : ∃ loaded,
      vc.showUser (.document d) = some loaded ∧ loaded.zipCode = toString (a.zipcode.getD 0) := by
  obtain ⟨city, hcity⟩ := Option.isSome_iff_exists.mp hcomplete.city
  obtain ⟨state, hstate⟩ := Option.isSome_iff_exists.mp hcomplete.state
  obtain ⟨street, hstreet⟩ := Option.isSome_iff_exists.mp hcomplete.streetAddress
  obtain ⟨country, hcountry⟩ := Option.isSome_iff_exists.mp hcomplete.country
  rw [EditProfileViewController.showUser, ha, Option.bind_some, Option.bind_some, Option.bind_some,
    Option.bind_some, hcity, hstate, hstreet, hcountry]
  exact ⟨_, rfl, rfl⟩

/-- A page that shows the integer of an accepted text. -/
lemma showsAgain_iff {t : String} {n : ℤ} {vc : EditProfileViewController}
    (h : isZipCodeValid t = true) (hlen : t.toList.length = 5) (hn : int t = some n)
    (hshown : vc.zipCode = toString n) : ShowsAgain t vc ↔ t.toList.head? ≠ some '0' := by
  obtain ⟨n', hn', hiff⟩ := toString_zipCode_iff h hlen
  obtain rfl := Option.some.inj (hn.symm.trans hn')
  rw [ShowsAgain, hshown]
  exact hiff

/-- **The round trip of a zip code**: a text of five digits, stored by the setup
page or by the profile page, is shown again by the profile page and taken if and
only if it does not start with a zero. `page'` is the setup page as the last
callback finds it. -/
theorem zipCode_roundTrip_iff (dates : Dates) (now : ℤ) (userID : String)
    (vc : EditProfileViewController) :
    (∀ page page' : SetupPageViewController, page.validateFields dates now = none →
      (trimmingCharacters page.zipCodeTextField).toList.length = 5 → ∃ form r loaded,
        page.cleaned dates = some form ∧ page'.registration form = some r ∧
        vc.showUser (.document (setUserData r userID)) = some loaded ∧
        (ShowsAgain (trimmingCharacters page.zipCodeTextField) loaded ↔
          (trimmingCharacters page.zipCodeTextField).toList.head? ≠ some '0')) ∧
    ∀ (page : EditProfilePage) (d : User), page.editPressed = true →
      page.validateFields dates now = none → page.pictureReady = true →
      (trimmingCharacters page.zipCode).toList.length = 5 → ∃ p loaded,
        (page.saveChangesTapped dates now userID).update = some p ∧
        vc.showUser (.document (DocStore.Document.updateFields (updateUserInfo p) d)) =
          some loaded ∧
        (ShowsAgain (trimmingCharacters page.zipCode) loaded ↔
          (trimmingCharacters page.zipCode).toList.head? ≠ some '0') := by
  constructor
  · intro page page' hvalid hlen
    obtain ⟨hzip, form, hform, hzipCode⟩ := SetupPageViewController.cleaned_of_valid hvalid
    obtain ⟨n, hn⟩ := Option.isSome_iff_exists.mp ((int_zipCode hzip).mpr hlen)
    obtain ⟨r, hr, hrn⟩ : ∃ r, page'.registration form = some r ∧ r.zipCode = n := by
      rw [SetupPageViewController.registration, hzipCode, hn]
      exact ⟨_, rfl, rfl⟩
    obtain ⟨a, ha, hcomplete⟩ := (setUserData_complete r userID).address
    obtain ⟨loaded, hloaded, hshown⟩ := exists_showUser vc ha hcomplete
    have hstored : a.zipcode = some n := by
      rw [← hrn, ← Option.some.inj ha]
    rw [hstored, Option.getD_some] at hshown
    exact ⟨form, r, loaded, hform, hr, hloaded, showsAgain_iff hzip hlen hn hshown⟩
  · intro page d hedit hvalid hready hlen
    have hzip := (EditProfilePage.of_validateFields_eq_none hvalid).2
    obtain ⟨p, hp⟩ := Option.isSome_iff_exists.mp
      (EditProfilePage.update_saveChangesTapped_isSome_iff.mpr ⟨hedit, hvalid, hready, hlen⟩)
    obtain ⟨-, -, hn, -⟩ := EditProfilePage.saveChangesTapped_update hp
    obtain ⟨loaded, hloaded, hshown⟩ := exists_showUser vc
      (show (DocStore.Document.updateFields (updateUserInfo p) d).address = _ from rfl)
      (updateUserInfo_address rfl)
    exact ⟨p, loaded, hp, hloaded, showsAgain_iff hzip hlen hn hshown⟩

/-! ### Two zip codes -/

theorem zipCode_roundTrip_iff_olympia :
    (∃ form r loaded, (filledIn photo).cleaned may2022 = some form ∧
      (filledIn photo).registration form = some r ∧
      EditProfileViewController.showUser {} (.document (setUserData r "u1")) = some loaded ∧
      ShowsAgain "98501" loaded) ∧
    ∃ p loaded, ((editing "98501").saveChangesTapped may2022 1651363200 "u1").update = some p ∧
      EditProfileViewController.showUser {} (.document
        (DocStore.Document.updateFields (updateUserInfo p) default)) = some loaded ∧
      ShowsAgain "98501" loaded := by
  have htrim : trimmingCharacters "98501" = "98501" := by decide +kernel
  have hpage : (filledIn photo).validateFields may2022 1651363200 = none := by decide +kernel
  have hprofile : (editing "98501").validateFields may2022 1651363200 = none := by decide +kernel
  obtain ⟨hsetup, hedit⟩ := zipCode_roundTrip_iff may2022 1651363200 "u1" {}
  obtain ⟨form, r, loaded, hform, hr, hloaded, hiff⟩ :=
    hsetup (filledIn photo) (filledIn photo) hpage (by decide +kernel)
  obtain ⟨p, loaded', hp, hloaded', hiff'⟩ :=
    hedit (editing "98501") default rfl hprofile rfl (by decide +kernel)
  rw [show (filledIn photo).zipCodeTextField = "98501" from rfl, htrim] at hiff
  rw [show (editing "98501").zipCode = "98501" from rfl, htrim] at hiff'
  exact ⟨⟨form, r, loaded, hform, hr, hloaded, hiff.mpr (by decide)⟩,
    p, loaded', hp, hloaded', hiff'.mpr (by decide)⟩

/-- Ed registers in Boston. -/
def boston : SetupPageViewController :=
  { filledIn photo with
    cityTextField := "Boston", stateTextField := "MA", zipCodeTextField := "02134" }

/-- His profile page shows four digits, and does not let him save anything. -/
theorem leadingZero_refused : ∃ form r loaded,
    boston.validateFields may2022 1651363200 = none ∧ boston.cleaned may2022 = some form ∧
    boston.registration form = some r ∧
    EditProfileViewController.showUser {} (.document (setUserData r "u1")) = some loaded ∧
    loaded.zipCode = "2134" ∧
    EditProfilePage.validateFields may2022 1651363200 { loaded with editPressed := true } =
      some "The zip code you entered was not valid\n(must be a 5 digit U.S. zip code)" ∧
    ¬ ShowsAgain "02134" loaded := by
  have hvalid : boston.validateFields may2022 1651363200 = none := by decide +kernel
  have hrun : (boston.cleaned may2022).bind (fun form => (boston.registration form).bind fun r =>
      (EditProfileViewController.showUser {} (.document (setUserData r "u1"))).map fun loaded =>
        (loaded.zipCode, EditProfilePage.validateFields may2022 1651363200
          { loaded with editPressed := true })) =
      some ("2134",
        some "The zip code you entered was not valid\n(must be a 5 digit U.S. zip code)") := by
    decide +kernel
  obtain ⟨form, hform, hrun⟩ := Option.bind_eq_some_iff.mp hrun
  obtain ⟨r, hr, hrun⟩ := Option.bind_eq_some_iff.mp hrun
  obtain ⟨loaded, hloaded, hend⟩ := Option.map_eq_some_iff.mp hrun
  obtain ⟨hshown, hrefused⟩ := Prod.mk.inj hend
  refine ⟨form, r, loaded, hvalid, hform, hr, hloaded, hshown, hrefused, fun hagain => ?_⟩
  exact absurd (hshown.symm.trans hagain.1) (by decide)

end Tasker.Account
