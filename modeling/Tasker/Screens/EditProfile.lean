import Tasker.Screens.Registration

/-!
The profile page in use.

* `EditProfilePage`: the texts of `EditProfileViewController` with the picture
  shown, the link to be written, and whether the fields can be edited.
* `validateFields`, `cleaned`, `saveChangesTapped`: the button that starts the
  editing and then saves. `SaveResult` is what a tap issues: the upload of the
  picture shown, unless it is a symbol, and the update of the users document.
* `saveChangesTapped_update`: what an update takes, and its link.
* `update_saveChangesTapped_isSome_iff`, `trapped_saveChangesTapped_iff`: when a
  tap issues an update, and when it traps.
-/

namespace Tasker

/-- `EditProfileViewController`; the picture in its nib is a symbol. -/
structure EditProfilePage extends EditProfileViewController where
  editPressed : Bool := false
  profilePic : Option UIImage := some { isSymbolImage := true }
  linkToImg : String := ""
  errorMessage : String := ""
  deriving DecidableEq, Repr

/-- The page after a tap, the requests it issues, and whether it traps. -/
structure SaveResult where
  page : EditProfilePage
  upload : Option Data := none
  update : Option ProfileEdit := none
  trapped : Bool := false

namespace EditProfilePage

/-- `validateFields`. -/
def validateFields (dates : Dates) (now : ℤ) (vc : EditProfilePage) : Option String :=
  if trimmingCharacters vc.firstName = "" ∨ trimmingCharacters vc.lastName = "" ∨
      trimmingCharacters vc.dob = "" ∨ trimmingCharacters vc.city = "" ∨
      trimmingCharacters vc.state = "" ∨ trimmingCharacters vc.skills = "" ∨
      trimmingCharacters vc.zipCode = "" then
    some "Please fill in all required fields."
  else if isAgeValid dates now (trimmingCharacters vc.dob) = false then
    some "Please enter a valid date of birth\n(must be 18 years or older)"
  else if isZipCodeValid (trimmingCharacters vc.zipCode) = false then
    some "The zip code you entered was not valid\n(must be a 5 digit U.S. zip code)"
  else if vc.phoneNumber.toList.all isDecimalDigit = false then
    some "The phone number you entered was not valid\n(Phone number should be digits only)"
  else none

/-- The text for no bio, and for no skills. -/
def orEmpty (placeholder text : String) : String :=
  if trimmingCharacters text = placeholder then "" else trimmingCharacters text

/-- The cleaned data of `saveChangesTapped`; it traps if the date of birth is no
date or the zip code no integer. -/
def cleaned (dates : Dates) (vc : EditProfilePage) : Option ProfileEdit :=
  (dates.date (trimmingCharacters vc.dob)).bind fun dateConversion =>
    (int (trimmingCharacters vc.zipCode)).map fun zip => {
      fname := trimmingCharacters vc.firstName
      lname := trimmingCharacters vc.lastName
      dateb := dates.string dateConversion
      city := vc.city
      country := vc.country
      street := vc.street
      state := vc.state
      zip := zip
      bio := orEmpty "You currently do not have a bio, add one to tell people more about you!"
        vc.bioTextfield
      skills := orEmpty
        "You currently do not have skills added, add one to tell people more about you!" vc.skills
      phone := vc.phoneNumber
      linkToImg := vc.linkToImg }

/-- `saveChangesTapped` from the cleaning of the data on, the picture being
uploaded. -/
def save (dates : Dates) (upload : Option Data) (vc : EditProfilePage) : SaveResult :=
  match vc.cleaned dates with
  | some edit => { page := { vc with editPressed := false }, upload := upload, update := some edit }
  | none => { page := vc, upload := upload, trapped := true }

/-- `saveChangesTapped` with valid fields. -/
def saveValid (dates : Dates) (userID : String) (vc : EditProfilePage) : SaveResult :=
  match vc.profilePic with
  | none => { page := vc }
  | some image =>
      if image.isSymbolImage then vc.save dates none
      else
        match image.jpegData with
        | none => { page := vc }
        | some imageData => { vc with linkToImg := userID }.save dates (some imageData)

/-- `saveChangesTapped` of the user `userID`. -/
def saveChangesTapped (dates : Dates) (now : ℤ) (userID : String) (vc : EditProfilePage) :
    SaveResult :=
  if vc.editPressed then
    match vc.validateFields dates now with
    | some error => { page := { vc with errorMessage := error } }
    | none => { vc with errorMessage := "" }.saveValid dates userID
  else { page := { vc with editPressed := true } }

variable {dates : Dates} {now : ℤ} {userID : String} {vc : EditProfilePage} {p : ProfileEdit}

/-! ### What a tap does -/

/-- Valid fields hold a date of birth and a zip code of the accepted form. -/
lemma of_validateFields_eq_none (h : vc.validateFields dates now = none) :
    (∃ d, dates.date (trimmingCharacters vc.dob) = some d) ∧
      isZipCodeValid (trimmingCharacters vc.zipCode) = true := by
  rw [validateFields] at h
  split_ifs at h with _ hage hzip
  exact ⟨date_of_isAgeValid (Bool.of_not_eq_false hage), Bool.of_not_eq_false hzip⟩

/-- Valid fields are cleaned if and only if the zip code is an integer. -/
lemma cleaned_isSome_iff (h : vc.validateFields dates now = none) :
    (vc.cleaned dates).isSome ↔ (trimmingCharacters vc.zipCode).toList.length = 5 := by
  obtain ⟨⟨d, hd⟩, hzip⟩ := of_validateFields_eq_none h
  rw [cleaned, hd, Option.bind_some, Option.isSome_map, int_zipCode hzip]

/-- The cleaned data keep the link and the integer of the zip code. -/
lemma cleaned_eq_some (h : vc.cleaned dates = some p) :
    p.linkToImg = vc.linkToImg ∧ int (trimmingCharacters vc.zipCode) = some p.zip := by
  obtain ⟨d, -, h⟩ := Option.bind_eq_some_iff.mp h
  obtain ⟨zip, hzip, rfl⟩ := Option.map_eq_some_iff.mp h
  exact ⟨rfl, hzip⟩

lemma save_upload (upload : Option Data) : (vc.save dates upload).upload = upload := by
  rw [save]
  split <;> rfl

lemma save_update (upload : Option Data) : (vc.save dates upload).update = vc.cleaned dates := by
  rw [save]
  split
  · next h => exact h.symm
  · next h => exact h.symm

lemma save_trapped (upload : Option Data) :
    (vc.save dates upload).trapped = (vc.cleaned dates).isNone := by
  rw [save]
  split
  · next h => rw [h]; rfl
  · next h => rw [h]; rfl

/-- An update with valid fields: a symbol leaves the link as it is, any other
picture is uploaded and linked. -/
lemma saveValid_update (h : (vc.saveValid dates userID).update = some p) :
    int (trimmingCharacters vc.zipCode) = some p.zip ∧ ∃ image, vc.profilePic = some image ∧
      (image.isSymbolImage = true ∧ p.linkToImg = vc.linkToImg ∨
        image.isSymbolImage = false ∧ p.linkToImg = userID ∧
          ∃ imageData, (vc.saveValid dates userID).upload = some imageData) := by
  rw [saveValid] at h ⊢
  split at h
  · exact absurd h (by simp)
  · next image hpic =>
      simp only [hpic]
      split at h
      · next hsymbol =>
          rw [save_update] at h
          obtain ⟨hlink, hzip⟩ := cleaned_eq_some h
          exact ⟨hzip, image, rfl, Or.inl ⟨hsymbol, hlink⟩⟩
      · next hsymbol =>
          rw [if_neg hsymbol]
          split at h
          · exact absurd h (by simp)
          · next imageData hdata =>
              rw [save_update] at h
              obtain ⟨hlink, hzip⟩ := cleaned_eq_some h
              exact ⟨hzip, image, rfl,
                Or.inr ⟨Bool.eq_false_of_not_eq_true hsymbol, hlink, imageData, save_upload _⟩⟩

/-- An update comes from a tap on valid fields under edit, with a picture. -/
lemma saveChangesTapped_update (h : (vc.saveChangesTapped dates now userID).update = some p) :
    vc.editPressed = true ∧ vc.validateFields dates now = none ∧
      int (trimmingCharacters vc.zipCode) = some p.zip ∧ ∃ image, vc.profilePic = some image ∧
      (image.isSymbolImage = true ∧ p.linkToImg = vc.linkToImg ∨
        image.isSymbolImage = false ∧ p.linkToImg = userID ∧
          ∃ imageData, (vc.saveChangesTapped dates now userID).upload = some imageData) := by
  rw [saveChangesTapped] at h ⊢
  split at h
  · next hedit =>
      split at h
      · exact absurd h (by simp)
      · next hvalid =>
          rw [if_pos hedit]
          exact ⟨hedit, hvalid, saveValid_update h⟩
  · exact absurd h (by simp)

lemma save_page (upload : Option Data) : (vc.save dates upload).page.profilePic = vc.profilePic ∧
    (vc.save dates upload).page.linkToImg = vc.linkToImg := by
  rw [save]
  split <;> exact ⟨rfl, rfl⟩

/-- Saving leaves the picture, and links it only if it is no symbol. -/
lemma saveValid_page : (vc.saveValid dates userID).page.profilePic = vc.profilePic ∧
    ((vc.saveValid dates userID).page.linkToImg = vc.linkToImg ∨
      (vc.saveValid dates userID).page.linkToImg = userID ∧
        ∀ image, vc.profilePic = some image → image.isSymbolImage = false) := by
  rw [saveValid]
  split
  · exact ⟨rfl, Or.inl rfl⟩
  · next image hpic =>
      split
      · exact ⟨(save_page _).1, Or.inl (save_page _).2⟩
      · next hsymbol =>
          split
          · exact ⟨rfl, Or.inl rfl⟩
          · refine ⟨(save_page _).1, Or.inr ⟨(save_page _).2, fun image' heq => ?_⟩⟩
            rw [← Option.some.inj (hpic.symm.trans heq)]
            exact Bool.eq_false_of_not_eq_true hsymbol

/-- So does a tap. -/
lemma saveChangesTapped_page :
    (vc.saveChangesTapped dates now userID).page.profilePic = vc.profilePic ∧
      ((vc.saveChangesTapped dates now userID).page.linkToImg = vc.linkToImg ∨
        (vc.saveChangesTapped dates now userID).page.linkToImg = userID ∧
          ∀ image, vc.profilePic = some image → image.isSymbolImage = false) := by
  rw [saveChangesTapped]
  split
  · split
    · exact ⟨rfl, Or.inl rfl⟩
    · exact saveValid_page
  · exact ⟨rfl, Or.inl rfl⟩

/-- The picture shown lets the saving go on. -/
def pictureReady (vc : EditProfilePage) : Bool :=
  match vc.profilePic with
  | none => false
  | some image => image.isSymbolImage || image.jpegData.isSome

/-- Without a picture, saving stops before the data are cleaned. -/
lemma saveValid_eq_of_not_pictureReady (h : vc.pictureReady = false) :
    vc.saveValid dates userID = { page := vc } := by
  rw [saveValid]
  split
  · rfl
  · next image hpic =>
      obtain ⟨hsymbol, hdata⟩ : image.isSymbolImage = false ∧ image.jpegData = none := by
        simpa [pictureReady, hpic] using h
      rw [hsymbol, hdata]
      rfl

/-- With a picture the data are cleaned. -/
lemma saveValid_eq_of_pictureReady (h : vc.pictureReady = true) :
    ∃ link upload, vc.saveValid dates userID = { vc with linkToImg := link }.save dates upload := by
  rw [saveValid]
  split
  · next hpic => simp [pictureReady, hpic] at h
  · next image hpic =>
      split
      · exact ⟨vc.linkToImg, none, rfl⟩
      · next hsymbol =>
          split
          · next hdata => simp [pictureReady, hpic, hsymbol, hdata] at h
          · next imageData _ => exact ⟨userID, some imageData, rfl⟩

/-- What becomes of valid fields. -/
lemma saveValid_update_trapped (hvalid : vc.validateFields dates now = none) :
    ((vc.saveValid dates userID).update.isSome ↔
      vc.pictureReady = true ∧ (trimmingCharacters vc.zipCode).toList.length = 5) ∧
    ((vc.saveValid dates userID).trapped = true ↔
      vc.pictureReady = true ∧ (trimmingCharacters vc.zipCode).toList.length ≠ 5) := by
  cases hready : vc.pictureReady with
  | false =>
      rw [saveValid_eq_of_not_pictureReady hready]
      simp
  | true =>
      obtain ⟨link, upload, heq⟩ : ∃ link upload, vc.saveValid dates userID =
          { vc with linkToImg := link }.save dates upload := saveValid_eq_of_pictureReady hready
      have hlinked : ({ vc with linkToImg := link }).validateFields dates now = none := hvalid
      rw [heq, save_update, save_trapped, Option.isNone_iff_eq_none,
        ← Option.not_isSome_iff_eq_none,
        cleaned_isSome_iff hlinked, and_iff_right rfl, and_iff_right rfl]
      exact ⟨Iff.rfl, Iff.rfl⟩

/-- A tap issues an update if and only if valid fields are under edit, there is a
picture, and the zip code text is one of five characters. -/
lemma update_saveChangesTapped_isSome_iff :
    (vc.saveChangesTapped dates now userID).update.isSome ↔
      vc.editPressed = true ∧ vc.validateFields dates now = none ∧ vc.pictureReady = true ∧
        (trimmingCharacters vc.zipCode).toList.length = 5 := by
  rw [saveChangesTapped]
  split
  · next hedit =>
      split
      · next hvalid => simp [hvalid]
      · next hvalid =>
          have hvalid' : ({ vc with errorMessage := "" }).validateFields dates now = none := hvalid
          rw [(saveValid_update_trapped hvalid').1]
          exact ⟨fun h => ⟨hedit, hvalid, h⟩, fun h => h.2.2⟩
  · next hedit => simp [hedit]

/-- With valid fields under edit, a tap traps if and only if there is a picture
and the zip code text is not one of five characters. -/
lemma trapped_saveChangesTapped_iff (hedit : vc.editPressed = true)
    (hvalid : vc.validateFields dates now = none) :
    (vc.saveChangesTapped dates now userID).trapped = true ↔
      vc.pictureReady = true ∧ (trimmingCharacters vc.zipCode).toList.length ≠ 5 := by
  have hvalid' : ({ vc with errorMessage := "" }).validateFields dates now = none := hvalid
  rw [saveChangesTapped, if_pos hedit, hvalid]
  exact (saveValid_update_trapped hvalid').2

end EditProfilePage

end Tasker
