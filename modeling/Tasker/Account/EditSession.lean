import Tasker.Account.Setup
import Tasker.Screens.EditProfile

/-!
A profile page from its opening on.

* `EditSession`, `EditEvent`, `step`: the page, the answers it waits for, and
  the taps of its user. A trap ends the session.
* `issued`: what an event issues; only a tap on the button issues requests.
* `PageOk`, `pageOk_step`: a page that shows a symbol has no link to write.
* `links_kept_iff`: without a new picture, the updates keep the stored link if
  and only if every tap that saves comes after the download of the picture.
-/

namespace Tasker

open EventSystem

/-- A profile page, whether it waits for the users document or for the picture,
and whether it has trapped. -/
structure EditSession where
  page : EditProfilePage := {}
  documentPending : Bool := true
  downloading : Bool := false
  trapped : Bool := false

/-- What can happen on a profile page. -/
inductive EditEvent where
  /-- The callback of `getDocument`. -/
  | document (answer : Fetched User)
  /-- The callback of `getData`: no data, or a picture or none from the data. -/
  | picture (answer : Option (Option UIImage))
  /-- The user changes the texts of the fields. -/
  | type (fields : EditProfileViewController)
  /-- The user picks a picture from the library. -/
  | pick (image : UIImage)
  | saveChangesTapped
  /-- The callback of `uploadData`, which is called on errors only. -/
  | uploadFailed (description : String)
  /-- The callback of `updateData`. -/
  | updated (error : Bool)

namespace EditSession

/-- The texts the user can change. -/
def typed (vc fields : EditProfileViewController) : EditProfileViewController :=
  { fields with
    country := vc.country
    bioExists := vc.bioExists
    skillsExists := vc.skillsExists
    picture := vc.picture }

/-- The callback of `getDocument`, which starts the download of the picture. -/
def documentArrived (s : EditSession) (answer : Fetched User) : EditSession :=
  match s.page.toEditProfileViewController.showUser answer with
  | some vc => { s with
      page := { s.page with toEditProfileViewController := vc }
      documentPending := false
      downloading := !vc.picture.isEmpty }
  | none => { s with trapped := true }

/-- The callback of `getData`; `data!` is unwrapped. -/
def pictureArrived (s : EditSession) : Option (Option UIImage) → EditSession
  | some picture => { s with
      page := { s.page with profilePic := picture }
      downloading := false }
  | none => { s with trapped := true }

/-- What an event does to a session. No picture from data or from the library is
a symbol. -/
def react (dates : Dates) (now : ℤ) (userID : String) (s : EditSession) :
    EditEvent → Option EditSession
  | .document answer => if s.documentPending then some (s.documentArrived answer) else none
  | .picture answer =>
      if s.downloading ∧ ∀ image ∈ answer.join, image.isSymbolImage = false then
        some (s.pictureArrived answer)
      else none
  | .type fields =>
      if s.page.editPressed then
        some { s with page := { s.page with
          toEditProfileViewController := typed s.page.toEditProfileViewController fields } }
      else none
  | .pick image =>
      if s.page.editPressed ∧ image.isSymbolImage = false then
        some { s with page := { s.page with profilePic := some image } }
      else none
  | .saveChangesTapped =>
      let result := s.page.saveChangesTapped dates now userID
      some { s with page := result.page, trapped := result.trapped }
  | .uploadFailed description =>
      some { s with page := { s.page with
        errorMessage := "Error in uploading picture, error code: " ++ description } }
  | .updated error =>
      some { s with page := { s.page with
        errorMessage :=
          if error then "Error saving user data." else "Info updated succesfully." } }

/-- One event; none after a trap. -/
def step (dates : Dates) (now : ℤ) (userID : String) (s : EditSession) (e : EditEvent) :
    Option EditSession :=
  if s.trapped then none else s.react dates now userID e

/-- The requests an event issues. -/
def issued (dates : Dates) (now : ℤ) (userID : String) (s : EditSession) :
    EditEvent → Option Data × Option ProfileEdit
  | .saveChangesTapped =>
      let result := s.page.saveChangesTapped dates now userID
      (result.upload, result.update)
  | _ => (none, none)

/-- Without a link, or linked to the user's picture and showing no symbol. -/
def PageOk (userID : String) (vc : EditProfilePage) : Prop :=
  vc.linkToImg = "" ∨
    vc.linkToImg = userID ∧ ∀ image ∈ vc.profilePic, image.isSymbolImage = false

variable {dates : Dates} {now : ℤ} {userID : String} {s s' : EditSession} {e : EditEvent}

/-- A page keeps its link while it shows no symbol. -/
lemma pageOk_step (h : PageOk userID s.page) (hs : step dates now userID s e = some s') :
    PageOk userID s'.page := by
  rw [step] at hs
  obtain ⟨-, hs⟩ := Option.ite_none_left_eq_some.mp hs
  cases e with
  | document answer =>
      obtain ⟨-, hs⟩ := Option.ite_none_right_eq_some.mp hs
      obtain rfl := Option.some.inj hs
      rw [documentArrived]
      split
      · exact h
      · exact h
  | picture answer =>
      obtain ⟨⟨-, hphoto⟩, hs⟩ := Option.ite_none_right_eq_some.mp hs
      obtain rfl := Option.some.inj hs
      cases answer with
      | none => exact h
      | some picture => exact h.imp_right fun h => ⟨h.1, hphoto⟩
  | type fields =>
      obtain ⟨-, hs⟩ := Option.ite_none_right_eq_some.mp hs
      obtain rfl := Option.some.inj hs
      exact h
  | pick image =>
      obtain ⟨⟨-, hphoto⟩, hs⟩ := Option.ite_none_right_eq_some.mp hs
      obtain rfl := Option.some.inj hs
      refine h.imp_right fun h => ⟨h.1, fun image' himage => ?_⟩
      exact Option.some.inj himage ▸ hphoto
  | saveChangesTapped =>
      obtain rfl := Option.some.inj hs
      obtain ⟨hpic, hlink⟩ : (s.page.saveChangesTapped dates now userID).page.profilePic = _ ∧ _ :=
        EditProfilePage.saveChangesTapped_page
      rw [PageOk, hpic]
      rcases hlink with hlink | ⟨hlink, hphoto⟩
      · rw [hlink]
        exact h
      · exact Or.inr ⟨hlink, hphoto⟩
  | uploadFailed description =>
      obtain rfl := Option.some.inj hs
      exact h
  | updated error =>
      obtain rfl := Option.some.inj hs
      exact h

/-- An update with a link comes with an upload, and links the user's picture. -/
lemma issued_link (h : PageOk userID s.page) {p : ProfileEdit}
    (hp : (issued dates now userID s e).2 = some p) (hlink : p.linkToImg ≠ "") :
    p.linkToImg = userID ∧ ∃ imageData, (issued dates now userID s e).1 = some imageData := by
  cases e with
  | saveChangesTapped =>
      obtain ⟨-, -, -, image, hpic, ⟨hsymbol, hsame⟩ | ⟨-, huser, hupload⟩⟩ :=
        EditProfilePage.saveChangesTapped_update hp
      · rcases h with hempty | ⟨-, hphoto⟩
        · exact absurd (hsame.trans hempty) hlink
        · exact absurd (hsymbol.symm.trans (hphoto image hpic)) (by simp)
      · exact ⟨huser, hupload⟩
  | document answer => exact absurd hp (by simp [issued])
  | picture answer => exact absurd hp (by simp [issued])
  | type fields => exact absurd hp (by simp [issued])
  | pick image => exact absurd hp (by simp [issued])
  | uploadFailed description => exact absurd hp (by simp [issued])
  | updated error => exact absurd hp (by simp [issued])

/-! ### The link of the updates -/

/-- A tap that saves does so while a picture that is no symbol is shown, and the
stored link is the user's. -/
def ShowsStored (dates : Dates) (now : ℤ) (userID link : String) (s : EditSession) :
    EditEvent → Prop
  | .saveChangesTapped => s.page.editPressed = true →
      s.page.validateFields dates now = none → s.page.pictureReady = true →
      (trimmingCharacters s.page.zipCode).toList.length = 5 →
      link = userID ∧ ∀ image ∈ s.page.profilePic, image.isSymbolImage = false
  | _ => True

/-- The update an event issues, if any, has the link. -/
def KeepsLink (dates : Dates) (now : ℤ) (userID link : String) (s : EditSession)
    (e : EditEvent) : Prop :=
  ∀ p, (issued dates now userID s e).2 = some p → p.linkToImg = link

/-- An update keeps the stored link exactly if the picture is there. -/
lemma keepsLink_iff {link : String} (hlink : link ≠ "") (h : PageOk userID s.page) :
    KeepsLink dates now userID link s e ↔ ShowsStored dates now userID link s e := by
  cases e with
  | saveChangesTapped =>
      constructor
      · intro hkeep hedit hvalid hready hlen
        have hsome : (s.page.saveChangesTapped dates now userID).update.isSome :=
          EditProfilePage.update_saveChangesTapped_isSome_iff.mpr ⟨hedit, hvalid, hready, hlen⟩
        obtain ⟨p, hp⟩ := Option.isSome_iff_exists.mp hsome
        have hp' := hkeep p hp
        obtain ⟨huser, -⟩ := issued_link (e := .saveChangesTapped) h hp (hp' ▸ hlink)
        obtain ⟨-, -, -, image, hpic, ⟨hsymbol, hsame⟩ | ⟨hphoto, -⟩⟩ :=
          EditProfilePage.saveChangesTapped_update hp
        · rcases h with hempty | ⟨-, hphoto⟩
          · exact absurd (hp'.symm.trans (hsame.trans hempty)) hlink
          · exact absurd (hsymbol.symm.trans (hphoto image hpic)) (by simp)
        · refine ⟨hp'.symm.trans huser, fun image' himage => ?_⟩
          obtain rfl := Option.some.inj (hpic.symm.trans himage)
          exact hphoto
      · intro hshows p hp
        obtain ⟨hedit, hvalid, hready, hlen⟩ :=
          EditProfilePage.update_saveChangesTapped_isSome_iff.mp
            (Option.isSome_iff_exists.mpr ⟨p, hp⟩)
        obtain ⟨huser, hphotos⟩ := hshows hedit hvalid hready hlen
        obtain ⟨-, -, -, image, hpic, ⟨hsymbol, -⟩ | ⟨-, hlinked, -⟩⟩ :=
          EditProfilePage.saveChangesTapped_update hp
        · exact absurd (hsymbol.symm.trans (hphotos image hpic)) (by simp)
        · exact hlinked.trans huser.symm
  | document answer => exact iff_of_true (fun p hp => absurd hp (by simp [issued])) trivial
  | picture answer => exact iff_of_true (fun p hp => absurd hp (by simp [issued])) trivial
  | type fields => exact iff_of_true (fun p hp => absurd hp (by simp [issued])) trivial
  | pick image => exact iff_of_true (fun p hp => absurd hp (by simp [issued])) trivial
  | uploadFailed description => exact iff_of_true (fun p hp => absurd hp (by simp [issued])) trivial
  | updated error => exact iff_of_true (fun p hp => absurd hp (by simp [issued])) trivial

/-- **The picture of a profile**: the updates of a profile page keep the link of
a users document, whatever is answered and typed, if and only if at every tap
that saves a picture is shown that is no symbol, and the link is the user's. -/
theorem keepsLink_iff_showsStored {user : User} {link : String} {es : List EditEvent}
    (hlink : user.profilePicLink = some link ∧ link ≠ "")
    (h : exec (step dates now userID) {} es = some s) :
    EachStep (step dates now userID) (fun s e => ∀ p, (issued dates now userID s e).2 = some p →
        some p.linkToImg = user.profilePicLink) {} es ↔
      EachStep (step dates now userID) (ShowsStored dates now userID link) {} es := by
  have hkeep : ∀ s e s', PageOk userID s.page → step dates now userID s e = some s' →
      PageOk userID s'.page := fun _ _ _ hs he => pageOk_step hs he
  refine eachStep_congr (J := fun s => PageOk userID s.page) hkeep (fun s e s' hs _ => ?_)
    (Or.inl rfl) h
  rw [← keepsLink_iff hlink.2 hs, hlink.1]
  exact forall_congr' fun p => imp_congr_right fun _ => Option.some_inj

/-! ### Ed -/

/-- The users document of Ed, with a picture. -/
def edsDocument : User :=
  setUserData {
    email := "ed@example.com", skills := "painting", picTemp := "u1", firstName := "Ed"
    lastName := "Lee", dateOfBirth := "01/31/1990", city := "Olympia", street := "1 Main St"
    zipCode := 98501, bio := "", state := "WA" } "u1"

/-- The document arrives, and Ed edits and saves. -/
def saving : List EditEvent :=
  [.document (.document edsDocument), .saveChangesTapped, .saveChangesTapped]

/-- The picture arrives before Ed edits and saves. -/
def savingLater : List EditEvent :=
  [.document (.document edsDocument), .picture (some (some Account.photo)), .saveChangesTapped,
    .saveChangesTapped]

theorem keepsLink_iff_showsStored_savingLater : ∃ s,
    exec (step Account.may2022 1651363200 "u1") {} savingLater = some s ∧
    edsDocument.profilePicLink = some "u1" ∧
    (EachStep (step Account.may2022 1651363200 "u1")
        (fun s e => ∀ p, (issued Account.may2022 1651363200 "u1" s e).2 = some p →
          some p.linkToImg = edsDocument.profilePicLink) {} savingLater ↔
      EachStep (step Account.may2022 1651363200 "u1")
        (ShowsStored Account.may2022 1651363200 "u1" "u1") {} savingLater) := by
  have hrun : (exec (step Account.may2022 1651363200 "u1") {} savingLater).isSome = true := by
    decide +kernel
  obtain ⟨s, hs⟩ := Option.isSome_iff_exists.mp hrun
  have hlink : edsDocument.profilePicLink = some "u1" := rfl
  exact ⟨s, hs, hlink, keepsLink_iff_showsStored ⟨hlink, by decide⟩ hs⟩

/-- Ed saves before his picture has arrived, and its link is erased. -/
theorem saving_erases : ∃ s p,
    exec (step Account.may2022 1651363200 "u1") {}
      [.document (.document edsDocument), .saveChangesTapped] = some s ∧
    edsDocument.profilePicLink = some "u1" ∧ s.downloading = true ∧
    (issued Account.may2022 1651363200 "u1" s .saveChangesTapped).2 = some p ∧
    p.linkToImg = "" ∧
    ¬ EachStep (step Account.may2022 1651363200 "u1")
      (fun s e => ∀ p, (issued Account.may2022 1651363200 "u1" s e).2 = some p →
        some p.linkToImg = edsDocument.profilePicLink) {} saving := by
  have hrun : (exec (step Account.may2022 1651363200 "u1") {}
      [.document (.document edsDocument), .saveChangesTapped]).map (fun s =>
        (s.downloading, (issued Account.may2022 1651363200 "u1" s .saveChangesTapped).2.map
          ProfileEdit.linkToImg)) = some (true, some "") := by decide +kernel
  obtain ⟨s, hs, hend⟩ := Option.map_eq_some_iff.mp hrun
  obtain ⟨hdownloading, hissued⟩ := Prod.mk.inj hend
  obtain ⟨p, hp, hempty⟩ := Option.map_eq_some_iff.mp hissued
  refine ⟨s, p, hs, rfl, hdownloading, hp, hempty, fun hall => ?_⟩
  obtain ⟨t, ht, hs'⟩ := exec_cons_eq_some.mp hs
  obtain ⟨t', ht', hs''⟩ := exec_cons_eq_some.mp hs'
  obtain rfl := Option.some.inj hs''
  have hkept := ((hall.2 t ht).2 t' ht').1 p hp
  rw [hempty] at hkept
  exact absurd hkept (by decide)

end EditSession

end Tasker
