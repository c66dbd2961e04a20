import Tasker.Account.EditSession

/-!
Profile pictures: the users documents that link them, and the storage that holds
them.

* `getData`, `loadPicture`: what the four pages do that show a picture.
* `State`, `Event`, `step`: registrations and profile pages of any users, and
  the requests they start, which finish in any order, successfully or not.
* `Unspoilt`: the picture stored is one the pages can load, and the upload of a
  profile page does not fail unless an object of its user is stored or another
  upload is on its way.
* `PictureInv`, `pictureInv_step`: a link is promised, by an object or by an
  upload on its way.
* `links_resolve`: in the runs whose steps are all unspoilt, every link resolves
  when all requests have finished.
-/

namespace Tasker

open DocStore EventSystem

/-! ### What the pages show -/

/-- `1 * 1024 * 1024`, the most bytes the pages load. -/
def maxSize : ℕ := 1 * 1024 * 1024

/-- `getData(maxSize:)` of the object `UserPictures/<link>`, while the network is
up. -/
def getData (pictures : Collection String Data) (link : String) (maxSize : ℕ) : Option Data :=
  (pictures.lookup link).filter fun data => data.length ≤ maxSize

/-- The picture of a page that shows `shown` so far, once the document is there;
`data!` is unwrapped, and `decode` is `UIImage(data:)`. -/
def loadPicture (decode : Data → Option UIImage) (pictures : Collection String Data) (user : User)
    (shown : Option UIImage) : Option (Option UIImage) :=
  let profilepicURL := user.profilePicLink.getD ""
  if profilepicURL.isEmpty then some shown
  else (getData pictures profilepicURL maxSize).map decode

/-- `HomeExplorePageViewController.viewWillAppear`. -/
def HomeExplorePageViewController.loadPicture := Tasker.loadPicture

/-- `EmployeeExplorePageViewController.viewDidLoad`. -/
def EmployeeMenu.loadPicture := Tasker.loadPicture

/-- `EditProfileViewController.viewDidLoad`. -/
def EditProfileViewController.loadPicture := Tasker.loadPicture

/-- `PublicProfileViewController.viewWillAppear`. -/
def PublicProfileViewController.loadPicture := Tasker.loadPicture

/-- The object is there, and small enough. -/
def Loadable (pictures : Collection String Data) (link : String) : Prop :=
  ∃ data, pictures.lookup link = some data ∧ data.length ≤ maxSize

/-- No page traps on a picture that can be loaded. -/
lemma Loadable.loadPicture {pictures : Collection String Data} {user : User}
    (h : Loadable pictures (user.profilePicLink.getD "")) (decode : Data → Option UIImage)
    (shown : Option UIImage) : (loadPicture decode pictures user shown).isSome := by
  obtain ⟨data, hdata, hlen⟩ := h
  rw [Tasker.loadPicture]
  split
  · rfl
  · rw [getData, hdata, Option.filter_some_pos (by simpa using hlen)]
    rfl

namespace Pictures

/-! ### Registrations and profile pages -/

/-- A request on its way. -/
inductive Request where
  /-- `putData` of the setup page. -/
  | putData (userID : String) (imageData : Data) (page : SetupPageViewController)
      (form : SetupForm)
  /-- `setData` of `setUserData`. -/
  | setData (userID : String) (r : Registration)
  /-- `uploadData` of a profile page. -/
  | uploadData (userID : String) (imageData : Data)
  /-- `updateData` of `updateUserInfo`. -/
  | updateData (userID : String) (edit : ProfileEdit)

/-- How a request finishes; `noPath` is an upload whose metadata have no path. -/
inductive Outcome where
  | failed
  | noPath
  | done
  deriving DecidableEq, Repr

/-- The documents, the objects, the profile pages with their users, and the
requests on their way. -/
structure State where
  users : Collection String User := ∅
  pictures : Collection String Data := ∅
  pages : List (String × EditSession) := []
  requests : List Request := []

/-- What can happen. -/
inductive Event where
  /-- The account of a setup page is there, in `continuePressed`. -/
  | register (page : SetupPageViewController) (userID : String)
  | openPage (userID : String)
  | page (i : ℕ) (e : EditEvent)
  | finish (i : ℕ) (outcome : Outcome)

/-- The call of `setUserData`; a trap issues nothing. -/
def setUserDataCalled (s : State) (page : SetupPageViewController) (form : SetupForm)
    (userID : String) : State :=
  match page.registration form with
  | some r => { s with requests := s.requests ++ [.setData userID r] }
  | none => s

/-- The callback that has the account `userID`. -/
def userCreated (s : State) (page : SetupPageViewController) (form : SetupForm)
    (userID : String) : State :=
  match page.avatarStep with
  | .stop => s
  | .upload imageData => { s with requests := s.requests ++ [.putData userID imageData page form] }
  | .save => setUserDataCalled s page form userID

/-- The requests of a profile page. -/
def requestsOf (userID : String) (r : Option Data × Option ProfileEdit) : List Request :=
  r.1.toList.map (.uploadData userID) ++ r.2.toList.map (.updateData userID)

/-- A request finishes. -/
def finished (s : State) : Request → Outcome → State
  | .putData userID imageData page form, outcome =>
      match outcome with
      | .failed => s
      | .noPath => { s with pictures := DocStore.setData s.pictures userID imageData }
      | .done => setUserDataCalled
          { s with pictures := DocStore.setData s.pictures userID imageData }
          { page with picTemp := userID } form userID
  | .setData userID r, outcome =>
      if outcome = .done then
        { s with users := DocStore.setData s.users userID (setUserData r userID) }
      else s
  | .uploadData userID imageData, outcome =>
      if outcome = .failed then s
      else { s with pictures := DocStore.setData s.pictures userID imageData }
  | .updateData userID edit, outcome =>
      if outcome = .done then
        { s with users := DocStore.updateData s.users userID (updateUserInfo edit) }
      else s

/-- One event. -/
def step (dates : Dates) (now : ℤ) (s : State) : Event → Option State
  | .register page userID =>
      if page.picTemp = "" ∧ page.validateFields dates now = none then
        (page.cleaned dates).map fun form => userCreated s page form userID
      else none
  | .openPage userID => some { s with pages := s.pages ++ [(userID, {})] }
  | .page i e =>
      s.pages[i]?.bind fun p =>
        (EditSession.step dates now p.1 p.2 e).map fun session => { s with
          pages := s.pages.set i (p.1, session)
          requests := s.requests ++ requestsOf p.1 (EditSession.issued dates now p.1 p.2 e) }
  | .finish i outcome =>
      s.requests[i]?.map fun request =>
        finished { s with requests := s.requests.eraseIdx i } request outcome

/-- The upload of a profile page of the user. -/
def Request.uploads (userID : String) : Request → Bool
  | .uploadData userID' _ => userID' = userID
  | _ => false

/-- There is an object of the user, or one on its way. -/
def Promised (s : State) (userID : String) : Prop :=
  s.pictures.lookup userID ≠ none ∨ ∃ r ∈ s.requests, r.uploads userID

instance (s : State) (userID : String) : Decidable (Promised s userID) :=
  inferInstanceAs (Decidable (_ ∨ _))

/-- How a request may finish, the others being as in `s`: a picture that is
stored can be loaded, and the upload of a profile page fails only if its user has
an object or another upload on its way. -/
def Request.Unspoilt (s : State) : Request → Outcome → Prop
  | .putData _ imageData _ _, outcome => outcome ≠ .failed → imageData.length ≤ maxSize
  | .uploadData userID imageData, outcome =>
      if outcome = .failed then Promised s userID else imageData.length ≤ maxSize
  | .setData _ _, _ => True
  | .updateData _ _, _ => True

instance (s : State) (r : Request) (outcome : Outcome) : Decidable (r.Unspoilt s outcome) :=
  match r with
  | .putData _ imageData _ _ =>
      inferInstanceAs (Decidable (outcome ≠ .failed → imageData.length ≤ maxSize))
  | .uploadData userID imageData => inferInstanceAs
      (Decidable (if outcome = .failed then Promised s userID else imageData.length ≤ maxSize))
  | .setData _ _ => isTrue trivial
  | .updateData _ _ => isTrue trivial

/-- Requests finish as they may. -/
def Unspoilt (s : State) : Event → Prop
  | .finish i outcome => ∀ r ∈ s.requests[i]?,
      r.Unspoilt { s with requests := s.requests.eraseIdx i } outcome
  | _ => True

instance (s : State) : DecidablePred (Unspoilt s)
  | .finish i outcome => inferInstanceAs (Decidable (∀ r ∈ s.requests[i]?,
      r.Unspoilt { s with requests := s.requests.eraseIdx i } outcome))
  | .register _ _ => isTrue trivial
  | .openPage _ => isTrue trivial
  | .page _ _ => isTrue trivial

/-! ### The invariant -/

/-- The link is empty, or the user's own and promised. -/
def LinkOk (s : State) (userID link : String) : Prop :=
  link = "" ∨ link = userID ∧ Promised s userID

/-- A request writes a link only if it is promised. -/
def RequestOk (s : State) : Request → Prop
  | .putData _ _ page _ => page.picTemp = ""
  | .setData userID r => LinkOk s userID r.picTemp
  | .uploadData _ _ => True
  | .updateData userID edit => LinkOk s userID edit.linkToImg

/-- Every object can be loaded, and every link, stored or being written, is
promised. -/
structure PictureInv (s : State) : Prop where
  objects : AllDocs (fun _ data => data.length ≤ maxSize) s.pictures
  users : AllDocs (fun userID user => LinkOk s userID (user.profilePicLink.getD "")) s.users
  pages : ∀ p ∈ s.pages, EditSession.PageOk p.1 p.2.page
  requests : ∀ r ∈ s.requests, RequestOk s r

variable {s s' : State} {dates : Dates} {now : ℤ}

lemma LinkOk.mono (h : ∀ userID, Promised s userID → Promised s' userID) {userID link : String}
    (hlink : LinkOk s userID link) : LinkOk s' userID link :=
  hlink.imp_right fun hl => hl.imp_right (h userID)

lemma RequestOk.mono (h : ∀ userID, Promised s userID → Promised s' userID) {r : Request}
    (hr : RequestOk s r) : RequestOk s' r := by
  cases r with
  | putData userID imageData page form => exact hr
  | setData userID r => exact LinkOk.mono h hr
  | uploadData userID imageData => trivial
  | updateData userID edit => exact LinkOk.mono h hr

/-- Requests are issued. -/
lemma PictureInv.issue (h : PictureInv s) {rs : List Request}
    (hrs : ∀ r ∈ rs, RequestOk { s with requests := s.requests ++ rs } r) :
    PictureInv { s with requests := s.requests ++ rs } := by
  have hmono : ∀ userID, Promised s userID →
      Promised { s with requests := s.requests ++ rs } userID := by
    intro userID hp
    exact hp.imp_right fun ⟨r, hr, huploads⟩ => ⟨r, List.mem_append_left rs hr, huploads⟩
  refine ⟨h.objects, fun k d hd => (h.users k d hd).mono hmono, h.pages, fun r hr => ?_⟩
  rcases List.mem_append.mp hr with hr | hr
  · exact (h.requests r hr).mono hmono
  · exact hrs r hr

/-- Fewer requests, as long as every link stays promised. -/
lemma PictureInv.shrink (h : PictureInv s)
    (hobjects : AllDocs (fun _ data => data.length ≤ maxSize) s'.pictures)
    (husers : s'.users = s.users) (hpages : s'.pages = s.pages)
    (hrequests : s'.requests ⊆ s.requests)
    (hmono : ∀ userID, Promised s userID → Promised s' userID) : PictureInv s' := by
  refine ⟨hobjects, fun k d hd => ?_, fun p hp => ?_, fun r hr => ?_⟩
  · rw [husers] at hd
    exact (h.users k d hd).mono hmono
  · rw [hpages] at hp
    exact h.pages p hp
  · exact (h.requests r (hrequests hr)).mono hmono

/-- A picture is stored. -/
lemma PictureInv.store (h : PictureInv s) (userID : String) {imageData : Data}
    (hlen : imageData.length ≤ maxSize) :
    PictureInv { s with pictures := DocStore.setData s.pictures userID imageData } := by
  refine h.shrink (h.objects.setData hlen) rfl rfl (List.Subset.refl _) fun userID' hp => ?_
  exact hp.imp_left fun hne => lookup_ne_none_setData hne userID imageData

lemma promised_store (s : State) (userID : String) (imageData : Data) :
    Promised { s with pictures := DocStore.setData s.pictures userID imageData } userID := by
  left
  rw [lookup_setData_self]
  exact Option.some_ne_none imageData

/-- `setUserData` is called with a promised link. -/
lemma PictureInv.setUserDataCalled (h : PictureInv s) {page : SetupPageViewController}
    {form : SetupForm} {userID : String} (hlink : LinkOk s userID page.picTemp) :
    PictureInv (setUserDataCalled s page form userID) := by
  rw [Pictures.setUserDataCalled]
  split
  · next r hr =>
      obtain ⟨zipCode, -, rfl⟩ := Option.map_eq_some_iff.mp hr
      refine h.issue fun r hmem => ?_
      rw [List.mem_singleton.mp hmem]
      refine LinkOk.mono (fun userID' hp => ?_) hlink
      exact hp.imp_right fun ⟨r, hr, huploads⟩ => ⟨r, List.mem_append_left _ hr, huploads⟩
  · exact h

/-- The callback that has the account. -/
lemma PictureInv.userCreated (h : PictureInv s) {page : SetupPageViewController}
    (form : SetupForm) (userID : String) (hpage : page.picTemp = "") :
    PictureInv (userCreated s page form userID) := by
  rw [Pictures.userCreated]
  split
  · exact h
  · refine h.issue fun r hmem => ?_
    rw [List.mem_singleton.mp hmem]
    exact hpage
  · exact h.setUserDataCalled (Or.inl hpage)

/-- A profile page goes on, and issues its requests. -/
lemma PictureInv.page (h : PictureInv s) {i : ℕ} {p : String × EditSession}
    (hp : s.pages[i]? = some p) {e : EditEvent} {session : EditSession}
    (he : EditSession.step dates now p.1 p.2 e = some session) :
    PictureInv { s with
      pages := s.pages.set i (p.1, session)
      requests := s.requests ++ requestsOf p.1 (EditSession.issued dates now p.1 p.2 e) } := by
  have hpage := h.pages p (List.mem_of_getElem? hp)
  have hissue : PictureInv { s with
      requests := s.requests ++ requestsOf p.1 (EditSession.issued dates now p.1 p.2 e) } := by
    refine h.issue fun r hr => ?_
    rcases List.mem_append.mp hr with hr | hr
    · obtain ⟨imageData, -, rfl⟩ := List.mem_map.mp hr
      trivial
    · obtain ⟨edit, hedit, rfl⟩ := List.mem_map.mp hr
      by_cases hlink : edit.linkToImg = ""
      · exact Or.inl hlink
      · -- the picture linked is uploaded by the same tap
        obtain ⟨huser, imageData, hupload⟩ :=
          EditSession.issued_link hpage (Option.mem_toList.mp hedit) hlink
        refine Or.inr ⟨huser, Or.inr ⟨.uploadData p.1 imageData, ?_, by simp [Request.uploads]⟩⟩
        refine List.mem_append_right _ (List.mem_append_left _ ?_)
        exact List.mem_map.mpr ⟨imageData, by simp [hupload], rfl⟩
  refine ⟨hissue.objects, hissue.users, fun p' hp' => ?_, hissue.requests⟩
  rcases List.mem_or_eq_of_mem_set hp' with hold | rfl
  · exact h.pages p' hold
  · exact EditSession.pageOk_step hpage he

/-- The promises that do not rest on the request that finishes. -/
lemma promised_eraseIdx {i : ℕ} {r : Request} (hr : s.requests[i]? = some r) {userID : String}
    (hother : r.uploads userID = false) (hp : Promised s userID) :
    Promised { s with requests := s.requests.eraseIdx i } userID := by
  refine hp.imp_right fun ⟨r', hr', huploads⟩ => ⟨r', ?_, huploads⟩
  obtain ⟨j, hj⟩ := List.mem_iff_getElem?.mp hr'
  refine List.mem_eraseIdx_iff_getElem?.mpr ⟨j, ?_, hj⟩
  rintro rfl
  rw [Option.some.inj (hr.symm.trans hj), huploads] at hother
  exact absurd hother (by simp)

/-- A request finishes. -/
lemma PictureInv.finish (h : PictureInv s) {i : ℕ} {r : Request} {outcome : Outcome}
    (hr : s.requests[i]? = some r)
    (hcond : r.Unspoilt { s with requests := s.requests.eraseIdx i } outcome) :
    PictureInv (finished { s with requests := s.requests.eraseIdx i } r outcome) := by
  have hok : RequestOk s r := h.requests r (List.mem_of_getElem? hr)
  have hsub : s.requests.eraseIdx i ⊆ s.requests := List.eraseIdx_subset
  -- no promise rests on a request that is no upload of a profile page
  have herase : (∀ userID, r.uploads userID = false) →
      PictureInv { s with requests := s.requests.eraseIdx i } ∧
        RequestOk { s with requests := s.requests.eraseIdx i } r := by
    intro hother
    have hmono : ∀ userID, Promised s userID →
        Promised { s with requests := s.requests.eraseIdx i } userID :=
      fun userID hp => promised_eraseIdx hr (hother userID) hp
    exact ⟨h.shrink h.objects rfl rfl hsub hmono, hok.mono hmono⟩
  cases r with
  | putData userID imageData page form =>
      obtain ⟨hinv, -⟩ := herase fun _ => rfl
      cases outcome with
      | failed => exact hinv
      | noPath => exact hinv.store userID (hcond (by simp))
      | done =>
          exact (hinv.store userID (hcond (by simp))).setUserDataCalled
            (Or.inr ⟨rfl, promised_store _ _ _⟩)
  | setData userID r =>
      obtain ⟨hinv, hlink⟩ := herase fun _ => rfl
      rw [finished]
      split
      · exact ⟨hinv.objects, hinv.users.setData hlink, hinv.pages, hinv.requests⟩
      · exact hinv
  | uploadData userID imageData =>
      have hother : ∀ userID', userID' ≠ userID → Promised s userID' →
          Promised { s with requests := s.requests.eraseIdx i } userID' := by
        intro userID' hne hp
        exact promised_eraseIdx hr (by simpa [Request.uploads] using Ne.symm hne) hp
      rw [Request.Unspoilt] at hcond
      rw [finished]
      split
      · next hfailed =>
          rw [if_pos hfailed] at hcond
          refine h.shrink h.objects rfl rfl hsub fun userID' hp => ?_
          by_cases huser : userID' = userID
          · exact huser ▸ hcond
          · exact hother userID' huser hp
      · next hstored =>
          rw [if_neg hstored] at hcond
          refine h.shrink (h.objects.setData hcond) rfl rfl hsub fun userID' hp => ?_
          by_cases huser : userID' = userID
          · exact huser ▸ promised_store { s with requests := s.requests.eraseIdx i } _ imageData
          · exact (hother userID' huser hp).imp_left fun hne =>
              lookup_ne_none_setData hne userID imageData
  | updateData userID edit =>
      obtain ⟨hinv, hlink⟩ := herase fun _ => rfl
      rw [finished]
      split
      · exact ⟨hinv.objects, hinv.users.updateData fun _ _ _ => hlink, hinv.pages, hinv.requests⟩
      · exact hinv

/-- An unspoilt step keeps every link promised. -/
lemma pictureInv_step {e : Event} (h : PictureInv s) (hcond : Unspoilt s e)
    (hs : step dates now s e = some s') : PictureInv s' := by
  cases e with
  | register page userID =>
      obtain ⟨⟨hpic, -⟩, hs⟩ := Option.ite_none_right_eq_some.mp hs
      obtain ⟨form, -, rfl⟩ := Option.map_eq_some_iff.mp hs
      exact h.userCreated form userID hpic
  | openPage userID =>
      obtain rfl := Option.some.inj hs
      refine ⟨h.objects, h.users, fun p hp => ?_, h.requests⟩
      rcases List.mem_append.mp hp with hp | hp
      · exact h.pages p hp
      · rw [List.mem_singleton.mp hp]
        exact Or.inl rfl
  | page i e =>
      obtain ⟨p, hp, hs⟩ := Option.bind_eq_some_iff.mp hs
      obtain ⟨session, hsession, rfl⟩ := Option.map_eq_some_iff.mp hs
      exact h.page hp hsession
  | finish i outcome =>
      obtain ⟨r, hr, rfl⟩ := Option.map_eq_some_iff.mp hs
      exact h.finish hr (hcond r hr)

lemma pictureInv_start : PictureInv {} :=
  ⟨allDocs_empty _, allDocs_empty _, by simp, by simp⟩

/-- **Links resolve**: in every run whose steps are all unspoilt, when all
requests have finished, the picture linked in a users document is stored and
small enough, and no page that shows it traps. -/
theorem links_resolve {es : List Event} (h : exec (step dates now) {} es = some s)
    (hcond : EachStep (step dates now) Unspoilt {} es) (hdone : s.requests = [])
    {userID link : String} {user : User} (huser : s.users.lookup userID = some user)
    (hlink : user.profilePicLink = some link) (hne : link ≠ "") :
    (∃ data, s.pictures.lookup link = some data ∧ data.length ≤ maxSize ∧
      getData s.pictures link maxSize = some data) ∧
    ∀ (decode : Data → Option UIImage) (shown : Option UIImage),
      (HomeExplorePageViewController.loadPicture decode s.pictures user shown).isSome ∧
      (EmployeeMenu.loadPicture decode s.pictures user shown).isSome ∧
      (EditProfileViewController.loadPicture decode s.pictures user shown).isSome ∧
      (PublicProfileViewController.loadPicture decode s.pictures user shown).isSome := by
  have hinv : PictureInv s := exec_invariant_of_eachStep
    (fun _ _ _ hs hc he => pictureInv_step hs hc he) pictureInv_start hcond h
  have hok : LinkOk s userID (user.profilePicLink.getD "") := hinv.users userID user huser
  rw [hlink, Option.getD_some] at hok
  obtain ⟨rfl, hpromised⟩ := hok.resolve_left hne
  -- nothing is on its way, so the object is there
  have hstored : s.pictures.lookup link ≠ none := by
    refine hpromised.resolve_right fun ⟨r, hr, _⟩ => ?_
    rw [hdone] at hr
    exact absurd hr (by simp)
  obtain ⟨data, hdata⟩ := Option.ne_none_iff_exists'.mp hstored
  have hlen : data.length ≤ maxSize := hinv.objects link data hdata
  have hload : Loadable s.pictures (user.profilePicLink.getD "") := by
    rw [hlink]
    exact ⟨data, hdata, hlen⟩
  refine ⟨⟨data, hdata, hlen, ?_⟩, fun decode shown => ?_⟩
  · rw [getData, hdata, Option.filter_some_pos (by simpa using hlen)]
  · exact ⟨hload.loadPicture decode shown, hload.loadPicture decode shown,
      hload.loadPicture decode shown, hload.loadPicture decode shown⟩

/-! ### Ed -/

/-- The link of a user. -/
def linkOf (s : State) (userID : String) : Option String :=
  (s.users.lookup userID).bind User.profilePicLink

/-- Ed registers with a picture, which is uploaded before his document is
written. -/
def registering : List Event :=
  [.register (Account.filledIn Account.photo) "u1", .finish 0 .done, .finish 0 .done]

theorem links_resolve_registering : ∃ s user,
    exec (step Account.may2022 1651363200) {} registering = some s ∧
    EachStep (step Account.may2022 1651363200) Unspoilt {} registering ∧ s.requests = [] ∧
    s.users.lookup "u1" = some user ∧ user.profilePicLink = some "u1" ∧
    (∃ data, s.pictures.lookup "u1" = some data ∧ data.length ≤ maxSize ∧
      getData s.pictures "u1" maxSize = some data) := by
  have hrun : (exec (step Account.may2022 1651363200) {} registering).map
      (fun s => (s.requests.isEmpty, linkOf s "u1")) = some (true, some "u1") := by decide +kernel
  obtain ⟨s, hs, hend⟩ := Option.map_eq_some_iff.mp hrun
  obtain ⟨hempty, hlinked⟩ := Prod.mk.inj hend
  obtain ⟨user, huser, hlink⟩ := Option.bind_eq_some_iff.mp hlinked
  have hcond : EachStep (step Account.may2022 1651363200) Unspoilt {} registering := by
    decide +kernel
  have hdone : s.requests = [] := List.isEmpty_iff.mp hempty
  exact ⟨s, user, hs, hcond, hdone, huser, hlink,
    (links_resolve hs hcond hdone huser hlink (by decide)).1⟩

/-- Ed registers without a picture, opens his profile and saves one; the upload
fails, and the update does not. -/
def uploadFailing : List Event :=
  [.register (Account.filledIn { isSymbolImage := true }) "u1", .finish 0 .done, .openPage "u1",
    .page 0 (.document (.document { EditSession.edsDocument with profilePicLink := some "" })),
    .page 0 .saveChangesTapped, .page 0 (.pick Account.photo), .page 0 .saveChangesTapped,
    .finish 0 .failed, .finish 0 .done]

/-- Ed's document links a picture that is not there, and every page that shows it
traps. -/
theorem uploadFailing_dangles : ∃ s user,
    exec (step Account.may2022 1651363200) {} uploadFailing = some s ∧ s.requests = [] ∧
    s.users.lookup "u1" = some user ∧ user.profilePicLink = some "u1" ∧
    s.pictures.lookup "u1" = none ∧
    ∀ decode shown, HomeExplorePageViewController.loadPicture decode s.pictures user shown = none := by
  have hrun : (exec (step Account.may2022 1651363200) {} uploadFailing).map
      (fun s => (s.requests.isEmpty, linkOf s "u1", s.pictures.lookup "u1")) =
      some (true, some "u1", none) := by decide +kernel
  obtain ⟨s, hs, hend⟩ := Option.map_eq_some_iff.mp hrun
  obtain ⟨hempty, hlinked, hnone⟩ : _ ∧ _ ∧ _ := by simpa only [Prod.mk.injEq] using hend
  obtain ⟨user, huser, hlink⟩ := Option.bind_eq_some_iff.mp hlinked
  refine ⟨s, user, hs, List.isEmpty_iff.mp hempty, huser, hlink, hnone, fun decode shown => ?_⟩
  have hget : getData s.pictures "u1" maxSize = none := by
    rw [getData, hnone]
    rfl
  show loadPicture decode s.pictures user shown = none
  simp [loadPicture, hlink, hget]

/-- A registration with a picture, all of whose requests succeed. -/
lemma exec_register {page : SetupPageViewController} {form : SetupForm} {r : Registration}
    {imageData : Data} {userID : String} (hpic : page.picTemp = "")
    (hvalid : page.validateFields dates now = none) (hform : page.cleaned dates = some form)
    (havatar : page.avatarStep = .upload imageData)
    (hr : { page with picTemp := userID }.registration form = some r) :
    exec (step dates now) {} [.register page userID, .finish 0 .done, .finish 0 .done] = some {
      users := DocStore.setData ∅ userID (setUserData r userID)
      pictures := DocStore.setData ∅ userID imageData } := by
  have hfirst : step dates now {} (.register page userID) =
      some { requests := [.putData userID imageData page form] } := by
    rw [step, if_pos ⟨hpic, hvalid⟩, hform, Option.map_some, userCreated, havatar]
    rfl
  have hsecond : step dates now { requests := [.putData userID imageData page form] }
      (.finish 0 .done) = some {
        pictures := DocStore.setData ∅ userID imageData
        requests := [.setData userID r] } := by
    show some (setUserDataCalled _ _ form userID) = _
    rw [setUserDataCalled, hr]
    rfl
  rw [exec_cons, hfirst, Option.bind_some, exec_cons, hsecond, Option.bind_some]
  rfl

/-- A picture of more bytes than the pages load is linked all the same. -/
theorem largePicture_traps {imageData : Data} (hlarge : maxSize < imageData.length) : ∃ s user,
    exec (step Account.may2022 1651363200) {}
      [.register (Account.filledIn { isSymbolImage := false, jpegData := some imageData }) "u1",
        .finish 0 .done, .finish 0 .done] = some s ∧ s.requests = [] ∧
    s.users.lookup "u1" = some user ∧ user.profilePicLink = some "u1" ∧
    ∀ decode shown, HomeExplorePageViewController.loadPicture decode s.pictures user shown = none := by
  have hvalid : (Account.filledIn Account.photo).validateFields Account.may2022 1651363200 =
      none := by decide +kernel
  have hcleaned : ((Account.filledIn Account.photo).cleaned Account.may2022).bind
      SetupForm.zipCode = some 98501 := by decide +kernel
  obtain ⟨form, hform, hzip⟩ := Option.bind_eq_some_iff.mp hcleaned
  obtain ⟨r, hr, hlink⟩ : ∃ r, ({ Account.filledIn
      { isSymbolImage := false, jpegData := some imageData } with picTemp := "u1" }).registration
        form = some r ∧ r.picTemp = "u1" := by
    rw [SetupPageViewController.registration, hzip]
    exact ⟨_, rfl, rfl⟩
  have hget : getData (DocStore.setData ∅ "u1" imageData) "u1" maxSize = none := by
    rw [getData, lookup_setData_self, Option.filter_some_neg (by simpa using hlarge)]
  refine ⟨_, _, exec_register rfl hvalid hform rfl hr, rfl, lookup_setData_self _ _ _,
    congrArg some hlink, fun decode shown => ?_⟩
  show loadPicture decode _ (setUserData r "u1") shown = none
  have hpicture : (setUserData r "u1").profilePicLink = some "u1" := congrArg some hlink
  simp [loadPicture, hpicture, hget]

end Pictures

end Tasker
