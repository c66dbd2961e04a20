import Tasker.Account.EditSession

/-!
The bio and the skills of a profile that is saved as it was loaded.

* `noBio`, `noSkills`: the sentences the page shows in place of an empty text,
  and `savedNoSkills`, the one it looks for when it saves the skills.
* `orEmpty_shown_iff`: what comes back of a text shown with one sentence and
  saved with another.
* `Untyped`, `untyped_step`: a page whose fields nobody changes shows the texts
  of the document once it is there.
* `keepsTexts_iff`: such a page is refused or saves the stored texts, up to
  whitespace around them, if and only if at every tap that saves there is a
  picture to save, there are skills, and neither text is one of the sentences.
-/

namespace Tasker

open EventSystem

namespace EditProfilePage

/-- The sentence shown for no bio, and looked for when the bio is saved. -/
def noBio : String := "You currently do not have a bio, add one to tell people more about you!"

/-- The sentence shown for no skills. -/
def noSkills : String :=
  "You currently do not have any skills added, add some to tell people more about your skills!"

/-- The sentence looked for when the skills are saved. -/
def savedNoSkills : String :=
  "You currently do not have skills added, add one to tell people more about you!"

/-- The same text, up to whitespace around it; no text counts as an empty
one. -/
def SameText (text : String) (stored : Option String) : Prop :=
  trimmingCharacters text = trimmingCharacters (stored.getD "")

/-- What comes back of a text that is shown as `sentence` if it is empty, and
saved as empty if it is `placeholder`. -/
lemma orEmpty_shown_iff {placeholder sentence : String} {stored : Option String}
    (hplaceholder : placeholder ≠ "") :
    SameText (orEmpty placeholder
        (if (stored.getD "").isEmpty then sentence else stored.getD "")) stored ↔
      if stored.getD "" = "" then
        trimmingCharacters sentence = placeholder ∨ trimmingCharacters sentence = ""
      else trimmingCharacters (stored.getD "") ≠ placeholder := by
  have hnil : trimmingCharacters "" = "" := by decide
  rw [SameText, orEmpty]
  simp only [String.isEmpty_iff]
  split
  · next hempty =>
      rw [hempty, hnil]
      split
      · next heq => exact iff_of_true hnil (Or.inl heq)
      · next hne => rw [trimmingCharacters_idem, or_iff_right hne]
  · split
    · next heq =>
        rw [hnil, heq]
        exact iff_of_false hplaceholder.symm fun h => h rfl
    · next hne => exact iff_of_true (trimmingCharacters_idem _) hne

/-- The stored texts that survive being shown and saved. -/
structure Survives (user : User) : Prop where
  bio : trimmingCharacters (user.bio.getD "") ≠ noBio
  someSkills : user.skills.getD "" ≠ ""
  skills : trimmingCharacters (user.skills.getD "") ≠ savedNoSkills

variable {dates : Dates} {now : ℤ} {userID : String} {vc : EditProfilePage} {p : ProfileEdit}

lemma save_texts {upload : Option Data} (h : (vc.save dates upload).update = some p) :
    p.bio = orEmpty noBio vc.bioTextfield ∧ p.skills = orEmpty savedNoSkills vc.skills := by
  rw [save_update] at h
  obtain ⟨d, -, h⟩ := Option.bind_eq_some_iff.mp h
  obtain ⟨zip, -, rfl⟩ := Option.map_eq_some_iff.mp h
  simp only [noBio, savedNoSkills, and_self]

/-- An update takes the bio and the skills of the page. -/
lemma saveChangesTapped_texts (h : (vc.saveChangesTapped dates now userID).update = some p) :
    p.bio = orEmpty noBio vc.bioTextfield ∧ p.skills = orEmpty savedNoSkills vc.skills := by
  obtain ⟨hedit, hvalid, hready, -⟩ :=
    update_saveChangesTapped_isSome_iff.mp (Option.isSome_iff_exists.mpr ⟨p, h⟩)
  have hready' : ({ vc with errorMessage := "" }).pictureReady = true := hready
  obtain ⟨link, upload, heq⟩ : ∃ link upload,
      ({ vc with errorMessage := "" }).saveValid dates userID =
        { vc with errorMessage := "", linkToImg := link }.save dates upload :=
    saveValid_eq_of_pictureReady hready'
  rw [saveChangesTapped, if_pos hedit, hvalid] at h
  change (({ vc with errorMessage := "" }).saveValid dates userID).update = some p at h
  rw [heq] at h
  obtain ⟨hbio, hskills⟩ := save_texts h
  exact ⟨hbio, hskills⟩

/-- A tap leaves the texts of the page alone. -/
lemma saveChangesTapped_toEditProfileViewController :
    (vc.saveChangesTapped dates now userID).page.toEditProfileViewController =
      vc.toEditProfileViewController := by
  have hsave : ∀ (vc : EditProfilePage) upload,
      (vc.save dates upload).page.toEditProfileViewController =
        vc.toEditProfileViewController := by
    intro vc upload
    rw [save]
    split <;> rfl
  rw [saveChangesTapped]
  split
  · split
    · rfl
    · rw [saveValid]
      split
      · rfl
      · split
        · exact hsave _ _
        · split
          · rfl
          · exact hsave _ _
  · rfl

/-- What a page that shows the document as it is saves of its texts. -/
lemma sameTexts_iff {user : User} {vc₀ : EditProfileViewController}
    (hshow : vc₀.showUser (.document user) = some vc.toEditProfileViewController)
    (h : (vc.saveChangesTapped dates now userID).update = some p) :
    SameText p.bio user.bio ∧ SameText p.skills user.skills ↔ Survives user := by
  obtain ⟨hbio, hskills⟩ := saveChangesTapped_texts h
  have hshown : vc.bioTextfield =
        (if (user.bio.getD "").isEmpty then noBio else user.bio.getD "") ∧
      vc.skills = if (user.skills.getD "").isEmpty then noSkills else user.skills.getD "" := by
    rw [EditProfileViewController.showUser] at hshow
    split at hshow
    · rw [← Option.some.inj hshow, noBio, noSkills]
      exact ⟨rfl, rfl⟩
    · exact absurd hshow (by simp)
  have htrim : trimmingCharacters noBio = noBio ∧ trimmingCharacters noSkills = noSkills := by
    decide +kernel
  have hsentences : noBio ≠ "" ∧ noSkills ≠ savedNoSkills ∧ noSkills ≠ "" ∧
      savedNoSkills ≠ "" := by decide +kernel
  rw [hbio, hskills, hshown.1, hshown.2, orEmpty_shown_iff hsentences.1,
    orEmpty_shown_iff hsentences.2.2.2, htrim.1, htrim.2]
  constructor
  · rintro ⟨hb, hs⟩
    split at hs
    · exact (hs.elim hsentences.2.1 hsentences.2.2.1).elim
    · next hne =>
        refine ⟨fun heq => ?_, hne, hs⟩
        split at hb
        · next hempty =>
            rw [hempty] at heq
            exact absurd heq (by decide)
        · exact hb heq
  · intro hsurvives
    rw [if_neg hsurvives.someSkills]
    refine ⟨?_, hsurvives.skills⟩
    split
    · exact Or.inl rfl
    · exact hsurvives.bio

end EditProfilePage

namespace EditSession

open EditProfilePage

variable {dates : Dates} {now : ℤ} {userID : String} {s s' : EditSession} {e : EditEvent}

/-- No field is changed, and the document that arrives is that of `user`. -/
def LoadsOnly (user : User) : EditEvent → Prop
  | .document answer => answer = .document user
  | .type _ => False
  | _ => True

/-- The page shows nothing yet, or the document of `user`. -/
def Untyped (user : User) (s : EditSession) : Prop :=
  s.documentPending = true ∧ s.page.toEditProfileViewController = {} ∨
    s.documentPending = false ∧ ({} : EditProfileViewController).showUser (.document user) =
      some s.page.toEditProfileViewController

/-- An event that changes no field. -/
lemma untyped_step {user : User} (h : Untyped user s) (he : LoadsOnly user e)
    (hs : step dates now userID s e = some s') : Untyped user s' := by
  rw [step] at hs
  obtain ⟨-, hs⟩ := Option.ite_none_left_eq_some.mp hs
  cases e with
  | document answer =>
      obtain ⟨hpending, hs⟩ := Option.ite_none_right_eq_some.mp hs
      obtain rfl := Option.some.inj hs
      obtain rfl : answer = .document user := he
      rcases h with ⟨-, hempty⟩ | ⟨hloaded, -⟩
      · rw [documentArrived]
        split
        · next vc hvc => exact Or.inr ⟨rfl, hempty ▸ hvc⟩
        · exact Or.inl ⟨hpending, hempty⟩
      · exact absurd (hpending.symm.trans hloaded) (by simp)
  | picture answer =>
      obtain ⟨-, hs⟩ := Option.ite_none_right_eq_some.mp hs
      obtain rfl := Option.some.inj hs
      cases answer with
      | none => exact h
      | some picture => exact h
  | type fields => exact he.elim
  | pick image =>
      obtain ⟨-, hs⟩ := Option.ite_none_right_eq_some.mp hs
      obtain rfl := Option.some.inj hs
      exact h
  | saveChangesTapped =>
      obtain rfl := Option.some.inj hs
      simpa only [Untyped, saveChangesTapped_toEditProfileViewController] using h
  | uploadFailed description =>
      obtain rfl := Option.some.inj hs
      exact h
  | updated error =>
      obtain rfl := Option.some.inj hs
      exact h

/-- A tap on Save is refused, or saves the stored bio and skills. -/
def RefusesOrKeeps (dates : Dates) (now : ℤ) (userID : String) (user : User) (s : EditSession) :
    EditEvent → Prop
  | .saveChangesTapped => s.page.editPressed = true → s.page.validateFields dates now ≠ none ∨
      ∃ p, (s.page.saveChangesTapped dates now userID).update = some p ∧
        SameText p.bio user.bio ∧ SameText p.skills user.skills
  | _ => True

/-- At a tap on Save with valid fields there is a picture to save, and the
stored texts survive. -/
def SavesWell (dates : Dates) (now : ℤ) (user : User) (s : EditSession) : EditEvent → Prop
  | .saveChangesTapped => s.page.editPressed = true →
      s.page.validateFields dates now = none → s.page.pictureReady = true ∧ Survives user
  | _ => True

/-- Valid fields that nobody has changed are those of the document, with a zip
code of five digits. -/
lemma shown_of_valid {user : User} (h : Untyped user s)
    (hvalid : s.page.validateFields dates now = none) :
    ({} : EditProfileViewController).showUser (.document user) =
        some s.page.toEditProfileViewController ∧
      (trimmingCharacters s.page.zipCode).toList.length = 5 := by
  rcases h with ⟨-, hempty⟩ | ⟨-, hshow⟩
  · -- an empty page is refused
    rw [EditProfilePage.validateFields, hempty, if_pos (Or.inl (by decide))] at hvalid
    exact absurd hvalid (by simp)
  · refine ⟨hshow, ?_⟩
    have hzip := (of_validateFields_eq_none hvalid).2
    rw [EditProfileViewController.showUser] at hshow
    split at hshow
    · rw [← Option.some.inj hshow] at hzip ⊢
      exact length_of_isZipCodeValid_toString hzip
    · exact absurd hshow (by simp)

/-- One tap keeps the texts exactly if it saves well. -/
lemma refusesOrKeeps_iff {user : User} (h : Untyped user s) :
    RefusesOrKeeps dates now userID user s e ↔ SavesWell dates now user s e := by
  cases e with
  | saveChangesTapped =>
      refine forall_congr' fun hedit => ?_
      constructor
      · intro hkeeps hvalid
        obtain ⟨p, hp, hsame⟩ := hkeeps.resolve_left fun hne => hne hvalid
        obtain ⟨-, -, hready, -⟩ :=
          update_saveChangesTapped_isSome_iff.mp (Option.isSome_iff_exists.mpr ⟨p, hp⟩)
        exact ⟨hready, (sameTexts_iff (shown_of_valid h hvalid).1 hp).mp hsame⟩
      · intro hwell
        by_cases hvalid : s.page.validateFields dates now = none
        · obtain ⟨hready, hsurvives⟩ := hwell hvalid
          obtain ⟨hshow, hlen⟩ := shown_of_valid h hvalid
          have hsome : (s.page.saveChangesTapped dates now userID).update.isSome :=
            update_saveChangesTapped_isSome_iff.mpr ⟨hedit, hvalid, hready, hlen⟩
          obtain ⟨p, hp⟩ := Option.isSome_iff_exists.mp hsome
          exact Or.inr ⟨p, hp, (sameTexts_iff hshow hp).mpr hsurvives⟩
        · exact Or.inl hvalid
  | document answer => exact Iff.rfl
  | picture answer => exact Iff.rfl
  | type fields => exact Iff.rfl
  | pick image => exact Iff.rfl
  | uploadFailed description => exact Iff.rfl
  | updated error => exact Iff.rfl

/-- **A profile saved as it was loaded**: whatever the document and the order of
events, every tap on Save is refused or saves the stored bio and skills, if and
only if at every tap on Save with valid fields there is a picture to save, there
are skills, and neither text is the sentence looked for in its place. -/
theorem keepsTexts_iff {user : User} {es : List EditEvent} (hes : ∀ e ∈ es, LoadsOnly user e)
    (h : exec (step dates now userID) {} es = some s) :
    EachStep (step dates now userID) (RefusesOrKeeps dates now userID user) {} es ↔
      EachStep (step dates now userID) (SavesWell dates now user) {} es :=
  eachStep_congr_of_forall (J := Untyped user) (fun _ _ _ hs he hstep => untyped_step hs he hstep)
    (fun _ _ _ hs _ _ => refusesOrKeeps_iff hs) (Or.inl ⟨rfl, rfl⟩) hes h

theorem keepsTexts_iff_saving : ∃ s,
    exec (step Account.may2022 1651363200 "u1") {} saving = some s ∧
    (EachStep (step Account.may2022 1651363200 "u1")
        (RefusesOrKeeps Account.may2022 1651363200 "u1" edsDocument) {} saving ↔
      EachStep (step Account.may2022 1651363200 "u1")
        (SavesWell Account.may2022 1651363200 edsDocument) {} saving) := by
  have hrun : (exec (step Account.may2022 1651363200 "u1") {} saving).isSome = true := by
    decide +kernel
  obtain ⟨s, hs⟩ := Option.isSome_iff_exists.mp hrun
  refine ⟨s, hs, keepsTexts_iff (fun e he => ?_) hs⟩
  simp only [saving, List.mem_cons, List.not_mem_nil, or_false] at he
  rcases he with rfl | rfl | rfl
  · rfl
  · trivial
  · trivial

/-- The users document of Ed before he has added skills. -/
def unskilled : User := { edsDocument with skills := some "" }

/-- Ed has no skills, edits nothing and saves, and the sentence is stored as his
skills. -/
theorem saving_stores_sentence : ∃ s p,
    exec (step Account.may2022 1651363200 "u1") {}
      [.document (.document unskilled), .saveChangesTapped] = some s ∧
    s.page.editPressed = true ∧ s.page.validateFields Account.may2022 1651363200 = none ∧
    (s.page.saveChangesTapped Account.may2022 1651363200 "u1").update = some p ∧
    p.skills = noSkills ∧ ¬ SameText p.skills unskilled.skills ∧
    ¬ EachStep (step Account.may2022 1651363200 "u1")
      (RefusesOrKeeps Account.may2022 1651363200 "u1" unskilled) {}
      [.document (.document unskilled), .saveChangesTapped, .saveChangesTapped] := by
  have hrun : (exec (step Account.may2022 1651363200 "u1") {}
      [.document (.document unskilled), .saveChangesTapped]).map (fun s =>
        (s.page.editPressed, s.page.validateFields Account.may2022 1651363200,
          (s.page.saveChangesTapped Account.may2022 1651363200 "u1").update.map
            ProfileEdit.skills)) = some (true, none, some noSkills) := by decide +kernel
  obtain ⟨s, hs, hend⟩ := Option.map_eq_some_iff.mp hrun
  obtain ⟨hedit, hend⟩ := Prod.mk.inj hend
  obtain ⟨hvalid, hupdate⟩ := Prod.mk.inj hend
  obtain ⟨p, hp, hskills⟩ := Option.map_eq_some_iff.mp hupdate
  have hne : ¬ SameText p.skills unskilled.skills := by
    rw [hskills]
    unfold SameText
    decide +kernel
  refine ⟨s, p, hs, hedit, hvalid, hp, hskills, hne, fun hall => ?_⟩
  obtain ⟨t, ht, hs'⟩ := exec_cons_eq_some.mp hs
  obtain ⟨t', ht', hs''⟩ := exec_cons_eq_some.mp hs'
  obtain rfl := Option.some.inj hs''
  have hkeeps := ((hall.2 t ht).2 t' ht').1 hedit
  obtain ⟨p', hp', -, hsame⟩ := hkeeps.resolve_left fun hne => hne hvalid
  obtain rfl := Option.some.inj (hp.symm.trans hp')
  exact hne hsame

end EditSession

end Tasker
