import Tasker.Account.Setup
import Tasker.Screens.ThirdParty

/-!
The registration of a new user of Google or Facebook.

The page that signs the user in presents the setup page and deletes the account
at once; the setup page signs in again.

* `Flow`, `flowStep`: the setup page, and the deletion, which takes effect or
  fails at any time.
* `Together`: there is an account of the identity if and only if its users
  document is there, and no document written has lost its account.
* `Outcome`, `outcomes`: what succeeds in a run, and whether the account is
  deleted, in order; `harmless`: the six orders that leave account and document
  together (`together_iff`).
* `PageStep`: what one event does to the accounts and the users documents.
-/

namespace Tasker.Account

open DocStore EventSystem

/-! ### The setup page and the deletion -/

/-- The deletion of the first account. -/
inductive Deletion where
  | pending
  | deleted
  | failed
  deriving DecidableEq, Repr

/-- The setup page and the deletion. -/
structure Flow where
  setup : State
  deletion : Deletion := .pending

/-- An event of the setup page, or the end of the deletion. -/
inductive FlowEvent where
  | setup (e : Event)
  | delete (error : Bool)

/-- A new account has a uid that is not in use. -/
def NewUID (uid : String) (users : Collection String User) : Event → Prop
  | .signIn (.ok newUserID) => newUserID ≠ uid ∧ users.lookup newUserID = none
  | _ => True

instance (uid : String) (users : Collection String User) : DecidablePred (NewUID uid users)
  | .signIn (.ok newUserID) =>
      inferInstanceAs (Decidable (newUserID ≠ uid ∧ users.lookup newUserID = none))
  | .signIn (.error _) => isTrue trivial
  | .edit _ => isTrue trivial
  | .continuePressed => isTrue trivial
  | .createUser _ => isTrue trivial
  | .putData _ => isTrue trivial
  | .setData _ => isTrue trivial

/-- One event; the account `uid` of the credential is being deleted. -/
def flowStep (dates : Dates) (now : ℤ) (credential uid : String) (f : Flow) :
    FlowEvent → Option Flow
  | .setup e =>
      if NewUID uid f.setup.users e then
        (step dates now f.setup e).map fun setup => { f with setup }
      else none
  | .delete error =>
      if f.deletion = .pending then
        if error then some { f with deletion := .failed }
        else some {
          setup := { f.setup with auth := f.setup.auth.deleteUser credential uid }
          deletion := .deleted }
      else none

/-- The page waits for an answer. -/
def Stage.waiting : Stage → Bool
  | .creating _ | .signingIn _ | .uploading _ _ _ | .saving _ _ => true
  | .form | .finished | .trapped => false

/-- All requests have been answered. -/
def Flow.Settled (f : Flow) : Prop := f.deletion ≠ .pending ∧ f.setup.stage.waiting = false

/-- There is an account of the identity if and only if its users document is
there, and every document written since `users` is its. -/
structure Together (credential : String) (users : Collection String User) (f : Flow) : Prop where
  account : (∃ uid, f.setup.auth.identities.lookup credential = some uid) ↔
    ∃ uid, f.setup.auth.identities.lookup credential = some uid ∧
      f.setup.users.lookup uid ≠ none
  owner : ∀ uid, f.setup.users.lookup uid ≠ users.lookup uid →
    f.setup.auth.identities.lookup credential = some uid

/-! ### Outcomes -/

/-- How the deletion ends, and what succeeds on the setup page. -/
inductive Outcome where
  | deleted
  | notDeleted
  | signedIn
  | saved
  deriving DecidableEq, Repr

/-- The outcome an event brings. -/
def FlowEvent.outcome : FlowEvent → Option Outcome
  | .delete false => some .deleted
  | .delete true => some .notDeleted
  | .setup (.signIn (.ok _)) => some .signedIn
  | .setup (.setData false) => some .saved
  | .setup _ => none

/-- The outcomes of a run, in order. -/
def outcomes (es : List FlowEvent) : List Outcome := es.filterMap FlowEvent.outcome

/-- The orders of the outcomes that leave account and document together. -/
def harmless : List (List Outcome) :=
  [[.deleted], [.signedIn, .deleted], [.deleted, .signedIn, .saved],
    [.notDeleted, .signedIn, .saved], [.signedIn, .notDeleted, .saved],
    [.signedIn, .saved, .notDeleted]]

/-- All orders there are. -/
def possible : List (List Outcome) :=
  [[], [.signedIn], [.signedIn, .saved],
    [.deleted], [.deleted, .signedIn], [.signedIn, .deleted],
    [.deleted, .signedIn, .saved], [.signedIn, .deleted, .saved], [.signedIn, .saved, .deleted],
    [.notDeleted], [.notDeleted, .signedIn], [.signedIn, .notDeleted],
    [.notDeleted, .signedIn, .saved], [.signedIn, .notDeleted, .saved],
    [.signedIn, .saved, .notDeleted]]

/-- The user signs in after the first account is deleted. -/
def Again (os : List Outcome) : Prop := [.deleted, .signedIn].Sublist os

instance : DecidablePred Again := fun os =>
  inferInstanceAs (Decidable ([.deleted, .signedIn].Sublist os))

lemma possible_deleted : ∀ os ∈ possible, .deleted ∉ os → .notDeleted ∉ os →
    os ++ [Outcome.deleted] ∈ possible ∧ ¬ Again (os ++ [Outcome.deleted]) ∧ ¬ Again os := by
  decide

lemma possible_notDeleted : ∀ os ∈ possible, .deleted ∉ os → .notDeleted ∉ os →
    os ++ [Outcome.notDeleted] ∈ possible ∧ ¬ Again (os ++ [Outcome.notDeleted]) ∧ ¬ Again os := by
  decide

lemma possible_signedIn : ∀ os ∈ possible, .signedIn ∉ os →
    os ++ [Outcome.signedIn] ∈ possible ∧ (Again (os ++ [Outcome.signedIn]) ↔ .deleted ∈ os) ∧
      .saved ∉ os ∧ ¬ Again os := by
  decide

lemma possible_saved : ∀ os ∈ possible, .signedIn ∈ os → .saved ∉ os →
    os ++ [Outcome.saved] ∈ possible ∧ (Again (os ++ [Outcome.saved]) ↔ Again os) := by
  decide

/-- What the harmless orders have in common. -/
lemma mem_harmless_iff : ∀ os ∈ possible, (.deleted ∈ os ∨ .notDeleted ∈ os) →
    (os ∈ harmless ↔ (.saved ∈ os ∨ .deleted ∈ os ∧ ¬ Again os) ∧
      (.saved ∈ os → .deleted ∈ os → Again os)) := by
  decide

/-! ### One event of the setup page -/

/-- How far the setup page has got with the account. -/
inductive Phase where
  | standard
  | before
  | active (userID : String)
  | over

/-- The phase of a stage. -/
def Stage.phase : Stage → Phase
  | .creating _ => .standard
  | .form | .signingIn _ => .before
  | .uploading _ userID _ | .saving userID _ => .active userID
  | .finished | .trapped => .over

/-- The state goes on with the account `userID`, or stops. -/
structure Continues (s : State) (userID : String) (s' : State) : Prop where
  auth : s'.auth = s.auth
  users : s'.users = s.users
  password : s'.page.password = s.page.password
  credentials : s'.page.credentials = s.page.credentials
  phase : s'.stage.phase = .active userID ∨ s'.stage.phase = .over

lemma continues_setUserDataCalled (s : State) (form : SetupForm) (userID : String) :
    Continues s userID (setUserDataCalled s form userID) := by
  rw [setUserDataCalled]
  split
  · exact ⟨rfl, rfl, rfl, rfl, Or.inl rfl⟩
  · exact ⟨rfl, rfl, rfl, rfl, Or.inr rfl⟩

lemma continues_userCreated (s : State) (form : SetupForm) (userID : String) :
    Continues s userID (userCreated s form userID) := by
  rw [userCreated]
  split
  · exact ⟨rfl, rfl, rfl, rfl, Or.inr rfl⟩
  · exact ⟨rfl, rfl, rfl, rfl, Or.inl rfl⟩
  · exact continues_setUserDataCalled s form userID

/-- What an event of the setup page does to the accounts and the documents. -/
inductive PageStep (credential : String) (s s' : State) : Event → Prop
  | quiet (e : Event) : (FlowEvent.setup e).outcome = none → s'.auth = s.auth →
      s'.users = s.users → (s'.stage.phase = s.stage.phase ∨ s'.stage.phase = .over) →
      PageStep credential s s' e
  | signIn (newUserID : String) : s.stage.phase = .before →
      s'.auth = (s.auth.signInWith credential newUserID).1 → s'.users = s.users →
      (s'.stage.phase = .active (s.auth.signInWith credential newUserID).2 ∨
        s'.stage.phase = .over) →
      PageStep credential s s' (.signIn (.ok newUserID))
  | saved (userID : String) (user : User) : s.stage.phase = .active userID → s'.auth = s.auth →
      s'.users = setData s.users userID user → s'.stage.phase = .over →
      PageStep credential s s' (.setData false)

variable {dates : Dates} {now : ℤ} {credential uid : String}

/-- Without a password the page never creates an account by itself. -/
lemma pageStep_of_step {s s' : State} {e : Event} (hpage : s.page.FromThirdParty credential)
    (hphase : s.stage.phase ≠ .standard) (hs : step dates now s e = some s') :
    PageStep credential s s' e ∧ s'.page.FromThirdParty credential := by
  have hcreating : ∀ form, s.stage ≠ .creating form :=
    fun _ hstage => hphase (by rw [hstage]; rfl)
  cases branch_of_step hs with
  | edit fields => exact ⟨.quiet _ rfl rfl rfl (Or.inl rfl), hpage⟩
  | invalid error hstage => exact ⟨.quiet _ rfl rfl rfl (Or.inl rfl), hpage⟩
  | noDate hstage => exact ⟨.quiet _ rfl rfl rfl (Or.inr rfl), hpage⟩
  | standard form _ _ _ hpassword => exact absurd hpage.1 hpassword
  | thirdParty form hstage =>
      exact ⟨.quiet _ rfl rfl rfl (Or.inl (by rw [hstage]; rfl)), hpage⟩
  | noCredentials hstage => exact ⟨.quiet _ rfl rfl rfl (Or.inr rfl), hpage⟩
  | notCreated form _ hstage => exact absurd hstage (hcreating form)
  | created form _ _ hstage => exact absurd hstage (hcreating form)
  | notSignedIn form _ hstage => exact ⟨.quiet _ rfl rfl rfl (Or.inr rfl), hpage⟩
  | signedIn form newUserID credentials hstage hcredentials =>
      obtain rfl : credentials = credential :=
        Option.some.inj (hcredentials.symm.trans hpage.2)
      have hgo := continues_userCreated
        { s with auth := (s.auth.signInWith credentials newUserID).1 } form
        (s.auth.signInWith credentials newUserID).2
      exact ⟨.signIn newUserID (by rw [hstage]; rfl) hgo.auth hgo.users hgo.phase,
        hgo.password.trans hpage.1, hgo.credentials.trans hpage.2⟩
  | notUploaded => exact ⟨.quiet _ rfl rfl rfl (Or.inr rfl), hpage⟩
  | noPath => exact ⟨.quiet _ rfl rfl rfl (Or.inr rfl), hpage⟩
  | uploaded form userID imageData answer hstage =>
      have hgo := continues_setUserDataCalled { s with
        pictures := setData s.pictures userID imageData
        page := { s.page with picTemp := userID } } form userID
      have hactive : s.stage.phase = .active userID := by
        rw [hstage]
        rfl
      exact ⟨.quiet _ rfl hgo.auth hgo.users (hactive ▸ hgo.phase),
        hgo.password.trans hpage.1, hgo.credentials.trans hpage.2⟩
  | notSaved => exact ⟨.quiet _ rfl rfl rfl (Or.inr rfl), hpage⟩
  | saved userID r hstage =>
      exact ⟨.saved userID (setUserData r userID) (by rw [hstage]; rfl) rfl rfl rfl, hpage⟩

/-! ### The invariant -/

/-- The state after the outcomes `os`; `owner` is the account of the second
sign-in, and the first one if there has been none. -/
structure FlowInv (credential uid : String) (users : Collection String User) (f : Flow)
    (os : List Outcome) (owner : String) : Prop where
  page : f.setup.page.FromThirdParty credential
  possible : os ∈ possible
  pending : f.deletion = .pending ↔ .deleted ∉ os ∧ .notDeleted ∉ os
  fresh : users.lookup uid = none ∧ users.lookup owner = none
  second : owner ≠ uid ↔ Again os
  identity : f.setup.auth.identities.lookup credential =
    if .deleted ∈ os ∧ ¬ Again os then none else some owner
  phase : f.setup.stage.phase ≠ .standard ∧ (f.setup.stage.phase = .before → .signedIn ∉ os) ∧
    ∀ userID, f.setup.stage.phase = .active userID →
      .signedIn ∈ os ∧ .saved ∉ os ∧ userID = owner
  docs : ∀ userID, f.setup.users.lookup userID ≠ users.lookup userID ↔
    .saved ∈ os ∧ userID = owner

variable {users : Collection String User} {f f' : Flow} {os : List Outcome} {owner : String}

/-- The end of the deletion. -/
lemma FlowInv.delete (h : FlowInv credential uid users f os owner) {error : Bool}
    (hs : flowStep dates now credential uid f (.delete error) = some f') :
    FlowInv credential uid users f' (os ++ (FlowEvent.delete error).outcome.toList) owner := by
  rw [flowStep] at hs
  split at hs
  · next hpending =>
      obtain ⟨hnot, hnot'⟩ := h.pending.mp hpending
      cases error with
      | true =>
          obtain rfl := Option.some.inj hs
          obtain ⟨hpossible, hagain, hold⟩ := possible_notDeleted os h.possible hnot hnot'
          have hidentity := h.identity
          rw [if_neg fun hand => hnot hand.1] at hidentity
          refine ⟨h.page, hpossible, ?_, h.fresh, ?_, ?_, ?_, ?_⟩
          · simp [FlowEvent.outcome]
          · exact h.second.trans (iff_of_false hold hagain)
          · rw [hidentity, if_neg]
            simp [FlowEvent.outcome, hnot]
          · simpa [FlowEvent.outcome] using h.phase
          · simpa [FlowEvent.outcome] using h.docs
      | false =>
          obtain rfl := Option.some.inj hs
          obtain ⟨hpossible, hagain, hold⟩ := possible_deleted os h.possible hnot hnot'
          have howner : owner = uid := not_not.mp fun hne => hold (h.second.mp hne)
          have hidentity := h.identity
          rw [if_neg fun hand => hnot hand.1, howner] at hidentity
          refine ⟨h.page, hpossible, ?_, h.fresh, ?_, ?_, ?_, ?_⟩
          · simp [FlowEvent.outcome]
          · exact h.second.trans (iff_of_false hold hagain)
          · rw [Auth.lookup_deleteUser, if_pos hidentity, if_pos]
            exact ⟨by simp [FlowEvent.outcome], hagain⟩
          · simpa [FlowEvent.outcome] using h.phase
          · simpa [FlowEvent.outcome] using h.docs
  · exact absurd hs (by simp)

/-- The second sign-in. -/
lemma FlowInv.signIn {setup : State} {newUserID : String}
    (h : FlowInv credential uid users f os owner)
    (hpage : setup.page.FromThirdParty credential)
    (hnew : newUserID ≠ uid ∧ f.setup.users.lookup newUserID = none)
    (hbefore : f.setup.stage.phase = .before)
    (hauth : setup.auth = (f.setup.auth.signInWith credential newUserID).1)
    (husers : setup.users = f.setup.users)
    (hphase : setup.stage.phase = .active (f.setup.auth.signInWith credential newUserID).2 ∨
      setup.stage.phase = .over) :
    ∃ owner', FlowInv credential uid users { f with setup } (os ++ [.signedIn]) owner' := by
  obtain ⟨hpossible, hagain, hsaved, hold⟩ :=
    possible_signedIn os h.possible (h.phase.2.1 hbefore)
  -- no document has been written yet
  have hsame : ∀ userID, f.setup.users.lookup userID = users.lookup userID :=
    fun userID => not_not.mp fun hne => hsaved ((h.docs userID).mp hne).1
  have hpending : f.deletion = .pending ↔
      Outcome.deleted ∉ os ++ [Outcome.signedIn] ∧
        Outcome.notDeleted ∉ os ++ [Outcome.signedIn] := by
    simpa using h.pending
  have hactive : ∀ owner', (f.setup.auth.signInWith credential newUserID).2 = owner' →
      setup.stage.phase ≠ .standard ∧
      (setup.stage.phase = .before → Outcome.signedIn ∉ os ++ [Outcome.signedIn]) ∧
      ∀ userID, setup.stage.phase = .active userID →
        Outcome.signedIn ∈ os ++ [Outcome.signedIn] ∧
          Outcome.saved ∉ os ++ [Outcome.signedIn] ∧ userID = owner' := by
    rintro owner' rfl
    rcases hphase with hphase | hphase
    · rw [hphase]
      refine ⟨by simp, by simp, fun userID heq => ⟨by simp, by simpa using hsaved, ?_⟩⟩
      exact (Phase.active.inj heq).symm
    · simp [hphase]
  have hdocs : ∀ owner' userID, setup.users.lookup userID ≠ users.lookup userID ↔
      Outcome.saved ∈ os ++ [Outcome.signedIn] ∧ userID = owner' := by
    intro owner' userID
    rw [husers, hsame]
    simp [hsaved]
  have howner : owner = uid := not_not.mp fun hne => hold (h.second.mp hne)
  have hidentity := h.identity
  by_cases hdeleted : .deleted ∈ os
  · -- the account is gone, and a new one is created
    rw [if_pos ⟨hdeleted, hold⟩] at hidentity
    have hcreated := Auth.signInWith_of_none newUserID hidentity
    refine ⟨newUserID, hpage, hpossible, hpending, ⟨h.fresh.1, hsame newUserID ▸ hnew.2⟩,
      iff_of_true hnew.1 (hagain.mpr hdeleted), ?_, hactive _ (by rw [hcreated]), hdocs _⟩
    rw [hauth, hcreated, if_neg fun hand => hand.2 (hagain.mpr hdeleted)]
    exact lookup_setData_self _ _ _
  · rw [if_neg fun hand => hdeleted hand.1] at hidentity
    have hfound := Auth.signInWith_of_some newUserID hidentity
    refine ⟨owner, hpage, hpossible, hpending, h.fresh,
      iff_of_false (not_not.mpr howner) fun hyes => hdeleted (hagain.mp hyes), ?_,
      hactive _ (by rw [hfound]), hdocs _⟩
    rw [hauth, hfound, if_neg]
    · exact hidentity
    · simp [hdeleted]

/-- An event of the page that leaves accounts and documents alone. -/
lemma FlowInv.quiet {setup : State} (h : FlowInv credential uid users f os owner)
    (hpage : setup.page.FromThirdParty credential) (hauth : setup.auth = f.setup.auth)
    (husers : setup.users = f.setup.users)
    (hphase : setup.stage.phase = f.setup.stage.phase ∨ setup.stage.phase = .over) :
    FlowInv credential uid users { f with setup } os owner := by
  refine ⟨hpage, h.possible, h.pending, h.fresh, h.second, ?_, ?_, ?_⟩
  · rw [hauth]
    exact h.identity
  · rcases hphase with hphase | hphase
    · rw [hphase]
      exact h.phase
    · simp [hphase]
  · rw [husers]
    exact h.docs

/-- The write of the document. -/
lemma FlowInv.saved {setup : State} {userID : String} {user : User}
    (h : FlowInv credential uid users f os owner)
    (hpage : setup.page.FromThirdParty credential)
    (hactive : f.setup.stage.phase = .active userID) (hauth : setup.auth = f.setup.auth)
    (husers : setup.users = setData f.setup.users userID user)
    (hover : setup.stage.phase = .over) :
    FlowInv credential uid users { f with setup } (os ++ [Outcome.saved]) owner := by
  obtain ⟨hsigned, hsaved, rfl⟩ := h.phase.2.2 userID hactive
  obtain ⟨hpossible, hagain⟩ := possible_saved os h.possible hsigned hsaved
  refine ⟨hpage, hpossible, ?_, h.fresh, h.second.trans hagain.symm, ?_, ?_, ?_⟩
  · simpa using h.pending
  · rw [hauth, h.identity]
    refine if_congr ?_ rfl rfl
    rw [hagain]
    simp
  · simp [hover]
  · intro userID'
    rw [husers, lookup_setData]
    split
    · next heq =>
        -- the new document was not there before the flow
        subst heq
        rw [h.fresh.2]
        simp
    · next hne =>
        have hold := h.docs userID'
        simp only [hsaved, false_and] at hold
        simpa [hne] using hold

/-- One event. -/
lemma FlowInv.step {e : FlowEvent} (h : FlowInv credential uid users f os owner)
    (hs : flowStep dates now credential uid f e = some f') :
    ∃ owner', FlowInv credential uid users f' (os ++ e.outcome.toList) owner' := by
  cases e with
  | delete error => exact ⟨owner, h.delete hs⟩
  | setup e =>
      rw [flowStep] at hs
      split at hs
      · next hnew =>
          obtain ⟨setup, hstep, rfl⟩ := Option.map_eq_some_iff.mp hs
          obtain ⟨hpageStep, hpage⟩ := pageStep_of_step h.page h.phase.1 hstep
          cases hpageStep with
          | quiet _ houtcome hauth husers hphase =>
              rw [houtcome, Option.toList_none, List.append_nil]
              exact ⟨owner, h.quiet hpage hauth husers hphase⟩
          | signIn newUserID hbefore hauth husers hphase =>
              exact h.signIn hpage hnew hbefore hauth husers hphase
          | saved userID user hactive hauth husers hover =>
              exact ⟨owner, h.saved hpage hactive hauth husers hover⟩
      · exact absurd hs (by simp)

/-- The state after a run. -/
lemma FlowInv.exec {es : List FlowEvent} (h : FlowInv credential uid users f os owner)
    (hs : exec (flowStep dates now credential uid) f es = some f') :
    ∃ owner', FlowInv credential uid users f' (os ++ outcomes es) owner' := by
  induction es generalizing f os owner with
  | nil =>
      obtain rfl := Option.some.inj hs
      rw [outcomes, List.filterMap_nil, List.append_nil]
      exact ⟨owner, h⟩
  | cons e es ih =>
      obtain ⟨g, hg, hrest⟩ := exec_cons_eq_some.mp hs
      obtain ⟨owner', h'⟩ := h.step hg
      obtain ⟨owner'', h''⟩ := ih h' hrest
      rw [List.append_assoc] at h''
      have hsplit : outcomes (e :: es) = e.outcome.toList ++ outcomes es := by
        rw [outcomes, List.filterMap_cons]
        cases e.outcome <;> rfl
      exact ⟨owner'', hsplit ▸ h''⟩

/-- Account and document are together by the outcomes alone. -/
lemma FlowInv.together_iff_order (h : FlowInv credential uid users f os owner) :
    Together credential users f ↔
      (.saved ∈ os ∨ .deleted ∈ os ∧ ¬ Again os) ∧ (.saved ∈ os → .deleted ∈ os → Again os) := by
  have hdoc : f.setup.users.lookup owner ≠ none ↔ .saved ∈ os := by
    have hdocs := h.docs owner
    rw [h.fresh.2] at hdocs
    exact hdocs.trans (and_iff_left rfl)
  have hidentity := h.identity
  constructor
  · intro ht
    refine ⟨?_, fun hsaved hdeleted => ?_⟩
    · by_cases hgone : .deleted ∈ os ∧ ¬ Again os
      · exact Or.inr hgone
      · rw [if_neg hgone] at hidentity
        obtain ⟨userID, huser, hstored⟩ := ht.account.mp ⟨owner, hidentity⟩
        obtain rfl := Option.some.inj (hidentity.symm.trans huser)
        exact Or.inl (hdoc.mp hstored)
    · by_contra hagain
      have howned := ht.owner owner ((h.docs owner).mpr ⟨hsaved, rfl⟩)
      rw [hidentity, if_pos ⟨hdeleted, hagain⟩] at howned
      exact absurd howned (by simp)
  · rintro ⟨hwhole, hkept⟩
    by_cases hgone : .deleted ∈ os ∧ ¬ Again os
    · have hunsaved : .saved ∉ os := fun hsaved => hgone.2 (hkept hsaved hgone.1)
      rw [if_pos hgone] at hidentity
      refine ⟨by simp [hidentity], fun userID hne => ?_⟩
      exact absurd ((h.docs userID).mp hne).1 hunsaved
    · have hsaved : .saved ∈ os := hwhole.resolve_right hgone
      rw [if_neg hgone] at hidentity
      refine ⟨⟨fun _ => ⟨owner, hidentity, hdoc.mpr hsaved⟩,
        fun ⟨userID, huser, _⟩ => ⟨userID, huser⟩⟩,
        fun userID hne => ?_⟩
      rw [((h.docs userID).mp hne).2]
      exact hidentity

/-- **Account and profile**: when a new user of Google or Facebook is registered
and everything has settled, the account and its users document are together if
and only if the outcomes came in one of the six harmless orders. -/
theorem together_iff {button : ThirdPartyButton} {profile : ThirdPartyProfile}
    {auth auth' : Auth} {answer : Except String String} {page : SetupPageViewController}
    {es : List FlowEvent}
    (htapped : button.tapped profile auth credential answer = (auth', .presentSetup page uid))
    (hnew : users.lookup uid = none)
    (h : exec (flowStep dates now credential uid)
      { setup := { page := page, auth := auth', users := users } } es = some f)
    (hsettled : f.Settled) :
    Together credential users f ↔ outcomes es ∈ harmless := by
  obtain ⟨hpage, hidentity⟩ := tapped_eq_presentSetup htapped
  have hstart : FlowInv credential uid users
      { setup := { page := page, auth := auth', users := users } } [] uid := by
    refine ⟨hpage, by decide, by simp, ⟨hnew, hnew⟩, iff_of_false (by simp) (by decide), ?_, ?_, ?_⟩
    · rw [if_neg (by simp)]
      exact hidentity
    · exact ⟨by simp [Stage.phase], by simp, by simp [Stage.phase]⟩
    · simp
  obtain ⟨owner, hinv⟩ := hstart.exec h
  rw [List.nil_append] at hinv
  have hended : .deleted ∈ outcomes es ∨ .notDeleted ∈ outcomes es := by
    by_contra hneither
    exact hsettled.1 (hinv.pending.mpr (not_or.mp hneither))
  rw [hinv.together_iff_order, mem_harmless_iff _ hinv.possible hended]

/-! ### Ed -/

/-- What Google tells of Ed. -/
def edsProfile : ThirdPartyProfile where
  givenName := some "Ed"
  familyName := some "Lee"
  email := some "ed@example.com"

/-- The setup page when it is presented to Ed. -/
def presented : State where
  page := setupPageVC "Ed" "Lee" "ed@example.com" "ed"
  auth := { identities := setData ∅ "ed" "u1" }

/-- Ed fills in the form, signs in again and is saved. -/
def completing : List FlowEvent :=
  [.setup (.edit (filledIn { isSymbolImage := true })), .setup .continuePressed,
    .setup (.signIn (.ok "u2")), .setup (.setData false)]

lemma tapped_edsProfile : ThirdPartyButton.loginWithGoogle.tapped edsProfile {} "ed" (.ok "u1") =
    (presented.auth, .presentSetup presented.page "u1") := rfl

/-- The first account is deleted before Ed signs in again. -/
theorem together_iff_completing : ∃ f,
    exec (flowStep may2022 1651363200 "ed" "u1") { setup := presented }
      (.delete false :: completing) = some f ∧ f.Settled ∧
    (Together "ed" ∅ f ↔ outcomes (.delete false :: completing) ∈ harmless) := by
  have hrun : (exec (flowStep may2022 1651363200 "ed" "u1") { setup := presented }
      (.delete false :: completing)).map (fun f => (f.deletion, f.setup.stage.waiting)) =
      some (.deleted, false) := by decide +kernel
  obtain ⟨f, hf, hend⟩ := Option.map_eq_some_iff.mp hrun
  obtain ⟨hdeleted, hwaiting⟩ := Prod.mk.inj hend
  have hsettled : f.Settled := ⟨by rw [hdeleted]; decide, hwaiting⟩
  exact ⟨f, hf, hsettled, together_iff tapped_edsProfile (by decide) hf hsettled⟩

/-- The first account is deleted after Ed has signed in to it again: his document
has no account. If Ed fills in nothing and the deletion fails, his account has no
document. -/
theorem completing_deleted :
    (∃ f, exec (flowStep may2022 1651363200 "ed" "u1") { setup := presented }
        (completing ++ [.delete false]) = some f ∧ f.Settled ∧
      f.setup.auth.identities.lookup "ed" = none ∧ f.setup.users.lookup "u1" ≠ none ∧
      ¬ Together "ed" ∅ f) ∧
    ∃ f, exec (flowStep may2022 1651363200 "ed" "u1") { setup := presented }
        [.delete true] = some f ∧ f.Settled ∧
      f.setup.auth.identities.lookup "ed" = some "u1" ∧ f.setup.users.lookup "u1" = none ∧
      ¬ Together "ed" ∅ f := by
  constructor
  · have hrun : (exec (flowStep may2022 1651363200 "ed" "u1") { setup := presented }
        (completing ++ [.delete false])).map (fun f => (f.deletion, f.setup.stage.waiting,
          f.setup.auth.identities.lookup "ed", (f.setup.users.lookup "u1").isSome)) =
        some (.deleted, false, none, true) := by decide +kernel
    obtain ⟨f, hf, hend⟩ := Option.map_eq_some_iff.mp hrun
    obtain ⟨hdeleted, hwaiting, hidentity, hdoc⟩ : _ ∧ _ ∧ _ ∧ _ := by
      simpa only [Prod.mk.injEq] using hend
    have hstored : f.setup.users.lookup "u1" ≠ none := Option.isSome_iff_ne_none.mp hdoc
    refine ⟨f, hf, ⟨by rw [hdeleted]; decide, hwaiting⟩, hidentity, hstored, fun ht => ?_⟩
    have howned := ht.owner "u1" (by simpa using hstored)
    exact absurd (hidentity.symm.trans howned) (by simp)
  · have hrun : (exec (flowStep may2022 1651363200 "ed" "u1") { setup := presented }
        [.delete true]).map (fun f => (f.deletion, f.setup.stage.waiting,
          f.setup.auth.identities.lookup "ed", f.setup.users.lookup "u1" |>.isNone)) =
        some (.failed, false, some "u1", true) := by decide +kernel
    obtain ⟨f, hf, hend⟩ := Option.map_eq_some_iff.mp hrun
    obtain ⟨hfailed, hwaiting, hidentity, hdoc⟩ : _ ∧ _ ∧ _ ∧ _ := by
      simpa only [Prod.mk.injEq] using hend
    have hnone : f.setup.users.lookup "u1" = none := Option.isNone_iff_eq_none.mp hdoc
    refine ⟨f, hf, ⟨by rw [hfailed]; decide, hwaiting⟩, hidentity, hnone, fun ht => ?_⟩
    obtain ⟨uid, huid, hstored⟩ := ht.account.mp ⟨"u1", hidentity⟩
    obtain rfl := Option.some.inj (hidentity.symm.trans huid)
    exact hstored hnone

end Tasker.Account
