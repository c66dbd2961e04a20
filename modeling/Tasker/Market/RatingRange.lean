import Tasker.Market.System

/-!
The range of the stored ratings.

* `InRange`: no ratings yet, or a rating of one to five stars in whole
  hundredths.
* `inRange_submission`: a submission keeps the range, whatever values in range
  its page holds: the values loaded, older ones, or the zeros of a page whose
  load has not been answered.
* `ratingRange`: the discipline; every queued write and every page carries
  values in range, so that no interleaving matters.
* `rating_inRange`: every stored users document is in range, in every state of
  every run, writes refused or not.
-/

namespace Tasker.Market

open DocStore EventSystem WriteQueue RunningMean

/-- A count and a rating: none yet, or one to five stars in whole
hundredths. -/
def InRange (n : ℤ) (r : ℚ) : Prop :=
  (n = 0 ∧ r = 0) ∨ (1 ≤ n ∧ 1 ≤ r ∧ r ≤ 5 ∧ ∃ m : ℤ, r = m / 100)

/-- A users document, or the fields of a write, with a count and a rating in
range. -/
def Rated (d : User) : Prop := ∃ n r, d.numRatings = some n ∧ d.rating = some r ∧ InRange n r

/-- A rating page as the taps leave it, with values in range. -/
structure RatedPage (vc : RateUserViewController) : Prop where
  wf : vc.Wf
  inRange : InRange vc.numOfRatings vc.currentRating

lemma setUserData_rated (r : Registration) (u : String) : Rated (setUserData r u) :=
  ⟨0, 0, rfl, rfl, Or.inl ⟨rfl, rfl⟩⟩

/-- The mean of the values of a page and the rating given is a rating. -/
lemma mean_mem_Icc {vc : RateUserViewController} (h : RatedPage vc)
    (hv : vc.validateFields = none) : vc.mean ∈ Set.Icc (1 : ℚ) 5 := by
  have hgiven := h.wf.given_mem_Icc hv
  rcases h.inRange with ⟨hn, hr⟩ | ⟨hn, hlo, hhi, -⟩
  · rw [RateUserViewController.mean, hn, hr]
    simpa using hgiven
  · have hn' : (0 : ℚ) ≤ vc.numOfRatings := by
      have : (1 : ℚ) ≤ vc.numOfRatings := by exact_mod_cast hn
      linarith
    exact runningMean_mem_Icc hn' ⟨hlo, hhi⟩ hgiven

/-- A submission writes a count and a rating in range. -/
lemma inRange_submission {vc : RateUserViewController} (h : RatedPage vc)
    (hv : vc.validateFields = none) : Rated vc.ratingFields := by
  have hmean := mean_mem_Icc h hv
  obtain ⟨hlo, hhi⟩ := hundredths_bounds (a := 1) (b := 5) (by exact_mod_cast hmean.1)
    (by exact_mod_cast hmean.2)
  have hn : 1 ≤ vc.numOfRatings + 1 := by
    rcases h.inRange with ⟨hn, -⟩ | ⟨hn, -⟩ <;> omega
  exact ⟨_, _, rfl, rfl, Or.inr ⟨hn, by exact_mod_cast hlo, by exact_mod_cast hhi,
    exists_hundredths _⟩⟩

/-- What an answer shows is in range if the document is. -/
lemma RatedPage.retriveRatings {vc vc' : RateUserViewController} {answered : Bool}
    {o : Option User} (h : RatedPage vc) (ho : ∀ d, o = some d → Rated d)
    (hload : vc.retriveRatings (fetch answered o) = some vc') : RatedPage vc' := by
  refine ⟨h.wf.retriveRatings hload, ?_⟩
  have hsame : vc.retriveRatings .error = some vc' ∨ vc.retriveRatings .missing = some vc' →
      InRange vc'.numOfRatings vc'.currentRating := by
    rintro (h' | h') <;> exact Option.some.inj h' ▸ h.inRange
  cases answered with
  | false => exact hsame (Or.inl hload)
  | true =>
      cases o with
      | none => exact hsame (Or.inr hload)
      | some d =>
          obtain ⟨n, r, hn, hr, hrange⟩ := ho d rfl
          have hdoc := hload
          rw [fetch, if_pos rfl, Fetched.ofLookup_some,
            RateUserViewController.retriveRatings_document hn hr] at hdoc
          exact Option.some.inj hdoc ▸ hrange

/-- A write that keeps the range. -/
def RatedWrite : Write → Prop
  | .setUser _ f => Rated f
  | .mergeUser _ f => Rated f
  | .updateUser _ f => f.numRatings = none ∧ f.rating = none
  | _ => True

/-- Fields in range laid over any document give a document in range. -/
lemma Rated.merge {f : User} (h : Rated f) (d : User) : Rated (Document.mergeFields f d) := by
  obtain ⟨n, r, hn, hr, hrange⟩ := h
  exact ⟨n, r, by simp [Document.mergeFields, User.over, hn],
    by simp [Document.mergeFields, User.over, hr], hrange⟩

/-- Other fields laid over a document leave its count and rating. -/
lemma Rated.update {d : User} (h : Rated d) {f : User}
    (hf : f.numRatings = none ∧ f.rating = none) : Rated (Document.updateFields f d) := by
  obtain ⟨n, r, hn, hr, hrange⟩ := h
  exact ⟨n, r, by simp [Document.updateFields, User.over, hf.1, hn],
    by simp [Document.updateFields, User.over, hf.2, hr], hrange⟩

lemma rated_apply {st : Store} {w : Write} (h : AllDocs (fun _ d => Rated d) st.users)
    (hw : RatedWrite w) : AllDocs (fun _ d => Rated d) (w.apply st).users := by
  cases w with
  | setUser u f => exact h.setData hw
  | mergeUser u f => exact h.mergeData (fun _ => Rated.merge hw _) fun d _ _ => Rated.merge hw d
  | updateUser u f => exact h.updateData fun d _ hd => hd.update hw
  | addTask id f => exact h
  | mergeTask id f => exact h
  | updateTask id f => exact h

/-- The writes an action issues, and the pages it leaves, are in range. -/
lemma Effect.rated {uid : Uid} {g g' : Posted} {x x' : Screens} {v : Store} {ws : List Write}
    (h : Effect uid g x v g' x' ws) (hv : AllDocs (fun _ d => Rated d) v.users)
    (hx : ∀ vc ∈ x.rate, RatedPage vc) :
    (∀ w ∈ ws, RatedWrite w) ∧ ∀ vc ∈ x'.rate, RatedPage vc := by
  cases h with
  | own w hw =>
      refine ⟨List.forall_mem_singleton.mpr ?_, hx⟩
      cases hw with
      | register r => exact setUserData_rated r _
      | editProfile p => exact ⟨rfl, rfl⟩
      | signUp => exact ⟨rfl, rfl⟩
      | toggle isOn => exact ⟨rfl, rfl⟩
  | post id form task _ _ => exact ⟨by simp [RatedWrite], hx⟩
  | accept vc u _ _ => exact ⟨by simp [RatedWrite], hx⟩
  | confirmPay vc _ => exact ⟨by simp [PaidMechanismViewController.confirmButtonTapped,
      RatedWrite], hx⟩
  | openRate page task e id _ _ _ _ =>
      exact ⟨by simp, forall_mem_opened hx
        ⟨RateUserViewController.wf_new e id, Or.inl ⟨rfl, rfl⟩⟩⟩
  | loadRate page vc vc' answered hmem hload =>
      have hloaded := (hx vc hmem).retriveRatings (fun d hd => hv _ d hd) hload
      exact ⟨by simp, forall_mem_replaced hx hloaded⟩
  | star page vc c tag hmem =>
      obtain ⟨-, -, -, hn, hr⟩ := RateUserViewController.starButtonTapped_frame vc c tag
      have hwf := (hx vc hmem).wf.starButtonTapped c tag
      exact ⟨by simp, forall_mem_replaced hx ⟨hwf, hn ▸ hr ▸ (hx vc hmem).inRange⟩⟩
  | complete page vc hmem =>
      obtain ⟨-, -, -, hn, hr⟩ := RateUserViewController.completeButtonTapped_frame vc
      have hwf := (hx vc hmem).wf.completeButtonTapped
      refine ⟨fun w hw => ?_, forall_mem_replaced hx ⟨hwf, hn ▸ hr ▸ (hx vc hmem).inRange⟩⟩
      obtain ⟨hval, ⟨u, rfl⟩ | ⟨id, f, rfl⟩⟩ :=
        RateUserViewController.mem_completeButtonTapped hw
      · exact inRange_submission (hx vc hmem) hval
      · trivial
  | _ => exact ⟨by simp, hx⟩

/-- Every write, document and page is in range, whatever the order. -/
def ratingRange {C : Type*} (uid : C → Uid) : Discipline (app uid) where
  StoreOk _ st := AllDocs (fun _ d => Rated d) st.users
  WriteOk _ _ w := RatedWrite w
  ScreenOk _ _ _ x := ∀ vc ∈ x.rate, RatedPage vc
  Grow _ _ := True
  Rely _ _ _ _ := True
  Side _ := True
  Refusable _ _ := True
  grow_store _ _ _ _ h := h
  grow_write _ _ _ _ _ h := h
  grow_screen _ _ _ _ _ _ h := h
  apply _ _ _ h hw := rated_apply h hw
  rely_cons _ _ _ _ _ _ _ hw := ⟨hw, trivial⟩
  rely_nil _ _ _ _ _ _ h := h
  act c g v x a g' x' ws hv hx h := by
    obtain ⟨hws, hx'⟩ := (effect_of_act h).rated hv hx
    exact ⟨trivial, App.queueOk_of_forall hws, hx'⟩
  commit _ _ _ _ _ _ _ _ _ := trivial
  refuse _ _ _ _ _ _ _ := trivial

variable {C : Type*} [DecidableEq C] {uid : C → Uid}

/-- **Range of the ratings**: in every state of every run, with writes refused
or not, every users document has no ratings and a rating of zero, or a rating of
one to five stars in whole hundredths. -/
theorem rating_inRange {es : List (FaultyEvent C Action)}
    {s : State C Store Write Screens Posted} (h : exec (app uid).faultyStep start es = some s)
    {u : String} {d : User} (hd : s.store.users.lookup u = some d) :
    ∃ n r, d.numRatings = some n ∧ d.rating = some r ∧
      ((n = 0 ∧ r = 0) ∨ (1 ≤ n ∧ 1 ≤ r ∧ r ≤ 5 ∧ ∃ m : ℤ, r = m / 100)) := by
  have hstart : (ratingRange uid).Inv start :=
    ⟨allDocs_empty _, fun _ => trivial, fun _ => by simp [ratingRange, start]⟩
  have hinv : (ratingRange uid).Inv s := exec_invariant
    (fun s e s' hs hstep => Discipline.inv_faultyStep trivial hs (fun _ _ => trivial) hstep)
    hstart h
  exact hinv.store u d hd

/-- The employee of a task is registered, rated five stars, and in range. -/
theorem rating_inRange_rated : ∃ s d, exec (app users).faultyStep start
    ((registering .second ++ posting ++ accepting .second ++ rating).map .ok) = some s ∧
    s.store.users.lookup "employee" = some d ∧ d.numRatings = some 1 ∧
    ∃ n r, d.numRatings = some n ∧ d.rating = some r ∧
      ((n = 0 ∧ r = 0) ∨ (1 ≤ n ∧ 1 ≤ r ∧ r ≤ 5 ∧ ∃ m : ℤ, r = m / 100)) := by
  have hrun : (exec (app users).faultyStep start
      ((registering .second ++ posting ++ accepting .second ++ rating).map .ok)).map
      (fun s => (s.store.users.lookup "employee").bind User.numRatings) = some (some 1) := by
    decide +kernel
  obtain ⟨s, hs, hcount⟩ := Option.map_eq_some_iff.mp hrun
  obtain ⟨d, hd, hn⟩ := Option.bind_eq_some_iff.mp hcount
  exact ⟨s, d, hs, hd, hn, rating_inRange hs hd⟩

end Tasker.Market
