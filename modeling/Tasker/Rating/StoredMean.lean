import Tasker.Rating.RateSession
import Tasker.Screens.Profile

/-!
How far the stored rating is from the mean of the ratings given.

Ratings are given one after another: each session loads the document, gives one
to five stars in each category and is submitted.

* `rate`: the session of one rating; `value`: the rating given.
* `rate_eq_some`: it leaves the count and the mean as `addValue` does.
* `abs_rating_sub_mean_le`: after `n` ratings of a user who has just registered
  the stored rating is off by a quarter of a hundredth times `n + 1` at most;
  `two_ratings_off` is off by more than half a hundredth after two.
* `rating_frozen`: after eight hundred ratings the stored rating never changes
  any more.
-/

namespace Tasker.RateSession

open DocStore EventSystem RunningMean RateUserViewController

/-- A rating: the screen it is given on, and the buttons tapped. -/
structure Given where
  employeeID : String
  clientID : String := ""
  docID : String
  category1 : Fin 5
  category2 : Fin 5
  category3 : Fin 5

namespace Given

/-- The screen as it opens. -/
def vc (x : Given) : RateUserViewController :=
  { employeeID := x.employeeID, clientID := x.clientID, docID := x.docID }

def screen (x : Given) (store : Store) : State := start store x.employeeID x.clientID x.docID

/-- The load is answered, then the stars are tapped. -/
def events (x : Given) : List Event :=
  [.serve, .answer .document, .star .category1 x.category1, .star .category2 x.category2,
    .star .category3 x.category3]

/-- The stars of a category. -/
def stars (tag : Fin 5) : ℤ := tag + 1

/-- The rating given. -/
def value (x : Given) : ℚ := (stars x.category1 + stars x.category2 + stars x.category3 : ℤ) / 3

end Given

/-- The stored documents after a rating. -/
def rate (store : Store) (x : Given) : Option Store :=
  (exec step (x.screen store) (x.events ++ [.complete])).map State.store

/-- The users document of `u` holds a count and a rating. -/
def Holds (u : String) (store : Store) (p : ℕ × ℚ) : Prop :=
  ∃ d, store.users.lookup u = some d ∧ d.numRatings = some (p.1 : ℤ) ∧ d.rating = some p.2

/-! ### One rating -/

/-- The session after the answer with the document `d` and the taps. -/
def Given.filledIn (x : Given) (store : Store) (d : User) (p : ℕ × ℚ) : State where
  store := store
  vc := (({ (x.screen store).vc with numOfRatings := p.1, currentRating := p.2 }.starButtonTapped
    .category1 x.category1).starButtonTapped .category2 x.category2).starButtonTapped .category3
    x.category3
  tapped := Function.update (Function.update (Function.update (x.screen store).tapped
    .category1 (some x.category1)) .category2 (some x.category2)) .category3 (some x.category3)
  served := some (.document d)
  answered := true
  delivered := some d

variable {u : String} {store : Store} {p : ℕ × ℚ} {d : User} {x : Given}

lemma exec_events (hd : store.users.lookup x.vc.requestedID = some d)
    (hn : d.numRatings = some (p.1 : ℤ)) (hr : d.rating = some p.2) :
    exec step (x.screen store) x.events = some (x.filledIn store d p) := by
  have hserve : step (x.screen store) .serve =
      some { x.screen store with served := some (.document d) } := by
    rw [step, if_neg (by simp [Given.screen, start])]
    exact congrArg (fun o => some { x.screen store with served := some (Fetched.ofLookup o) }) hd
  rw [Given.events, exec_cons, hserve, Option.bind_some, exec_cons, step,
    if_neg (by simp [Given.screen, start])]
  simp only [State.callback, Option.bind_some, retriveRatings_document hn hr, Option.map_some]
  rfl

/-- The first tap on a star gives its number. -/
lemma tapStar_starButtons (rating : ℤ) (tag : Fin 5) :
    (tapStar starButtons rating tag).2 = Given.stars tag := by
  simp [tapStar, starButtons, Given.stars]

lemma filledIn_categories : (x.filledIn store d p).vc.category1Rating = Given.stars x.category1 ∧
    (x.filledIn store d p).vc.category2Rating = Given.stars x.category2 ∧
    (x.filledIn store d p).vc.category3Rating = Given.stars x.category3 :=
  ⟨tapStar_starButtons 0 _, tapStar_starButtons 0 _, tapStar_starButtons 0 _⟩

lemma validateFields_filledIn : (x.filledIn store d p).vc.validateFields = none := by
  obtain ⟨h₁, h₂, h₃⟩ : _ ∧ _ ∧ _ := filledIn_categories (x := x) (d := d) (p := p)
  rw [validateFields_eq_none, h₁, h₂, h₃, Given.stars, Given.stars, Given.stars]
  omega

/-- The fields that a rating writes. -/
lemma ratingFields_filledIn : (x.filledIn store d p).vc.ratingFields =
    { numRatings := some ((addValue roundHundredths p x.value).1 : ℤ),
      rating := some (addValue roundHundredths p x.value).2 } := by
  obtain ⟨h₁, h₂, h₃⟩ : _ ∧ _ ∧ _ := filledIn_categories (x := x) (d := d) (p := p)
  have hgiven : (x.filledIn store d p).vc.given = x.value := by
    rw [given_eq, h₁, h₂, h₃]
    rfl
  have hmean : (x.filledIn store d p).vc.mean = (p.2 * p.1 + x.value) / (p.1 + 1) := by
    rw [mean_eq, hgiven]
    rfl
  rw [ratingFields_eq, hmean, addValue]
  rfl

/-- A rating leaves the count and the mean with one more value. -/
lemma rate_eq_some (h : Holds u store p) (hx : x.vc.requestedID = u) :
    ∃ store', rate store x = some store' ∧ Holds u store' (addValue roundHundredths p x.value) := by
  obtain ⟨d, hd, hn, hr⟩ := h
  subst hx
  have hid : (x.filledIn store d p).vc.requestedID = x.vc.requestedID := by
    simp only [Given.filledIn, starButtonTapped_requestedID]
    rfl
  have hcomplete : exec step (x.screen store) (x.events ++ [.complete]) = some
      { x.filledIn store d p with
        vc := (x.filledIn store d p).vc.completeButtonTapped.1
        store := (x.filledIn store d p).vc.completeButtonTapped.2.foldl
          (fun st w => w.apply st) store } :=
    exec_concat_eq_some.mpr ⟨x.filledIn store d p, exec_events hd hn hr, rfl⟩
  have hlookup := lookup_complete (s := x.filledIn store d p) (hid ▸ hd)
  rw [if_pos validateFields_filledIn, hid] at hlookup
  refine ⟨_, congrArg (Option.map State.store) hcomplete, _, hlookup, ?_, ?_⟩
  · rw [ratingFields_filledIn]
    rfl
  · rw [ratingFields_filledIn]
    rfl

/-! ### Ratings one after another -/

/-- The ratings leave the count and the mean that `addValue` leaves. -/
lemma exec_rate {xs : List Given} (h : Holds u store p)
    (hxs : ∀ x ∈ xs, x.vc.requestedID = u) : ∃ store',
      exec rate store xs = some store' ∧
      Holds u store' ((xs.map Given.value).foldl (addValue roundHundredths) p) := by
  induction xs generalizing store p with
  | nil => exact ⟨store, rfl, h⟩
  | cons x xs ih =>
      obtain ⟨store', hrate, hholds⟩ := rate_eq_some h (hxs x (by simp))
      obtain ⟨store'', hexec, hlast⟩ := ih hholds fun x' hx' => hxs x' (by simp [hx'])
      exact ⟨store'', exec_cons_eq_some.mpr ⟨store', hrate, hexec⟩, hlast⟩

/-- A user who has just registered has no ratings. -/
lemma holds_setUserData (u : String) (r : Registration) (store : Store) :
    Holds u (Write.apply (.setUser u (setUserData r u)) store) (0, 0) := by
  refine ⟨setUserData r u, ?_, rfl, rfl⟩
  rw [setUser_users, lookup_setData_self]

/-- **The stored rating and the mean**: after `n` ratings of a user who has just
registered, the stored rating differs from the mean of the ratings given by
`0.0025 (n + 1)` at most. -/
theorem abs_rating_sub_mean_le (u : String) (r : Registration) (store : Store) {xs : List Given}
    (hne : xs ≠ []) (hxs : ∀ x ∈ xs, x.vc.requestedID = u) :
    ∃ store' d q, exec rate (Write.apply (.setUser u (setUserData r u)) store) xs = some store' ∧
      store'.users.lookup u = some d ∧ d.numRatings = some (xs.length : ℤ) ∧ d.rating = some q ∧
      |q - (xs.map Given.value).sum / xs.length| ≤ 0.0025 * (xs.length + 1) := by
  obtain ⟨store', hexec, d, hd, hn, hr⟩ := exec_rate (holds_setUserData u r store) hxs
  rw [foldl_addValue_fst, List.length_map, zero_add] at hn
  refine ⟨store', d, _, hexec, hd, hn, hr, ?_⟩
  have hpos : (0 : ℚ) < xs.length := by exact_mod_cast List.length_pos_of_ne_nil hne
  have hsum := abs_foldl_addValue_sub_le abs_roundHundredths_sub_le (xs.map Given.value)
  rw [List.length_map] at hsum
  set q := ((xs.map Given.value).foldl (addValue roundHundredths) (0, 0)).2
  calc |q - (xs.map Given.value).sum / xs.length|
      = |q * xs.length - (xs.map Given.value).sum| / xs.length := by
        rw [← abs_of_pos hpos, ← abs_div, abs_of_pos hpos, sub_div,
          mul_div_cancel_right₀ _ hpos.ne']
    _ ≤ 1 / 200 * (xs.length * (xs.length + 1) / 2) / xs.length :=
        div_le_div_of_nonneg_right hsum hpos.le
    _ = 0.0025 * (xs.length + 1) := by
        field_simp
        norm_num

/-! ### Many ratings -/

/-- A rating given lies between one and five. -/
lemma Given.value_mem_Icc (x : Given) : x.value ∈ Set.Icc (1 : ℚ) 5 := by
  have hstars : ∀ tag : Fin 5, 1 ≤ stars tag ∧ stars tag ≤ 5 := by decide
  have hlo : 3 ≤ stars x.category1 + stars x.category2 + stars x.category3 := by
    linarith [(hstars x.category1).1, (hstars x.category2).1, (hstars x.category3).1]
  have hhi : stars x.category1 + stars x.category2 + stars x.category3 ≤ 15 := by
    linarith [(hstars x.category1).2, (hstars x.category2).2, (hstars x.category3).2]
  rw [value, Set.mem_Icc, le_div_iff₀ (by norm_num), div_le_iff₀ (by norm_num)]
  constructor
  · exact_mod_cast hlo
  · exact_mod_cast hhi

/-- After eight hundred ratings no rating between one and five moves the mean by
half a hundredth. -/
lemma foldl_addValue_eq_self {gs : List ℚ} {n : ℕ} {m : ℤ} (hn : 800 ≤ n)
    (hm : (m / 100 : ℚ) ∈ Set.Icc (1 : ℚ) 5) (hgs : ∀ g ∈ gs, g ∈ Set.Icc (1 : ℚ) 5) :
    gs.foldl (addValue roundHundredths) (n, (m / 100 : ℚ)) = (n + gs.length, (m / 100 : ℚ)) := by
  induction gs generalizing n with
  | nil => rfl
  | cons g gs ih =>
      obtain ⟨hlo, hhi⟩ := hgs g (by simp)
      have hcast : (800 : ℚ) ≤ n := by exact_mod_cast hn
      have hnear : |g - m / 100| < ((n : ℚ) + 1) / 200 := by
        rw [abs_lt]
        constructor
        · linarith [hm.2]
        · linarith [hm.1]
      rw [List.foldl_cons, addValue_eq_self hnear,
        ih (by omega) fun g' hg' => hgs g' (by simp [hg']),
        List.length_cons]
      congr 1
      omega

/-- From eight hundred ratings on, the stored rating stays what it is, whatever
is given. -/
theorem rating_frozen {xs : List Given} {n : ℕ} {m : ℤ} (h : Holds u store (n, (m / 100 : ℚ)))
    (hn : 800 ≤ n) (hm : (m / 100 : ℚ) ∈ Set.Icc (1 : ℚ) 5)
    (hxs : ∀ x ∈ xs, x.vc.requestedID = u) : ∃ store',
      exec rate store xs = some store' ∧ Holds u store' (n + xs.length, (m / 100 : ℚ)) := by
  obtain ⟨store', hexec, hholds⟩ := exec_rate h hxs
  refine ⟨store', hexec, ?_⟩
  have hvalues : ∀ g ∈ xs.map Given.value, g ∈ Set.Icc (1 : ℚ) 5 := by
    intro g hg
    obtain ⟨x, -, rfl⟩ := List.mem_map.mp hg
    exact x.value_mem_Icc
  rwa [foldl_addValue_eq_self hn hm hvalues, List.length_map] at hholds

/-! ### Two ratings -/

def newcomer : Registration where
  email := "eve@example.com"
  skills := "Painting"
  firstName := "Eve"
  lastName := "Doe"
  dateOfBirth := "01/01/2000"
  city := "Davis"
  street := "1 Main Street"
  zipCode := 95616
  bio := "Hi"
  state := "CA"

/-- Five, five and four stars, then five stars throughout. -/
def twoRatings : List Given :=
  [{ employeeID := "e", docID := "t1", category1 := Fin.last 4, category2 := Fin.last 4,
      category3 := Fin.ofNat 5 3 },
    { employeeID := "e", docID := "t2", category1 := Fin.last 4, category2 := Fin.last 4,
      category3 := Fin.last 4 }]

theorem abs_rating_sub_mean_le_two : ∃ store' d q,
    exec rate (Write.apply (.setUser "e" (setUserData newcomer "e")) {}) twoRatings = some store' ∧
      store'.users.lookup "e" = some d ∧ d.numRatings = some (twoRatings.length : ℤ) ∧
      d.rating = some q ∧
      |q - (twoRatings.map Given.value).sum / twoRatings.length| ≤
        0.0025 * (twoRatings.length + 1) :=
  abs_rating_sub_mean_le "e" newcomer {} (by simp [twoRatings]) (by decide)

/-- The first rating is stored as `4.67`, and with it the second leaves `4.84`; the
mean is `29 / 6`. -/
theorem two_ratings_off : ∃ store' d,
    exec rate (Write.apply (.setUser "e" (setUserData newcomer "e")) {}) twoRatings = some store' ∧
      store'.users.lookup "e" = some d ∧ d.rating = some 4.84 ∧
      ¬ |4.84 - (twoRatings.map Given.value).sum / twoRatings.length| ≤ 0.005 := by
  have hrun : (exec rate (Write.apply (.setUser "e" (setUserData newcomer "e")) {})
      twoRatings).map (fun store' => (store'.users.lookup "e").map User.rating) =
      some (some (some 4.84)) := by
    decide +kernel
  have hmean : (twoRatings.map Given.value).sum / twoRatings.length = 29 / 6 := by decide +kernel
  obtain ⟨store', hexec, hend⟩ := Option.map_eq_some_iff.mp hrun
  obtain ⟨d, hd, hr⟩ := Option.map_eq_some_iff.mp hend
  refine ⟨store', d, hexec, hd, hr, ?_⟩
  rw [hmean]
  norm_num

end Tasker.RateSession
