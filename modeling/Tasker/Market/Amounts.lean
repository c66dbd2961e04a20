import Tasker.Numerals
import Tasker.Screens.SubmitTask

/-!
The amounts of money a task is posted for.

* `posted`: what a fresh page posts after one edit of the price, and
  `map_price_posted`: it is posted for the number entered if that is below the
  limit; `posted_cents`: so are amounts with two places.
* `PostsAmount`: a task is posted if an amount is entered, and for an amount.
* `postsAmount_iff`: that is so unless the text is a number below zero, which
  passes the comparison with the limit.
-/

namespace Tasker.SubmitTaskViewController

open Decimal

/-- What a fresh page posts after an edit of the price. -/
def posted (task : Errand) (priceText : String) (now : ℤ) : Option Errand :=
  ((({ task } : SubmitTaskViewController).textFieldEndedEditing priceText).postTaskButtonPressed
    now).2

/-- A number that is an amount of money to be asked for. -/
def IsAmount : Double → Prop
  | .finite p => 0 ≤ p ∧ p < 1000000
  | _ => False

/-- A task is posted if an amount is entered, and for an amount. -/
structure PostsAmount (priceText : String) (posted : Option Errand) : Prop where
  isSome_iff : posted.isSome = true ↔ ∃ price, double priceText = some price ∧ IsAmount price
  isAmount : ∀ task ∈ posted, ∃ price, task.price = some price ∧ IsAmount price

lemma PostsAmount.isAmount_of_price {priceText : String} {posted : Option Errand}
    {price : Double} (h : PostsAmount priceText posted)
    (hprice : posted.map Errand.price = some (some price)) : IsAmount price := by
  obtain ⟨task, htask, heq⟩ := Option.map_eq_some_iff.mp hprice
  obtain ⟨amount, hamount, hp⟩ := h.isAmount task htask
  exact Option.some.inj (heq.symm.trans hamount) ▸ hp

/-- A task is posted for the number entered, if that is below the limit. -/
lemma map_price_posted (task : Errand) (priceText : String) (now : ℤ) :
    (posted task priceText now).map Errand.price =
      ((double priceText).filter fun cost => cost.lt priceLimit).map some := by
  rw [posted, textFieldEndedEditing]
  cases double priceText with
  | none => rfl
  | some cost =>
      cases hlt : cost.lt priceLimit with
      | true => simp [postTaskButtonPressed, hlt]
      | false => simp [postTaskButtonPressed, hlt]

lemma isSome_posted_iff (task : Errand) (priceText : String) (now : ℤ) :
    (posted task priceText now).isSome = true ↔
      ∃ cost, double priceText = some cost ∧ cost.lt priceLimit = true := by
  have h := congrArg Option.isSome (map_price_posted task priceText now)
  rw [Option.isSome_map, Option.isSome_map] at h
  rw [h, Option.isSome_iff_exists]
  exact exists_congr fun cost => Option.filter_eq_some_iff

lemma price_of_mem_posted {task posted' : Errand} {priceText : String} {now : ℤ}
    (h : posted' ∈ posted task priceText now) :
    ∃ cost, double priceText = some cost ∧ cost.lt priceLimit = true ∧
      posted'.price = some cost := by
  have hprice := map_price_posted task priceText now
  rw [Option.mem_def.mp h, Option.map_some] at hprice
  obtain ⟨cost, hcost, heq⟩ := Option.map_eq_some_iff.mp hprice.symm
  obtain ⟨hdouble, hlt⟩ := Option.filter_eq_some_iff.mp hcost
  exact ⟨cost, hdouble, hlt, heq.symm⟩

/-- An amount typed with two places is posted as that number of cents. -/
theorem posted_cents (task : Errand) {c : ℕ} (hc : c < 10 ^ 8) (now : ℤ) :
    (posted task (String.ofList (fixedPoint c 2)) now).map Errand.price =
      some (some (.ofRat (c / 100))) := by
  have hvalue : numeralValue (fixedPoint c 2) = some ((c : ℚ) / 100) := by
    rw [numeralValue_fixedPoint]
    norm_num
  obtain ⟨x, hround, -, hx⟩ := ofRat_cents hc
  have hlimit : (Double.ofRat (c / 100)).lt priceLimit = true := by
    rw [hround]
    exact decide_eq_true (hx.trans_eq (by norm_num))
  rw [map_price_posted, double_of_numeralValue hvalue, Option.filter_some, if_pos hlimit,
    Option.map_some]

/-- What is below zero is below the limit. -/
lemma lt_priceLimit_of_lt_zero {price : Double} (h : price.lt (.finite 0) = true) :
    price.lt priceLimit = true := by
  cases price with
  | finite p => exact decide_eq_true ((of_decide_eq_true h).trans (by norm_num))
  | negInfinity => rfl
  | infinity => exact h
  | nan => exact h

/-- An amount takes two comparisons, and the page makes one of them. -/
lemma isAmount_iff (price : Double) :
    IsAmount price ↔ price.lt priceLimit = true ∧ price.lt (.finite 0) = false := by
  cases price with
  | finite p =>
      have hlimit : (Double.finite p).lt priceLimit = true ↔ p < 1000000 := decide_eq_true_iff
      have hzero : (Double.finite p).lt (.finite 0) = false ↔ 0 ≤ p :=
        decide_eq_false_iff_not.trans not_lt
      rw [hlimit, hzero]
      exact and_comm
  | infinity => exact iff_of_false id (by decide)
  | negInfinity => exact iff_of_false id (by decide)
  | nan => exact iff_of_false id (by decide)

/-- **Amounts posted**: a task is posted for the amounts and for nothing else, if and
only if the text is not a number below zero. -/
theorem postsAmount_iff (task : Errand) (priceText : String) (now : ℤ) :
    PostsAmount priceText (posted task priceText now) ↔ ¬ BelowZero priceText := by
  rw [← double_lt_zero_iff]
  constructor
  · rintro h ⟨cost, hcost, hneg⟩
    have hposted := (isSome_posted_iff task priceText now).mpr
      ⟨cost, hcost, lt_priceLimit_of_lt_zero hneg⟩
    obtain ⟨price, hprice, hamount⟩ := h.isSome_iff.mp hposted
    obtain rfl := Option.some.inj (hcost.symm.trans hprice)
    rw [((isAmount_iff cost).mp hamount).2] at hneg
    exact absurd hneg (by simp)
  · intro h
    have hamount : ∀ {cost}, double priceText = some cost → cost.lt priceLimit = true →
        IsAmount cost := by
      intro cost hcost hlt
      exact (isAmount_iff cost).mpr ⟨hlt, Bool.eq_false_iff.mpr fun hneg => h ⟨cost, hcost, hneg⟩⟩
    constructor
    · rw [isSome_posted_iff]
      exact exists_congr fun cost => and_congr_right fun hcost =>
        ⟨hamount hcost, fun h => ((isAmount_iff cost).mp h).1⟩
    · intro posted' hposted
      obtain ⟨cost, hcost, hlt, hprice⟩ := price_of_mem_posted hposted
      exact ⟨cost, hprice, hamount hcost hlt⟩

/-- A task posted for minus five dollars, and one posted for minus infinity. -/
theorem posted_belowZero :
    let task := ({ uid := "client" } : ListTaskViewController).navigateToSubmitVC
    ((posted task "-5" 0).map Errand.price = some (some (.finite (-5))) ∧
        ¬ PostsAmount "-5" (posted task "-5" 0)) ∧
      (posted task "-inf" 0).map Errand.price = some (some .negInfinity) ∧
        ¬ PostsAmount "-inf" (posted task "-inf" 0) := by
  intro task
  have hfive : (posted task "-5" 0).map Errand.price = some (some (.finite (-5))) := by
    decide +kernel
  have hinfinity : (posted task "-inf" 0).map Errand.price = some (some .negInfinity) := by
    decide +kernel
  exact ⟨⟨hfive, fun h => absurd (h.isAmount_of_price hfive).1 (by norm_num)⟩,
    hinfinity, fun h => h.isAmount_of_price hinfinity⟩

end Tasker.SubmitTaskViewController
