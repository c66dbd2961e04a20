import Tasker.Numerals
import Tasker.Screens.Tasks

/-!
The labels that show employees the price of a task.

* `priceLabel`: a dollar sign, the price and a zero, in the cells of the three
  lists and on the accept page.
* `priceLabel_cents`: the label of a number of cents, which has two places behind
  the point, or three.
* `DollarsAndCents`: what such a label is to be, and `dollarsAndCents_iff`: it is
  that if and only if the price is a whole number of tens of cents.
-/

namespace Tasker

open Decimal

/-! ### Labels -/

/-- The text of a price. -/
def priceLabel (price : Double) : String := "$" ++ price.description ++ "0"

/-- `MyCollectionViewCell`. -/
structure MyCollectionViewCell where
  lbName : String
  lbCity : String
  lbDesc : String
  lbPrice : String
  lbCategory : String
  deriving DecidableEq, Repr

/-- `collectionView(cellForItemAt:)`: the cell of a row. A row out of range, or
without a price, traps. -/
def EmployeeExplorePageViewController.cellForItemAt (vc : EmployeeExplorePageViewController)
    (l : TaskList) (row : ℕ) : Option MyCollectionViewCell :=
  (vc.shown l)[row]?.bind fun task =>
    task.price.map fun price => {
      lbName := task.title
      lbCity := (task.location.bind Address.city).getD "no city"
      lbDesc := task.taskDescription, lbPrice := priceLabel price, lbCategory := task.category }

/-- The label of the price on the accept page. -/
def AcceptTaskViewController.lbRate (vc : AcceptTaskViewController) : String := priceLabel vc.rate

/-! ### Dollars and cents -/

/-- The label shows the dollars and two digits of cents, and is read as that many
cents. -/
structure DollarsAndCents (label : String) (c : ℕ) : Prop where
  digits : ∃ cents, label.toList = '$' :: (Nat.toDigits 10 (c / 100) ++ '.' :: cents) ∧
    cents.length = 2 ∧ ∀ d ∈ cents, isDigit d = true
  value : numeralValue label.toList.tail = some ((c : ℚ) / 100)

/-- The label of a number of cents. -/
lemma priceLabel_cents {c : ℕ} (hc : c < 10 ^ 8) :
    (priceLabel (.ofRat (c / 100))).toList =
      '$' :: if c % 10 = 0 then fixedPoint c 2 else fixedPoint (10 * c) 3 := by
  have htoList : ∀ ds : List Char,
      ("$" ++ String.ofList ds ++ "0").toList = '$' :: (ds ++ ['0']) := by
    intro ds
    simp
  rw [priceLabel, description_ofRat_cents hc, htoList]
  split
  · next htens =>
      have hmul : 10 * (c / 10) = c := by omega
      rw [fixedPoint_append_zero, hmul]
  · rw [fixedPoint_append_zero]

/-- It is read as that many cents, however many places it has. -/
lemma numeralValue_priceLabel {c : ℕ} (hc : c < 10 ^ 8) :
    numeralValue (priceLabel (.ofRat (c / 100))).toList.tail = some ((c : ℚ) / 100) := by
  rw [priceLabel_cents hc, List.tail_cons]
  split
  · rw [numeralValue_fixedPoint]
    norm_num
  · rw [numeralValue_fixedPoint, Nat.cast_mul]
    congr 1
    norm_num
    ring

/-- The label is dollars and cents if it has two places. -/
lemma dollarsAndCents_priceLabel_iff {c : ℕ} (hc : c < 10 ^ 8) :
    DollarsAndCents (priceLabel (.ofRat (c / 100))) c ↔ c % 10 = 0 := by
  constructor
  · intro h
    by_contra htens
    obtain ⟨cents, hlabel, hlength, -⟩ := h.digits
    have hdollars : 10 * c / 10 ^ 3 = c / 100 := by omega
    rw [priceLabel_cents hc, if_neg htens, fixedPoint, hdollars] at hlabel
    have hcents := (List.cons.inj (List.append_cancel_left (List.cons.inj hlabel).2)).2
    rw [← hcents, length_lastDigits] at hlength
    omega
  · intro htens
    refine ⟨⟨lastDigits 2 c, ?_, length_lastDigits 2 c, ?_⟩, numeralValue_priceLabel hc⟩
    · have hdollars : c / 10 ^ 2 = c / 100 := by norm_num
      rw [priceLabel_cents hc, if_pos htens, fixedPoint, hdollars]
    · intro d hd
      rw [isDigit_eq_isDigit]
      exact isDigit_of_mem_lastDigits hd

/-- **Price labels**: those of a task's price in the three lists and on the accept
page are dollars and cents, if and only if the price is a whole number of tens of
cents. -/
theorem dollarsAndCents_iff {vc : EmployeeExplorePageViewController}
    {l : EmployeeExplorePageViewController.TaskList} {row c : ℕ} {task : Errand}
    (hrow : (vc.shown l)[row]? = some task) (hc : c < 10 ^ 8)
    (hprice : task.price = some (.ofRat (c / 100))) :
    (∃ cell, vc.cellForItemAt l row = some cell ∧ (DollarsAndCents cell.lbPrice c ↔ c % 10 = 0)) ∧
      ∀ userID clientID docID, task.clientID = some clientID → task.docID = some docID →
        ∃ page, vc.didSelectItemAt userID l row = some page ∧
          (DollarsAndCents page.lbRate c ↔ c % 10 = 0) := by
  constructor
  · rw [EmployeeExplorePageViewController.cellForItemAt, hrow, Option.bind_some, hprice,
      Option.map_some]
    exact ⟨_, rfl, dollarsAndCents_priceLabel_iff hc⟩
  · intro userID clientID docID hclient hdoc
    rw [EmployeeExplorePageViewController.didSelectItemAt, hrow, Option.bind_some, hclient, hdoc,
      hprice]
    exact ⟨_, rfl, dollarsAndCents_priceLabel_iff hc⟩

/-- Twelve dollars and fifty cents. -/
theorem dollarsAndCents_iff_twelveFifty :
    let task : Errand := {
      docID := some "task", title := "Mow the lawn", category := "engineering"
      taskDescription := "front yard", price := some (.ofRat ((1250 : ℕ) / 100))
      clientID := some "client" }
    let vc : EmployeeExplorePageViewController := { skillsTasks := [task] }
    (∃ cell, vc.cellForItemAt .skills 0 = some cell ∧
        (DollarsAndCents cell.lbPrice 1250 ↔ 1250 % 10 = 0)) ∧
      ∀ userID clientID docID, task.clientID = some clientID → task.docID = some docID →
        ∃ page, vc.didSelectItemAt userID .skills 0 = some page ∧
          (DollarsAndCents page.lbRate 1250 ↔ 1250 % 10 = 0) := by
  intro task vc
  exact dollarsAndCents_iff rfl (by norm_num) rfl

/-- Twelve dollars and thirty-four cents, with three places. -/
theorem priceLabel_twelveThirtyFour :
    let task : Errand := {
      docID := some "task", title := "Mow the lawn", category := "engineering"
      taskDescription := "front yard", price := some (.ofRat ((1234 : ℕ) / 100))
      clientID := some "client" }
    let vc : EmployeeExplorePageViewController := { skillsTasks := [task] }
    (vc.cellForItemAt .skills 0).map MyCollectionViewCell.lbPrice = some "$12.340" ∧
      (vc.didSelectItemAt (some "employee") .skills 0).map AcceptTaskViewController.lbRate =
        some "$12.340" ∧
      ¬ DollarsAndCents "$12.340" 1234 := by
  refine ⟨by decide +kernel, by decide +kernel, ?_⟩
  have hlabel : priceLabel (.ofRat ((1234 : ℕ) / 100)) = "$12.340" := by decide +kernel
  rw [← hlabel, dollarsAndCents_priceLabel_iff (by norm_num)]
  decide

end Tasker
