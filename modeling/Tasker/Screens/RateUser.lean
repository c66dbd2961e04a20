import Tasker.Double
import Tasker.Firestore

/-!
The rating screen (`RateUserViewController.swift`): a client gives one to five
stars in three categories to the employee of a task.

* `retriveRatings`: the callback of the `getDocument` issued by `viewDidLoad`;
  it takes over the stored count and the stored rating, and traps if a document
  lacks one of them.
* `category1StarButtonTapped` and its two siblings: one handler with the
  category as its parameter.
* `completeButtonTapped`: the mean of the categories, the running mean with the
  values loaded, rounded to two decimals, and the two writes.
* `Rounds`: the numbers of the screen are a parameter: `Double`s in the source, or
  exact rationals, for which `ratingFields_eq` is the mean rounded once.
* `validateFields_eq_none`, `completeButtonTapped_snd`: a submission is
  written exactly when every category is rated, and then it carries the count
  plus one and the rounded mean.
-/

namespace Tasker

open RunningMean

/-- Numbers with `round`, to the nearest integer, halves away from zero. -/
class Rounds (R : Type) where
  round : R → R

instance : Rounds ℚ where
  round x := roundAway x

instance : Rounds Double where
  round := Double.round

/-- A star button: its tag and the title it shows. -/
structure StarButton where
  tag : ℤ
  title : String := "☆"
  deriving DecidableEq, Repr

/-- The five buttons of a category, with their tags from the interface file. -/
def starButtons : List StarButton := [⟨0, "☆"⟩, ⟨1, "☆"⟩, ⟨2, "☆"⟩, ⟨3, "☆"⟩, ⟨4, "☆"⟩]

/-- `RateUserViewController`. -/
structure RateUserViewController (R : Type := ℚ) [Zero R] where
  category1StarButtons : List StarButton := starButtons
  category2StarButtons : List StarButton := starButtons
  category3StarButtons : List StarButton := starButtons
  category1Rating : ℤ := 0
  category2Rating : ℤ := 0
  category3Rating : ℤ := 0
  numOfCategories : ℤ := 3
  numOfRatings : ℤ := 0
  currentRating : R := 0
  givenRating : R := 0
  newUserRating : R := 0
  employeeID : String := ""
  clientID : String := ""
  docID : String := ""
  errorLabel : String := ""
  deriving DecidableEq, Repr

namespace RateUserViewController

section

variable {R : Type} [Zero R]

/-- `retriveEmployeeRatings` and `retriveClientRatings`, the callback: `none`
is the trap of a forced unwrap. -/
def retriveRatings (vc : RateUserViewController R) :
    Fetched (User R) → Option (RateUserViewController R)
  | .document user =>
      match user.numRatings, user.rating with
      | some n, some r => some { vc with numOfRatings := n, currentRating := r }
      | _, _ => none
  | _ => some vc

/-- What the callback does: it takes over a document, and leaves the screen alone
on every other answer. -/
lemma retriveRatings_eq_some {vc vc' : RateUserViewController R} {a : Fetched (User R)} :
    vc.retriveRatings a = some vc' →
      (∃ d n r, a = .document d ∧ d.numRatings = some n ∧ d.rating = some r ∧
        vc' = { vc with numOfRatings := n, currentRating := r }) ∨
      a.toOption = none ∧ vc' = vc := by
  intro h
  cases a with
  | document d =>
      rw [retriveRatings] at h
      split at h
      · next n r hn hr => exact Or.inl ⟨d, n, r, rfl, hn, hr, (Option.some.inj h).symm⟩
      · exact absurd h (by simp)
  | error => exact Or.inr ⟨rfl, (Option.some.inj h).symm⟩
  | missing => exact Or.inr ⟨rfl, (Option.some.inj h).symm⟩
  | undecodable => exact Or.inr ⟨rfl, (Option.some.inj h).symm⟩

/-- The document `viewDidLoad` asks for. -/
def requestedID (vc : RateUserViewController R) : String :=
  if vc.clientID ≠ "" then vc.clientID else vc.employeeID

/-- The loop of the star handlers: every button up to the one tapped shows as
selected and sets the rating. -/
def tapStar (buttons : List StarButton) (rating tag : ℤ) : List StarButton × ℤ :=
  (buttons.map fun b => { b with title := if b.tag ≤ tag then "★" else "☆" },
    if buttons.any fun b => b.tag ≤ tag then tag + 1 else rating)

def category1StarButtonTapped (vc : RateUserViewController R) (tag : ℤ) :
    RateUserViewController R :=
  { vc with
    category1StarButtons := (tapStar vc.category1StarButtons vc.category1Rating tag).1
    category1Rating := (tapStar vc.category1StarButtons vc.category1Rating tag).2 }

def category2StarButtonTapped (vc : RateUserViewController R) (tag : ℤ) :
    RateUserViewController R :=
  { vc with
    category2StarButtons := (tapStar vc.category2StarButtons vc.category2Rating tag).1
    category2Rating := (tapStar vc.category2StarButtons vc.category2Rating tag).2 }

def category3StarButtonTapped (vc : RateUserViewController R) (tag : ℤ) :
    RateUserViewController R :=
  { vc with
    category3StarButtons := (tapStar vc.category3StarButtons vc.category3Rating tag).1
    category3Rating := (tapStar vc.category3StarButtons vc.category3Rating tag).2 }

/-- The three categories. -/
inductive Category where
  | category1
  | category2
  | category3
  deriving DecidableEq, Repr

/-- A star button of a category is tapped; the sender is one of the buttons, so
its tag is one of theirs. -/
def starButtonTapped (vc : RateUserViewController R) (c : Category) (tag : Fin 5) :
    RateUserViewController R :=
  match c with
  | .category1 => vc.category1StarButtonTapped tag
  | .category2 => vc.category2StarButtonTapped tag
  | .category3 => vc.category3StarButtonTapped tag

/-- `validateFields`. -/
def validateFields (vc : RateUserViewController R) : Option String :=
  if vc.category1Rating = 0 ∨ vc.category2Rating = 0 ∨ vc.category3Rating = 0 then
    some "You've left a category unrated."
  else none

variable [Add R] [Mul R] [Div R] [IntCast R] [Rounds R]

/-- The rating given: the mean of the three categories. -/
def given (vc : RateUserViewController R) : R :=
  (vc.category1Rating + vc.category2Rating + vc.category3Rating : ℤ) / vc.numOfCategories

/-- The mean of the ratings loaded and the one given. -/
def mean (vc : RateUserViewController R) : R :=
  (vc.currentRating * vc.numOfRatings + vc.given) / (vc.numOfRatings + (1 : ℤ))

/-- The mean as it is written. -/
def roundedRating (vc : RateUserViewController R) : R :=
  Rounds.round (vc.mean * (100 : ℤ)) / (100 : ℤ)

/-- The fields a submission writes to the users document. -/
def ratingFields (vc : RateUserViewController R) : User R :=
  { numRatings := some (vc.numOfRatings + 1), rating := some vc.roundedRating }

/-- `completeButtonTapped`: the screen and the writes it issues, in order. -/
def completeButtonTapped (vc : RateUserViewController R) :
    RateUserViewController R × List (Write R) :=
  let vc' := { vc with givenRating := vc.given, newUserRating := vc.mean }
  match vc.validateFields with
  | some error => ({ vc' with errorLabel := error }, [])
  | none =>
      if vc.clientID ≠ "" then
        (vc', [.mergeUser vc.clientID vc.ratingFields,
          .mergeTask vc.docID { clientRated := some true }])
      else
        (vc', [.mergeUser vc.employeeID vc.ratingFields,
          .mergeTask vc.docID { employeeRated := some true }])

end

/-! ### Exact numbers -/

lemma given_eq (vc : RateUserViewController) : vc.given =
    (vc.category1Rating + vc.category2Rating + vc.category3Rating : ℤ) / vc.numOfCategories := rfl

lemma mean_eq (vc : RateUserViewController) : vc.mean =
    (vc.currentRating * vc.numOfRatings + vc.given) / (vc.numOfRatings + 1) := rfl

/-- The fields of a submission, with exact numbers. -/
lemma ratingFields_eq (vc : RateUserViewController) : vc.ratingFields =
    { numRatings := some (vc.numOfRatings + 1), rating := some (roundHundredths vc.mean) } := rfl

/-! ### The categories -/

section

variable {R : Type} [Zero R]

/-- A screen as its taps leave it: the buttons carry the tags of the interface
file, and each category is unrated or has one to five stars. -/
structure Wf (vc : RateUserViewController R) : Prop where
  tags1 : vc.category1StarButtons.map StarButton.tag = [0, 1, 2, 3, 4]
  tags2 : vc.category2StarButtons.map StarButton.tag = [0, 1, 2, 3, 4]
  tags3 : vc.category3StarButtons.map StarButton.tag = [0, 1, 2, 3, 4]
  stars1 : 0 ≤ vc.category1Rating ∧ vc.category1Rating ≤ 5
  stars2 : 0 ≤ vc.category2Rating ∧ vc.category2Rating ≤ 5
  stars3 : 0 ≤ vc.category3Rating ∧ vc.category3Rating ≤ 5
  categories : vc.numOfCategories = 3

lemma tapStar_tags (buttons : List StarButton) (rating tag : ℤ) :
    (tapStar buttons rating tag).1.map StarButton.tag = buttons.map StarButton.tag := by
  rw [tapStar, List.map_map]
  rfl

/-- A tap on one of the five stars gives one to five. -/
lemma tapStar_rating {buttons : List StarButton} {rating : ℤ} (tag : Fin 5)
    (h : 0 ≤ rating ∧ rating ≤ 5) :
    0 ≤ (tapStar buttons rating tag).2 ∧ (tapStar buttons rating tag).2 ≤ 5 := by
  have htag := tag.isLt
  simp only [tapStar]
  split <;> omega

/-- A fresh screen for a task. -/
lemma wf_new (employeeID docID : String) :
    Wf (R := R) { employeeID := employeeID, docID := docID } :=
  ⟨rfl, rfl, rfl, by simp, by simp, by simp, rfl⟩

lemma Wf.starButtonTapped {vc : RateUserViewController R} (h : vc.Wf) (c : Category)
    (tag : Fin 5) : (vc.starButtonTapped c tag).Wf := by
  cases c with
  | category1 => exact { h with
      tags1 := (tapStar_tags _ vc.category1Rating _).trans h.tags1
      stars1 := tapStar_rating tag h.stars1 }
  | category2 => exact { h with
      tags2 := (tapStar_tags _ vc.category2Rating _).trans h.tags2
      stars2 := tapStar_rating tag h.stars2 }
  | category3 => exact { h with
      tags3 := (tapStar_tags _ vc.category3Rating _).trans h.tags3
      stars3 := tapStar_rating tag h.stars3 }

lemma Wf.retriveRatings {vc vc' : RateUserViewController R} {a : Fetched (User R)} (h : vc.Wf)
    (ha : vc.retriveRatings a = some vc') : vc'.Wf := by
  rcases retriveRatings_eq_some ha with ⟨d, n, r, -, -, -, rfl⟩ | ⟨-, rfl⟩
  · exact { h with }
  · exact h

lemma validateFields_eq_none {vc : RateUserViewController R} :
    vc.validateFields = none ↔
      vc.category1Rating ≠ 0 ∧ vc.category2Rating ≠ 0 ∧ vc.category3Rating ≠ 0 := by
  rw [validateFields]
  split
  · next h => simp; tauto
  · next h => simp; tauto

/-- The taps leave the parties and the values loaded alone. -/
lemma starButtonTapped_frame (vc : RateUserViewController R) (c : Category) (tag : Fin 5) :
    (vc.starButtonTapped c tag).employeeID = vc.employeeID ∧
      (vc.starButtonTapped c tag).clientID = vc.clientID ∧
      (vc.starButtonTapped c tag).docID = vc.docID ∧
      (vc.starButtonTapped c tag).numOfRatings = vc.numOfRatings ∧
      (vc.starButtonTapped c tag).currentRating = vc.currentRating := by
  cases c <;> exact ⟨rfl, rfl, rfl, rfl, rfl⟩

/-- The document the screen asks for stays the same. -/
lemma starButtonTapped_requestedID (vc : RateUserViewController R) (c : Category) (tag : Fin 5) :
    (vc.starButtonTapped c tag).requestedID = vc.requestedID := by
  obtain ⟨he, hc, -⟩ := starButtonTapped_frame vc c tag
  rw [requestedID, requestedID, he, hc]

/-- The answer of the load takes over the count and the rating of the
document. -/
lemma retriveRatings_document {vc : RateUserViewController R} {d : User R} {n : ℤ} {r : R}
    (hn : d.numRatings = some n) (hr : d.rating = some r) :
    vc.retriveRatings (.document d) = some { vc with numOfRatings := n, currentRating := r } := by
  rw [retriveRatings, hn, hr]

/-- The answer of the load leaves the parties alone. -/
lemma retriveRatings_frame {vc vc' : RateUserViewController R} {a : Fetched (User R)}
    (h : vc.retriveRatings a = some vc') :
    vc'.employeeID = vc.employeeID ∧ vc'.clientID = vc.clientID ∧ vc'.docID = vc.docID := by
  rcases retriveRatings_eq_some h with ⟨d, n, r, -, -, -, rfl⟩ | ⟨-, rfl⟩
  · exact ⟨rfl, rfl, rfl⟩
  · exact ⟨rfl, rfl, rfl⟩

/-- The flag of the task a submission sets. -/
def ratedFlag (vc : RateUserViewController R) : TaskDoc :=
  if vc.clientID ≠ "" then { clientRated := some true } else { employeeRated := some true }

end

/-- A rating that passes the check lies between one and five. -/
lemma Wf.given_mem_Icc {vc : RateUserViewController} (h : vc.Wf)
    (hv : vc.validateFields = none) : vc.given ∈ Set.Icc (1 : ℚ) 5 := by
  obtain ⟨h₁, h₂, h₃⟩ := validateFields_eq_none.mp hv
  have hlo : 3 ≤ vc.category1Rating + vc.category2Rating + vc.category3Rating := by
    have := h.stars1
    have := h.stars2
    have := h.stars3
    omega
  have hhi : vc.category1Rating + vc.category2Rating + vc.category3Rating ≤ 15 := by
    have := h.stars1
    have := h.stars2
    have := h.stars3
    omega
  have hlo' : (3 : ℚ) ≤ (vc.category1Rating + vc.category2Rating + vc.category3Rating : ℤ) := by
    exact_mod_cast hlo
  have hhi' : ((vc.category1Rating + vc.category2Rating + vc.category3Rating : ℤ) : ℚ) ≤ 15 := by
    exact_mod_cast hhi
  rw [given_eq, h.categories]
  exact ⟨by rw [le_div_iff₀ (by norm_num)]; push_cast at *; linarith,
    by rw [div_le_iff₀ (by norm_num)]; push_cast at *; linarith⟩

/-! ### A submission -/

section

variable {R : Type} [Zero R] [Add R] [Mul R] [Div R] [IntCast R] [Rounds R]

lemma Wf.completeButtonTapped {vc : RateUserViewController R} (h : vc.Wf) :
    vc.completeButtonTapped.1.Wf := by
  rw [RateUserViewController.completeButtonTapped]
  split
  · exact { h with }
  · split <;> exact { h with }

/-- A submission is written exactly when every category is rated, and then to
the document the screen asked for and the task's. -/
lemma completeButtonTapped_snd (vc : RateUserViewController R) :
    vc.completeButtonTapped.2 = if vc.validateFields = none then
      [.mergeUser vc.requestedID vc.ratingFields, .mergeTask vc.docID vc.ratedFlag] else [] := by
  rw [completeButtonTapped, requestedID, ratedFlag]
  cases vc.validateFields with
  | none => split_ifs <;> simp_all
  | some error => simp

/-- A submission by a client sets the flag of the employee. -/
lemma completeButtonTapped_writes {vc : RateUserViewController R} (hc : vc.clientID = "") :
    vc.completeButtonTapped.2 = if vc.validateFields = none then
      [.mergeUser vc.employeeID vc.ratingFields,
        .mergeTask vc.docID { employeeRated := some true }] else [] := by
  rw [completeButtonTapped_snd, requestedID, ratedFlag, hc]
  simp

/-- The writes of a submission: the fields of the rating, and a flag of the
task. -/
lemma mem_completeButtonTapped {vc : RateUserViewController R} {w : Write R}
    (h : w ∈ vc.completeButtonTapped.2) :
    vc.validateFields = none ∧ ((∃ u, w = .mergeUser u vc.ratingFields) ∨
      ∃ id f, w = .mergeTask id f) := by
  rw [completeButtonTapped] at h
  split at h
  · simp at h
  · next hv =>
      refine ⟨hv, ?_⟩
      split at h <;>
        rcases List.mem_pair.mp h with rfl | rfl
      · exact Or.inl ⟨_, rfl⟩
      · exact Or.inr ⟨_, _, rfl⟩
      · exact Or.inl ⟨_, rfl⟩
      · exact Or.inr ⟨_, _, rfl⟩

/-- So does the submission. -/
lemma completeButtonTapped_frame (vc : RateUserViewController R) :
    vc.completeButtonTapped.1.employeeID = vc.employeeID ∧
      vc.completeButtonTapped.1.clientID = vc.clientID ∧
      vc.completeButtonTapped.1.docID = vc.docID ∧
      vc.completeButtonTapped.1.numOfRatings = vc.numOfRatings ∧
      vc.completeButtonTapped.1.currentRating = vc.currentRating := by
  rw [completeButtonTapped]
  split
  · exact ⟨rfl, rfl, rfl, rfl, rfl⟩
  · split <;> exact ⟨rfl, rfl, rfl, rfl, rfl⟩

/-- And so do the stars. -/
lemma completeButtonTapped_ratings (vc : RateUserViewController R) :
    vc.completeButtonTapped.1.category1Rating = vc.category1Rating ∧
      vc.completeButtonTapped.1.category2Rating = vc.category2Rating ∧
      vc.completeButtonTapped.1.category3Rating = vc.category3Rating := by
  rw [completeButtonTapped]
  split
  · exact ⟨rfl, rfl, rfl⟩
  · split <;> exact ⟨rfl, rfl, rfl⟩

lemma completeButtonTapped_requestedID (vc : RateUserViewController R) :
    vc.completeButtonTapped.1.requestedID = vc.requestedID := by
  obtain ⟨he, hc, -⟩ := completeButtonTapped_frame vc
  rw [requestedID, requestedID, he, hc]

end

end RateUserViewController

end Tasker
