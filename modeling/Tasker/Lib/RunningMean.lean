import Mathlib.Tactic
import Mathlib.Algebra.Order.Round
import Mathlib.Data.Rat.Floor

/-!
Running means kept to two decimals.

* `roundAway`: the nearest integer, halves away from zero. Mathlib's `round`
  takes halves up, so the two differ on negative halves only.
  `le_roundAway` and `roundAway_le` say that rounding cannot cross an integer.
* `roundHundredths`: the nearest multiple of `1/100`; `hundredths_bounds` is
  that rounding cannot leave an interval with integer ends, and
  `abs_roundHundredths_sub_le` and `roundHundredths_eq_of_near` say how far it
  goes and where it stays.
* `runningMean_mem_Icc`: the mean of `n` values of mean `r` and one more stays
  in every interval that holds `r` and the new value.
* `addValue`: a count and a mean after one more value, rounded each time. The
  errors add up: `abs_foldl_addValue_sub_le` bounds the one of `n` values by
  `(n + 1) / 2` of a single one, and by `addValue_eq_self` a mean of many values
  does not move any more.
-/

namespace RunningMean

variable {α : Type*} [Field α] [LinearOrder α] [IsStrictOrderedRing α] [FloorRing α]

/-- The nearest integer, halves away from zero. -/
def roundAway (x : α) : ℤ := if 0 ≤ x then round x else -round (-x)

/-- Rounding cannot go below an integer that the value is not below. -/
lemma le_roundAway {x : α} {m : ℤ} (h : (m : α) ≤ x) : m ≤ roundAway x := by
  unfold roundAway
  split
  · rw [round_eq, Int.le_floor]
    linarith
  · have hlt : round (-x) < -m + 1 := by
      rw [round_eq, Int.floor_lt]
      push_cast
      linarith
    omega

/-- Rounding cannot go above an integer that the value is not above. -/
lemma roundAway_le {x : α} {m : ℤ} (h : x ≤ (m : α)) : roundAway x ≤ m := by
  unfold roundAway
  split
  · have hlt : round x < m + 1 := by
      rw [round_eq, Int.floor_lt]
      push_cast
      linarith
    omega
  · have hle : -m ≤ round (-x) := by
      rw [round_eq, Int.le_floor]
      push_cast
      linarith
    omega

/-- The nearest multiple of `1/100`, halves away from zero. -/
def roundHundredths (x : α) : α := roundAway (x * 100) / 100

/-- Rounding moves a value by one half at most. -/
lemma abs_roundAway_sub_le (x : α) : |(roundAway x : α) - x| ≤ 1 / 2 := by
  unfold roundAway
  split
  · rw [abs_sub_comm]
    exact abs_sub_round x
  · have hneg := abs_sub_round (-x)
    rw [abs_le] at hneg ⊢
    push_cast
    constructor <;> linarith [hneg.1, hneg.2]

/-- A value rounds to the integer it is near to. -/
lemma roundAway_eq_of_near {x : α} {m : ℤ} (h : |x - m| < 1 / 2) : roundAway x = m := by
  obtain ⟨hlo, hhi⟩ := abs_lt.mp h
  unfold roundAway
  split
  · rw [round_eq, Int.floor_eq_iff]
    constructor <;> linarith
  · have hneg : round (-x) = -m := by
      rw [round_eq, Int.floor_eq_iff]
      push_cast
      constructor <;> linarith
    rw [hneg, neg_neg]

omit [IsStrictOrderedRing α] in
/-- A rounded value is a whole number of hundredths. -/
lemma exists_hundredths (x : α) : ∃ m : ℤ, roundHundredths x = m / 100 := ⟨_, rfl⟩

/-- Rounding to hundredths cannot leave an interval with integer ends. -/
lemma hundredths_bounds {x : α} {a b : ℤ} (ha : (a : α) ≤ x) (hb : x ≤ (b : α)) :
    (a : α) ≤ roundHundredths x ∧ roundHundredths x ≤ (b : α) := by
  have hlo : 100 * a ≤ roundAway (x * 100) := le_roundAway (by push_cast; linarith)
  have hhi : roundAway (x * 100) ≤ 100 * b := roundAway_le (by push_cast; linarith)
  have hlo' : (100 * a : α) ≤ (roundAway (x * 100) : α) := by exact_mod_cast hlo
  have hhi' : (roundAway (x * 100) : α) ≤ (100 * b : α) := by exact_mod_cast hhi
  constructor
  · rw [roundHundredths, le_div_iff₀ (by norm_num)]
    linarith
  · rw [roundHundredths, div_le_iff₀ (by norm_num)]
    linarith

/-- Rounding to hundredths moves a value by half a hundredth at most. -/
lemma abs_roundHundredths_sub_le (x : α) : |roundHundredths x - x| ≤ 1 / 200 := by
  have hround := abs_le.mp (abs_roundAway_sub_le (x * 100))
  have hx : roundHundredths x - x = ((roundAway (x * 100) : α) - x * 100) / 100 := by
    rw [roundHundredths]
    ring
  rw [hx, abs_le]
  constructor
  · linarith [hround.1]
  · linarith [hround.2]

/-- A value rounds to the hundredth it is near to. -/
lemma roundHundredths_eq_of_near {x : α} {m : ℤ} (h : |x - m / 100| < 1 / 200) :
    roundHundredths x = m / 100 := by
  have hnear : |x * 100 - m| < 1 / 2 := by
    rw [abs_lt] at h ⊢
    constructor <;> linarith [h.1, h.2]
  rw [roundHundredths, roundAway_eq_of_near hnear]

/-! ### The mean of some values and one more -/

omit [FloorRing α] in
/-- A weighted mean stays between bounds of its two values. -/
lemma runningMean_mem_Icc {r g n lo hi : α} (hn : 0 ≤ n) (hr : r ∈ Set.Icc lo hi)
    (hg : g ∈ Set.Icc lo hi) : (r * n + g) / (n + 1) ∈ Set.Icc lo hi := by
  have hpos : 0 < n + 1 := by linarith
  constructor
  · rw [le_div_iff₀ hpos]
    nlinarith [mul_le_mul_of_nonneg_right hr.1 hn, hg.1]
  · rw [div_le_iff₀ hpos]
    nlinarith [mul_le_mul_of_nonneg_right hr.2 hn, hg.2]

/-- A count and a mean, after one more value; the mean is rounded by `ρ`. -/
def addValue (ρ : α → α) (p : ℕ × α) (g : α) : ℕ × α :=
  (p.1 + 1, ρ ((p.2 * p.1 + g) / (p.1 + 1)))

omit [LinearOrder α] [IsStrictOrderedRing α] [FloorRing α] in
lemma foldl_addValue_fst (ρ : α → α) (gs : List α) (p : ℕ × α) :
    (gs.foldl (addValue ρ) p).1 = p.1 + gs.length := by
  induction gs generalizing p with
  | nil => rfl
  | cons g gs ih =>
      rw [List.foldl_cons, ih, List.length_cons, addValue]
      omega

omit [FloorRing α] in
/-- If rounding moves a value by `ε` at most, the mean of `n` values, rounded
each time, is off by `ε (n + 1) / 2` at most: the error of a step weighs as much
as the values before it. -/
theorem abs_foldl_addValue_sub_le {ρ : α → α} {ε : α} (hρ : ∀ x, |ρ x - x| ≤ ε) (gs : List α) :
    |(gs.foldl (addValue ρ) (0, 0)).2 * gs.length - gs.sum| ≤
      ε * (gs.length * (gs.length + 1) / 2) := by
  induction gs using List.reverseRecOn with
  | nil => simp
  | append_singleton gs g ih =>
      have hcount : (gs.foldl (addValue ρ) (0, 0)).1 = gs.length := by
        rw [foldl_addValue_fst, zero_add]
      have hpos : (0 : α) < gs.length + 1 := by positivity
      rw [List.foldl_append, List.foldl_cons, List.foldl_nil, addValue, hcount]
      set m := (gs.foldl (addValue ρ) (0, 0)).2
      set x := (m * gs.length + g) / (gs.length + 1)
      have hx : x * (gs.length + 1) = m * gs.length + g := div_mul_cancel₀ _ hpos.ne'
      have hsum : (gs ++ [g]).sum = gs.sum + g := by simp
      have hlen : ((gs ++ [g]).length : α) = gs.length + 1 := by simp
      rw [hsum, hlen]
      calc |ρ x * (gs.length + 1) - (gs.sum + g)|
          = |(m * gs.length - gs.sum) + (ρ x - x) * (gs.length + 1)| := by
            congr 1
            linear_combination hx
        _ ≤ |m * gs.length - gs.sum| + |(ρ x - x) * (gs.length + 1)| := abs_add_le _ _
        _ = |m * gs.length - gs.sum| + |ρ x - x| * (gs.length + 1) := by
            rw [abs_mul, abs_of_pos hpos]
        _ ≤ ε * (gs.length * (gs.length + 1) / 2) + ε * (gs.length + 1) :=
            add_le_add ih (mul_le_mul_of_nonneg_right (hρ x) hpos.le)
        _ = ε * ((gs.length + 1) * (gs.length + 1 + 1) / 2) := by ring

/-- A value that moves the mean by less than half a hundredth does not move it
at all. -/
lemma addValue_eq_self {n : ℕ} {m : ℤ} {g : α} (h : |g - m / 100| < (n + 1) / 200) :
    addValue roundHundredths (n, (m / 100 : α)) g = (n + 1, (m / 100 : α)) := by
  have hpos : (0 : α) < n + 1 := by positivity
  have hmove : ((m / 100 : α) * n + g) / (n + 1) - m / 100 = (g - m / 100) / (n + 1) := by
    field_simp
    ring
  have hnear : |((m / 100 : α) * n + g) / (n + 1) - m / 100| < 1 / 200 := by
    rw [hmove, abs_div, abs_of_pos hpos, div_lt_iff₀ hpos]
    linarith
  rw [addValue, roundHundredths_eq_of_near hnear]

end RunningMean
