import Mathlib.Tactic

/-!
Decimals with a fixed number of places, and the shortest one for a number of
some format.

* `lastDigits`, `fixedPoint`: a natural number written with a point before its
  last `k` digits; `ofDigitChars_fixedPoint`: its digits are those of the number.
* `places`: the fewest places with which the nearest decimal is read as a number
  of the format. The format is what `read` makes of a rational, and `near` rounds
  to an integer.
* `near_eq`: the nearest integer of what is close to one, and `places_eq`: a
  decimal that is close and read as the number is the shortest one, if none with
  fewer places is.
-/

namespace Decimal

/-! ### Digits -/

/-- The last `k` digits of a number, zeros included. -/
def lastDigits : ℕ → ℕ → List Char
  | 0, _ => []
  | k + 1, n => lastDigits k (n / 10) ++ [Nat.digitChar (n % 10)]

/-- The number with a point before its last `k` digits. -/
def fixedPoint (n k : ℕ) : List Char := Nat.toDigits 10 (n / 10 ^ k) ++ '.' :: lastDigits k n

@[simp] lemma length_lastDigits (k n : ℕ) : (lastDigits k n).length = k := by
  induction k generalizing n with
  | zero => rfl
  | succ k ih => rw [lastDigits, List.length_append, ih, List.length_singleton]

/-- They are digits. -/
lemma isDigit_of_mem_lastDigits {k n : ℕ} {c : Char} (hc : c ∈ lastDigits k n) :
    c.isDigit = true := by
  induction k generalizing n with
  | zero => exact absurd hc (by simp [lastDigits])
  | succ k ih =>
      rcases List.mem_append.mp hc with hc | hc
      · exact ih hc
      · have hlt : n % 10 < 10 := Nat.mod_lt n (by omega)
        rw [List.mem_singleton.mp hc]
        simpa using hlt

/-- A zero more is a place more. -/
lemma fixedPoint_append_zero (n k : ℕ) :
    fixedPoint n k ++ ['0'] = fixedPoint (10 * n) (k + 1) := by
  have hwhole : 10 * n / 10 ^ (k + 1) = n / 10 ^ k := by
    rw [pow_succ', Nat.mul_div_mul_left _ _ (by omega)]
  have hdigits : lastDigits (k + 1) (10 * n) = lastDigits k n ++ ['0'] := by
    rw [lastDigits, Nat.mul_div_cancel_left _ (by omega), Nat.mul_mod_right]
    exact congrArg (fun c => lastDigits k n ++ [c]) rfl
  rw [fixedPoint, fixedPoint, hwhole, hdigits, List.append_assoc, List.cons_append]

/-- The value of digits that end in them. -/
lemma ofDigitChars_lastDigits (k n init : ℕ) :
    Nat.ofDigitChars 10 (lastDigits k n) init = 10 ^ k * init + n % 10 ^ k := by
  induction k generalizing n with
  | zero => simp [lastDigits, Nat.mod_one]
  | succ k ih =>
      have hlt : n % 10 < 10 := Nat.mod_lt n (by omega)
      have hsplit : n % 10 ^ (k + 1) = n % 10 + 10 * (n / 10 % 10 ^ k) := by
        rw [pow_succ', Nat.mod_mul]
      rw [lastDigits, Nat.ofDigitChars_append, ih, Nat.ofDigitChars_cons_digitChar_of_lt_ten hlt,
        Nat.ofDigitChars_nil, hsplit, pow_succ]
      ring

/-- **Fixed point**: the digits before and after the point are those of the
number. -/
theorem ofDigitChars_fixedPoint (n k : ℕ) :
    Nat.ofDigitChars 10 (Nat.toDigits 10 (n / 10 ^ k) ++ lastDigits k n) 0 = n := by
  rw [Nat.ofDigitChars_append, Nat.ofDigitChars_ten_toDigits, ofDigitChars_lastDigits]
  exact Nat.div_add_mod n (10 ^ k)

/-! ### The shortest decimal -/

section shortest

variable {α : Type*} [DecidableEq α] (near : ℚ → ℤ) (read : ℚ → α)

/-- The least of the next `fuel` numbers of places from `k` on with which the
nearest decimal to `x` is read as `a`, and the one behind them if there is
none. -/
def places (a : α) (x : ℚ) : ℕ → ℕ → ℕ
  | 0, k => k
  | fuel + 1, k =>
      if read (near (x * 10 ^ k) / 10 ^ k) = a then k else places a x fuel (k + 1)

variable {near read} {a : α} {x : ℚ} {n : ℤ} {j k fuel : ℕ}

/-- What is less than a half from an integer is rounded to it. -/
lemma near_eq (hnear : ∀ y, |(near y : ℚ) - y| ≤ 1 / 2) (hx : |x - n| < 1 / 2) : near x = n := by
  have hlt : |((near x - n : ℤ) : ℚ)| < 1 := by
    push_cast
    calc |(near x : ℚ) - n| ≤ |(near x : ℚ) - x| + |x - n| := abs_sub_le _ _ _
      _ < 1 / 2 + 1 / 2 := add_lt_add_of_le_of_lt (hnear x) hx
      _ = 1 := by norm_num
  have hint : |near x - n| < 1 := by exact_mod_cast hlt
  exact sub_eq_zero.mp (Int.abs_lt_one_iff.mp hint)

/-- The nearest decimal with `k` places is one that is close enough. -/
lemma near_mul_eq (hnear : ∀ y, |(near y : ℚ) - y| ≤ 1 / 2)
    (hx : |x - n / 10 ^ k| < 1 / (2 * 10 ^ k)) : near (x * 10 ^ k) = n := by
  have hpos : (0 : ℚ) < 10 ^ k := by positivity
  refine near_eq hnear ?_
  calc |x * 10 ^ k - n| = |x - n / 10 ^ k| * 10 ^ k := by
        rw [← abs_of_pos hpos, ← abs_mul, abs_of_pos hpos, sub_mul, div_mul_cancel₀ _ hpos.ne']
    _ < 1 / (2 * 10 ^ k) * 10 ^ k := mul_lt_mul_of_pos_right hx hpos
    _ = 1 / 2 := by field_simp

/-- **The shortest decimal**: a decimal close to `x` and read as `a` has the number
of places that is looked for, if no decimal with fewer is read so. -/
theorem places_eq (hnear : ∀ y, |(near y : ℚ) - y| ≤ 1 / 2) (hjk : j ≤ k) (hfuel : k < j + fuel)
    (hx : |x - n / 10 ^ k| < 1 / (2 * 10 ^ k)) (hread : read (n / 10 ^ k) = a)
    (hshort : ∀ i, j ≤ i → i < k → ∀ m : ℤ, read (m / 10 ^ i) ≠ a) :
    places near read a x fuel j = k := by
  induction fuel generalizing j with
  | zero => omega
  | succ fuel ih =>
      rw [places]
      by_cases hlast : j = k
      · rw [if_pos]
        · exact hlast
        · rw [hlast, near_mul_eq hnear hx, hread]
      · rw [if_neg (hshort j le_rfl (by omega) _)]
        exact ih (by omega) (by omega) fun i hi => hshort i (by omega)

end shortest

end Decimal
