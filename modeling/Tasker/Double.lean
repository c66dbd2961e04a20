import Tasker.Models
import Tasker.Utilities
import Tasker.Lib.RunningMean
import Mathlib.Data.Int.Log

/-!
`Double(_:)` of a text, and the order of `Double`s.

* `Double.ofRat`: the nearest number of the format, ties to even, and an
  infinity beyond the largest.
* `abs_nearest_sub_le`: it is off by half a last place; `nearest_eq_zero_iff`:
  what is rounded to zero; `abs_sub_le_of_ofRat`, `ofRat_of_lt`: numbers below
  `2 ^ 20`.
* `Double.lt`: the comparison of two numbers, false for a NaN.
* `Double.add`, `Double.mul`, `Double.div`, `Double.round`: the arithmetic, every
  result rounded; `ofRat_of_abs_lt` bounds the error of one operation.
* `double`: the accepted texts, which are a sign or none, and a decimal or a
  hexadecimal number with a fraction and an exponent or none, or `inf`,
  `infinity` or `nan` in any case. A NaN with a payload, such as `nan(1)`, is left
  out.
-/

namespace Tasker

open RunningMean

/-! ### Rounding -/

/-- The nearest integer, the even one of two. -/
def roundHalfEven (x : ℚ) : ℤ :=
  if x - ⌊x⌋ < 1 / 2 ∨ x - ⌊x⌋ = 1 / 2 ∧ ⌊x⌋ % 2 = 0 then ⌊x⌋ else ⌊x⌋ + 1

/-- The exponent of the last place of the numbers near `q`, which have 53
places. -/
def lastPlace (q : ℚ) : ℤ := max (Int.log 2 |q|) (-1022) - 52

/-- The nearest number. -/
def Double.ofRat (q : ℚ) : Double :=
  let x : ℚ := roundHalfEven (q / 2 ^ lastPlace q) * 2 ^ lastPlace q
  if 2 ^ 1024 ≤ x then .infinity else if x ≤ -2 ^ 1024 then .negInfinity else .finite x

/-- The number with the other sign. -/
def Double.neg : Double → Double
  | .finite q => .finite (-q)
  | .infinity => .negInfinity
  | .negInfinity => .infinity
  | .nan => .nan

/-- `isFinite`. -/
def Double.isFinite : Double → Bool
  | .finite _ => true
  | _ => false

/-- `<`. -/
def Double.lt : Double → Double → Bool
  | .finite p, .finite q => p < q
  | .negInfinity, .finite _ => true
  | .negInfinity, .infinity => true
  | .finite _, .infinity => true
  | _, _ => false

/-- The nearest integer is less than one away, and not more than a half. -/
lemma abs_roundHalfEven_sub_le (x : ℚ) : |(roundHalfEven x : ℚ) - x| ≤ 1 / 2 := by
  have hle := Int.floor_le x
  have hlt := Int.lt_floor_add_one x
  rw [roundHalfEven, abs_le]
  split
  · next h => rcases h with h | h <;> constructor <;> linarith
  · next h =>
      have hge : 1 / 2 ≤ x - ⌊x⌋ := not_lt.mp fun hx => h (Or.inl hx)
      push_cast
      constructor <;> linarith

lemma roundHalfEven_nonneg {x : ℚ} (hx : 0 ≤ x) : 0 ≤ roundHalfEven x := by
  have hfloor := Int.floor_nonneg.mpr hx
  rw [roundHalfEven]
  split <;> omega

/-- Zero is the nearest integer up to a half, which is a tie. -/
lemma roundHalfEven_eq_zero_iff {x : ℚ} (hx : 0 ≤ x) : roundHalfEven x = 0 ↔ x ≤ 1 / 2 := by
  constructor
  · intro h
    have hle := (abs_le.mp (abs_roundHalfEven_sub_le x)).1
    rw [h] at hle
    push_cast at hle
    linarith
  · intro h
    have hfloor : ⌊x⌋ = 0 := Int.floor_eq_zero_iff.mpr ⟨hx, by linarith⟩
    rw [roundHalfEven, hfloor, if_pos]
    rcases lt_or_eq_of_le h with hlt | heq
    · exact Or.inl (by simpa using hlt)
    · exact Or.inr ⟨by simpa using heq, by decide⟩

/-- The numbers of the format have their last place at `2 ^ (-1074)` or above. -/
lemma le_lastPlace (q : ℚ) : -1074 ≤ lastPlace q := by
  have := le_max_right (Int.log 2 |q|) (-1022)
  rw [lastPlace]
  omega

/-- The nearest number, were there one however large. -/
def nearest (q : ℚ) : ℚ := roundHalfEven (q / 2 ^ lastPlace q) * 2 ^ lastPlace q

lemma ofRat_eq (q : ℚ) :
    Double.ofRat q = if 2 ^ 1024 ≤ nearest q then .infinity
      else if nearest q ≤ -2 ^ 1024 then .negInfinity else .finite (nearest q) := rfl

/-- It is off by half a last place at most. -/
lemma abs_nearest_sub_le (q : ℚ) : |nearest q - q| ≤ 2 ^ lastPlace q / 2 := by
  have hpos : (0 : ℚ) < 2 ^ lastPlace q := by positivity
  have hround := abs_roundHalfEven_sub_le (q / 2 ^ lastPlace q)
  calc |nearest q - q|
      = |(roundHalfEven (q / 2 ^ lastPlace q) : ℚ) - q / 2 ^ lastPlace q| * 2 ^ lastPlace q := by
        rw [← abs_of_pos hpos, ← abs_mul, abs_of_pos hpos, sub_mul, div_mul_cancel₀ _ hpos.ne',
          nearest]
    _ ≤ 1 / 2 * 2 ^ lastPlace q := mul_le_mul_of_nonneg_right hround hpos.le
    _ = 2 ^ lastPlace q / 2 := by ring

lemma nearest_nonneg {q : ℚ} (hq : 0 ≤ q) : 0 ≤ nearest q := by
  have hround := roundHalfEven_nonneg (div_nonneg hq (zpow_nonneg zero_le_two (lastPlace q)))
  rw [nearest]
  positivity

/-- Zero is the nearest number up to half the least positive one. -/
lemma nearest_eq_zero_iff {q : ℚ} (hq : 0 ≤ q) : nearest q = 0 ↔ q ≤ 2 ^ (-1075 : ℤ) := by
  have hpos : (0 : ℚ) < 2 ^ lastPlace q := by positivity
  have hhalf : nearest q = 0 ↔ q ≤ 2 ^ (lastPlace q - 1) := by
    rw [nearest, mul_eq_zero, or_iff_left hpos.ne', Int.cast_eq_zero,
      roundHalfEven_eq_zero_iff (by positivity), div_le_iff₀ hpos, zpow_sub_one₀ two_ne_zero]
    ring_nf
  rw [hhalf]
  constructor
  · intro h
    by_contra hlt
    have hq' : 0 < q := lt_trans (by positivity) (not_le.mp hlt)
    have hlog : (2 : ℚ) ^ Int.log 2 q ≤ q := by exact_mod_cast Int.zpow_log_le_self one_lt_two hq'
    rw [lastPlace, abs_of_pos hq'] at h
    rcases le_total (Int.log 2 q) (-1022) with hsmall | hlarge
    · rw [max_eq_right hsmall] at h
      exact hlt h
    · -- the last place of a normal number is below the number itself
      rw [max_eq_left hlarge] at h
      have hbelow : (2 : ℚ) ^ (Int.log 2 q - 52 - 1) < 2 ^ Int.log 2 q :=
        zpow_lt_zpow_right₀ one_lt_two (by omega)
      exact absurd (hlog.trans h) (not_le.mpr hbelow)
  · exact fun h => h.trans (zpow_le_zpow_right₀ one_le_two (by have := le_lastPlace q; omega))

/-- What is not negative is rounded to no negative number. -/
lemma ofRat_of_nonneg {q : ℚ} (hq : 0 ≤ q) :
    Double.ofRat q = if 2 ^ 1024 ≤ nearest q then .infinity else .finite (nearest q) := by
  have hnonneg := nearest_nonneg hq
  have hpos : (0 : ℚ) < 2 ^ 1024 := by positivity
  have hlt : ¬ nearest q ≤ -2 ^ 1024 := not_le.mpr (lt_of_lt_of_le (neg_neg_of_pos hpos) hnonneg)
  rw [ofRat_eq, if_neg hlt]

/-- A finite result is the nearest number. -/
lemma eq_nearest_of_ofRat {q x : ℚ} (h : Double.ofRat q = .finite x) : x = nearest q := by
  rw [ofRat_eq] at h
  split at h
  · exact absurd h (by simp)
  · split at h
    · exact absurd h (by simp)
    · exact (Double.finite.inj h).symm

/-- A number below a power of two has its last place so much below. -/
lemma lastPlace_le {q : ℚ} {z : ℕ} (hq : |q| < 2 ^ (z + 1)) : lastPlace q ≤ z - 52 := by
  have hlog : Int.log 2 |q| ≤ z := by
    rcases eq_or_ne q 0 with rfl | hne
    · rw [abs_zero, Int.log_zero_right]
      omega
    · have hzpow : |q| < ((2 : ℕ) : ℚ) ^ ((z : ℤ) + 1) := by exact_mod_cast hq
      have := (Int.lt_zpow_iff_log_lt (by norm_num) (abs_pos.mpr hne)).mp hzpow
      omega
  rw [lastPlace]
  omega

/-- And so has what is rounded to one. -/
lemma lastPlace_le_of_nearest {q : ℚ} {z : ℕ} (hq : |nearest q| < 2 ^ z) :
    lastPlace q ≤ z - 52 := by
  by_contra hlast
  have hlog : lastPlace q = Int.log 2 |q| - 52 ∧ (z : ℤ) + 1 ≤ Int.log 2 |q| := by
    rw [lastPlace] at hlast ⊢
    omega
  have hne : q ≠ 0 := by
    rintro rfl
    rw [abs_zero, Int.log_zero_right] at hlog
    omega
  have hle : (2 : ℚ) ^ Int.log 2 |q| ≤ |q| := by
    exact_mod_cast Int.zpow_log_le_self one_lt_two (abs_pos.mpr hne)
  have hhalf : (2 : ℚ) ^ lastPlace q / 2 ≤ 2 ^ Int.log 2 |q| / 2 := by
    have hpow : (2 : ℚ) ^ lastPlace q ≤ 2 ^ Int.log 2 |q| :=
      zpow_le_zpow_right₀ one_le_two (by omega)
    linarith
  have hz : (2 : ℚ) ^ z * 2 ≤ 2 ^ Int.log 2 |q| := by
    rw [← pow_succ, ← zpow_natCast]
    exact zpow_le_zpow_right₀ one_le_two (by push_cast; omega)
  have herror := abs_nearest_sub_le q
  have htriangle := abs_sub_abs_le_abs_sub q (nearest q)
  rw [abs_sub_comm] at htriangle
  linarith

/-- What is rounded to a number below `2 ^ 20` is off by less than a billionth. -/
lemma abs_sub_le_of_ofRat {q x : ℚ} (h : Double.ofRat q = .finite x) (hx : |x| < 2 ^ 20) :
    |x - q| ≤ 1 / 2 ^ 33 := by
  obtain rfl := eq_nearest_of_ofRat h
  have hlast := lastPlace_le_of_nearest hx
  have hpow : (2 : ℚ) ^ lastPlace q ≤ 2 ^ (-32 : ℤ) :=
    zpow_le_zpow_right₀ one_le_two (by push_cast at hlast; omega)
  have herror := abs_nearest_sub_le q
  norm_num at hpow ⊢
  linarith

/-- What is below `2 ^ 20` is rounded to a number that is little more. -/
lemma ofRat_of_lt {q : ℚ} (hq : 0 ≤ q) (hlt : q < 2 ^ 20) :
    Double.ofRat q = .finite (nearest q) ∧ nearest q ≤ q + 1 := by
  have hlast : lastPlace q ≤ (19 : ℕ) - 52 := lastPlace_le (by rwa [abs_of_nonneg hq])
  have hpow : (2 : ℚ) ^ lastPlace q ≤ 2 ^ (0 : ℤ) :=
    zpow_le_zpow_right₀ one_le_two (by push_cast at hlast; omega)
  have herror := (abs_le.mp (abs_nearest_sub_le q)).2
  have hle : nearest q ≤ q + 1 := by
    rw [zpow_zero] at hpow
    linarith
  refine ⟨?_, hle⟩
  rw [ofRat_of_nonneg hq, if_neg]
  refine not_le.mpr ?_
  calc nearest q ≤ q + 1 := hle
    _ < 2 ^ 21 := by norm_num at hlt ⊢; linarith
    _ ≤ 2 ^ 1024 := pow_le_pow_right₀ one_le_two (by norm_num)

/-- An infinity times a number. -/
def Double.scale (x : Double) (q : ℚ) : Double :=
  if q = 0 then .nan else if 0 < q then x else x.neg

/-- `+`. -/
def Double.add : Double → Double → Double
  | .finite p, .finite q => .ofRat (p + q)
  | .nan, _ => .nan
  | _, .nan => .nan
  | .infinity, .negInfinity => .nan
  | .negInfinity, .infinity => .nan
  | .finite _, x => x
  | x, _ => x

/-- `*`. -/
def Double.mul : Double → Double → Double
  | .finite p, .finite q => .ofRat (p * q)
  | .nan, _ => .nan
  | _, .nan => .nan
  | .finite p, x => x.scale p
  | x, .finite q => x.scale q
  | x, y => if x = y then .infinity else .negInfinity

/-- `/`; the two zeros are one, which is the positive one as a divisor. -/
def Double.div : Double → Double → Double
  | .finite p, .finite q =>
      if q = 0 then if p = 0 then .nan else if 0 < p then .infinity else .negInfinity
      else .ofRat (p / q)
  | .nan, _ => .nan
  | _, .nan => .nan
  | .finite _, _ => .finite 0
  | x, .finite q => if q < 0 then x.neg else x
  | _, _ => .nan

/-- `round`: the nearest integer, halves away from zero. -/
def Double.round : Double → Double
  | .finite q => .finite (roundAway q)
  | x => x

instance : Zero Double := ⟨.finite 0⟩

instance : IntCast Double := ⟨fun n => .ofRat n⟩

instance : Add Double := ⟨.add⟩

instance : Mul Double := ⟨.mul⟩

instance : Div Double := ⟨.div⟩

/-- `[0-9a-fA-F]`. -/
def isHexDigit (c : Char) : Bool := charClass [('0', '9'), ('a', 'f'), ('A', 'F')] [] c

/-- The value of a decimal or hexadecimal digit. -/
def digitValue (c : Char) : ℕ :=
  if isDigit c then c.toNat - 48 else if 'a' ≤ c then c.toNat - 87 else c.toNat - 55

/-- The digits of a number with a point among them or none, as an integer, how
many of them are behind the point, and what follows. -/
def significand (base : ℕ) (isDigit : Char → Bool) (cs : List Char) :
    Option (ℕ × ℕ × List Char) :=
  let whole := cs.takeWhile isDigit
  let (fraction, rest) :=
    match cs.dropWhile isDigit with
    | '.' :: rest => (rest.takeWhile isDigit, rest.dropWhile isDigit)
    | rest => ([], rest)
  if (whole ++ fraction).isEmpty then none
  else
    some ((whole ++ fraction).foldl (fun n c => base * n + digitValue c) 0, fraction.length, rest)

/-- The exponent at the end of a number, zero if there is none. -/
def exponent (marker : Char) : List Char → Option ℤ
  | [] => some 0
  | c :: cs =>
      if c.toLower = marker then
        match cs with
        | '-' :: ds => if isDecimal ds then some (-digitsValue ds) else none
        | '+' :: ds => if isDecimal ds then some (digitsValue ds) else none
        | ds => if isDecimal ds then some (digitsValue ds) else none
      else none

/-- A decimal number. -/
def decimal (cs : List Char) : Option Double :=
  (significand 10 isDigit cs).bind fun (n, places, rest) =>
    (exponent 'e' rest).map fun e => .ofRat (n * 10 ^ (e - places : ℤ))

/-- A hexadecimal number, behind `0x`. -/
def hexadecimal (cs : List Char) : Option Double :=
  (significand 16 isHexDigit cs).bind fun (n, places, rest) =>
    (exponent 'p' rest).map fun e => .ofRat (n * 2 ^ (e - 4 * places : ℤ))

/-- A number without a sign. -/
def unsigned (cs : List Char) : Option Double :=
  if cs.map Char.toLower = "inf".toList ∨ cs.map Char.toLower = "infinity".toList then
    some .infinity
  else if cs.map Char.toLower = "nan".toList then some .nan
  else
    match cs with
    | '0' :: 'x' :: rest => hexadecimal rest
    | '0' :: 'X' :: rest => hexadecimal rest
    | _ => decimal cs

/-- `Double(_:)` of a text. -/
def double (s : String) : Option Double :=
  match s.toList with
  | '-' :: cs => (unsigned cs).map .neg
  | '+' :: cs => unsigned cs
  | cs => unsigned cs

example : double "-12.50" = some (.finite (-25 / 2)) ∧ double "0x1.8p1" = some (.finite 3) ∧
    double "1e400" = some .infinity ∧ double "+Inf" = some .infinity ∧ double "12 " = none ∧
    double "." = none ∧ double ".5" = some (.finite (1 / 2)) := by
  decide +kernel

end Tasker
