import Tasker.Double
import Mathlib.Order.WithBot
import Mathlib.Data.Int.Log

/-!
The numbers of the Firestore client: 64-bit integers and doubles
(`util/comparison.cc`, `model/transform_operation.cc`).

* `IsBinary64`: the finite values of a double; `nearest_of_isBinary64`: they are
  their own roundings; `isBinary64_nearest`: what is rounded is one.
* `Float64`: the doubles the client stores, with one NaN and two zeros; `lt`,
  `eq`, `add`: the operators of the language.
* `compareDouble`, `compareMixedNumber`: the comparisons of two doubles and of a
  double with an integer; `compareDouble_eq`, `compareMixedNumber_eq`: they agree
  with the order of the exact values, NaN first, although the second converts
  either number to the type of the other.
* `safeIncrement`: integer addition; `safeIncrement_toInt`: it saturates.
-/

namespace Firestore

open Tasker

/-! ### The finite values -/

/-- The finite values of a double: 53 binary places, the last one not below
`2 ^ (-1074)`. -/
def IsBinary64 (q : ℚ) : Prop :=
  |q| < 2 ^ 1024 ∧ ∃ m e : ℤ, q = m * 2 ^ e ∧ |m| ≤ 2 ^ 53 ∧ -1074 ≤ e

/-- An integer is rounded to itself. -/
lemma roundHalfEven_intCast (n : ℤ) : roundHalfEven n = n := by
  rw [roundHalfEven, Int.floor_intCast, if_pos]
  left
  norm_num

/-- A multiple of its last place is rounded to itself. -/
lemma nearest_of_eq_mul {q : ℚ} {n : ℤ} (h : q = n * 2 ^ lastPlace q) : nearest q = q := by
  have hpos : (2 : ℚ) ^ lastPlace q ≠ 0 := by positivity
  have hdiv : q / 2 ^ lastPlace q = n := (div_eq_iff hpos).mpr h
  rw [nearest, hdiv, roundHalfEven_intCast, ← h]

lemma isBinary64_zero : IsBinary64 0 := by
  refine ⟨by rw [abs_zero]; positivity, 0, 0, by norm_num, by norm_num, by norm_num⟩

/-- A finite value is its own rounding. -/
theorem nearest_of_isBinary64 {q : ℚ} (h : IsBinary64 q) : nearest q = q := by
  obtain ⟨-, m, e, hq, hm, he⟩ := h
  rcases eq_or_ne q 0 with rfl | hne
  · exact nearest_of_eq_mul (n := 0) (by simp)
  · rcases le_or_gt (lastPlace q) e with hle | hlt
    · -- the last place divides the number
      obtain ⟨k, hk⟩ := Int.eq_ofNat_of_zero_le (sub_nonneg.mpr hle)
      refine nearest_of_eq_mul (n := m * 2 ^ k) ?_
      have hsplit : (2 : ℚ) ^ e = 2 ^ k * 2 ^ lastPlace q := by
        rw [← zpow_natCast, ← zpow_add₀ two_ne_zero, ← hk, sub_add_cancel]
      push_cast
      rw [mul_assoc, ← hsplit]
      exact hq
    · -- the number has all its places, and is a power of two
      have hlast : lastPlace q = Int.log 2 |q| - 52 := by
        rw [lastPlace] at hlt ⊢
        omega
      have hlog : (2 : ℚ) ^ Int.log 2 |q| ≤ |q| := by
        exact_mod_cast Int.zpow_log_le_self one_lt_two (abs_pos.mpr hne)
      have hbound : |q| ≤ 2 ^ (e + 53) := by
        rw [hq, abs_mul, abs_of_pos (by positivity : (0 : ℚ) < 2 ^ e), zpow_add₀ two_ne_zero,
          mul_comm]
        refine mul_le_mul_of_nonneg_left ?_ (by positivity)
        exact_mod_cast hm
      have hle : Int.log 2 |q| ≤ e + 53 :=
        (zpow_le_zpow_iff_right₀ one_lt_two).mp (hlog.trans hbound)
      have heq : Int.log 2 |q| = e + 53 := by omega
      have habs : |q| = 2 ^ (52 : ℕ) * 2 ^ lastPlace q := by
        refine le_antisymm (hbound.trans_eq ?_) (le_of_eq_of_le ?_ hlog) <;>
          rw [hlast, ← zpow_natCast, ← zpow_add₀ two_ne_zero] <;> congr 1 <;> push_cast <;> omega
      have hcast : ((2 ^ 52 : ℤ) : ℚ) = 2 ^ (52 : ℕ) := by norm_num
      rcases abs_choice q with hpos | hneg
      · refine nearest_of_eq_mul (n := 2 ^ 52) ?_
        rw [hcast, ← habs, hpos]
      · refine nearest_of_eq_mul (n := -2 ^ 52) ?_
        rw [Int.cast_neg, hcast, neg_mul, ← habs, hneg, neg_neg]

/-- What is rounded, and is not too large, is a finite value. -/
theorem isBinary64_nearest {q : ℚ} (h : |nearest q| < 2 ^ 1024) : IsBinary64 (nearest q) := by
  refine ⟨h, roundHalfEven (q / 2 ^ lastPlace q), lastPlace q, rfl, ?_, le_lastPlace q⟩
  have hpos : (0 : ℚ) < 2 ^ lastPlace q := by positivity
  have hlt : |q / 2 ^ lastPlace q| < 2 ^ 53 := by
    rw [abs_div, abs_of_pos hpos, div_lt_iff₀ hpos]
    rcases eq_or_ne q 0 with rfl | hne
    · rw [abs_zero]
      positivity
    · have hlog : |q| < 2 ^ (Int.log 2 |q| + 1) := by
        exact_mod_cast Int.lt_zpow_succ_log_self one_lt_two |q|
      refine hlog.trans_le ?_
      rw [← zpow_natCast, ← zpow_add₀ two_ne_zero]
      refine zpow_le_zpow_right₀ one_le_two ?_
      have := le_max_left (Int.log 2 |q|) (-1022)
      rw [lastPlace]
      push_cast
      omega
  have hround := abs_roundHalfEven_sub_le (q / 2 ^ lastPlace q)
  have htriangle := abs_sub_abs_le_abs_sub
    (roundHalfEven (q / 2 ^ lastPlace q) : ℚ) (q / 2 ^ lastPlace q)
  have hbound : |(roundHalfEven (q / 2 ^ lastPlace q) : ℚ)| < 2 ^ 53 + 1 := by linarith
  have hint : |roundHalfEven (q / 2 ^ lastPlace q)| < 2 ^ 53 + 1 := by exact_mod_cast hbound
  omega

/-- The integers of 53 places are finite values. -/
lemma isBinary64_intCast {n : ℤ} (h : |n| ≤ 2 ^ 53) : IsBinary64 n := by
  refine ⟨?_, n, 0, by simp, h, by norm_num⟩
  have hle : |(n : ℚ)| ≤ 2 ^ 53 := by exact_mod_cast h
  exact hle.trans_lt (pow_lt_pow_right₀ one_lt_two (by norm_num))

lemma isBinary64_two_pow {k : ℕ} (hk : k < 1024) : IsBinary64 (2 ^ k) := by
  refine ⟨?_, 1, k, by simp, by norm_num, by omega⟩
  rw [abs_of_pos (by positivity)]
  exact pow_lt_pow_right₀ one_lt_two hk

lemma IsBinary64.neg {q : ℚ} (h : IsBinary64 q) : IsBinary64 (-q) := by
  obtain ⟨hlt, m, e, hq, hm, he⟩ := h
  exact ⟨by rwa [abs_neg], -m, e, by rw [hq]; push_cast; ring, by rwa [abs_neg], he⟩

/-- A finite value that is not below `2 ^ 53` is an integer. -/
lemma IsBinary64.exists_intCast {q : ℚ} (h : IsBinary64 q) (hq : 2 ^ 53 ≤ |q|) :
    ∃ n : ℤ, q = n := by
  obtain ⟨-, m, e, rfl, hm, -⟩ := h
  have hpos : (0 : ℚ) < 2 ^ e := by positivity
  have hle : (2 : ℚ) ^ 53 ≤ 2 ^ 53 * 2 ^ e := by
    refine hq.trans ?_
    rw [abs_mul, abs_of_pos hpos]
    refine mul_le_mul_of_nonneg_right ?_ hpos.le
    exact_mod_cast hm
  have he : 0 ≤ e := by
    by_contra hneg
    have hlt : (2 : ℚ) ^ e < 1 := zpow_lt_one_of_neg₀ one_lt_two (not_le.mp hneg)
    linarith
  obtain ⟨k, rfl⟩ := Int.eq_ofNat_of_zero_le he
  exact ⟨m * 2 ^ k, by push_cast; rw [zpow_natCast]⟩

/-! ### Doubles -/

/-- A double as the client stores it: every NaN is the same one. -/
inductive Float64 where
  | nan
  | negInfinity
  | infinity
  | negZero
  | finite (q : ℚ) (h : IsBinary64 q)

namespace Float64

/-- The exact value, unless it is a NaN. -/
def value? : Float64 → Option (WithBot (WithTop ℚ))
  | .nan => none
  | .negInfinity => some ⊥
  | .infinity => some (⊤ : WithTop ℚ)
  | .negZero => some ((0 : ℚ) : WithTop ℚ)
  | .finite q _ => some (q : WithTop ℚ)

/-- `<`, false for a NaN. -/
def lt (x y : Float64) : Bool :=
  match x.value?, y.value? with
  | some a, some b => a < b
  | _, _ => false

/-- `==`, false for a NaN. -/
def eq (x y : Float64) : Bool :=
  match x.value?, y.value? with
  | some a, some b => a = b
  | _, _ => false

/-- `>=`, false for a NaN. -/
def ge (x y : Float64) : Bool := y.lt x || x.eq y

/-- `std::isnan`. -/
def isNaN : Float64 → Bool
  | .nan => true
  | _ => false

/-- The nearest double. -/
def round (q : ℚ) : Float64 :=
  if h : |nearest q| < 2 ^ 1024 then .finite (nearest q) (isBinary64_nearest h)
  else if 0 ≤ q then .infinity else .negInfinity

/-- The value of a zero or of a finite number. -/
def finite? : Float64 → Option ℚ
  | .negZero => some 0
  | .finite q _ => some q
  | _ => none

/-- `+`. -/
def add : Float64 → Float64 → Float64
  | .nan, _ => .nan
  | _, .nan => .nan
  | .infinity, .negInfinity => .nan
  | .negInfinity, .infinity => .nan
  | .infinity, _ => .infinity
  | _, .infinity => .infinity
  | .negInfinity, _ => .negInfinity
  | _, .negInfinity => .negInfinity
  | .negZero, .negZero => .negZero
  | .negZero, y => y
  | x, .negZero => x
  | .finite p _, .finite q _ => round (p + q)

/-- `static_cast<double>` of an integer. -/
def ofInt64 (n : Int64) : Float64 := round n.toInt

/-- A finite value, with the cast of an integer truncated towards zero. -/
def truncate (q : ℚ) : ℤ := if 0 ≤ q then ⌊q⌋ else ⌈q⌉

/-- The place of a number in the order of all numbers, NaN first. -/
def key (x : Float64) : WithBot (WithBot (WithTop ℚ)) := x.value?

lemma round_of_isBinary64 {q : ℚ} (h : IsBinary64 q) : round q = .finite q h := by
  have hself := nearest_of_isBinary64 h
  have hlt : |nearest q| < 2 ^ 1024 := by rw [hself]; exact h.1
  rw [round, dif_pos hlt]
  simp only [hself]

end Float64

/-- The place of an exact value. -/
def ratKey (q : ℚ) : WithBot (WithBot (WithTop ℚ)) := ((q : WithTop ℚ) : WithBot (WithTop ℚ))

lemma ratKey_lt {p q : ℚ} : ratKey p < ratKey q ↔ p < q := by
  rw [ratKey, ratKey, WithBot.coe_lt_coe, WithBot.coe_lt_coe, WithTop.coe_lt_coe]

/-! ### Comparisons -/

/-- `Comparator<double>::Compare`. -/
def compareDouble (left right : Float64) : Ordering :=
  if left.lt right then .lt
  else if right.lt left then .gt
  else if left.eq right then .eq
  else if ¬ right.isNaN then .lt
  else if ¬ left.isNaN then .gt
  else .eq

/-- `INT64_MIN_VALUE_AS_DOUBLE`. -/
def int64MinAsDouble : Float64 := .finite (-2 ^ 63) (isBinary64_two_pow (by norm_num)).neg

/-- `INT64_MAX_VALUE_AS_DOUBLE`, which is no 64-bit integer. -/
def int64MaxAsDouble : Float64 := .finite (2 ^ 63) (isBinary64_two_pow (by norm_num))

/-- `CompareMixedNumber`; an infinity does not get to the cast. -/
def compareMixedNumber (double_value : Float64) (int64_value : Int64) : Ordering :=
  if double_value.lt int64MinAsDouble then .lt
  else if double_value.ge int64MaxAsDouble then .gt
  else if double_value.isNaN then .lt
  else
    let double_as_int64 := Int64.ofInt (Float64.truncate (double_value.finite?.getD 0))
    match compare double_as_int64.toInt int64_value.toInt with
    | .eq => compareDouble double_value (Float64.ofInt64 int64_value)
    | cmp => cmp

lemma key_of_value {x : Float64} {a : WithBot (WithTop ℚ)} (h : x.value? = some a) :
    x.key = (a : WithBot (WithBot (WithTop ℚ))) := h

lemma lt_iff {x y : Float64} {a b : WithBot (WithTop ℚ)} (hx : x.value? = some a)
    (hy : y.value? = some b) : x.lt y = true ↔ a < b := by
  rw [Float64.lt, hx, hy]
  exact decide_eq_true_iff

lemma eq_iff {x y : Float64} {a b : WithBot (WithTop ℚ)} (hx : x.value? = some a)
    (hy : y.value? = some b) : x.eq y = true ↔ a = b := by
  rw [Float64.eq, hx, hy]
  exact decide_eq_true_iff

lemma value_eq_none {x : Float64} : x.value? = none ↔ x = .nan := by
  cases x <;> simp [Float64.value?]

lemma isNaN_of_value {x : Float64} {a : WithBot (WithTop ℚ)} (h : x.value? = some a) :
    x.isNaN = false := by
  cases x <;> simp_all [Float64.value?, Float64.isNaN]

@[simp] lemma nan_lt (y : Float64) : Float64.nan.lt y = false := rfl

@[simp] lemma lt_nan (x : Float64) : x.lt .nan = false := by cases x <;> rfl

@[simp] lemma nan_eq (y : Float64) : Float64.nan.eq y = false := rfl

@[simp] lemma eq_nan (x : Float64) : x.eq .nan = false := by cases x <;> rfl

/-- **Doubles** are compared by their values, NaN first. -/
theorem compareDouble_eq (x y : Float64) : compareDouble x y = compare x.key y.key := by
  cases hx : x.value? with
  | none =>
      obtain rfl := value_eq_none.mp hx
      cases hy : y.value? with
      | none =>
          obtain rfl := value_eq_none.mp hy
          rfl
      | some b =>
          have hbot : (⊥ : WithBot (WithBot (WithTop ℚ))) < b := WithBot.bot_lt_coe b
          have hcmp : compareDouble .nan y = .lt := by simp [compareDouble, isNaN_of_value hy]
          rw [hcmp, key_of_value hy]
          exact (compare_lt_iff_lt.mpr hbot).symm
  | some a =>
      cases hy : y.value? with
      | none =>
          obtain rfl := value_eq_none.mp hy
          have hbot : (⊥ : WithBot (WithBot (WithTop ℚ))) < a := WithBot.bot_lt_coe a
          have hcmp : compareDouble x .nan = .gt := by
            rw [compareDouble, isNaN_of_value hx, lt_nan, nan_lt, eq_nan]
            rfl
          rw [hcmp, key_of_value hx]
          exact (compare_gt_iff_gt.mpr hbot).symm
      | some b =>
          rw [compareDouble, key_of_value hx, key_of_value hy]
          rcases lt_trichotomy a b with hlt | heq | hgt
          · rw [if_pos ((lt_iff hx hy).mpr hlt)]
            exact (compare_lt_iff_lt.mpr (WithBot.coe_lt_coe.mpr hlt)).symm
          · have hnot : ¬ x.lt y = true := fun h => ((lt_iff hx hy).mp h).ne heq
            have hnot' : ¬ y.lt x = true := fun h => ((lt_iff hy hx).mp h).ne heq.symm
            rw [if_neg hnot, if_neg hnot', if_pos ((eq_iff hx hy).mpr heq), heq]
            exact (compare_eq_iff_eq.mpr rfl).symm
          · have hnot : ¬ x.lt y = true := fun h => ((lt_iff hx hy).mp h).not_gt hgt
            rw [if_neg hnot, if_pos ((lt_iff hy hx).mpr hgt)]
            exact (compare_gt_iff_gt.mpr (WithBot.coe_lt_coe.mpr hgt)).symm

/-! ### A double and an integer -/

lemma truncate_lt {q : ℚ} {n : ℤ} (h : Float64.truncate q < n) : q < n := by
  rw [Float64.truncate] at h
  split_ifs at h with hq
  · exact Int.floor_lt.mp h
  · have hceil : (⌈q⌉ : ℚ) < n := by exact_mod_cast h
    exact (Int.le_ceil q).trans_lt hceil

lemma lt_truncate {q : ℚ} {n : ℤ} (h : n < Float64.truncate q) : (n : ℚ) < q := by
  rw [Float64.truncate] at h
  split_ifs at h with hq
  · have hfloor : (n : ℚ) < ⌊q⌋ := by exact_mod_cast h
    exact hfloor.trans_le (Int.floor_le q)
  · exact Int.lt_ceil.mp h

lemma truncate_intCast (n : ℤ) : Float64.truncate n = n := by
  rw [Float64.truncate]
  split_ifs <;> simp

lemma abs_truncate_le {q : ℚ} {n : ℕ} (h : |q| ≤ n) : |Float64.truncate q| ≤ n := by
  obtain ⟨hlo, hhi⟩ := abs_le.mp h
  rw [abs_le]
  constructor
  · by_contra hlt
    have hq := truncate_lt (not_le.mp hlt)
    push_cast at hq
    linarith
  · by_contra hlt
    have hq := lt_truncate (not_le.mp hlt)
    push_cast at hq
    linarith

/-- The integer a double is truncated to is exact as a double. -/
lemma isBinary64_truncate {q : ℚ} (h : IsBinary64 q) : IsBinary64 (Float64.truncate q : ℤ) := by
  rcases le_or_gt (2 ^ 53) |q| with hle | hlt
  · obtain ⟨n, rfl⟩ := h.exists_intCast hle
    rwa [truncate_intCast]
  · refine isBinary64_intCast ?_
    exact_mod_cast abs_truncate_le (n := 2 ^ 53) (by exact_mod_cast hlt.le)

/-- The cast of a finite value in the range of the 64-bit integers is exact. -/
lemma toInt_ofInt_truncate {q : ℚ} (hlo : -2 ^ 63 ≤ q) (hhi : q < 2 ^ 63) :
    (Int64.ofInt (Float64.truncate q)).toInt = Float64.truncate q := by
  refine Int64.toInt_ofInt_of_le ?_ ?_
  · by_contra hlt
    have hq := truncate_lt (not_le.mp hlt)
    push_cast at hq
    linarith
  · by_contra hle
    rcases lt_or_eq_of_le (not_lt.mp hle) with hlt | heq
    · have hq := lt_truncate hlt
      push_cast at hq
      linarith
    · -- a number below `2 ^ 63` is not truncated to it
      rw [Float64.truncate] at heq
      split_ifs at heq with hq
      · have hfloor := Int.floor_le q
        rw [← heq] at hfloor
        push_cast at hfloor
        linarith
      · have hceil : ⌈q⌉ ≤ 0 := Int.ceil_le.mpr (by push_cast; linarith)
        omega

lemma key_of_finite {d : Float64} {q : ℚ} (h : d.finite? = some q) :
    IsBinary64 q ∧ d.value? = some ((q : WithTop ℚ) : WithBot (WithTop ℚ)) ∧ d.key = ratKey q := by
  cases d with
  | negZero =>
      obtain rfl := Option.some.inj h
      exact ⟨isBinary64_zero, rfl, rfl⟩
  | finite q' hq' =>
      obtain rfl := Option.some.inj h
      exact ⟨hq', rfl, rfl⟩
  | _ => exact absurd h (by simp [Float64.finite?])

/-- A finite value in the range of the 64-bit integers, against such an
integer. -/
lemma compare_truncate {d : Float64} {q : ℚ} (hd : d.finite? = some q) (hlo : -2 ^ 63 ≤ q)
    (hhi : q < 2 ^ 63) (n : Int64) :
    (match compare (Int64.ofInt (Float64.truncate q)).toInt n.toInt with
      | .eq => compareDouble d (Float64.ofInt64 n)
      | cmp => cmp) = compare (ratKey q) (ratKey n.toInt) := by
  obtain ⟨hq, -, hkey⟩ := key_of_finite hd
  rw [toInt_ofInt_truncate hlo hhi]
  rcases lt_trichotomy (Float64.truncate q) n.toInt with hlt | heq | hgt
  · rw [compare_lt_iff_lt.mpr hlt, compare_lt_iff_lt.mpr (ratKey_lt.mpr (truncate_lt hlt))]
  · -- the integer is the truncated number, hence exact as a double
    have hn : IsBinary64 (n.toInt : ℚ) := heq ▸ isBinary64_truncate hq
    have hcast : Float64.ofInt64 n = .finite n.toInt hn := Float64.round_of_isBinary64 hn
    rw [compare_eq_iff_eq.mpr heq, hcast, compareDouble_eq, hkey]
    rfl
  · rw [compare_gt_iff_gt.mpr hgt, compare_gt_iff_gt.mpr (ratKey_lt.mpr (lt_truncate hgt))]

/-- **A double and an integer** are compared by their exact values, NaN first. -/
theorem compareMixedNumber_eq (d : Float64) (n : Int64) :
    compareMixedNumber d n = compare d.key (ratKey n.toInt) := by
  have hmin : int64MinAsDouble.value? = some (((-2 ^ 63 : ℚ) : WithTop ℚ) : WithBot (WithTop ℚ)) :=
    rfl
  have hmax : int64MaxAsDouble.value? = some (((2 ^ 63 : ℚ) : WithTop ℚ) : WithBot (WithTop ℚ)) :=
    rfl
  have hnlo : (-2 ^ 63 : ℚ) ≤ n.toInt := by exact_mod_cast n.le_toInt
  have hnhi : (n.toInt : ℚ) < 2 ^ 63 := by exact_mod_cast n.toInt_lt
  cases hd : d.finite? with
  | none =>
      cases d with
      | nan =>
          have hbot : (⊥ : WithBot (WithBot (WithTop ℚ))) < ratKey n.toInt := WithBot.bot_lt_coe _
          rw [compareMixedNumber, Float64.ge, nan_lt, lt_nan, nan_eq]
          exact (compare_lt_iff_lt.mpr hbot).symm
      | negInfinity =>
          have hlt : Float64.negInfinity.lt int64MinAsDouble = true :=
            (lt_iff rfl hmin).mpr (WithBot.bot_lt_coe _)
          have hkey : Float64.negInfinity.key < ratKey n.toInt :=
            WithBot.coe_lt_coe.mpr (WithBot.bot_lt_coe _)
          rw [compareMixedNumber, if_pos hlt, compare_lt_iff_lt.mpr hkey]
      | infinity =>
          have hnot : ¬ Float64.infinity.lt int64MinAsDouble = true := fun h =>
            absurd ((lt_iff rfl hmin).mp h) (not_lt.mpr (WithBot.coe_le_coe.mpr le_top))
          have hge : Float64.infinity.ge int64MaxAsDouble = true := by
            rw [Float64.ge, Bool.or_eq_true]
            exact Or.inl ((lt_iff hmax rfl).mpr (WithBot.coe_lt_coe.mpr (WithTop.coe_lt_top _)))
          have hkey : ratKey n.toInt < Float64.infinity.key :=
            WithBot.coe_lt_coe.mpr (WithBot.coe_lt_coe.mpr (WithTop.coe_lt_top _))
          rw [compareMixedNumber, if_neg hnot, if_pos hge, compare_gt_iff_gt.mpr hkey]
      | negZero => exact absurd hd (by simp [Float64.finite?])
      | finite q h => exact absurd hd (by simp [Float64.finite?])
  | some q =>
      obtain ⟨-, hvalue, hkey⟩ := key_of_finite hd
      have hlt : d.lt int64MinAsDouble = true ↔ q < -2 ^ 63 := by
        rw [lt_iff hvalue hmin, WithBot.coe_lt_coe, WithTop.coe_lt_coe]
      have hge : d.ge int64MaxAsDouble = true ↔ 2 ^ 63 ≤ q := by
        rw [Float64.ge, Bool.or_eq_true, lt_iff hmax hvalue, eq_iff hvalue hmax,
          WithBot.coe_lt_coe, WithTop.coe_lt_coe, WithBot.coe_inj, WithTop.coe_inj,
          le_iff_lt_or_eq, eq_comm (a := q)]
      rw [compareMixedNumber, hkey]
      by_cases hlo : q < -2 ^ 63
      · rw [if_pos (hlt.mpr hlo), compare_lt_iff_lt.mpr (ratKey_lt.mpr (hlo.trans_le hnlo))]
      · rw [if_neg (hlt.not.mpr hlo)]
        by_cases hhi : 2 ^ 63 ≤ q
        · rw [if_pos (hge.mpr hhi), compare_gt_iff_gt.mpr (ratKey_lt.mpr (hnhi.trans_le hhi))]
        · rw [if_neg (hge.not.mpr hhi), isNaN_of_value hvalue, hd, Option.getD_some]
          exact compare_truncate hd (not_lt.mp hlo) (not_le.mp hhi) n

/-! ### Addition of integers -/

/-- `SafeIncrement`. -/
def safeIncrement (x y : Int64) : Int64 :=
  if x > 0 ∧ y > Int64.maxValue - x then Int64.maxValue
  else if x < 0 ∧ y < Int64.minValue - x then Int64.minValue
  else x + y

lemma bmod_of_range {n : ℤ} (hlo : -2 ^ 63 ≤ n) (hhi : n < 2 ^ 63) : n.bmod (2 ^ 64) = n :=
  Int.bmod_eq_of_le (by norm_num; omega) (by norm_num; omega)

/-- **Addition saturates**: the sum, or the end of the range it is beyond. -/
theorem safeIncrement_toInt (x y : Int64) :
    (safeIncrement x y).toInt = max (-2 ^ 63) (min (2 ^ 63 - 1) (x.toInt + y.toInt)) := by
  have hx := x.le_toInt
  have hx' := x.toInt_lt
  have hy := y.le_toInt
  have hy' := y.toInt_lt
  have hpos : x > 0 ↔ 0 < x.toInt := Int64.lt_iff_toInt_lt
  have hneg : x < 0 ↔ x.toInt < 0 := Int64.lt_iff_toInt_lt
  rw [safeIncrement]
  split_ifs with hmax hmin
  · -- the difference does not overflow, and tells that the sum does
    have h0 := hpos.mp hmax.1
    have hover := Int64.lt_iff_toInt_lt.mp hmax.2
    rw [Int64.toInt_sub, Int64.toInt_maxValue, bmod_of_range (by omega) (by omega)] at hover
    rw [Int64.toInt_maxValue]
    omega
  · have h0 := hneg.mp hmin.1
    have hunder := Int64.lt_iff_toInt_lt.mp hmin.2
    rw [Int64.toInt_sub, Int64.toInt_minValue, bmod_of_range (by omega) (by omega)] at hunder
    rw [Int64.toInt_minValue]
    omega
  · have hhi : x.toInt + y.toInt < 2 ^ 63 := by
      by_contra hover
      refine hmax ⟨hpos.mpr (by omega), Int64.lt_iff_toInt_lt.mpr ?_⟩
      rw [Int64.toInt_sub, Int64.toInt_maxValue, bmod_of_range (by omega) (by omega)]
      omega
    have hlo : -2 ^ 63 ≤ x.toInt + y.toInt := by
      by_contra hunder
      refine hmin ⟨hneg.mpr (by omega), Int64.lt_iff_toInt_lt.mpr ?_⟩
      rw [Int64.toInt_sub, Int64.toInt_minValue, bmod_of_range (by omega) (by omega)]
      omega
    rw [Int64.toInt_add, bmod_of_range hlo hhi]
    omega

end Firestore
