import Tasker.Double
import Tasker.Lib.Decimal

/-!
The values of the texts that `Double(_:)` accepts, and the texts that
`String(_:)` makes of `Double`s.

* `numeralValue`: the exact value of an unsigned decimal or hexadecimal number;
  `unsigned_of_number`: it is rounded.
* `BelowZero`: a minus sign and a number that is not rounded to zero;
  `double_lt_zero_iff`: these texts stand for the numbers below zero.
* `numeralValue_fixedPoint`: what is written with a point is read back exactly;
  `double_of_numeralValue`: and rounded.
* `Double.description`: the shortest decimal with a place behind the point at
  least, and `description_ofRat_cents`: that of a number of cents.
-/

namespace Tasker

open Decimal

/-! ### Values of texts -/

/-- The value of a decimal number. -/
def decimalValue (cs : List Char) : Option ℚ :=
  (significand 10 isDigit cs).bind fun (n, places, rest) =>
    (exponent 'e' rest).map fun e => n * 10 ^ (e - places : ℤ)

/-- The value of a hexadecimal number, behind `0x`. -/
def hexadecimalValue (cs : List Char) : Option ℚ :=
  (significand 16 isHexDigit cs).bind fun (n, places, rest) =>
    (exponent 'p' rest).map fun e => n * 2 ^ (e - 4 * places : ℤ)

/-- The value of a number without a sign. -/
def numeralValue (cs : List Char) : Option ℚ :=
  match cs with
  | '0' :: 'x' :: rest => hexadecimalValue rest
  | '0' :: 'X' :: rest => hexadecimalValue rest
  | _ => decimalValue cs

/-- `inf` or `infinity`, in any case. -/
def IsInfinity (cs : List Char) : Prop :=
  cs.map Char.toLower = "inf".toList ∨ cs.map Char.toLower = "infinity".toList

instance (cs : List Char) : Decidable (IsInfinity cs) := inferInstanceAs (Decidable (_ ∨ _))

lemma decimal_eq (cs : List Char) : decimal cs = (decimalValue cs).map Double.ofRat := by
  rw [decimal, decimalValue]
  cases significand 10 isDigit cs with
  | none => rfl
  | some r => simp only [Option.bind_some, Option.map_map, Function.comp_def]

lemma hexadecimal_eq (cs : List Char) :
    hexadecimal cs = (hexadecimalValue cs).map Double.ofRat := by
  rw [hexadecimal, hexadecimalValue]
  cases significand 16 isHexDigit cs with
  | none => rfl
  | some r => simp only [Option.bind_some, Option.map_map, Function.comp_def]

lemma numeralValue_eq_decimalValue {cs : List Char} (hx : ∀ rest, cs ≠ '0' :: 'x' :: rest)
    (hX : ∀ rest, cs ≠ '0' :: 'X' :: rest) : numeralValue cs = decimalValue cs := by
  unfold numeralValue
  split
  · exact absurd rfl (hx _)
  · exact absurd rfl (hX _)
  · rfl

/-- A number without a sign is infinite, not a number, or its value rounded. -/
lemma unsigned_of_isInfinity {cs : List Char} (h : IsInfinity cs) :
    unsigned cs = some .infinity := by
  unfold unsigned
  exact if_pos h

lemma unsigned_of_isNaN {cs : List Char} (h : ¬ IsInfinity cs)
    (hnan : cs.map Char.toLower = "nan".toList) : unsigned cs = some .nan := by
  unfold IsInfinity at h
  unfold unsigned
  rw [if_neg h, if_pos hnan]

lemma unsigned_of_number {cs : List Char} (h : ¬ IsInfinity cs)
    (hnan : cs.map Char.toLower ≠ "nan".toList) :
    unsigned cs = (numeralValue cs).map Double.ofRat := by
  unfold IsInfinity at h
  unfold unsigned
  rw [if_neg h, if_neg hnan]
  split
  · exact hexadecimal_eq _
  · exact hexadecimal_eq _
  · next hx hX => rw [numeralValue_eq_decimalValue hx hX, decimal_eq]

/-- Without a sign no value is negative. -/
lemma decimalValue_nonneg {cs : List Char} {q : ℚ} (h : decimalValue cs = some q) : 0 ≤ q := by
  obtain ⟨r, -, hr⟩ := Option.bind_eq_some_iff.mp h
  obtain ⟨e, -, rfl⟩ := Option.map_eq_some_iff.mp hr
  positivity

lemma hexadecimalValue_nonneg {cs : List Char} {q : ℚ} (h : hexadecimalValue cs = some q) :
    0 ≤ q := by
  obtain ⟨r, -, hr⟩ := Option.bind_eq_some_iff.mp h
  obtain ⟨e, -, rfl⟩ := Option.map_eq_some_iff.mp hr
  positivity

lemma numeralValue_nonneg {cs : List Char} {q : ℚ} (h : numeralValue cs = some q) : 0 ≤ q := by
  unfold numeralValue at h
  split at h
  · exact hexadecimalValue_nonneg h
  · exact hexadecimalValue_nonneg h
  · exact decimalValue_nonneg h

/-- A number with a value starts with a digit or a point. -/
lemma head_of_numeralValue {cs : List Char} {q : ℚ} (h : numeralValue cs = some q) :
    ∃ c rest, cs = c :: rest ∧ (isDigit c = true ∨ c = '.') := by
  unfold numeralValue at h
  split at h
  · exact ⟨_, _, rfl, Or.inl (by decide)⟩
  · exact ⟨_, _, rfl, Or.inl (by decide)⟩
  · obtain ⟨r, hr, -⟩ := Option.bind_eq_some_iff.mp h
    cases cs with
    | nil => exact absurd hr (by simp [significand])
    | cons c rest =>
        refine ⟨c, rest, rfl, ?_⟩
        by_contra hneither
        obtain ⟨hdigit, hpoint⟩ := not_or.mp hneither
        simp [significand, hdigit, hpoint] at hr

lemma ne_of_head {c d : Char} (h : isDigit c = true ∨ c = '.') (hdigit : isDigit d = false)
    (hpoint : d ≠ '.') : c ≠ d := by
  rintro rfl
  exact h.elim (fun hc => absurd hc (by simp [hdigit])) hpoint

/-- Digits and points have no case. -/
lemma toLower_of_head {c : Char} (h : isDigit c = true ∨ c = '.') : c.toLower = c := by
  have hcode : c.toNat ≤ 57 := by
    rcases h with h | rfl
    · exact (toNat_of_isDigit h).2
    · decide
  refine dif_neg fun hupper => ?_
  have hle : 65 ≤ c.toNat := hupper.1
  omega

/-- A number with a value is not written in letters. -/
lemma not_letters_of_numeralValue {cs : List Char} {q : ℚ} (h : numeralValue cs = some q) :
    ¬ IsInfinity cs ∧ cs.map Char.toLower ≠ "nan".toList := by
  obtain ⟨c, rest, rfl, hc⟩ := head_of_numeralValue h
  have hhead : ∀ {d : Char} {ds : List Char}, isDigit d = false → d ≠ '.' →
      (c :: rest).map Char.toLower ≠ d :: ds := by
    intro d ds hdigit hpoint heq
    have hlower := (List.cons.inj heq).1
    rw [toLower_of_head hc] at hlower
    exact ne_of_head hc hdigit hpoint hlower
  exact ⟨fun h => h.elim (hhead (by decide) (by decide)) (hhead (by decide) (by decide)),
    hhead (by decide) (by decide)⟩

/-! ### Numbers below zero -/

/-- A minus sign and an infinity, or a number that is not rounded to zero. -/
def BelowZero (text : String) : Prop :=
  ∃ cs, text.toList = '-' :: cs ∧
    (IsInfinity cs ∨ ∃ q, numeralValue cs = some q ∧ 2 ^ (-1075 : ℤ) < q)

/-- The sign of a rounded number that had none. -/
lemma not_ofRat_lt_zero {q : ℚ} (hq : 0 ≤ q) : (Double.ofRat q).lt (.finite 0) = false := by
  rw [ofRat_of_nonneg hq]
  split
  · rfl
  · exact decide_eq_false (not_lt.mpr (nearest_nonneg hq))

lemma neg_ofRat_lt_zero_iff {q : ℚ} (hq : 0 ≤ q) :
    (Double.ofRat q).neg.lt (.finite 0) = true ↔ 2 ^ (-1075 : ℤ) < q := by
  have hzero := (nearest_eq_zero_iff hq).not
  rw [not_le] at hzero
  rw [ofRat_of_nonneg hq, ← hzero]
  split
  · next hlarge =>
      have hpos : (0 : ℚ) < 2 ^ 1024 := by positivity
      exact iff_of_true rfl (lt_of_lt_of_le hpos hlarge).ne'
  · rw [Double.neg, Double.lt, decide_eq_true_eq, neg_lt_zero]
    exact ⟨ne_of_gt, fun hne => lt_of_le_of_ne (nearest_nonneg hq) (Ne.symm hne)⟩

/-- Without a sign no number is below zero. -/
lemma not_unsigned_lt_zero {cs : List Char} {d : Double} (h : unsigned cs = some d) :
    d.lt (.finite 0) = false := by
  by_cases hinf : IsInfinity cs
  · rw [unsigned_of_isInfinity hinf] at h
    exact Option.some.inj h ▸ rfl
  · by_cases hnan : cs.map Char.toLower = "nan".toList
    · rw [unsigned_of_isNaN hinf hnan] at h
      exact Option.some.inj h ▸ rfl
    · rw [unsigned_of_number hinf hnan] at h
      obtain ⟨q, hq, rfl⟩ := Option.map_eq_some_iff.mp h
      exact not_ofRat_lt_zero (numeralValue_nonneg hq)

/-- A text with a minus sign, and any other. -/
lemma double_cases (text : String) :
    (∃ cs, text.toList = '-' :: cs ∧ double text = (unsigned cs).map .neg) ∨
      (∀ cs, text.toList ≠ '-' :: cs) ∧ ∃ cs, double text = unsigned cs := by
  unfold double
  split
  · next cs hcs => exact Or.inl ⟨cs, hcs, rfl⟩
  · next cs hcs => exact Or.inr ⟨fun ds hds => absurd (hcs.symm.trans hds) (by simp), cs, rfl⟩
  · next hminus _ => exact Or.inr ⟨fun ds hds => hminus ds hds, _, rfl⟩

/-- **Numbers below zero**: the texts that stand for one. -/
theorem double_lt_zero_iff (text : String) :
    (∃ d, double text = some d ∧ d.lt (.finite 0) = true) ↔ BelowZero text := by
  rcases double_cases text with ⟨cs, htext, hdouble⟩ | ⟨hminus, cs, hdouble⟩
  · have hbelow : BelowZero text ↔
        IsInfinity cs ∨ ∃ q, numeralValue cs = some q ∧ 2 ^ (-1075 : ℤ) < q := by
      constructor
      · rintro ⟨ds, hds, h⟩
        obtain rfl : cs = ds := (List.cons.inj (htext.symm.trans hds)).2
        exact h
      · exact fun h => ⟨cs, htext, h⟩
    rw [hbelow, hdouble]
    by_cases hinf : IsInfinity cs
    · rw [unsigned_of_isInfinity hinf]
      exact iff_of_true ⟨_, rfl, rfl⟩ (Or.inl hinf)
    · rw [or_iff_right hinf]
      by_cases hnan : cs.map Char.toLower = "nan".toList
      · rw [unsigned_of_isNaN hinf hnan]
        refine iff_of_false ?_ ?_
        · rintro ⟨d, hd, hlt⟩
          obtain rfl := Option.some.inj hd
          exact absurd hlt (by decide)
        · rintro ⟨q, hq, -⟩
          exact (not_letters_of_numeralValue hq).2 hnan
      · rw [unsigned_of_number hinf hnan]
        constructor
        · rintro ⟨d, hd, hlt⟩
          obtain ⟨x, hx, rfl⟩ := Option.map_eq_some_iff.mp hd
          obtain ⟨q, hq, rfl⟩ := Option.map_eq_some_iff.mp hx
          exact ⟨q, hq, (neg_ofRat_lt_zero_iff (numeralValue_nonneg hq)).mp hlt⟩
        · rintro ⟨q, hq, hlarge⟩
          rw [hq]
          exact ⟨_, rfl, (neg_ofRat_lt_zero_iff (numeralValue_nonneg hq)).mpr hlarge⟩
  · refine iff_of_false ?_ ?_
    · rintro ⟨d, hd, hlt⟩
      rw [not_unsigned_lt_zero (hdouble ▸ hd)] at hlt
      exact absurd hlt (by simp)
    · exact fun ⟨ds, hds, _⟩ => hminus ds hds

/-! ### Reading back -/

/-- Digits with a point among them are read as these digits. -/
lemma significand_point {whole fraction : List Char} (hwhole : ∀ c ∈ whole, isDigit c = true)
    (hfraction : ∀ c ∈ fraction, isDigit c = true) (hne : whole ≠ []) :
    significand 10 isDigit (whole ++ '.' :: fraction) =
      some (digitsValue (whole ++ fraction), fraction.length, []) := by
  have htake : (whole ++ '.' :: fraction).takeWhile isDigit = whole := by
    rw [List.takeWhile_append_of_pos hwhole, List.takeWhile_cons_of_neg (by decide),
      List.append_nil]
  have hdrop : (whole ++ '.' :: fraction).dropWhile isDigit = '.' :: fraction := by
    rw [List.dropWhile_append_of_pos hwhole, List.dropWhile_cons_of_neg (by decide)]
  have hvalue : (whole ++ fraction).foldl (fun n c => 10 * n + digitValue c) 0 =
      digitsValue (whole ++ fraction) := by
    refine List.foldl_ext _ _ _ fun n c hc => ?_
    have hdigit := (List.mem_append.mp hc).elim (hwhole c) (hfraction c)
    rw [digitValue, if_pos hdigit]
  have hempty : (whole ++ fraction).isEmpty = false := by
    cases whole with
    | nil => exact absurd rfl hne
    | cons c cs => rfl
  rw [significand, htake, hdrop]
  simp only [List.takeWhile_eq_self_iff.mpr hfraction, List.dropWhile_eq_nil_iff.mpr hfraction,
    hempty, hvalue, Bool.false_eq_true, if_false]

/-- And as no hexadecimal number. -/
lemma numeralValue_point {whole fraction : List Char} (hwhole : ∀ c ∈ whole, isDigit c = true)
    (hfraction : ∀ c ∈ fraction, isDigit c = true) (hne : whole ≠ []) :
    numeralValue (whole ++ '.' :: fraction) =
      some ((digitsValue (whole ++ fraction) : ℚ) / 10 ^ fraction.length) := by
  have hdecimal : decimalValue (whole ++ '.' :: fraction) =
      some ((digitsValue (whole ++ fraction) : ℚ) / 10 ^ fraction.length) := by
    rw [decimalValue, significand_point hwhole hfraction hne, Option.bind_some]
    simp only [exponent, Option.map_some, zero_sub, zpow_neg, zpow_natCast, div_eq_mul_inv]
  have hmem : ∀ c ∈ whole ++ '.' :: fraction, isDigit c = true ∨ c = '.' := by
    intro c hc
    rcases List.mem_append.mp hc with hc | hc
    · exact Or.inl (hwhole c hc)
    · exact (List.mem_cons.mp hc).symm.imp_left (hfraction c)
  rw [numeralValue_eq_decimalValue, hdecimal]
  · exact fun rest heq => absurd (hmem 'x' (by simp [heq])) (by decide)
  · exact fun rest heq => absurd (hmem 'X' (by simp [heq])) (by decide)

/-- **Reading back**: what is written with a point is read as that number. -/
theorem numeralValue_fixedPoint (n k : ℕ) :
    numeralValue (fixedPoint n k) = some ((n : ℚ) / 10 ^ k) := by
  have hwhole : ∀ c ∈ Nat.toDigits 10 (n / 10 ^ k), isDigit c = true := by
    intro c hc
    rw [isDigit_eq_isDigit]
    exact Nat.isDigit_of_mem_toDigits (by norm_num) (by norm_num) hc
  have hfraction : ∀ c ∈ lastDigits k n, isDigit c = true := by
    intro c hc
    rw [isDigit_eq_isDigit]
    exact isDigit_of_mem_lastDigits hc
  rw [fixedPoint, numeralValue_point hwhole hfraction Nat.toDigits_ne_nil, length_lastDigits,
    digitsValue_eq_ofDigitChars, ofDigitChars_fixedPoint]

/-- A text with a value is read as that value rounded. -/
lemma double_of_numeralValue {cs : List Char} {q : ℚ} (h : numeralValue cs = some q) :
    double (String.ofList cs) = some (.ofRat q) := by
  obtain ⟨c, rest, rfl, hc⟩ := head_of_numeralValue h
  obtain ⟨hinf, hnan⟩ := not_letters_of_numeralValue h
  have hsign : ∀ {d}, isDigit d = false → d ≠ '.' → ∀ cs, c :: rest ≠ d :: cs :=
    fun hdigit hpoint cs heq => ne_of_head hc hdigit hpoint (List.cons.inj heq).1
  unfold double
  rw [String.toList_ofList]
  split
  · next heq => exact absurd heq (hsign (by decide) (by decide) _)
  · next heq => exact absurd heq (hsign (by decide) (by decide) _)
  · rw [unsigned_of_number hinf hnan, h, Option.map_some]

/-! ### Writing -/

/-- `String(_:)` of a number that is written without an exponent, as zero is and
what is from a ten-thousandth to `2 ^ 53`: the shortest decimal, with a place
behind the point at least. -/
def Double.description : Double → String
  | .finite q =>
      let k := places roundHalfEven Double.ofRat (.finite |q|) |q| 1074 1
      let digits := fixedPoint (roundHalfEven (|q| * 10 ^ k)).toNat k
      String.ofList (if q < 0 then '-' :: digits else digits)
  | .infinity => "inf"
  | .negInfinity => "-inf"
  | .nan => "nan"

/-- Different hundredths are different numbers. -/
lemma eq_of_ofRat_hundredths {m n : ℤ} {x : ℚ} (hm : Double.ofRat (m / 100) = .finite x)
    (hn : Double.ofRat (n / 100) = .finite x) (hx : |x| < 2 ^ 20) : m = n := by
  have hlt : |((m - n : ℤ) : ℚ)| < 1 := by
    push_cast
    calc |(m : ℚ) - n| = 100 * |(m : ℚ) / 100 - n / 100| := by
          rw [← abs_of_pos (show (0 : ℚ) < 100 by norm_num), ← abs_mul]
          congr 1
          norm_num
          ring
      _ ≤ 100 * (|(m : ℚ) / 100 - x| + |x - n / 100|) :=
          mul_le_mul_of_nonneg_left (abs_sub_le _ _ _) (by norm_num)
      _ ≤ 100 * (1 / 2 ^ 33 + 1 / 2 ^ 33) := by
          have hm' := abs_sub_le_of_ofRat hm hx
          have hn' := abs_sub_le_of_ofRat hn hx
          rw [abs_sub_comm] at hm'
          exact mul_le_mul_of_nonneg_left (add_le_add hm' hn') (by norm_num)
      _ < 1 := by norm_num
  exact sub_eq_zero.mp (Int.abs_lt_one_iff.mp (by exact_mod_cast hlt))

/-- What is rounded from a short decimal is written as it, if fewer places do not
do. -/
lemma description_of_places {q x : ℚ} {n k : ℕ} (hround : Double.ofRat q = .finite x)
    (hpos : 0 ≤ x) (hx : x < 2 ^ 20) (hk : 1 ≤ k) (hk' : k ≤ 9) (hn : (n : ℚ) / 10 ^ k = q)
    (hshort : ∀ i, 1 ≤ i → i < k → ∀ m : ℤ, Double.ofRat (m / 10 ^ i) ≠ .finite x) :
    (Double.finite x).description = String.ofList (fixedPoint n k) := by
  have hnear : |x - ((n : ℤ) : ℚ) / 10 ^ k| < 1 / (2 * 10 ^ k) := by
    have hclose := abs_sub_le_of_ofRat hround (by rwa [abs_of_nonneg hpos])
    have hpow : (10 : ℚ) ^ k ≤ 10 ^ 9 := pow_le_pow_right₀ (by norm_num) hk'
    rw [Int.cast_natCast, hn]
    refine lt_of_le_of_lt hclose (one_div_lt_one_div_of_lt (by positivity) ?_)
    norm_num at hpow ⊢
    linarith
  have hread : Double.ofRat (((n : ℤ) : ℚ) / 10 ^ k) = .finite x := by
    rw [Int.cast_natCast, hn, hround]
  rw [Double.description, abs_of_nonneg hpos, if_neg (not_lt.mpr hpos),
    places_eq abs_roundHalfEven_sub_le hk (by omega) hnear hread hshort,
    near_mul_eq abs_roundHalfEven_sub_le hnear, Int.toNat_natCast]

/-- A number of cents below a million dollars is rounded to one below it. -/
lemma ofRat_cents {c : ℕ} (hc : c < 10 ^ 8) :
    ∃ x, Double.ofRat (c / 100) = .finite x ∧ 0 ≤ x ∧ x < 10 ^ 6 := by
  have hnonneg : (0 : ℚ) ≤ c / 100 := by positivity
  have hle : (c : ℚ) / 100 ≤ 10 ^ 6 - 1 / 100 := by
    have hc' : (c : ℚ) + 1 ≤ 10 ^ 8 := by exact_mod_cast hc
    linarith
  obtain ⟨hround, hlarge⟩ := ofRat_of_lt hnonneg (lt_of_le_of_lt hle (by norm_num))
  have hpos := nearest_nonneg hnonneg
  have hsmall : |nearest (c / 100)| < 2 ^ 20 := by
    rw [abs_of_nonneg hpos]
    norm_num at hle ⊢
    linarith
  have hclose := (abs_le.mp (abs_sub_le_of_ofRat hround hsmall)).2
  refine ⟨_, hround, hpos, ?_⟩
  norm_num at hle hclose ⊢
  linarith

/-- **A number of cents**: whole tens are written with one place, and others with
two. -/
theorem description_ofRat_cents {c : ℕ} (hc : c < 10 ^ 8) :
    (Double.ofRat (c / 100)).description =
      String.ofList (if c % 10 = 0 then fixedPoint (c / 10) 1 else fixedPoint c 2) := by
  obtain ⟨x, hround, hpos, hlt⟩ := ofRat_cents hc
  have hx : x < 2 ^ 20 := hlt.trans (by norm_num)
  rw [hround]
  split
  · next htens =>
      refine description_of_places hround hpos hx le_rfl (by omega) ?_ fun i hi hi' =>
        absurd hi' (by omega)
      have hmul : (c : ℚ) = 10 * (c / 10 : ℕ) := by exact_mod_cast (by omega)
      rw [hmul]
      ring
  · next htens =>
      refine description_of_places hround hpos hx one_le_two (by omega) (by norm_num)
        fun i hi hi' m hm => htens ?_
      obtain rfl : i = 1 := by omega
      -- a number with one place is another hundredth
      have heq : 10 * m = c := by
        refine eq_of_ofRat_hundredths ?_ hround (by rwa [abs_of_nonneg hpos])
        rw [← hm]
        push_cast
        congr 1
        ring
      omega

end Tasker
