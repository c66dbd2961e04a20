import Tasker.Lib.Regex
import Mathlib.Data.List.DropRight

/-!
The checks of text fields (`Utilities.swift`) and what they use of the standard
library: trimming, `Int(_:)`, the regular expressions of `NSPredicate`, and dates.

* `isEmailValid`, `isPasswordValid`, `isZipCodeValid`: a pattern matched against
  the whole text.
* `isAgeValid`: the date of birth lies 18 to 99 years back.
* `isZipCodeValid_iff`: five digits, or five and four; `int_zipCode`: only the
  former are an integer.

A text is the list of its Unicode scalars, and texts are equal as such lists.
-/

namespace Tasker

open Regex

/-! ### Texts -/

/-- `CharacterSet.whitespacesAndNewlines`. -/
def isWhitespaceOrNewline (c : Char) : Bool :=
  (9 ≤ c.toNat && c.toNat ≤ 13) || (0x2000 ≤ c.toNat && c.toNat ≤ 0x200a) ||
    [0x20, 0x85, 0xa0, 0x1680, 0x2028, 0x2029, 0x202f, 0x205f, 0x3000].contains c.toNat

/-- `trimmingCharacters(in: .whitespacesAndNewlines)`. -/
def trimmingCharacters (s : String) : String :=
  String.ofList ((s.toList.dropWhile isWhitespaceOrNewline).rdropWhile isWhitespaceOrNewline)

/-- There is nothing left to trim. -/
lemma trimmingCharacters_idem (s : String) :
    trimmingCharacters (trimmingCharacters s) = trimmingCharacters s := by
  have hhead : ((s.toList.dropWhile isWhitespaceOrNewline).rdropWhile
      isWhitespaceOrNewline).dropWhile isWhitespaceOrNewline =
      (s.toList.dropWhile isWhitespaceOrNewline).rdropWhile isWhitespaceOrNewline := by
    rw [List.dropWhile_eq_self_iff]
    intro hl
    -- the first character that is left is the first one of the rest
    have hrest := List.rdropWhile_prefix isWhitespaceOrNewline
      (l := s.toList.dropWhile isWhitespaceOrNewline)
    rw [hrest.getElem hl]
    exact List.dropWhile_get_zero_not _ _ _
  rw [trimmingCharacters, trimmingCharacters, String.toList_ofList, hhead,
    List.rdropWhile_idempotent]

/-! ### Regular expressions -/

/-- `[...]`, by its ranges and its single characters. -/
def charClass (ranges : List (Char × Char)) (chars : List Char) (c : Char) : Bool :=
  ranges.any (fun r => r.1 ≤ c && c ≤ r.2) || chars.contains c

/-- `[0-9]`. -/
def isDigit (c : Char) : Bool := charClass [('0', '9')] [] c

/-- The zeros of the decimal digits of Unicode; nine digits follow each. -/
def decimalZeros : List ℕ :=
  [0x30, 0x660, 0x6f0, 0x7c0, 0x966, 0x9e6, 0xa66, 0xae6, 0xb66, 0xbe6, 0xc66, 0xce6, 0xd66,
    0xde6, 0xe50, 0xed0, 0xf20, 0x1040, 0x1090, 0x17e0, 0x1810, 0x1946, 0x19d0, 0x1a80, 0x1a90,
    0x1b50, 0x1bb0, 0x1c40, 0x1c50, 0xa620, 0xa8d0, 0xa900, 0xa9d0, 0xa9f0, 0xaa50, 0xabf0,
    0xff10, 0x104a0, 0x10d30, 0x11066, 0x110f0, 0x11136, 0x111d0, 0x112f0, 0x11450, 0x114d0,
    0x11650, 0x116c0, 0x11730, 0x118e0, 0x11950, 0x11c50, 0x11d50, 0x11da0, 0x16a60, 0x16ac0,
    0x16b50, 0x1d7ce, 0x1d7d8, 0x1d7e2, 0x1d7ec, 0x1d7f6, 0x1e140, 0x1e2f0, 0x1e950, 0x1fbf0]

/-- `\d`. -/
def isDecimalDigit (c : Char) : Bool :=
  decimalZeros.any fun z => z ≤ c.toNat && c.toNat ≤ z + 9

/-- `.`, which no line terminator matches. -/
def notNewline (c : Char) : Bool :=
  !((10 ≤ c.toNat && c.toNat ≤ 13) || [0x85, 0x2028, 0x2029].contains c.toNat)

/-- A character that stands for itself. -/
def char (c : Char) : Regex Char := .cls (charClass [] [c])

/-- `[A-Z0-9a-z._%+-]+@[A-Za-z0-9.-]+\.[A-Za-z]{2,6}`. -/
def emailRegex : Pattern Char where
  body :=
    .cat
      (atLeast (.cls (charClass [('A', 'Z'), ('0', '9'), ('a', 'z')] ['.', '_', '%', '+', '-'])) 1)
      (.cat (char '@')
        (.cat (atLeast (.cls (charClass [('A', 'Z'), ('a', 'z'), ('0', '9')] ['.', '-'])) 1)
          (.cat (char '.') (upTo (.cls (charClass [('A', 'Z'), ('a', 'z')] [])) 2 4))))

/-- `[$@$#!%*?&]`. -/
def specialCharacters : List Char := ['$', '@', '$', '#', '!', '%', '*', '?', '&']

/-- `^(?=.*[a-z])(?=.*[$@$#!%*?&])[A-Za-z\d$@$#!%*?&]{8,}`. -/
def passwordRegex : Pattern Char where
  lookaheads := [
    .cat (.star (.cls notNewline)) (.cls (charClass [('a', 'z')] [])),
    .cat (.star (.cls notNewline)) (.cls (charClass [] specialCharacters))]
  body := atLeast (.cls fun c =>
    charClass [('A', 'Z'), ('a', 'z')] specialCharacters c || isDecimalDigit c) 8

/-- `^[0-9]{5}(-[0-9]{4})?$`. -/
def zipRegex : Pattern Char where
  body := .cat (times (.cls isDigit) 5) (opt (.cat (char '-') (times (.cls isDigit) 4)))

/-- `Utilities.isEmailValid`. -/
def isEmailValid (email : String) : Bool := emailRegex.accepts email.toList

/-- `Utilities.isPasswordValid`. -/
def isPasswordValid (password : String) : Bool := passwordRegex.accepts password.toList

/-- `Utilities.isZipCodeValid`. -/
def isZipCodeValid (zipCode : String) : Bool := zipRegex.accepts zipCode.toList

example : isPasswordValid "passw0rd!" = true ∧ isPasswordValid "passw0rd" = false := by
  decide +kernel

/-! ### Integers -/

/-- The value of some decimal digits. -/
def digitsValue (ds : List Char) : ℕ := ds.foldl (fun n c => 10 * n + (c.toNat - 48)) 0

/-- A number of `Int`, which has 64 bits. -/
def inInt (n : ℤ) : Option ℤ := if -2 ^ 63 ≤ n ∧ n < 2 ^ 63 then some n else none

/-- The digits of an unsigned decimal number. -/
def isDecimal (ds : List Char) : Bool := !ds.isEmpty && ds.all isDigit

/-- `Int(_:)` of a text. -/
def int (s : String) : Option ℤ :=
  match s.toList with
  | '-' :: ds => if isDecimal ds then inInt (-digitsValue ds) else none
  | '+' :: ds => if isDecimal ds then inInt (digitsValue ds) else none
  | ds => if isDecimal ds then inInt (digitsValue ds) else none

/-! ### Dates -/

/-- The `DateFormatter` with the format `MM/dd/yyyy` and the calendar of a
device, with instants in seconds. -/
structure Dates where
  date : String → Option ℤ
  string : ℤ → String
  addingYears : ℤ → ℤ → ℤ

/-- `Utilities.isAgeValid`, at the instant `now`. -/
def isAgeValid (dates : Dates) (now : ℤ) (date : String) : Bool :=
  match dates.date date with
  | some dateOfBirth =>
      if dateOfBirth > dates.addingYears (-18) now then false
      else if dateOfBirth < dates.addingYears (-99) now then false
      else true
  | none => false

/-- A valid date of birth is a date. -/
lemma date_of_isAgeValid {dates : Dates} {now : ℤ} {date : String}
    (h : isAgeValid dates now date = true) : ∃ d, dates.date date = some d := by
  rw [isAgeValid] at h
  split at h
  · next d hd => exact ⟨d, hd⟩
  · exact absurd h (by simp)

/-! ### Zip codes -/

/-- The texts accepted as zip codes. -/
lemma isZipCodeValid_iff (s : String) :
    isZipCodeValid s = true ↔
      (s.toList.length = 5 ∧ ∀ c ∈ s.toList, isDigit c = true) ∨
      ∃ five four, s.toList = five ++ '-' :: four ∧ (five.length = 5 ∧ four.length = 4) ∧
        ∀ c ∈ five ++ four, isDigit c = true := by
  have hhyphen : ∀ u, u ∈ (char '-').lang ↔ u = ['-'] := by
    intro u
    constructor
    · rintro ⟨c, hc, rfl⟩
      simpa [charClass] using hc
    · rintro rfl
      exact ⟨'-', rfl, rfl⟩
  rw [isZipCodeValid, Pattern.accepts_iff, and_iff_right (by simp [zipRegex])]
  constructor
  · rintro ⟨five, hfive, rest, hrest, heq⟩
    obtain ⟨hlen, hdigits⟩ := (mem_times_cls _ _ _).mp hfive
    rcases hrest with ⟨hyphen, hhyph, four, hfour, rfl⟩ | hnil
    · obtain ⟨hlen', hdigits'⟩ := (mem_times_cls _ _ _).mp hfour
      rw [(hhyphen hyphen).mp hhyph] at heq
      refine Or.inr ⟨five, four, heq.symm, ⟨hlen, hlen'⟩, fun c hc => ?_⟩
      exact (List.mem_append.mp hc).elim (hdigits c) (hdigits' c)
    · obtain rfl := (Language.mem_one rest).mp hnil
      obtain rfl : five = s.toList := (List.append_nil five).symm.trans heq
      exact Or.inl ⟨hlen, hdigits⟩
  · rintro (h | ⟨five, four, heq, ⟨hlen, hlen'⟩, hdigits⟩)
    · exact ⟨s.toList, (mem_times_cls _ _ _).mpr h, [], Or.inr rfl, List.append_nil _⟩
    · refine ⟨five, (mem_times_cls _ _ _).mpr ⟨hlen, fun c hc => hdigits c (by simp [hc])⟩,
        '-' :: four, Or.inl ⟨['-'], (hhyphen _).mpr rfl, four, ?_, rfl⟩, heq.symm⟩
      exact (mem_times_cls _ _ _).mpr ⟨hlen', fun c hc => hdigits c (by simp [hc])⟩

lemma toNat_of_isDigit {c : Char} (h : isDigit c = true) : 48 ≤ c.toNat ∧ c.toNat ≤ 57 := by
  have hle : '0' ≤ c ∧ c ≤ '9' := by simpa [isDigit, charClass] using h
  exact hle

lemma isDigit_eq_isDigit (c : Char) : isDigit c = c.isDigit := by
  rw [Bool.eq_iff_iff, Char.isDigit_iff_toNat]
  simp only [isDigit, charClass, List.any_cons, List.any_nil, List.contains_nil, Bool.or_false,
    Bool.and_eq_true, decide_eq_true_eq]
  exact Iff.rfl

lemma digitsValue_eq_ofDigitChars (ds : List Char) :
    digitsValue ds = Nat.ofDigitChars 10 ds 0 := rfl

/-- The first digit counts as often as the others allow. -/
lemma digitsValue_cons (c : Char) (ds : List Char) :
    digitsValue (c :: ds) = 10 ^ ds.length * (c.toNat - 48) + digitsValue ds := by
  have hzero : '0'.toNat = 48 := rfl
  rw [digitsValue_eq_ofDigitChars, Nat.ofDigitChars_cons, Nat.ofDigitChars_eq_ofDigitChars_zero,
    ← digitsValue_eq_ofDigitChars, mul_zero, zero_add, hzero]

/-- Digits have values of as many digits. -/
lemma digitsValue_lt {ds : List Char} (h : ∀ c ∈ ds, isDigit c = true) :
    digitsValue ds < 10 ^ ds.length := by
  induction ds with
  | nil => exact Nat.one_pos
  | cons c ds ih =>
      have hc := toNat_of_isDigit (h c List.mem_cons_self)
      have hds := ih fun c' hc' => h c' (List.mem_cons_of_mem c hc')
      have hdigit : c.toNat - 48 ≤ 9 := by omega
      calc digitsValue (c :: ds) = 10 ^ ds.length * (c.toNat - 48) + digitsValue ds :=
            digitsValue_cons c ds
        _ < 10 ^ ds.length * 9 + 10 ^ ds.length :=
            Nat.add_lt_add_of_le_of_lt (Nat.mul_le_mul_left _ hdigit) hds
        _ = 10 ^ (c :: ds).length := by rw [List.length_cons, pow_succ]; ring

/-- As many digits with the same value are the same. -/
lemma eq_of_digitsValue_eq {ds es : List Char} (hlen : ds.length = es.length)
    (hds : ∀ c ∈ ds, isDigit c = true) (hes : ∀ c ∈ es, isDigit c = true)
    (h : digitsValue ds = digitsValue es) : ds = es := by
  induction ds generalizing es with
  | nil => exact (List.eq_nil_of_length_eq_zero hlen.symm).symm
  | cons c ds ih =>
      cases es with
      | nil => exact absurd hlen (by simp)
      | cons e es =>
          have htail : ds.length = es.length := Nat.succ.inj hlen
          have hds' : ∀ c' ∈ ds, isDigit c' = true := fun c' hc' => hds c' (by simp [hc'])
          have hes' : ∀ e' ∈ es, isDigit e' = true := fun e' he' => hes e' (by simp [he'])
          have hlt := digitsValue_lt hds'
          have hlt' := digitsValue_lt hes'
          rw [digitsValue_cons, digitsValue_cons, ← htail] at h
          rw [← htail] at hlt'
          have hpos : 0 < 10 ^ ds.length := by positivity
          -- the quotients and the remainders by the power agree
          have hhead : c.toNat - 48 = e.toNat - 48 := by
            have hdiv := congrArg (· / 10 ^ ds.length) h
            simpa only [Nat.mul_add_div hpos, Nat.div_eq_of_lt hlt, Nat.div_eq_of_lt hlt',
              add_zero] using hdiv
          have hrest : digitsValue ds = digitsValue es := by
            rw [hhead] at h
            exact Nat.add_left_cancel h
          have hc := toNat_of_isDigit (hds c List.mem_cons_self)
          have he := toNat_of_isDigit (hes e List.mem_cons_self)
          have heq : c = e := Char.toNat_inj.mp (by omega)
          rw [heq, ih htail hds' hes' hrest]

/-- Digits are printed again as they are, unless the first is a zero. -/
lemma toDigits_digitsValue {c : Char} {ds : List Char} (h : ∀ d ∈ c :: ds, isDigit d = true)
    (hne : c ≠ '0') : Nat.toDigits 10 (digitsValue (c :: ds)) = c :: ds := by
  have hdigits : ∀ d ∈ Nat.toDigits 10 (digitsValue (c :: ds)), isDigit d = true := fun d hd => by
    rw [isDigit_eq_isDigit]
    exact Nat.isDigit_of_mem_toDigits (by norm_num) (by norm_num) hd
  refine eq_of_digitsValue_eq ?_ hdigits h ?_
  · have hc := toNat_of_isDigit (h c List.mem_cons_self)
    have hzero : c.toNat ≠ 48 := fun heq => hne (Char.toNat_inj.mp heq)
    have hge : 10 ^ ds.length ≤ digitsValue (c :: ds) := by
      rw [digitsValue_cons]
      exact (Nat.le_mul_of_pos_right _ (by omega)).trans (Nat.le_add_right _ _)
    have hle : (Nat.toDigits 10 (digitsValue (c :: ds))).length ≤ ds.length + 1 :=
      (Nat.length_toDigits_le_iff (by norm_num) (Nat.succ_pos _)).mpr (digitsValue_lt h)
    refine le_antisymm hle (Nat.succ_le_of_lt ?_)
    rcases Nat.eq_zero_or_pos ds.length with hnil | hpos
    · rw [hnil]
      exact Nat.length_toDigits_pos
    · rw [← not_le, Nat.length_toDigits_le_iff (by norm_num) hpos]
      exact not_lt.mpr hge
  · rw [digitsValue_eq_ofDigitChars]
    exact Nat.ofDigitChars_ten_toDigits

/-- With a zero first, there are fewer. -/
lemma length_toDigits_digitsValue {ds : List Char} (h : ∀ d ∈ ds, isDigit d = true)
    (hpos : 0 < ds.length) : (Nat.toDigits 10 (digitsValue ('0' :: ds))).length ≤ ds.length := by
  have hvalue : digitsValue ('0' :: ds) = digitsValue ds := by
    rw [digitsValue_cons]
    exact Nat.zero_add _
  rw [Nat.length_toDigits_le_iff (by norm_num) hpos, hvalue]
  exact digitsValue_lt h

/-- A text that starts with a digit has no sign. -/
lemma int_of_digit {s : String} {c : Char} {l : List Char} (heq : s.toList = c :: l)
    (hc : isDigit c = true) :
    int s = if isDecimal s.toList then inInt (digitsValue s.toList) else none := by
  have hne : ∀ d, isDigit d = false → c ≠ d := by
    rintro d hd rfl
    exact absurd hc (by simp [hd])
  rw [int]
  split
  · next ds hds => exact absurd (List.cons.inj (heq.symm.trans hds)).1 (hne '-' rfl)
  · next ds hds => exact absurd (List.cons.inj (heq.symm.trans hds)).1 (hne '+' rfl)
  · rfl

/-- Five digits are an integer. -/
lemma int_of_digits {s : String} (hlen : s.toList.length = 5)
    (hdigits : ∀ c ∈ s.toList, isDigit c = true) : int s = some (digitsValue s.toList : ℤ) := by
  obtain ⟨c, l, hcl⟩ := List.exists_cons_of_length_pos (l := s.toList) (by omega)
  have hvalue := digitsValue_lt hdigits
  rw [hlen] at hvalue
  have hdecimal : isDecimal s.toList = true := by
    rw [isDecimal, Bool.and_eq_true, List.all_eq_true]
    exact ⟨by rw [hcl]; rfl, hdigits⟩
  rw [int_of_digit hcl (hdigits c (hcl ▸ List.mem_cons_self)), if_pos hdecimal, inInt,
    if_pos (by omega)]

/-- Of the texts accepted as zip codes, those of five characters are integers. -/
lemma int_zipCode {s : String} (h : isZipCodeValid s = true) :
    (int s).isSome = true ↔ s.toList.length = 5 := by
  rcases (isZipCodeValid_iff s).mp h with ⟨hlen, hdigits⟩ | ⟨five, four, heq, ⟨hlen, -⟩, hdigits⟩
  · rw [int_of_digits hlen hdigits]
    exact iff_of_true rfl hlen
  · refine iff_of_false ?_ (by simp [heq, hlen])
    obtain ⟨c, l, hcl⟩ := List.exists_cons_of_length_pos (l := five) (by omega)
    have hc : isDigit c = true := hdigits c (List.mem_append_left _ (hcl ▸ List.mem_cons_self))
    have hdecimal : isDecimal s.toList = false := by
      rw [isDecimal, heq, Bool.and_eq_false_iff]
      exact Or.inr (List.all_eq_false.mpr ⟨'-', by simp, by decide⟩)
    rw [int_of_digit (l := l ++ '-' :: four) (by rw [heq, hcl]; rfl) hc, hdecimal]
    simp

/-- A zip code of five characters is one of five digits. -/
lemma isDigit_of_isZipCodeValid {s : String} (h : isZipCodeValid s = true)
    (hlen : s.toList.length = 5) : ∀ c ∈ s.toList, isDigit c = true := by
  rcases (isZipCodeValid_iff s).mp h with ⟨-, hdigits⟩ | ⟨five, four, heq, ⟨hfive, -⟩, -⟩
  · exact hdigits
  · exact absurd hlen (by simp [heq, hfive])

/-- There is nothing to trim from a text without whitespace. -/
lemma trimmingCharacters_eq_self {s : String}
    (h : ∀ c ∈ s.toList, ¬ isWhitespaceOrNewline c = true) : trimmingCharacters s = s := by
  have hleft : s.toList.dropWhile isWhitespaceOrNewline = s.toList :=
    List.dropWhile_eq_self_iff.mpr fun hl => h _ (List.getElem_mem hl)
  have hright : s.toList.rdropWhile isWhitespaceOrNewline = s.toList :=
    List.rdropWhile_eq_self_iff.mpr fun hl => h _ (List.getLast_mem hl)
  rw [trimmingCharacters, hleft, hright, String.ofList_toList]

lemma not_isWhitespaceOrNewline_of_isDigit {c : Char} (h : isDigit c = true) :
    ¬ isWhitespaceOrNewline c = true := by
  have hbounds := toNat_of_isDigit h
  simp only [isWhitespaceOrNewline, Bool.or_eq_true, Bool.and_eq_true, decide_eq_true_eq,
    List.contains_eq_mem, List.mem_cons, List.not_mem_nil, or_false]
  omega

/-- There is nothing to trim from digits. -/
lemma trimmingCharacters_of_digits {s : String} (h : ∀ c ∈ s.toList, isDigit c = true) :
    trimmingCharacters s = s :=
  trimmingCharacters_eq_self fun c hc => not_isWhitespaceOrNewline_of_isDigit (h c hc)

/-- An integer is printed as its digits, behind a sign if it is negative. -/
lemma toList_toString (n : ℤ) : ∃ ds : List Char, (∀ c ∈ ds, isDigit c = true) ∧
    ((toString n).toList = ds ∨ (toString n).toList = '-' :: ds) := by
  have hdigits : ∀ m : ℕ, ∀ c ∈ Nat.toDigits 10 m, isDigit c = true := fun m c hc => by
    rw [isDigit_eq_isDigit]
    exact Nat.isDigit_of_mem_toDigits (by norm_num) (by norm_num) hc
  cases n with
  | ofNat m => exact ⟨_, hdigits m, Or.inl Nat.toList_repr⟩
  | negSucc m =>
      refine ⟨_, hdigits (m + 1), Or.inr ?_⟩
      have hsign : toString (Int.negSucc m) = "-" ++ (m + 1).repr := rfl
      rw [hsign, String.toList_append, Nat.toList_repr]
      rfl

/-- An integer printed as an accepted zip code has five digits. -/
lemma length_of_isZipCodeValid_toString {n : ℤ}
    (h : isZipCodeValid (trimmingCharacters (toString n)) = true) :
    (trimmingCharacters (toString n)).toList.length = 5 := by
  obtain ⟨ds, hdigits, heq⟩ := toList_toString n
  have htrim : trimmingCharacters (toString n) = toString n := by
    refine trimmingCharacters_eq_self fun c hc => ?_
    rcases heq with heq | heq
    · exact not_isWhitespaceOrNewline_of_isDigit (hdigits c (heq ▸ hc))
    · rcases List.mem_cons.mp (heq ▸ hc) with rfl | hc'
      · decide
      · exact not_isWhitespaceOrNewline_of_isDigit (hdigits c hc')
  rw [htrim] at h ⊢
  have hhyphen : isDigit '-' = false := by decide
  rcases (isZipCodeValid_iff _).mp h with ⟨hlen, -⟩ | ⟨five, four, hfive, ⟨hlen, -⟩, hall⟩
  · exact hlen
  · -- a hyphen behind five digits is no sign
    exfalso
    rcases heq with heq | heq
    · have hmem : '-' ∈ ds := by
        rw [← heq, hfive]
        simp
      exact absurd (hdigits _ hmem) (by simp [hhyphen])
    · cases five with
      | nil => exact absurd hlen (by simp)
      | cons c five =>
          obtain rfl : '-' = c := (List.cons.inj (heq.symm.trans hfive)).1
          exact absurd (hall '-' (by simp)) (by simp [hhyphen])

/-- The integer of a zip code of five characters is printed as the text it came
from, and as an accepted one, exactly if the text does not start with a zero. -/
lemma toString_zipCode_iff {s : String} (h : isZipCodeValid s = true)
    (hlen : s.toList.length = 5) : ∃ n, int s = some n ∧
      (toString n = s ∧ isZipCodeValid (trimmingCharacters (toString n)) = true ↔
        s.toList.head? ≠ some '0') := by
  have hdigits := isDigit_of_isZipCodeValid h hlen
  refine ⟨digitsValue s.toList, int_of_digits hlen hdigits, ?_⟩
  have hprint : (toString (digitsValue s.toList : ℤ)).toList =
      Nat.toDigits 10 (digitsValue s.toList) := Nat.toList_repr
  obtain ⟨c, l, hcl⟩ := List.exists_cons_of_length_pos (l := s.toList) (by omega)
  rw [hcl] at hdigits hlen
  rw [hcl] at hprint ⊢
  constructor
  · rintro ⟨heq, -⟩ hzero
    obtain rfl : c = '0' := Option.some.inj hzero
    have hl : l.length = 4 := Nat.succ.inj hlen
    have hshort := length_toDigits_digitsValue (fun d hd => hdigits d (List.mem_cons_of_mem _ hd))
      (show 0 < l.length by omega)
    rw [← hprint, heq, hcl, List.length_cons] at hshort
    omega
  · intro hzero
    have hne : c ≠ '0' := fun heq => hzero (congrArg some heq)
    have heq : toString (digitsValue (c :: l) : ℤ) = s := by
      rw [← String.toList_inj, hprint, toDigits_digitsValue hdigits hne, hcl]
    refine ⟨heq, ?_⟩
    rw [heq, trimmingCharacters_of_digits (hcl ▸ hdigits)]
    exact h

end Tasker
