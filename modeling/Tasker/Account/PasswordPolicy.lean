import Tasker.Utilities

/-!
The passwords that are accepted, and those the message about a refused one asks
for: "Password must be 8 characters long\nwith numbers and a special character."

* `isPasswordValid_iff`: the texts the pattern accepts. Its two lookaheads ask for
  a lower-case letter and a special character, none for a digit.
* `meetsPolicy_iff`: an accepted text is what the message asks for, unless it
  is made of letters and special characters alone.
-/

namespace Tasker

open Regex

/-- `[A-Za-z$@$#!%*?&]`. -/
def isLetterOrSpecial (c : Char) : Bool :=
  charClass [('A', 'Z'), ('a', 'z')] specialCharacters c

/-- `[a-z]`. -/
def isLowercase (c : Char) : Bool := charClass [('a', 'z')] [] c

/-- `[$@$#!%*?&]`. -/
def isSpecial (c : Char) : Bool := charClass [] specialCharacters c

/-- What the message asks for. -/
structure MeetsPolicy (password : String) : Prop where
  length : 8 ≤ password.toList.length
  number : ∃ c ∈ password.toList, isDecimalDigit c = true
  special : ∃ c ∈ password.toList, isSpecial c = true

/-- No character of a password ends a line. -/
lemma notNewline_of_password {c : Char} (h : (isLetterOrSpecial c || isDecimalDigit c) = true) :
    notNewline c = true := by
  have hnone : ∀ n ∈ [10, 11, 12, 13, 0x85, 0x2028, 0x2029],
      (isLetterOrSpecial (Char.ofNat n) || isDecimalDigit (Char.ofNat n)) = false := by decide
  by_contra hnewline
  have hcode : c.toNat ∈ [10, 11, 12, 13, 0x85, 0x2028, 0x2029] := by
    simp only [notNewline, Bool.not_eq_true', Bool.not_eq_false, Bool.or_eq_true, Bool.and_eq_true,
      decide_eq_true_eq, List.contains_iff_mem, List.mem_cons, List.not_mem_nil, or_false]
      at hnewline ⊢
    omega
  have hc := hnone c.toNat hcode
  rw [Char.ofNat_toNat, h] at hc
  exact absurd hc (by simp)

/-- A letter or a special character is no digit. -/
lemma not_isDecimalDigit_of_isLetterOrSpecial {c : Char} (h : isLetterOrSpecial c = true) :
    isDecimalDigit c = false := by
  have hzeros : ∀ z ∈ decimalZeros, z = 48 ∨ 0x660 ≤ z := by decide
  refine Bool.eq_false_of_not_eq_true fun hdigit => ?_
  obtain ⟨z, hz, hrange⟩ := List.any_eq_true.mp hdigit
  have hrange : z ≤ c.toNat ∧ c.toNat ≤ z + 9 := by simpa using hrange
  have hcode : c.toNat ≤ 122 ∧ (c.toNat < 48 ∨ 57 < c.toNat) := by
    simp only [isLetterOrSpecial, charClass, specialCharacters, List.any_cons, List.any_nil,
      Bool.or_false, Bool.or_eq_true, Bool.and_eq_true, decide_eq_true_eq, List.contains_iff_mem]
      at h
    rcases h with (⟨hge, hle⟩ | ⟨hge, hle⟩) | hmem
    · have hge : 65 ≤ c.toNat := hge
      have hle : c.toNat ≤ 90 := hle
      omega
    · have hge : 97 ≤ c.toNat := hge
      have hle : c.toNat ≤ 122 := hle
      omega
    · have hall : specialCharacters.all fun d =>
          decide (d.toNat ≤ 122 ∧ (d.toNat < 48 ∨ 57 < d.toNat)) := by decide
      exact of_decide_eq_true (List.all_eq_true.mp hall c hmem)
  have := hzeros z hz
  omega

/-- **The accepted passwords.** -/
lemma isPasswordValid_iff (password : String) :
    isPasswordValid password = true ↔ 8 ≤ password.toList.length ∧
      (∀ c ∈ password.toList, (isLetterOrSpecial c || isDecimalDigit c) = true) ∧
      (∃ c ∈ password.toList, isLowercase c = true) ∧
      ∃ c ∈ password.toList, isSpecial c = true := by
  have hbody : password.toList ∈ passwordRegex.body.lang ↔ 8 ≤ password.toList.length ∧
      ∀ c ∈ password.toList, (isLetterOrSpecial c || isDecimalDigit c) = true :=
    mem_atLeast_cls _ 8 password.toList
  rw [isPasswordValid, Pattern.accepts_iff, hbody, and_comm, and_assoc]
  refine and_congr_right fun _ => and_congr_right fun hchars => ?_
  have hline : ∀ c ∈ password.toList, notNewline c = true :=
    fun c hc => notNewline_of_password (hchars c hc)
  simp only [passwordRegex, List.forall_mem_cons, List.not_mem_nil, IsEmpty.forall_iff,
    implies_true, and_true]
  exact and_congr (exists_prefix_iff hline) (exists_prefix_iff hline)

/-- **The policy**: a text that is accepted is what the message asks for, if and
only if it is not a text of at least eight letters and special characters, some
lower-case and some special. -/
theorem meetsPolicy_iff (password : String) :
    (isPasswordValid password = true → MeetsPolicy password) ↔
      ¬ (8 ≤ password.toList.length ∧ (∀ c ∈ password.toList, isLetterOrSpecial c = true) ∧
        (∃ c ∈ password.toList, isLowercase c = true) ∧
        ∃ c ∈ password.toList, isSpecial c = true) := by
  rw [isPasswordValid_iff]
  constructor
  · rintro h ⟨hlen, hchars, hlower, hspecial⟩
    have hpolicy := h ⟨hlen, fun c hc => by rw [hchars c hc, Bool.true_or], hlower, hspecial⟩
    obtain ⟨c, hc, hdigit⟩ := hpolicy.number
    rw [not_isDecimalDigit_of_isLetterOrSpecial (hchars c hc)] at hdigit
    exact absurd hdigit (by simp)
  · rintro h ⟨hlen, hchars, hlower, hspecial⟩
    refine ⟨hlen, ?_, hspecial⟩
    by_contra hdigit
    refine h ⟨hlen, fun c hc => ?_, hlower, hspecial⟩
    exact (Bool.or_eq_true _ _ ▸ hchars c hc).resolve_right fun hd => hdigit ⟨c, hc, hd⟩

/-- A password without a number. -/
theorem password_accepted :
    isPasswordValid "password!" = true ∧ ¬ MeetsPolicy "password!" := by
  refine ⟨by decide +kernel, fun h => ?_⟩
  have hnone : "password!".toList.any isDecimalDigit = false := by decide +kernel
  rw [List.any_eq_true.mpr h.number] at hnone
  exact absurd hnone (by simp)

end Tasker
