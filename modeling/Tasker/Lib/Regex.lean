import Mathlib.Tactic
import Mathlib.Computability.Language

/-!
Regular expressions over classes of characters, with lookaheads at the start.

* `Regex`, `lang`: the expressions and their languages.
* `deriv`, `accepts`: matching by derivatives; `accepts_iff`: it decides the
  language.
* `times`, `atLeast`, `upTo`: the repetitions; a class repeated stands for the
  words of its characters of that length (`mem_times_cls`, `mem_atLeast_cls`).
* `exists_prefix_iff`: what a lookahead for a character finds.
* `Pattern`: an expression for the whole text behind some lookaheads;
  `Pattern.accepts_iff`.
-/

open Computability

/-- Regular expressions over classes of characters. -/
inductive Regex (α : Type*) where
  | zero
  | one
  | cls (p : α → Bool)
  | alt (r s : Regex α)
  | cat (r s : Regex α)
  | star (r : Regex α)

namespace Regex

variable {α : Type*}

/-- The words a regular expression stands for. -/
def lang : Regex α → Language α
  | zero => 0
  | one => 1
  | cls p => {w | ∃ a, p a = true ∧ w = [a]}
  | alt r s => r.lang + s.lang
  | cat r s => r.lang * s.lang
  | star r => r.lang∗

/-! ### Matching by derivatives -/

/-- The empty word is in the language. -/
def nullable : Regex α → Bool
  | zero => false
  | one => true
  | cls _ => false
  | alt r s => r.nullable || s.nullable
  | cat r s => r.nullable && s.nullable
  | star _ => true

/-- What may follow the character `a`. -/
def deriv (a : α) : Regex α → Regex α
  | zero => zero
  | one => zero
  | cls p => if p a then one else zero
  | alt r s => alt (r.deriv a) (s.deriv a)
  | cat r s => if r.nullable then alt (cat (r.deriv a) s) (s.deriv a) else cat (r.deriv a) s
  | star r => cat (r.deriv a) (star r)

/-- The word is in the language. -/
def accepts (r : Regex α) (w : List α) : Bool := (w.foldl (fun r a => r.deriv a) r).nullable

lemma nullable_iff (r : Regex α) : r.nullable = true ↔ [] ∈ r.lang := by
  induction r with
  | zero => simp [nullable, lang]
  | one => simp [nullable, lang]
  | cls p =>
      refine iff_of_false (by simp [nullable]) ?_
      rintro ⟨a, -, h⟩
      exact absurd h (by simp)
  | alt r s ihr ihs => rw [nullable, Bool.or_eq_true, ihr, ihs, lang, Language.mem_add]
  | cat r s ihr ihs =>
      rw [nullable, Bool.and_eq_true, ihr, ihs, lang, Language.mem_mul]
      constructor
      · exact fun h => ⟨[], h.1, [], h.2, rfl⟩
      · rintro ⟨u, hu, v, hv, huv⟩
        obtain ⟨rfl, rfl⟩ := List.append_eq_nil_iff.mp huv
        exact ⟨hu, hv⟩
  | star r => exact iff_of_true rfl (Language.nil_mem_kstar _)

/-- The first character of a product comes from the first factor, or from the
second behind the empty word. -/
lemma cons_mem_mul {l m : Language α} {a : α} {w : List α} :
    a :: w ∈ l * m ↔
      (∃ u v, a :: u ∈ l ∧ v ∈ m ∧ u ++ v = w) ∨ ([] ∈ l ∧ a :: w ∈ m) := by
  rw [Language.mem_mul]
  constructor
  · rintro ⟨u, hu, v, hv, huv⟩
    cases u with
    | nil => exact Or.inr ⟨hu, huv ▸ hv⟩
    | cons b u =>
        obtain ⟨rfl, rfl⟩ := List.cons.inj huv
        exact Or.inl ⟨u, v, hu, hv, rfl⟩
  · rintro (⟨u, v, hu, hv, rfl⟩ | ⟨hnil, hw⟩)
    · exact ⟨a :: u, hu, v, hv, rfl⟩
    · exact ⟨[], hnil, a :: w, hw, rfl⟩

/-- The first character of a star comes from its first nonempty factor. -/
lemma cons_mem_kstar {l : Language α} {a : α} {w : List α} :
    a :: w ∈ l∗ ↔ ∃ u v, a :: u ∈ l ∧ v ∈ l∗ ∧ u ++ v = w := by
  constructor
  · intro h
    obtain ⟨ws, heq, hws⟩ := Language.mem_kstar_iff_exists_nonempty.mp h
    cases ws with
    | nil => exact absurd heq (by simp)
    | cons x ws =>
        obtain ⟨hx, hne⟩ := hws x List.mem_cons_self
        cases x with
        | nil => exact absurd rfl hne
        | cons b u =>
            obtain ⟨rfl, rfl⟩ := List.cons.inj heq
            exact ⟨u, ws.flatten, hx,
              Language.join_mem_kstar fun y hy => (hws y (List.mem_cons_of_mem _ hy)).1, rfl⟩
  · rintro ⟨u, v, hu, hv, rfl⟩
    rw [← Language.one_add_self_mul_kstar_eq_kstar]
    exact Or.inr (Language.append_mem_mul hu hv)

/-- The derivative stands for the words that follow the character. -/
lemma mem_deriv (r : Regex α) (a : α) (w : List α) : w ∈ (r.deriv a).lang ↔ a :: w ∈ r.lang := by
  induction r generalizing w with
  | zero => exact Iff.rfl
  | one => exact iff_of_false (Language.notMem_zero w) (by simp [lang])
  | cls p =>
      by_cases hp : p a = true
      · rw [deriv, if_pos hp, lang, Language.mem_one]
        constructor
        · rintro rfl
          exact ⟨a, hp, rfl⟩
        · rintro ⟨b, -, h⟩
          exact (List.cons.inj h).2
      · rw [deriv, if_neg hp]
        refine iff_of_false (Language.notMem_zero w) ?_
        rintro ⟨b, hb, h⟩
        exact hp ((List.cons.inj h).1 ▸ hb)
  | alt r s ihr ihs => rw [deriv, lang, lang, Language.mem_add, Language.mem_add, ihr, ihs]
  | cat r s ihr ihs =>
      have hcat : w ∈ (cat (r.deriv a) s).lang ↔
          ∃ u v, a :: u ∈ r.lang ∧ v ∈ s.lang ∧ u ++ v = w := by
        rw [lang, Language.mem_mul]
        constructor
        · rintro ⟨u, hu, v, hv, h⟩
          exact ⟨u, v, (ihr u).mp hu, hv, h⟩
        · rintro ⟨u, v, hu, hv, h⟩
          exact ⟨u, (ihr u).mpr hu, v, hv, h⟩
      rw [deriv, lang, cons_mem_mul, ← nullable_iff]
      split
      · next hnull => rw [lang, Language.mem_add, hcat, ihs, and_iff_right hnull]
      · next hnull => rw [hcat, or_iff_left fun h => hnull h.1]
  | star r ih =>
      rw [deriv, lang, lang, Language.mem_mul, cons_mem_kstar]
      constructor
      · rintro ⟨u, hu, v, hv, h⟩
        exact ⟨u, v, (ih u).mp hu, hv, h⟩
      · rintro ⟨u, v, hu, hv, h⟩
        exact ⟨u, (ih u).mpr hu, v, hv, h⟩

/-- **Matching by derivatives** decides the language. -/
theorem accepts_iff (r : Regex α) (w : List α) : r.accepts w = true ↔ w ∈ r.lang := by
  induction w generalizing r with
  | nil => exact nullable_iff r
  | cons a w ih => rw [← mem_deriv, ← ih]; rfl

/-! ### Repetitions -/

/-- `r{n}`. -/
def times (r : Regex α) : ℕ → Regex α
  | 0 => one
  | n + 1 => cat r (r.times n)

/-- `r{n,}`. -/
def atLeast (r : Regex α) (n : ℕ) : Regex α := cat (r.times n) (star r)

/-- `r?`. -/
def opt (r : Regex α) : Regex α := alt r one

/-- `r{m,n}` with `n = m + k`. -/
def upTo (r : Regex α) (m k : ℕ) : Regex α := cat (r.times m) (r.opt.times k)

/-- A class repeated stands for the words of its characters of that length. -/
lemma mem_times_cls (p : α → Bool) (n : ℕ) (w : List α) :
    w ∈ ((cls p).times n).lang ↔ w.length = n ∧ ∀ a ∈ w, p a = true := by
  induction n generalizing w with
  | zero =>
      rw [times, lang, Language.mem_one, List.length_eq_zero_iff]
      exact (and_iff_left_of_imp fun h => by simp [h]).symm
  | succ n ih =>
      cases w with
      | nil =>
          refine iff_of_false ?_ (by simp)
          rintro ⟨u, ⟨a, -, rfl⟩, v, -, h⟩
          exact absurd h (by simp)
      | cons a w =>
          have hcons : a :: w ∈ ((cls p).times (n + 1)).lang ↔
              p a = true ∧ w ∈ ((cls p).times n).lang := by
            constructor
            · rintro ⟨u, ⟨b, hb, rfl⟩, v, hv, h⟩
              obtain ⟨rfl, rfl⟩ := List.cons.inj h
              exact ⟨hb, hv⟩
            · exact fun h => ⟨[a], ⟨a, h.1, rfl⟩, w, h.2, rfl⟩
          rw [hcons, ih, List.length_cons, Nat.add_right_cancel_iff, List.forall_mem_cons]
          tauto

/-- A class repeated at will stands for the words of its characters. -/
lemma mem_star_cls (p : α → Bool) (w : List α) :
    w ∈ (star (cls p)).lang ↔ ∀ a ∈ w, p a = true := by
  induction w with
  | nil => exact iff_of_true (Language.nil_mem_kstar _) (by simp)
  | cons a w ih =>
      rw [lang, cons_mem_kstar, List.forall_mem_cons, ← ih]
      constructor
      · rintro ⟨u, v, ⟨b, hb, heq⟩, hv, rfl⟩
        obtain ⟨rfl, rfl⟩ := List.cons.inj heq
        exact ⟨hb, hv⟩
      · exact fun h => ⟨[], w, ⟨a, h.1, rfl⟩, h.2, rfl⟩

/-- And at least so often, for those of at least that length. -/
lemma mem_atLeast_cls (p : α → Bool) (n : ℕ) (w : List α) :
    w ∈ ((cls p).atLeast n).lang ↔ n ≤ w.length ∧ ∀ a ∈ w, p a = true := by
  constructor
  · rintro ⟨u, hu, v, hv, rfl⟩
    obtain ⟨hlen, hu⟩ := (mem_times_cls p n u).mp hu
    have hv := (mem_star_cls p v).mp hv
    exact ⟨by simp [hlen], fun a ha => (List.mem_append.mp ha).elim (hu a) (hv a)⟩
  · rintro ⟨hlen, hw⟩
    refine ⟨w.take n, (mem_times_cls p n _).mpr ⟨by simp [hlen], ?_⟩, w.drop n,
      (mem_star_cls p _).mpr ?_, List.take_append_drop n w⟩
    · exact fun a ha => hw a (List.mem_of_mem_take ha)
    · exact fun a ha => hw a (List.mem_of_mem_drop ha)

/-! ### Lookaheads -/

/-- A lookahead for a character behind others finds it anywhere in a text of such
characters. -/
lemma exists_prefix_iff {p q : α → Bool} {w : List α} (hw : ∀ a ∈ w, p a = true) :
    (∃ u, u <+: w ∧ u ∈ (cat (star (cls p)) (cls q)).lang) ↔ ∃ a ∈ w, q a = true := by
  constructor
  · rintro ⟨u, hprefix, v, -, x, ⟨a, ha, rfl⟩, rfl⟩
    exact ⟨a, hprefix.subset (by simp), ha⟩
  · rintro ⟨a, ha, hq⟩
    obtain ⟨s, t, rfl⟩ := List.append_of_mem ha
    refine ⟨s ++ [a], ⟨t, by simp⟩, s, (mem_star_cls p s).mpr ?_, [a], ⟨a, hq, rfl⟩, rfl⟩
    exact fun b hb => hw b (List.mem_append_left _ hb)

/-- A regular expression for the whole text behind lookaheads at its start. -/
structure Pattern (α : Type*) where
  lookaheads : List (Regex α) := []
  body : Regex α

/-- Every lookahead matches some prefix, and the body the whole text. -/
def Pattern.accepts (p : Pattern α) (w : List α) : Bool :=
  (p.lookaheads.all fun r => w.inits.any r.accepts) && p.body.accepts w

/-- A pattern in terms of the languages. -/
theorem Pattern.accepts_iff (p : Pattern α) (w : List α) :
    p.accepts w = true ↔
      (∀ r ∈ p.lookaheads, ∃ u, u <+: w ∧ u ∈ r.lang) ∧ w ∈ p.body.lang := by
  rw [Pattern.accepts, Bool.and_eq_true, List.all_eq_true, Regex.accepts_iff]
  refine and_congr_left fun _ => forall₂_congr fun r _ => ?_
  rw [List.any_eq_true]
  exact exists_congr fun u => and_congr (List.mem_inits u w) (Regex.accepts_iff r u)

end Regex
