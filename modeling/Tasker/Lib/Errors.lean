import Mathlib.Tactic

/-!
Computations that may fail, taken apart.

* `bind_eq_ok_iff`, `map_eq_ok_iff`, `map_of_map`: what succeeds succeeded step by step.
* `mapM_eq_ok_iff`, `mapM_ofFn_eq_ok_iff`: a list of computations succeeds if each of
  them does (`exists_mapM`), with one result for each (`exists_of_mem_mapM`,
  `exists_mem_of_mapM`, `pairwise_of_mapM`).
-/

namespace Except

variable {ε α β : Type*}

lemma bind_eq_ok_iff {x : Except ε α} {f : α → Except ε β} {b : β} :
    x.bind f = .ok b ↔ ∃ a, x = .ok a ∧ f a = .ok b := by
  cases x with
  | error e => simp [Except.bind]
  | ok a => simp [Except.bind]

lemma map_eq_ok_iff {x : Except ε α} {f : α → β} {b : β} :
    x.map f = .ok b ↔ ∃ a, x = .ok a ∧ f a = b := by
  cases x with
  | error e => simp [Except.map]
  | ok a => simp [Except.map]

/-- What follows on a result follows on the computation. -/
lemma map_of_map {γ : Type*} {x : Except ε α} {f : α → β} {b : β} (h : x.map f = .ok b)
    (g : β → γ) : x.map (fun a => g (f a)) = .ok (g b) := by
  obtain ⟨a, ha, rfl⟩ := map_eq_ok_iff.mp h
  exact map_eq_ok_iff.mpr ⟨a, ha, rfl⟩

/-- **A list of computations succeeds if each does.** -/
theorem mapM_eq_ok_iff {f : α → Except ε β} {l : List α} {bs : List β} :
    l.mapM f = .ok bs ↔ List.Forall₂ (fun a b => f a = .ok b) l bs := by
  induction l generalizing bs with
  | nil => cases bs <;> simp [pure, Except.pure]
  | cons a l ih =>
      rw [List.mapM_cons]
      change (f a).bind (fun b => (l.mapM f).bind fun bs => .ok (b :: bs)) = .ok bs ↔ _
      simp only [bind_eq_ok_iff, ih, List.forall₂_cons_left_iff, Except.ok.injEq]
      constructor
      · rintro ⟨b, hb, bs', hbs', rfl⟩
        exact ⟨b, bs', hb, hbs', rfl⟩
      · rintro ⟨b, bs', hb, hbs', rfl⟩
        exact ⟨b, hb, bs', hbs', rfl⟩

section mapM

variable {f : α → Except ε β} {l : List α} {bs : List β}

lemma exists_of_mem_mapM (h : l.mapM f = .ok bs) {b : β} (hb : b ∈ bs) : ∃ a ∈ l, f a = .ok b := by
  rw [mapM_eq_ok_iff] at h
  induction h with
  | nil => exact absurd hb List.not_mem_nil
  | cons hab _ ih =>
      rcases List.mem_cons.mp hb with rfl | hmem
      · exact ⟨_, List.mem_cons_self, hab⟩
      · obtain ⟨a, ha, hf⟩ := ih hmem
        exact ⟨a, List.mem_cons_of_mem _ ha, hf⟩

lemma exists_mem_of_mapM (h : l.mapM f = .ok bs) {a : α} (ha : a ∈ l) : ∃ b ∈ bs, f a = .ok b := by
  rw [mapM_eq_ok_iff] at h
  induction h with
  | nil => exact absurd ha List.not_mem_nil
  | cons hab _ ih =>
      rcases List.mem_cons.mp ha with rfl | hmem
      · exact ⟨_, List.mem_cons_self, hab⟩
      · obtain ⟨b, hb, hf⟩ := ih hmem
        exact ⟨b, List.mem_cons_of_mem _ hb, hf⟩

/-- What succeeds for each succeeds. -/
lemma exists_mapM (h : ∀ a ∈ l, ∃ b, f a = .ok b) : ∃ bs, l.mapM f = .ok bs := by
  induction l with
  | nil => exact ⟨[], rfl⟩
  | cons a l ih =>
      obtain ⟨b, hb⟩ := h a List.mem_cons_self
      obtain ⟨bs, hbs⟩ := ih fun a' ha' => h a' (List.mem_cons_of_mem a ha')
      exact ⟨b :: bs, mapM_eq_ok_iff.mpr (List.Forall₂.cons hb (mapM_eq_ok_iff.mp hbs))⟩

lemma pairwise_of_mapM (h : l.mapM f = .ok bs) {R : α → α → Prop} {S : β → β → Prop}
    (hl : l.Pairwise R)
    (hRS : ∀ a a' b b', R a a' → f a = .ok b → f a' = .ok b' → S b b') : bs.Pairwise S := by
  induction l generalizing bs with
  | nil =>
      obtain rfl := Except.ok.inj h
      exact List.Pairwise.nil
  | cons a l ih =>
      rw [mapM_eq_ok_iff, List.forall₂_cons_left_iff] at h
      obtain ⟨b, bs, hab, hbs, rfl⟩ := h
      rw [List.pairwise_cons] at hl
      have hrest := mapM_eq_ok_iff.mpr hbs
      refine List.pairwise_cons.mpr ⟨fun b' hb' => ?_, ih hrest hl.2⟩
      obtain ⟨a', ha', hf⟩ := exists_of_mem_mapM hrest hb'
      exact hRS a a' b b' (hl.1 a' ha') hab hf

end mapM

lemma mapM_ofFn_eq_ok_iff {n : ℕ} {a : Fin n → α} {f : α → Except ε β} {bs : List β} :
    (List.ofFn a).mapM f = .ok bs ↔
      ∃ b : Fin n → β, bs = List.ofFn b ∧ ∀ i, f (a i) = .ok (b i) := by
  rw [mapM_eq_ok_iff, List.forall₂_iff_get]
  constructor
  · rintro ⟨hlength, hget⟩
    rw [List.length_ofFn] at hlength
    subst hlength
    refine ⟨bs.get, (List.ofFn_get bs).symm, fun i => ?_⟩
    have hi := hget i (by simp) i.isLt
    simpa using hi
  · rintro ⟨b, rfl, hb⟩
    refine ⟨by simp, fun i h₁ h₂ => ?_⟩
    simpa using hb ⟨i, by simpa using h₁⟩

end Except
