import Tasker.Lib.EventSystem

/-!
A shared counter incremented by sessions that read it, compute on what they
read, and write the result back.

A system of events counts in this way (`Counter`) if every event reads the
counter for a session, writes the successor of the value the session holds, or
leaves counter and sessions alone. A session reads once and writes once.

* `Counter.writes`: how many writes a run has; `writes_eq_card`: as many as
  there are sessions, once every session has written.
* `Counter.Undisturbed`: between the read of a session and its write no other
  write happens.
* `Counter.count_eq_iff`: **lost updates**: a run raises the counter by the
  number of its writes if and only if it is undisturbed. By induction on the
  run: a write continues from the value of the run before its read
  (`holds_split`), so it falls short by the writes in between.
-/

namespace ReadModifyWrite

open EventSystem

/-- What an event does to the counter. -/
inductive Access (I : Type*) where
  | read (i : I)
  | write (i : I)
  | other

/-- Whether an access is a write. -/
def Access.isWrite {I : Type*} : Access I → Bool
  | .write _ => true
  | _ => false

/-- Where a session is: it has not read, it holds the value it read, it has
written. -/
inductive Phase where
  | idle
  | holds (n : ℤ)
  | done
  deriving DecidableEq

/-- A system whose sessions `I` count in a shared cell by reading it, adding
one and writing back. The laws hold under an invariant `Inv` of the system. -/
structure Counter {σ ε : Type*} (step : σ → ε → Option σ) (I : Type*) [DecidableEq I] where
  access : ε → Access I
  count : σ → ℤ
  phase : σ → I → Phase
  Inv : σ → Prop
  inv_step : ∀ s e s', Inv s → step s e = some s' → Inv s'
  other : ∀ s e s', Inv s → step s e = some s' → access e = .other →
    count s' = count s ∧ phase s' = phase s
  read : ∀ s e s' i, Inv s → step s e = some s' → access e = .read i →
    phase s i = .idle ∧ count s' = count s ∧
      phase s' = Function.update (phase s) i (.holds (count s))
  write : ∀ s e s' i, Inv s → step s e = some s' → access e = .write i →
    ∃ n, phase s i = .holds n ∧ count s' = n + 1 ∧
      phase s' = Function.update (phase s) i .done

namespace Counter

variable {σ ε I : Type*} [DecidableEq I] {step : σ → ε → Option σ} (C : Counter step I)

/-- The number of writes of a run. -/
def writes (es : List ε) : ℕ := es.countP fun e => (C.access e).isWrite

/-- Between the read of a session and its write no other write happens. -/
def Undisturbed (es : List ε) : Prop :=
  ∀ pre mid post e e' i, es = pre ++ e :: (mid ++ e' :: post) → C.access e = .read i →
    C.access e' = .write i → ∀ x ∈ mid, (C.access x).isWrite = false

variable {C}

lemma writes_append (es fs : List ε) : C.writes (es ++ fs) = C.writes es + C.writes fs :=
  List.countP_append

lemma writes_cons (e : ε) (es : List ε) :
    C.writes (e :: es) = C.writes es + if (C.access e).isWrite then 1 else 0 :=
  List.countP_cons

lemma writes_concat_ne_write {es : List ε} {e : ε} (he : ∀ i, C.access e ≠ .write i) :
    C.writes (es ++ [e]) = C.writes es := by
  have hne : (C.access e).isWrite = false := by
    cases hacc : C.access e with
    | write i => exact absurd hacc (he i)
    | read i => rfl
    | other => rfl
  rw [writes_append, writes_cons, hne]
  simp [writes]

lemma writes_concat_write {es : List ε} {e : ε} {i : I} (he : C.access e = .write i) :
    C.writes (es ++ [e]) = C.writes es + 1 := by
  rw [writes_append, writes_cons, he]
  simp [writes, Access.isWrite]

/-- A step that is no write leaves the counter alone. -/
lemma count_of_ne_write {s t : σ} {e : ε} (hs : C.Inv s) (h : step s e = some t)
    (he : ∀ i, C.access e ≠ .write i) : C.count t = C.count s := by
  cases hacc : C.access e with
  | read i => exact (C.read s e t i hs h hacc).2.1
  | write i => exact absurd hacc (he i)
  | other => exact (C.other s e t hs h hacc).1

/-- The invariant along a run. -/
lemma inv_exec {s t : σ} {es : List ε} (hs : C.Inv s) (h : exec step s es = some t) : C.Inv t :=
  exec_invariant C.inv_step hs h

/-- A run without writes leaves the counter alone. -/
lemma count_of_writes_eq_zero {s t : σ} {es : List ε} (hs : C.Inv s)
    (h : exec step s es = some t) (hw : C.writes es = 0) : C.count t = C.count s := by
  induction es generalizing s with
  | nil => rw [Option.some.inj h]
  | cons e es ih =>
      obtain ⟨u, hu, h'⟩ := exec_cons_eq_some.mp h
      rw [writes_cons] at hw
      have hrest := ih (C.inv_step s e u hs hu) h' (by omega)
      rw [hrest]
      refine count_of_ne_write hs hu fun i hi => ?_
      simp [hi, Access.isWrite] at hw

/-! ### The read behind a write -/

/-- A session that has left its first phase never returns to it. -/
lemma phase_ne_idle_of_exec {s t : σ} {es : List ε} {i : I} (hs : C.Inv s)
    (h : exec step s es = some t) (hi : C.phase s i ≠ .idle) : C.phase t i ≠ .idle := by
  induction es generalizing s with
  | nil => exact Option.some.inj h ▸ hi
  | cons e es ih =>
      obtain ⟨u, hu, h'⟩ := exec_cons_eq_some.mp h
      refine ih (C.inv_step s e u hs hu) h' ?_
      cases he : C.access e with
      | read j =>
          rw [(C.read s e u j hs hu he).2.2, Function.update_apply]
          split
          · exact Phase.noConfusion
          · exact hi
      | write j =>
          obtain ⟨n, -, -, hphase⟩ := C.write s e u j hs hu he
          rw [hphase, Function.update_apply]
          split
          · exact Phase.noConfusion
          · exact hi
      | other => rw [(C.other s e u hs hu he).2]; exact hi

/-- A session that has read is not idle any more. -/
lemma phase_ne_idle_of_read {s t : σ} {es : List ε} {e : ε} {i : I} (hs : C.Inv s)
    (h : exec step s es = some t) (he : e ∈ es) (hr : C.access e = .read i) :
    C.phase t i ≠ .idle := by
  obtain ⟨pre, post, rfl⟩ := List.append_of_mem he
  obtain ⟨u, hu, h'⟩ := exec_append_eq_some.mp h
  obtain ⟨v, hv, h''⟩ := exec_cons_eq_some.mp h'
  have hu' := inv_exec hs hu
  refine phase_ne_idle_of_exec (C.inv_step u e v hu' hv) h'' ?_
  rw [(C.read u e v i hu' hv hr).2.2, Function.update_self]
  exact Phase.noConfusion

/-- A value held was read: the run splits at the only read of the session, and
the value is the counter's before that read. -/
lemma holds_split {s t : σ} {es : List ε} {i : I} {n : ℤ} (hs : C.Inv s)
    (hidle : C.phase s i = .idle) (h : exec step s es = some t) (hn : C.phase t i = .holds n) :
    ∃ pre e mid u, es = pre ++ e :: mid ∧ C.access e = .read i ∧ exec step s pre = some u ∧
      C.count u = n ∧ (∀ x ∈ pre, C.access x ≠ .read i) ∧ ∀ x ∈ mid, C.access x ≠ .read i := by
  induction es using List.reverseRecOn generalizing t with
  | nil =>
      obtain rfl := Option.some.inj h
      rw [hidle] at hn
      exact absurd hn Phase.noConfusion
  | append_singleton es e ih =>
      obtain ⟨u, hu, he⟩ := exec_concat_eq_some.mp h
      have hinv := inv_exec hs hu
      -- the last event is the read itself, or it leaves the phase of `i` alone
      have hcase : (C.access e = .read i ∧ C.count u = n ∧ C.phase u i = .idle) ∨
          (C.access e ≠ .read i ∧ C.phase u i = .holds n) := by
        cases hacc : C.access e with
        | read j =>
            obtain ⟨hj, -, hphase⟩ := C.read u e t j hinv he hacc
            rw [hphase, Function.update_apply] at hn
            by_cases hij : i = j
            · subst hij
              rw [if_pos rfl] at hn
              exact Or.inl ⟨rfl, Phase.holds.inj hn, hj⟩
            · rw [if_neg hij] at hn
              exact Or.inr ⟨fun h => hij (Access.read.inj h).symm, hn⟩
        | write j =>
            obtain ⟨m, -, -, hphase⟩ := C.write u e t j hinv he hacc
            rw [hphase, Function.update_apply] at hn
            split at hn
            · exact absurd hn Phase.noConfusion
            · exact Or.inr ⟨by simp, hn⟩
        | other =>
            rw [(C.other u e t hinv he hacc).2] at hn
            exact Or.inr ⟨by simp, hn⟩
      rcases hcase with ⟨hacc, hcount, hphase⟩ | ⟨hacc, hphase⟩
      · refine ⟨es, e, [], u, by simp, hacc, hu, hcount, fun x hx hr => ?_, by simp⟩
        exact phase_ne_idle_of_read hs hu hx hr hphase
      · obtain ⟨pre, e₀, mid, v, rfl, hr, hv, hcount, hpre, hmid⟩ := ih hu hphase
        refine ⟨pre, e₀, mid ++ [e], v, by simp, hr, hv, hcount, hpre, fun x hx => ?_⟩
        rcases List.mem_append.mp hx with hx | hx
        · exact hmid x hx
        · rw [List.mem_singleton.mp hx]
          exact hacc

/-! ### Undisturbed runs -/

lemma undisturbed_nil : C.Undisturbed [] := by
  intro pre mid post e e' i h
  exact absurd h (by simp)

/-- Splitting a list with one more element at two places: the second place is
the last, or both lie before it. -/
lemma concat_split {es pre mid post : List ε} {e a b : ε}
    (h : es ++ [e] = pre ++ a :: (mid ++ b :: post)) :
    (b = e ∧ es = pre ++ a :: mid) ∨ ∃ post', es = pre ++ a :: (mid ++ b :: post') := by
  rcases List.eq_nil_or_concat' post with rfl | ⟨post', c, rfl⟩
  · have hlast : es ++ [e] = (pre ++ a :: mid) ++ [b] := by simpa using h
    obtain ⟨hes, hb⟩ := List.append_inj' hlast rfl
    exact Or.inl ⟨(List.singleton_inj.mp hb).symm, hes⟩
  · have hlast : es ++ [e] = (pre ++ a :: (mid ++ b :: post')) ++ [c] := by simpa using h
    exact Or.inr ⟨post', (List.append_inj' hlast rfl).1⟩

/-- A run is undisturbed before its last event. -/
lemma Undisturbed.of_concat {es : List ε} {e : ε} (h : C.Undisturbed (es ++ [e])) :
    C.Undisturbed es := by
  intro pre mid post a b i heq ha hb
  exact h pre mid (post ++ [e]) a b i (by simp [heq]) ha hb

/-- An event that is no write disturbs nothing. -/
lemma Undisturbed.concat {es : List ε} {e : ε} (h : C.Undisturbed es)
    (he : ∀ i, C.access e ≠ .write i) : C.Undisturbed (es ++ [e]) := by
  intro pre mid post a b i heq ha hb
  rcases concat_split heq with ⟨rfl, -⟩ | ⟨post', hes⟩
  · exact absurd hb (he i)
  · exact h pre mid post' a b i hes ha hb

/-- A write keeps a run undisturbed exactly when nothing was written since its
read. -/
lemma undisturbed_concat_write {pre mid : List ε} {e e' : ε} {i : I}
    (he : C.access e = .read i) (he' : C.access e' = .write i)
    (hpre : ∀ x ∈ pre, C.access x ≠ .read i) (hmid : ∀ x ∈ mid, C.access x ≠ .read i) :
    C.Undisturbed (pre ++ e :: mid ++ [e']) ↔
      C.Undisturbed (pre ++ e :: mid) ∧ C.writes mid = 0 := by
  constructor
  · intro h
    refine ⟨h.of_concat, List.countP_eq_zero.mpr fun x hx => ?_⟩
    rw [h pre mid [] e e' i (by simp) he he' x hx]
    exact Bool.false_ne_true
  · rintro ⟨h, hw⟩ pre' mid' post a b j heq ha hb
    rcases concat_split heq with ⟨rfl, hsplit⟩ | ⟨post', hes⟩
    · obtain rfl : i = j := Access.write.inj (he'.symm.trans hb)
      -- the read of `i` is unique, so the two splittings agree
      have hmm : mid' = mid := by
        rcases List.append_eq_append_iff.mp hsplit with ⟨as, rfl, has⟩ | ⟨bs, rfl, hbs⟩
        · cases as with
          | nil => exact ((List.cons.inj has).2).symm
          | cons x as =>
              have hain : a ∈ mid := by rw [(List.cons.inj has).2]; simp
              exact absurd ha (hmid a hain)
        · cases bs with
          | nil => exact (List.cons.inj hbs).2
          | cons x bs =>
              obtain ⟨rfl, -⟩ := List.cons.inj hbs
              exact absurd ha (hpre a (by simp))
      subst hmm
      intro x hx
      have := List.countP_eq_zero.mp hw x hx
      simpa using this
    · exact h pre' mid' post' a b j hes ha hb

/-! ### Lost updates -/

/-- The bound and the criterion together: the induction needs both, since a
write continues from a value read in a shorter run. -/
lemma count_le_and_eq_iff {s : σ} (hs : C.Inv s) (hidle : ∀ i, C.phase s i = .idle) :
    ∀ (m : ℕ) (es : List ε), es.length = m → ∀ t, exec step s es = some t →
      C.count t ≤ C.count s + C.writes es ∧
        (C.count t = C.count s + C.writes es ↔ C.Undisturbed es) := by
  intro m
  induction m using Nat.strong_induction_on with
  | _ m ih =>
    intro es hm t h
    rcases List.eq_nil_or_concat' es with rfl | ⟨fs, e, rfl⟩
    · obtain rfl := Option.some.inj h
      exact ⟨by simp [writes], iff_of_true (by simp [writes]) undisturbed_nil⟩
    · rw [List.length_append, List.length_singleton] at hm
      obtain ⟨u, hu, he⟩ := exec_concat_eq_some.mp h
      have hinv := inv_exec hs hu
      obtain ⟨hle, hiff⟩ := ih fs.length (by omega) fs rfl u hu
      have hkeep : (∀ i, C.access e ≠ .write i) → C.count t ≤ C.count s + C.writes (fs ++ [e]) ∧
          (C.count t = C.count s + C.writes (fs ++ [e]) ↔ C.Undisturbed (fs ++ [e])) := by
        intro hne
        rw [count_of_ne_write hinv he hne, writes_concat_ne_write hne]
        exact ⟨hle, hiff.trans ⟨fun hf => hf.concat hne, Undisturbed.of_concat⟩⟩
      cases hacc : C.access e with
      | read j => exact hkeep fun i => by simp [hacc]
      | other => exact hkeep fun i => by simp [hacc]
      | write i =>
          obtain ⟨n, hn, hcount, -⟩ := C.write u e t i hinv he hacc
          obtain ⟨pre, e₀, mid, v, rfl, hr, hv, hvn, hpre, hmid⟩ := holds_split hs (hidle i) hu hn
          have hlen : pre.length < m := by
            rw [List.length_append, List.length_cons] at hm
            omega
          have hbound := (ih pre.length hlen pre rfl v hv).1
          have hr0 : (C.access e₀).isWrite = false := by rw [hr]; rfl
          have hsum : C.writes (pre ++ e₀ :: mid) = C.writes pre + C.writes mid := by
            rw [writes_append, writes_cons, hr0]
            simp
          rw [undisturbed_concat_write hr hacc hpre hmid, ← hiff, hcount, writes_concat_write hacc]
          refine ⟨by push_cast; omega, ?_⟩
          by_cases hzero : C.writes mid = 0
          · obtain ⟨v', hv', hrest⟩ := exec_append_eq_some.mp hu
            obtain rfl : v = v' := Option.some.inj (hv.symm.trans hv')
            have hsame : C.count u = C.count v := by
              refine count_of_writes_eq_zero (inv_exec hs hv) hrest ?_
              rw [writes_cons, hr0, hzero]
              rfl
            rw [and_iff_left hzero, hsame, hvn]
            push_cast
            omega
          · refine iff_of_false ?_ fun hand => hzero hand.2
            push_cast
            omega

/-- **Lost updates**: a run of sessions that have not read yet raises the
counter by the number of its writes if and only if no write falls between
another session's read and write. -/
theorem count_eq_iff {s t : σ} {es : List ε} (hs : C.Inv s) (hidle : ∀ i, C.phase s i = .idle)
    (h : exec step s es = some t) :
    C.count t = C.count s + C.writes es ↔ C.Undisturbed es :=
  (count_le_and_eq_iff hs hidle es.length es rfl t h).2

/-- Every session that is done has written once. -/
theorem writes_eq_card [Fintype I] {s t : σ} {es : List ε} (hs : C.Inv s)
    (hidle : ∀ i, C.phase s i = .idle) (h : exec step s es = some t) :
    C.writes es = (Finset.univ.filter fun i => C.phase t i = .done).card := by
  induction es using List.reverseRecOn generalizing t with
  | nil =>
      obtain rfl := Option.some.inj h
      simp [writes, hidle]
  | append_singleton es e ih =>
      obtain ⟨u, hu, he⟩ := exec_concat_eq_some.mp h
      have hinv := inv_exec hs hu
      cases hacc : C.access e with
      | read j =>
          obtain ⟨hj, -, hphase⟩ := C.read u e t j hinv he hacc
          have hset : (Finset.univ.filter fun i => C.phase t i = .done) =
              Finset.univ.filter fun i => C.phase u i = .done := by
            ext i
            rw [hphase]
            by_cases hij : i = j
            · simp [hij, hj]
            · simp [hij]
          rw [hset, writes_concat_ne_write fun i => by simp [hacc], ih hu]
      | other =>
          rw [writes_concat_ne_write fun i => by simp [hacc], ih hu,
            (C.other u e t hinv he hacc).2]
      | write j =>
          obtain ⟨n, hn, -, hphase⟩ := C.write u e t j hinv he hacc
          have hset : (Finset.univ.filter fun i => C.phase t i = .done) =
              insert j (Finset.univ.filter fun i => C.phase u i = .done) := by
            ext i
            rw [hphase]
            by_cases hij : i = j
            · simp [hij]
            · simp [hij]
          rw [hset, Finset.card_insert_of_notMem (by simp [hn]), writes_concat_write hacc, ih hu]

end Counter

end ReadModifyWrite
