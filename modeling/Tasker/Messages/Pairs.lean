import Tasker.Messages.System

/-!
The conversations of two users.

* `stored`, `adding`: how many conversations of the two are stored, and how
  many are being added.
* `Fresh`, `fresh_step`: a conversation being added has an id of its own, so
  that its commit adds a document (`stored_apply`).
* `total_step`: only Send on a page that has found no conversation adds to the
  two numbers together.
* `stored_le_one_iff`: there is at most one conversation of the two throughout
  if Send is pressed on such a page only while none is stored or being added;
  once everything is committed, only if.

The order in which the devices sort two users plays no part in this.
-/

namespace Tasker.Messages

open DocStore EventSystem WriteQueue

/-- `u` and `v` are `a` and `b`, in either order. -/
def Pair (a b u v : String) : Prop := u = a ∧ v = b ∨ u = b ∧ v = a

instance (a b u v : String) : Decidable (Pair a b u v) := inferInstanceAs (Decidable (_ ∨ _))

/-- The number of stored conversations of `a` and `b`. -/
def stored (a b : String) (cs : Collection String Conversation) : ℕ :=
  countDocs (fun _ c => decide (Pair a b c.user1ID c.user2ID)) cs

/-- The write adds a conversation of `a` and `b`. -/
def Adds (a b : String) : ConvWrite → Prop
  | .add _ c => Pair a b c.user1ID c.user2ID
  | .union _ _ => False

instance (a b : String) : DecidablePred (Adds a b)
  | .add _ c => inferInstanceAs (Decidable (Pair a b c.user1ID c.user2ID))
  | .union _ _ => inferInstanceAs (Decidable False)

variable {C : Type*} {uid : C → String} {ascending : C → String → String → Bool} {a b : String}

/-- The number of conversations of `a` and `b` in flight. -/
def adding [Fintype C] (a b : String) (s : Chats C) : ℕ := (App.queued s).countP (Adds a b)

/-- The commit of a write that adds under a new id, or does not add. -/
lemma stored_apply {cs : Collection String Conversation} {w : ConvWrite}
    (h : ∀ id, w.newID = some id → cs.lookup id = none) :
    stored a b (w.apply cs) = stored a b cs + if Adds a b w then 1 else 0 := by
  cases w with
  | add id c =>
      rw [ConvWrite.apply, stored, countDocs_setData_of_none _ (h id rfl), stored]
      exact congrArg _ (if_congr decide_eq_true_iff rfl rfl)
  | union id m =>
      rw [ConvWrite.apply]
      split
      · next c hc =>
          have hcount := countDocs_setData_of_some
            (fun _ c => decide (Pair a b c.user1ID c.user2ID)) hc (c.receive m)
          exact Nat.add_right_cancel hcount
      · rfl

/-- What is stored after a write. -/
lemma lookup_apply_ne_none {cs : Collection String Conversation} {w : ConvWrite} {id : String}
    (h : (w.apply cs).lookup id ≠ none) : w.newID = some id ∨ cs.lookup id ≠ none := by
  cases w with
  | add id' c =>
      rw [lookup_add] at h
      split at h
      · next heq => exact Or.inl (congrArg some heq.symm)
      · exact Or.inr h
  | union id' m =>
      rw [lookup_union] at h
      split at h
      · next heq =>
          subst heq
          exact Or.inr fun hnone => h (by rw [hnone]; rfl)
      · exact Or.inr h

/-! ### The ids of the conversations -/

section steps

variable [Fintype C]

/-- The ids of the conversations being added. -/
def newIDs (s : Chats C) : Multiset String := (App.queued s).filterMap ConvWrite.newID

/-- Ids are issued once: no two conversations, stored or being added, have the
same. -/
structure Fresh (s : Chats C) : Prop where
  stored : ∀ id, s.store.lookup id ≠ none → id ∈ s.shared
  adding : ∀ id ∈ newIDs s, id ∈ s.shared ∧ s.store.lookup id = none
  nodup : (newIDs s).Nodup

lemma fresh_start : Fresh (start : Chats C) := by
  have hnew : newIDs (start : Chats C) = 0 := by simp [newIDs, App.queued, start]
  exact ⟨by simp [start], by simp [hnew], by simp [hnew]⟩

/-- The same ids are as fresh. -/
lemma Fresh.congr {s s' : Chats C} (h : Fresh s) (hnew : newIDs s' = newIDs s)
    (hstore : s'.store = s.store) (hshared : s'.shared = s.shared) : Fresh s' := by
  constructor
  · rw [hstore, hshared]
    exact h.stored
  · rw [hnew, hstore, hshared]
    exact h.adding
  · rw [hnew]
    exact h.nodup

/-- An id issued, for a conversation or for none. -/
lemma Fresh.issue {s s' : Chats C} (h : Fresh s) {id : String} (hid : id ∉ s.shared)
    (hnew : newIDs s' = newIDs s ∨ newIDs s' = id ::ₘ newIDs s)
    (hstore : s'.store = s.store) (hshared : s'.shared = id :: s.shared) : Fresh s' := by
  have hold : ∀ id' ∈ newIDs s, id' ∈ s'.shared ∧ s'.store.lookup id' = none := by
    intro id' hid'
    rw [hstore, hshared]
    exact ⟨List.mem_cons_of_mem id (h.adding id' hid').1, (h.adding id' hid').2⟩
  have hstored : ∀ id', s'.store.lookup id' ≠ none → id' ∈ s'.shared := by
    intro id' hid'
    rw [hstore] at hid'
    rw [hshared]
    exact List.mem_cons_of_mem id (h.stored id' hid')
  rcases hnew with hnew | hnew
  · exact ⟨hstored, hnew ▸ hold, hnew ▸ h.nodup⟩
  · refine ⟨hstored, fun id' hid' => ?_, ?_⟩
    · rw [hnew] at hid'
      rcases Multiset.mem_cons.mp hid' with rfl | hid'
      · rw [hstore, hshared]
        exact ⟨List.mem_cons_self, not_not.mp fun hne => hid (h.stored id' hne)⟩
      · exact hold id' hid'
    · rw [hnew, Multiset.nodup_cons]
      exact ⟨fun hmem => hid (h.adding id hmem).1, h.nodup⟩

/-- A write committed. -/
lemma Fresh.commit {s s' : Chats C} (h : Fresh s) {w : ConvWrite}
    (hqueued : w ::ₘ App.queued s' = App.queued s) (hstore : s'.store = w.apply s.store)
    (hshared : s'.shared = s.shared) : Fresh s' := by
  have hle : newIDs s' ≤ newIDs s := by
    rw [newIDs, newIDs, ← hqueued]
    exact Multiset.filterMap_le_filterMap _ (Multiset.le_cons_self _ w)
  have hw : ∀ id, w.newID = some id → id ∈ newIDs s ∧ id ∉ newIDs s' := by
    intro id hid
    have hnew : newIDs s = id ::ₘ newIDs s' := by
      rw [newIDs, ← hqueued, Multiset.filterMap_cons_some _ _ _ hid, newIDs]
    have hnodup := h.nodup
    rw [hnew, Multiset.nodup_cons] at hnodup
    exact ⟨hnew ▸ Multiset.mem_cons_self id _, hnodup.1⟩
  refine ⟨fun id hid => ?_, fun id hid => ?_, Multiset.nodup_of_le hle h.nodup⟩
  · rw [hstore] at hid
    rw [hshared]
    rcases lookup_apply_ne_none hid with hnew | hold
    · exact (h.adding id (hw id hnew).1).1
    · exact h.stored id hold
  · have hold := h.adding id (Multiset.mem_of_le hle hid)
    refine ⟨hshared ▸ hold.1, not_not.mp fun hne => ?_⟩
    rw [hstore] at hne
    rcases lookup_apply_ne_none hne with hnew | hne
    · exact (hw id hnew).2 hid
    · exact hne hold.2

variable [DecidableEq C]

lemma fresh_step {s s' : Chats C} {e : Event C Action} (h : Fresh s)
    (hs : (chats uid ascending).step s e = some s') : Fresh s' := by
  cases e with
  | act c a =>
      obtain ⟨g, x, ws, hact, rfl⟩ := App.step_act_eq_some.mp hs
      have hnew := congrArg (Multiset.filterMap ConvWrite.newID)
        (App.queued_act (s := s) c g (Function.update s.screen c x) ws)
      rw [Multiset.filterMap_add, Multiset.filterMap_coe] at hnew
      rcases act_cases hact with ⟨rfl, rfl, -⟩ | ⟨-, text, newID, p, -, -, hid, rfl, rfl⟩ |
        ⟨-, text, vc, -, -, rfl, rfl⟩
      · exact h.congr (hnew.trans (add_zero _)) rfl rfl
      · refine h.issue hid ?_ rfl rfl
        by_cases hdoc : p.vc.docID = ""
        · right
          have hadd : [p.vc.sendPressed text newID].filterMap ConvWrite.newID = [newID] := by
            simp [NewMessageViewController.sendPressed, hdoc, ConvWrite.newID]
          rw [hadd, Multiset.coe_singleton, add_comm, Multiset.singleton_add] at hnew
          exact hnew
        · left
          have hadd : [p.vc.sendPressed text newID].filterMap ConvWrite.newID = [] := by
            simp [NewMessageViewController.sendPressed, hdoc, ConvWrite.newID]
          rw [hadd] at hnew
          exact hnew.trans (add_zero _)
      · exact h.congr (hnew.trans (add_zero _)) rfl rfl
  | commit c =>
      obtain ⟨w, q, hq, rfl⟩ := App.step_commit_eq_some.mp hs
      exact h.commit (App.queued_tail hq _) rfl rfl

/-! ### The two numbers together -/

/-- Conversations of `a` and `b`, stored or in flight. -/
def total (a b : String) (s : Chats C) : ℕ := stored a b s.store + adding a b s

omit [Fintype C] [DecidableEq C] in
lemma countP_adds (w : ConvWrite) :
    ([w] : Multiset ConvWrite).countP (Adds a b) = if Adds a b w then 1 else 0 := by
  rw [Multiset.coe_singleton, ← Multiset.cons_zero, Multiset.countP_cons, Multiset.countP_zero,
    zero_add]

/-- Every event leaves the total, but for the conversations it issues. -/
lemma total_step {s s' : Chats C} {e : Event C Action} (h : Fresh s)
    (hs : (chats uid ascending).step s e = some s') :
    total a b s' = total a b s +
      ((chats uid ascending).issuedBy s e : Multiset ConvWrite).countP (Adds a b) := by
  have hqueued := congrArg (Multiset.countP (Adds a b)) (App.queued_step hs)
  rw [Multiset.countP_add, Multiset.countP_add] at hqueued
  have hstored : stored a b s'.store = stored a b s.store +
      (App.committedBy s e : Multiset ConvWrite).countP (Adds a b) := by
    rw [App.store_step hs]
    cases e with
    | act c a => rfl
    | commit c =>
        obtain ⟨w, q, hq, rfl⟩ := App.step_commit_eq_some.mp hs
        have hw : ∀ id, w.newID = some id → s.store.lookup id = none := by
          intro id hid
          refine (h.adding id ((Multiset.mem_filterMap _ _).mpr ⟨w, ?_, hid⟩)).2
          exact App.mem_queued.mpr ⟨c, by simp [hq]⟩
        rw [App.committedBy, hq]
        show stored a b (w.apply s.store) = _
        rw [stored_apply hw, List.take_one, List.head?_cons, Option.toList_some, countP_adds]
  rw [total, total, adding, adding]
  omega

/-- Send is pressed on a page of `a` and `b` that has found no conversation only
while none is stored or in flight. -/
def FirstContact (a b : String) (s : Chats C) : Event C Action → Prop
  | .act c (.sendNew page _ _) => ∀ p, (s.screen c).new[page]? = some p → p.vc.docID = "" →
      Pair a b p.vc.user1ID p.vc.user2ID → stored a b s.store = 0 ∧ adding a b s = 0
  | _ => True

/-- What Send on a page adds to the total. -/
lemma countP_sendPressed (vc : NewMessageViewController) (text newID : String) :
    ([vc.sendPressed text newID] : Multiset ConvWrite).countP (Adds a b) =
      if vc.docID = "" ∧ Pair a b vc.user1ID vc.user2ID then 1 else 0 := by
  rw [countP_adds]
  by_cases hdoc : vc.docID = ""
  · simp [NewMessageViewController.sendPressed, hdoc, Adds]
  · simp [NewMessageViewController.sendPressed, hdoc, Adds]

/-- At most one conversation remains, if and only if there was at most one and
the event meets the condition. -/
lemma total_le_one_step {s s' : Chats C} {e : Event C Action} (h : Fresh s)
    (hs : (chats uid ascending).step s e = some s') :
    total a b s' ≤ 1 ↔ total a b s ≤ 1 ∧ FirstContact a b s e := by
  rw [total_step h hs]
  cases e with
  | commit c => simp [App.issuedBy, FirstContact]
  | act c act =>
      obtain ⟨g, x, ws, hact, rfl⟩ := App.step_act_eq_some.mp hs
      have hissued : (chats uid ascending).issuedBy s (.act c act) = ws := by
        rw [App.issuedBy, hact]
        rfl
      rw [hissued]
      rcases act_cases hact with ⟨-, rfl, hother⟩ | ⟨page, text, newID, p, rfl, hp, -, -, rfl⟩ |
        ⟨page, text, vc, rfl, -, -, rfl⟩
      · have hcond : FirstContact a b s (.act c act) := by
          cases act with
          | sendNew page text newID => exact absurd rfl (hother page text newID)
          | _ => trivial
        simp [hcond]
      · have hcond : FirstContact a b s (.act c (.sendNew page text newID)) ↔
            (p.vc.docID = "" ∧ Pair a b p.vc.user1ID p.vc.user2ID → total a b s = 0) := by
          rw [FirstContact, hp]
          simp [total]
        rw [hcond, countP_sendPressed]
        split
        · next hadds =>
            rw [imp_iff_right hadds]
            omega
        · next hadds => simp [hadds]
      · rw [countP_adds]
        simp [FirstContact, ChatViewController.sendPressed, Adds]

/-- **One conversation per pair**: two users have at most one conversation
throughout every run in which Send is pressed on a page that has found none only
while none is stored or in flight; and throughout a run that leaves nothing in
flight only then. -/
theorem stored_le_one_iff {s : Chats C} {es : List (Event C Action)}
    (h : exec (chats uid ascending).step start es = some s) :
    (EachStep (chats uid ascending).step (FirstContact a b) start es →
      EachState (chats uid ascending).step (fun s => stored a b s.store ≤ 1) start es) ∧
    ((∀ c, s.queue c = []) →
      (EachState (chats uid ascending).step (fun s => stored a b s.store ≤ 1) start es ↔
        EachStep (chats uid ascending).step (FirstContact a b) start es)) := by
  have hstart : total a b (start : Chats C) = 0 := by
    simp [total, stored, adding, start, App.queued]
  have hkeep : ∀ s e s', Fresh s → (chats uid ascending).step s e = some s' →
      (total a b s' ≤ 1 ↔ total a b s ≤ 1 ∧ FirstContact a b s e) :=
    fun s e s' hs he => total_le_one_step hs he
  have hfresh : ∀ s e s', Fresh s → (chats uid ascending).step s e = some s' → Fresh s' :=
    fun s e s' hs he => fresh_step hs he
  have hsufficient : EachStep (chats uid ascending).step (FirstContact a b) start es →
      EachState (chats uid ascending).step (fun s => stored a b s.store ≤ 1) start es := by
    intro hcond
    have hall := (eachState_iff_eachStep hfresh
      (fun s e s' hs hP he => (hkeep s e s' hs he).trans (and_iff_right hP))
      fresh_start (hstart.trans_le (Nat.zero_le 1)) h).mpr hcond
    exact hall.mono fun s hs => (Nat.le_add_right _ _).trans hs
  refine ⟨hsufficient, fun hdone => ⟨fun hall => ?_, hsufficient⟩⟩
  have hend : total a b s ≤ 1 := by
    have hnone : adding a b s = 0 := by simp [adding, App.queued, hdone]
    rw [total, hnone]
    exact hall.last h
  exact ((exec_iff_eachStep hfresh hkeep fresh_start h).mp hend).2

end steps

/-! ### Two devices -/

/-- Both users open a page, both lookups find nothing, both send. -/
def crossing : List (Event Device Action) :=
  [.act .anns (.openNew "bob"), .act .bobs (.openNew "ann"), .act .anns (.answer 0 []),
    .act .bobs (.answer 0 []), .act .anns (.sendNew 0 "hello" "c1"),
    .act .bobs (.sendNew 0 "hi" "c2"), .commit .anns, .commit .bobs]

/-- Bob answers on a page that has found the conversation. -/
def replying : List (Event Device Action) :=
  opening ++ [.act .bobs (.openNew "ann"), .act .bobs (.answer 0 ["c1"]),
    .act .bobs (.sendNew 0 "hi" "c2"), .commit .bobs]

theorem stored_le_one_iff_replying : ∃ s,
    exec (chats users alphabetical).step start replying = some s ∧ (∀ c, s.queue c = []) ∧
    (EachState (chats users alphabetical).step (fun s => stored "ann" "bob" s.store ≤ 1) start
        replying ↔
      EachStep (chats users alphabetical).step (FirstContact "ann" "bob") start replying) := by
  have hrun : (exec (chats users alphabetical).step start replying).map
      (fun s => decide (∀ c, s.queue c = [])) = some true := by decide +kernel
  obtain ⟨s, hs, hdone⟩ := Option.map_eq_some_iff.mp hrun
  have hdone := of_decide_eq_true hdone
  exact ⟨s, hs, hdone, (stored_le_one_iff hs).2 hdone⟩

/-- Both devices sort the two users alike, and two conversations are stored. -/
theorem crossing_stores_two : ∃ s,
    exec (chats users alphabetical).step start crossing = some s ∧
    (∀ c, alphabetical c "ann" "bob" = true ∧ alphabetical c "bob" "ann" = false) ∧
    (∀ c, s.queue c = []) ∧ stored "ann" "bob" s.store = 2 := by
  have hrun : (exec (chats users alphabetical).step start crossing).map
      (fun s => decide ((∀ c, s.queue c = []) ∧ stored "ann" "bob" s.store = 2)) =
      some true := by decide +kernel
  obtain ⟨s, hs, hend⟩ := Option.map_eq_some_iff.mp hrun
  exact ⟨s, hs, by decide, of_decide_eq_true hend⟩

end Tasker.Messages
