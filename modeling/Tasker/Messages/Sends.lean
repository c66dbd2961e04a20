import Tasker.Messages.System

/-!
What becomes of the messages sent to a conversation.

* `messageTo`, `sentTo`, `committedTo`: the messages a run sends to a
  conversation, and those it commits to it.
* `pressedTo`: the message of a press of Send; `sentTo_eq_pressed`: these are the
  messages a run sends.
* `committedTo_perm_sentTo`: once nothing is in flight to the conversation any
  more, the messages committed are the messages sent.
* `messages_exec`: the stored array is the former one with the messages
  committed united to it, one after the other.
* `messages_eq_append_iff`: every message sent has its own entry if and only if
  no two are equal and none was stored before.
-/

namespace Tasker.Messages

open DocStore EventSystem WriteQueue ArrayUnion

variable {C : Type*} {uid : C → String} {ascending : C → String → String → Bool}

/-- The message a write adds to the conversation `id`. -/
def messageTo (id : String) : ConvWrite → Option Message
  | .add _ _ => none
  | .union id' m => if id' = id then some m else none

lemma messageTo_eq_none {id : String} {w : ConvWrite} (h : w.id ≠ id) : messageTo id w = none := by
  cases w with
  | add id' c => rfl
  | union id' m => exact if_neg h

/-- The conversation after some writes that do not add it anew. -/
lemma lookup_applyAll {ws : List ConvWrite} {id : String}
    (hadd : ∀ c, .add id c ∉ ws) {cs : Collection String Conversation} {c : Conversation}
    (h : cs.lookup id = some c) :
    ((chats uid ascending).applyAll ws cs).lookup id =
      some { c with messages := arrayUnion (ws.filterMap (messageTo id)) c.messages } := by
  induction ws generalizing cs c with
  | nil => exact h
  | cons w ws ih =>
      have hrest : ∀ c, .add id c ∉ ws := fun c hc => hadd c (List.mem_cons_of_mem w hc)
      rw [App.applyAll_cons, chats_apply]
      cases w with
      | add id' c' =>
          have hne : id ≠ id' := by
            rintro rfl
            exact hadd c' List.mem_cons_self
          rw [List.filterMap_cons_none rfl]
          exact ih hrest (by rw [lookup_add, if_neg hne]; exact h)
      | union id' m =>
          by_cases hid : id = id'
          · subst hid
            have hm : messageTo id (.union id m) = some m := if_pos rfl
            have hc : ((ConvWrite.union id m).apply cs).lookup id = some (c.receive m) := by
              rw [lookup_union, if_pos rfl, h, Option.map_some]
            rw [List.filterMap_cons_some hm, ih hrest hc, arrayUnion_cons]
            rfl
          · have hm : messageTo id (.union id' m) = none := if_neg (Ne.symm hid)
            rw [List.filterMap_cons_none hm]
            exact ih hrest (by rw [lookup_union, if_neg hid]; exact h)

variable [DecidableEq C]

variable (uid ascending) in
/-- The messages a run sends to the conversation `id`, in order. -/
def sentTo (id : String) (s : Chats C) (es : List (Event C Action)) : List Message :=
  ((chats uid ascending).issued s es).filterMap (messageTo id)

variable (uid ascending) in
/-- The messages a run commits to the conversation `id`, in order. -/
def committedTo (id : String) (s : Chats C) (es : List (Event C Action)) : List Message :=
  ((chats uid ascending).committed s es).filterMap (messageTo id)

/-! ### Presses of Send -/

variable (uid) in
/-- The message of a press of Send on a page of the conversation `id`: the text of the
field, from the user of the device. A dismissed page has no button any more. -/
def pressedTo (id : String) (s : Chats C) : Event C Action → List Message
  | .act c (.sendNew page text newID) =>
      if ∃ p ∈ (s.screen c).new[page]?, (p.dismissed = false ∧ newID ∉ s.shared) ∧
          p.vc.docID ≠ "" ∧ p.vc.docID = id then [{ body := text, sender := uid c }] else []
  | .act c (.sendChat page text) =>
      if ∃ vc ∈ (s.screen c).chat[page]?, vc.docID = id then
        [{ body := text, sender := uid c }] else []
  | _ => []

/-- The pages of a device are those of its user. -/
structure PagesOf (u : String) (x : Screens) : Prop where
  new : ∀ p ∈ x.new, p.vc.uid = u
  chat : ∀ vc ∈ x.chat, vc.uid = u

lemma PagesOf.act {f : String → String → Bool} {u : String} {g g' : List String} {x x' : Screens}
    {v : Collection String Conversation} {a : Action} {ws : List ConvWrite} (hx : PagesOf u x)
    (h : act f u g x v a = some (g', x', ws)) : PagesOf u x' := by
  have hset : ∀ page (p p' : NewPage), x.new[page]? = some p → p'.vc.uid = p.vc.uid →
      PagesOf u { x with new := x.new.set page p' } := fun page p p' hp huid =>
    ⟨fun q hq => (List.mem_or_eq_of_mem_set hq).elim (hx.new q) fun heq =>
      heq ▸ huid.trans (hx.new p (List.mem_of_getElem? hp)), hx.chat⟩
  cases a with
  | openNew sendToID =>
      obtain ⟨-, rfl, -⟩ : g = g' ∧ _ = x' ∧ [] = ws := by simpa [Messages.act] using h
      refine ⟨List.forall_mem_append.mpr ⟨hx.new, ?_⟩, hx.chat⟩
      exact List.forall_mem_singleton.mpr rfl
  | answer page ids =>
      obtain ⟨p, hp, hif⟩ := Option.bind_eq_some_iff.mp h
      obtain ⟨-, -, rfl, -⟩ : _ ∧ g = g' ∧ _ = x' ∧ [] = ws := by simpa using hif
      exact hset page p _ hp rfl
  | lookupError page =>
      obtain ⟨p, hp, hif⟩ := Option.bind_eq_some_iff.mp h
      obtain ⟨-, -, rfl, -⟩ : _ ∧ g = g' ∧ _ = x' ∧ [] = ws := by simpa using hif
      exact hset page p _ hp rfl
  | sendNew page text newID =>
      obtain ⟨p, hp, hif⟩ := Option.bind_eq_some_iff.mp h
      obtain ⟨-, -, rfl, -⟩ : _ ∧ newID :: g = g' ∧ _ = x' ∧
        [p.vc.sendPressed text newID] = ws := by simpa using hif
      exact hset page p _ hp rfl
  | openChat id =>
      obtain ⟨convo, -, hif⟩ := Option.bind_eq_some_iff.mp h
      obtain ⟨-, -, rfl, -⟩ : _ ∧ g = g' ∧ _ = x' ∧ [] = ws := by simpa using hif
      exact ⟨hx.new, List.forall_mem_append.mpr ⟨hx.chat, List.forall_mem_singleton.mpr rfl⟩⟩
  | sendChat page text =>
      obtain ⟨vc, -, heq⟩ := Option.map_eq_some_iff.mp h
      obtain ⟨-, rfl, -⟩ : g = g' ∧ x = x' ∧ [vc.sendPressed text] = ws := by simpa using heq
      exact hx

lemma pagesOf_step {s s' : Chats C} {e : Event C Action} (hs : ∀ c, PagesOf (uid c) (s.screen c))
    (h : (chats uid ascending).step s e = some s') (c : C) : PagesOf (uid c) (s'.screen c) := by
  cases e with
  | act c' a =>
      obtain ⟨g, x, ws, hact, rfl⟩ := App.step_act_eq_some.mp h
      by_cases hc : c = c'
      · subst hc
        simp only [Function.update_self]
        exact (hs c).act hact
      · simp only [Function.update_of_ne hc]
        exact hs c
  | commit c' =>
      obtain ⟨w, q, -, rfl⟩ := App.step_commit_eq_some.mp h
      exact hs c

/-- So they are in every reachable state. -/
lemma pagesOf_exec {s : Chats C} {es : List (Event C Action)}
    (h : exec (chats uid ascending).step start es = some s) (c : C) :
    PagesOf (uid c) (s.screen c) := by
  have hstart : ∀ c, PagesOf (uid c) ((start : Chats C).screen c) := fun c =>
    ⟨by simp [start], by simp [start]⟩
  have hkeep : ∀ (s : Chats C) (e : Event C Action) (s' : Chats C),
      (∀ c, PagesOf (uid c) (s.screen c)) → (chats uid ascending).step s e = some s' →
      ∀ c, PagesOf (uid c) (s'.screen c) := fun _ _ _ => pagesOf_step
  exact exec_invariant hkeep hstart h c

lemma filterMap_union (id id' : String) (m : Message) :
    [ConvWrite.union id' m].filterMap (messageTo id) = if id' = id then [m] else [] := by
  by_cases hid : id' = id
  · have hm : messageTo id (.union id' m) = some m := if_pos hid
    rw [List.filterMap_cons_some hm, if_pos hid]
    rfl
  · have hm : messageTo id (.union id' m) = none := if_neg hid
    rw [List.filterMap_cons_none hm, if_neg hid]
    rfl

/-- The message that a press of Send on a page of two users sends. -/
lemma filterMap_sendPressed (vc : NewMessageViewController) (text newID id : String) :
    [vc.sendPressed text newID].filterMap (messageTo id) =
      if vc.docID ≠ "" ∧ vc.docID = id then [{ body := text, sender := vc.uid }] else [] := by
  rw [NewMessageViewController.sendPressed]
  by_cases hnew : vc.docID = ""
  · rw [if_pos hnew, if_neg fun h => h.1 hnew]
    rfl
  · rw [if_neg hnew, filterMap_union]
    exact if_congr (and_iff_right hnew).symm rfl rfl

omit [DecidableEq C] in
/-- Only Send issues a write. -/
lemma issuedBy_eq_nil {s : Chats C} {c : C} {a : Action}
    (hnew : ∀ page text newID, a ≠ .sendNew page text newID)
    (hchat : ∀ page text, a ≠ .sendChat page text) :
    (chats uid ascending).issuedBy s (.act c a) = [] := by
  rw [App.issuedBy]
  rcases hact : (chats uid ascending).act c s.shared (s.screen c)
    ((chats uid ascending).view s c) a with _ | ⟨g, x, ws⟩
  · rfl
  · rcases act_cases hact with ⟨-, hws, -⟩ | ⟨page, text, newID, _, heq, -⟩ |
      ⟨page, text, _, heq, -⟩
    · rw [Option.map_some, Option.getD_some, hws]
    · exact absurd heq (hnew page text newID)
    · exact absurd heq (hchat page text)

omit [DecidableEq C] in
/-- A press of Send issues the write of its message, and nothing else issues one. -/
lemma filterMap_issuedBy {s : Chats C} (hs : ∀ c, PagesOf (uid c) (s.screen c)) {id : String}
    (e : Event C Action) :
    ((chats uid ascending).issuedBy s e).filterMap (messageTo id) = pressedTo uid id s e := by
  cases e with
  | commit c => rfl
  | act c a =>
      cases a with
      | sendNew page text newID =>
          rw [App.issuedBy, chats_act, Messages.act, pressedTo]
          cases hp : (s.screen c).new[page]? with
          | none => simp
          | some p =>
              have hsender := (hs c).new p (List.mem_of_getElem? hp)
              rw [Option.bind_some]
              by_cases hopen : p.dismissed = false ∧ newID ∉ s.shared
              · rw [if_pos hopen, Option.map_some, Option.getD_some,
                  filterMap_sendPressed, hsender]
                simp [hopen]
              · rw [if_neg hopen, Option.map_none, Option.getD_none, List.filterMap_nil, if_neg]
                rintro ⟨p', hp', hopen', -⟩
                exact hopen (Option.some.inj hp' ▸ hopen')
      | sendChat page text =>
          rw [App.issuedBy, chats_act, Messages.act, pressedTo]
          cases hvc : (s.screen c).chat[page]? with
          | none => simp
          | some vc =>
              have hsender := (hs c).chat vc (List.mem_of_getElem? hvc)
              rw [Option.map_some, Option.map_some, Option.getD_some,
                ChatViewController.sendPressed, filterMap_union, hsender]
              simp
      | _ =>
          rw [issuedBy_eq_nil (by simp) (by simp)]
          rfl

/-- From pages of its user, a run sends the messages of the presses. -/
lemma sentTo_eq_outputs {s : Chats C} (hs : ∀ c, PagesOf (uid c) (s.screen c)) (id : String)
    (es : List (Event C Action)) :
    sentTo uid ascending id s es =
      outputs (chats uid ascending).step (pressedTo uid id) s es := by
  induction es generalizing s with
  | nil => rfl
  | cons e es ih =>
      rw [sentTo, App.issued, List.filterMap_append, filterMap_issuedBy hs, outputs]
      cases hstep : (chats uid ascending).step s e with
      | none => rfl
      | some t => exact congrArg _ (ih (pagesOf_step hs hstep))

/-- **The messages sent** from a reachable state on are those of the presses of Send. -/
theorem sentTo_eq_pressed {s : Chats C} {es₀ : List (Event C Action)}
    (h : exec (chats uid ascending).step start es₀ = some s) (id : String)
    (es : List (Event C Action)) :
    sentTo uid ascending id s es =
      outputs (chats uid ascending).step (pressedTo uid id) s es :=
  sentTo_eq_outputs (pagesOf_exec h) id es

/-! ### The ids of the conversations added -/

/-- Issued ids stay issued. -/
lemma shared_step {s s' : Chats C} {e : Event C Action}
    (h : (chats uid ascending).step s e = some s') : s.shared ⊆ s'.shared := by
  cases e with
  | act c a =>
      obtain ⟨g, x, ws, hact, rfl⟩ := App.step_act_eq_some.mp h
      rcases act_cases hact with ⟨rfl, -, -⟩ | ⟨-, -, newID, -, -, -, -, rfl, -⟩ |
        ⟨-, -, -, -, -, rfl, -⟩
      · exact List.Subset.refl _
      · exact List.subset_cons_self newID _
      · exact List.Subset.refl _
  | commit c =>
      obtain ⟨w, q, hq, rfl⟩ := App.step_commit_eq_some.mp h
      exact List.Subset.refl _

/-- A page adds a conversation only under the id generated for it. -/
lemma NewMessageViewController.id_of_add {vc : NewMessageViewController} {text newID id : String}
    {c : Conversation} (h : vc.sendPressed text newID = .add id c) : id = newID := by
  rw [NewMessageViewController.sendPressed] at h
  split at h
  · exact (ConvWrite.add.inj h).1.symm
  · exact absurd h (by simp)

/-- A conversation whose id was issued is not added. -/
lemma add_notMem_issued {s : Chats C} {es : List (Event C Action)} {id : String}
    (hid : id ∈ s.shared) (c : Conversation) :
    .add id c ∉ (chats uid ascending).issued s es := by
  induction es generalizing s with
  | nil => exact List.not_mem_nil
  | cons e es ih =>
      rw [App.issued, List.mem_append, not_or]
      constructor
      · cases e with
        | commit c' => exact List.not_mem_nil
        | act c' a =>
            rw [App.issuedBy]
            rcases hact : (chats uid ascending).act c' s.shared (s.screen c')
              ((chats uid ascending).view s c') a with _ | ⟨g, x, ws⟩
            · exact List.not_mem_nil
            · rcases act_cases hact with ⟨-, rfl, -⟩ | ⟨-, text, newID, p, -, -, hnew, -, rfl⟩ |
                ⟨-, text, vc, -, -, -, rfl⟩
              · exact List.not_mem_nil
              · intro hmem
                have hadd := (List.mem_singleton.mp hmem).symm
                exact hnew (NewMessageViewController.id_of_add hadd ▸ hid)
              · simp [ChatViewController.sendPressed]
      · cases hs : (chats uid ascending).step s e with
        | none => exact List.not_mem_nil
        | some t => exact ih (shared_step hs hid)

/-! ### Messages sent and messages stored -/

section runs

variable [Fintype C] {s s' : Chats C} {es : List (Event C Action)} {id : String}

omit [DecidableEq C] in
/-- Nothing in flight to the conversation. -/
lemma filterMap_queued (h : ∀ c, ∀ w ∈ s.queue c, w.id ≠ id) :
    (App.queued s).filterMap (messageTo id) = 0 := by
  refine Multiset.eq_zero_of_forall_notMem fun m hm => ?_
  obtain ⟨w, hw, heq⟩ := (Multiset.mem_filterMap _ _).mp hm
  obtain ⟨c, hc⟩ := App.mem_queued.mp hw
  rw [messageTo_eq_none (h c w hc)] at heq
  exact absurd heq (by simp)

/-- The messages committed are the messages sent, each as often. -/
theorem committedTo_perm_sentTo (hquiet : ∀ c, ∀ w ∈ s.queue c, w.id ≠ id)
    (h : exec (chats uid ascending).step s es = some s')
    (hdone : ∀ c, ∀ w ∈ s'.queue c, w.id ≠ id) :
    (committedTo uid ascending id s es).Perm (sentTo uid ascending id s es) := by
  have hmain := congrArg (Multiset.filterMap (messageTo id)) (App.queued_exec h)
  rw [Multiset.filterMap_add, Multiset.filterMap_add, filterMap_queued hquiet,
    filterMap_queued hdone, add_zero, zero_add, Multiset.filterMap_coe,
    Multiset.filterMap_coe] at hmain
  exact Multiset.coe_eq_coe.mp hmain

/-- The array stored after a run. -/
theorem messages_exec {c₀ : Conversation} (hid : s.store.lookup id = some c₀)
    (hissued : id ∈ s.shared) (hquiet : ∀ c, ∀ w ∈ s.queue c, w.id ≠ id)
    (h : exec (chats uid ascending).step s es = some s') :
    s'.store.lookup id = some { c₀ with
      messages := arrayUnion (committedTo uid ascending id s es) c₀.messages } := by
  rw [App.store_exec h]
  refine lookup_applyAll (fun c hmem => ?_) hid
  -- what is committed was queued before the run or is issued by it
  have hin : .add id c ∈ App.queued s + ((chats uid ascending).issued s es : Multiset _) := by
    rw [← App.queued_exec h]
    exact Multiset.mem_add.mpr (Or.inl hmem)
  rcases Multiset.mem_add.mp hin with hold | hnew
  · obtain ⟨c', hc'⟩ := App.mem_queued.mp hold
    exact hquiet c' _ hc' rfl
  · exact add_notMem_issued hissued c hnew

/-- **Messages sent and messages stored**: once every message sent to the
conversation is committed, the stored array is the former one followed by the
messages sent in the order of their commits if and only if no two of them are
equal and none was stored before. -/
theorem messages_eq_append_iff {c₀ : Conversation} (hid : s.store.lookup id = some c₀)
    (hissued : id ∈ s.shared) (hquiet : ∀ c, ∀ w ∈ s.queue c, w.id ≠ id)
    (h : exec (chats uid ascending).step s es = some s')
    (hdone : ∀ c, ∀ w ∈ s'.queue c, w.id ≠ id) :
    (committedTo uid ascending id s es).Perm (sentTo uid ascending id s es) ∧
      ∃ c, s'.store.lookup id = some c ∧
        (c.messages = c₀.messages ++ committedTo uid ascending id s es ↔
          (sentTo uid ascending id s es).Nodup ∧
            ∀ m ∈ sentTo uid ascending id s es, m ∉ c₀.messages) := by
  have hperm := committedTo_perm_sentTo hquiet h hdone
  refine ⟨hperm, _, messages_exec hid hissued hquiet h, ?_⟩
  show arrayUnion _ c₀.messages = _ ↔ _
  rw [arrayUnion_eq_append_iff, hperm.nodup_iff]
  exact and_congr_right fun _ => forall_congr' fun m => imp_congr_left hperm.mem_iff

end runs

/-! ### Two devices -/

/-- Both users send the same text, each through another screen. -/
def answering : List (Event Device Action) :=
  [.act .bobs (.openChat "c1"), .act .bobs (.sendChat 0 "ok"), .act .anns (.openNew "bob"),
    .act .anns (.answer 1 ["c1"]), .act .anns (.sendNew 1 "ok" "c2"), .commit .anns,
    .commit .bobs]

/-- Bob sends the same text twice. -/
def repeating : List (Event Device Action) :=
  [.act .bobs (.openChat "c1"), .act .bobs (.sendChat 0 "ok"), .act .bobs (.sendChat 0 "ok"),
    .commit .bobs, .commit .bobs]

/-- The first message of Ann. -/
def firstMessage : Conversation where
  user1ID := "ann"
  user2ID := "bob"
  messages := [{ body := "hello", sender := "ann" }]

theorem sentTo_eq_pressed_answering : ∃ s,
    exec (chats users alphabetical).step start opening = some s ∧
      sentTo users alphabetical "c1" s answering =
        outputs (chats users alphabetical).step (pressedTo users "c1") s answering := by
  have hrun : (exec (chats users alphabetical).step start opening).isSome := by decide +kernel
  obtain ⟨s, hs⟩ := Option.isSome_iff_exists.mp hrun
  exact ⟨s, hs, sentTo_eq_pressed hs "c1" answering⟩

theorem messages_eq_append_iff_answering : ∃ s s',
    exec (chats users alphabetical).step start opening = some s ∧
    exec (chats users alphabetical).step s answering = some s' ∧
    (committedTo users alphabetical "c1" s answering).Perm
        (sentTo users alphabetical "c1" s answering) ∧
      ∃ c, s'.store.lookup "c1" = some c ∧
        (c.messages = firstMessage.messages ++ committedTo users alphabetical "c1" s answering ↔
          (sentTo users alphabetical "c1" s answering).Nodup ∧
            ∀ m ∈ sentTo users alphabetical "c1" s answering, m ∉ firstMessage.messages) := by
  have hrun : ((exec (chats users alphabetical).step start opening).bind fun s =>
      (exec (chats users alphabetical).step s answering).map fun s' =>
        decide (s.store.lookup "c1" = some firstMessage ∧ "c1" ∈ s.shared ∧
          (∀ c, ∀ w ∈ s.queue c, w.id ≠ "c1") ∧ ∀ c, ∀ w ∈ s'.queue c, w.id ≠ "c1")) =
      some true := by decide +kernel
  obtain ⟨s, hs, hrest⟩ := Option.bind_eq_some_iff.mp hrun
  obtain ⟨s', hs', hall⟩ := Option.map_eq_some_iff.mp hrest
  obtain ⟨hid, hissued, hquiet, hdone⟩ := of_decide_eq_true hall
  exact ⟨s, s', hs, hs', messages_eq_append_iff hid hissued hquiet hs' hdone⟩

/-- Two messages are sent and committed, and one is stored. -/
theorem repeated_message_lost : ∃ s s' c,
    exec (chats users alphabetical).step start opening = some s ∧
    exec (chats users alphabetical).step s repeating = some s' ∧
    s.store.lookup "c1" = some firstMessage ∧ (∀ c, s.queue c = []) ∧ (∀ c, s'.queue c = []) ∧
    sentTo users alphabetical "c1" s repeating = [⟨"ok", "bob"⟩, ⟨"ok", "bob"⟩] ∧
    committedTo users alphabetical "c1" s repeating = [⟨"ok", "bob"⟩, ⟨"ok", "bob"⟩] ∧
    s'.store.lookup "c1" = some c ∧ c.messages = firstMessage.messages ++ [⟨"ok", "bob"⟩] ∧
    c.messages ≠ firstMessage.messages ++ committedTo users alphabetical "c1" s repeating := by
  have hrun : ((exec (chats users alphabetical).step start opening).bind fun s =>
      (exec (chats users alphabetical).step s repeating).map fun s' =>
        decide (s.store.lookup "c1" = some firstMessage ∧ (∀ c, s.queue c = []) ∧
          (∀ c, s'.queue c = []) ∧
          sentTo users alphabetical "c1" s repeating = [⟨"ok", "bob"⟩, ⟨"ok", "bob"⟩] ∧
          committedTo users alphabetical "c1" s repeating = [⟨"ok", "bob"⟩, ⟨"ok", "bob"⟩] ∧
          (s'.store.lookup "c1").map (·.messages) =
            some (firstMessage.messages ++ [⟨"ok", "bob"⟩]))) = some true := by decide +kernel
  obtain ⟨s, hs, hrest⟩ := Option.bind_eq_some_iff.mp hrun
  obtain ⟨s', hs', hall⟩ := Option.map_eq_some_iff.mp hrest
  obtain ⟨hid, hquiet, hdone, hsent, hcommitted, hstored⟩ := of_decide_eq_true hall
  obtain ⟨c, hc, hmessages⟩ := Option.map_eq_some_iff.mp hstored
  refine ⟨s, s', c, hs, hs', hid, hquiet, hdone, hsent, hcommitted, hc, hmessages, ?_⟩
  rw [hmessages, hcommitted]
  decide

end Tasker.Messages
