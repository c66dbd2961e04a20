import Tasker.Messages.System

/-!
The history of a conversation.

* `WellFormed`: there is a message, and every message is one of the two users'.
* `OwnPages`: the pages of a device send for its user, and only to conversations
  of its user; `act_history`: an action keeps this, and its writes are fit.
* `history`: the discipline. The users of a conversation never change, and a
  conversation being added has an id of its own, so that what others commit
  meanwhile cannot spoil a page or a queued write.
* `conversation_history`: every stored conversation is well formed, and every
  event leaves its former messages in place.
* `Loaded`, `cellForItemAt_loaded`: no cell of a list of conversations traps.
-/

namespace Tasker.Messages

open DocStore EventSystem WriteQueue ArrayUnion

/-! ### Conversations -/

/-- The user is one of the two of the conversation. -/
def Conversation.Has (c : Conversation) (u : String) : Prop := u = c.user1ID ∨ u = c.user2ID

/-- There is a message, and every message is one of the two users'. -/
structure WellFormed (c : Conversation) : Prop where
  nonempty : c.messages ≠ []
  senders : ∀ m ∈ c.messages, Conversation.Has c m.sender

/-- Every conversation of the first store is one of the same users in the
second. -/
def UsersLe (cs cs' : Collection String Conversation) : Prop :=
  ∀ id c, cs.lookup id = some c → ∃ c', cs'.lookup id = some c' ∧
    c'.user1ID = c.user1ID ∧ c'.user2ID = c.user2ID

/-- The conversation `id` is one of the user `u`. -/
def Member (cs : Collection String Conversation) (id u : String) : Prop :=
  ∃ c, cs.lookup id = some c ∧ Conversation.Has c u

lemma UsersLe.member {cs cs' : Collection String Conversation} (h : UsersLe cs cs')
    {id u : String} (hm : Member cs id u) : Member cs' id u := by
  obtain ⟨c, hc, hu⟩ := hm
  obtain ⟨c', hc', h₁, h₂⟩ := h id c hc
  refine ⟨c', hc', ?_⟩
  rw [Conversation.Has, h₁, h₂]
  exact hu

/-- A message of one of the users is added in its place. -/
lemma WellFormed.receive {c : Conversation} (h : WellFormed c) {m : Message}
    (hm : Conversation.Has c m.sender) : WellFormed (c.receive m) := by
  have hprefix : c.messages <+: (c.receive m).messages := prefix_arrayUnion [m] c.messages
  refine ⟨fun hnil => h.nonempty (List.prefix_nil.mp (hnil ▸ hprefix)), fun m' hm' => ?_⟩
  rw [Conversation.receive, arrayUnion_cons, arrayUnion_nil] at hm'
  split at hm'
  · exact h.senders m' hm'
  · rcases List.mem_append.mp hm' with hm' | hm'
    · exact h.senders m' hm'
    · exact List.mem_singleton.mp hm' ▸ hm

/-! ### Writes -/

/-- Every conversation is well formed. -/
def AllWellFormed (cs : Collection String Conversation) : Prop :=
  AllDocs (fun _ c => WellFormed c) cs

/-- A well-formed conversation under a new id, or a message of one of the
users. -/
def HistoryWrite (cs : Collection String Conversation) : ConvWrite → Prop
  | .add id c => cs.lookup id = none ∧ WellFormed c
  | .union id m => Member cs id m.sender

lemma AllWellFormed.apply {cs : Collection String Conversation} (h : AllWellFormed cs)
    {w : ConvWrite} (hw : HistoryWrite cs w) : AllWellFormed (w.apply cs) := by
  intro id c hc
  cases w with
  | add id' c' =>
      rw [lookup_add] at hc
      split at hc
      · exact Option.some.inj hc ▸ hw.2
      · exact h id c hc
  | union id' m =>
      rw [lookup_union] at hc
      split at hc
      · obtain ⟨c₀, hc₀, hsender⟩ := hw
        rw [hc₀] at hc
        exact Option.some.inj hc ▸ (h id' c₀ hc₀).receive hsender
      · exact h id c hc

/-- A write leaves the users of a conversation, and its messages in place. -/
lemma HistoryWrite.extends {cs : Collection String Conversation} {w : ConvWrite}
    (hw : HistoryWrite cs w) {id : String} {c : Conversation} (hc : cs.lookup id = some c) :
    ∃ c', (w.apply cs).lookup id = some c' ∧ c'.user1ID = c.user1ID ∧ c'.user2ID = c.user2ID ∧
      c.messages <+: c'.messages := by
  cases w with
  | add id' c' =>
      have hne : id ≠ id' := by
        rintro rfl
        exact absurd (hw.1.symm.trans hc) (by simp)
      exact ⟨c, by rw [lookup_add, if_neg hne, hc], rfl, rfl, List.prefix_rfl⟩
  | union id' m =>
      by_cases hid : id = id'
      · subst hid
        exact ⟨c.receive m, by rw [lookup_union, if_pos rfl, hc]; rfl, rfl, rfl,
          prefix_arrayUnion [m] c.messages⟩
      · exact ⟨c, by rw [lookup_union, if_neg hid, hc], rfl, rfl, List.prefix_rfl⟩

lemma HistoryWrite.usersLe {cs : Collection String Conversation} {w : ConvWrite}
    (hw : HistoryWrite cs w) : UsersLe cs (w.apply cs) := by
  intro id c hc
  obtain ⟨c', hc', h₁, h₂, -⟩ := hw.extends hc
  exact ⟨c', hc', h₁, h₂⟩

/-- Only adding a conversation adds a document. -/
lemma lookup_apply_eq_none {cs : Collection String Conversation} {w : ConvWrite} {id : String}
    (hid : ∀ c, w ≠ .add id c) (h : cs.lookup id = none) : (w.apply cs).lookup id = none := by
  cases w with
  | add id' c =>
      have hne : id ≠ id' := by
        rintro rfl
        exact hid c rfl
      rw [lookup_add, if_neg hne, h]
  | union id' m =>
      rw [lookup_union]
      split
      · next heq => rw [← heq, h]; rfl
      · exact h

/-! ### What the others may do -/

/-- Conversations keep their users, and the ids of those being added stay
new. -/
structure HistoryRely (q : List ConvWrite) (cs cs' : Collection String Conversation) : Prop where
  users : UsersLe cs cs'
  fresh : ∀ id c, .add id c ∈ q → cs.lookup id = none → cs'.lookup id = none

/-- A queued write stays fit. -/
lemma HistoryRely.historyWrite {w : ConvWrite} {q : List ConvWrite}
    {cs cs' : Collection String Conversation} (h : HistoryRely (w :: q) cs cs')
    (hw : HistoryWrite cs w) : HistoryWrite cs' w := by
  cases w with
  | add id c => exact ⟨h.fresh id c (by simp) hw.1, hw.2⟩
  | union id m => exact h.users.member hw

/-- The users stay as they are under a write laid over both stores. -/
lemma UsersLe.apply {cs cs' : Collection String Conversation} (h : UsersLe cs cs')
    (w : ConvWrite) : UsersLe (w.apply cs) (w.apply cs') := by
  intro id c hc
  cases w with
  | add id' c' =>
      rw [lookup_add] at hc ⊢
      split at hc
      · next heq =>
          rw [if_pos heq]
          exact ⟨c, hc, rfl, rfl⟩
      · next hne =>
          rw [if_neg hne]
          exact h id c hc
  | union id' m =>
      rw [lookup_union] at hc ⊢
      split at hc
      · next heq =>
          obtain ⟨c₀, hc₀, rfl⟩ := Option.map_eq_some_iff.mp hc
          obtain ⟨c₀', hc₀', h₁, h₂⟩ := h id' c₀ hc₀
          rw [if_pos heq, hc₀']
          exact ⟨_, rfl, h₁, h₂⟩
      · next hne =>
          rw [if_neg hne]
          exact h id c hc

lemma HistoryRely.cons {w : ConvWrite} {q : List ConvWrite}
    {cs cs' : Collection String Conversation} (h : HistoryRely (w :: q) cs cs')
    (hw : HistoryWrite cs w) :
    HistoryWrite cs' w ∧ HistoryRely q (w.apply cs) (w.apply cs') := by
  refine ⟨h.historyWrite hw, h.users.apply w, fun id c hmem hnone => ?_⟩
  -- an id that is new after the write was new before it, and is not its own
  have hold : cs.lookup id = none := by
    by_contra hne
    obtain ⟨c₀, hc₀⟩ := Option.ne_none_iff_exists'.mp hne
    obtain ⟨c', hc', -⟩ := hw.usersLe id c₀ hc₀
    exact absurd (hnone.symm.trans hc') (by simp)
  refine lookup_apply_eq_none (fun c' heq => ?_) (h.fresh id c (by simp [hmem]) hold)
  subst heq
  rw [lookup_add, if_pos rfl] at hnone
  exact absurd hnone (by simp)

/-! ### Pages -/

/-- The page sends for the user `u`, one of its two users, and only to a
conversation of `u`. -/
structure OwnNew (u : String) (cs : Collection String Conversation)
    (vc : NewMessageViewController) : Prop where
  uid : vc.uid = u
  pair : u = vc.user1ID ∨ u = vc.user2ID
  docID : vc.docID ≠ "" → Member cs vc.docID u

/-- The pages of a device of the user `u`. -/
structure OwnPages (u : String) (cs : Collection String Conversation) (x : Screens) : Prop where
  new : ∀ p ∈ x.new, OwnNew u cs p.vc
  chat : ∀ vc ∈ x.chat, vc.uid = u ∧ Member cs vc.docID u

lemma OwnNew.mono {u : String} {cs cs' : Collection String Conversation}
    {vc : NewMessageViewController} (h : OwnNew u cs vc) (hle : UsersLe cs cs') :
    OwnNew u cs' vc :=
  ⟨h.uid, h.pair, fun hdoc => hle.member (h.docID hdoc)⟩

lemma OwnPages.mono {u : String} {cs cs' : Collection String Conversation} {x : Screens}
    (h : OwnPages u cs x) (hle : UsersLe cs cs') : OwnPages u cs' x :=
  ⟨fun p hp => (h.new p hp).mono hle, fun vc hvc => (h.chat vc hvc).imp_right hle.member⟩

/-- The two users of a page, in either order. -/
lemma pair_viewDidLoad (f : String → String → Bool) (u v : String) :
    u = (NewMessageViewController.viewDidLoad f u v).user1ID ∨
      u = (NewMessageViewController.viewDidLoad f u v).user2ID := by
  have hsorted : (NewMessageViewController.viewDidLoad f u v).usersSorted =
      if f v u = false then [u, v] else [v, u] := by
    simp [NewMessageViewController.viewDidLoad, NewMessageViewController.sorted,
      List.orderedInsert]
  rw [NewMessageViewController.user1ID, NewMessageViewController.user2ID, hsorted]
  split
  · exact Or.inl rfl
  · exact Or.inr rfl

/-- The conversations a lookup can find are those of the two users. -/
lemma member_of_mem_query {u : String} {cs : Collection String Conversation}
    {vc : NewMessageViewController} (hpair : u = vc.user1ID ∨ u = vc.user2ID) {id : String}
    (hid : id ∈ vc.query cs) : Member cs id u := by
  rw [NewMessageViewController.query, List.mem_insertionSort, List.mem_map] at hid
  obtain ⟨⟨id', c⟩, hmem, rfl⟩ := hid
  obtain ⟨hdoc, husers⟩ := List.mem_filter.mp hmem
  obtain ⟨h₁, h₂⟩ := of_decide_eq_true husers
  refine ⟨c, mem_documents.mp hdoc, ?_⟩
  rw [Conversation.Has, h₁, h₂]
  exact hpair

lemma OwnNew.found {u : String} {cs : Collection String Conversation}
    {vc : NewMessageViewController} (h : OwnNew u cs vc) {ids : List String}
    (hids : ids.Sublist (vc.query cs)) : OwnNew u cs (vc.found ids) := by
  refine ⟨h.uid, h.pair, fun hdoc => ?_⟩
  cases hlast : ids.getLast? with
  | none =>
      have hsame : (vc.found ids).docID = vc.docID := by
        simp [NewMessageViewController.found, hlast]
      rw [hsame] at hdoc ⊢
      exact h.docID hdoc
  | some id =>
      have hfound : (vc.found ids).docID = id := by simp [NewMessageViewController.found, hlast]
      rw [hfound]
      exact member_of_mem_query h.pair (hids.subset (List.mem_of_getLast? hlast))

/-- What a page sends is fit, if its new id is. -/
lemma OwnNew.sendPressed {u : String} {cs : Collection String Conversation}
    {vc : NewMessageViewController} (h : OwnNew u cs vc) (text : String) {newID : String}
    (hnew : cs.lookup newID = none) : HistoryWrite cs (vc.sendPressed text newID) := by
  rw [NewMessageViewController.sendPressed]
  split
  · refine ⟨hnew, by simp, fun m hm => ?_⟩
    rw [List.mem_singleton.mp hm, h.uid]
    exact h.pair
  · next hdoc => exact (h.docID hdoc).imp fun c hc => hc.imp_right fun hu => h.uid ▸ hu

/-- The pages after one of them is replaced. -/
lemma OwnPages.set {u : String} {cs : Collection String Conversation} {x : Screens}
    (h : OwnPages u cs x) (page : ℕ) {p : NewPage} (hp : OwnNew u cs p.vc) :
    OwnPages u cs { x with new := x.new.set page p } := by
  refine ⟨fun p' hp' => ?_, h.chat⟩
  rcases List.mem_or_eq_of_mem_set hp' with hold | rfl
  · exact h.new p' hold
  · exact hp

/-! ### Actions -/

/-- The ids of the stored conversations have been issued. -/
def StoredIDs (g : List String) (cs : Collection String Conversation) : Prop :=
  ∀ id, cs.lookup id ≠ none → id ∈ g

/-- A fit write, with an issued id. -/
def FitWrite (g : List String) (cs : Collection String Conversation) (w : ConvWrite) : Prop :=
  HistoryWrite cs w ∧ ∀ id, w.newID = some id → id ∈ g

lemma newID_sendPressed {vc : NewMessageViewController} {text newID id : String}
    (h : (vc.sendPressed text newID).newID = some id) : id = newID := by
  rw [NewMessageViewController.sendPressed] at h
  split at h
  · exact (Option.some.inj h).symm
  · exact absurd h (by simp [ConvWrite.newID])

variable {C : Type*} {uid : C → String} {ascending : C → String → String → Bool}

/-- The ids issued, the writes and the pages after an action. -/
lemma act_history {f : String → String → Bool} {u : String} {g g' : List String} {x x' : Screens}
    {v : Collection String Conversation} {a : Action} {ws : List ConvWrite}
    (hids : StoredIDs g v) (hx : OwnPages u v x) (h : act f u g x v a = some (g', x', ws)) :
    g ⊆ g' ∧ (chats uid ascending).QueueOk (FitWrite g') v ws ∧
      OwnPages u ((chats uid ascending).applyAll ws v) x' := by
  cases a with
  | openNew sendToID =>
      obtain ⟨rfl, rfl, rfl⟩ : g = g' ∧ _ = x' ∧ [] = ws := by simpa [act] using h
      refine ⟨List.Subset.refl g, trivial, fun p hp => ?_, hx.chat⟩
      rcases List.mem_append.mp hp with hp | hp
      · exact hx.new p hp
      · rw [List.mem_singleton.mp hp]
        exact ⟨rfl, pair_viewDidLoad f u sendToID, fun hdoc => absurd rfl hdoc⟩
  | answer page ids =>
      obtain ⟨p, hp, hif⟩ := Option.bind_eq_some_iff.mp h
      obtain ⟨⟨-, hsub⟩, rfl, rfl, rfl⟩ : (_ ∧ ids.Sublist (p.vc.query v)) ∧ g = g' ∧ _ = x' ∧
        [] = ws := by simpa using hif
      exact ⟨List.Subset.refl g, trivial,
        hx.set page ((hx.new p (List.mem_of_getElem? hp)).found hsub)⟩
  | lookupError page =>
      obtain ⟨p, hp, hif⟩ := Option.bind_eq_some_iff.mp h
      obtain ⟨-, rfl, rfl, rfl⟩ : _ ∧ g = g' ∧ _ = x' ∧ [] = ws := by simpa using hif
      exact ⟨List.Subset.refl g, trivial, hx.set page (hx.new p (List.mem_of_getElem? hp))⟩
  | sendNew page text newID =>
      obtain ⟨p, hp, hif⟩ := Option.bind_eq_some_iff.mp h
      obtain ⟨⟨-, hnew⟩, rfl, rfl, rfl⟩ : (_ ∧ newID ∉ g) ∧ newID :: g = g' ∧ _ = x' ∧
        [p.vc.sendPressed text newID] = ws := by simpa using hif
      have hpage := hx.new p (List.mem_of_getElem? hp)
      have hw : HistoryWrite v (p.vc.sendPressed text newID) :=
        hpage.sendPressed text (not_not.mp fun hne => hnew (hids newID hne))
      have hissued : ∀ id, (p.vc.sendPressed text newID).newID = some id → id ∈ newID :: g :=
        fun id hid => newID_sendPressed hid ▸ List.mem_cons_self
      have hx' : OwnPages u v { x with new := x.new.set page { p with dismissed := true } } :=
        hx.set page hpage
      exact ⟨List.subset_cons_self newID g, ⟨⟨hw, hissued⟩, trivial⟩, hx'.mono hw.usersLe⟩
  | openChat id =>
      obtain ⟨convo, hconvo, hif⟩ := Option.bind_eq_some_iff.mp h
      obtain ⟨husers, rfl, rfl, rfl⟩ : (convo.user1ID = u ∨ convo.user2ID = u) ∧ g = g' ∧ _ = x' ∧
        [] = ws := by simpa using hif
      refine ⟨List.Subset.refl g, trivial, hx.new, fun vc hvc => ?_⟩
      rcases List.mem_append.mp hvc with hvc | hvc
      · exact hx.chat vc hvc
      · rw [List.mem_singleton.mp hvc]
        exact ⟨rfl, convo, hconvo, husers.imp Eq.symm Eq.symm⟩
  | sendChat page text =>
      obtain ⟨vc, hvc, heq⟩ := Option.map_eq_some_iff.mp h
      obtain ⟨rfl, rfl, rfl⟩ : g = g' ∧ x = x' ∧ [vc.sendPressed text] = ws := by simpa using heq
      obtain ⟨hvcuid, hmember⟩ := hx.chat vc (List.mem_of_getElem? hvc)
      have hw : HistoryWrite v (vc.sendPressed text) :=
        hmember.imp fun c hc => hc.imp_right fun hu => hvcuid ▸ hu
      have hissued : ∀ id, (vc.sendPressed text).newID = some id → id ∈ g := by
        simp [ChatViewController.sendPressed, ConvWrite.newID]
      exact ⟨List.Subset.refl g, ⟨⟨hw, hissued⟩, trivial⟩, hx.mono hw.usersLe⟩

/-- The new ids of an action are new, and issued by it. -/
lemma act_newID {f : String → String → Bool} {u : String} {g g' : List String} {x x' : Screens}
    {v : Collection String Conversation} {a : Action} {ws : List ConvWrite}
    (h : act f u g x v a = some (g', x', ws)) :
    (∀ id ∈ g, id ∈ g') ∧ ∀ w ∈ ws, ∀ id, w.newID = some id → id ∉ g ∧ id ∈ g' := by
  rcases act_cases h with ⟨rfl, rfl, -⟩ | ⟨page, text, newID, p, -, -, hnew, rfl, rfl⟩ |
    ⟨page, text, vc, -, -, rfl, rfl⟩
  · exact ⟨fun _ hid => hid, by simp⟩
  · refine ⟨fun id hid => List.mem_cons_of_mem newID hid, fun w hw id hid => ?_⟩
    rw [List.mem_singleton.mp hw] at hid
    rw [newID_sendPressed hid]
    exact ⟨hnew, List.mem_cons_self⟩
  · refine ⟨fun _ hid => hid, fun w hw id hid => ?_⟩
    rw [List.mem_singleton.mp hw] at hid
    exact absurd hid (by simp [ChatViewController.sendPressed, ConvWrite.newID])

/-! ### The discipline -/

/-- Conversations being added have ids of their own. -/
def OwnIDs (s : Chats C) : Prop := App.OwnKeys ConvWrite.newID (fun g id => id ∈ g) s

lemma FitWrite.storedIDs {g : List String} {cs : Collection String Conversation} {w : ConvWrite}
    (hw : FitWrite g cs w) (h : StoredIDs g cs) : StoredIDs g (w.apply cs) := by
  intro id hid
  by_contra hg
  have hnone : cs.lookup id = none := not_not.mp fun hne => hg (h id hne)
  refine hid (lookup_apply_eq_none (fun c heq => hg (hw.2 id ?_)) hnone)
  rw [heq, ConvWrite.newID]

variable (uid ascending)

/-- What the stored conversations, the queued writes and the pages have to
meet. -/
def history : Discipline (chats uid ascending) where
  StoreOk g cs := AllWellFormed cs ∧ StoredIDs g cs
  WriteOk := FitWrite
  ScreenOk c _ cs x := OwnPages (uid c) cs x
  Grow g g' := g ⊆ g'
  Rely _ := HistoryRely
  Side := OwnIDs
  Refusable _ _ := False
  grow_store _ _ _ hg h := ⟨h.1, fun id hid => hg (h.2 id hid)⟩
  grow_write _ _ _ _ hg h := ⟨h.1, fun id hid => hg (h.2 id hid)⟩
  grow_screen _ _ _ _ _ _ h := h
  apply _ _ _ h hw := ⟨h.1.apply hw.1, hw.storedIDs h.2⟩
  rely_cons _ _ _ _ _ _ hR hw := ⟨⟨(hR.cons hw.1).1, hw.2⟩, (hR.cons hw.1).2⟩
  rely_nil _ _ _ _ _ hR h := h.mono hR.users
  act _ _ _ _ _ _ _ _ hv hx h := act_history hv.2 hx h
  commit s c c' w q hside hq hw hc := by
    refine ⟨hw.1.usersLe, fun id convo hmem hnone => ?_⟩
    refine lookup_apply_eq_none (fun convo' heq => hc ?_) hnone
    subst heq
    exact hside.one c' c _ _ id hmem (by rw [hq]; exact List.mem_cons_self) rfl rfl
  refuse _ _ _ _ _ _ h := absurd h id

/-- What holds in every reachable state. -/
structure HistoryInv (s : Chats C) : Prop where
  ownIDs : OwnIDs s
  inv : (history uid ascending).Inv s

variable {uid ascending}

lemma historyInv_start : HistoryInv uid ascending start := by
  refine ⟨App.ownKeys_of_queue_eq_nil fun _ => rfl, ⟨allDocs_empty _, ?_⟩, fun _ => trivial,
    fun c => ?_⟩
  · simp [StoredIDs, start]
  · exact ⟨by simp [start], by simp [start]⟩

variable [DecidableEq C]

lemma HistoryInv.step {s s' : Chats C} {e : Event C Action} (hs : HistoryInv uid ascending s)
    (h : (chats uid ascending).step s e = some s') : HistoryInv uid ascending s' :=
  ⟨App.ownKeys_step (fun _ _ _ _ _ _ _ _ hact => (act_newID hact).1)
    (fun _ _ _ _ _ _ _ _ hact => (act_newID hact).2) hs.ownIDs h,
    Discipline.inv_step hs.ownIDs hs.inv h⟩

lemma historyInv_exec {es : List (Event C Action)} {s : Chats C}
    (h : exec (chats uid ascending).step start es = some s) : HistoryInv uid ascending s :=
  exec_invariant (fun _ _ _ hs hstep => hs.step hstep) historyInv_start h

/-- A step leaves the users of a stored conversation, and its messages in
place. -/
lemma HistoryInv.extends {s s' : Chats C} {e : Event C Action} (hs : HistoryInv uid ascending s)
    (h : (chats uid ascending).step s e = some s') {id : String} {c : Conversation}
    (hc : s.store.lookup id = some c) :
    ∃ c', s'.store.lookup id = some c' ∧ c'.user1ID = c.user1ID ∧ c'.user2ID = c.user2ID ∧
      c.messages <+: c'.messages := by
  cases e with
  | act d a =>
      obtain ⟨g, x, ws, -, rfl⟩ := App.step_act_eq_some.mp h
      exact ⟨c, hc, rfl, rfl, List.prefix_rfl⟩
  | commit d =>
      obtain ⟨w, q, hq, rfl⟩ := App.step_commit_eq_some.mp h
      have hw := hs.inv.queue d
      rw [hq] at hw
      exact hw.1.1.extends hc

/-! ### The list of conversations -/

variable (uid ascending) in
/-- A list of conversations of the user of `c`, opened in some state and filled
by the answers to its two queries, each served in some state from the view of
the device, whole or in part. -/
inductive Loaded (c : C) : MessagesViewController → Prop
  | viewDidLoad : Loaded c { uid := uid c }
  | answer1 (vc : MessagesViewController) (docs : List (String × Conversation))
      (es : List (Event C Action)) (s : Chats C) : Loaded c vc →
      exec (chats uid ascending).step start es = some s →
      docs.Sublist (vc.query1 ((chats uid ascending).view s c)) →
      Loaded c (vc.appendConversations docs)
  | answer2 (vc : MessagesViewController) (docs : List (String × Conversation))
      (es : List (Event C Action)) (s : Chats C) : Loaded c vc →
      exec (chats uid ascending).step start es = some s →
      docs.Sublist (vc.query2 ((chats uid ascending).view s c)) →
      Loaded c (vc.appendConversations docs)

/-- What a device sees is well formed. -/
lemma wellFormed_of_view {s : Chats C} {es : List (Event C Action)}
    (h : exec (chats uid ascending).step start es = some s) {c : C} {d : String × Conversation}
    (hd : d ∈ documents ((chats uid ascending).view s c)) : WellFormed d.2 :=
  ((historyInv_exec h).inv.view c).1 d.1 d.2 (mem_documents.mp hd)

/-- Every conversation listed has a message. -/
lemma Loaded.nonempty {c : C} {vc : MessagesViewController} (h : Loaded uid ascending c vc) :
    ∀ d ∈ vc.conversations, d.2.messages ≠ [] := by
  have hserved : ∀ {es s} (vc : MessagesViewController) (docs : List (String × Conversation))
      (p : String × Conversation → Bool), exec (chats uid ascending).step start es = some s →
      docs.Sublist ((documents ((chats uid ascending).view s c)).filter p) →
      (∀ d ∈ vc.conversations, d.2.messages ≠ []) →
      ∀ d ∈ (vc.appendConversations docs).conversations, d.2.messages ≠ [] := by
    intro es s vc docs p hrun hdocs hvc d hd
    rcases List.mem_append.mp hd with hd | hd
    · exact hvc d hd
    · exact (wellFormed_of_view hrun (List.mem_filter.mp (hdocs.subset hd)).1).nonempty
  induction h with
  | viewDidLoad => simp
  | answer1 vc docs es s _ hrun hdocs ih => exact hserved vc docs _ hrun hdocs ih
  | answer2 vc docs es s _ hrun hdocs ih => exact hserved vc docs _ hrun hdocs ih

/-- **History of a conversation**: in every reachable state every stored
conversation has a message, and only messages of its two users; every event
leaves its messages in place; and no cell of a list of conversations traps. -/
theorem conversation_history :
    (∀ (es : List (Event C Action)) (s : Chats C),
      exec (chats uid ascending).step start es = some s →
      ∀ id c, s.store.lookup id = some c →
        (c.messages ≠ [] ∧ ∀ m ∈ c.messages, m.sender = c.user1ID ∨ m.sender = c.user2ID) ∧
        ∀ e s', (chats uid ascending).step s e = some s' →
          ∃ c', s'.store.lookup id = some c' ∧ c.messages <+: c'.messages) ∧
    (∀ (c : C) (vc : MessagesViewController), Loaded uid ascending c vc →
      ∀ row < vc.numberOfItems, (vc.cellForItemAt row).isSome) := by
  refine ⟨fun es s h id c hc => ?_, fun c vc hvc row hrow => ?_⟩
  · have hs := historyInv_exec h
    have hwell := hs.inv.store.1 id c hc
    refine ⟨⟨hwell.nonempty, hwell.senders⟩, fun e s' he => ?_⟩
    obtain ⟨c', hc', -, -, hprefix⟩ := hs.extends he hc
    exact ⟨c', hc', hprefix⟩
  · exact cellForItemAt_isSome hvc.nonempty hrow

/-- The list of Bob, opened after Ann's first message. -/
def bobsList : MessagesViewController where
  uid := "bob"
  conversations := [("c1", {
    user1ID := "ann", user2ID := "bob", messages := [{ body := "hello", sender := "ann" }] })]

/-- Ann's message is shown to Bob. -/
theorem conversation_history_opening : ∃ s c,
    exec (chats users alphabetical).step start opening = some s ∧
    s.store.lookup "c1" = some c ∧
    (c.messages ≠ [] ∧ ∀ m ∈ c.messages, m.sender = c.user1ID ∨ m.sender = c.user2ID) ∧
    Loaded users alphabetical .bobs bobsList ∧ 0 < bobsList.numberOfItems ∧
    (bobsList.cellForItemAt 0).isSome := by
  have hrun : (exec (chats users alphabetical).step start opening).map
      (fun s => ((s.store.lookup "c1").isSome,
        decide (MessagesViewController.query2 { uid := "bob" }
          ((chats users alphabetical).view s .bobs) = bobsList.conversations))) =
      some (true, true) := by decide +kernel
  obtain ⟨s, hs, hboth⟩ := Option.map_eq_some_iff.mp hrun
  obtain ⟨hsome, hquery⟩ := Prod.mk.inj hboth
  obtain ⟨c, hc⟩ := Option.isSome_iff_exists.mp hsome
  have hdocs : bobsList.conversations.Sublist (MessagesViewController.query2 { uid := "bob" }
      ((chats users alphabetical).view s .bobs)) := by
    rw [of_decide_eq_true hquery]
  have hloaded : Loaded users alphabetical .bobs bobsList :=
    .answer2 { uid := "bob" } bobsList.conversations opening s .viewDidLoad hs hdocs
  exact ⟨s, c, hs, hc, (conversation_history.1 opening s hs "c1" c hc).1, hloaded, by decide,
    (conversation_history (C := Device)).2 .bobs bobsList hloaded 0 (by decide)⟩

end Tasker.Messages
