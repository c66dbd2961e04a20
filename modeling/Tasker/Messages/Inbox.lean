import Tasker.Lib.MainQueue
import Tasker.Screens.Messages

/-!
The list of conversations from its opening on.

* `ConvDoc`: a stored document of the collection `conversations`, every field of
  which may be absent; `ConvDoc.decode`.
* `Query`, `query`, `loaded`: the two queries, and the conversations a query
  brings, none if it fails.
* `inbox`: the handlers of the page. Both callbacks append to the same array, and
  only the second one queues a reload.
* `Run`, `run_of_exec`: the runs of the page, by the order of what happens.
* `showsAll_iff`: when all is done every conversation is there once and shown, if
  and only if no conversation comes from both queries, and the first query brings
  none or the reload comes last.
-/

namespace Tasker

open DocStore EventSystem

/-- A stored message. -/
structure MessageDoc where
  body : Option String := none
  sender : Option String := none
  deriving DecidableEq, Repr

/-- A stored document of the collection `conversations`. -/
structure ConvDoc where
  user1ID : Option String := none
  user2ID : Option String := none
  messages : Option (List MessageDoc) := none
  deriving DecidableEq, Repr

def MessageDoc.decode (d : MessageDoc) : Option Message :=
  match d.body, d.sender with
  | some body, some sender => some { body, sender }
  | _, _ => none

/-- `data(as: Conversation.self)`: decoding fails without a user or a message, or
if a message does not decode. -/
def ConvDoc.decode (d : ConvDoc) : Option Conversation :=
  match d.user1ID, d.user2ID, d.messages.bind fun ms => ms.mapM MessageDoc.decode with
  | some user1ID, some user2ID, some messages => some { user1ID, user2ID, messages }
  | _, _, _ => none

namespace Inbox

/-- The queries of `MessagesViewController.viewDidLoad`. -/
inductive Query where
  | user1
  | user2
  deriving DecidableEq, Repr

/-- The documents with the user in one of the two fields. -/
def query (uid : String) (cs : Collection String ConvDoc) : Query → List (String × ConvDoc)
  | .user1 => (documents cs).filter fun d => d.2.user1ID = some uid
  | .user2 => (documents cs).filter fun d => d.2.user2ID = some uid

/-- The documents that decode. -/
def decodable (docs : List (String × ConvDoc)) : List (String × Conversation) :=
  docs.filterMap fun d => d.2.decode.map (d.1, ·)

/-- `MessagesViewController` with the conversations its collection view has been
loaded with. -/
structure Page extends MessagesViewController where
  shown : List (String × Conversation) := []
  deriving DecidableEq, Repr

/-- The callback of a query that succeeds or not; the second one queues
`reloadData`. -/
def callback (cs : Collection String ConvDoc) (succeeds : Query → Bool) (vc : Page) (q : Query) :
    MainQueue.State Page Query Unit :=
  if succeeds q then
    { page := { vc with toMessagesViewController :=
        vc.appendConversations (decodable (query vc.uid cs q)) }
      blocks := if q = .user2 then [()] else [] }
  else { page := vc }

/-- The handlers of the page; its user does nothing. -/
def inbox (cs : Collection String ConvDoc) (succeeds : Query → Bool) :
    MainQueue.Handlers Page Query Unit Empty Unit where
  act _ a := a.elim
  callback vc q _ := some (callback cs succeeds vc q)
  block vc _ := some { page := { vc with shown := vc.conversations } }

/-- `viewDidLoad` of the signed-in user `uid`. -/
def opened (uid : String) : MainQueue.State Page Query Unit where
  page := { uid := uid }
  requests := [.user1, .user2]

/-- What happens on the page. -/
abbrev Event := MainQueue.Event Query Empty Unit

/-- The answer to a query. -/
abbrev answer (q : Query) : Event := .answer q ()

variable (uid : String) (cs : Collection String ConvDoc) (succeeds : Query → Bool)

/-- The conversations a query brings. -/
def loaded (q : Query) : List (String × Conversation) :=
  if succeeds q then decodable (query uid cs q) else []

/-- The reload queued by the second query. -/
def reload : List Unit := if succeeds .user2 then [()] else []

/-- The page with these conversations, of which these are shown. -/
def page (conversations shown : List (String × Conversation)) : Page where
  uid := uid
  conversations := conversations
  shown := shown

/-! ### The runs of the page -/

/-- The runs of the page with the states they lead to, `a` and `b` being what the
two queries bring. -/
inductive Run (a b : List (String × Conversation)) :
    List Event → MainQueue.State Page Query Unit → Prop where
  | opened : Run a b [] { page := page uid [] [], requests := [.user1, .user2] }
  | user1 : Run a b [answer .user1] { page := page uid a [], requests := [.user2] }
  | user2 : Run a b [answer .user2]
      { page := page uid b [], requests := [.user1], blocks := reload succeeds }
  | user1_user2 : Run a b [answer .user1, answer .user2]
      { page := page uid (a ++ b) [], blocks := reload succeeds }
  | user2_user1 : Run a b [answer .user2, answer .user1]
      { page := page uid (b ++ a) [], blocks := reload succeeds }
  | user2_reload : succeeds .user2 = true → Run a b [answer .user2, .block]
      { page := page uid b b, requests := [.user1] }
  | user2_reload_user1 : succeeds .user2 = true →
      Run a b [answer .user2, .block, answer .user1] { page := page uid (b ++ a) b }
  | user1_user2_reload : succeeds .user2 = true →
      Run a b [answer .user1, answer .user2, .block] { page := page uid (a ++ b) (a ++ b) }
  | user2_user1_reload : succeeds .user2 = true →
      Run a b [answer .user2, answer .user1, .block] { page := page uid (b ++ a) (b ++ a) }

variable {uid cs succeeds} {s t : MainQueue.State Page Query Unit} {es : List Event}

/-- What a callback does. -/
lemma callback_page (l shown : List (String × Conversation)) (q : Query) :
    callback cs succeeds (page uid l shown) q =
      { page := page uid (l ++ loaded uid cs succeeds q) shown
        blocks := if q = .user2 then reload succeeds else [] } := by
  rw [callback, loaded, reload]
  split
  · next h =>
      cases q with
      | user1 => rfl
      | user2 => rw [h]; rfl
  · next h =>
      rw [List.append_nil]
      cases q with
      | user1 => rfl
      | user2 => rw [if_pos rfl, if_neg h]

/-- An answer, and the run of a block. -/
lemma inbox_answer {q : Query} {l shown : List (String × Conversation)} {requests : List Query}
    {blocks : List Unit}
    (h : MainQueue.step (inbox cs succeeds) ⟨page uid l shown, requests, blocks⟩ (answer q) =
      some t) :
    q ∈ requests ∧ t = ⟨page uid (l ++ loaded uid cs succeeds q) shown, requests.erase q,
      blocks ++ if q = .user2 then reload succeeds else []⟩ := by
  obtain ⟨hq, t', ht', rfl⟩ := MainQueue.step_answer.mp h
  obtain rfl := Option.some.inj ht'
  refine ⟨hq, ?_⟩
  rw [callback_page, MainQueue.State.andThen, List.append_nil]

lemma inbox_block {l shown : List (String × Conversation)} {requests : List Query}
    {blocks : List Unit}
    (h : MainQueue.step (inbox cs succeeds) ⟨page uid l shown, requests, blocks⟩ .block = some t) :
    ∃ b bs, blocks = b :: bs ∧ t = ⟨page uid l l, requests, bs⟩ := by
  obtain ⟨b, bs, t', hb, ht', rfl⟩ := MainQueue.step_block.mp h
  obtain rfl := Option.some.inj ht'
  refine ⟨b, bs, hb, ?_⟩
  rw [MainQueue.State.andThen, List.append_nil, List.append_nil]
  rfl

/-- The reload of a query that succeeds. -/
lemma of_reload {b : Unit} {bs : List Unit} (h : reload succeeds = b :: bs) :
    succeeds .user2 = true ∧ bs = [] := by
  rw [reload] at h
  split at h
  · next hok => exact ⟨hok, (List.cons.inj h).2.symm⟩
  · exact absurd h (by simp)

/-- One event. -/
lemma Run.step {e : Event}
    (h : Run uid succeeds (loaded uid cs succeeds .user1) (loaded uid cs succeeds .user2) es t)
    (hs : MainQueue.step (inbox cs succeeds) t e = some s) :
    Run uid succeeds (loaded uid cs succeeds .user1) (loaded uid cs succeeds .user2)
      (es ++ [e]) s := by
  cases e with
  | act a => exact a.elim
  | answer q _ =>
      cases h with
      | opened =>
          obtain ⟨-, rfl⟩ := inbox_answer hs
          cases q with
          | user1 => exact .user1
          | user2 => exact .user2
      | user1 =>
          obtain ⟨hq, rfl⟩ := inbox_answer hs
          obtain rfl := List.mem_singleton.mp hq
          exact .user1_user2
      | user2 =>
          obtain ⟨hq, rfl⟩ := inbox_answer hs
          obtain rfl := List.mem_singleton.mp hq
          simpa using Run.user2_user1
      | user2_reload hok =>
          obtain ⟨hq, rfl⟩ := inbox_answer hs
          obtain rfl := List.mem_singleton.mp hq
          exact .user2_reload_user1 hok
      | _ => exact absurd (inbox_answer hs).1 (by simp)
  | block =>
      cases h with
      | user2 =>
          obtain ⟨b, bs, hb, rfl⟩ := inbox_block hs
          obtain ⟨hok, rfl⟩ := of_reload hb
          exact .user2_reload hok
      | user1_user2 =>
          obtain ⟨b, bs, hb, rfl⟩ := inbox_block hs
          obtain ⟨hok, rfl⟩ := of_reload hb
          exact .user1_user2_reload hok
      | user2_user1 =>
          obtain ⟨b, bs, hb, rfl⟩ := inbox_block hs
          obtain ⟨hok, rfl⟩ := of_reload hb
          exact .user2_user1_reload hok
      | _ =>
          obtain ⟨b, bs, hb, -⟩ := inbox_block hs
          exact absurd hb (by simp)

/-- Every run. -/
lemma run_of_exec (h : exec (MainQueue.step (inbox cs succeeds)) (opened uid) es = some s) :
    Run uid succeeds (loaded uid cs succeeds .user1) (loaded uid cs succeeds .user2) es s :=
  exec_history .opened (fun _ _ _ _ hrun hs => hrun.step hs) h

/-! ### What is shown at the end -/

variable (uid cs succeeds) in
/-- Every conversation that a query has brought is there once, and the collection
view has been loaded with what is there. -/
structure ShowsAll (vc : Page) : Prop where
  once : ∀ q, ∀ d ∈ loaded uid cs succeeds q, vc.conversations.count d = 1
  shown : vc.shown = vc.conversations

/-- A query brings no conversation twice. -/
lemma nodup_loaded (q : Query) : (loaded uid cs succeeds q).Nodup := by
  rw [loaded]
  split
  · refine List.Nodup.of_map Prod.fst (nodup_filterMap (fun d d' hd => ?_) ?_)
    · obtain ⟨c, -, rfl⟩ := Option.map_eq_some_iff.mp hd
      rfl
    · have hquery : (query uid cs q).Sublist (documents cs) := by
        cases q with
        | user1 => exact List.filter_sublist
        | user2 => exact List.filter_sublist
      exact (nodup_documents cs).sublist (hquery.map Prod.fst)
  · exact List.nodup_nil

/-- Everything is there once exactly if the queries have nothing in common. -/
lemma once_iff {l : List (String × Conversation)}
    (h : l.Perm (loaded uid cs succeeds .user1 ++ loaded uid cs succeeds .user2)) :
    (∀ q, ∀ d ∈ loaded uid cs succeeds q, l.count d = 1) ↔
      ∀ d ∈ loaded uid cs succeeds .user1, d ∉ loaded uid cs succeeds .user2 := by
  constructor
  · intro honce d hd hd'
    have hcount := honce .user1 d hd
    rw [h.count_eq, List.count_append, List.count_eq_one_of_mem (nodup_loaded _) hd,
      List.count_eq_one_of_mem (nodup_loaded _) hd'] at hcount
    omega
  · intro hdisjoint q d hd
    rw [h.count_eq, List.count_append]
    cases q with
    | user1 =>
        rw [List.count_eq_one_of_mem (nodup_loaded _) hd,
          List.count_eq_zero_of_not_mem (hdisjoint d hd)]
    | user2 =>
        rw [List.count_eq_one_of_mem (nodup_loaded _) hd,
          List.count_eq_zero_of_not_mem fun hd' => hdisjoint d hd' hd]

/-- **The inbox**: when both queries have been answered and every reload has run,
every conversation is there once and shown, if and only if no conversation comes
from both queries, and the first query brings none, or the second one succeeds
and its reload is what happens last. -/
theorem showsAll_iff (h : exec (MainQueue.step (inbox cs succeeds)) (opened uid) es = some s)
    (hidle : s.Idle) :
    ShowsAll uid cs succeeds s.page ↔
      (∀ d ∈ loaded uid cs succeeds .user1, d ∉ loaded uid cs succeeds .user2) ∧
        (loaded uid cs succeeds .user1 = [] ∨
          succeeds .user2 = true ∧ es.getLast? = some .block) := by
  have hshows : ∀ {vc : Page} {C : Prop},
      vc.conversations.Perm (loaded uid cs succeeds .user1 ++ loaded uid cs succeeds .user2) →
      (vc.shown = vc.conversations ↔ C) → (ShowsAll uid cs succeeds vc ↔
        (∀ d ∈ loaded uid cs succeeds .user1, d ∉ loaded uid cs succeeds .user2) ∧ C) := by
    intro vc C hperm hshown
    rw [← once_iff hperm, ← hshown]
    exact ⟨fun h => ⟨h.1, h.2⟩, fun h => ⟨h.1, h.2⟩⟩
  have hfails : reload succeeds = [] →
      succeeds .user2 = false ∧ loaded uid cs succeeds .user2 = [] := by
    intro hreload
    rw [reload] at hreload
    split at hreload
    · exact absurd hreload (by simp)
    · next hno => exact ⟨Bool.eq_false_of_not_eq_true hno, by rw [loaded, if_neg hno]⟩
  cases run_of_exec h with
  | opened => exact absurd hidle.1 (by simp)
  | user1 => exact absurd hidle.1 (by simp)
  | user2 => exact absurd hidle.1 (by simp)
  | user2_reload => exact absurd hidle.1 (by simp)
  | user1_user2 =>
      obtain ⟨hno, hnil⟩ := hfails hidle.2
      refine hshows (List.Perm.refl _) ?_
      rw [or_iff_left (by simp [hno]), hnil, List.append_nil]
      exact eq_comm
  | user2_user1 =>
      obtain ⟨hno, hnil⟩ := hfails hidle.2
      refine hshows List.perm_append_comm ?_
      rw [or_iff_left (by simp [hno]), hnil, List.nil_append]
      exact eq_comm
  | user2_reload_user1 hok =>
      -- the reload has shown what the second query brought, and nothing more
      refine hshows List.perm_append_comm ?_
      simp [page]
  | user1_user2_reload hok =>
      exact hshows (List.Perm.refl _) (iff_of_true rfl (Or.inr ⟨hok, rfl⟩))
  | user2_user1_reload hok =>
      exact hshows List.perm_append_comm (iff_of_true rfl (Or.inr ⟨hok, rfl⟩))

/-! ### Ann's conversations -/

/-- A conversation of Ann and Bob, and one of Ann with herself, who wrote to the
poster of her own task. -/
def anns : Collection String ConvDoc :=
  setData (setData ∅ "c1" {
    user1ID := some "ann", user2ID := some "bob"
    messages := some [{ body := some "hello", sender := some "ann" }] })
    "c2" {
      user1ID := some "ann", user2ID := some "ann"
      messages := some [{ body := some "me", sender := some "ann" }] }

/-- Both queries succeed. -/
def both (_ : Query) : Bool := true

/-- The second query fails. -/
def onlyUser1 (q : Query) : Bool := q = .user1

theorem showsAll_iff_bobs : ∃ s,
    exec (MainQueue.step (inbox anns both)) (opened "bob")
      [answer .user1, answer .user2, .block] = some s ∧ s.Idle ∧
    (ShowsAll "bob" anns both s.page ↔
      (∀ d ∈ loaded "bob" anns both .user1, d ∉ loaded "bob" anns both .user2) ∧
        (loaded "bob" anns both .user1 = [] ∨ both .user2 = true ∧
          [answer .user1, answer .user2, .block].getLast? = some .block)) := by
  have hrun : exec (MainQueue.step (inbox anns both)) (opened "bob")
      [answer .user1, answer .user2, .block] = some _ := rfl
  exact ⟨_, hrun, ⟨rfl, rfl⟩, showsAll_iff hrun ⟨rfl, rfl⟩⟩

/-- If the second query fails, or is answered and shown before the first one,
Ann's conversation with Bob is not shown; and the one with herself is there
twice. -/
theorem anns_not_shown : ∃ s t,
    exec (MainQueue.step (inbox anns onlyUser1)) (opened "ann")
      [answer .user1, answer .user2] = some s ∧ s.Idle ∧
    s.page.shown = [] ∧ s.page.conversations ≠ [] ∧
    ¬ ShowsAll "ann" anns onlyUser1 s.page ∧
    exec (MainQueue.step (inbox anns both)) (opened "ann")
      [answer .user2, .block, answer .user1] = some t ∧ t.Idle ∧
    (t.page.shown.map Prod.fst, t.page.conversations.map Prod.fst) =
      (["c2"], ["c2", "c2", "c1"]) ∧
    ¬ ShowsAll "ann" anns both t.page := by
  refine ⟨_, _, rfl, ⟨rfl, rfl⟩, rfl, by decide, fun h => ?_, rfl, ⟨rfl, rfl⟩, rfl, fun h => ?_⟩
  · exact absurd h.shown (by decide)
  · exact absurd h.shown (by decide)

end Inbox

end Tasker
