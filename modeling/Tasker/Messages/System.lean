import Tasker.Lib.WriteQueue
import Tasker.Screens.Messages

/-!
The message screens on the devices of the users.

Every device is signed in to one account and compares strings its own way. It
reads `conversations` through its local view, and its writes are committed in
the order in which it issued them.

* `Action`, `act`: what can happen on a device, by the handlers of the screens.
  The answer to a lookup was served some time before it arrives, from the server
  or from the cache of the device, so that it may lack conversations added
  since; it may be an error, and Send may be pressed before it arrives.
* `chats`: the system of `WriteQueue` these actions make.
* `act_cases`: only Send issues a write.
-/

namespace Tasker.Messages

open DocStore EventSystem WriteQueue

/-- A page opened by `NewMessageViewController`: whether its lookup has been
answered, and whether it is dismissed. -/
structure NewPage where
  vc : NewMessageViewController
  answered : Bool := false
  dismissed : Bool := false
  deriving DecidableEq, Repr

/-- The open pages of a device. -/
structure Screens where
  new : List NewPage := []
  chat : List ChatViewController := []

/-- What can happen on a device. Pages are given by their positions. -/
inductive Action where
  /-- `NewMessageViewController.viewDidLoad`. -/
  | openNew (sendToID : String)
  /-- The answer to its lookup. -/
  | answer (page : ℕ) (ids : List String)
  /-- The lookup fails. -/
  | lookupError (page : ℕ)
  /-- `NewMessageViewController.sendPressed`, with the id `addDocument`
  generates if it adds one. -/
  | sendNew (page : ℕ) (messageToSend newID : String)
  /-- `MessagesViewController.collectionView(didSelectItemAt:)`. -/
  | openChat (id : String)
  /-- `ChatViewController.sendPressed`. -/
  | sendChat (page : ℕ) (text : String)
  deriving DecidableEq, Repr

/-- The effect of an action on the ids issued so far, the pages of a device
signed in as `uid`, and its writes. -/
def act (ascending : String → String → Bool) (uid : String) (issued : List String)
    (x : Screens) (view : Collection String Conversation) :
    Action → Option (List String × Screens × List ConvWrite)
  | .openNew sendToID =>
      some (issued, { x with
        new := x.new ++ [{ vc := .viewDidLoad ascending uid sendToID }] }, [])
  | .answer page ids =>
      x.new[page]?.bind fun p =>
        if p.answered = false ∧ ids.Sublist (p.vc.query view) then
          some (issued, { x with
            new := x.new.set page { p with vc := p.vc.found ids, answered := true } }, [])
        else none
  | .lookupError page =>
      x.new[page]?.bind fun p =>
        if p.answered = false then
          some (issued, { x with new := x.new.set page { p with answered := true } }, [])
        else none
  | .sendNew page messageToSend newID =>
      x.new[page]?.bind fun p =>
        if p.dismissed = false ∧ newID ∉ issued then
          some (newID :: issued, { x with new := x.new.set page { p with dismissed := true } },
            [p.vc.sendPressed messageToSend newID])
        else none
  | .openChat id =>
      (view.lookup id).bind fun convo =>
        if convo.user1ID = uid ∨ convo.user2ID = uid then
          some (issued, { x with chat := x.chat ++ [{ uid := uid, docID := id }] }, [])
        else none
  | .sendChat page text => x.chat[page]?.map fun vc => (issued, x, [vc.sendPressed text])

/-- The state of the system: the conversations, the queues and pages of the
devices, and the ids issued. -/
abbrev Chats (C : Type*) :=
  State C (Collection String Conversation) ConvWrite Screens (List String)

variable {C : Type*} (uid : C → String) (ascending : C → String → String → Bool)

/-- The message screens as a system of clients with write queues. -/
def chats : App C (Collection String Conversation) ConvWrite Screens (List String) Action where
  apply := ConvWrite.apply
  act c := act (ascending c) (uid c)

@[simp] lemma chats_apply (w : ConvWrite) (cs : Collection String Conversation) :
    (chats uid ascending).apply w cs = w.apply cs := rfl

@[simp] lemma chats_act (c : C) : (chats uid ascending).act c = act (ascending c) (uid c) := rfl

/-- No conversations, no pages. -/
def start : Chats C where
  store := ∅
  queue _ := []
  screen _ := {}
  shared := []

/-! ### Two devices -/

/-- Ann's device and Bob's. -/
inductive Device where
  | anns
  | bobs
  deriving DecidableEq, Repr

instance : Fintype Device where
  elems := {.anns, .bobs}
  complete c := by cases c <;> decide

def users : Device → String
  | .anns => "ann"
  | .bobs => "bob"

/-- Both devices compare strings alike. -/
def alphabetical (_ : Device) (a b : String) : Bool := decide (a < b)

/-- Ann writes to Bob for the first time. -/
def opening : List (Event Device Action) :=
  [.act .anns (.openNew "bob"), .act .anns (.answer 0 []),
    .act .anns (.sendNew 0 "hello" "c1"), .commit .anns]

/-! ### What an action issues -/

variable {uid ascending}

/-- An action issues no write, or it is Send pressed on a page. -/
lemma act_cases {f : String → String → Bool} {u : String} {g g' : List String} {x x' : Screens}
    {v : Collection String Conversation} {a : Action} {ws : List ConvWrite}
    (h : act f u g x v a = some (g', x', ws)) :
    (g' = g ∧ ws = [] ∧ ∀ page text newID, a ≠ .sendNew page text newID) ∨
    (∃ page text newID p, a = .sendNew page text newID ∧ x.new[page]? = some p ∧
      newID ∉ g ∧ g' = newID :: g ∧ ws = [p.vc.sendPressed text newID]) ∨
    (∃ page text vc, a = .sendChat page text ∧ x.chat[page]? = some vc ∧ g' = g ∧
      ws = [vc.sendPressed text]) := by
  cases a with
  | openNew sendToID =>
      obtain ⟨rfl, -, rfl⟩ : g = g' ∧ _ = x' ∧ [] = ws := by simpa [act] using h
      simp
  | answer page ids =>
      obtain ⟨p, -, hif⟩ := Option.bind_eq_some_iff.mp h
      obtain ⟨-, rfl, -, rfl⟩ : _ ∧ g = g' ∧ _ = x' ∧ [] = ws := by simpa using hif
      simp
  | lookupError page =>
      obtain ⟨p, -, hif⟩ := Option.bind_eq_some_iff.mp h
      obtain ⟨-, rfl, -, rfl⟩ : _ ∧ g = g' ∧ _ = x' ∧ [] = ws := by simpa using hif
      simp
  | sendNew page text newID =>
      obtain ⟨p, hp, hif⟩ := Option.bind_eq_some_iff.mp h
      obtain ⟨⟨-, hnew⟩, rfl, -, rfl⟩ : (_ ∧ newID ∉ g) ∧ newID :: g = g' ∧ _ = x' ∧
        [p.vc.sendPressed text newID] = ws := by simpa using hif
      exact Or.inr (Or.inl ⟨page, text, newID, p, rfl, hp, hnew, rfl, rfl⟩)
  | openChat id =>
      obtain ⟨convo, -, hif⟩ := Option.bind_eq_some_iff.mp h
      obtain ⟨-, rfl, -, rfl⟩ : _ ∧ g = g' ∧ _ = x' ∧ [] = ws := by simpa using hif
      simp
  | sendChat page text =>
      obtain ⟨vc, hvc, heq⟩ := Option.map_eq_some_iff.mp h
      obtain ⟨rfl, rfl, rfl⟩ : g = g' ∧ x = x' ∧ [vc.sendPressed text] = ws := by simpa using heq
      exact Or.inr (Or.inr ⟨page, text, vc, rfl, hvc, rfl, rfl⟩)

end Tasker.Messages
