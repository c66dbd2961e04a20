import Tasker.Lib.ArrayUnion
import Tasker.Models

/-!
The screens that send messages, and their writes to the collection
`conversations`.

* `ConvWrite`: adding a conversation, or adding a message to one with
  `FieldValue.arrayUnion`, which leaves out a message equal to one that is there.
* `NewMessageViewController`: it looks for the conversation of its two users,
  sorted by the comparison of the device, when it opens; it sends to the
  conversation found by then and creates one otherwise.
* `ChatViewController`: it sends to the conversation it was opened with.
* `MessagesViewController`: the list of the user's conversations; a cell shows
  the last message of one (`cellForItemAt_isSome`).
-/

namespace Tasker

open DocStore ArrayUnion

/-- One write of one conversation. -/
inductive ConvWrite where
  /-- `addDocument`, under the id generated for it. -/
  | add (id : String) (convo : Conversation)
  /-- `updateData` of `messages` with `arrayUnion`. -/
  | union (id : String) (newMessage : Message)
  deriving DecidableEq, Repr

/-- The id of the conversation written. -/
def ConvWrite.id : ConvWrite → String
  | .add id _ => id
  | .union id _ => id

/-- The id of a conversation added. -/
def ConvWrite.newID : ConvWrite → Option String
  | .add id _ => some id
  | .union _ _ => none

/-- The conversation after `arrayUnion` of one message. -/
def Conversation.receive (c : Conversation) (m : Message) : Conversation :=
  { c with messages := arrayUnion [m] c.messages }

/-- The conversations after a write is committed; updating a missing document
fails. -/
def ConvWrite.apply : ConvWrite → Collection String Conversation →
    Collection String Conversation
  | .add id convo, cs => setData cs id convo
  | .union id m, cs =>
      match cs.lookup id with
      | some c => setData cs id (c.receive m)
      | none => cs

/-- What a key holds after a message is added. -/
lemma lookup_union (cs : Collection String Conversation) (id id' : String) (m : Message) :
    ((ConvWrite.union id m).apply cs).lookup id' =
      if id' = id then (cs.lookup id).map (·.receive m) else cs.lookup id' := by
  cases h : cs.lookup id with
  | none =>
      simp only [ConvWrite.apply, h]
      split
      · next hid => rw [hid]; exact h
      · rfl
  | some c =>
      simp only [ConvWrite.apply, h, Option.map_some]
      exact lookup_setData cs id id' _

lemma lookup_add (cs : Collection String Conversation) (id id' : String) (c : Conversation) :
    ((ConvWrite.add id c).apply cs).lookup id' = if id' = id then some c else cs.lookup id' :=
  lookup_setData cs id id' c

/-- `NewMessageViewController` of the signed-in user `uid`. -/
structure NewMessageViewController where
  uid : String
  sendToID : String
  docID : String := ""
  usersSorted : List String := [""]
  deriving DecidableEq, Repr

namespace NewMessageViewController

/-- `sorted { $0.localizedCompare($1) == .orderedAscending }`, stable;
`ascending` is the comparison on the device. -/
def sorted (ascending : String → String → Bool) (users : List String) : List String :=
  users.insertionSort fun a b => ascending b a = false

/-- `viewDidLoad`, up to the query. -/
def viewDidLoad (ascending : String → String → Bool) (uid sendToID : String) :
    NewMessageViewController where
  uid := uid
  sendToID := sendToID
  usersSorted := sorted ascending [uid, sendToID]

/-- `usersSorted[0]` and `usersSorted[1]`. -/
def user1ID (vc : NewMessageViewController) : String := vc.usersSorted.getD 0 ""

def user2ID (vc : NewMessageViewController) : String := vc.usersSorted.getD 1 ""

/-- The query: the ids of the conversations of the two users, in the order of
the ids. -/
def query (vc : NewMessageViewController) (cs : Collection String Conversation) : List String :=
  (((documents cs).filter fun d => d.2.user1ID = vc.user1ID ∧ d.2.user2ID = vc.user2ID).map
    Prod.fst).insertionSort (· ≤ ·)

/-- The callback of the query: the last id is kept. -/
def found (vc : NewMessageViewController) (ids : List String) : NewMessageViewController :=
  { vc with docID := ids.getLast?.getD vc.docID }

/-- `sendPressed` with the text of the field and the id `addDocument`
generates. -/
def sendPressed (vc : NewMessageViewController) (messageToSend newID : String) : ConvWrite :=
  if vc.docID = "" then
    .add newID {
      user1ID := vc.user1ID, user2ID := vc.user2ID
      messages := [{ body := messageToSend, sender := vc.uid }] }
  else .union vc.docID { body := messageToSend, sender := vc.uid }

/-- The sort is stable: the first user stays first unless the other one comes
strictly before them. -/
lemma sorted_pair (ascending : String → String → Bool) (a b : String) :
    sorted ascending [a, b] = if ascending b a = true then [b, a] else [a, b] := by
  split
  · next hlt => simp [sorted, hlt]
  · next hlt => simp [sorted, hlt]

end NewMessageViewController

/-- `ChatViewController` of the signed-in user `uid`, with the id of its
conversation. -/
structure ChatViewController where
  uid : String
  docID : String
  deriving DecidableEq, Repr

/-- `sendPressed` with the text of the field. -/
def ChatViewController.sendPressed (vc : ChatViewController) (text : String) : ConvWrite :=
  .union vc.docID { body := text, sender := vc.uid }

/-- `MessagesViewController` of the signed-in user `uid`, with the conversations
loaded and their ids. -/
structure MessagesViewController where
  uid : String
  conversations : List (String × Conversation) := []
  deriving DecidableEq, Repr

/-- `MessageViewCell`. -/
structure MessageViewCell where
  avatarHidden : Bool
  lbMessageHidden : Bool
  lbName : String
  lbMessage : Option String := none
  deriving DecidableEq, Repr

/-- The subscript of an array; an index out of range traps. -/
def subscript {α : Type*} (xs : List α) (i : ℤ) : Option α :=
  if i < 0 then none else xs[i.toNat]?

namespace MessagesViewController

/-- The first query of `viewDidLoad`. -/
def query1 (vc : MessagesViewController) (cs : Collection String Conversation) :
    List (String × Conversation) :=
  (documents cs).filter fun d => d.2.user1ID = vc.uid

/-- The second one. -/
def query2 (vc : MessagesViewController) (cs : Collection String Conversation) :
    List (String × Conversation) :=
  (documents cs).filter fun d => d.2.user2ID = vc.uid

/-- The callback of either query. -/
def appendConversations (vc : MessagesViewController) (docs : List (String × Conversation)) :
    MessagesViewController :=
  { vc with conversations := vc.conversations ++ docs }

/-- `collectionView(numberOfItemsInSection:)`. -/
def numberOfItems (vc : MessagesViewController) : ℕ :=
  if vc.conversations.length > 0 then vc.conversations.length else 1

/-- `collectionView(cellForItemAt:)`. -/
def cellForItemAt (vc : MessagesViewController) (row : ℕ) : Option MessageViewCell :=
  if vc.conversations.length > 0 then
    (subscript vc.conversations row).bind fun convo =>
      (subscript convo.2.messages (convo.2.messages.length - 1)).map fun message => {
        avatarHidden := false
        lbMessageHidden := false
        lbName := "Name will go here"
        lbMessage := some message.body }
  else some { avatarHidden := true, lbMessageHidden := true, lbName := "No Messages" }

end MessagesViewController

/-- The last message of a conversation that has one. -/
lemma subscript_last {α : Type*} {xs : List α} (h : xs ≠ []) :
    (subscript xs (xs.length - 1)).isSome := by
  have hpos : 0 < xs.length := List.length_pos_iff.mpr h
  have hindex : ((xs.length : ℤ) - 1).toNat = xs.length - 1 := by omega
  rw [subscript, if_neg (by omega), hindex, List.getElem?_eq_getElem (by omega)]
  rfl

/-- If every conversation loaded has a message, no cell traps. -/
lemma cellForItemAt_isSome {vc : MessagesViewController} {row : ℕ}
    (h : ∀ d ∈ vc.conversations, d.2.messages ≠ []) (hrow : row < vc.numberOfItems) :
    (vc.cellForItemAt row).isSome := by
  rw [MessagesViewController.cellForItemAt]
  split
  · next hpos =>
      rw [MessagesViewController.numberOfItems, if_pos hpos] at hrow
      have hconvo : subscript vc.conversations row = some vc.conversations[row] := by
        rw [subscript, if_neg (by omega), Int.toNat_natCast, List.getElem?_eq_getElem hrow]
      rw [hconvo, Option.bind_some, Option.isSome_map]
      exact subscript_last (h _ (List.getElem_mem hrow))
  · rfl

end Tasker
