import Tasker.Market.Device
import Tasker.Messages.System

/-!
The conversations on a device.

The screens of the chat add a conversation by `addDocument`, which encodes it, and send a
message by `updateData` with an array union of one dictionary.

* `Message.input`, `Conversation.input`: the dictionaries; `Message.value`: a message as
  the client of Firestore stores it.
* `applyUnion_value`: the union of the client is that of `Conversation.receive`.
* `ShowsConversations`: what the client shows are the conversations of a collection.
* `ConvWrite.call`: a write as the call of a screen; `shown_add`, `shown_union`: it does not
  throw, and afterwards the client shows what `ConvWrite.apply` makes of the conversations.
* `shows_issued`: so for the writes of a device one after the other.
-/

namespace Tasker

open ArrayUnion DocStore EventSystem Firestore Nested

/-! ### Messages as values -/

/-- The dictionary of a message. -/
def Message.input (m : Message) : UserValue :=
  .ofEntries [("body", .scalar (.string m.body)), ("sender", .scalar (.string m.sender))]
    (by simp)

lemma sorted_messageKeys : ["body", "sender"].Pairwise (· < ·) := by decide

/-- The fields of a message. -/
def Message.fields (m : Message) : ObjectValue :=
  SortedMap.ofEntries [("body", .string m.body), ("sender", .string m.sender)] sorted_messageKeys

/-- A message that is stored. -/
def Message.value (m : Message) : FieldValue := node m.fields

lemma Message.equals_value (m m' : Message) : m.value.equals m'.value = true ↔ m = m' := by
  obtain ⟨body, sender⟩ := m
  obtain ⟨body', sender'⟩ := m'
  simp [Message.value, Message.fields, node, SortedMap.ofEntries, FieldValue.equals, List.finRange]

/-- The union of the client of Firestore is that of the conversations. -/
lemma applyUnion_value (elements stored : List Message) :
    TransformOperation.applyUnion (elements.map Message.value)
        (some (FieldValue.fromArray (stored.map Message.value))) =
      FieldValue.fromArray ((arrayUnion elements stored).map Message.value) := by
  rw [TransformOperation.applyUnion, TransformOperation.coercedFieldValuesArray_fromArray,
    ArrayTransform.map_arrayUnion Message.equals_value]

/-- An element of an array, or of a union, is parsed to the message. -/
lemma Message.parse_input (m : Message) (databaseID : DatabaseId) (data_source : UserDataSource) :
    parseData databaseID m.input ⟨data_source, none, true⟩ = .ok ⟨some m.value, [], []⟩ := by
  have hparse : parseData databaseID m.input ⟨data_source, none, true⟩ =
      .ok ⟨some (node (collect [(["body"], ⟨some (.string m.body), [], []⟩),
        (["sender"], ⟨some (.string m.sender), [], []⟩)])), [], []⟩ := by
    have hbody : PlainName "body" := by decide
    have hsender : PlainName "sender" := by decide
    change parseDictionary _ [("body", parseData databaseID (.scalar (.string m.body))),
      ("sender", parseData databaseID (.scalar (.string m.sender)))] = _
    rw [parseDictionary, if_neg (by simp)]
    simp only [List.mapM_cons, List.mapM_nil, child_of_plainName hbody,
      child_of_plainName hsender]
    rfl
  have hfields : collect [(["body"], ⟨some (.string m.body), [], []⟩),
      (["sender"], ⟨some (.string m.sender), [], []⟩)] = m.fields := by
    refine SortedMap.entries_injective ?_
    have hlt : ¬ "sender" < "body" := by decide
    simp [collect, Nested.set, SortedMap.insert, SortedMap.insertEntry, hlt, SortedMap.empty,
      Message.fields]
  rw [hparse, hfields, Message.value]

/-! ### Conversations as documents -/

/-- The document of a conversation. -/
def conversationKey (id : String) : DocumentKey := ⟨["conversations", id], by simp⟩

lemma conversationKey_injective : Function.Injective conversationKey := by
  intro id id' h
  have hpath : ["conversations", id] = ["conversations", id'] := congrArg DocumentKey.path h
  simpa using hpath

/-- The dictionary of a conversation. -/
def Conversation.input (c : Conversation) : UserValue :=
  .ofEntries [("user1ID", .scalar (.string c.user1ID)), ("user2ID", .scalar (.string c.user2ID)),
    ("messages", .array c.messages.length fun i => (c.messages.get i).input)] (by simp)

/-- The keys of a document of `conversations`. -/
def Conversation.names : List String := ["user1ID", "user2ID", "messages"]

/-- The messages, in order. -/
def holdsMessages (ms : List Message) : Holds := fun v => v = .fromArray (ms.map Message.value)

/-- The fields of a document of `conversations`. -/
def Conversation.record (c : Conversation) : Record
  | "user1ID" => some (leafEntry holdsString c.user1ID)
  | "user2ID" => some (leafEntry holdsString c.user2ID)
  | "messages" => some (leafEntry holdsMessages c.messages)
  | _ => none

/-- The documents hold the conversations. -/
def ShowsConversations (docs : DocumentKey → Option ObjectValue)
    (cs : Collection String Conversation) : Prop :=
  ∀ id, ShowsDoc Conversation.names Conversation.record (docs (conversationKey id)) (cs.lookup id)

/-! ### Calls -/

/-- A write as the call of a screen. -/
def ConvWrite.call : ConvWrite → SyncEngine.Call
  | .add _ convo => .setData convo.input false
  | .union _ newMessage =>
      .updateData [(.string "messages", .arrayUnion 1 fun _ => newMessage.input)]

/-! ### What the calls ask for -/

section asks

variable {databaseID : DatabaseId} {data_source : UserDataSource} {path : FieldPath}

/-- The messages of a new conversation. -/
lemma given_messages (ms : List Message) :
    Given (holdsMessages ms) (.array ms.length fun i => (ms.get i).input) := by
  refine ⟨fun _ _ _ h => absurd h (by simp), _, rfl, fun databaseID data_source path hne =>
    ⟨hne, ?_⟩⟩
  have hparsed : (List.ofFn fun i => parseData databaseID (ms.get i).input).mapM
      (fun entry : ParseContext → Except String Parsed => entry ⟨data_source, none, true⟩) =
      .ok (List.ofFn fun i => ⟨some (ms.get i).value, [], []⟩) :=
    Except.mapM_ofFn_eq_ok_iff.mpr ⟨_, rfl, fun i => (ms.get i).parse_input databaseID data_source⟩
  have hvalues : (List.ofFn fun i => (⟨some (ms.get i).value, [], []⟩ : Parsed)).map
      (fun r => r.value.getD .null) = ms.map Message.value := by
    rw [List.map_ofFn, ← List.ofFn_get (ms.map Message.value)]
    refine List.ext_getElem (by simp) fun i h h' => ?_
    simp
  rw [parseData, parseArray, if_neg (by simp)]
  refine Except.map_eq_ok_iff.mpr ⟨_, hparsed, ?_⟩
  rw [FieldWrite.parsed, Parsed.mk.injEq, hvalues]
  simp [List.flatMap_eq_nil_iff, List.mem_ofFn]

/-- A message sent. -/
lemma asks_union (m : Message) (hne : path ≠ []) :
    Asks databaseID .update path (.arrayUnion 1 fun _ => m.input)
      (.transform (.arrayUnion [m.value])) := by
  have helements : parseArrayTransformElements
      (List.ofFn fun _ : Fin 1 => parseData databaseID m.input) = .ok [m.value] := by
    refine Except.mapM_ofFn_eq_ok_iff.mpr ⟨fun _ => m.value, rfl, fun _ => ?_⟩
    change Except.bind (parseData databaseID m.input ⟨.argument, none, true⟩) _ = _
    rw [m.parse_input databaseID .argument]
    rfl
  refine ⟨hne, ?_⟩
  rw [parseData, parseSentinelFieldValue,
    if_pos (show ParseContext.write ⟨.update, some path, false⟩ = true from rfl)]
  refine Except.bind_eq_ok_iff.mpr ⟨_, helements, ?_⟩
  exact dif_pos hne

lemma carries_input (c : Conversation) : Carries c.record c.input := by
  have hplain : ∀ k ∈ Conversation.names, PlainName k := by decide
  refine ⟨_, _, _, rfl, hasFields_ofEntries (fun e he => ?_) (fun k b hb => ?_) hplain⟩
  · simp only [List.mem_cons, List.not_mem_nil, or_false] at he
    rcases he with rfl | rfl | rfl
    · exact ⟨_, rfl, given_string c.user1ID⟩
    · exact ⟨_, rfl, given_string c.user2ID⟩
    · exact ⟨_, rfl, given_messages c.messages⟩
  · unfold Conversation.record at hb
    split at hb <;> simp_all

end asks

/-! ### What is shown after the calls -/

section calls

variable {α : Type*} {s : SyncEngine α} {cs : Collection String Conversation}

/-- A conversation that is added is shown. -/
lemma shown_add (hs : s.Inv) (h : ShowsConversations s.shown cs) (databaseID : DatabaseId)
    (local_write_time : Timestamp) (callback : α) (id : String) (convo : Conversation) :
    ∃ s', s.call databaseID local_write_time (conversationKey id) callback
        (ConvWrite.add id convo).call = .ok (some s') ∧ s'.Inv ∧
      ShowsConversations s'.shown ((ConvWrite.add id convo).apply cs) := by
  have hcarries := carries_input convo
  obtain ⟨m, hcall, -, -⟩ := wrote_setData hcarries databaseID (conversationKey id)
  have hok : s.setData databaseID local_write_time (conversationKey id) convo.input false callback =
      .ok (s.writeMutations local_write_time [m] callback) :=
    Except.map_of_map hcall fun mutations => s.writeMutations local_write_time mutations callback
  obtain ⟨s', data, hr, hinv, hdata, hleaves, hrest, hother⟩ := SyncEngine.shown_setData hs hok
  have hwrote : Wrote databaseID .set convo.input (fun _ => none) data := by
    refine ⟨fun l hl hne => ?_, hrest⟩
    obtain ⟨w, hask, hget⟩ := hleaves l hl hne
    exact ⟨w, _, _, hask, hget⟩
  refine ⟨s', hok.trans (congrArg _ hr), hinv, fun id' => ?_⟩
  rw [lookup_add]
  by_cases hid : id' = id
  · rw [if_pos hid, hid, hdata]
    exact showsDoc_setData hcarries hwrote
  · rw [if_neg hid, hother _ fun hkey => hid (conversationKey_injective hkey)]
    exact h id'

/-- The call that sends a message is accepted. -/
lemma exists_parsedUpdateData (databaseID : DatabaseId) (m : Message) :
    ∃ parsed, parsedUpdateData databaseID
      [(.string "messages", .arrayUnion 1 fun _ => m.input)] = .ok parsed := by
  have hplain : PlainName "messages" := by decide
  obtain ⟨r, hr⟩ : ∃ r, parseUpdateEntry databaseID ["messages"]
      (.arrayUnion 1 fun _ => m.input) = .ok r := by
    obtain ⟨hne, hparse⟩ : Asks databaseID .update ["messages"] (.arrayUnion 1 fun _ => m.input)
      (.transform (.arrayUnion [m.value])) := asks_union m (List.cons_ne_nil _ _)
    refine ⟨⟨none, [], [⟨["messages"], .arrayUnion [m.value], hne⟩]⟩, ?_⟩
    rw [parseUpdateEntry_of_ne_delete (by simp), childAt_of_plainName hplain]
    exact Except.bind_eq_ok_iff.mpr ⟨_, rfl, Except.map_eq_ok_iff.mpr ⟨_, hparse, rfl⟩⟩
  obtain ⟨es, hes⟩ := Except.exists_mapM
    (f := fun e : UpdateKey × UserValue => e.1.path.bind fun path =>
      (parseUpdateEntry databaseID path e.2).map fun r => (path, r))
    (l := [(.string "messages", .arrayUnion 1 fun _ => m.input)]) fun e he => by
      obtain rfl := List.mem_singleton.mp he
      exact ⟨_, Except.bind_eq_ok_iff.mpr ⟨_, hplain.2.2, Except.map_eq_ok_iff.mpr ⟨r, hr, rfl⟩⟩⟩
  exact ⟨_, Except.map_eq_ok_iff.mpr ⟨es, hes, rfl⟩⟩

/-- The data of a conversation after the update. -/
lemma represents_receive {databaseID : DatabaseId} {local_write_time : Timestamp}
    {old data : ObjectValue} {c : Conversation} {m : Message}
    (hold : Represents Conversation.names c.record old)
    (hupdated : SyncEngine.Updated databaseID local_write_time old data ["messages"]
      (.arrayUnion 1 fun _ => m.input))
    (hrest : ∀ q, Apart ["messages"] q → get q data = get q old) :
    Represents Conversation.names (c.receive m).record data := by
  obtain ⟨v, hv, rfl⟩ : ∃ v, get ["messages"] old = some v ∧ holdsMessages c.messages v :=
    hold "messages" (by decide)
  have hmessages : get ["messages"] data =
      some (.fromArray ((c.receive m).messages.map Message.value)) := by
    obtain ⟨hdelete, -⟩ | ⟨-, hleaves, -⟩ := hupdated
    · exact absurd hdelete (by simp)
    · obtain ⟨w, hask, hget⟩ := hleaves ([], _) (List.mem_singleton_self _)
      obtain rfl := hask.unique (asks_union m (List.cons_ne_nil _ _))
      refine hget.trans ?_
      rw [List.append_nil, hv]
      exact congrArg some (applyUnion_value [m] c.messages)
  intro name hname
  rcases List.mem_cons.mp hname with rfl | hname
  · rw [hrest _ (apart_cons_of_ne (by decide) [] [])]
    exact hold "user1ID" (by decide)
  · rcases List.mem_pair.mp hname with rfl | rfl
    · rw [hrest _ (apart_cons_of_ne (by decide) [] [])]
      exact hold "user2ID" (by decide)
    · exact ⟨_, hmessages, rfl⟩

/-- A message that is sent is added to the conversation shown, if there is one. -/
lemma shown_union (hs : s.Inv) (h : ShowsConversations s.shown cs) (databaseID : DatabaseId)
    (local_write_time : Timestamp) (callback : α) (id : String) (m : Message) :
    ∃ s', s.call databaseID local_write_time (conversationKey id) callback
        (ConvWrite.union id m).call = .ok (some s') ∧ s'.Inv ∧
      ShowsConversations s'.shown ((ConvWrite.union id m).apply cs) := by
  obtain ⟨parsed, hparsed⟩ := exists_parsedUpdateData databaseID m
  have hok : s.updateData databaseID local_write_time (conversationKey id)
      [(.string "messages", .arrayUnion 1 fun _ => m.input)] callback = .ok _ :=
    Except.map_eq_ok_iff.mpr ⟨parsed, hparsed, rfl⟩
  obtain ⟨s', hr, hinv, hother, hnone, hsome⟩ :=
    SyncEngine.shown_updateData hs (List.pairwise_singleton _ _) hok
  refine ⟨s', hok.trans (congrArg _ hr), hinv, fun id' => ?_⟩
  rw [lookup_union]
  by_cases hid : id' = id
  · rw [if_pos hid, hid]
    have hold := h id
    cases hc : cs.lookup id <;> cases hshown : s.shown (conversationKey id) <;>
      rw [hc, hshown] at hold
    case none.none =>
      rw [hnone hshown]
      trivial
    case some.some c old =>
      obtain ⟨data, hdata, hentries, hrest⟩ := hsome old hshown
      have hpath : (UpdateKey.string "messages").path = .ok ["messages"] := rfl
      rw [hdata]
      refine represents_receive hold (hentries _ (List.mem_singleton_self _) _ hpath) fun q hq =>
        hrest q fun e he p hp => ?_
      obtain rfl := List.mem_singleton.mp he
      exact Except.ok.inj (hpath.symm.trans hp) ▸ hq
    all_goals exact hold.elim
  · rw [if_neg hid, hother _ fun hkey => hid (conversationKey_injective hkey)]
    exact h id'

variable (databaseID : DatabaseId)

/-- A device after a write is issued, with the time and the callback of its call. -/
def issueStep (s : SyncEngine α) (e : ConvWrite × Timestamp × α) : Option (SyncEngine α) :=
  match s.call databaseID e.2.1 (conversationKey e.1.id) e.2.2 e.1.call with
  | .ok r => r
  | .error _ => none

/-- A write is shown as soon as it is issued. -/
lemma shows_issueStep (hs : s.Inv) (h : ShowsConversations s.shown cs)
    (e : ConvWrite × Timestamp × α) :
    ∃ s', issueStep databaseID s e = some s' ∧ s'.Inv ∧
      ShowsConversations s'.shown (e.1.apply cs) := by
  obtain ⟨w, local_write_time, callback⟩ := e
  obtain ⟨s', hok, hinv, hshows⟩ : ∃ s', s.call databaseID local_write_time
      (conversationKey w.id) callback w.call = .ok (some s') ∧ s'.Inv ∧
      ShowsConversations s'.shown (w.apply cs) := by
    cases w with
    | add id convo => exact shown_add hs h databaseID local_write_time callback id convo
    | union id m => exact shown_union hs h databaseID local_write_time callback id m
  exact ⟨s', by rw [issueStep, hok], hinv, hshows⟩

/-- **The writes of a device are shown at once**: no call throws, and the client shows
what a device with these writes in its queue reads. -/
theorem shows_issued {C : Type*} (uid : C → String) (ascending : C → String → String → Bool)
    (user_id : String) (es : List (ConvWrite × Timestamp × α)) :
    ∃ s, exec (issueStep databaseID) (.fresh user_id) es = some s ∧
      ShowsConversations s.shown ((Messages.chats uid ascending).applyAll (es.map Prod.fst) ∅) := by
  suffices hrun : ∀ (s : SyncEngine α) (cs : Collection String Conversation), s.Inv →
      ShowsConversations s.shown cs → ∃ s', exec (issueStep databaseID) s es = some s' ∧
        ShowsConversations s'.shown
          ((Messages.chats uid ascending).applyAll (es.map Prod.fst) cs) by
    exact hrun _ ∅ (SyncEngine.inv_fresh user_id) fun id => trivial
  induction es with
  | nil => exact fun s cs _ h => ⟨s, rfl, h⟩
  | cons e es ih =>
      intro s cs hs h
      obtain ⟨t, ht, hinv, hshows⟩ := shows_issueStep databaseID hs h e
      obtain ⟨s', hs', hend⟩ := ih t (e.1.apply cs) hinv hshows
      exact ⟨s', exec_cons_eq_some.mpr ⟨t, ht, hs'⟩, hend⟩

end calls

end Tasker
