import Tasker.Firestore.DocumentReference

/-!
Records kept in documents.

A record has fields by name, each of which is absent, one of some values, or a map of
such fields.

* `Represents`: a document holds a record; `Carries`: a dictionary has the fields of a
  record that are present.
* `Wrote`: what a call of the API leaves, with what stands outside the dictionary;
  `wrote_setData`, `wrote_mergeData`, `wrote_updateData`: none of the three calls throws,
  and the one mutation each of them makes leaves this.
* `Combined`: how a field of the dictionary and one of the rest make one;
  `represents_of_wrote`: the record in the document afterwards.
-/

namespace Firestore

open Nested

/-! ### Records -/

/-- The values that stand for a field. -/
abbrev Holds := FieldValue → Prop

/-- A field that is present. -/
inductive Entry where
  | leaf (holds : Holds)
  | map (names : List String) (field : String → Option Holds)

/-- The fields by name. -/
abbrev Record := String → Option Entry

/-- A field of a map holds what it should. -/
def MatchesLeaf : Option Holds → Option FieldValue → Prop
  | none, x => x = none
  | some holds, x => ∃ v, x = some v ∧ holds v

/-- A field of a document holds what it should. -/
def Matches : Option Entry → Option FieldValue → Prop
  | none, x => x = none
  | some (.leaf holds), x => ∃ v, x = some v ∧ holds v
  | some (.map names field), x =>
      ∃ c, x = some (node c) ∧ ∀ k ∈ names, MatchesLeaf (field k) (c.find k)

/-- The document holds the record. -/
def Represents (names : List String) (record : Record) (data : ObjectValue) : Prop :=
  ∀ name ∈ names, Matches (record name) (get [name] data)

/-! ### Dictionaries -/

/-- The name can be the key of a field. -/
def PlainName (name : String) : Prop :=
  name ≠ "" ∧ ParseContext.reservedFieldDesignator.toList.isPrefixOf name.toList = false ∧
    fromDotSeparatedString name = .ok [name]

instance (name : String) : Decidable (PlainName name) := inferInstanceAs (Decidable (_ ∧ _ ∧ _))

/-- The value is written as one of those that stand for the field. -/
def Given (holds : Holds) (v : UserValue) : Prop :=
  v.IsLeaf ∧ ∃ x, holds x ∧ ∀ databaseID data_source path, path ≠ [] →
    Asks databaseID data_source path v (.value x)

/-- The dictionary has exactly the fields that are present. -/
structure HasFields {β : Type*} (given : β → UserValue → Prop) (keys : List String)
    (f : Fin keys.length → UserValue) (field : String → Option β) : Prop where
  given : ∀ i, ∃ b, field (keys.get i) = some b ∧ given b (f i)
  complete : ∀ k b, field k = some b → k ∈ keys
  plain : ∀ k ∈ keys, PlainName k

/-- The value is written as the field. -/
def Entry.Given : Entry → UserValue → Prop
  | .leaf holds, v => Firestore.Given holds v
  | .map _ field, v => ∃ keys nodup f, v = .dictionary keys nodup f ∧
      HasFields Firestore.Given keys f field

/-- The dictionary carries the record. -/
def Carries (record : Record) (input : UserValue) : Prop :=
  ∃ keys nodup f, input = .dictionary keys nodup f ∧ HasFields Entry.Given keys f record

section given

variable {databaseID : DatabaseId} {data_source : UserDataSource}

lemma child_of_plainName {context : ParseContext} {name : String} (h : PlainName name) :
    context.child name =
      .ok ⟨context.data_source, context.path.map fun path => path ++ [name], false⟩ := by
  rw [ParseContext.child, ParseContext.validatePathSegment, if_neg h.1,
    h.2.1, Bool.and_false, Bool.false_and, if_neg Bool.false_ne_true]
  rfl

lemma childAt_of_plainName {name : String} (h : PlainName name) (data_source : UserDataSource) :
    (ParseContext.root data_source).childAt [name] = .ok ⟨data_source, some [name], false⟩ := by
  have hsegment : ParseContext.validatePathSegment ⟨data_source, some [name], false⟩ name =
      .ok () := by
    rw [ParseContext.validatePathSegment, if_neg h.1, h.2.1, Bool.and_false, Bool.false_and,
      if_neg Bool.false_ne_true]
  change Except.map _ (Except.bind
    (ParseContext.validatePathSegment ⟨data_source, some [name], false⟩ name) _) = _
  rw [hsegment]
  rfl

/-- A dictionary is parsed if its values are. -/
lemma exists_parseDictionary (context : ParseContext) {keys : List String}
    (hplain : ∀ k ∈ keys, PlainName k) {g : Fin keys.length → ParseContext → Except String Parsed}
    (hg : ∀ i, ∃ r, g i
      ⟨context.data_source, context.path.map fun path => path ++ [keys.get i], false⟩ = .ok r) :
    ∃ r data, parseDictionary context (List.ofFn fun i => (keys.get i, g i)) = .ok r ∧
      r.value = some (node data) := by
  rw [parseDictionary]
  split_ifs with hempty
  · exact ⟨_, _, rfl, rfl⟩
  · obtain ⟨parsed, hparsed⟩ := Except.exists_mapM
      (f := fun e : String × (ParseContext → Except String Parsed) =>
        (context.child e.1).bind fun child => (e.2 child).map fun r => ([e.1], r))
      (l := List.ofFn fun i => (keys.get i, g i)) fun e he => by
        obtain ⟨i, rfl⟩ := List.mem_ofFn.mp he
        obtain ⟨r, hr⟩ := hg i
        refine ⟨([keys.get i], r), ?_⟩
        rw [child_of_plainName (hplain _ (List.get_mem keys i))]
        change (g i _).map _ = _
        rw [hr]
        rfl
    rw [hparsed]
    exact ⟨_, _, rfl, rfl⟩

lemma exists_parseData_of_given {holds : Holds} {v : UserValue} (h : Given holds v)
    {path : FieldPath} (hne : path ≠ []) :
    ∃ r, parseData databaseID v ⟨data_source, some path, false⟩ = .ok r := by
  obtain ⟨-, x, -, hask⟩ := h
  obtain ⟨hne, hparse⟩ := hask databaseID data_source path hne
  exact ⟨_, hparse⟩

/-- What is given for a field is parsed. -/
lemma Entry.exists_parseData {e : Entry} {v : UserValue} (h : e.Given v) {path : FieldPath}
    (hne : path ≠ []) : ∃ r, parseData databaseID v ⟨data_source, some path, false⟩ = .ok r := by
  cases e with
  | leaf holds => exact exists_parseData_of_given h hne
  | map names field =>
      obtain ⟨keys, nodup, f, rfl, hfields⟩ := h
      obtain ⟨r, -, hr, -⟩ := exists_parseDictionary ⟨data_source, some path, false⟩
        hfields.plain (g := fun i => parseData databaseID (f i)) fun i => by
          obtain ⟨holds, -, hgiven⟩ := hfields.given i
          exact exists_parseData_of_given hgiven (by simp)
      exact ⟨r, hr⟩

end given

/-! ### What a call leaves -/

/-- The fields of the dictionary are written, and outside them stands the rest. -/
structure Wrote (databaseID : DatabaseId) (data_source : UserDataSource) (input : UserValue)
    (rest : FieldPath → Option FieldValue) (data : ObjectValue) : Prop where
  leaf : ∀ l ∈ input.leaves, l.1 ≠ [] → ∃ w previous_value local_write_time,
    Asks databaseID data_source l.1 l.2 w ∧ get l.1 data = w.result previous_value local_write_time
  rest : ∀ q, SyncEngine.Outside input q → get q data = rest q

/-- The entries of a dictionary for an update. -/
def updateFields : UserValue → List (UpdateKey × UserValue)
  | .dictionary keys _ f => List.ofFn fun i => (.string (keys.get i), f i)
  | _ => []

section calls

variable {record : Record} {input : UserValue}

/-- Each field of a dictionary that carries a record asks for a value. -/
lemma Given.asks {holds : Holds} {v : UserValue} (h : Given holds v) (databaseID : DatabaseId)
    (data_source : UserDataSource) (path : FieldPath) (hne : path ≠ []) {l : FieldPath × UserValue}
    (hl : l ∈ v.leaves) : ∃ x, Asks databaseID data_source (path ++ l.1) l.2 (.value x) := by
  obtain ⟨hleaf, x, -, hask⟩ := h
  rw [UserValue.leaves_of_isLeaf hleaf, List.mem_singleton] at hl
  subst hl
  rw [List.append_nil]
  exact ⟨x, hask databaseID data_source path hne⟩

lemma Entry.Given.asks {e : Entry} {v : UserValue} (h : e.Given v) (databaseID : DatabaseId)
    (data_source : UserDataSource) (path : FieldPath) (hne : path ≠ []) {l : FieldPath × UserValue}
    (hl : l ∈ v.leaves) : ∃ x, Asks databaseID data_source (path ++ l.1) l.2 (.value x) := by
  cases e with
  | leaf holds => exact Firestore.Given.asks h databaseID data_source path hne hl
  | map names field =>
      obtain ⟨keys, nodup, f, rfl, hfields⟩ := h
      by_cases hkeys : keys = []
      · subst hkeys
        rw [UserValue.leaves, if_pos rfl, List.mem_singleton] at hl
        subst hl
        rw [List.append_nil]
        obtain ⟨k, path, rfl⟩ := List.exists_cons_of_ne_nil hne
        exact ⟨node .empty, hne, rfl⟩
      · obtain ⟨i, m, hm, rfl⟩ := (mem_leaves_dictionary hkeys).mp hl
        obtain ⟨holds, -, hgiven⟩ := hfields.given i
        have hask := Firestore.Given.asks hgiven databaseID data_source
          (path ++ [keys.get i]) (by simp) hm
        rwa [List.append_assoc] at hask

/-- What asks for values makes no transforms. -/
lemma Means.transforms_eq_nil {databaseID : DatabaseId} {data_source : UserDataSource}
    {path : FieldPath} {v : UserValue} {r : Parsed} (h : Means databaseID data_source path v r)
    (hasks : ∀ l ∈ v.leaves, path ++ l.1 ≠ [] →
      ∃ x, Asks databaseID data_source (path ++ l.1) l.2 (.value x)) : r.field_transforms = [] := by
  refine List.eq_nil_iff_forall_not_mem.mpr fun t ht => ?_
  obtain ⟨l, hl, heq, hask⟩ := h.transforms t ht
  rw [heq] at hask
  obtain ⟨x, hvalue⟩ := hasks l hl (heq ▸ t.path_ne)
  exact absurd (hask.unique hvalue) (by simp)

/-- A dictionary that carries a record is parsed, without transforms. -/
lemma exists_parseRoot (h : Carries record input) (databaseID : DatabaseId)
    (data_source : UserDataSource) :
    ∃ e, parseRoot databaseID data_source input = .ok e ∧ e.2.field_transforms = [] := by
  obtain ⟨keys, nodup, f, rfl, hfields⟩ := h
  obtain ⟨r, data, hr, hdata⟩ := exists_parseDictionary (.root data_source) hfields.plain
    (g := fun i => parseData databaseID (f i)) fun i => by
      obtain ⟨e, -, hgiven⟩ := hfields.given i
      exact Entry.exists_parseData hgiven (by simp)
  have hroot : parseRoot databaseID data_source (.dictionary keys nodup f) = .ok (data, r) := by
    refine Except.bind_eq_ok_iff.mpr ⟨r, hr, ?_⟩
    rw [hdata, Option.bind_some, fields_node]
  refine ⟨(data, r), hroot, ?_⟩
  refine (SyncEngine.parseRoot_eq_ok hroot).2.1.transforms_eq_nil fun l hl hne => ?_
  by_cases hkeys : keys = []
  · subst hkeys
    rw [UserValue.leaves, if_pos rfl, List.mem_singleton] at hl
    exact absurd (by rw [hl]; rfl) hne
  · obtain ⟨i, m, hm, rfl⟩ := (mem_leaves_dictionary hkeys).mp hl
    obtain ⟨e, -, hgiven⟩ := hfields.given i
    exact hgiven.asks databaseID data_source [keys.get i] (List.cons_ne_nil _ _) hm

/-- The mutation of a call. -/
structure CallMutation (key : DocumentKey) (m : Mutation) : Prop where
  key : m.key = key
  ofUser : m.OfUser
  base : ∀ doc, m.extractBaseValue doc = none

lemma afterCall_nil (first : Mutation) (local_write_time : Timestamp) (data : Option ObjectValue) :
    afterCall first [] local_write_time data = first.effect data local_write_time data := by
  rw [afterCall, withBase_of_nil rfl]
  exact congrFun Option.map_id _

variable (h : Carries record input) (databaseID : DatabaseId) (key : DocumentKey)
include h

/-- **`setData`** leaves the fields of the dictionary alone. -/
lemma wrote_setData :
    ∃ m, (parsedSetData databaseID input).map (fun parsed => parsed.toMutations key .none) =
        .ok [m] ∧ CallMutation key m ∧
      ∀ local_write_time old, ∃ data, m.effect old local_write_time old = some data ∧
        Wrote databaseID .set input (fun _ => none) data := by
  obtain ⟨⟨value, e⟩, hroot, hnil⟩ := exists_parseRoot h databaseID .set
  refine ⟨.set key value .none, ?_, ⟨rfl, rfl, fun _ => rfl⟩, fun local_write_time old => ?_⟩
  · rw [parsedSetData, hroot]
    change Except.ok (_ :: transformMutations key e.field_transforms) = _
    rw [show e.field_transforms = [] from hnil]
    rfl
  · obtain ⟨data, hdata, hleaves, hrest⟩ :=
      SyncEngine.afterCall_set hroot key local_write_time old
    rw [show e.field_transforms = [] from hnil, afterCall_nil] at hdata
    refine ⟨data, hdata, fun l hl hne => ?_, hrest⟩
    obtain ⟨w, hask, hget⟩ := hleaves l hl hne
    exact ⟨w, _, _, hask, hget⟩

end calls

/-! ### The record afterwards -/

/-- How a field of the dictionary and one of the rest make the field afterwards. -/
inductive Combined : Option Entry → Option Entry → Option Entry → Prop
  | absent (rest : Option Entry) : Combined none rest rest
  | leaf (holds : Holds) (rest : Option Entry) :
      Combined (some (.leaf holds)) rest (some (.leaf holds))
  | map (names : List String) (field : String → Option Holds) :
      Combined (some (.map names field)) none (some (.map names field))
  | merged {names : List String} {field field' : String → Option Holds}
      (hne : ∃ k holds, field k = some holds) :
      Combined (some (.map names field)) (some (.map names field'))
        (some (.map names fun k => (field k).or (field' k)))

lemma get_singleton (name : String) (c : ObjectValue) : get [name] c = c.find name := by
  rw [get_cons]
  cases c.find name <;> rfl

section wrote

variable {databaseID : DatabaseId} {data_source : UserDataSource} {input : UserValue}
  {rest : FieldPath → Option FieldValue} {data : ObjectValue}

/-- A field that is given holds one of its values. -/
lemma Wrote.get_of_given (hwrote : Wrote databaseID data_source input rest data) {holds : Holds}
    {v : UserValue} (hgiven : Given holds v) {path : FieldPath} (hne : path ≠ [])
    (hl : (path, v) ∈ input.leaves) : ∃ x, get path data = some x ∧ holds x := by
  obtain ⟨w, previous_value, local_write_time, hask, hget⟩ := hwrote.leaf _ hl hne
  obtain ⟨-, x, hx, hasks⟩ := hgiven
  obtain rfl := hask.unique (hasks databaseID data_source path hne)
  exact ⟨x, hget, hx⟩

variable {record : Record} {keys : List String} {nodup : keys.Nodup}
  {f : Fin keys.length → UserValue}

/-- A field that is absent is what it is outside. -/
lemma Wrote.get_of_absent
    (hwrote : Wrote databaseID data_source (.dictionary keys nodup f) rest data)
    (hfields : HasFields Entry.Given keys f record) {name : String} (h : record name = none) :
    get [name] data = rest [name] := by
  refine hwrote.rest _ ⟨List.cons_ne_nil _ _, fun l hl hne => ?_⟩
  by_cases hkeys : keys = []
  · rw [UserValue.leaves, if_pos hkeys, List.mem_singleton] at hl
    exact absurd (by rw [hl]) hne
  · obtain ⟨i, m, hm, rfl⟩ := (mem_leaves_dictionary hkeys).mp hl
    refine apart_cons_of_ne (fun heq => ?_) m.1 []
    obtain ⟨b, hb, -⟩ := hfields.given i
    rw [heq, h] at hb
    exact absurd hb (by simp)

/-- The field of the dictionary that is given for a field of the record. -/
lemma HasFields.exists_given {β : Type*} {given : β → UserValue → Prop}
    {field : String → Option β} (hfields : HasFields given keys f field) {name : String} {b : β}
    (h : field name = some b) : ∃ i, keys.get i = name ∧ given b (f i) := by
  obtain ⟨i, rfl⟩ := List.mem_iff_get.mp (hfields.complete name b h)
  obtain ⟨b', hb', hgiven⟩ := hfields.given i
  obtain rfl := Option.some.inj (h.symm.trans hb')
  exact ⟨i, rfl, hgiven⟩

lemma Wrote.get_of_leaf
    (hwrote : Wrote databaseID data_source (.dictionary keys nodup f) rest data)
    (hfields : HasFields Entry.Given keys f record) {name : String} {holds : Holds}
    (h : record name = some (.leaf holds)) : ∃ x, get [name] data = some x ∧ holds x := by
  obtain ⟨i, rfl, hgiven⟩ := hfields.exists_given h
  have hkeys : keys ≠ [] := List.ne_nil_of_mem (List.get_mem keys i)
  refine hwrote.get_of_given hgiven (List.cons_ne_nil _ _)
    ((mem_leaves_dictionary hkeys).mpr ⟨i, ([], f i), ?_, rfl⟩)
  rw [UserValue.leaves_of_isLeaf hgiven.1]
  exact List.mem_singleton_self _

/-- A map without fields replaces what stood there. -/
lemma Wrote.get_of_empty
    (hwrote : Wrote databaseID data_source (.dictionary keys nodup f) rest data)
    (hfields : HasFields Entry.Given keys f record) {name : String} {names : List String}
    {field : String → Option Holds} (h : record name = some (.map names field))
    (hempty : ∀ k, field k = none) : get [name] data = some (node .empty) := by
  obtain ⟨i, rfl, keys', nodup', f', hf, hfields'⟩ := hfields.exists_given h
  have hkeys : keys ≠ [] := List.ne_nil_of_mem (List.get_mem keys i)
  have hkeys' : keys' = [] := by
    by_contra hne
    obtain ⟨k, hk⟩ := List.exists_mem_of_ne_nil keys' hne
    obtain ⟨j, rfl⟩ := List.mem_iff_get.mp hk
    obtain ⟨b, hb, -⟩ := hfields'.given j
    rw [hempty] at hb
    exact absurd hb (by simp)
  subst hkeys'
  have hmem : ([keys.get i], f i) ∈ (UserValue.dictionary keys nodup f).leaves := by
    refine (mem_leaves_dictionary hkeys).mpr ⟨i, ([], f i), ?_, rfl⟩
    rw [hf, UserValue.leaves, if_pos rfl]
    exact List.mem_singleton_self _
  obtain ⟨w, previous_value, local_write_time, hask, hget⟩ :=
    hwrote.leaf _ hmem (List.cons_ne_nil _ _)
  have hvalue : Asks databaseID data_source [keys.get i] (f i) (.value (node .empty)) := by
    rw [hf]
    exact ⟨List.cons_ne_nil _ _, rfl⟩
  obtain rfl := hask.unique hvalue
  exact hget

/-- A map with fields has what is given for them, and otherwise what is there
outside. -/
lemma Wrote.get_of_map
    (hwrote : Wrote databaseID data_source (.dictionary keys nodup f) rest data)
    (hfields : HasFields Entry.Given keys f record) {name : String} {names : List String}
    {field : String → Option Holds} (h : record name = some (.map names field))
    (hne : ∃ k holds, field k = some holds) :
    ∃ c, get [name] data = some (node c) ∧
      ∀ k, (∀ holds, field k = some holds → ∃ x, c.find k = some x ∧ holds x) ∧
        (field k = none → c.find k = rest [name, k]) := by
  obtain ⟨i, rfl, keys', nodup', f', hf, hfields'⟩ := hfields.exists_given h
  have hkeys : keys ≠ [] := List.ne_nil_of_mem (List.get_mem keys i)
  obtain ⟨k₀, holds₀, hk₀⟩ := hne
  have hkeys' : keys' ≠ [] := List.ne_nil_of_mem (hfields'.complete k₀ holds₀ hk₀)
  have hgiven : ∀ k holds, field k = some holds →
      ∃ x, get ([keys.get i] ++ [k]) data = some x ∧ holds x := by
    intro k holds hk
    obtain ⟨j, rfl, hgiven⟩ := hfields'.exists_given hk
    refine hwrote.get_of_given hgiven (List.cons_ne_nil _ _) ((mem_leaves_dictionary hkeys).mpr
      ⟨i, ([keys'.get j], f' j), ?_, rfl⟩)
    rw [hf]
    refine (mem_leaves_dictionary hkeys').mpr ⟨j, ([], f' j), ?_, rfl⟩
    rw [UserValue.leaves_of_isLeaf hgiven.1]
    exact List.mem_singleton_self _
  -- a field that is there makes what stands above a map
  obtain ⟨c, hc⟩ : ∃ c, get [keys.get i] data = some (node c) := by
    obtain ⟨x, hx, -⟩ := hgiven k₀ holds₀ hk₀
    rw [get_append] at hx
    obtain ⟨v, hv, hread⟩ := Option.bind_eq_some_iff.mp hx
    rw [Nested.read] at hread
    obtain ⟨_, hbind, -⟩ := Option.bind_eq_some_iff.mp hread
    obtain ⟨c, hfields, -⟩ := Option.bind_eq_some_iff.mp hbind
    exact ⟨c, by rw [hv, node_of_fields hfields]⟩
  have hfind : ∀ k, get ([keys.get i] ++ [k]) data = c.find k := by
    intro k
    rw [get_append, hc, Option.bind_some]
    exact get_singleton k c
  refine ⟨c, hc, fun k => ⟨fun holds hk => ?_, fun hk => ?_⟩⟩
  · rw [← hfind]
    exact hgiven k holds hk
  · rw [← hfind]
    refine hwrote.rest _ ⟨List.cons_ne_nil _ _, fun l hl _ => ?_⟩
    obtain ⟨j, m, hm, rfl⟩ := (mem_leaves_dictionary hkeys).mp hl
    by_cases hij : j = i
    · subst hij
      rw [hf] at hm
      obtain ⟨j', m', -, rfl⟩ := (mem_leaves_dictionary hkeys').mp hm
      refine (apart_cons_of_ne (fun heq => ?_) m'.1 []).append_left [keys.get j]
      obtain ⟨b, hb, -⟩ := hfields'.given j'
      rw [heq, hk] at hb
      exact absurd hb (by simp)
    · exact apart_cons_of_ne (get_ne_get nodup hij) m.1 [k]

/-- **The record in the document after a call**, from that in the dictionary and that in
the rest. -/
theorem represents_of_wrote (hcarries : Carries record input)
    (hwrote : Wrote databaseID data_source input rest data) {names : List String}
    (others : Record) {result : Record}
    (hrest : ∀ name ∈ names, Matches (others name) (rest [name]))
    (hbelow : ∀ name k, rest [name, k] = (rest [name]).bind (Nested.read [k]))
    (hcombined : ∀ name ∈ names, Combined (record name) (others name) (result name)) :
    Represents names result data := by
  obtain ⟨keys, nodup, f, rfl, hfields⟩ := hcarries
  intro name hname
  have hother := hrest name hname
  have hcomb := hcombined name hname
  generalize ho : others name = other at hother hcomb
  generalize hq : result name = new at hcomb ⊢
  generalize hr : record name = entry at hcomb
  cases hcomb with
  | absent =>
      rw [hwrote.get_of_absent hfields hr]
      exact hother
  | leaf holds => exact hwrote.get_of_leaf hfields hr
  | map ns field =>
      have hnone : rest [name] = none := hother
      by_cases hne : ∃ k holds, field k = some holds
      · obtain ⟨c, hc, hfind⟩ := hwrote.get_of_map hfields hr hne
        refine ⟨c, hc, fun k _ => ?_⟩
        cases hk : field k with
        | none =>
            have hrest := (hfind k).2 hk
            rwa [hbelow, hnone, Option.bind_none] at hrest
        | some holds => exact (hfind k).1 holds hk
      · have hempty : ∀ k, field k = none := fun k =>
          Option.eq_none_iff_forall_ne_some.mpr fun holds hk => hne ⟨k, holds, hk⟩
        refine ⟨.empty, hwrote.get_of_empty hfields hr hempty, fun k _ => ?_⟩
        rw [hempty k]
        exact SortedMap.find_empty k
  | merged hne =>
      obtain ⟨c', hc', hmatches⟩ := hother
      obtain ⟨c, hc, hfind⟩ := hwrote.get_of_map hfields hr hne
      refine ⟨c, hc, fun k hk => ?_⟩
      next field field' =>
        dsimp only
        cases hfield : field k with
        | none =>
            have hrest := (hfind k).2 hfield
            rw [hbelow, hc', Option.bind_some] at hrest
            rw [Option.none_or, hrest]
            have hmatch := hmatches k hk
            rwa [← get_singleton] at hmatch
        | some holds =>
            rw [Option.some_or]
            exact (hfind k).1 holds hfield

end wrote

end Firestore
