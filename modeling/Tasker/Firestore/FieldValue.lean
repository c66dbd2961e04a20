import Tasker.Firestore.Numbers
import Tasker.Lib.NestedMap
import Tasker.Lib.ThreeWay
import Mathlib.Data.Prod.Lex
import Mathlib.Data.String.Basic

/-!
The values of documents (`model/field_value.cc`).

* `FieldValue`: the values; an array is given by the value at each position, a map
  by its keys in order and the value at each.
* `compareTo`: the order of values that queries use; `equals`: the equality that
  array transforms and snapshots use.
* `rank`: the kinds of values in order, numbers being one kind and timestamps
  another; `compareTo_of_rank`: values of different kinds compare by it.
* `compareTo_swap`, `transAt_compareTo`: the order is total and transitive
  (`transCmp_compareTo`).
* `compareTo_of_equals`: equal values compare the same; `equals` is an
  equivalence.
* `ObjectValue`: a map of values, read and written by field paths.
-/

namespace Firestore

open ThreeWay

/-- `Timestamp`. -/
structure Timestamp where
  seconds : ℤ
  nanoseconds : ℤ
  deriving DecidableEq, Repr

/-- `DatabaseId`. -/
structure DatabaseId where
  project_id : String
  database_id : String
  deriving DecidableEq, Repr

/-- `ResourcePath`. -/
abbrev ResourcePath := List String

/-- `DocumentKey`: a path of collections and documents, which ends in a
document. -/
structure DocumentKey where
  path : ResourcePath
  isDocumentKey : path.length % 2 = 0
  deriving DecidableEq, Repr

lemma DocumentKey.path_injective : Function.Injective DocumentKey.path := by
  rintro ⟨path, _⟩ ⟨path', _⟩ h
  obtain rfl : path = path' := h
  rfl

/-- Keys are ordered as their paths. -/
instance : LinearOrder DocumentKey := LinearOrder.lift' DocumentKey.path DocumentKey.path_injective

/-- `GeoPoint`; the coordinates are finite. -/
structure GeoPoint where
  latitude : ℚ
  longitude : ℚ
  deriving DecidableEq, Repr

/-- `FieldPath`. -/
abbrev FieldPath := List String

deriving instance DecidableEq for Float64

/-- `FieldValue`. -/
inductive FieldValue where
  | null
  | boolean (value : Bool)
  | integer (value : Int64)
  | double (value : Float64)
  | timestamp (value : Timestamp)
  | serverTimestamp (local_write_time : Timestamp) (hasPrevious : Bool)
      (previous_value : hasPrevious = true → FieldValue)
  | string (value : String)
  | blob (value : List UInt8)
  | reference (database_id : DatabaseId) (key : DocumentKey)
  | geoPoint (value : GeoPoint)
  | array (length : ℕ) (value : Fin length → FieldValue)
  | object (keys : List String) (sorted : keys.Pairwise (· < ·))
      (value : Fin keys.length → FieldValue)

/-- `FieldValue::Type`, in the order of the source. -/
inductive FieldType where
  | null
  | boolean
  | integer
  | double
  | timestamp
  | serverTimestamp
  | string
  | blob
  | reference
  | geoPoint
  | array
  | object
  deriving DecidableEq, Repr

namespace FieldType

/-- The position in the enumeration. -/
def index (t : FieldType) : ℕ := t.ctorIdx

/-- `FieldValue::Comparable`. -/
def comparable : FieldType → FieldType → Bool
  | .integer, rhs => rhs = .integer || rhs = .double
  | .double, rhs => rhs = .integer || rhs = .double
  | .timestamp, rhs => rhs = .timestamp || rhs = .serverTimestamp
  | .serverTimestamp, rhs => rhs = .timestamp || rhs = .serverTimestamp
  | lhs, rhs => lhs = rhs

end FieldType

namespace FieldValue

/-- `type()`. -/
def type : FieldValue → FieldType
  | .null => .null
  | .boolean _ => .boolean
  | .integer _ => .integer
  | .double _ => .double
  | .timestamp _ => .timestamp
  | .serverTimestamp .. => .serverTimestamp
  | .string _ => .string
  | .blob _ => .blob
  | .reference .. => .reference
  | .geoPoint _ => .geoPoint
  | .array .. => .array
  | .object .. => .object

/-- `BaseValue::CompareTypes`. -/
def compareTypes (lhs rhs : FieldValue) : Ordering :=
  if lhs.type.comparable rhs.type then .eq else defaultCompare lhs.type.index rhs.type.index

/-- `operator<` of timestamps compares the seconds first. -/
def timestampKey (t : Timestamp) : ℤ ×ₗ ℤ := toLex (t.seconds, t.nanoseconds)

/-- `DatabaseId::CompareTo`, then `DocumentKey::CompareTo`. -/
def referenceKey (d : DatabaseId) (k : DocumentKey) : List String :=
  d.project_id :: d.database_id :: k.path

/-- `operator<` of geo points compares the latitudes first. -/
def geoPointKey (p : GeoPoint) : ℚ ×ₗ ℚ := toLex (p.latitude, p.longitude)

/-- `CompareTo`. -/
def compareTo : FieldValue → FieldValue → Ordering
  | .null, .null => .eq
  | .boolean a, .boolean b => defaultCompare a b
  | .integer a, .integer b => defaultCompare a.toInt b.toInt
  | .double a, .double b => compareDouble a b
  | .integer a, .double b => (compareMixedNumber b a).swap
  | .double a, .integer b => compareMixedNumber a b
  | .timestamp a, .timestamp b => defaultCompare (timestampKey a) (timestampKey b)
  | .timestamp _, .serverTimestamp .. => .lt
  | .serverTimestamp .., .timestamp _ => .gt
  | .serverTimestamp a _ _, .serverTimestamp b _ _ =>
      defaultCompare (timestampKey a) (timestampKey b)
  | .string a, .string b => defaultCompare a b
  | .blob a, .blob b => defaultCompare (a.map UInt8.toNat) (b.map UInt8.toNat)
  | .reference d k, .reference d' k' => defaultCompare (referenceKey d k) (referenceKey d' k')
  | .geoPoint a, .geoPoint b => defaultCompare (geoPointKey a) (geoPointKey b)
  | .array _ f, .array _ g =>
      compareContainer (fun cmp b => cmp b) (List.ofFn fun i => compareTo (f i)) (List.ofFn g)
  | .object ks _ f, .object ks' _ g =>
      compareContainer (fun e e' => (defaultCompare e.1 e'.1).then (e.2 e'.2))
        (List.ofFn fun i => (ks.get i, compareTo (f i))) (List.ofFn fun i => (ks'.get i, g i))
  | a, b => compareTypes a b

/-- `operator==`: it ignores the previous value of a server timestamp, and
compares doubles by their bits. -/
def equals : FieldValue → FieldValue → Bool
  | .null, .null => true
  | .boolean a, .boolean b => a = b
  | .integer a, .integer b => a = b
  | .double a, .double b => a = b
  | .timestamp a, .timestamp b => a = b
  | .serverTimestamp a _ _, .serverTimestamp b _ _ => a = b
  | .string a, .string b => a = b
  | .blob a, .blob b => a = b
  | .reference d k, .reference d' k' => d = d' ∧ k = k'
  | .geoPoint a, .geoPoint b => a = b
  | .array n f, .array n' g =>
      if h : n = n' then (List.finRange n).all fun i => equals (f i) (g (i.cast h)) else false
  | .object ks _ f, .object ks' _ g =>
      if h : ks = ks' then
        (List.finRange ks.length).all fun i => equals (f i) (g (i.cast (h ▸ rfl)))
      else false
  | _, _ => false

/-! ### Kinds -/

/-- The place of the kind of a value among the kinds. -/
def rank : FieldValue → ℕ
  | .null => 0
  | .boolean _ => 1
  | .integer _ => 2
  | .double _ => 2
  | .timestamp _ => 3
  | .serverTimestamp .. => 3
  | .string _ => 4
  | .blob _ => 5
  | .reference .. => 6
  | .geoPoint _ => 7
  | .array .. => 8
  | .object .. => 9

/-- Values of different kinds compare by their kinds. -/
lemma compareTo_of_rank_ne {a b : FieldValue} (h : a.rank ≠ b.rank) :
    compareTo a b = defaultCompare a.rank b.rank := by
  cases a <;> cases b <;> first | rfl | exact absurd rfl h

/-- The place of a number. -/
def numberKey : FieldValue → WithBot (WithBot (WithTop ℚ))
  | .integer n => ratKey n.toInt
  | .double d => d.key
  | _ => ⊥

/-- The place of a timestamp, those of the server last. -/
def timeKey : FieldValue → Bool ×ₗ (ℤ ×ₗ ℤ)
  | .timestamp t => toLex (false, timestampKey t)
  | .serverTimestamp t _ _ => toLex (true, timestampKey t)
  | _ => toLex (false, toLex (0, 0))

lemma rank_eq_two {a : FieldValue} (h : a.rank = 2) :
    (∃ n, a = .integer n) ∨ ∃ d, a = .double d := by
  cases a <;> simp_all [rank]

lemma rank_eq_three {a : FieldValue} (h : a.rank = 3) :
    (∃ t, a = .timestamp t) ∨ ∃ t b f, a = .serverTimestamp t b f := by
  cases a <;> simp_all [rank]

lemma ratKey_intCast_lt {m n : ℤ} : ratKey m < ratKey n ↔ m < n := by
  rw [ratKey_lt, Int.cast_lt]

lemma defaultCompare_ratKey (m n : ℤ) :
    defaultCompare m n = defaultCompare (ratKey m) (ratKey n) := by
  simp only [defaultCompare, ratKey_intCast_lt]

lemma compareTo_number {a b : FieldValue} (ha : a.rank = 2) (hb : b.rank = 2) :
    compareTo a b = defaultCompare a.numberKey b.numberKey := by
  rcases rank_eq_two ha with ⟨m, rfl⟩ | ⟨x, rfl⟩ <;> rcases rank_eq_two hb with ⟨n, rfl⟩ | ⟨y, rfl⟩
  · exact defaultCompare_ratKey m.toInt n.toInt
  · rw [compareTo, compareMixedNumber_eq, ← defaultCompare_eq_compare, ← defaultCompare_swap]
    rfl
  · rw [compareTo, compareMixedNumber_eq, ← defaultCompare_eq_compare]
    rfl
  · rw [compareTo, compareDouble_eq, ← defaultCompare_eq_compare]
    rfl

lemma compareTo_time {a b : FieldValue} (ha : a.rank = 3) (hb : b.rank = 3) :
    compareTo a b = defaultCompare a.timeKey b.timeKey := by
  rcases rank_eq_three ha with ⟨t, rfl⟩ | ⟨t, p, f, rfl⟩ <;>
    rcases rank_eq_three hb with ⟨u, rfl⟩ | ⟨u, q, g, rfl⟩ <;>
    simp [compareTo, timeKey, defaultCompare, Prod.Lex.toLex_lt_toLex]

/-! ### The order -/

/-- The elements of an array. -/
def elements {n : ℕ} (f : Fin n → FieldValue) : List FieldValue := List.ofFn f

/-- The entries of a map. -/
def entries (keys : List String) (f : Fin keys.length → FieldValue) : List (String × FieldValue) :=
  List.ofFn fun i => (keys.get i, f i)

/-- The comparison of entries. -/
def compareEntry (e e' : String × FieldValue) : Ordering :=
  (defaultCompare e.1 e'.1).then (compareTo e.2 e'.2)

lemma compareTo_array {n n' : ℕ} (f : Fin n → FieldValue) (g : Fin n' → FieldValue) :
    compareTo (.array n f) (.array n' g) =
      compareContainer compareTo (elements f) (elements g) := by
  rw [compareTo, elements, elements,
    show (List.ofFn fun i => compareTo (f i)) = (List.ofFn f).map compareTo by
      rw [List.map_ofFn]; rfl,
    compareContainer_map_left]

lemma compareTo_object {ks ks' : List String} (h : ks.Pairwise (· < ·)) (h' : ks'.Pairwise (· < ·))
    (f : Fin ks.length → FieldValue) (g : Fin ks'.length → FieldValue) :
    compareTo (.object ks h f) (.object ks' h' g) =
      compareContainer compareEntry (entries ks f) (entries ks' g) := by
  rw [compareTo, entries, entries,
    show (List.ofFn fun i => (ks.get i, compareTo (f i))) =
        (List.ofFn fun i => (ks.get i, f i)).map fun e => (e.1, compareTo e.2) by
      rw [List.map_ofFn]; rfl,
    compareContainer_map_left]
  rfl

lemma compareTo_of_rank_lt {a b : FieldValue} (h : a.rank < b.rank) : compareTo a b = .lt := by
  rw [compareTo_of_rank_ne h.ne]
  exact defaultCompare_eq_lt.mpr h

lemma rank_le_of_compareTo {a b : FieldValue} (h : compareTo a b ≠ .gt) : a.rank ≤ b.rank := by
  by_contra hlt
  rw [compareTo_of_rank_ne (not_le.mp hlt).ne'] at h
  exact h (defaultCompare_eq_gt.mpr (not_le.mp hlt))

lemma rank_eq_of_compareTo {a b : FieldValue} (h : compareTo a b = .eq) : a.rank = b.rank := by
  by_contra hne
  rw [compareTo_of_rank_ne hne] at h
  exact hne (defaultCompare_eq_eq.mp h)

/-- Three values fit together if they do when they are of one kind. -/
lemma transAt_of_kind {a b c : FieldValue}
    (h : b.rank = a.rank → c.rank = a.rank → TransAt compareTo a b c) :
    TransAt compareTo a b c := by
  have hmixed : compareTo a b = .lt → compareTo b c ≠ .gt →
      ¬ (b.rank = a.rank ∧ c.rank = a.rank) → compareTo a c = .lt := by
    intro hab hbc hne
    have hle := rank_le_of_compareTo (a := a) (b := b) (by simp [hab])
    have hle' := rank_le_of_compareTo hbc
    exact compareTo_of_rank_lt (by omega)
  refine ⟨fun hab => ?_, fun hab hbc => ?_, fun hab hbc => ?_⟩
  · have hrank := rank_eq_of_compareTo hab
    by_cases hc : c.rank = a.rank
    · exact (h hrank.symm hc).of_eq hab
    · rw [compareTo_of_rank_ne (Ne.symm hc), compareTo_of_rank_ne (hrank ▸ Ne.symm hc), hrank]
  · by_cases hkind : b.rank = a.rank ∧ c.rank = a.rank
    · exact (h hkind.1 hkind.2).lt_lt hab hbc
    · exact hmixed hab (by simp [hbc]) hkind
  · by_cases hkind : b.rank = a.rank ∧ c.rank = a.rank
    · exact (h hkind.1 hkind.2).lt_eq hab hbc
    · exact hmixed hab (by simp [hbc]) hkind

/-- The comparisons of three values fit together. -/
theorem transAt_compareTo (a b c : FieldValue) : TransAt compareTo a b c := by
  induction a generalizing b c with
  | null =>
      refine transAt_of_kind fun hb hc => ?_
      cases b <;> simp [rank] at hb
      cases c <;> simp [rank] at hc
      constructor <;> simp [compareTo]
  | boolean x =>
      refine transAt_of_kind fun hb hc => ?_
      cases b <;> simp [rank] at hb
      cases c <;> simp [rank] at hc
      exact transAt_of_key rfl rfl rfl
  | integer n =>
      refine transAt_of_kind fun hb hc => ?_
      exact transAt_of_key (compareTo_number rfl hb) (compareTo_number hb hc)
        (compareTo_number rfl hc)
  | double x =>
      refine transAt_of_kind fun hb hc => ?_
      exact transAt_of_key (compareTo_number rfl hb) (compareTo_number hb hc)
        (compareTo_number rfl hc)
  | timestamp t =>
      refine transAt_of_kind fun hb hc => ?_
      exact transAt_of_key (compareTo_time rfl hb) (compareTo_time hb hc) (compareTo_time rfl hc)
  | serverTimestamp t p f =>
      refine transAt_of_kind fun hb hc => ?_
      exact transAt_of_key (compareTo_time rfl hb) (compareTo_time hb hc) (compareTo_time rfl hc)
  | string x =>
      refine transAt_of_kind fun hb hc => ?_
      cases b <;> simp [rank] at hb
      cases c <;> simp [rank] at hc
      exact transAt_of_key rfl rfl rfl
  | blob x =>
      refine transAt_of_kind fun hb hc => ?_
      cases b <;> simp [rank] at hb
      cases c <;> simp [rank] at hc
      exact transAt_of_key rfl rfl rfl
  | reference d k =>
      refine transAt_of_kind fun hb hc => ?_
      cases b <;> simp [rank] at hb
      cases c <;> simp [rank] at hc
      exact transAt_of_key rfl rfl rfl
  | geoPoint x =>
      refine transAt_of_kind fun hb hc => ?_
      cases b <;> simp [rank] at hb
      cases c <;> simp [rank] at hc
      exact transAt_of_key rfl rfl rfl
  | array n f ih =>
      refine transAt_of_kind fun hb hc => ?_
      cases b <;> simp [rank] at hb
      cases c <;> simp [rank] at hc
      next n' g n'' k =>
        have helem : ∀ a ∈ elements f, ∀ b c, TransAt compareTo a b c := by
          intro a ha
          obtain ⟨i, rfl⟩ := List.mem_ofFn.mp ha
          exact ih i
        have hlist := transAt_compareContainer helem (elements g) (elements k)
        constructor <;> simp only [compareTo_array]
        · exact hlist.of_eq
        · exact hlist.lt_lt
        · exact hlist.lt_eq
  | object ks hs f ih =>
      refine transAt_of_kind fun hb hc => ?_
      cases b <;> simp [rank] at hb
      cases c <;> simp [rank] at hc
      next ks' hs' g ks'' hs'' k =>
        have helem : ∀ e ∈ entries ks f, ∀ e' e'', TransAt compareEntry e e' e'' := by
          intro e he e' e''
          obtain ⟨i, rfl⟩ := List.mem_ofFn.mp he
          have hkey : TransAt (fun x y : String × FieldValue => defaultCompare x.1 y.1)
              (ks.get i, f i) e' e'' := transAt_of_key rfl rfl rfl
          have hvalue : TransAt (fun x y : String × FieldValue => compareTo x.2 y.2)
              (ks.get i, f i) e' e'' := ⟨(ih i _ _).of_eq, (ih i _ _).lt_lt, (ih i _ _).lt_eq⟩
          exact hkey.then hvalue
        have hlist := transAt_compareContainer helem (entries ks' g) (entries ks'' k)
        constructor <;> simp only [compareTo_object]
        · exact hlist.of_eq
        · exact hlist.lt_lt
        · exact hlist.lt_eq

/-- Two values compare the other way round if they do when they are of one
kind. -/
lemma compareTo_swap_of_kind {a b : FieldValue}
    (h : b.rank = a.rank → compareTo b a = (compareTo a b).swap) :
    compareTo b a = (compareTo a b).swap := by
  by_cases hrank : b.rank = a.rank
  · exact h hrank
  · rw [compareTo_of_rank_ne hrank, compareTo_of_rank_ne (Ne.symm hrank), defaultCompare_swap]

/-- **Two values compare the other way round.** -/
theorem compareTo_swap (a b : FieldValue) : compareTo b a = (compareTo a b).swap := by
  induction a generalizing b with
  | null =>
      refine compareTo_swap_of_kind fun hb => ?_
      cases b <;> simp [rank] at hb
      rfl
  | integer n =>
      refine compareTo_swap_of_kind fun hb => ?_
      rw [compareTo_number hb rfl, compareTo_number rfl hb, defaultCompare_swap]
  | double x =>
      refine compareTo_swap_of_kind fun hb => ?_
      rw [compareTo_number hb rfl, compareTo_number rfl hb, defaultCompare_swap]
  | timestamp t =>
      refine compareTo_swap_of_kind fun hb => ?_
      rw [compareTo_time hb rfl, compareTo_time rfl hb, defaultCompare_swap]
  | serverTimestamp t p f =>
      refine compareTo_swap_of_kind fun hb => ?_
      rw [compareTo_time hb rfl, compareTo_time rfl hb, defaultCompare_swap]
  | array n f ih =>
      refine compareTo_swap_of_kind fun hb => ?_
      cases b <;> simp [rank] at hb
      next n' g =>
        rw [compareTo_array, compareTo_array]
        refine compareContainer_swap (fun v hv w => ?_) (elements g)
        obtain ⟨i, rfl⟩ := List.mem_ofFn.mp hv
        exact ih i w
  | object ks hs f ih =>
      refine compareTo_swap_of_kind fun hb => ?_
      cases b <;> simp [rank] at hb
      next ks' hs' g =>
        rw [compareTo_object, compareTo_object]
        refine compareContainer_swap (fun e he e' => ?_) (entries ks' g)
        obtain ⟨i, rfl⟩ := List.mem_ofFn.mp he
        rw [compareEntry, compareEntry, Ordering.swap_then, ih i e'.2, defaultCompare_swap]
  | _ =>
      refine compareTo_swap_of_kind fun hb => ?_
      cases b <;> simp [rank] at hb
      rw [compareTo, compareTo, defaultCompare_swap]

/-- **The order of values is total and transitive.** -/
theorem transCmp_compareTo : Std.TransCmp compareTo :=
  transCmp_of_transAt compareTo_swap transAt_compareTo

/-! ### Equality -/

/-- A value without the previous values of its server timestamps. -/
def canonical : FieldValue → FieldValue
  | .serverTimestamp t _ _ => .serverTimestamp t false fun h => absurd h Bool.false_ne_true
  | .array n f => .array n fun i => canonical (f i)
  | .object ks h f => .object ks h fun i => canonical (f i)
  | v => v

/-- Values are equal if they are but for the previous values. -/
theorem equals_iff (a b : FieldValue) : equals a b = true ↔ canonical a = canonical b := by
  induction a generalizing b with
  | array n f ih =>
      cases b <;> simp only [equals, canonical, reduceCtorEq, Bool.false_eq_true]
      next n' g =>
        by_cases hn : n = n'
        · subst hn
          simp only [↓reduceDIte, List.all_eq_true, List.mem_finRange, forall_const, ih,
            array.injEq, heq_eq_eq, true_and, funext_iff, Fin.cast_eq_self]
        · simp [hn]
  | object ks hs f ih =>
      cases b <;> simp only [equals, canonical, reduceCtorEq, Bool.false_eq_true]
      next ks' hs' g =>
        by_cases hk : ks = ks'
        · subst hk
          simp only [↓reduceDIte, List.all_eq_true, List.mem_finRange, forall_const, ih,
            object.injEq, heq_eq_eq, true_and, funext_iff, Fin.cast_eq_self]
        · simp [hk]
  | _ => cases b <;> simp [equals, canonical]

@[simp] lemma equals_self (a : FieldValue) : equals a a = true := (equals_iff a a).mpr rfl

/-- The order ignores the previous values. -/
lemma compareTo_canonical (a b : FieldValue) : compareTo (canonical a) b = compareTo a b := by
  induction a generalizing b with
  | array n f ih =>
      cases b <;> try rfl
      next n' g =>
        rw [canonical, compareTo_array, compareTo_array,
          show (elements fun i => canonical (f i)) = (elements f).map canonical by
            rw [elements, elements, List.map_ofFn]; rfl,
          compareContainer_map_left]
        refine compareContainer_congr (fun v hv w => ?_) (elements g)
        obtain ⟨i, rfl⟩ := List.mem_ofFn.mp hv
        exact ih i w
  | object ks hs f ih =>
      cases b <;> try rfl
      next ks' hs' g =>
        rw [canonical, compareTo_object, compareTo_object,
          show (entries ks fun i => canonical (f i)) =
              (entries ks f).map fun e => (e.1, canonical e.2) by
            rw [entries, entries, List.map_ofFn]; rfl,
          compareContainer_map_left]
        refine compareContainer_congr (fun e he e' => ?_) (entries ks' g)
        obtain ⟨i, rfl⟩ := List.mem_ofFn.mp he
        rw [compareEntry, compareEntry, ih i e'.2]
  | _ => cases b <;> rfl

lemma compareTo_self (a : FieldValue) : compareTo a a = .eq := by
  have hswap := compareTo_swap a a
  cases h : compareTo a a <;> simp_all

/-- **Equal values compare the same.** -/
theorem compareTo_of_equals {a b : FieldValue} (h : equals a b = true) : compareTo a b = .eq :=
  calc compareTo a b = compareTo (canonical a) b := (compareTo_canonical a b).symm
    _ = (compareTo b (canonical a)).swap := compareTo_swap b (canonical a)
    _ = (compareTo (canonical b) (canonical a)).swap := by rw [compareTo_canonical b]
    _ = .eq := by rw [(equals_iff a b).mp h, compareTo_self]; rfl

theorem compareTo_of_equals_nan :
    compareTo (.double .nan) (.double .nan) = .eq := compareTo_of_equals (by decide)

/-! ### Constructors -/

/-- `FromArray`. -/
def fromArray (l : List FieldValue) : FieldValue := .array l.length l.get

/-- `FromServerTimestamp`. -/
def fromServerTimestamp (local_write_time : Timestamp) : Option FieldValue → FieldValue
  | some v => .serverTimestamp local_write_time true fun _ => v
  | none => .serverTimestamp local_write_time false fun h => absurd h Bool.false_ne_true

@[simp] lemma elements_get (l : List FieldValue) : elements l.get = l := List.ofFn_get l

/-- A map is a value, and a value may be a map. -/
instance : Nested String FieldValue where
  fields v :=
    match v with
    | .object ks h f => some ⟨ks, h, f⟩
    | _ => none
  node m := .object m.keys m.sorted m.value
  fields_node _ := rfl
  node_of_fields {v m} h := by
    cases v <;> simp at h
    subst h
    rfl

end FieldValue

/-- `ObjectValue`. -/
abbrev ObjectValue := SortedMap String FieldValue


end Firestore
