import Tasker.Firestore.FieldValue

/-!
Paths as texts (`model/field_path.cc`, `model/resource_path.cc`).

* `canonicalString`, `fromServerFormat`: a field path as it is stored and sent, with
  segments that are no identifiers in backquotes, and the scanner that reads it.
  `fromServerFormat_canonicalString`: the path is read back exactly if it has
  segments, none of them empty and none with a null character.
* `fromDotSeparatedString`: the field paths the app writes;
  `fromDotSeparatedString_eq_ok_iff`: what is accepted.
* `resourcePathFromString`, `resourcePathString`: paths of documents and
  collections; `resourcePathFromString_resourcePathString`: which are read back.
-/

namespace Firestore

/-! ### Field paths -/

/-- The quotation mark of segments. -/
def backquote : Char := Char.ofNat 96

def backslash : Char := '\\'

/-- The first characters of identifiers. -/
def isIdentifierStart (c : Char) : Bool :=
  c = '_' || ('a' ≤ c && c ≤ 'z') || ('A' ≤ c && c ≤ 'Z')

/-- The further characters of identifiers. -/
def isIdentifierPart (c : Char) : Bool := isIdentifierStart c || ('0' ≤ c && c ≤ '9')

/-- `IsValidIdentifier`. -/
def isValidIdentifier : List Char → Bool
  | [] => false
  | first :: rest => isIdentifierStart first && rest.all isIdentifierPart

/-- The replacements of `StrReplaceAll`. -/
def escapeChar (c : Char) : List Char :=
  if c = backslash || c = backquote then [backslash, c] else [c]

/-- `escaped_segment`. -/
def escapedSegment (segment : List Char) : List Char :=
  let escaped := segment.flatMap escapeChar
  if isValidIdentifier escaped then escaped else backquote :: escaped ++ [backquote]

/-- The segments joined by dots. -/
def joinEscaped : FieldPath → List Char
  | [] => []
  | [segment] => escapedSegment segment.toList
  | segment :: path => escapedSegment segment.toList ++ '.' :: joinEscaped path

/-- `CanonicalString`. -/
def canonicalString (path : FieldPath) : String := String.ofList (joinEscaped path)

/-- The last segment finished, unless it is empty or in a quotation that is not
closed. -/
def finishPath (segments : FieldPath) (segment : List Char) (inside_backticks : Bool) :
    Option FieldPath :=
  if segment = [] || inside_backticks then none else some (segments ++ [String.ofList segment])

/-- The loop of `FromServerFormat`; nothing if an assertion fails. -/
def scanPath (segments : FieldPath) (segment : List Char) (inside_backticks : Bool) :
    List Char → Option FieldPath
  | [] => finishPath segments segment inside_backticks
  | c :: path =>
      if c = '\x00' then finishPath segments segment inside_backticks
      else if c = '.' then
        if inside_backticks then scanPath segments (segment ++ [c]) inside_backticks path
        else if segment = [] then none
        else scanPath (segments ++ [String.ofList segment]) [] inside_backticks path
      else if c = backquote then scanPath segments segment (!inside_backticks) path
      else if c = backslash then
        match path with
        | [] => none
        | c :: path => scanPath segments (segment ++ [c]) inside_backticks path
      else scanPath segments (segment ++ [c]) inside_backticks path

/-- `FromServerFormat`. -/
def fromServerFormat (path : String) : Option FieldPath := scanPath [] [] false path.toList

/-! ### Reading back what was written -/

lemma scanPath_cons (segments : FieldPath) (segment : List Char) (inside : Bool) {c : Char}
    (hnull : c ≠ '\x00') (hquote : c ≠ backquote) (hslash : c ≠ backslash)
    (hdot : c = '.' → inside = true) (rest : List Char) :
    scanPath segments segment inside (c :: rest) =
      scanPath segments (segment ++ [c]) inside rest := by
  rw [scanPath.eq_def]
  dsimp only
  rw [if_neg hnull, if_neg hquote, if_neg hslash]
  split_ifs with h h'
  · rfl
  · exact absurd (hdot h) h'
  · exact absurd (hdot h) h'
  · rfl

lemma scanPath_escaped (segments : FieldPath) (segment : List Char) (inside : Bool) {c : Char}
    (rest : List Char) :
    scanPath segments segment inside (backslash :: c :: rest) =
      scanPath segments (segment ++ [c]) inside rest := by
  rw [scanPath, if_neg (by decide), if_neg (by decide), if_neg (by decide), if_pos rfl]

lemma scanPath_quote (segments : FieldPath) (segment : List Char) (inside : Bool)
    (rest : List Char) :
    scanPath segments segment inside (backquote :: rest) =
      scanPath segments segment (!inside) rest := by
  rw [scanPath.eq_def]
  dsimp only
  rw [if_neg (by decide), if_neg (by decide), if_pos rfl]

lemma scanPath_dot (segments : FieldPath) (segment rest : List Char) :
    scanPath segments segment false ('.' :: rest) =
      if segment = [] then none
      else scanPath (segments ++ [String.ofList segment]) [] false rest := by
  rw [scanPath.eq_def]
  dsimp only
  rw [if_neg (by decide), if_pos rfl, if_neg Bool.false_ne_true]

/-- A quoted segment is read up to its end. -/
lemma scanPath_quoted (segments : FieldPath) (segment s : List Char) (hs : '\x00' ∉ s)
    (rest : List Char) :
    scanPath segments segment true (s.flatMap escapeChar ++ rest) =
      scanPath segments (segment ++ s) true rest := by
  induction s generalizing segment with
  | nil => rw [List.flatMap_nil, List.nil_append, List.append_nil]
  | cons c s ih =>
      rw [List.mem_cons, not_or] at hs
      rw [List.flatMap_cons, List.append_assoc, escapeChar]
      have hstep : segment ++ c :: s = (segment ++ [c]) ++ s := by simp
      split_ifs with hescape
      · rw [List.cons_append, List.cons_append, List.nil_append, scanPath_escaped, ih _ hs.2, hstep]
      · rw [Bool.or_eq_true, not_or, decide_eq_true_eq, decide_eq_true_eq] at hescape
        rw [List.cons_append, List.nil_append,
          scanPath_cons segments segment true (Ne.symm hs.1) hescape.2 hescape.1 fun _ => rfl,
          ih _ hs.2, hstep]

/-- A quoted segment is not finished at a null character. -/
lemma scanPath_null (segments : FieldPath) (segment s : List Char) (hs : '\x00' ∈ s)
    (rest : List Char) :
    scanPath segments segment true (s.flatMap escapeChar ++ rest) = none := by
  obtain ⟨before, after, rfl, hbefore⟩ := List.eq_append_cons_of_mem hs
  rw [List.flatMap_append, List.append_assoc, scanPath_quoted _ _ _ hbefore, List.flatMap_cons,
    escapeChar, if_neg (by decide), List.append_assoc, List.cons_append, scanPath.eq_def]
  dsimp only
  rw [if_pos rfl, finishPath, Bool.or_true, if_pos rfl]

/-- Identifiers have no characters to escape. -/
lemma plain_of_isIdentifierPart {c : Char} (h : isIdentifierPart c = true) :
    c ≠ '\x00' ∧ c ≠ '.' ∧ c ≠ backquote ∧ c ≠ backslash := by
  refine ⟨?_, ?_, ?_, ?_⟩ <;> rintro rfl <;> exact absurd h (by decide)

lemma forall_of_isValidIdentifier {s : List Char} (h : isValidIdentifier s = true) :
    s ≠ [] ∧ ∀ c ∈ s, isIdentifierPart c = true := by
  cases s with
  | nil => exact absurd h (by decide)
  | cons c s =>
      rw [isValidIdentifier, Bool.and_eq_true, List.all_eq_true] at h
      refine ⟨List.cons_ne_nil _ _, fun d hd => ?_⟩
      rcases List.mem_cons.mp hd with rfl | hmem
      · rw [isIdentifierPart, h.1, Bool.true_or]
      · exact h.2 d hmem

/-- An escaped segment that is an identifier is the segment. -/
lemma eq_of_isValidIdentifier {s : List Char}
    (h : isValidIdentifier (s.flatMap escapeChar) = true) :
    s.flatMap escapeChar = s := by
  have hall := (forall_of_isValidIdentifier h).2
  have hplain : ∀ c ∈ s, escapeChar c = [c] := by
    intro c hc
    rw [escapeChar]
    split_ifs with hescape
    · have hslash : backslash ∈ s.flatMap escapeChar :=
        List.mem_flatMap.mpr ⟨c, hc, by rw [escapeChar, if_pos hescape]; exact List.mem_cons_self⟩
      exact absurd rfl (plain_of_isIdentifierPart (hall _ hslash)).2.2.2
    · rfl
  rw [List.flatMap_congr hplain]
  exact List.flatMap_singleton' s

/-- An identifier is read as it stands. -/
lemma scanPath_identifier (segments : FieldPath) (segment s : List Char)
    (hs : ∀ c ∈ s, isIdentifierPart c = true) (rest : List Char) :
    scanPath segments segment false (s ++ rest) = scanPath segments (segment ++ s) false rest := by
  induction s generalizing segment with
  | nil => rw [List.nil_append, List.append_nil]
  | cons c s ih =>
      obtain ⟨hnull, hdot, hquote, hslash⟩ := plain_of_isIdentifierPart (hs c List.mem_cons_self)
      rw [List.cons_append, scanPath_cons segments segment false hnull hquote hslash
        fun h => absurd h hdot, ih _ fun d hd => hs d (List.mem_cons_of_mem c hd)]
      simp

/-- **A segment is read back**, unless it has a null character. -/
lemma scanPath_escapedSegment (segments : FieldPath) (s rest : List Char) :
    scanPath segments [] false (escapedSegment s ++ rest) =
      if '\x00' ∈ s then none else scanPath segments s false rest := by
  rw [escapedSegment]
  split_ifs with hvalid hnull
  · rw [eq_of_isValidIdentifier hvalid] at hvalid
    have hpart := (forall_of_isValidIdentifier hvalid).2 _ hnull
    exact absurd rfl (plain_of_isIdentifierPart hpart).1
  · have hs := eq_of_isValidIdentifier hvalid
    rw [hs] at hvalid ⊢
    rw [scanPath_identifier segments [] s (forall_of_isValidIdentifier hvalid).2, List.nil_append]
  · rename_i hnull
    rw [List.cons_append, List.cons_append, scanPath_quote, Bool.not_false, List.append_assoc,
      scanPath_null _ _ _ hnull]
  · rename_i hnull
    rw [List.cons_append, List.cons_append, scanPath_quote, Bool.not_false, List.append_assoc,
      scanPath_quoted _ _ _ hnull, List.cons_append, scanPath_quote, List.nil_append]
    rfl

/-- The segment can be part of a path. -/
def ReadableSegment (segment : String) : Prop := segment ≠ "" ∧ '\x00' ∉ segment.toList

instance (segment : String) : Decidable (ReadableSegment segment) :=
  inferInstanceAs (Decidable (_ ∧ _))

lemma scanPath_joinEscaped (segments path : FieldPath) :
    scanPath segments [] false (joinEscaped path) =
      if path ≠ [] ∧ ∀ s ∈ path, ReadableSegment s then some (segments ++ path) else none := by
  induction path generalizing segments with
  | nil => rfl
  | cons s path ih =>
      have hcons : (s :: path ≠ [] ∧ ∀ t ∈ s :: path, ReadableSegment t) ↔
          ReadableSegment s ∧ ∀ t ∈ path, ReadableSegment t := by
        rw [List.forall_mem_cons, and_iff_right (List.cons_ne_nil s path)]
      have hempty : s.toList = [] ↔ s = "" := String.toList_eq_nil_iff
      simp only [hcons]
      cases path with
      | nil =>
          rw [joinEscaped, ← List.append_nil (escapedSegment _), scanPath_escapedSegment,
            scanPath, finishPath, Bool.or_false, String.ofList_toList]
          by_cases hnull : '\x00' ∈ s.toList <;> by_cases hs : s = "" <;>
            simp [ReadableSegment, hnull, hs]
      | cons t path =>
          rw [joinEscaped, scanPath_escapedSegment, scanPath_dot, String.ofList_toList,
            ih (segments ++ [s]), List.append_assoc, List.singleton_append]
          · by_cases hnull : '\x00' ∈ s.toList <;> by_cases hs : s = "" <;>
              simp [ReadableSegment, hnull, hs]
          · exact fun h => absurd h (List.cons_ne_nil t path)

/-- **A path is read back** exactly if it has segments, none of them empty and none
with a null character. -/
theorem fromServerFormat_canonicalString (path : FieldPath) :
    fromServerFormat (canonicalString path) =
      if path ≠ [] ∧ ∀ s ∈ path, ReadableSegment s then some path else none := by
  rw [fromServerFormat, canonicalString, String.toList_ofList, scanPath_joinEscaped,
    List.nil_append]

/-! ### The paths of fields the app writes -/

/-- The characters of `find_first_of`. -/
def excluded : List Char := ['~', '*', '/', '[', ']']

/-- `FromDotSeparatedString`. -/
def fromDotSeparatedString (path : String) : Except String FieldPath :=
  if path.toList.any fun c => excluded.contains c then
    .error s!"Invalid field path ({path}). Paths must not contain '~', '*', '/', '[', or ']'"
  else
    let segments := path.toList.splitOn '.'
    if [] ∈ segments then
      .error (s!"Invalid field path ({path}). Paths must not be empty, begin with '.', " ++
        "end with '.', or contain '..'")
    else .ok (segments.map String.ofList)

/-- The segment can be written between dots. -/
def DotSegment (segment : String) : Prop :=
  segment ≠ "" ∧ ∀ c ∈ segment.toList, c ≠ '.' ∧ c ∉ excluded

lemma notMem_of_mem_splitOn {α : Type*} [BEq α] [LawfulBEq α] {a : α} {xs l : List α}
    (hl : l ∈ xs.splitOn a) : a ∉ l := by
  induction xs generalizing l with
  | nil =>
      rw [List.splitOn_nil, List.mem_singleton] at hl
      rw [hl]
      exact List.not_mem_nil
  | cons x xs ih =>
      rw [List.splitOn_cons_eq_if_modifyHead] at hl
      split_ifs at hl with hx
      · rcases List.mem_cons.mp hl with rfl | hmem
        · exact List.not_mem_nil
        · exact ih hmem
      · cases hsplit : xs.splitOn a with
        | nil => exact absurd hsplit (List.splitOn_ne_nil a xs)
        | cons first rest =>
            rw [hsplit, List.modifyHead_cons] at hl
            rcases List.mem_cons.mp hl with rfl | hmem
            · rw [List.mem_cons, not_or]
              refine ⟨fun h => hx (by rw [h, BEq.rfl]), ih ?_⟩
              rw [hsplit]
              exact List.mem_cons_self
            · refine ih ?_
              rw [hsplit]
              exact List.mem_cons_of_mem first hmem

lemma mem_intercalate_iff {α : Type*} {a c : α} {ls : List (List α)} :
    c ∈ List.intercalate [a] ls ↔ (∃ l ∈ ls, c ∈ l) ∨ (c = a ∧ 1 < ls.length) := by
  induction ls with
  | nil => simp
  | cons l ls ih =>
      cases ls with
      | nil => simp
      | cons k ls =>
          rw [List.intercalate_cons_cons, List.mem_append, List.mem_append, ih, List.mem_singleton,
            List.exists_mem_cons_iff (l := k :: ls)]
          constructor
          · rintro ((h | h) | h | h)
            · exact Or.inl (Or.inl h)
            · exact Or.inr ⟨h, by simp⟩
            · exact Or.inl (Or.inr h)
            · exact Or.inr ⟨h.1, by simp⟩
          · rintro ((h | h) | h)
            · exact Or.inl (Or.inl h)
            · exact Or.inr (Or.inl h)
            · exact Or.inl (Or.inr h.1)

/-- **What is read**: the segments between the dots, if none is empty and no excluded
character is in the text. -/
theorem fromDotSeparatedString_eq_ok_iff (path : String) (segments : FieldPath) :
    fromDotSeparatedString path = .ok segments ↔
      segments ≠ [] ∧ (∀ s ∈ segments, DotSegment s) ∧
        path.toList = List.intercalate ['.'] (segments.map String.toList) := by
  constructor
  · intro h
    rw [fromDotSeparatedString] at h
    dsimp only at h
    split_ifs at h with hexcluded hempty
    injection h with h
    have hsegments : segments.map String.toList = path.toList.splitOn '.' := by
      rw [← h, List.map_map]
      exact (List.map_congr_left fun l _ => String.toList_ofList).trans (List.map_id _)
    have hpath : path.toList = List.intercalate ['.'] (segments.map String.toList) := by
      rw [hsegments, List.intercalate_splitOn]
    refine ⟨?_, fun s hs => ?_, hpath⟩
    · rintro rfl
      exact List.splitOn_ne_nil '.' _ hsegments.symm
    · have hmem : s.toList ∈ segments.map String.toList := List.mem_map_of_mem hs
      refine ⟨?_, fun c hc => ⟨?_, fun hexcl => hexcluded ?_⟩⟩
      · rintro rfl
        exact hempty (hsegments ▸ hmem)
      · rintro rfl
        exact notMem_of_mem_splitOn (hsegments ▸ hmem) hc
      · rw [List.any_eq_true]
        refine ⟨c, ?_, List.contains_iff_mem.mpr hexcl⟩
        rw [hpath, mem_intercalate_iff]
        exact Or.inl ⟨s.toList, hmem, hc⟩
  · rintro ⟨hne, hall, hpath⟩
    have hsplit : path.toList.splitOn '.' = segments.map String.toList := by
      rw [hpath]
      refine List.splitOn_intercalate '.' (fun l hl hdot => ?_) fun h =>
        hne (List.map_eq_nil_iff.mp h)
      obtain ⟨s, hs, rfl⟩ := List.mem_map.mp hl
      exact ((hall s hs).2 _ hdot).1 rfl
    have hexcluded : ¬path.toList.any (fun c => excluded.contains c) = true := by
      rw [List.any_eq_true]
      rintro ⟨c, hc, hexcl⟩
      rw [hpath, mem_intercalate_iff] at hc
      rw [List.contains_iff_mem] at hexcl
      rcases hc with ⟨l, hl, hc⟩ | ⟨rfl, -⟩
      · obtain ⟨s, hs, rfl⟩ := List.mem_map.mp hl
        exact ((hall s hs).2 c hc).2 hexcl
      · exact absurd hexcl (by decide)
    have hempty : [] ∉ segments.map String.toList := by
      intro hmem
      obtain ⟨s, hs, hnil⟩ := List.mem_map.mp hmem
      exact (hall s hs).1 (String.toList_eq_nil_iff.mp hnil)
    rw [fromDotSeparatedString, if_neg hexcluded]
    simp only [hsplit]
    rw [if_neg hempty, List.map_map]
    exact congrArg Except.ok
      ((List.map_congr_left fun s _ => String.ofList_toList).trans (List.map_id _))

/-! ### Paths of documents and collections -/

/-- `FromString`; nothing if the assertion fails. -/
def resourcePathFromString (path : String) : Option (List String) :=
  if ['/', '/'] <:+: path.toList then none
  else some (((path.toList.splitOn '/').filter (· ≠ [])).map String.ofList)

/-- `CanonicalString` of a resource path. -/
def resourcePathString (path : List String) : String :=
  String.ofList (List.intercalate ['/'] (path.map String.toList))

/-- The segment can be written between slashes. -/
def SlashSegment (segment : String) : Prop := segment ≠ "" ∧ '/' ∉ segment.toList

/-- Two slashes in a row have an empty segment between them. -/
lemma nil_mem_splitOn {xs : List Char} (h : ['/', '/'] <:+: xs) : [] ∈ xs.splitOn '/' := by
  obtain ⟨before, after, rfl⟩ := h
  have hslash : before ++ ['/', '/'] ++ after = before ++ '/' :: ([] ++ '/' :: after) := by simp
  rw [hslash, List.splitOn_append_cons_self, List.splitOn_append_cons_self, List.splitOn_nil]
  exact List.mem_append_right _ (List.mem_append_left _ List.mem_cons_self)

/-- What is read has segments that can be written between slashes. -/
lemma slashSegment_of_resourcePathFromString {text : String} {path : List String}
    (h : resourcePathFromString text = some path) : ∀ s ∈ path, SlashSegment s := by
  rw [resourcePathFromString] at h
  split_ifs at h
  injection h with h
  intro s hs
  rw [← h] at hs
  obtain ⟨l, hl, rfl⟩ := List.mem_map.mp hs
  rw [List.mem_filter, decide_eq_true_eq] at hl
  refine ⟨fun hempty => hl.2 ?_, ?_⟩
  · rw [← String.toList_ofList (l := l), hempty, String.toList_empty]
  · rw [String.toList_ofList]
    exact notMem_of_mem_splitOn hl.1

/-- **A path is read back** exactly if its segments are not empty and have no slash. -/
theorem resourcePathFromString_resourcePathString (path : List String) :
    resourcePathFromString (resourcePathString path) = some path ↔
      ∀ s ∈ path, SlashSegment s := by
  refine ⟨slashSegment_of_resourcePathFromString, fun hall => ?_⟩
  rw [resourcePathFromString, resourcePathString, String.toList_ofList]
  by_cases hpath : path = []
  · rw [hpath]
    decide
  · have hsplit : (List.intercalate ['/'] (path.map String.toList)).splitOn '/' =
        path.map String.toList := by
      refine List.splitOn_intercalate '/' (fun l hl hslash => ?_)
        fun h => hpath (List.map_eq_nil_iff.mp h)
      obtain ⟨s, hs, rfl⟩ := List.mem_map.mp hl
      exact (hall s hs).2 hslash
    have hempty : ∀ l ∈ path.map String.toList, l ≠ [] := by
      intro l hl
      obtain ⟨s, hs, rfl⟩ := List.mem_map.mp hl
      exact fun h => (hall s hs).1 (String.toList_eq_nil_iff.mp h)
    have hslashes : ¬['/', '/'] <:+: List.intercalate ['/'] (path.map String.toList) := by
      intro h
      refine hempty [] ?_ rfl
      rw [← hsplit]
      exact nil_mem_splitOn h
    rw [if_neg hslashes, hsplit,
      List.filter_eq_self.mpr fun l hl => decide_eq_true (hempty l hl), List.map_map]
    exact congrArg some
      ((List.map_congr_left fun s _ => String.ofList_toList).trans (List.map_id _))

end Firestore
