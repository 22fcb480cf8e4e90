import FileNest.Lib.PartialQuery
import FileNest.Lib.Utf16
import FileNest.Isolation

/-!
# Searching metadata

Metadata is a column of text.  What a client sends as JSON is written with `json.dumps`, which has a
text for values that PostgreSQL's JSONB has not: a character 0, half a surrogate pair, numbers that
are not finite.  A search casts the texts, and a cast that fails is the end of the query.  What it
compares them with is the text of the filter, and that as a string.

## Main definitions

* `PyJson`, `PyJson.contains` — the values Python reads and writes, and containment of them.
* `PyJson.cast`, `PyJson.Castable` — their cast to JSONB, and the values that have one.
* `MetadataSearch.count`, `MetadataSearch.list` — the two queries of a listing.
* `SearchExact` — they answer, with the files whose metadata contains the filter.
* `MetadataWrite` — the operations that write metadata.

## Main results

* `contains_cast` — what has a cast contains what its cast contains.
* `filtered_eq_some_iff`, `count_eq_none` — with a filter nothing is found, and nothing is answered
  if a row in scope has no cast.
* `answers_of_sent` — searches answer where only values with a cast are sent.
* `count_ofFile`, `list_ofFile` — queries that answer do so as the model of `FileRepository`.
* `metadataSearch_iff` — **a search is exact iff its filter is empty, or all metadata that is looked
  at has a cast and none in scope contains the filter.**
-/

namespace FileNest

open RowStore PartialQuery

/-- A number `json.loads` reads. -/
inductive PyNumber where
  | finite (n : Number)
  | nan
  | infinity (negative : Bool)
  deriving DecidableEq

/-- Finite numbers are compared by value. -/
def PyNumber.sameValue : PyNumber → PyNumber → Bool
  | finite m, finite n => m.value == n.value
  | a, b => a == b

/-- A value `json.loads` reads; a text is the code units `json.dumps` writes for it. -/
inductive PyJson where
  | null
  | bool (b : Bool)
  | num (n : PyNumber)
  | str (s : List UInt16)
  | arr (xs : List PyJson)
  | obj (fields : List (List UInt16 × PyJson))

/-- The fields of an object. -/
abbrev PyFields := List (List UInt16 × PyJson)

/-- The cast of a text. -/
def castText (s : List UInt16) : Option String :=
  if 0 ∈ s then none else (Utf16.decode s).map String.ofList

namespace PyJson

mutual

/-- The cast to JSONB, which may fail. -/
def cast : PyJson → Option Json
  | null => some .null
  | bool b => some (.bool b)
  | num (.finite n) => some (.num n)
  | num .nan => none
  | num (.infinity _) => none
  | str s => (castText s).map .str
  | arr xs => (castElems xs).map .arr
  | obj fs => (castFields fs).map .obj

/-- Likewise of the elements of an array. -/
def castElems : List PyJson → Option (List Json)
  | [] => some []
  | x :: xs => do
      let y ← cast x
      let ys ← castElems xs
      return y :: ys

/-- Likewise of the fields of an object. -/
def castFields : List (List UInt16 × PyJson) → Option Fields
  | [] => some []
  | (k, x) :: fs => do
      let l ← castText k
      let y ← cast x
      let gs ← castFields fs
      return (l, y) :: gs

end

mutual

/-- The value has a cast. -/
def Castable : PyJson → Prop
  | null | bool _ | num (.finite _) => True
  | num .nan | num (.infinity _) => False
  | str s => 0 ∉ s ∧ (Utf16.decode s).isSome
  | arr xs => CastableElems xs
  | obj fs => CastableFields fs

/-- So have all elements. -/
def CastableElems : List PyJson → Prop
  | [] => True
  | x :: xs => Castable x ∧ CastableElems xs

/-- So have all fields, with their keys. -/
def CastableFields : List (List UInt16 × PyJson) → Prop
  | [] => True
  | (k, x) :: fs => (0 ∉ k ∧ (Utf16.decode k).isSome) ∧ Castable x ∧ CastableFields fs

end

mutual

/-- Containment, as JSONB has it. -/
def contains : PyJson → PyJson → Bool
  | obj fs, obj gs => containsFields fs gs
  | arr xs, arr ys => containsElems xs ys
  | null, null => true
  | bool a, bool b => a == b
  | num a, num b => a.sameValue b
  | str a, str b => a == b
  | _, _ => false

/-- Every field of the pattern is in the document with a value that contains it. -/
def containsFields (fs : List (List UInt16 × PyJson)) : List (List UInt16 × PyJson) → Bool
  | [] => true
  | (k, y) :: gs => fs.any (fun f => f.1 == k && contains f.2 y) && containsFields fs gs

/-- Every element of the pattern is contained in some element of the document. -/
def containsElems (xs : List PyJson) : List PyJson → Bool
  | [] => true
  | y :: ys => xs.any (fun x => contains x y) && containsElems xs ys

end

end PyJson

/-! ### The cast -/

theorem isSome_castText {s : List UInt16} :
    (castText s).isSome ↔ 0 ∉ s ∧ (Utf16.decode s).isSome := by
  by_cases h : 0 ∈ s <;> simp [castText, h]

/-- A text has one spelling. -/
theorem castText_inj {s t : List UInt16} {u : String} (hs : castText s = some u)
    (ht : castText t = some u) : s = t := by
  have hdecode {v : List UInt16} (hv : castText v = some u) : Utf16.decode v = some u.toList := by
    unfold castText at hv
    split at hv
    · cases hv
    · obtain ⟨cs, hcs, rfl⟩ := Option.map_eq_some_iff.mp hv
      rw [hcs, String.toList_ofList]
  exact (Utf16.encode_of_decode (hdecode hs)).symm.trans (Utf16.encode_of_decode (hdecode ht))

theorem castText_beq {s t : List UInt16} {u v : String} (hs : castText s = some u)
    (ht : castText t = some v) : (u == v) = (s == t) := by
  rw [Bool.eq_iff_iff, beq_iff_eq, beq_iff_eq]
  constructor
  · rintro rfl
    exact castText_inj hs ht
  · rintro rfl
    exact Option.some.inj (hs.symm.trans ht)

namespace PyJson

mutual

theorem isSome_cast : ∀ x : PyJson, (cast x).isSome ↔ x.Castable
  | null => by simp [cast, Castable]
  | bool b => by simp [cast, Castable]
  | num (.finite n) => by simp [cast, Castable]
  | num .nan => by simp [cast, Castable]
  | num (.infinity _) => by simp [cast, Castable]
  | str s => by rw [cast, Castable, Option.isSome_map, isSome_castText]
  | arr xs => by rw [cast, Castable, Option.isSome_map, isSome_castElems xs]
  | obj fs => by rw [cast, Castable, Option.isSome_map, isSome_castFields fs]

theorem isSome_castElems : ∀ xs : List PyJson, (castElems xs).isSome ↔ CastableElems xs
  | [] => by simp [castElems, CastableElems]
  | x :: xs => by
    rw [castElems, CastableElems, ← isSome_cast x, ← isSome_castElems xs]
    cases cast x with
    | none => simp
    | some y => cases castElems xs <;> simp

theorem isSome_castFields : ∀ fs : List (List UInt16 × PyJson),
    (castFields fs).isSome ↔ CastableFields fs
  | [] => by simp [castFields, CastableFields]
  | (k, x) :: fs => by
    rw [castFields, CastableFields, ← isSome_castText, ← isSome_cast x, ← isSome_castFields fs]
    cases castText k with
    | none => simp
    | some l =>
      cases cast x with
      | none => simp
      | some y => cases castFields fs <;> simp

end

/-- A value with a cast, and the cast. -/
inductive CastsTo : PyJson → Json → Prop
  | null : CastsTo null .null
  | bool (b : Bool) : CastsTo (bool b) (.bool b)
  | num (n : Number) : CastsTo (num (.finite n)) (.num n)
  | str {s : List UInt16} {t : String} (h : castText s = some t) : CastsTo (str s) (.str t)
  | arr {xs : List PyJson} {ys : List Json} (h : castElems xs = some ys) :
      CastsTo (arr xs) (.arr ys)
  | obj {fs : PyFields} {gs : Fields} (h : castFields fs = some gs) : CastsTo (obj fs) (.obj gs)

theorem castsTo_of_cast {x : PyJson} {y : Json} (h : cast x = some y) : CastsTo x y := by
  cases x with
  | null =>
    obtain rfl := Option.some.inj h
    exact .null
  | bool b =>
    obtain rfl := Option.some.inj h
    exact .bool b
  | num n =>
    cases n with
    | finite m =>
      obtain rfl := Option.some.inj h
      exact .num m
    | nan => cases h
    | infinity negative => cases h
  | str s =>
    obtain ⟨t, ht, rfl⟩ := Option.map_eq_some_iff.mp h
    exact .str ht
  | arr xs =>
    rw [cast] at h
    obtain ⟨ys, hys, rfl⟩ := Option.map_eq_some_iff.mp h
    exact .arr hys
  | obj fs =>
    rw [cast] at h
    obtain ⟨gs, hgs, rfl⟩ := Option.map_eq_some_iff.mp h
    exact .obj hgs

theorem castElems_cons {x : PyJson} {xs : List PyJson} {zs : List Json} :
    castElems (x :: xs) = some zs ↔
      ∃ y ys, cast x = some y ∧ castElems xs = some ys ∧ zs = y :: ys := by
  rw [castElems]
  simp only [Option.bind_eq_bind, Option.bind_eq_some_iff, Option.pure_def, Option.some.injEq]
  constructor
  · rintro ⟨y, hy, ys, hys, rfl⟩
    exact ⟨y, ys, hy, hys, rfl⟩
  · rintro ⟨y, ys, hy, hys, rfl⟩
    exact ⟨y, hy, ys, hys, rfl⟩

theorem castFields_cons {k : List UInt16} {x : PyJson} {fs : PyFields} {hs : Fields} :
    castFields ((k, x) :: fs) = some hs ↔ ∃ l y gs, castText k = some l ∧ cast x = some y ∧
      castFields fs = some gs ∧ hs = (l, y) :: gs := by
  rw [castFields]
  simp only [Option.bind_eq_bind, Option.bind_eq_some_iff, Option.pure_def, Option.some.injEq]
  constructor
  · rintro ⟨l, hl, y, hy, gs, hgs, rfl⟩
    exact ⟨l, y, gs, hl, hy, hgs, rfl⟩
  · rintro ⟨l, y, gs, hl, hy, hgs, rfl⟩
    exact ⟨l, hl, y, hy, gs, hgs, rfl⟩

/-- Some element of the cast passes iff some element does. -/
theorem any_castElems {p : PyJson → Bool} {q : Json → Bool}
    (h : ∀ x y, cast x = some y → q y = p x) :
    ∀ {xs : List PyJson} {ys : List Json}, castElems xs = some ys → ys.any q = xs.any p
  | [], ys, hys => by
    obtain rfl := Option.some.inj hys
    rfl
  | x :: xs, zs, hzs => by
    obtain ⟨y, ys, hy, hys, rfl⟩ := castElems_cons.mp hzs
    rw [List.any_cons, List.any_cons, h x y hy, any_castElems h hys]

/-- Likewise of fields. -/
theorem any_castFields {p : List UInt16 × PyJson → Bool} {q : String × Json → Bool}
    (h : ∀ k x l y, castText k = some l → cast x = some y → q (l, y) = p (k, x)) :
    ∀ {fs : PyFields} {gs : Fields}, castFields fs = some gs → gs.any q = fs.any p
  | [], gs, hgs => by
    obtain rfl := Option.some.inj hgs
    rfl
  | (k, x) :: fs, hs, hhs => by
    obtain ⟨l, y, gs, hl, hy, hgs, rfl⟩ := castFields_cons.mp hhs
    rw [List.any_cons, List.any_cons, h k x l y hl hy, any_castFields h hgs]

mutual

/-- **The cast of a value contains what the value does.** -/
theorem contains_cast : ∀ (b a : PyJson) {x y : Json}, CastsTo a x → CastsTo b y →
    Json.containsJson x y = contains a b
  | null, a, _, _, ha, .null => by cases ha <;> simp [contains, Json.containsJson]
  | bool b, a, _, _, ha, .bool _ => by cases ha <;> simp [contains, Json.containsJson]
  | num _, a, _, _, ha, .num _ => by
    cases ha <;> simp [contains, Json.containsJson, PyNumber.sameValue]
  | str t, a, _, _, ha, .str ht => by
    cases ha with
    | str hs => rw [contains, Json.containsJson, castText_beq hs ht]
    | _ => simp [contains, Json.containsJson]
  | arr ys, a, _, _, ha, .arr hys => by
    cases ha with
    | arr hxs => rw [contains, Json.containsJson, containsElems_cast ys hxs hys]
    | _ => simp [contains, Json.containsJson]
  | obj gs, a, _, _, ha, .obj hgs => by
    cases ha with
    | obj hfs => rw [contains, Json.containsJson, containsFields_cast gs hfs hgs]
    | _ => simp [contains, Json.containsJson]

theorem containsElems_cast : ∀ (ys : List PyJson) {xs : List PyJson} {vs ws : List Json},
    castElems xs = some vs → castElems ys = some ws →
    Json.containsElems vs ws = containsElems xs ys
  | [], xs, vs, ws, hvs, hws => by
    obtain rfl := Option.some.inj hws
    rfl
  | y :: ys, xs, vs, us, hvs, hus => by
    obtain ⟨w, ws, hw, hws, rfl⟩ := castElems_cons.mp hus
    have hany : (vs.any fun v => Json.containsJson v w) = xs.any fun x => contains x y :=
      any_castElems (fun x v hv => contains_cast y x (castsTo_of_cast hv) (castsTo_of_cast hw)) hvs
    rw [containsElems, Json.containsElems, hany, containsElems_cast ys hvs hws]

theorem containsFields_cast : ∀ (gs : PyFields) {fs : PyFields} {vs ws : Fields},
    castFields fs = some vs → castFields gs = some ws →
    Json.containsFields vs ws = containsFields fs gs
  | [], fs, vs, ws, hvs, hws => by
    obtain rfl := Option.some.inj hws
    rfl
  | (k, y) :: gs, fs, vs, us, hvs, hus => by
    obtain ⟨l, w, ws, hl, hw, hws, rfl⟩ := castFields_cons.mp hus
    have hany : (vs.any fun v => v.1 == l && Json.containsJson v.2 w)
        = fs.any fun f => f.1 == k && contains f.2 y := by
      refine any_castFields (fun m x n v hn hv => ?_) hvs
      rw [castText_beq hn hl, contains_cast y x (castsTo_of_cast hv) (castsTo_of_cast hw)]
    rw [containsFields, Json.containsFields, hany, containsFields_cast gs hvs hws]

end

end PyJson

/-! ### The queries -/

/-- A row of the files, with the object its text of metadata spells; that of the record is not
read. -/
structure MetadataRow where
  file : File
  document : PyFields

/-- The parameters of a search: the filter, and what else is asked for. -/
structure MetadataSearch where
  organizationId : String
  projectId : String
  others : FileRepository.Filters
  metadataFilter : PyFields
  others_metadataFilter : others.metadataFilter = []

namespace MetadataSearch

variable (search : MetadataSearch) (dumps : PyFields → String)

/-- The row is in scope and meets the other filters. -/
def meetsOthers (row : MetadataRow) : Bool :=
  row.file.organizationId == search.organizationId && row.file.projectId == search.projectId
    && row.file.deletedAt.isNone && search.others.matches row.file

/-- Behind a cursor, also that its id is greater. -/
def meetsOthersBehind (cursor : Option String) (row : MetadataRow) : Bool :=
  search.meetsOthers row && (orNone cursor).all fun c => decide (c < row.file.id)

/-- The parameter `json.dumps(metadata_filter)`.  The cast around it makes it one of type JSONB, and
such a parameter is serialised when it is bound: what arrives is the text as a JSON string. -/
def pattern : Json := .str (dumps search.metadataFilter)

/-- The condition on the metadata, cast and compared with the parameter. -/
def metadataCondition (row : MetadataRow) : Option Bool :=
  (PyJson.castFields row.document).map fun metadata =>
    Json.containsJson (.obj metadata) (search.pattern dumps)

/-- The rows of `_apply_filters`, unless a cast fails; an empty filter is no condition. -/
def filtered {others : MetadataRow → Bool} (plan : Plan others) (rows : List MetadataRow) :
    Option (List MetadataRow) :=
  if search.metadataFilter.isEmpty then some (rows.filter others)
  else select plan (search.metadataCondition dumps) rows

/-- A page, newest first: no index has this order, so all rows are looked at before it is cut. -/
def page (limit offset : ℕ) (cursor : Option String) (rows : List MetadataRow) :
    List MetadataRow :=
  let sorted := Sql.orderByDesc (fun row => row.file.createdAt) rows
  if (orNone cursor).isSome then sorted.take limit else Sql.page offset limit sorted

/-- `count`. -/
def count (plan : Plan search.meetsOthers) (rows : List MetadataRow) : Option ℕ :=
  (search.filtered dumps plan rows).map List.length

/-- `list`. -/
def list (limit offset : ℕ) (cursor : Option String)
    (plan : Plan (search.meetsOthersBehind cursor)) (rows : List MetadataRow) :
    Option (List MetadataRow) :=
  (search.filtered dumps plan rows).map (page limit offset cursor)

/-- The rows that are asked for: those whose metadata contains the filter. -/
def asked (others : MetadataRow → Bool) (rows : List MetadataRow) : List MetadataRow :=
  rows.filter fun row => others row && PyJson.containsFields row.document search.metadataFilter

/-- Both queries answer, with the files that are asked for. -/
structure SearchExact (limit offset : ℕ) (cursor : Option String)
    (countPlan : Plan search.meetsOthers) (listPlan : Plan (search.meetsOthersBehind cursor))
    (rows : List MetadataRow) : Prop where
  count_eq : search.count dumps countPlan rows = some (search.asked search.meetsOthers rows).length
  list_eq : search.list dumps limit offset cursor listPlan rows
    = some (page limit offset cursor (search.asked (search.meetsOthersBehind cursor) rows))

section Filtered

/-- No object contains a string. -/
theorem containsJson_pattern (metadata : Fields) :
    Json.containsJson (.obj metadata) (search.pattern dumps) = false := by
  simp [pattern, Json.containsJson]

variable {search dumps} {others : MetadataRow → Bool} {plan : Plan others}
  {rows : List MetadataRow}

theorem filtered_of_empty (hempty : search.metadataFilter = []) :
    search.filtered dumps plan rows = some (rows.filter others) := by
  rw [filtered, hempty]
  rfl

/-- **With a filter a query finds nothing, and answers only if all metadata it evaluates has a
cast.** -/
theorem filtered_eq_some_iff (hfilter : search.metadataFilter ≠ []) {selected : List MetadataRow} :
    search.filtered dumps plan rows = some selected ↔
      (∀ row ∈ rows, plan.evaluates row = true → PyJson.CastableFields row.document) ∧
        selected = [] := by
  have hcondition (row : MetadataRow) : (search.metadataCondition dumps row).isSome ↔
      PyJson.CastableFields row.document := by
    rw [metadataCondition, Option.isSome_map, PyJson.isSome_castFields]
  have hnone (row : MetadataRow) : (search.metadataCondition dumps row).getD false = false := by
    unfold metadataCondition
    cases PyJson.castFields row.document with
    | none => rfl
    | some metadata => exact search.containsJson_pattern dumps metadata
  rw [filtered, if_neg (by rwa [List.isEmpty_iff]), select_eq_some_iff]
  simp only [hcondition, hnone, Bool.and_false, List.filter_false]

theorem asked_of_empty (hempty : search.metadataFilter = []) :
    search.asked others rows = rows.filter others := by
  rw [asked, hempty]
  simp only [PyJson.containsFields, Bool.and_true]

theorem asked_eq_nil_iff : search.asked others rows = [] ↔
    ∀ row ∈ rows, others row = true →
      PyJson.containsFields row.document search.metadataFilter = false := by
  rw [asked, List.filter_eq_nil_iff]
  refine forall₂_congr fun row _ => ?_
  rw [Bool.and_eq_true, not_and, Bool.not_eq_true]

end Filtered

variable {search dumps} {limit offset : ℕ} {cursor : Option String}
  {countPlan : Plan search.meetsOthers} {listPlan : Plan (search.meetsOthersBehind cursor)}
  {rows : List MetadataRow}

theorem page_nil : page limit offset cursor [] = [] := by
  unfold page
  split
  · exact List.take_nil
  · exact (congrArg _ List.drop_nil).trans List.take_nil

theorem count_eq_some_iff (hfilter : search.metadataFilter ≠ []) {n : ℕ} :
    search.count dumps countPlan rows = some n ↔
      (∀ row ∈ rows, countPlan.evaluates row = true → PyJson.CastableFields row.document) ∧
        n = 0 := by
  rw [count, Option.map_eq_some_iff]
  constructor
  · rintro ⟨selected, hselected, rfl⟩
    obtain ⟨hcast, rfl⟩ := (filtered_eq_some_iff hfilter).mp hselected
    exact ⟨hcast, rfl⟩
  · rintro ⟨hcast, rfl⟩
    exact ⟨[], (filtered_eq_some_iff hfilter).mpr ⟨hcast, rfl⟩, rfl⟩

theorem list_eq_some_iff (hfilter : search.metadataFilter ≠ []) {files : List MetadataRow} :
    search.list dumps limit offset cursor listPlan rows = some files ↔
      (∀ row ∈ rows, listPlan.evaluates row = true → PyJson.CastableFields row.document) ∧
        files = [] := by
  rw [list, Option.map_eq_some_iff]
  constructor
  · rintro ⟨selected, hselected, rfl⟩
    obtain ⟨hcast, rfl⟩ := (filtered_eq_some_iff hfilter).mp hselected
    exact ⟨hcast, page_nil⟩
  · rintro ⟨hcast, rfl⟩
    exact ⟨[], (filtered_eq_some_iff hfilter).mpr ⟨hcast, rfl⟩, page_nil⟩

/-- **One row in scope without a cast, and no search with a filter answers.** -/
theorem count_eq_none (hfilter : search.metadataFilter ≠ []) {row : MetadataRow}
    (hrow : row ∈ rows) (hothers : search.meetsOthers row = true)
    (hcast : ¬PyJson.CastableFields row.document) : search.count dumps countPlan rows = none := by
  refine Option.eq_none_iff_forall_ne_some.mpr fun n hn => hcast ?_
  exact ((count_eq_some_iff hfilter).mp hn).1 row hrow (countPlan.covers row hothers)

/-- **Count and list answer with what is asked for iff the filter is empty, or the metadata of every
row on which either query evaluates the condition has a cast and nothing is asked for.** -/
theorem metadataSearch_iff (search : MetadataSearch) (dumps : PyFields → String)
    (limit offset : ℕ) (cursor : Option String)
    (countPlan : Plan search.meetsOthers) (listPlan : Plan (search.meetsOthersBehind cursor))
    (rows : List MetadataRow) :
    search.SearchExact dumps limit offset cursor countPlan listPlan rows ↔
      search.metadataFilter = [] ∨
        (∀ row ∈ rows, (countPlan.evaluates row = true ∨ listPlan.evaluates row = true) →
          PyJson.CastableFields row.document) ∧
        ∀ row ∈ rows, search.meetsOthers row = true →
          PyJson.containsFields row.document search.metadataFilter = false := by
  by_cases hfilter : search.metadataFilter = []
  · have hexact : search.SearchExact dumps limit offset cursor countPlan listPlan rows := by
      constructor
      · rw [count, filtered_of_empty hfilter, asked_of_empty hfilter]
        rfl
      · rw [list, filtered_of_empty hfilter, asked_of_empty hfilter]
        rfl
    exact iff_of_true hexact (.inl hfilter)
  · rw [or_iff_right hfilter]
    constructor
    · rintro ⟨hcount, hlist⟩
      obtain ⟨hcounted, hzero⟩ := (count_eq_some_iff hfilter).mp hcount
      obtain ⟨hlisted, -⟩ := (list_eq_some_iff hfilter).mp hlist
      exact ⟨fun row hrow heval => heval.elim (hcounted row hrow) (hlisted row hrow),
        asked_eq_nil_iff.mp (List.length_eq_zero_iff.mp hzero)⟩
    · rintro ⟨hcast, hasked⟩
      -- behind a cursor nothing is asked for either
      have hbehind : search.asked (search.meetsOthersBehind cursor) rows = [] := by
        refine asked_eq_nil_iff.mpr fun row hrow hothers => hasked row hrow ?_
        exact (Bool.and_eq_true_iff.mp hothers).1
      constructor
      · rw [asked_eq_nil_iff.mpr hasked, count_eq_some_iff hfilter]
        exact ⟨fun row hrow heval => hcast row hrow (.inl heval), rfl⟩
      · rw [hbehind, page_nil, list_eq_some_iff hfilter]
        exact ⟨fun row hrow heval => hcast row hrow (.inr heval), rfl⟩

end MetadataSearch

/-! ### What is stored -/

namespace PyJson

/-- `d[key] = value`. -/
def setField : PyFields → List UInt16 → PyJson → PyFields
  | [], k, v => [(k, v)]
  | (l, w) :: fs, k, v => if l = k then (l, v) :: fs else (l, w) :: setField fs k v

/-- `{**d, **e}`. -/
def updateFields (fs gs : PyFields) : PyFields := gs.foldl (fun acc f => setField acc f.1 f.2) fs

theorem castable_setField {fs : PyFields} (h : CastableFields fs) {k : List UInt16} {v : PyJson}
    (hk : 0 ∉ k ∧ (Utf16.decode k).isSome) (hv : v.Castable) :
    CastableFields (setField fs k v) := by
  induction fs with
  | nil => exact ⟨hk, hv, trivial⟩
  | cons f fs ih =>
    obtain ⟨l, w⟩ := f
    obtain ⟨hl, hw, hfs⟩ := h
    by_cases hlk : l = k
    · rw [setField, if_pos hlk]
      exact ⟨hl, hv, hfs⟩
    · rw [setField, if_neg hlk]
      exact ⟨hl, hw, ih hfs⟩

theorem castable_updateFields {fs gs : PyFields} (hfs : CastableFields fs)
    (hgs : CastableFields gs) : CastableFields (updateFields fs gs) := by
  induction gs generalizing fs with
  | nil => exact hfs
  | cons g gs ih =>
    obtain ⟨k, v⟩ := g
    obtain ⟨hk, hv, hrest⟩ := hgs
    exact ih (castable_setField hfs hk hv) hrest

end PyJson

/-- The operations that write metadata. -/
inductive MetadataWrite where
  | initUpload (file : File) (metadata defaultMetadata : PyFields)
  | multipartStart (file : File) (metadata : PyFields)
  | updateMetadata (fileId : String) (metadata : PyFields)
  | mergeMetadata (fileId : String) (updates : PyFields)

namespace MetadataWrite

/-- The rows after an operation; the defaults of an upload token win. -/
def apply (rows : List MetadataRow) : MetadataWrite → List MetadataRow
  | initUpload file metadata defaultMetadata =>
      rows ++ [⟨file, PyJson.updateFields metadata defaultMetadata⟩]
  | multipartStart file metadata => rows ++ [⟨file, metadata⟩]
  | updateMetadata fileId metadata => rows.map fun row =>
      if row.file.id = fileId then { row with document := metadata } else row
  | mergeMetadata fileId updates => rows.map fun row =>
      if row.file.id = fileId
      then { row with document := PyJson.updateFields row.document updates } else row

/-- What the operation is sent has a cast. -/
def SendsCastable : MetadataWrite → Prop
  | initUpload _ metadata defaultMetadata =>
      PyJson.CastableFields metadata ∧ PyJson.CastableFields defaultMetadata
  | multipartStart _ metadata => PyJson.CastableFields metadata
  | updateMetadata _ metadata => PyJson.CastableFields metadata
  | mergeMetadata _ updates => PyJson.CastableFields updates

/-- The rows after some operations. -/
def stored (writes : List MetadataWrite) : List MetadataRow := writes.foldl apply []

theorem castable_apply {rows : List MetadataRow}
    (h : ∀ row ∈ rows, PyJson.CastableFields row.document) {w : MetadataWrite}
    (hw : w.SendsCastable) : ∀ row ∈ apply rows w, PyJson.CastableFields row.document := by
  intro row hrow
  cases w with
  | initUpload file metadata defaultMetadata =>
    obtain hrow | hrow := List.mem_append.mp hrow
    · exact h row hrow
    · obtain rfl := List.mem_singleton.mp hrow
      exact PyJson.castable_updateFields hw.1 hw.2
  | multipartStart file metadata =>
    obtain hrow | hrow := List.mem_append.mp hrow
    · exact h row hrow
    · obtain rfl := List.mem_singleton.mp hrow
      exact hw
  | updateMetadata fileId metadata =>
    obtain ⟨old, hold, rfl⟩ := List.mem_map.mp hrow
    split
    · exact hw
    · exact h old hold
  | mergeMetadata fileId updates =>
    obtain ⟨old, hold, rfl⟩ := List.mem_map.mp hrow
    split
    · exact PyJson.castable_updateFields (h old hold) hw
    · exact h old hold

theorem castable_stored {writes : List MetadataWrite} (h : ∀ w ∈ writes, w.SendsCastable) :
    ∀ row ∈ stored writes, PyJson.CastableFields row.document := by
  have hrun : ∀ rows : List MetadataRow, (∀ row ∈ rows, PyJson.CastableFields row.document) →
      ∀ row ∈ writes.foldl apply rows, PyJson.CastableFields row.document := by
    induction writes with
    | nil => exact fun rows hrows => hrows
    | cons w writes ih =>
      obtain ⟨hw, hwrites⟩ := List.forall_mem_cons.mp h
      exact fun rows hrows => ih hwrites (apply rows w) (castable_apply hrows hw)
  exact hrun [] fun row hrow => absurd hrow List.not_mem_nil

end MetadataWrite

/-- **Where everything that is sent has a cast, every search answers.** -/
theorem MetadataSearch.answers_of_sent (search : MetadataSearch) (dumps : PyFields → String)
    {writes : List MetadataWrite} (hwrites : ∀ w ∈ writes, w.SendsCastable) (limit offset : ℕ)
    (cursor : Option String) (countPlan : Plan search.meetsOthers)
    (listPlan : Plan (search.meetsOthersBehind cursor)) :
    (search.count dumps countPlan (MetadataWrite.stored writes)).isSome ∧
      (search.list dumps limit offset cursor listPlan (MetadataWrite.stored writes)).isSome := by
  have hcast := MetadataWrite.castable_stored hwrites
  by_cases hfilter : search.metadataFilter = []
  · constructor
    · rw [count, filtered_of_empty hfilter]
      rfl
    · rw [list, filtered_of_empty hfilter]
      rfl
  · have hcount : search.count dumps countPlan (MetadataWrite.stored writes) = some 0 :=
      (count_eq_some_iff hfilter).mpr ⟨fun row hrow _ => hcast row hrow, rfl⟩
    have hlist : search.list dumps limit offset cursor listPlan (MetadataWrite.stored writes)
        = some [] := (list_eq_some_iff hfilter).mpr ⟨fun row hrow _ => hcast row hrow, rfl⟩
    rw [hcount, hlist]
    exact ⟨rfl, rfl⟩

/-! ### The files of a database

The metadata of the other modules has no halves of pairs and only finite numbers, so of what has no
cast it can hold the character 0 alone. -/

namespace PyJson

mutual

/-- The value as it is written. -/
def ofJson : Json → PyJson
  | .null => null
  | .bool b => bool b
  | .num n => num (.finite n)
  | .str s => str (Utf16.encode s.toList)
  | .arr xs => arr (ofElems xs)
  | .obj fs => obj (ofFields fs)

/-- Likewise of the elements of an array. -/
def ofElems : List Json → List PyJson
  | [] => []
  | x :: xs => ofJson x :: ofElems xs

/-- Likewise of the fields of an object. -/
def ofFields : List (String × Json) → List (List UInt16 × PyJson)
  | [] => []
  | (k, x) :: fs => (Utf16.encode k.toList, ofJson x) :: ofFields fs

end

theorem castText_encode {s t : String} (h : castText (Utf16.encode s.toList) = some t) : t = s := by
  unfold castText at h
  split at h
  · cases h
  · rw [Utf16.decode_encode, Option.map_some, Option.some.injEq, String.ofList_toList] at h
    exact h.symm

mutual

/-- A value that is written and cast is the value. -/
theorem cast_ofJson : ∀ (x : Json) {y : Json}, CastsTo (ofJson x) y → y = x
  | .null, y, h => by cases h; rfl
  | .bool b, y, h => by cases h; rfl
  | .num n, y, h => by cases h; rfl
  | .str s, y, h => by
    cases h with
    | str hs => rw [castText_encode hs]
  | .arr xs, y, h => by
    rw [ofJson] at h
    cases h with
    | arr hxs => rw [castElems_ofElems xs hxs]
  | .obj fs, y, h => by
    rw [ofJson] at h
    cases h with
    | obj hfs => rw [castFields_ofFields fs hfs]

theorem castElems_ofElems : ∀ (xs : List Json) {ys : List Json},
    castElems (ofElems xs) = some ys → ys = xs
  | [], ys, h => (Option.some.inj h).symm
  | x :: xs, zs, h => by
    obtain ⟨y, ys, hy, hys, rfl⟩ := castElems_cons.mp h
    rw [cast_ofJson x (castsTo_of_cast hy), castElems_ofElems xs hys]

theorem castFields_ofFields : ∀ (fs : Fields) {gs : Fields},
    castFields (ofFields fs) = some gs → gs = fs
  | [], gs, h => (Option.some.inj h).symm
  | (k, x) :: fs, hs, h => by
    obtain ⟨l, y, gs, hl, hy, hgs, rfl⟩ := castFields_cons.mp h
    rw [castText_encode hl, cast_ofJson x (castsTo_of_cast hy), castFields_ofFields fs hgs]

end

end PyJson

/-- The row of a file. -/
def MetadataRow.ofFile (f : File) : MetadataRow := ⟨f, PyJson.ofFields f.metadata⟩

namespace MetadataSearch

variable {search : MetadataSearch} {dumps : PyFields → String} {filter : Fields}
  {files : List File}

/-- The filters with the filter for metadata. -/
def filters (search : MetadataSearch) (filter : Fields) : FileRepository.Filters :=
  { search.others with metadataFilter := filter }

theorem matches_filters (search : MetadataSearch) (filter : Fields) (f : File) :
    (search.filters filter).matches f = (search.others.matches f && filter.isEmpty) := by
  unfold FileRepository.Filters.matches filters
  simp [search.others_metadataFilter]

/-- What a query that answers finds among the files of a database. -/
theorem filtered_ofFile (hfilter : search.metadataFilter = PyJson.ofFields filter)
    {others : MetadataRow → Bool} {plan : Plan others} {selected : List MetadataRow}
    (h : search.filtered dumps plan (files.map MetadataRow.ofFile) = some selected) :
    selected = (files.filter fun f => others (.ofFile f) && filter.isEmpty).map
      MetadataRow.ofFile := by
  cases filter with
  | nil =>
    rw [filtered_of_empty hfilter, Option.some.injEq, List.filter_map] at h
    rw [← h]
    simp only [List.isEmpty_nil, Bool.and_true]
    rfl
  | cons field fields =>
    have hne : search.metadataFilter ≠ [] := fun hempty => by
      rw [hempty] at hfilter
      cases hfilter
    obtain ⟨-, rfl⟩ := (filtered_eq_some_iff hne).mp h
    simp only [List.isEmpty_cons, Bool.and_false, List.filter_false, List.map_nil]

/-- **A count that answers is that of the model without casts.** -/
theorem count_ofFile (hfilter : search.metadataFilter = PyJson.ofFields filter) {db : Database}
    {plan : Plan search.meetsOthers} {n : ℕ}
    (h : search.count dumps plan ((db .files : List File).map MetadataRow.ofFile) = some n) :
    n = FileRepository.count db search.organizationId search.projectId (search.filters filter) := by
  obtain ⟨selected, hselected, rfl⟩ := Option.map_eq_some_iff.mp h
  rw [filtered_ofFile hfilter hselected, List.length_map, FileRepository.count,
    FileRepository.matching]
  refine congrArg List.length (List.filter_congr fun f hf => ?_)
  rw [matches_filters, ← Bool.and_assoc]
  rfl

theorem orderByDesc_ofFile (files : List File) :
    Sql.orderByDesc (fun row => row.file.createdAt) (files.map MetadataRow.ofFile)
      = (Sql.orderByDesc File.createdAt files).map MetadataRow.ofFile := by
  unfold Sql.orderByDesc
  symm
  apply List.map_insertionSort
  exact fun _ _ _ _ => Iff.rfl

/-- **So is a list.** -/
theorem list_ofFile (hfilter : search.metadataFilter = PyJson.ofFields filter) {db : Database}
    {limit offset : ℕ} {cursor : Option String} {plan : Plan (search.meetsOthersBehind cursor)}
    {page : List MetadataRow}
    (h : search.list dumps limit offset cursor plan
      ((db .files : List File).map MetadataRow.ofFile) = some page) :
    page.map MetadataRow.file = FileRepository.list db search.organizationId search.projectId
      (search.filters filter) limit offset cursor := by
  obtain ⟨selected, hselected, rfl⟩ := Option.map_eq_some_iff.mp h
  have hfile : MetadataRow.file ∘ MetadataRow.ofFile = id := rfl
  rw [filtered_ofFile hfilter hselected, MetadataSearch.page, orderByDesc_ofFile]
  unfold FileRepository.list
  cases hcursor : orNone cursor with
  | none =>
    have hmatching : ((db .files : List File).filter fun f =>
          search.meetsOthersBehind cursor (.ofFile f) && filter.isEmpty)
        = FileRepository.matching db search.organizationId search.projectId
            (search.filters filter) := by
      refine List.filter_congr fun f hf => ?_
      rw [matches_filters, ← Bool.and_assoc, meetsOthersBehind, hcursor]
      simp [meetsOthers, MetadataRow.ofFile]
    rw [hmatching]
    simp only [Option.isSome_none, Bool.false_eq_true, if_false, Sql.page]
    rw [← List.map_drop, ← List.map_take, List.map_map, hfile, List.map_id]
  | some c =>
    have hmatching : ((db .files : List File).filter fun f =>
          search.meetsOthersBehind cursor (.ofFile f) && filter.isEmpty)
        = (FileRepository.matching db search.organizationId search.projectId
            (search.filters filter)).filter fun f => decide (c < f.id) := by
      rw [FileRepository.matching, List.filter_filter]
      refine List.filter_congr fun f hf => ?_
      rw [matches_filters, meetsOthersBehind, hcursor]
      simp only [meetsOthers, MetadataRow.ofFile, Option.all_some]
      ac_rfl
    rw [hmatching]
    simp only [Option.isSome_some, if_true]
    rw [← List.map_take, List.map_map, hfile, List.map_id]

/-- **Over files whose metadata has a cast, a search is exact iff its filter is empty or no file in
scope contains it.** -/
theorem exact_ofFile_iff (hfilter : search.metadataFilter = PyJson.ofFields filter)
    (hcast : PyJson.CastableFields search.metadataFilter)
    (hfiles : ∀ f ∈ files, PyJson.CastableFields (PyJson.ofFields f.metadata)) (limit offset : ℕ)
    (cursor : Option String) (countPlan : Plan search.meetsOthers)
    (listPlan : Plan (search.meetsOthersBehind cursor)) :
    search.SearchExact dumps limit offset cursor countPlan listPlan
        (files.map MetadataRow.ofFile) ↔
      filter = [] ∨ ∀ f ∈ files, search.meetsOthers (.ofFile f) = true →
        Json.containsFields f.metadata filter = false := by
  have hcontains (f : File) (hf : f ∈ files) :
      PyJson.containsFields (PyJson.ofFields f.metadata) search.metadataFilter
        = Json.containsFields f.metadata filter := by
    obtain ⟨metadata, hmetadata⟩ := Option.isSome_iff_exists.mp
      ((PyJson.isSome_castFields _).mpr (hfiles f hf))
    obtain ⟨pattern, hpattern⟩ := Option.isSome_iff_exists.mp
      ((PyJson.isSome_castFields _).mpr hcast)
    have hsame := PyJson.containsFields_cast _ hmetadata hpattern
    have hmeta : metadata = f.metadata := PyJson.castFields_ofFields f.metadata hmetadata
    have hpat : pattern = filter := by
      rw [hfilter] at hpattern
      exact PyJson.castFields_ofFields filter hpattern
    rw [← hsame, hmeta, hpat]
  have hempty : search.metadataFilter = [] ↔ filter = [] := by
    rw [hfilter]
    cases filter <;> simp [PyJson.ofFields]
  rw [metadataSearch_iff, hempty, List.forall_mem_map, List.forall_mem_map]
  refine or_congr_right ((and_iff_right fun f hf _ => hfiles f hf).trans ?_)
  exact forall₂_congr fun f hf => by rw [MetadataRow.ofFile, hcontains f hf]

end MetadataSearch

/-! ### A search that misses a file -/

/-- A file with metadata. -/
def patientDb : Database :=
  runAll [⟨orgContext "acme", devEnv "p" 1, "", .createProject devProject⟩,
    ⟨orgContext "acme", devEnv "a" 2, "p0", .initUpload
      { filename := "scan.txt", contentType := "text/plain", sizeBytes := 1
        metadata := [("patientId", .str "P-001")] }⟩] Database.empty

/-- A search for its metadata. -/
def patientSearch : MetadataSearch where
  organizationId := "acme"
  projectId := "p0"
  others := {}
  metadataFilter := PyJson.ofFields [("patientId", .str "P-001")]
  others_metadataFilter := rfl

/-- The text of that filter. -/
def patientText : PyFields → String := fun _ => "\x7b\"patientId\": \"P-001\"\x7d"

/-- The search answers that there is no such file. -/
theorem patient_not_found :
    Reached patientDb ∧
    patientSearch.asked patientSearch.meetsOthers ((patientDb .files : List File).map .ofFile)
      ≠ [] ∧
    patientSearch.count patientText (.last _) ((patientDb .files : List File).map .ofFile)
      = some 0 ∧
    ¬patientSearch.SearchExact patientText 50 0 none (.last _) (.last _)
      ((patientDb .files : List File).map .ofFile) := by
  obtain ⟨f, hfiles, hothers, hmetadata⟩ : ∃ f : File, patientDb .files = [f] ∧
      patientSearch.meetsOthers (.ofFile f) = true ∧ f.metadata = [("patientId", .str "P-001")] :=
    ⟨_, rfl, rfl, rfl⟩
  have hne : patientSearch.metadataFilter ≠ [] := List.cons_ne_nil _ _
  have hasked : patientSearch.asked patientSearch.meetsOthers [.ofFile f] ≠ [] := by
    refine List.ne_nil_of_mem (a := .ofFile f) (List.mem_filter.mpr ⟨List.mem_singleton_self _, ?_⟩)
    rw [hothers, Bool.true_and, show (MetadataRow.ofFile f).document = _ from
      congrArg PyJson.ofFields hmetadata]
    decide
  have hcount : patientSearch.count patientText (.last _) [.ofFile f] = some 0 := by
    refine (MetadataSearch.count_eq_some_iff hne).mpr ⟨fun row hrow _ => ?_, rfl⟩
    obtain rfl := List.mem_singleton.mp hrow
    rw [← PyJson.isSome_castFields, show (MetadataRow.ofFile f).document = _ from
      congrArg PyJson.ofFields hmetadata]
    decide
  rw [hfiles, List.map_singleton]
  refine ⟨reached_runAll .empty _, hasked, hcount, fun hexact => hasked ?_⟩
  rw [hexact.count_eq, Option.some.injEq] at hcount
  exact List.length_eq_zero_iff.mp hcount

end FileNest
