import Mathlib.Data.List.Basic
import Mathlib.Data.Rat.Defs

/-!
# JSON values

Request bodies, file metadata, event payloads and error details are JSON values.
A JSON column that the program only reads back through `json.loads` is modelled by
the value it denotes; an object keeps its keys in insertion order, as a Python
`dict` does, and `1` and `1.0`, which `json.dumps` writes differently, are two
numbers of one value.

## Main definitions

* `Number` — the numbers `json.loads` tells apart, with their value.
* `Json`, `Fields` — JSON values, and the fields of an object.
* `Fields.update` — `{**a, **b}`: keys of `b` win, keys of `a` keep their place.
* `Fields.fromEntries` — the object of a list of entries.
* `Json.containsJson` — the `@>` operator of JSONB.

## Main results

* `Fields.update_eq_self_iff` — what an update leaves alone.
-/

namespace FileNest

/-- A number that is finite: an `int`, or a `float`, of which there are two zeros. -/
inductive Number where
  | int (n : ℤ)
  | float (q : ℚ)
  | negativeZero
  deriving DecidableEq

/-- What the number is. -/
def Number.value : Number → ℚ
  | int n => n
  | float q => q
  | negativeZero => 0

/-- A JSON value. -/
inductive Json where
  | null
  | bool (b : Bool)
  | num (n : Number)
  | str (s : String)
  | arr (xs : List Json)
  | obj (fields : List (String × Json))

/-- The fields of a JSON object, in insertion order. -/
abbrev Fields := List (String × Json)

namespace Json

mutual

/-- Equality of JSON values is decidable. -/
def decEq : (a b : Json) → Decidable (a = b)
  | null, null => isTrue rfl
  | bool a, bool b => decidable_of_iff (a = b) (by simp)
  | num a, num b => decidable_of_iff (a = b) (by simp)
  | str a, str b => decidable_of_iff (a = b) (by simp)
  | arr xs, arr ys => @decidable_of_iff _ (xs = ys) (by simp) (decEqList xs ys)
  | obj fs, obj gs => @decidable_of_iff _ (fs = gs) (by simp) (decEqFields fs gs)
  | null, bool _ | null, num _ | null, str _ | null, arr _ | null, obj _
  | bool _, null | bool _, num _ | bool _, str _ | bool _, arr _ | bool _, obj _
  | num _, null | num _, bool _ | num _, str _ | num _, arr _ | num _, obj _
  | str _, null | str _, bool _ | str _, num _ | str _, arr _ | str _, obj _
  | arr _, null | arr _, bool _ | arr _, num _ | arr _, str _ | arr _, obj _
  | obj _, null | obj _, bool _ | obj _, num _ | obj _, str _ | obj _, arr _ =>
      isFalse (by simp)

/-- Likewise for arrays. -/
def decEqList : (xs ys : List Json) → Decidable (xs = ys)
  | [], [] => isTrue rfl
  | [], _ :: _ => isFalse (by simp)
  | _ :: _, [] => isFalse (by simp)
  | x :: xs, y :: ys =>
      match decEq x y with
      | isTrue h => @decidable_of_iff _ (xs = ys) (by simp [h]) (decEqList xs ys)
      | isFalse h => isFalse (by simp [h])

/-- Likewise for the fields of objects. -/
def decEqFields : (fs gs : List (String × Json)) → Decidable (fs = gs)
  | [], [] => isTrue rfl
  | [], _ :: _ => isFalse (by simp)
  | _ :: _, [] => isFalse (by simp)
  | (k, x) :: fs, (l, y) :: gs =>
      match instDecidableEqString k l, decEq x y with
      | isTrue h, isTrue h' => @decidable_of_iff _ (fs = gs) (by simp [h, h']) (decEqFields fs gs)
      | isFalse h, _ => isFalse (by simp [h])
      | _, isFalse h => isFalse (by simp [h])

end

instance : DecidableEq Json := decEq

instance : Inhabited Json := ⟨null⟩

/-- An integer as a JSON number. -/
def int (n : ℤ) : Json := num (.int n)

/-- An array of strings. -/
def strs (ss : List String) : Json := arr (ss.map str)

/-- An optional string: `None` is `null`. -/
def optStr : Option String → Json
  | none => null
  | some s => str s

/-- Python's truth value. -/
def truthy : Json → Bool
  | null => false
  | bool b => b
  | num n => n.value != 0
  | str s => s != ""
  | arr xs => !xs.isEmpty
  | obj fields => !fields.isEmpty

mutual

/-- `doc @> pat` on JSONB values below the top level: objects and arrays contain
part by part, texts and truth values are equal, numbers have one value. -/
def containsJson : Json → Json → Bool
  | obj fs, obj gs => containsFields fs gs
  | arr xs, arr ys => containsElems xs ys
  | null, null => true
  | bool a, bool b => a == b
  | num a, num b => a.value == b.value
  | str a, str b => a == b
  | _, _ => false

/-- Every field of the pattern is in the document with a value that contains it. -/
def containsFields (fs : List (String × Json)) : List (String × Json) → Bool
  | [] => true
  | (k, y) :: gs => fs.any (fun f => f.1 == k && containsJson f.2 y) && containsFields fs gs

/-- Every element of the pattern is contained in some element of the document. -/
def containsElems (xs : List Json) : List Json → Bool
  | [] => true
  | y :: ys => xs.any (fun x => containsJson x y) && containsElems xs ys

end

end Json

namespace Fields

/-- `d.get(key)`. -/
def get? (fs : Fields) (key : String) : Option Json :=
  (fs.find? fun f => f.1 == key).map Prod.snd

/-- `d[key] = value`. -/
def set : Fields → String → Json → Fields
  | [], k, v => [(k, v)]
  | (l, w) :: fs, k, v => if l = k then (l, v) :: fs else (l, w) :: set fs k v

attribute [local simp] set

/-- `d.update(e)`, and `{**d, **e}`. -/
def update (fs gs : Fields) : Fields := gs.foldl (fun acc f => acc.set f.1 f.2) fs

theorem get?_set (fs : Fields) (k l : String) (v : Json) :
    (fs.set k v).get? l = if k = l then some v else fs.get? l := by
  induction fs with
  | nil =>
    by_cases h : k = l <;> simp [set, get?, h]
  | cons f fs ih =>
    obtain ⟨m, w⟩ := f
    by_cases hm : m = k
    · subst hm
      by_cases h : m = l <;> simp [set, get?, h]
    · simp only [set, if_neg hm]
      by_cases h : m = l
      · subst h
        simp [get?, Ne.symm hm]
      · simpa [get?, List.find?_cons, h] using ih

/-- Setting a key to the value it has changes nothing. -/
theorem set_eq_self {fs : Fields} {k : String} {v : Json} (h : fs.get? k = some v) :
    fs.set k v = fs := by
  induction fs with
  | nil => simp [get?] at h
  | cons f fs ih =>
    obtain ⟨l, w⟩ := f
    by_cases hl : l = k
    · subst hl
      obtain rfl : w = v := by simpa [get?] using h
      rw [set, if_pos rfl]
    · rw [set, if_neg hl, ih (by simpa [get?, List.find?_cons, hl] using h)]

/-- The second value of a key stays. -/
theorem set_set (fs : Fields) (k : String) (v w : Json) : (fs.set k v).set k w = fs.set k w := by
  induction fs with
  | nil => simp [set]
  | cons f fs ih =>
    obtain ⟨l, u⟩ := f
    by_cases hl : l = k
    · simp [set, hl]
    · simp [set, hl, ih]

/-- A key that is there keeps its place, whatever is set before it. -/
theorem set_comm {fs : Fields} {k l : String} (hk : (fs.get? k).isSome) (hkl : k ≠ l)
    (v w : Json) : (fs.set k v).set l w = (fs.set l w).set k v := by
  induction fs with
  | nil => simp [get?] at hk
  | cons f fs ih =>
    obtain ⟨m, u⟩ := f
    by_cases hmk : m = k
    · subst hmk
      simp [set, hkl]
    · have hk' : (get? fs k).isSome := by simpa [get?, List.find?_cons, hmk] using hk
      by_cases hml : m = l
      · subst hml
        simp [set, hmk]
      · simp [set, hmk, hml, ih hk']

/-- The last value of a key is the one that counts. -/
theorem get?_update (fs gs : Fields) (k : String) :
    (fs.update gs).get? k = (get? gs.reverse k).or (fs.get? k) := by
  induction gs generalizing fs with
  | nil => rfl
  | cons g gs ih =>
    have hreverse : get? (g :: gs).reverse k = (get? gs.reverse k).or (get? [g] k) := by
      rw [List.reverse_cons, get?, List.find?_append, Option.map_or]
      rfl
    show get? ((set fs g.1 g.2).update gs) k = _
    rw [ih, get?_set, hreverse, Option.or_assoc]
    congr 1
    by_cases hk : g.1 = k <;> simp [get?, hk]

/-- What is set before an update that sets it again is lost. -/
theorem update_set {fs gs : Fields} {k : String} (hfs : (fs.get? k).isSome)
    (hgs : (get? gs.reverse k).isSome) (v : Json) : (fs.set k v).update gs = fs.update gs := by
  induction gs generalizing fs with
  | nil => simp [get?] at hgs
  | cons g gs ih =>
    obtain ⟨l, w⟩ := g
    show ((fs.set k v).set l w).update gs = (fs.set l w).update gs
    by_cases hl : k = l
    · subst hl
      rw [set_set]
    · rw [set_comm hfs hl]
      refine ih ?_ ?_
      · rw [get?_set, if_neg (Ne.symm hl)]
        exact hfs
      · simpa [get?, List.find?_append, Ne.symm hl] using hgs

/-- **An update changes nothing exactly if its fields are already there.** -/
theorem update_eq_self_iff {fs gs : Fields} :
    fs.update gs = fs ↔ ∀ k v, get? gs.reverse k = some v → fs.get? k = some v := by
  constructor
  · intro h k v hv
    rw [← h, get?_update, hv, Option.some_or]
  · intro h
    induction gs with
    | nil => rfl
    | cons g gs ih =>
      obtain ⟨k, v⟩ := g
      have hreverse : ∀ l, get? ((k, v) :: gs).reverse l
          = (get? gs.reverse l).or (get? [(k, v)] l) := by
        intro l
        rw [List.reverse_cons, get?, List.find?_append, Option.map_or]
        rfl
      have htail : fs.update gs = fs := by
        refine ih fun l w hw => h l w ?_
        rw [hreverse, hw, Option.some_or]
      show (fs.set k v).update gs = fs
      -- a later field sets the key again, or this one is already there
      cases hk : get? gs.reverse k with
      | some w =>
        have hfs : fs.get? k = some w := h k w (by rw [hreverse, hk, Option.some_or])
        rw [update_set (by rw [hfs]; rfl) (by rw [hk]; rfl), htail]
      | none =>
        have hfs : fs.get? k = some v := h k v (by rw [hreverse, hk]; simp [get?])
        rw [set_eq_self hfs, htail]

/-- `Object.fromEntries(entries)`. -/
def fromEntries (entries : Fields) : Fields := update [] entries

theorem set_of_notMem {fs : Fields} {k : String} (h : k ∉ fs.map Prod.fst) (v : Json) :
    fs.set k v = fs ++ [(k, v)] := by
  induction fs with
  | nil => rfl
  | cons f fs ih =>
    obtain ⟨l, w⟩ := f
    rw [List.map_cons, List.mem_cons, not_or] at h
    rw [set, if_neg (Ne.symm h.1), ih h.2, List.cons_append]

theorem update_of_disjoint {fs gs : Fields} (hgs : (gs.map Prod.fst).Nodup)
    (h : ∀ k ∈ gs.map Prod.fst, k ∉ fs.map Prod.fst) : fs.update gs = fs ++ gs := by
  induction gs generalizing fs with
  | nil => exact (List.append_nil fs).symm
  | cons g gs ih =>
    rw [List.map_cons, List.nodup_cons] at hgs
    have hg : g.1 ∉ fs.map Prod.fst := h g.1 (by simp)
    show (fs.set g.1 g.2).update gs = fs ++ g :: gs
    rw [set_of_notMem hg, ih hgs.2, List.append_assoc, List.singleton_append]
    intro k hk
    rw [List.map_append, List.mem_append, not_or]
    refine ⟨h k (List.mem_cons_of_mem _ hk), ?_⟩
    rintro hkg
    obtain rfl : k = g.1 := by simpa using hkg
    exact hgs.1 hk

/-- Entries with distinct keys make an object as they stand. -/
theorem fromEntries_of_nodup {fs : Fields} (h : (fs.map Prod.fst).Nodup) : fromEntries fs = fs :=
  update_of_disjoint h (by simp)

theorem mem_of_mem_set {fs : Fields} {k : String} {v : Json} {f : String × Json}
    (h : f ∈ fs.set k v) : f ∈ fs ∨ f = (k, v) := by
  induction fs with
  | nil => exact .inr (List.mem_singleton.mp h)
  | cons g fs ih =>
    obtain ⟨l, w⟩ := g
    by_cases hl : l = k
    · subst hl
      rw [set, if_pos rfl, List.mem_cons] at h
      exact h.symm.imp_left (List.mem_cons_of_mem _)
    · rw [set, if_neg hl, List.mem_cons] at h
      obtain rfl | h := h
      · exact .inl List.mem_cons_self
      · exact (ih h).imp_left (List.mem_cons_of_mem _)

theorem mem_of_mem_update {fs gs : Fields} {f : String × Json} (h : f ∈ fs.update gs) :
    f ∈ fs ∨ f ∈ gs := by
  induction gs generalizing fs with
  | nil => exact .inl h
  | cons g gs ih =>
    obtain h | h := ih (show f ∈ (fs.set g.1 g.2).update gs from h)
    · exact (mem_of_mem_set h).imp_right fun h => List.mem_cons.mpr (.inl h)
    · exact .inr (List.mem_cons_of_mem _ h)

theorem mem_of_mem_fromEntries {fs : Fields} {f : String × Json} (h : f ∈ fromEntries fs) :
    f ∈ fs :=
  (mem_of_mem_update h).resolve_left List.not_mem_nil

end Fields

example : Json.containsJson (.obj [("a", .int 1), ("b", .strs ["x", "y"])])
    (.obj [("b", .strs ["y"])]) = true := by decide +kernel

end FileNest
