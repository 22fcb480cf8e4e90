import FileNest.Json

/-!
# Key naming in the TypeScript SDKs

The backend answers in snake_case; the core HTTP client rewrites the keys of every body it
decodes, at every depth, before a caller sees it.

## Main definitions

* `snakeToCamel`, `camelizeKeys` — the two functions of the core client.
* `Json.mapKeys` — an object whose keys are rewritten, a later key winning over an equal
  earlier one.
* `Json.AllKeys` — a property of every key at every depth.
* `Json.DistinctKeys` — no object at any depth has a key twice, which is what it takes to
  be an object of the language.

## Main results

* `Json.mapKeys_eq_self_iff` — **what an idempotent renaming leaves alone.**
* `snakeToCamel_eq_self_iff`, `camelizeKeys_eq_self_iff` — the same for the client's.
-/

namespace FileNest

/-! ### Objects under a renaming -/

namespace Json

mutual

/-- The value with every key of every object in it rewritten. -/
def mapKeys (f : String → String) : Json → Json
  | obj fields => obj (Fields.fromEntries (mapKeysFields f fields))
  | arr xs => arr (mapKeysElems f xs)
  | null => null
  | bool b => bool b
  | num n => num n
  | str s => str s

/-- Likewise the elements of an array. -/
def mapKeysElems (f : String → String) : List Json → List Json
  | [] => []
  | x :: xs => mapKeys f x :: mapKeysElems f xs

/-- Likewise the entries of an object. -/
def mapKeysFields (f : String → String) : List (String × Json) → List (String × Json)
  | [] => []
  | (k, x) :: fs => (f k, mapKeys f x) :: mapKeysFields f fs

end

mutual

/-- Every key of every object in the value has the property. -/
def AllKeys (p : String → Prop) : Json → Prop
  | obj fields => AllKeysFields p fields
  | arr xs => AllKeysElems p xs
  | null | bool _ | num _ | str _ => True

/-- Likewise in the elements of an array. -/
def AllKeysElems (p : String → Prop) : List Json → Prop
  | [] => True
  | x :: xs => AllKeys p x ∧ AllKeysElems p xs

/-- Likewise in the entries of an object. -/
def AllKeysFields (p : String → Prop) : List (String × Json) → Prop
  | [] => True
  | (k, x) :: fs => p k ∧ AllKeys p x ∧ AllKeysFields p fs

end

mutual

/-- No object in the value has a key twice. -/
def DistinctKeys : Json → Prop
  | obj fields => (fields.map Prod.fst).Nodup ∧ DistinctKeysFields fields
  | arr xs => DistinctKeysElems xs
  | null | bool _ | num _ | str _ => True

/-- Likewise in the elements of an array. -/
def DistinctKeysElems : List Json → Prop
  | [] => True
  | x :: xs => DistinctKeys x ∧ DistinctKeysElems xs

/-- Likewise in the values of an object. -/
def DistinctKeysFields : List (String × Json) → Prop
  | [] => True
  | (_, x) :: fs => DistinctKeys x ∧ DistinctKeysFields fs

end

theorem allKeysFields_iff {p : String → Prop} {fs : List (String × Json)} :
    AllKeysFields p fs ↔ ∀ f ∈ fs, p f.1 ∧ AllKeys p f.2 := by
  induction fs with
  | nil => simp [AllKeysFields]
  | cons f fs ih => simp [AllKeysFields, ih, and_assoc]

section Renaming

variable {f : String → String}

theorem mapKeysFields_eq_map (fs : List (String × Json)) :
    mapKeysFields f fs = fs.map fun g => (f g.1, mapKeys f g.2) := by
  induction fs with
  | nil => rfl
  | cons g fs ih => rw [mapKeysFields, List.map_cons, ih]

/-- A field of an object whose keys stay apart. -/
theorem get?_mapKeysFields {fs : Fields} (h : ((fs.map Prod.fst).map f).Nodup) {k : String}
    (hk : k ∈ fs.map Prod.fst) :
    (Fields.fromEntries (mapKeysFields f fs)).get? (f k) = (fs.get? k).map (mapKeys f) := by
  have hnodup : ((mapKeysFields f fs).map Prod.fst).Nodup := by
    rw [List.map_map] at h
    rwa [mapKeysFields_eq_map, List.map_map]
  rw [Fields.fromEntries_of_nodup hnodup, mapKeysFields_eq_map]
  clear hnodup
  induction fs with
  | nil => cases hk
  | cons g fs ih =>
    rw [List.map_cons, List.map_cons, List.nodup_cons] at h
    rw [List.map_cons, Fields.get?, Fields.get?, List.find?_cons, List.find?_cons]
    by_cases hg : g.1 = k
    · simp [hg]
    · have hmem : k ∈ fs.map Prod.fst := (List.mem_cons.mp hk).resolve_left (Ne.symm hg)
      have hne : f g.1 ≠ f k := by
        intro heq
        exact h.1 (heq ▸ List.mem_map_of_mem hmem)
      simp only [beq_false_of_ne hg, beq_false_of_ne hne]
      exact ih h.2 hmem

mutual

/-- A renaming leaves only keys that it makes. -/
theorem allKeys_mapKeys {p : String → Prop} (h : ∀ k, p (f k)) :
    (v : Json) → AllKeys p (mapKeys f v)
  | obj fields => by
    rw [mapKeys, AllKeys, allKeysFields_iff]
    exact fun g hg => allKeysFields_iff.mp (allKeysFields_mapKeysFields h fields) g
      (Fields.mem_of_mem_fromEntries hg)
  | arr xs => by
    rw [mapKeys, AllKeys]
    exact allKeysElems_mapKeysElems h xs
  | null => trivial
  | bool _ => trivial
  | num _ => trivial
  | str _ => trivial

theorem allKeysElems_mapKeysElems {p : String → Prop} (h : ∀ k, p (f k)) :
    (xs : List Json) → AllKeysElems p (mapKeysElems f xs)
  | [] => trivial
  | x :: xs => ⟨allKeys_mapKeys h x, allKeysElems_mapKeysElems h xs⟩

theorem allKeysFields_mapKeysFields {p : String → Prop} (h : ∀ k, p (f k)) :
    (fs : List (String × Json)) → AllKeysFields p (mapKeysFields f fs)
  | [] => trivial
  | (k, x) :: fs => ⟨h k, allKeys_mapKeys h x, allKeysFields_mapKeysFields h fs⟩

end

mutual

/-- A renaming that keeps every key keeps the value. -/
theorem mapKeys_eq_self : (v : Json) → v.DistinctKeys → v.AllKeys (fun k => f k = k) →
    mapKeys f v = v
  | obj fields, hdistinct, hkeys => by
    rw [mapKeys, mapKeysFields_eq_self fields hdistinct.2 hkeys,
      Fields.fromEntries_of_nodup hdistinct.1]
  | arr xs, hdistinct, hkeys => by
    rw [mapKeys, mapKeysElems_eq_self xs hdistinct hkeys]
  | null, _, _ => rfl
  | bool _, _, _ => rfl
  | num _, _, _ => rfl
  | str _, _, _ => rfl

theorem mapKeysElems_eq_self : (xs : List Json) → DistinctKeysElems xs →
    AllKeysElems (fun k => f k = k) xs → mapKeysElems f xs = xs
  | [], _, _ => rfl
  | x :: xs, hdistinct, hkeys => by
    rw [mapKeysElems, mapKeys_eq_self x hdistinct.1 hkeys.1,
      mapKeysElems_eq_self xs hdistinct.2 hkeys.2]

theorem mapKeysFields_eq_self : (fs : List (String × Json)) → DistinctKeysFields fs →
    AllKeysFields (fun k => f k = k) fs → mapKeysFields f fs = fs
  | [], _, _ => rfl
  | (k, x) :: fs, hdistinct, hkeys => by
    rw [mapKeysFields, mapKeys_eq_self x hdistinct.1 hkeys.2.1,
      mapKeysFields_eq_self fs hdistinct.2 hkeys.2.2, hkeys.1]

end

/-- **What an idempotent renaming leaves alone**: the values whose keys it keeps. -/
theorem mapKeys_eq_self_iff (hf : ∀ k, f (f k) = f k) {v : Json} (hv : v.DistinctKeys) :
    mapKeys f v = v ↔ v.AllKeys fun k => f k = k := by
  constructor
  · intro h
    have hkeys : (mapKeys f v).AllKeys fun k => f k = k := allKeys_mapKeys hf v
    rwa [h] at hkeys
  · exact mapKeys_eq_self v hv

end Renaming

end Json

/-! ### The client's renaming -/

/-- `s.replace(/_([a-z])/g, (_, c) => c.toUpperCase())`, on characters. -/
def camelChars : List Char → List Char
  | '_' :: d :: ds =>
    if d.isLower then d.toUpper :: camelChars ds else '_' :: camelChars (d :: ds)
  | c :: cs => c :: camelChars cs
  | [] => []

/-- `snakeToCamel`. -/
def snakeToCamel (s : String) : String := String.ofList (camelChars s.toList)

/-- `camelizeKeys`. -/
def camelizeKeys (value : Json) : Json := value.mapKeys snakeToCamel

/-- The characters have an underscore before a lower-case letter. -/
def hasSnake : List Char → Bool
  | [] => false
  | c :: cs => (c == '_' && cs.head?.any Char.isLower) || hasSnake cs

/-- The key has an underscore before a lower-case letter. -/
def SnakeCase (key : String) : Prop := hasSnake key.toList = true

instance (key : String) : Decidable (SnakeCase key) :=
  inferInstanceAs (Decidable (hasSnake key.toList = true))

/-! #### Upper case -/

theorem isLower_iff {c : Char} : c.isLower = true ↔ 97 ≤ c.val.toNat ∧ c.val.toNat ≤ 122 :=
  Bool.and_eq_true_iff.trans (and_congr decide_eq_true_iff decide_eq_true_iff)

theorem toNat_toUpper {c : Char} (h : c.isLower = true) :
    c.toUpper.val.toNat = c.val.toNat - 32 := by
  obtain ⟨hlow, hhigh⟩ := isLower_iff.mp h
  have hupper : c.toUpper.val = c.val + ('A'.val - 'a'.val) := by
    delta Char.toUpper
    rw [dif_pos ⟨hlow, hhigh⟩]
  have hshift : ('A'.val - 'a'.val).toNat = 4294967264 := by simp
  rw [hupper, UInt32.toNat_add, hshift]
  omega

theorem isLower_toUpper {c : Char} (h : c.isLower = true) : c.toUpper.isLower = false := by
  rw [← Bool.not_eq_true, isLower_iff, toNat_toUpper h]
  have hhigh := (isLower_iff.mp h).2
  omega

theorem toUpper_ne_underscore {c : Char} (h : c.isLower = true) : c.toUpper ≠ '_' := by
  intro heq
  have hval : c.toUpper.val.toNat = 95 := by rw [heq]; rfl
  rw [toNat_toUpper h] at hval
  have hhigh := (isLower_iff.mp h).2
  omega

/-! #### What the renaming keeps -/

/-- The renaming puts no lower-case letter in front. -/
theorem isLower_head_of_camelChars {cs : List Char}
    (h : (camelChars cs).head?.any Char.isLower = true) : cs.head?.any Char.isLower = true := by
  fun_cases camelChars cs with
  | case1 d ds hd =>
    rw [camelChars, if_pos hd] at h
    exact absurd h (by simp [isLower_toUpper hd])
  | case2 d ds hd =>
    rw [camelChars, if_neg hd] at h
    exact absurd (show '_'.isLower = true from h) (by decide)
  | case3 c cs hc =>
    rw [camelChars] at h
    · exact h
    · exact hc
  | case4 => exact h

theorem hasSnake_camelChars (cs : List Char) : hasSnake (camelChars cs) = false := by
  fun_induction camelChars cs with
  | case1 d ds hd ih => simp [hasSnake, toUpper_ne_underscore hd, ih]
  | case2 d ds hd ih =>
    have hhead : (camelChars (d :: ds)).head?.any Char.isLower = false := by
      rw [← Bool.not_eq_true]
      exact fun h => hd (isLower_head_of_camelChars h)
    rw [hasSnake, hhead, ih, Bool.and_false, Bool.or_false]
  | case3 c cs hc ih =>
    have hhead : (c == '_' && (camelChars cs).head?.any Char.isLower) = false := by
      rw [Bool.and_eq_false_iff, beq_eq_false_iff_ne]
      cases cs with
      | nil => exact .inr rfl
      | cons d ds => exact .inl fun h => hc d ds h rfl
    rw [hasSnake, hhead, ih, Bool.or_false]
  | case4 => rfl

theorem camelChars_of_not_hasSnake {cs : List Char} (h : hasSnake cs = false) :
    camelChars cs = cs := by
  fun_induction camelChars cs with
  | case1 d ds hd ih => simp [hasSnake, hd] at h
  | case2 d ds hd ih => rw [ih (by simpa [hasSnake, hd] using h)]
  | case3 c cs hc ih => rw [ih (Bool.or_eq_false_iff.mp h).2]
  | case4 => rfl

@[simp] theorem toList_snakeToCamel (s : String) :
    (snakeToCamel s).toList = camelChars s.toList := by
  rw [snakeToCamel, String.toList_ofList]

/-- What the renaming makes is not in snake_case. -/
theorem not_snakeCase_snakeToCamel (s : String) : ¬SnakeCase (snakeToCamel s) := by
  rw [SnakeCase, toList_snakeToCamel, hasSnake_camelChars]
  exact Bool.false_ne_true

/-- The renaming keeps exactly the keys that are not in snake_case. -/
theorem snakeToCamel_eq_self_iff {s : String} : snakeToCamel s = s ↔ ¬SnakeCase s := by
  constructor
  · intro h
    rw [← h]
    exact not_snakeCase_snakeToCamel s
  · intro h
    rw [snakeToCamel, camelChars_of_not_hasSnake (Bool.eq_false_iff.mpr h), String.ofList_toList]

/-- No key at any depth of the decoded body is in snake_case. -/
theorem allKeys_camelizeKeys (v : Json) : (camelizeKeys v).AllKeys fun k => ¬SnakeCase k :=
  Json.allKeys_mapKeys not_snakeCase_snakeToCamel v

/-- **The client leaves alone exactly the values without a key in snake_case.** -/
theorem camelizeKeys_eq_self_iff {v : Json} (hv : v.DistinctKeys) :
    camelizeKeys v = v ↔ v.AllKeys fun k => ¬SnakeCase k := by
  have hidempotent : ∀ k, snakeToCamel (snakeToCamel k) = snakeToCamel k := fun k =>
    snakeToCamel_eq_self_iff.mpr (not_snakeCase_snakeToCamel k)
  rw [camelizeKeys, Json.mapKeys_eq_self_iff hidempotent hv]
  simp only [snakeToCamel_eq_self_iff]

example : camelizeKeys (.obj [("a_b", .int 1), ("aB", .obj [("__c_", .null)])])
    = .obj [("aB", .obj [("_C_", .null)])] := by decide +kernel

end FileNest
