import Mathlib.Data.List.Nodup

/-!
# Maps in the order of insertion

A map is a list of keys with their values.  A key that is set again keeps its place.

## Main definitions

* `get?`, `set`, `modify` — the operations.

## Main results

* `get?_modify` — a change is seen at its key and nowhere else.
* `foldl_set` — **different keys are listed as they are set.**
-/

namespace OrderedMap

variable {κ ν α : Type} [DecidableEq κ]

/-- The value of a key. -/
def get? : List (κ × ν) → κ → Option ν
  | [], _ => none
  | (l, v) :: m, k => if l = k then some v else get? m k

/-- Set the value of a key. -/
def set : List (κ × ν) → κ → ν → List (κ × ν)
  | [], k, v => [(k, v)]
  | (l, w) :: m, k, v => if l = k then (l, v) :: m else (l, w) :: set m k v

/-- Change the value of a key, if it has one. -/
def modify (m : List (κ × ν)) (k : κ) (f : ν → ν) : List (κ × ν) :=
  m.map fun e => if e.1 = k then (e.1, f e.2) else e

theorem get?_modify (m : List (κ × ν)) (k l : κ) (f : ν → ν) :
    get? (modify m k f) l = if l = k then (get? m l).map f else get? m l := by
  induction m with
  | nil => cases decEq l k <;> simp [modify, get?]
  | cons e m ih =>
    obtain ⟨i, v⟩ := e
    have hcons : modify ((i, v) :: m) k f = (i, if i = k then f v else v) :: modify m k f := by
      rw [modify, List.map_cons]
      split <;> rfl
    rw [hcons, get?, get?, ih]
    by_cases hil : i = l
    · subst hil
      rw [if_pos rfl, if_pos rfl]
      split <;> rfl
    · rw [if_neg hil, if_neg hil]

theorem get?_isSome {m : List (κ × ν)} {k : κ} : (get? m k).isSome ↔ k ∈ m.map Prod.fst := by
  induction m with
  | nil => exact iff_of_false Bool.false_ne_true List.not_mem_nil
  | cons e m ih =>
    rw [List.map_cons, List.mem_cons, get?]
    split
    · next h => exact iff_of_true rfl (.inl h.symm)
    · next h => rw [ih, or_iff_right fun heq => h heq.symm]

theorem mem_of_get? {m : List (κ × ν)} {k : κ} {v : ν} (h : get? m k = some v) : (k, v) ∈ m := by
  induction m with
  | nil => cases h
  | cons e m ih =>
    rw [get?] at h
    split at h
    · next heq =>
      cases h
      exact heq ▸ List.mem_cons_self
    · exact List.mem_cons_of_mem e (ih h)

theorem set_of_not_mem {m : List (κ × ν)} {k : κ} (h : k ∉ m.map Prod.fst) (v : ν) :
    set m k v = m ++ [(k, v)] := by
  induction m with
  | nil => rfl
  | cons e m ih =>
    rw [List.map_cons, List.mem_cons, not_or] at h
    rw [set, if_neg fun heq => h.1 heq.symm, ih h.2, List.cons_append]

/-- Different keys are listed as they are set. -/
theorem foldl_set {key : α → κ} (f : α → ν) {l : List α} (h : (l.map key).Nodup) :
    l.foldl (fun m a => set m (key a) (f a)) [] = l.map fun a => (key a, f a) := by
  -- from any map without these keys
  suffices hfrom : ∀ m : List (κ × ν), (m.map Prod.fst ++ l.map key).Nodup →
      l.foldl (fun m a => set m (key a) (f a)) m = m ++ l.map fun a => (key a, f a) from
    hfrom [] h
  intro m hm
  induction l generalizing m with
  | nil => exact (List.append_nil m).symm
  | cons a l ih =>
    have hnotMem : key a ∉ m.map Prod.fst := fun hmem =>
      List.disjoint_of_nodup_append hm hmem List.mem_cons_self
    rw [List.foldl_cons, set_of_not_mem hnotMem, ih h.of_cons]
    · rw [List.append_assoc, List.map_cons, List.singleton_append]
    · rw [List.map_append, List.append_assoc]
      exact hm

/-- What is listed under its key is its value. -/
theorem get?_map {key : α → κ} (f : α → ν) {l : List α} (h : (l.map key).Nodup) {a : α}
    (ha : a ∈ l) : get? (l.map fun a => (key a, f a)) (key a) = some (f a) := by
  induction l with
  | nil => cases ha
  | cons b l ih =>
    rw [List.map_cons, get?]
    rcases List.mem_cons.mp ha with rfl | ha
    · exact if_pos rfl
    · rw [List.map_cons, List.nodup_cons] at h
      have hne : key b ≠ key a := fun heq => h.1 (List.mem_map.mpr ⟨a, ha, heq.symm⟩)
      rw [if_neg hne, ih h.2 ha]

end OrderedMap
