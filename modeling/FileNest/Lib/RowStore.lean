import Mathlib.Data.List.Basic
import Mathlib.Data.List.Nodup
import Mathlib.Data.List.Perm.Subperm

/-!
# Stores of keyed rows, and the writes of a transaction

A store is one list of rows per table.  Every row has a primary key and an
*owner*: the columns no update of the program ever assigns.  A transaction
commits a list of writes — inserts, updates by primary key, deletes — and what it
may touch is a *region*: a set of owners, table by table.

Two facts about regions are all that isolation proofs need.  Writes confined to a
region leave everything outside it alone (`agree_compl_applyAll`), and a query that
only looks inside a region has the same answer on stores that agree there
(`filter_of_agree`).

## Main definitions

* `Keyed`, `Store` — rows with a primary key and an owner, tables of them.
* `Patch`, `Write`, `applyAll` — the writes of one transaction.
* `Region`, `Store.restrict`, `Write.ConfinedTo` — what a transaction may touch.
* `Admissible` — no insert collides with a primary key already there.

## Main results

* `agree_compl_applyAll` — **confined writes change nothing outside their region.**
* `uniquePk_applyAll` — admissible writes keep primary keys unique.
* `mem_keys_apply` — what is on record stays on record, deletes apart.
-/

namespace RowStore

/-- Rows with a primary key of type `I` and immutable owner columns of type `O`. -/
class Keyed {T : Type} (Row : T → Type) (I O : outParam Type) where
  /-- The primary key. -/
  pk {t : T} : Row t → I
  /-- The columns no update assigns. -/
  owner {t : T} : Row t → O

export Keyed (pk owner)

/-- One list of rows per table. -/
abbrev Store {T : Type} (Row : T → Type) := (t : T) → List (Row t)

variable {T I O : Type} {Row : T → Type} [Keyed Row I O]

variable (Row) in
/-- An assignment of columns that leaves the primary key and the owner alone. -/
structure Patch (t : T) where
  /-- The row after the assignment. -/
  toFun : Row t → Row t
  pk_toFun : ∀ r, pk (toFun r) = pk r
  owner_toFun : ∀ r, owner (toFun r) = owner r

variable (Row) in
/-- One write of a transaction. -/
inductive Write where
  /-- Insert a row. -/
  | insert (t : T) (row : Row t) : Write
  /-- Update the row with the given primary key. -/
  | update (t : T) (i : I) (f : Patch Row t) : Write
  /-- Delete the rows satisfying a predicate. -/
  | delete (t : T) (p : Row t → Bool) : Write

variable [DecidableEq T] [DecidableEq I]

/-- What a write does to the rows of one table. -/
def Write.onTable : Write Row → (t : T) → List (Row t) → List (Row t)
  | .insert u row, t, rows => if h : u = t then rows ++ [h ▸ row] else rows
  | .update u i f, t, rows =>
      if h : u = t then rows.map fun r => if pk r = i then (h ▸ f : Patch Row t).toFun r else r
      else rows
  | .delete u p, t, rows =>
      if h : u = t then rows.filter fun r => !(h ▸ p : Row t → Bool) r else rows

/-- The store after a write. -/
def Write.apply (w : Write Row) (s : Store Row) : Store Row := fun t => w.onTable t (s t)

/-- The store after the writes of a transaction. -/
def applyAll (ws : List (Write Row)) (s : Store Row) : Store Row :=
  ws.foldl (fun s w => w.apply s) s

@[simp] theorem applyAll_nil (s : Store Row) : applyAll [] s = s := rfl

@[simp] theorem applyAll_cons (w : Write Row) (ws : List (Write Row)) (s : Store Row) :
    applyAll (w :: ws) s = applyAll ws (w.apply s) := rfl

theorem applyAll_append (ws vs : List (Write Row)) (s : Store Row) :
    applyAll (ws ++ vs) s = applyAll vs (applyAll ws s) := List.foldl_append

@[simp] theorem apply_insert_self (t : T) (row : Row t) (s : Store Row) :
    (Write.insert t row).apply s t = s t ++ [row] := by
  simp [Write.apply, Write.onTable]

@[simp] theorem apply_update_self (t : T) (i : I) (f : Patch Row t) (s : Store Row) :
    (Write.update t i f).apply s t = (s t).map fun r => if pk r = i then f.toFun r else r := by
  simp [Write.apply, Write.onTable]

@[simp] theorem apply_delete_self (t : T) (p : Row t → Bool) (s : Store Row) :
    (Write.delete t p).apply s t = (s t).filter fun r => !p r := by
  simp [Write.apply, Write.onTable]

/-- The table a write is about. -/
def Write.table : Write Row → T
  | .insert t _ => t
  | .update t _ _ => t
  | .delete t _ => t

omit [DecidableEq T] [DecidableEq I] in
@[simp] theorem table_insert (t : T) (row : Row t) : (Write.insert t row).table = t := rfl

omit [DecidableEq T] [DecidableEq I] in
@[simp] theorem table_update (t : T) (i : I) (f : Patch Row t) :
    (Write.update t i f).table = t := rfl

omit [DecidableEq T] [DecidableEq I] in
@[simp] theorem table_delete (t : T) (p : Row t → Bool) : (Write.delete t p).table = t := rfl

/-- A write leaves every other table alone. -/
theorem apply_of_table_ne {w : Write Row} {t : T} (h : w.table ≠ t) (s : Store Row) :
    w.apply s t = s t := by
  cases w <;> simp only [Write.table] at h <;> simp [Write.apply, Write.onTable, h]

/-- Writes about other tables leave a table alone. -/
theorem applyAll_of_table_ne {ws : List (Write Row)} {t : T} (h : ∀ w ∈ ws, w.table ≠ t)
    (s : Store Row) : applyAll ws s t = s t := by
  induction ws generalizing s with
  | nil => rfl
  | cons w ws ih =>
    rw [applyAll_cons, ih fun v hv => h v (List.mem_cons_of_mem _ hv),
      apply_of_table_ne (h w List.mem_cons_self)]

/-! ### Regions -/

/-- A set of owners, table by table. -/
abbrev Region (T O : Type) := T → O → Bool

/-- The rows of a store inside a region. -/
def Store.restrict (s : Store Row) (R : Region T O) : Store Row := fun t =>
  (s t).filter fun r => R t (owner r)

/-- Everything outside a region. -/
def Region.compl (R : Region T O) : Region T O := fun t o => !R t o

/-- Two stores hold the same rows inside a region. -/
def Agree (R : Region T O) (s s' : Store Row) : Prop := s.restrict R = s'.restrict R

/-- A write only touches rows whose owner is in the region. -/
def Write.ConfinedTo (R : Region T O) (s : Store Row) : Write Row → Prop
  | .insert t row => R t (owner row) = true
  | .update t i _ => ∀ r ∈ s t, pk r = i → R t (owner r) = true
  | .delete t p => ∀ r ∈ s t, p r = true → R t (owner r) = true

omit [DecidableEq T] [DecidableEq I] in
theorem Agree.refl (R : Region T O) (s : Store Row) : Agree R s s := rfl

omit [DecidableEq T] [DecidableEq I] in
theorem Agree.symm {R : Region T O} {s s' : Store Row} (h : Agree R s s') : Agree R s' s :=
  Eq.symm h

omit [DecidableEq T] [DecidableEq I] in
theorem Agree.trans {R : Region T O} {s₁ s₂ s₃ : Store Row} (h : Agree R s₁ s₂)
    (h' : Agree R s₂ s₃) : Agree R s₁ s₃ :=
  Eq.trans h h'

omit [DecidableEq T] [DecidableEq I] in
/-- Agreeing on a region means agreeing on every smaller one. -/
theorem Agree.mono {R R' : Region T O} {s s' : Store Row} (h : Agree R s s')
    (hR : ∀ t o, R' t o = true → R t o = true) : Agree R' s s' := by
  funext t
  have ht : (s t).filter _ = (s' t).filter _ := congrFun h t
  have key : ∀ l : List (Row t), l.filter (fun r => R' t (owner r))
      = (l.filter fun r => R t (owner r)).filter fun r => R' t (owner r) := by
    intro l
    rw [List.filter_filter]
    refine List.filter_congr fun r _ => ?_
    cases h' : R' t (owner r)
    · rfl
    · simp [hR t _ h']
  simp only [Store.restrict]
  rw [key (s t), key (s' t), ht]

omit [DecidableEq T] [DecidableEq I] in
/-- A region's rows, member by member. -/
theorem Agree.mem_iff {R : Region T O} {s s' : Store Row} (h : Agree R s s') {t : T} {r : Row t}
    (hr : R t (owner r) = true) : r ∈ s t ↔ r ∈ s' t := by
  have ht : (s t).filter _ = (s' t).filter _ := congrFun h t
  have : r ∈ (s t).filter (fun r => R t (owner r)) ↔ r ∈ (s' t).filter fun r => R t (owner r) := by
    rw [ht]
  simpa [List.mem_filter, hr] using this

omit [DecidableEq T] [DecidableEq I] in
/-- **Queries of many rows.**  Likewise for a filter. -/
theorem filter_of_agree {R : Region T O} {s s' : Store Row} (h : Agree R s s') {t : T}
    {p : Row t → Bool} (hp : ∀ r, p r = true → R t (owner r) = true) :
    (s t).filter p = (s' t).filter p := by
  have ht : (s t).filter _ = (s' t).filter _ := congrFun h t
  have key : ∀ l : List (Row t), l.filter p = (l.filter fun r => R t (owner r)).filter p := by
    intro l
    rw [List.filter_filter]
    refine List.filter_congr fun r _ => ?_
    cases hpr : p r
    · simp
    · simp [hp r hpr]
  rw [key (s t), key (s' t), ht]

omit [DecidableEq T] [DecidableEq I] in
/-- Existence queries. -/
theorem any_of_agree {R : Region T O} {s s' : Store Row} (h : Agree R s s') {t : T}
    {p : Row t → Bool} (hp : ∀ r, p r = true → R t (owner r) = true) :
    (s t).any p = (s' t).any p := by
  have key : ∀ l : List (Row t), l.any p = !(l.filter p).isEmpty := by
    intro l
    induction l with
    | nil => rfl
    | cons a l ih => cases hpa : p a <;> simp [hpa, ih]
  rw [key (s t), key (s' t), filter_of_agree h hp]

omit [DecidableEq T] [DecidableEq I] in
/-- Confinement only asks about rows outside the region. -/
theorem Write.ConfinedTo.congr {R : Region T O} {s s' : Store Row} {w : Write Row}
    (hw : w.ConfinedTo R s) (h : Agree R.compl s s') : w.ConfinedTo R s' := by
  cases w with
  | insert t row => exact hw
  | update t i f =>
    intro r hr hi
    by_contra hR
    have hc : R.compl t (owner r) = true := by simpa [Region.compl] using hR
    exact hR (hw r ((h.mem_iff hc).mpr hr) hi)
  | delete t p =>
    intro r hr hpr
    by_contra hR
    have hc : R.compl t (owner r) = true := by simpa [Region.compl] using hR
    exact hR (hw r ((h.mem_iff hc).mpr hr) hpr)

/-- A confined write changes nothing outside its region. -/
theorem agree_compl_apply {R : Region T O} {s : Store Row} {w : Write Row}
    (hw : w.ConfinedTo R s) : Agree R.compl s (w.apply s) := by
  funext t
  by_cases ht : w.table = t
  swap
  · simp only [Store.restrict, apply_of_table_ne ht]
  subst ht
  cases w with
  | insert t row =>
    simp only [Write.ConfinedTo] at hw
    simp [Store.restrict, Region.compl, hw]
  | update t i f =>
    simp only [Write.ConfinedTo] at hw
    simp only [Store.restrict, table_update, apply_update_self]
    generalize hl : s t = l
    rw [hl] at hw
    clear hl
    induction l with
    | nil => rfl
    | cons a l ih =>
      have ih := ih fun r hr => hw r (List.mem_cons_of_mem _ hr)
      rw [List.map_cons, List.filter_cons, List.filter_cons, ih]
      -- the updated row lies in the region, before and after
      by_cases ha : pk a = i
      · have hRa := hw a List.mem_cons_self ha
        simp [ha, Region.compl, f.owner_toFun, hRa]
      · simp [ha]
  | delete t p =>
    simp only [Write.ConfinedTo] at hw
    simp only [Store.restrict, table_delete, apply_delete_self, List.filter_filter]
    refine List.filter_congr fun r hr => ?_
    cases hp : p r
    · simp
    · simp [Region.compl, hw r hr hp]

/-- Every write of a transaction is confined to the region. -/
def ConfinedTo (R : Region T O) (s : Store Row) (ws : List (Write Row)) : Prop :=
  ∀ w ∈ ws, w.ConfinedTo R s

/-- The same writes keep stores in agreement. -/
theorem Agree.apply {R : Region T O} {s s' : Store Row} (h : Agree R s s') (w : Write Row) :
    Agree R (w.apply s) (w.apply s') := by
  funext t
  by_cases ht : w.table = t
  swap
  · simpa only [Store.restrict, apply_of_table_ne ht] using congrFun h t
  subst ht
  have hw : (s w.table).filter _ = (s' w.table).filter _ := congrFun h w.table
  cases w with
  | insert t row =>
    simp only [table_insert] at hw
    simp only [Store.restrict, table_insert, apply_insert_self, List.filter_append, hw]
  | update t i f =>
    simp only [table_update] at hw
    have key : ∀ l : List (Row t), (l.map fun r => if pk r = i then f.toFun r else r).filter
        (fun r => R t (owner r)) = (l.filter fun r => R t (owner r)).map
          fun r => if pk r = i then f.toFun r else r := by
      intro l
      rw [List.filter_map]
      congr 1
      refine List.filter_congr fun r _ => ?_
      simp only [Function.comp]
      split
      · rw [f.owner_toFun]
      · rfl
    simp only [Store.restrict, table_update, apply_update_self]
    rw [key, key, hw]
  | delete t p =>
    simp only [table_delete] at hw
    simp only [Store.restrict, table_delete, apply_delete_self]
    rw [List.filter_filter, List.filter_filter]
    have key : ∀ l : List (Row t), (l.filter fun r => R t (owner r) && !p r)
        = (l.filter fun r => R t (owner r)).filter fun r => !p r := by
      intro l
      rw [List.filter_filter]
      exact List.filter_congr fun r _ => Bool.and_comm _ _
    rw [key, key, hw]

/-- The same transaction keeps stores in agreement. -/
theorem Agree.applyAll {R : Region T O} {s s' : Store Row} (h : Agree R s s')
    (ws : List (Write Row)) : Agree R (applyAll ws s) (applyAll ws s') := by
  induction ws generalizing s s' with
  | nil => exact h
  | cons w ws ih => exact ih (h.apply w)

/-- **Confined writes change nothing outside their region.** -/
theorem agree_compl_applyAll {R : Region T O} {ws : List (Write Row)} {s : Store Row}
    (hws : ConfinedTo R s ws) : Agree R.compl s (applyAll ws s) := by
  induction ws generalizing s with
  | nil => exact Agree.refl _ _
  | cons w ws ih =>
    have hw := agree_compl_apply (hws w List.mem_cons_self)
    refine hw.trans (ih fun v hv => ?_)
    exact (hws v (List.mem_cons_of_mem _ hv)).congr hw

omit [DecidableEq T] [DecidableEq I] in
theorem ConfinedTo.mono {R R' : Region T O} {s : Store Row} {ws : List (Write Row)}
    (h : ConfinedTo R s ws) (hR : ∀ t o, R t o = true → R' t o = true) : ConfinedTo R' s ws := by
  intro w hw
  have := h w hw
  cases w with
  | insert t row => exact hR _ _ this
  | update t i f => exact fun r hr hi => hR _ _ (this r hr hi)
  | delete t p => exact fun r hr hp => hR _ _ (this r hr hp)

/-! ### Primary keys -/

/-- An insert whose primary key is free; updates and deletes always go through.  No other
constraint of a table is looked at. -/
def Write.Admissible (s : Store Row) : Write Row → Prop
  | .insert t row => ∀ r ∈ s t, pk r ≠ pk row
  | .update _ _ _ => True
  | .delete _ _ => True

/-- No insert of the transaction collides with a primary key. -/
def Admissible : List (Write Row) → Store Row → Prop
  | [], _ => True
  | w :: ws, s => w.Admissible s ∧ Admissible ws (w.apply s)

instance Write.decidableAdmissible (s : Store Row) : (w : Write Row) → Decidable (w.Admissible s)
  | .insert t row => inferInstanceAs (Decidable (∀ r ∈ s t, pk r ≠ pk row))
  | .update _ _ _ => inferInstanceAs (Decidable True)
  | .delete _ _ => inferInstanceAs (Decidable True)

instance decidableAdmissible :
    (ws : List (Write Row)) → (s : Store Row) → Decidable (Admissible ws s)
  | [], _ => inferInstanceAs (Decidable True)
  | w :: ws, s =>
      have := decidableAdmissible ws (w.apply s)
      inferInstanceAs (Decidable (w.Admissible s ∧ Admissible ws (w.apply s)))

/-- Primary keys are unique within each table. -/
def Store.UniquePk (s : Store Row) : Prop := ∀ t, ((s t).map pk).Nodup

omit [DecidableEq T] [DecidableEq I] in
/-- A primary key determines its row. -/
theorem Store.UniquePk.eq_of_pk {s : Store Row} (h : s.UniquePk) {t : T} {r r' : Row t}
    (hr : r ∈ s t) (hr' : r' ∈ s t) (he : pk r = pk r') : r = r' :=
  List.inj_on_of_nodup_map (h t) hr hr' he

theorem uniquePk_apply {s : Store Row} {w : Write Row} (h : s.UniquePk) (hw : w.Admissible s) :
    (w.apply s).UniquePk := by
  intro t
  by_cases ht : w.table = t
  swap
  · rw [apply_of_table_ne ht]
    exact h t
  subst ht
  cases w with
  | insert t row =>
    simp only [table_insert, apply_insert_self, List.map_append, List.map_cons, List.map_nil]
    refine List.nodup_append.mpr ⟨h t, List.nodup_singleton _, ?_⟩
    intro a ha b hb
    obtain ⟨r, hr, rfl⟩ := List.mem_map.mp ha
    rw [List.mem_singleton] at hb
    subst hb
    exact hw r hr
  | update t i f =>
    have hmap : ((s t).map fun r => if pk r = i then f.toFun r else r).map pk = (s t).map pk := by
      rw [List.map_map]
      refine List.map_congr_left fun r _ => ?_
      simp only [Function.comp]
      split
      · exact f.pk_toFun r
      · rfl
    simp only [table_update, apply_update_self, hmap]
    exact h t
  | delete t p =>
    simp only [table_delete, apply_delete_self]
    exact (h t).sublist (List.filter_sublist.map _)

/-- Admissible writes keep primary keys unique. -/
theorem uniquePk_applyAll {ws : List (Write Row)} {s : Store Row} (h : s.UniquePk)
    (hws : Admissible ws s) : (applyAll ws s).UniquePk := by
  induction ws generalizing s with
  | nil => exact h
  | cons w ws ih => exact ih (uniquePk_apply h hws.1) hws.2

omit [DecidableEq T] [DecidableEq I] in
/-- An update by the primary key of a row in the region is confined to it. -/
theorem confinedTo_update_of_mem {R : Region T O} {s : Store Row} (h : s.UniquePk) {t : T}
    {r : Row t} (hr : r ∈ s t) (hR : R t (owner r) = true) (f : Patch Row t) :
    (Write.update t (pk r) f).ConfinedTo R s := by
  intro r' hr' hi
  rw [h.eq_of_pk hr' hr hi]
  exact hR

/-! ### Owners on record -/

/-- The primary keys of a table with their owners. -/
def Store.keys (s : Store Row) (t : T) : List (I × O) := (s t).map fun r => (pk r, owner r)

omit [DecidableEq T] [DecidableEq I] in
theorem mem_keys_of_mem {s : Store Row} {t : T} {r : Row t} (h : r ∈ s t) :
    (pk r, owner r) ∈ s.keys t :=
  List.mem_map_of_mem h

omit [DecidableEq T] [DecidableEq I] in
theorem exists_of_mem_keys {s : Store Row} {t : T} {i : I} {o : O} (h : (i, o) ∈ s.keys t) :
    ∃ r ∈ s t, pk r = i ∧ owner r = o := by
  obtain ⟨r, hr, he⟩ := List.mem_map.mp h
  exact ⟨r, hr, congrArg Prod.fst he, congrArg Prod.snd he⟩

/-- An update does not change the owners on record. -/
@[simp] theorem keys_apply_update (u : T) (i : I) (f : Patch Row u) (s : Store Row) (t : T) :
    Store.keys ((Write.update u i f).apply s) t = s.keys t := by
  by_cases h : u = t
  · subst h
    simp only [Store.keys, apply_update_self, List.map_map]
    refine List.map_congr_left fun r _ => ?_
    simp only [Function.comp]
    split
    · rw [f.pk_toFun, f.owner_toFun]
    · rfl
  · simp only [Store.keys]
    rw [apply_of_table_ne (by simpa using h)]

/-- What is on record in a table that loses no rows stays on record. -/
theorem mem_keys_apply {w : Write Row} {s : Store Row} {t : T} {k : I × O}
    (hw : ∀ p, w ≠ .delete t p) (h : k ∈ s.keys t) : k ∈ Store.keys (w.apply s) t := by
  cases w with
  | insert u row =>
    by_cases hu : u = t
    · subst hu
      simp only [Store.keys, apply_insert_self, List.map_append, List.mem_append]
      exact Or.inl h
    · simp only [Store.keys]
      rwa [apply_of_table_ne (by simpa using hu)]
  | update u i f => simpa using h
  | delete u p =>
    have hu : u ≠ t := by
      rintro rfl
      exact hw p rfl
    simp only [Store.keys]
    rwa [apply_of_table_ne (by simpa using hu)]

theorem mem_keys_applyAll {ws : List (Write Row)} {s : Store Row} {t : T} {k : I × O}
    (hws : ∀ w ∈ ws, ∀ p, w ≠ .delete t p) (h : k ∈ s.keys t) :
    k ∈ Store.keys (applyAll ws s) t := by
  induction ws generalizing s with
  | nil => exact h
  | cons w ws ih =>
    exact ih (fun v hv => hws v (List.mem_cons_of_mem _ hv))
      (mem_keys_apply (hws w List.mem_cons_self) h)

end RowStore
