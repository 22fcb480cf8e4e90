import FileNest.Lib.RowStore

/-!
# Soft references between rows

Rows may name rows of other tables — through their owner columns, with no constraint
in the database.  A transaction whose inserts only name rows on record keeps every
reference good, and since rows on record never leave a referenced table, it still
does so when it commits after other transactions.

## Main definitions

* `References`, `Referential` — what a row's owner refers to, and that it is there.
* `Resolved` — the inserts of a transaction refer to rows on record.
* `KeepsReferenced` — what is referenced in one store is on record in another.

## Main results

* `referential_applyAll` — **resolved transactions keep all references good.**
* `Resolved.mono` — a resolved transaction stays resolved while the store grows.
-/

namespace RowStore

open Keyed

/-- What the owner of a row refers to: a table, a primary key and its owner. -/
abbrev References (T I O : Type) := T → O → Option (T × I × O)

variable {T I O : Type} {Row : T → Type} [Keyed Row I O] (refs : References T I O)

/-- A reference is on record. -/
def Store.Has (s : Store Row) (k : T × I × O) : Prop := (k.2.1, k.2.2) ∈ s.keys k.1

/-- Every row's reference is on record. -/
def Referential (s : Store Row) : Prop :=
  ∀ t, ∀ r ∈ s t, ∀ k, refs t (owner r) = some k → s.Has k

/-- No row refers to a table. -/
def Unreferenced (t : T) : Prop := ∀ u o k, refs u o = some k → k.1 ≠ t

variable [DecidableEq T] [DecidableEq I]

/-- An insert refers to a row on record; nothing is deleted from a referenced table. -/
def Write.Resolved (s : Store Row) : Write Row → Prop
  | .insert t row => ∀ k, refs t (owner row) = some k → s.Has k
  | .update _ _ _ => True
  | .delete t _ => Unreferenced refs t

/-- The writes of a transaction, in order, are resolved. -/
def Resolved : List (Write Row) → Store Row → Prop
  | [], _ => True
  | w :: ws, s => w.Resolved refs s ∧ Resolved ws (w.apply s)

variable {refs}

theorem Store.Has.apply {s : Store Row} {w : Write Row} {t : T} {o : O} {k : T × I × O}
    (hw : w.Resolved refs s) (hk : refs t o = some k) (h : s.Has k) :
    Store.Has (w.apply s) k := by
  refine mem_keys_apply ?_ h
  rintro p rfl
  exact hw t o k hk rfl

omit [DecidableEq T] [DecidableEq I] in
/-- Rows of a table are determined by key and owner as far as references go. -/
theorem Referential.of_keys {s : Store Row} (h : Referential refs s) {t : T} {i : I} {o : O}
    (hio : (i, o) ∈ s.keys t) {k : T × I × O} (hk : refs t o = some k) : s.Has k := by
  obtain ⟨r, hr, -, rfl⟩ := exists_of_mem_keys hio
  exact h t r hr k hk

theorem referential_apply {s : Store Row} {w : Write Row} (h : Referential refs s)
    (hw : w.Resolved refs s) : Referential refs (w.apply s) := by
  intro t r hr k hk
  refine Store.Has.apply hw hk ?_
  cases w with
  | insert u row =>
    by_cases hu : u = t
    · subst hu
      rw [apply_insert_self, List.mem_append, List.mem_singleton] at hr
      rcases hr with hr | rfl
      · exact h u r hr k hk
      · exact hw k hk
    · rw [apply_of_table_ne (by simpa using hu)] at hr
      exact h t r hr k hk
  | update u i f =>
    have hkey := mem_keys_of_mem hr
    rw [keys_apply_update] at hkey
    exact h.of_keys hkey hk
  | delete u p =>
    by_cases hu : u = t
    · subst hu
      rw [apply_delete_self, List.mem_filter] at hr
      exact h u r hr.1 k hk
    · rw [apply_of_table_ne (by simpa using hu)] at hr
      exact h t r hr k hk

/-- Resolved transactions keep all references good. -/
theorem referential_applyAll {ws : List (Write Row)} {s : Store Row} (h : Referential refs s)
    (hws : Resolved refs ws s) : Referential refs (applyAll ws s) := by
  induction ws generalizing s with
  | nil => exact h
  | cons w ws ih => exact ih (referential_apply h hws.1) hws.2

omit [DecidableEq T] [DecidableEq I] in
variable (refs) in
/-- Whatever is on record in a referenced table of `s` is on record in `s'`. -/
def KeepsReferenced (s s' : Store Row) : Prop :=
  ∀ t o k, refs t o = some k → s.Has k → s'.Has k

omit [DecidableEq T] [DecidableEq I] in
theorem KeepsReferenced.refl (s : Store Row) : KeepsReferenced refs s s :=
  fun _ _ _ _ h => h

omit [DecidableEq T] [DecidableEq I] in
theorem KeepsReferenced.trans {s₁ s₂ s₃ : Store Row} (h : KeepsReferenced refs s₁ s₂)
    (h' : KeepsReferenced refs s₂ s₃) : KeepsReferenced refs s₁ s₃ :=
  fun t o k hk hs => h' t o k hk (h t o k hk hs)

theorem keepsReferenced_applyAll {ws : List (Write Row)} {s : Store Row}
    (hws : Resolved refs ws s) : KeepsReferenced refs s (applyAll ws s) := by
  induction ws generalizing s with
  | nil => exact .refl s
  | cons w ws ih => exact .trans (fun t o k hk h => h.apply hws.1 hk) (ih hws.2)

/-- Stores that keep what is referenced keep it after one more write. -/
theorem KeepsReferenced.apply {s s' : Store Row} (h : KeepsReferenced refs s s')
    {w : Write Row} (hw : w.Resolved refs s') :
    KeepsReferenced refs (w.apply s) (w.apply s') := by
  intro t o k hk hs
  cases w with
  | insert u row =>
    by_cases hu : u = k.1
    · subst hu
      simp only [Store.Has, Store.keys, apply_insert_self, List.map_append, List.mem_append] at hs ⊢
      exact hs.imp_left fun hs => h t o k hk hs
    · have hu' : (Write.insert u row).table ≠ k.1 := by simpa using hu
      simp only [Store.Has, Store.keys, apply_of_table_ne hu'] at hs ⊢
      exact h t o k hk hs
  | update u i f =>
    simp only [Store.Has, keys_apply_update] at hs ⊢
    exact h t o k hk hs
  | delete u p =>
    have hu : (Write.delete u p).table ≠ k.1 := fun e => hw t o k hk e.symm
    simp only [Store.Has, Store.keys, apply_of_table_ne hu] at hs ⊢
    exact h t o k hk hs

omit [DecidableEq T] [DecidableEq I] in
theorem Write.Resolved.mono {s s' : Store Row} {w : Write Row} (hw : w.Resolved refs s)
    (h : KeepsReferenced refs s s') : w.Resolved refs s' := by
  cases w with
  | insert t row => exact fun k hk => h t _ k hk (hw k hk)
  | update t i f => trivial
  | delete t p => exact hw

/-- A resolved transaction stays resolved while the store keeps what is referenced. -/
theorem Resolved.mono {ws : List (Write Row)} {s s' : Store Row} (hws : Resolved refs ws s)
    (h : KeepsReferenced refs s s') : Resolved refs ws s' := by
  induction ws generalizing s s' with
  | nil => trivial
  | cons w ws ih => exact ⟨hws.1.mono h, ih hws.2 (h.apply (hws.1.mono h))⟩

/-- Writes that are resolved one by one are resolved together. -/
theorem Resolved.of_forall {ws : List (Write Row)} {s : Store Row}
    (h : ∀ w ∈ ws, w.Resolved refs s) : Resolved refs ws s := by
  induction ws generalizing s with
  | nil => trivial
  | cons w ws ih =>
    have hw := h w List.mem_cons_self
    refine ⟨hw, ih fun v hv => (h v (List.mem_cons_of_mem _ hv)).mono ?_⟩
    exact fun t o k hk hs => hs.apply hw hk

end RowStore
