import FileNest.Lib.ReadCommitted

/-!
# Transactions that read the same store

Under READ COMMITTED any number of transactions may read a store before the first of them
commits to it.  Each computes its writes as if it were alone, and if they only insert rows
with keys of their own then all of them commit.

## Main definitions

* `Write.Inserts` — the write inserts a row with the key.

## Main results

* `admissible_of_fresh` — rows with new keys can be inserted one after the other.
* `count_applyAll_flatten` — a number that each transaction raises by one.
* `Reachable.overlap` — **transactions that read the same store all commit.**
-/

namespace RowStore

variable {T I O : Type} {Row : T → Type} {C : Type} [Keyed Row I O]
  [DecidableEq T] [DecidableEq I]

/-- The write inserts a row with the key. -/
def Write.Inserts (w : Write Row) (i : I) : Prop := ∃ t row, w = .insert t row ∧ pk row = i

theorem admissible_append {ws vs : List (Write Row)} {s : Store Row} :
    Admissible (ws ++ vs) s ↔ Admissible ws s ∧ Admissible vs (applyAll ws s) := by
  induction ws generalizing s with
  | nil => exact ⟨fun h => ⟨trivial, h⟩, fun h => h.2⟩
  | cons w ws ih => exact (and_congr_right fun _ => ih).trans and_assoc.symm

/-- Rows with new keys can be inserted one after the other. -/
theorem admissible_of_fresh {ws : List (Write Row)} {is : List I} {s : Store Row}
    (h : List.Forall₂ Write.Inserts ws is) (hnodup : is.Nodup)
    (hfresh : ∀ t, ∀ r ∈ s t, pk r ∉ is) : Admissible ws s := by
  induction h generalizing s with
  | nil => trivial
  | cons hw hws ih =>
    obtain ⟨t, row, rfl, rfl⟩ := hw
    obtain ⟨hnew, hnodup⟩ := List.nodup_cons.mp hnodup
    refine ⟨fun r hr heq => ?_, ih hnodup fun u r hr => ?_⟩
    · exact hfresh t r hr (heq ▸ List.mem_cons_self)
    · by_cases hu : t = u
      · subst hu
        rw [apply_insert_self] at hr
        rcases List.mem_append.mp hr with hr | hr
        · exact fun hmem => hfresh t r hr (List.mem_cons_of_mem _ hmem)
        · rwa [List.mem_singleton.mp hr]
      · rw [apply_of_table_ne (by simpa using hu)] at hr
        exact fun hmem => hfresh u r hr (List.mem_cons_of_mem _ hmem)

/-- A number that each transaction raises by one. -/
theorem count_applyAll_flatten (count : Store Row → ℕ) {wss : List (List (Write Row))}
    (h : ∀ ws ∈ wss, ∀ s, count (applyAll ws s) = count s + 1) (s : Store Row) :
    count (applyAll wss.flatten s) = count s + wss.length := by
  induction wss generalizing s with
  | nil => rfl
  | cons ws wss ih =>
    rw [List.flatten_cons, applyAll_append, ih (fun vs hvs => h vs (List.mem_cons_of_mem _ hvs)),
      h ws List.mem_cons_self, List.length_cons]
    omega

namespace ReadCommitted

variable {run : Program Row C} {start : Store Row → Prop} {s : Store Row}

/-- Any number of transactions read the store. -/
theorem Reachable.reads (h : Reachable run .always start ⟨s, []⟩) (calls : List C) :
    Reachable run .always start ⟨s, calls.map fun c => (c, s)⟩ := by
  induction calls with
  | nil => exact h
  | cons c calls ih => exact ih.step (.read c)

/-- **Transactions that read the same store all commit**, if what they write can be written. -/
theorem Reachable.overlap (h : Reachable run .always start ⟨s, []⟩) {calls : List C}
    {wss : List (List (Write Row))}
    (hcalls : List.Forall₂ (fun c ws => run c s = some ws) calls wss)
    (hadm : Admissible wss.flatten s) :
    Reachable run .always start ⟨applyAll wss.flatten s, []⟩ := by
  have hreads := h.reads calls
  suffices hcommit : ∀ s', Admissible wss.flatten s' →
      Reachable run .always start ⟨s', calls.map fun c => (c, s)⟩ →
      Reachable run .always start ⟨applyAll wss.flatten s', []⟩ from hcommit s hadm hreads
  clear h hreads hadm
  induction hcalls with
  | nil => exact fun s' _ h => h
  | cons hc hcalls ih =>
    intro s' hadm h
    rw [List.flatten_cons, admissible_append] at hadm
    rw [List.flatten_cons, applyAll_append]
    exact ih _ hadm.2 (h.step (.commit [] _ hc hadm.1 trivial))

end ReadCommitted

end RowStore
