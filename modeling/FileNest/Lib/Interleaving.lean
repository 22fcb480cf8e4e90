import Mathlib.Data.List.Nodup

/-!
# Interleavings

Tasks that run side by side append to one log, each its own items in order.  Where every
item tells its task, the log gives each task's items back.

## Main definitions

* `Interleaving` — the logs of tasks that run side by side.

## Main results

* `Interleaving.filter_eq` — **the items of a task, as the task appended them.**
-/

variable {κ α : Type*}

/-- The log takes the items of the tasks one at a time, those of a task in order. -/
inductive Interleaving : List (κ × List α) → List α → Prop
  | done {tasks : List (κ × List α)} (h : ∀ t ∈ tasks, t.2 = []) : Interleaving tasks []
  | step (pre post : List (κ × List α)) {k : κ} {x : α} {xs log : List α}
      (h : Interleaving (pre ++ (k, xs) :: post) log) :
      Interleaving (pre ++ (k, x :: xs) :: post) (x :: log)

namespace Interleaving

/-- A task alone. -/
theorem singleton (k : κ) (xs : List α) : Interleaving [(k, xs)] xs := by
  induction xs with
  | nil => exact .done fun t ht => by rw [List.mem_singleton.mp ht]
  | cons x xs ih => exact .step [] [] ih

/-- **The items of a task, as the task appended them.** -/
theorem filter_eq [DecidableEq κ] {key : α → κ} {tasks : List (κ × List α)} {log : List α}
    (h : Interleaving tasks log) (hnodup : (tasks.map Prod.fst).Nodup)
    (hkey : ∀ t ∈ tasks, ∀ x ∈ t.2, key x = t.1) :
    ∀ t ∈ tasks, log.filter (fun x => key x = t.1) = t.2 := by
  induction h with
  | done hempty => exact fun t ht => (hempty t ht).symm
  | step pre post h ih =>
    rename_i k x xs log
    have hx : key x = k := hkey (k, x :: xs) (by simp) x List.mem_cons_self
    have ih := ih (by simpa using hnodup) fun t ht y hy => by
      rcases List.mem_append.mp ht with ht | ht
      · exact hkey t (List.mem_append_left _ ht) y hy
      · rcases List.mem_cons.mp ht with rfl | ht
        · exact hkey (k, x :: xs) (by simp) y (List.mem_cons_of_mem _ hy)
        · exact hkey t (List.mem_append_right _ (List.mem_cons_of_mem _ ht)) y hy
    -- the other tasks have other keys
    have hother : ∀ t ∈ pre ++ post, t.1 ≠ k := by
      intro t ht hk
      rw [List.map_append, List.map_cons, List.nodup_middle, List.nodup_cons, ← List.map_append]
        at hnodup
      exact hnodup.1 (List.mem_map.mpr ⟨t, ht, hk⟩)
    intro t ht
    by_cases hself : t = (k, x :: xs)
    · subst hself
      rw [List.filter_cons_of_pos (by simpa using hx), ih (k, xs) (by simp)]
    · have ht' : t ∈ pre ++ post := by
        simp only [List.mem_append, List.mem_cons] at ht ⊢
        tauto
      rw [List.filter_cons_of_neg (by simpa [hx] using (hother t ht').symm), ih t ?_]
      simp only [List.mem_append, List.mem_cons] at ht' ⊢
      tauto

end Interleaving
