import Mathlib.Data.List.Nodup

/-!
# A queue that is served in batches

Round after round the first entries of a queue are served together.  If one of them is bad the
round comes to nothing, and the next one finds the same entries in front.

## Main definitions

* `round`, `rounds` — one round, and several.

## Main results

* `rounds_blocked` — a bad entry keeps its batch, and all behind it, in the queue.
* `leaves_iff` — **an entry leaves exactly if its batch and those before have no bad entry.**
-/

namespace Batches

variable {α : Type} (bad : α → Bool) (n : ℕ)

/-- One round: the first `n` entries leave together, unless one of them is bad. -/
def round (queue : List α) : List α :=
  if (queue.take n).any bad then queue else queue.drop n

/-- Several rounds. -/
def rounds : ℕ → List α → List α
  | 0, queue => queue
  | k + 1, queue => rounds k (round bad n queue)

variable {bad n} {queue : List α}

theorem rounds_succ (k : ℕ) (queue : List α) :
    rounds bad n (k + 1) queue = round bad n (rounds bad n k queue) := by
  induction k generalizing queue with
  | zero => rfl
  | succ k ih => exact ih (round bad n queue)

/-- Rounds go on while no entry is bad. -/
theorem rounds_eq_drop {k : ℕ} (h : ∀ a ∈ queue.take (n * k), bad a = false) :
    rounds bad n k queue = queue.drop (n * k) := by
  induction k with
  | zero => rfl
  | succ k ih =>
    rw [Nat.mul_succ] at h ⊢
    have hbefore : ∀ a ∈ queue.take (n * k), bad a = false := fun a ha =>
      h a ((List.take_sublist_take_left (Nat.le_add_right _ _)).subset ha)
    have hnext : ((queue.drop (n * k)).take n).any bad = false := by
      refine List.any_eq_false.mpr fun a ha => ?_
      rw [h a]
      · exact Bool.false_ne_true
      · rw [List.take_add]
        exact List.mem_append_right _ ha
    rw [rounds_succ, ih hbefore, round, if_neg (by rw [hnext]; exact Bool.false_ne_true),
      List.drop_drop]

/-- A bad entry at a place keeps the rounds from passing it. -/
theorem rounds_blocked {s : ℕ} (hs : s < queue.length) (hbad : bad queue[s] = true) (k : ℕ) :
    ∃ i, n * i ≤ s ∧ rounds bad n k queue = queue.drop (n * i) := by
  induction k with
  | zero => exact ⟨0, Nat.zero_le s, rfl⟩
  | succ k ih =>
    obtain ⟨i, hi, hrounds⟩ := ih
    rw [rounds_succ, hrounds, round]
    split
    · exact ⟨i, hi, rfl⟩
    · rename_i hnone
      refine ⟨i + 1, ?_, by rw [List.drop_drop, Nat.mul_succ]⟩
      -- the bad entry is not among the next `n`
      by_contra hlt
      rw [Nat.mul_succ] at hlt
      refine hnone (List.any_eq_true.mpr ⟨queue[s], ?_, hbad⟩)
      have hplace : s - n * i < ((queue.drop (n * i)).take n).length := by
        rw [List.length_take, List.length_drop]
        omega
      have hentry : ((queue.drop (n * i)).take n)[s - n * i] = queue[s] := by
        rw [List.getElem_take, List.getElem_drop]
        congr 1
        omega
      exact hentry ▸ List.getElem_mem hplace

theorem mem_drop_of_le {i p : ℕ} (hp : p < queue.length) (hi : i ≤ p) :
    queue[p] ∈ queue.drop i := by
  have hplace : p - i < (queue.drop i).length := by
    rw [List.length_drop]
    omega
  have hentry : (queue.drop i)[p - i] = queue[p] := by
    rw [List.getElem_drop]
    congr 1
    omega
  exact hentry ▸ List.getElem_mem hplace

theorem notMem_drop_of_lt (hnodup : queue.Nodup) {i p : ℕ} (hp : p < queue.length) (hi : p < i) :
    queue[p] ∉ queue.drop i := by
  intro hmem
  obtain ⟨j, hj, hentry⟩ := List.mem_iff_getElem.mp hmem
  rw [List.getElem_drop] at hentry
  have hsame := (List.Nodup.getElem_inj_iff hnodup).mp hentry
  omega

/-- **An entry leaves exactly if its batch and those before have no bad entry.** -/
theorem leaves_iff (hn : 0 < n) (hnodup : queue.Nodup) {p : ℕ} (hp : p < queue.length) :
    (∃ k, queue[p] ∉ rounds bad n k queue)
      ↔ ∀ a ∈ queue.take (n * (p / n + 1)), bad a = false := by
  have hbatch : p < n * (p / n + 1) := Nat.lt_mul_div_succ p hn
  constructor
  · rintro ⟨k, hk⟩ a ha
    by_contra hnot
    have hbad : bad a = true := (Bool.not_eq_false _).mp hnot
    obtain ⟨s, hs, hentry⟩ := List.mem_iff_getElem.mp ha
    rw [List.length_take] at hs
    rw [List.getElem_take] at hentry
    have hlt : s < n * (p / n + 1) := by omega
    have hs' : s < queue.length := by omega
    obtain ⟨i, hi, hrounds⟩ := rounds_blocked (n := n) hs' (hentry ▸ hbad) k
    rw [hrounds] at hk
    refine hk (mem_drop_of_le hp ?_)
    -- the bad entry is at most in the batch of `p`
    have hle : i ≤ p / n := by
      have hmul : n * i < n * (p / n + 1) := Nat.lt_of_le_of_lt hi hlt
      exact Nat.lt_succ_iff.mp (Nat.lt_of_mul_lt_mul_left hmul)
    exact Nat.le_trans (Nat.mul_le_mul_left n hle) (Nat.mul_div_le p n)
  · intro h
    exact ⟨p / n + 1, rounds_eq_drop h ▸ notMem_drop_of_lt hnodup hp hbatch⟩

end Batches
