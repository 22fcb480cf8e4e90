import FileNest.Lib.Sql
import Mathlib.Algebra.BigOperators.Group.List.Basic
import Mathlib.Algebra.Order.Monoid.Unbundled.Basic
import Mathlib.Data.List.Dedup

/-!
# Sums over grouped rows

`SUM` over the rows of a table, in any commutative monoid.  Rows that are told apart by a key can
be summed one key at a time; and of groups that are sorted by their key, the running total at one
of them is the sum of all rows whose key is not above it.

## Main definitions

* `sumBy` — the sum of a weight over some rows.
* `runningTotals` — each value of a series with all that come before it added.

## Main results

* `sumBy_filter_add` — the rows that pass a filter, and those that do not.
* `sum_sumBy_key` — **summing one key at a time.**
* `sum_sumBy_groupBy` — the sums of the groups.
* `mem_runningTotals_iff` — **a running total is a sum over an initial part.**
* `pairwise_runningTotals_iff` — when running totals do not decrease.
-/

namespace Sql

variable {α κ M : Type}

/-- `SUM(w)` over some rows; none at all sum up to zero. -/
def sumBy [AddCommMonoid M] (w : α → M) (rows : List α) : M := (rows.map w).sum

section Sums

variable [AddCommMonoid M] {w : α → M} {rows : List α}

@[simp] theorem sumBy_nil : sumBy w [] = 0 := rfl

@[simp] theorem sumBy_cons (r : α) : sumBy w (r :: rows) = w r + sumBy w rows := by
  rw [sumBy, sumBy, List.map_cons, List.sum_cons]

theorem sumBy_perm {rows' : List α} (h : rows.Perm rows') : sumBy w rows = sumBy w rows' :=
  (h.map w).sum_eq

/-- `COUNT` is the sum of ones. -/
theorem length_eq_sumBy (rows : List α) : rows.length = sumBy (fun _ => 1) rows := by
  induction rows with
  | nil => rfl
  | cons r rows ih => rw [List.length_cons, sumBy_cons, ih, add_comm]

/-- **The rows that pass a filter, and those that do not.** -/
theorem sumBy_filter_add (p : α → Bool) :
    sumBy w (rows.filter p) + sumBy w (rows.filter fun r => !p r) = sumBy w rows := by
  induction rows with
  | nil => exact add_zero 0
  | cons r rows ih =>
    rw [List.filter_cons, List.filter_cons, sumBy_cons, ← ih]
    cases p r with
    | false => exact add_left_comm _ _ _
    | true => exact add_assoc _ _ _

/-- The rows that pass the one filter or the other, if none passes both. -/
theorem sumBy_filter_or {p q : α → Bool} (h : ∀ r ∈ rows, p r = true → q r = false) :
    sumBy w (rows.filter fun r => p r || q r)
      = sumBy w (rows.filter p) + sumBy w (rows.filter q) := by
  rw [← sumBy_filter_add p, List.filter_filter, List.filter_filter]
  refine congr_arg₂ (sumBy w · + sumBy w ·) (List.filter_congr fun r _ => ?_)
    (List.filter_congr fun r hr => ?_)
  · cases p r <;> rfl
  · cases hp : p r with
    | false => exact Bool.false_or _
    | true => exact (h r hr hp).symm

variable [DecidableEq κ]

/-- **Summing one key at a time.** -/
theorem sum_sumBy_key {keys : List κ} (h : keys.Nodup) (key : α → κ) :
    (keys.map fun k => sumBy w (rows.filter fun r => key r == k)).sum
      = sumBy w (rows.filter fun r => decide (key r ∈ keys)) := by
  induction keys with
  | nil =>
    have hnone : rows.filter (fun r => decide (key r ∈ ([] : List κ))) = [] :=
      List.filter_eq_nil_iff.mpr fun r _ => by simp
    rw [hnone]
    rfl
  | cons k keys ih =>
    obtain ⟨hk, hkeys⟩ := List.nodup_cons.mp h
    have hsplit : rows.filter (fun r => decide (key r ∈ k :: keys))
        = rows.filter fun r => key r == k || decide (key r ∈ keys) :=
      List.filter_congr fun r _ => by
        rw [Bool.eq_iff_iff, Bool.or_eq_true, beq_iff_eq, decide_eq_true_iff, decide_eq_true_iff,
          List.mem_cons]
    rw [List.map_cons, List.sum_cons, ih hkeys, hsplit]
    refine (sumBy_filter_or fun r _ hr => ?_).symm
    rw [beq_iff_eq.mp hr]
    exact decide_eq_false hk

theorem nodup_groupBy (key : α → κ) (rows : List α) : ((groupBy key rows).map Prod.fst).Nodup := by
  rw [groupBy, List.map_map]
  exact (List.map_id _).symm ▸ List.nodup_reverse.mpr (List.nodup_dedup _)

theorem mem_groupBy_iff {key : α → κ} {g : κ × List α} :
    g ∈ groupBy key rows ↔ (∃ r ∈ rows, key r = g.1) ∧ g.2 = rows.filter fun r => key r == g.1 := by
  rw [groupBy, List.mem_map]
  simp only [List.mem_reverse, List.mem_dedup, List.mem_map]
  constructor
  · rintro ⟨k, hk, rfl⟩
    exact ⟨hk, rfl⟩
  · rintro ⟨hk, hg⟩
    exact ⟨g.1, hk, Prod.ext rfl hg.symm⟩

/-- Distinct keys come in strictly ascending order. -/
theorem pairwise_orderBy_groupBy {κ : Type} [LinearOrder κ] (key : α → κ) (rows : List α) :
    (orderBy Prod.fst (groupBy key rows)).Pairwise fun g g' => g.1 < g'.1 := by
  have hne : (orderBy Prod.fst (groupBy key rows)).Pairwise fun g g' => g.1 ≠ g'.1 := by
    have hnodup := ((perm_orderBy Prod.fst (groupBy key rows)).map Prod.fst).nodup_iff.mpr
      (nodup_groupBy key rows)
    rwa [List.Nodup, List.pairwise_map] at hnodup
  exact ((sorted_orderBy _ _).and hne).imp fun hg => lt_of_le_of_ne hg.1 hg.2

/-- The sums of the groups whose key passes a filter are the sum of the rows whose key does. -/
theorem sum_sumBy_groupBy (key : α → κ) (p : κ → Bool) :
    (((groupBy key rows).filter fun g => p g.1).map fun g => sumBy w g.2).sum
      = sumBy w (rows.filter fun r => p (key r)) := by
  have hnodup : (((rows.map key).reverse.dedup.reverse).filter p).Nodup :=
    (List.nodup_reverse.mpr (List.nodup_dedup _)).filter p
  rw [groupBy, List.filter_map, List.map_map]
  refine (sum_sumBy_key hnodup key).trans (congrArg (sumBy w) (List.filter_congr fun r hr => ?_))
  rw [Bool.eq_iff_iff, decide_eq_true_iff, List.mem_filter, List.mem_reverse, List.mem_dedup,
    List.mem_reverse]
  exact and_iff_right (List.mem_map_of_mem hr)

/-- The sums of all groups. -/
theorem sum_sumBy_groups (key : α → κ) :
    ((groupBy key rows).map fun g => sumBy w g.2).sum = sumBy w rows := by
  have hsum : (((groupBy key rows).filter fun _ => true).map fun g => sumBy w g.2).sum
      = sumBy w (rows.filter fun _ => true) := sum_sumBy_groupBy key fun _ => true
  rwa [List.filter_true, List.filter_true] at hsum

end Sums

/-! ### Running totals -/

/-- Each value of a series with all that come before it added. -/
def runningTotals [Add M] (total : M) : List (κ × M) → List (κ × M)
  | [] => []
  | (k, n) :: rows => (k, total + n) :: runningTotals (total + n) rows

section RunningTotals

variable [AddCommMonoid M] {total : M} {rows : List (κ × M)}

/-- The last of the totals is that of the series. -/
theorem getLast?_runningTotals (h : rows ≠ []) :
    ((runningTotals total rows).getLast?).map Prod.snd = some (total + sumBy Prod.snd rows) := by
  induction rows generalizing total with
  | nil => exact absurd rfl h
  | cons row rows ih =>
    cases rows with
    | nil =>
      show some (total + row.2) = _
      rw [sumBy_cons, sumBy_nil, add_zero]
    | cons row' rows =>
      show ((runningTotals (total + row.2) (row' :: rows)).getLast?).map Prod.snd = _
      rw [ih (List.cons_ne_nil _ _), sumBy_cons row, add_assoc]

/-- **A running total is a sum over an initial part** of a series sorted by its keys. -/
theorem mem_runningTotals_iff [LinearOrder κ] (h : rows.Pairwise fun a b => a.1 < b.1) {k : κ}
    {n : M} : (k, n) ∈ runningTotals total rows ↔ k ∈ rows.map Prod.fst
      ∧ n = total + sumBy Prod.snd (rows.filter fun row => decide (row.1 ≤ k)) := by
  induction rows generalizing total with
  | nil =>
    refine iff_of_false List.not_mem_nil fun hk => ?_
    exact List.not_mem_nil hk.1
  | cons row rows ih =>
    obtain ⟨hrow, hrows⟩ := List.pairwise_cons.mp h
    have hcons : runningTotals total (row :: rows)
        = (row.1, total + row.2) :: runningTotals (total + row.2) rows := rfl
    rw [hcons, List.mem_cons, ih hrows, List.map_cons, List.mem_cons, Prod.mk.injEq]
    by_cases hk : k = row.1
    · -- what comes later has a key above
      have hlater : (row :: rows).filter (fun r => decide (r.1 ≤ k)) = [row] := by
        rw [hk, List.filter_cons, if_pos (decide_eq_true le_rfl), List.filter_eq_nil_iff.mpr]
        exact fun r hr => by simpa using hrow r hr
      have hnot : k ∉ rows.map Prod.fst := by
        intro hmem
        obtain ⟨r, hr, hrk⟩ := List.mem_map.mp hmem
        exact absurd (hrk.trans hk) (hrow r hr).ne'
      rw [hlater, sumBy_cons, sumBy_nil, add_zero, or_iff_left fun hmem => hnot hmem.1]
      exact and_congr_left fun _ => (or_iff_left hnot).symm
    · have hpast : ∀ r ∈ rows, r.1 = k → decide (row.1 ≤ k) = true :=
        fun r hr hrk => decide_eq_true (hrk ▸ (hrow r hr).le)
      rw [or_iff_right fun hfirst => hk hfirst.1, or_iff_right hk]
      refine and_congr_right fun hmem => ?_
      obtain ⟨r, hr, hrk⟩ := List.mem_map.mp hmem
      rw [List.filter_cons, if_pos (hpast r hr hrk), sumBy_cons, add_assoc]

/-- Running totals do not fall, nor below where they start, exactly if no value is negative. -/
theorem forall_nonneg_iff [PartialOrder M] [AddLeftMono M] [AddLeftReflectLE M] :
    (∀ row ∈ rows, 0 ≤ row.2) ↔ (∀ row ∈ runningTotals total rows, total ≤ row.2)
      ∧ (runningTotals total rows).Pairwise fun a b => a.2 ≤ b.2 := by
  induction rows generalizing total with
  | nil => exact iff_of_true (List.forall_mem_nil _) ⟨List.forall_mem_nil _, .nil⟩
  | cons row rows ih =>
    have hcons : runningTotals total (row :: rows)
        = (row.1, total + row.2) :: runningTotals (total + row.2) rows := rfl
    rw [hcons, List.forall_mem_cons, List.forall_mem_cons, List.pairwise_cons,
      @ih (total + row.2), le_add_iff_nonneg_right]
    constructor
    · rintro ⟨hrow, hstart, hrows⟩
      refine ⟨⟨hrow, fun b hb => ?_⟩, hstart, hrows⟩
      exact (le_add_of_nonneg_right hrow).trans (hstart b hb)
    · rintro ⟨⟨hrow, -⟩, hstart, hrows⟩
      exact ⟨hrow, hstart, hrows⟩

/-- **Running totals do not decrease** exactly if no value but the first is negative. -/
theorem pairwise_runningTotals_iff [PartialOrder M] [AddLeftMono M] [AddLeftReflectLE M] :
    ((runningTotals total rows).Pairwise fun a b => a.2 ≤ b.2) ↔ ∀ row ∈ rows.tail, 0 ≤ row.2 := by
  cases rows with
  | nil => exact iff_of_true .nil (List.forall_mem_nil _)
  | cons row rows =>
    have hrest : (∀ row ∈ rows, 0 ≤ row.2)
        ↔ (∀ row' ∈ runningTotals (total + row.2) rows, total + row.2 ≤ row'.2) ∧ _ :=
      forall_nonneg_iff
    rw [List.tail_cons, hrest]
    exact List.pairwise_cons

end RunningTotals

end Sql
