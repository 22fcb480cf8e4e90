import FileNest.Lib.ReadCommitted

/-!
# Runs by a clock

A run under READ COMMITTED beside a clock that never goes back, with a ledger of what has
committed.  When a call may commit is a matter of the time; what the ledger says of the
store is an invariant.

## Main definitions

* `Timed` — runs with a ledger and a clock.

## Main results

* `Timed.reachable` — the run without them.
* `Timed.invariant` — the induction over a run, packaged.
-/

namespace RowStore.ReadCommitted

variable {T I O : Type} {Row : T → Type} {C : Type} [Keyed Row I O]
  [DecidableEq T] [DecidableEq I]

/-- The runs from given stores: what has committed, with the store it read, the time, and the
world. -/
inductive Timed (run : Program Row C) (ready : ℕ → C → Prop) (start : Store Row → Prop) :
    List (C × Store Row) → ℕ → World Row C → Prop
  | init {s : Store Row} (h : start s) (now : ℕ) : Timed run ready start [] now ⟨s, []⟩
  | advance {log : List (C × Store Row)} {now now' : ℕ} {w : World Row C}
      (h : Timed run ready start log now w) (hle : now ≤ now') : Timed run ready start log now' w
  | read {log : List (C × Store Row)} {now : ℕ} {w : World Row C}
      (h : Timed run ready start log now w) (c : C) :
      Timed run ready start log now { w with inflight := (c, w.store) :: w.inflight }
  | commit {log : List (C × Store Row)} {now : ℕ} {s snapshot : Store Row} {c : C}
      {ws : List (Write Row)} (pre post : List (C × Store Row))
      (h : Timed run ready start log now ⟨s, pre ++ (c, snapshot) :: post⟩)
      (hrun : run c snapshot = some ws) (hadm : Admissible ws s) (hready : ready now c) :
      Timed run ready start (log ++ [(c, snapshot)]) now ⟨applyAll ws s, pre ++ post⟩
  | rollback {log : List (C × Store Row)} {now : ℕ} {s snapshot : Store Row} {c : C}
      (pre post : List (C × Store Row))
      (h : Timed run ready start log now ⟨s, pre ++ (c, snapshot) :: post⟩) :
      Timed run ready start log now ⟨s, pre ++ post⟩

namespace Timed

variable {run : Program Row C} {ready : ℕ → C → Prop} {start : Store Row → Prop}
  {log : List (C × Store Row)} {now : ℕ} {w : World Row C}

/-- The run without ledger and clock. -/
theorem reachable (h : Timed run ready start log now w) : Reachable run .always start w := by
  induction h with
  | init h now => exact .init h
  | advance _ _ ih => exact ih
  | read _ c ih => exact ih.step (.read c)
  | commit pre post _ hrun hadm _ ih => exact ih.step (.commit pre post hrun hadm trivial)
  | rollback pre post _ ih => exact ih.step (.rollback pre post)

/-- **The induction over a run.** -/
theorem invariant {P : List (C × Store Row) → ℕ → Store Row → Prop}
    (hstart : ∀ s now, start s → P [] now s)
    (hadvance : ∀ log now now' s, now ≤ now' → P log now s → P log now' s)
    (hcommit : ∀ log now (w : World Row C) c snapshot ws, Reachable run .always start w →
      (c, snapshot) ∈ w.inflight → P log now w.store → run c snapshot = some ws → ready now c →
      P (log ++ [(c, snapshot)]) now (applyAll ws w.store))
    (h : Timed run ready start log now w) : P log now w.store := by
  induction h with
  | init h now => exact hstart _ now h
  | advance _ hle ih => exact hadvance _ _ _ _ hle ih
  | read _ c ih => exact ih
  | commit pre post h hrun hadm hready ih =>
    exact hcommit _ _ _ _ _ _ h.reachable (List.mem_append_right _ List.mem_cons_self) ih hrun
      hready
  | rollback pre post _ ih => exact ih

end Timed

end RowStore.ReadCommitted
