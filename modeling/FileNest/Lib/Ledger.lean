import FileNest.Lib.ReadCommitted

/-!
# Runs with a ledger

A run under READ COMMITTED beside a ledger of what has committed, in order, each call with
the store it read.  What the ledger says of the store, and of the transactions in flight,
is an invariant.

## Main definitions

* `LogStep`, `Logged` — one step, and the runs.

## Main results

* `Logged.reachable` — a run with a ledger is a run.
* `Logged.invariant` — the induction over a run, packaged.
* `LogStep.iff_of_commit` — **what a step keeps is a matter of its commit.**
-/

namespace RowStore.ReadCommitted

variable {T I O : Type} {Row : T → Type} {C : Type} [Keyed Row I O]
  [DecidableEq T] [DecidableEq I]

variable (Row C) in
/-- What has committed, each call with the store it read. -/
abbrev Ledger := List (C × Store Row)

/-- One step of a run. -/
inductive LogStep (run : Program Row C) (commits : Guard Row C) :
    Ledger Row C → World Row C → Ledger Row C → World Row C → Prop
  | read {log : Ledger Row C} {w : World Row C} (c : C) :
      LogStep run commits log w log { w with inflight := (c, w.store) :: w.inflight }
  | commit {log : Ledger Row C} (pre post : Ledger Row C) {s snapshot : Store Row} {c : C}
      {ws : List (Write Row)} (hrun : run c snapshot = some ws) (hadm : Admissible ws s)
      (hc : commits s c snapshot) :
      LogStep run commits log ⟨s, pre ++ (c, snapshot) :: post⟩
        (log ++ [(c, snapshot)]) ⟨applyAll ws s, pre ++ post⟩
  | rollback {log : Ledger Row C} (pre post : Ledger Row C) {s snapshot : Store Row} {c : C} :
      LogStep run commits log ⟨s, pre ++ (c, snapshot) :: post⟩ log ⟨s, pre ++ post⟩

/-- The runs from given stores. -/
inductive Logged (run : Program Row C) (commits : Guard Row C) (start : Store Row → Prop) :
    Ledger Row C → World Row C → Prop
  | init {s : Store Row} (h : start s) : Logged run commits start [] ⟨s, []⟩
  | step {log log' : Ledger Row C} {w w' : World Row C} (h : Logged run commits start log w)
      (hs : LogStep run commits log w log' w') : Logged run commits start log' w'

variable {run : Program Row C} {commits : Guard Row C} {start : Store Row → Prop}
  {log log' : Ledger Row C} {w w' : World Row C}

theorem LogStep.always (h : LogStep run commits log w log' w') :
    LogStep run .always log w log' w' := by
  cases h with
  | read c => exact .read c
  | commit pre post hrun hadm _ => exact .commit pre post hrun hadm trivial
  | rollback pre post => exact .rollback pre post

/-- The step without its ledger. -/
theorem LogStep.step (h : LogStep run commits log w log' w') : Step run commits w w' := by
  cases h with
  | read c => exact .read c
  | commit pre post hrun hadm hc => exact .commit pre post hrun hadm hc
  | rollback pre post => exact .rollback pre post

/-- **What a step keeps is a matter of its commit.** -/
theorem LogStep.iff_of_commit {P : Ledger Row C → Store Row → Prop} (h : P log w.store)
    (hcommit : ∀ c snapshot ws, (c, snapshot) ∈ w.inflight → run c snapshot = some ws →
      Admissible ws w.store →
        (P (log ++ [(c, snapshot)]) (applyAll ws w.store) ↔ commits w.store c snapshot))
    (hs : LogStep run .always log w log' w') :
    P log' w'.store ↔ LogStep run commits log w log' w' := by
  constructor
  · intro h'
    cases hs with
    | read c => exact .read c
    | commit pre post hrun hadm _ =>
      exact .commit pre post hrun hadm
        ((hcommit _ _ _ (List.mem_append_right pre List.mem_cons_self) hrun hadm).mp h')
    | rollback pre post => exact .rollback pre post
  · intro hs
    cases hs with
    | read c => exact h
    | commit pre post hrun hadm hc =>
      exact (hcommit _ _ _ (List.mem_append_right pre List.mem_cons_self) hrun hadm).mpr hc
    | rollback pre post => exact h

namespace Logged

theorem reachable (h : Logged run commits start log w) : Reachable run commits start w := by
  induction h with
  | init h => exact .init h
  | step _ hs ih => exact ih.step hs.step

/-- **The induction over a run.**  `P` is kept by commits and `Q` relates what a transaction
read to the ledger and the store as they are now. -/
theorem invariant {P : Ledger Row C → Store Row → Prop}
    {Q : Ledger Row C → C → Store Row → Store Row → Prop}
    (hstart : ∀ s, start s → P [] s)
    (hread : ∀ log c s, P log s → Q log c s s)
    (hcommit : ∀ log s c snapshot ws, P log s → Q log c snapshot s → run c snapshot = some ws →
      Admissible ws s → commits s c snapshot → P (log ++ [(c, snapshot)]) (applyAll ws s) ∧
        ∀ d snap, Q log d snap s → Q (log ++ [(c, snapshot)]) d snap (applyAll ws s))
    (h : Logged run commits start log w) :
    P log w.store ∧ ∀ x ∈ w.inflight, Q log x.1 x.2 w.store := by
  induction h with
  | init h => exact ⟨hstart _ h, List.forall_mem_nil _⟩
  | step _ hs ih =>
    cases hs with
    | read c => exact ⟨ih.1, List.forall_mem_cons.mpr ⟨hread _ c _ ih.1, ih.2⟩⟩
    | commit pre post hrun hadm hc =>
      have hQ := ih.2 _ (List.mem_append_right _ List.mem_cons_self)
      have hP := hcommit _ _ _ _ _ ih.1 hQ hrun hadm hc
      exact ⟨hP.1, fun x hx => hP.2 _ _ (ih.2 x (mem_of_mem_erase hx))⟩
    | rollback pre post => exact ⟨ih.1, fun x hx => ih.2 x (mem_of_mem_erase hx)⟩

end Logged

end RowStore.ReadCommitted
