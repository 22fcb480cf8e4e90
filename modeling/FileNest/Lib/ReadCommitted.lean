import FileNest.Lib.Reference

/-!
# Transactions under READ COMMITTED

A transaction reads the store once, computes its writes from what it read, stays in
flight while others commit, and then commits its writes to whatever the store has
become — or rolls back.  Updates go by primary key, so a commit that comes late still
finds its rows; what it overwrites there is the business of each program.

## Main definitions

* `Program` — what each call would write, given the store it reads.
* `World`, `Step` — a store with transactions in flight, and one step.
* `Reachable` — runs from given stores, every commit meeting a condition.
* `Reads`, `Commits` — the conditions under which a call may read, and may commit.

## Main results

* `Step.iff_of_commit` — what a step keeps is a matter of its commit.
* `Reachable.invariant` — the induction over a run, packaged.
* `Reachable.good` — **unique keys and good references, however commits interleave.**
-/

namespace RowStore

namespace ReadCommitted

variable {T I O : Type} {Row : T → Type} {C : Type} [Keyed Row I O]
  [DecidableEq T] [DecidableEq I]

variable (Row C) in
/-- What a call writes, given the store it reads; `none` if it fails. -/
abbrev Program := C → Store Row → Option (List (Write Row))

variable (Row C) in
/-- A store and the transactions in flight, each with the store it read. -/
structure World where
  store : Store Row
  inflight : List (C × Store Row) := []

variable (Row C) in
/-- When a call may commit: the store it commits to, the call, the store it read. -/
abbrev Guard := Store Row → C → Store Row → Prop

/-- No condition. -/
def Guard.always : Guard Row C := fun _ _ _ => True

/-- One step of a run. -/
inductive Step (run : Program Row C) (commits : Guard Row C) : World Row C → World Row C → Prop
  | read {w : World Row C} (c : C) :
      Step run commits w { w with inflight := (c, w.store) :: w.inflight }
  | commit (pre post : List (C × Store Row)) {s snapshot : Store Row} {c : C}
      {ws : List (Write Row)} (hrun : run c snapshot = some ws) (hadm : Admissible ws s)
      (hc : commits s c snapshot) :
      Step run commits ⟨s, pre ++ (c, snapshot) :: post⟩ ⟨applyAll ws s, pre ++ post⟩
  | rollback (pre post : List (C × Store Row)) {s snapshot : Store Row} {c : C} :
      Step run commits ⟨s, pre ++ (c, snapshot) :: post⟩ ⟨s, pre ++ post⟩

/-- The worlds a run can reach. -/
inductive Reachable (run : Program Row C) (commits : Guard Row C) (start : Store Row → Prop) :
    World Row C → Prop
  | init {s : Store Row} (h : start s) : Reachable run commits start ⟨s, []⟩
  | step {w w' : World Row C} (h : Reachable run commits start w)
      (hs : Step run commits w w') : Reachable run commits start w'

variable {run : Program Row C} {commits : Guard Row C} {start : Store Row → Prop}

/-- A step that meets a condition meets a weaker one. -/
theorem Step.mono {commits' : Guard Row C} (hsub : ∀ s c snapshot, commits s c snapshot →
    commits' s c snapshot) {w w' : World Row C} (h : Step run commits w w') :
    Step run commits' w w' := by
  cases h with
  | read c => exact .read c
  | commit pre post hrun hadm hc => exact .commit pre post hrun hadm (hsub _ _ _ hc)
  | rollback pre post => exact .rollback pre post

/-- A step that meets a condition is a step. -/
theorem Step.always {w w' : World Row C} (h : Step run commits w w') : Step run .always w w' := by
  cases h with
  | read c => exact .read c
  | commit pre post hrun hadm _ => exact .commit pre post hrun hadm trivial
  | rollback pre post => exact .rollback pre post

/-- What a step keeps is a matter of its commit. -/
theorem Step.iff_of_commit {P : Store Row → Prop} {w w' : World Row C} (h : P w.store)
    (hcommit : ∀ c snapshot ws, (c, snapshot) ∈ w.inflight → run c snapshot = some ws →
      Admissible ws w.store → (P (applyAll ws w.store) ↔ commits w.store c snapshot))
    (hs : Step run .always w w') : P w'.store ↔ Step run commits w w' := by
  constructor
  · intro h'
    cases hs with
    | read c => exact .read c
    | commit pre post hrun hadm _ =>
      exact .commit pre post hrun hadm
        ((hcommit _ _ _ (List.mem_append_right pre List.mem_cons_self) hrun hadm).mp h')
    | rollback pre post => exact .rollback pre post
  · intro hs
    cases hs with
    | read c => exact h
    | commit pre post hrun hadm hc =>
      exact (hcommit _ _ _ (List.mem_append_right pre List.mem_cons_self) hrun hadm).mpr hc
    | rollback pre post => exact h

omit [DecidableEq T] [DecidableEq I] in
theorem mem_of_mem_erase {α : Type} {pre post : List α} {x y : α} (h : x ∈ pre ++ post) :
    x ∈ pre ++ y :: post := by
  rcases List.mem_append.mp h with h | h
  · exact List.mem_append_left _ h
  · exact List.mem_append_right _ (List.mem_cons_of_mem _ h)

/-- **The induction over a run.**  `P` is kept by commits and `Q` relates every store a
transaction read to the current one: it holds when reading and survives later commits. -/
theorem Reachable.invariant {P : Store Row → Prop} {Q : C → Store Row → Store Row → Prop}
    (hstart : ∀ s, start s → P s)
    (hread : ∀ c s, P s → Q c s s)
    (hcommit : ∀ s c snapshot ws, P s → Q c snapshot s → run c snapshot = some ws →
      Admissible ws s → commits s c snapshot → P (applyAll ws s) ∧
        ∀ d snap, Q d snap s → Q d snap (applyAll ws s))
    {w : World Row C} (hw : Reachable run commits start w) :
    P w.store ∧ ∀ x ∈ w.inflight, Q x.1 x.2 w.store := by
  induction hw with
  | init h => exact ⟨hstart _ h, fun x hx => by simp at hx⟩
  | step _ hs ih =>
    cases hs with
    | read c =>
      refine ⟨ih.1, fun x hx => ?_⟩
      rcases List.mem_cons.mp hx with rfl | hx
      · exact hread c _ ih.1
      · exact ih.2 x hx
    | commit pre post hrun hadm hc =>
      have hQ := ih.2 _ (List.mem_append_right _ List.mem_cons_self)
      have hP := hcommit _ _ _ _ ih.1 hQ hrun hadm hc
      exact ⟨hP.1, fun x hx => hP.2 _ _ (ih.2 x (mem_of_mem_erase hx))⟩
    | rollback pre post => exact ⟨ih.1, fun x hx => ih.2 x (mem_of_mem_erase hx)⟩

variable {refs : References T I O}

/-- Unique keys and good references. -/
structure Good (refs : References T I O) (s : Store Row) : Prop where
  uniquePk : s.UniquePk
  referential : Referential refs s

/-- A commit of what a transaction computed from a good store. -/
theorem Good.commit {snapshot s : Store Row} {ws : List (Write Row)} (hs : Good refs s)
    (hsnap : KeepsReferenced refs snapshot s) (hws : Resolved refs ws snapshot)
    (hadm : Admissible ws s) :
    Good refs (applyAll ws s) ∧ KeepsReferenced refs s (applyAll ws s) := by
  have hres : Resolved refs ws s := hws.mono hsnap
  exact ⟨⟨uniquePk_applyAll hs.uniquePk hadm, referential_applyAll hs.referential hres⟩,
    keepsReferenced_applyAll hres⟩

/-- **Unique keys and good references, however commits interleave**: it is enough that
what a transaction computes from a good store is resolved there. -/
theorem Reachable.good (hstart : ∀ s, start s → Good refs s)
    (hrun : ∀ c s ws, Good refs s → run c s = some ws → Resolved refs ws s)
    {w : World Row C} (hw : Reachable run commits start w) :
    Good refs w.store ∧
      ∀ x ∈ w.inflight, Good refs x.2 ∧ KeepsReferenced refs x.2 w.store := by
  refine hw.invariant (P := Good refs) (Q := fun _ snapshot s =>
    Good refs snapshot ∧ KeepsReferenced refs snapshot s) hstart
    (fun c s hs => ⟨hs, .refl s⟩) ?_
  intro s c snapshot ws hs hsnap hws hadm _
  obtain ⟨hgood, hkeeps⟩ := hs.commit hsnap.2 (hrun c snapshot ws hsnap.1 hws) hadm
  exact ⟨hgood, fun d snap hQ => ⟨hQ.1, hQ.2.trans hkeeps⟩⟩

end ReadCommitted

end RowStore
