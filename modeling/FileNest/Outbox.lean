import FileNest.Reachable
import Mathlib.Data.List.Pairwise

/-!
# The transactional outbox

A business transaction inserts its events with everything else it writes.  Outbox
workers, any number of them, select unpublished rows that no other worker has locked,
publish them one by one and mark the whole batch in the transaction that holds the
locks.  A publish may raise, with or without the broker having the message, and a worker
may die anywhere; its locks go with its transaction.

## Main definitions

* `Transaction`, `Cycle`, `World` — transactions, worker cycles, and everything together.
* `Step`, `Reached` — one step, and the worlds that can be reached.
* `Invariant` — what holds in all of them.

## Main results

* `Invariant.step` — every step keeps the invariant.
* `outbox_at_least_once` — **no committed event is lost, and none is marked unsent.**
* `Operation.enqueues` — the operations of the API are business transactions.
-/

namespace FileNest

open RowStore

/-- What goes over the wire for an outbox row. -/
structure Message where
  subject : String
  payload : Json
  deriving DecidableEq

/-- The message of a row. -/
def OutboxMessage.message (row : OutboxMessage) : Message := ⟨row.subject, row.payload⟩

/-- `msg.published_at = now`. -/
def OutboxMessage.markPublished (now : ℕ) : Patch Table.Row .outboxMessages where
  toFun := fun (row : OutboxMessage) => ({ row with publishedAt := some now } : OutboxMessage)
  pk_toFun := fun _ => rfl
  owner_toFun := fun _ => rfl

namespace Outbox

/-! ### The world -/

/-- The outbox rows a transaction inserts. -/
def enqueued : List DbWrite → List OutboxMessage
  | [] => []
  | .insert .outboxMessages (row : OutboxMessage) :: ws => row :: enqueued ws
  | _ :: ws => enqueued ws

/-- The state of a business transaction. -/
inductive Status where
  | live | committed | rolledBack
  deriving DecidableEq

/-- A business transaction: what it writes, and how it stands. -/
structure Transaction where
  writes : List DbWrite
  status : Status

/-- The ids of the events of a transaction. -/
def Transaction.ids (tx : Transaction) : List String := (enqueued tx.writes).map OutboxMessage.id

/-- A worker between its `SELECT` and its `COMMIT`: the rows it published and those it has
yet to publish, all of them locked. -/
structure Cycle where
  now : ℕ
  published : List OutboxMessage
  remaining : List OutboxMessage

/-- The rows a cycle holds locks on. -/
def Cycle.locked (c : Cycle) : List OutboxMessage := c.published ++ c.remaining

/-- What the cycle commits. -/
def Cycle.writes (c : Cycle) : List DbWrite :=
  c.published.map fun m => .update .outboxMessages m.id (OutboxMessage.markPublished c.now)

/-- The committed database, all business transactions so far, the cycles in flight, and the
messages the broker has accepted, each with the id of its row. -/
structure World where
  db : Database
  transactions : List Transaction
  cycles : List Cycle
  broker : List (String × Message)

/-- The outbox table. -/
def World.table (w : World) : List OutboxMessage := w.db .outboxMessages

/-- The ids drawn so far for events. -/
def World.drawn (w : World) : List String := w.transactions.flatMap Transaction.ids

/-- Some live cycle has the row locked. -/
def World.isLocked (w : World) (row : OutboxMessage) : Bool :=
  w.cycles.any fun c => c.locked.any fun m => m.id == row.id

/-- `published_at IS NULL … FOR UPDATE SKIP LOCKED`. -/
def World.selectable (w : World) : List OutboxMessage :=
  w.table.filter fun row => row.publishedAt.isNone && !w.isLocked row

/-- The batch of a cycle that starts now. -/
def World.batch (w : World) (batchSize : ℕ) : List OutboxMessage :=
  (Sql.orderBy OutboxMessage.createdAt w.selectable).take batchSize

/-- One step. -/
inductive Step : World → World → Prop
  /-- A business transaction writes; the ids of its events are new. -/
  | begin {w : World} (writes : List DbWrite) (henq : ∀ x ∈ writes, Enqueues x)
      (hfresh : (Transaction.ids ⟨writes, .live⟩ ++ w.drawn).Nodup) :
      Step w { w with transactions := ⟨writes, .live⟩ :: w.transactions }
  | commit {db : Database} (pre post : List Transaction) {writes : List DbWrite}
      {cycles : List Cycle} {broker : List (String × Message)} (hadm : Admissible writes db) :
      Step ⟨db, pre ++ ⟨writes, .live⟩ :: post, cycles, broker⟩
        ⟨applyAll writes db, pre ++ ⟨writes, .committed⟩ :: post, cycles, broker⟩
  | rollback {db : Database} (pre post : List Transaction) {writes : List DbWrite}
      {cycles : List Cycle} {broker : List (String × Message)} :
      Step ⟨db, pre ++ ⟨writes, .live⟩ :: post, cycles, broker⟩
        ⟨db, pre ++ ⟨writes, .rolledBack⟩ :: post, cycles, broker⟩
  /-- A worker selects a batch. -/
  | select {w : World} (now batchSize : ℕ) :
      Step w { w with cycles := ⟨now, [], w.batch batchSize⟩ :: w.cycles }
  /-- The broker accepts the next message of a batch. -/
  | publish {db : Database} {transactions : List Transaction} (pre post : List Cycle)
      {now : ℕ} {published remaining : List OutboxMessage} {m : OutboxMessage}
      {broker : List (String × Message)} :
      Step ⟨db, transactions, pre ++ ⟨now, published, m :: remaining⟩ :: post, broker⟩
        ⟨db, transactions, pre ++ ⟨now, published ++ [m], remaining⟩ :: post,
          (m.id, m.message) :: broker⟩
  /-- The publish raises, whether or not the broker took the message: rollback. -/
  | publishRaises {db : Database} {transactions : List Transaction} (pre post : List Cycle)
      {now : ℕ} {published remaining : List OutboxMessage} {m : OutboxMessage}
      {broker : List (String × Message)} (taken : Bool) :
      Step ⟨db, transactions, pre ++ ⟨now, published, m :: remaining⟩ :: post, broker⟩
        ⟨db, transactions, pre ++ post, if taken then (m.id, m.message) :: broker else broker⟩
  /-- The batch is marked. -/
  | commitCycle {db : Database} {transactions : List Transaction} (pre post : List Cycle)
      {now : ℕ} {published : List OutboxMessage} {broker : List (String × Message)} :
      Step ⟨db, transactions, pre ++ ⟨now, published, []⟩ :: post, broker⟩
        ⟨applyAll (Cycle.writes ⟨now, published, []⟩) db, transactions, pre ++ post, broker⟩
  /-- A worker dies, or its commit fails. -/
  | crash {db : Database} {transactions : List Transaction} (pre post : List Cycle) {c : Cycle}
      {broker : List (String × Message)} :
      Step ⟨db, transactions, pre ++ c :: post, broker⟩ ⟨db, transactions, pre ++ post, broker⟩

/-- Nothing has happened yet. -/
def World.init : World := ⟨Database.empty, [], [], []⟩

/-- The worlds that can be reached. -/
inductive Reached : World → Prop
  | init : Reached World.init
  | step {w w' : World} (h : Reached w) (hs : Step w w') : Reached w'

/-! ### What the writes do to the table -/

/-- A business transaction appends its events. -/
theorem applyAll_enqueued {writes : List DbWrite} (henq : ∀ x ∈ writes, Enqueues x)
    (db : Database) :
    applyAll writes db .outboxMessages = db .outboxMessages ++ enqueued writes := by
  induction writes generalizing db with
  | nil => simp [enqueued]
  | cons x writes ih =>
    rw [applyAll_cons, ih fun y hy => henq y (List.mem_cons_of_mem _ hy)]
    have hother : x.table ≠ .outboxMessages →
        x.apply db .outboxMessages = db .outboxMessages := fun ht => apply_of_table_ne ht db
    have hx := henq x List.mem_cons_self
    cases x with
    | insert t row =>
      cases t with
      -- only the insert of an event counts
      | outboxMessages => simp [enqueued]
      | _ => rw [hother (by simp)]; rfl
    | update t i f => simp [enqueued, hother hx]
    | delete t p => simp [enqueued, hother hx]

/-- The events of a transaction are the outbox rows it inserts. -/
theorem mem_enqueued {writes : List DbWrite} {row : OutboxMessage} :
    row ∈ enqueued writes ↔ .insert .outboxMessages row ∈ writes := by
  induction writes with
  | nil => simp [enqueued]
  | cons x writes ih =>
    cases x with
    | insert t row' => cases t <;> simp [enqueued, ih]
    | update t i f => simp [enqueued, ih]
    | delete t p => simp [enqueued, ih]

/-- Its events are not published. -/
theorem publishedAt_of_enqueued {writes : List DbWrite} (henq : ∀ x ∈ writes, Enqueues x)
    {row : OutboxMessage} (hrow : row ∈ enqueued writes) : row.publishedAt = none :=
  henq _ (mem_enqueued.mp hrow)

/-- A row of a batch, as the commit leaves it. -/
def Cycle.mark (c : Cycle) (row : OutboxMessage) : OutboxMessage :=
  if row.id ∈ c.published.map OutboxMessage.id then { row with publishedAt := some c.now } else row

@[simp] theorem Cycle.mark_id (c : Cycle) (row : OutboxMessage) : (c.mark row).id = row.id := by
  simp only [mark]
  split <;> rfl

@[simp] theorem Cycle.mark_message (c : Cycle) (row : OutboxMessage) :
    (c.mark row).message = row.message := by
  simp only [mark]
  split <;> rfl

/-- The commit of a cycle marks the rows it published. -/
theorem applyAll_cycle (c : Cycle) (db : Database) :
    applyAll c.writes db .outboxMessages = (db .outboxMessages).map c.mark := by
  obtain ⟨now, published, remaining⟩ := c
  simp only [Cycle.writes]
  induction published generalizing db with
  | nil =>
    refine (List.map_id' _).symm.trans (List.map_congr_left fun row _ => ?_)
    simp [Cycle.mark]
  | cons m published ih =>
    rw [List.map_cons, applyAll_cons, ih, apply_update_self, List.map_map]
    refine List.map_congr_left fun (row : OutboxMessage) _ => ?_
    simp only [Function.comp, pk_eq_rowId, rowId]
    by_cases h : row.id = m.id
    · simp [Cycle.mark, h, OutboxMessage.markPublished]
    · simp [Cycle.mark, h]

/-! ### The invariant -/

/-- What holds in every reachable world. -/
structure Invariant (w : World) : Prop where
  drawn_nodup : w.drawn.Nodup
  enqueues : ∀ tx ∈ w.transactions, ∀ x ∈ tx.writes, Enqueues x
  ids_nodup : (w.table.map OutboxMessage.id).Nodup
  /-- The table holds the events of the committed transactions. -/
  mem_ids : ∀ i, i ∈ w.table.map OutboxMessage.id ↔
    ∃ tx ∈ w.transactions, tx.status = .committed ∧ i ∈ tx.ids
  /-- What is marked has been accepted. -/
  published : ∀ row ∈ w.table, row.publishedAt ≠ none → (row.id, row.message) ∈ w.broker
  /-- So has what a cycle is about to mark. -/
  accepted : ∀ c ∈ w.cycles, ∀ m ∈ c.published, (m.id, m.message) ∈ w.broker
  /-- Cycles work on rows of the table. -/
  locked : ∀ c ∈ w.cycles, ∀ m ∈ c.locked,
    ∃ row ∈ w.table, row.id = m.id ∧ row.message = m.message

theorem Invariant.init : Invariant World.init where
  drawn_nodup := List.nodup_nil
  enqueues tx htx := by simp [World.init] at htx
  ids_nodup := List.nodup_nil
  mem_ids i := by simp [World.init, World.table, Database.empty]
  published row hrow := by simp [World.init, World.table, Database.empty] at hrow
  accepted c hc := by simp [World.init] at hc
  locked c hc := by simp [World.init] at hc

section Invariant

variable {db : Database} {transactions pre post : List Transaction} {cycles : List Cycle}
  {broker : List (String × Message)} {writes : List DbWrite}

/-- Cycles may end, and the broker may take messages, at any time. -/
theorem Invariant.mono {cycles' : List Cycle} {broker' : List (String × Message)}
    (h : Invariant ⟨db, transactions, cycles, broker⟩) (hcycles : ∀ c ∈ cycles', c ∈ cycles)
    (hbroker : ∀ m ∈ broker, m ∈ broker') : Invariant ⟨db, transactions, cycles', broker'⟩ where
  drawn_nodup := h.drawn_nodup
  enqueues := h.enqueues
  ids_nodup := h.ids_nodup
  mem_ids := h.mem_ids
  published row hrow hp := hbroker _ (h.published row hrow hp)
  accepted c hc m hm := hbroker _ (h.accepted c (hcycles c hc) m hm)
  locked c hc := h.locked c (hcycles c hc)

/-- The ids of an event tell its transaction. -/
theorem Invariant.eq_of_mem_ids {w : World} (h : Invariant w) {tx tx' : Transaction} {i : String}
    (htx : tx ∈ w.transactions) (htx' : tx' ∈ w.transactions) (hi : i ∈ tx.ids)
    (hi' : i ∈ tx'.ids) : tx = tx' := by
  by_contra hne
  have hsymm : Std.Symm (Function.onFun List.Disjoint Transaction.ids) :=
    ⟨fun _ _ hd _ ha hb => hd hb ha⟩
  exact (List.nodup_flatMap.mp h.drawn_nodup).2.forall htx htx' hne hi hi'

theorem Invariant.commit
    (h : Invariant ⟨db, pre ++ ⟨writes, .live⟩ :: post, cycles, broker⟩) :
    Invariant ⟨applyAll writes db, pre ++ ⟨writes, .committed⟩ :: post, cycles, broker⟩ := by
  have henq : ∀ x ∈ writes, Enqueues x := h.enqueues ⟨writes, .live⟩ (by simp)
  have htable : (applyAll writes db) .outboxMessages = db .outboxMessages ++ enqueued writes :=
    applyAll_enqueued henq db
  -- an id on record belongs to a transaction that has committed
  have hnew : ∀ i ∈ Transaction.ids ⟨writes, .live⟩,
      i ∉ (db .outboxMessages).map OutboxMessage.id := by
    intro i hi hmem
    obtain ⟨tx, htx, hstatus, hitx⟩ := (h.mem_ids i).mp hmem
    have hlive : (⟨writes, .live⟩ : Transaction) ∈ pre ++ ⟨writes, .live⟩ :: post := by simp
    rw [h.eq_of_mem_ids htx hlive hitx hi] at hstatus
    cases hstatus
  constructor
  · simpa [World.drawn, Transaction.ids] using h.drawn_nodup
  · intro tx htx
    simp only [List.mem_append, List.mem_cons] at htx
    rcases htx with htx | rfl | htx
    · exact h.enqueues tx (by simp [htx])
    · exact henq
    · exact h.enqueues tx (by simp [htx])
  · simp only [World.table, htable, List.map_append]
    refine List.nodup_append.mpr ⟨h.ids_nodup, ?_, fun a ha b hb e => hnew b hb (e ▸ ha)⟩
    exact (List.nodup_flatMap.mp h.drawn_nodup).1 ⟨writes, .live⟩ (by simp)
  · intro i
    have := h.mem_ids i
    simp only [World.table, htable, List.map_append, List.mem_append, List.mem_cons] at this ⊢
    rw [this]
    constructor
    · rintro (⟨tx, (htx | rfl | htx), hstatus, hi⟩ | hi)
      · exact ⟨tx, .inl htx, hstatus, hi⟩
      · cases hstatus
      · exact ⟨tx, .inr (.inr htx), hstatus, hi⟩
      · exact ⟨⟨writes, .committed⟩, .inr (.inl rfl), rfl, hi⟩
    · rintro ⟨tx, (htx | rfl | htx), hstatus, hi⟩
      · exact .inl ⟨tx, .inl htx, hstatus, hi⟩
      · exact .inr hi
      · exact .inl ⟨tx, .inr (.inr htx), hstatus, hi⟩
  · intro row hrow hp
    simp only [World.table, htable, List.mem_append] at hrow
    rcases hrow with hrow | hrow
    · exact h.published row hrow hp
    · exact absurd (publishedAt_of_enqueued henq hrow) hp
  · exact h.accepted
  · intro c hc m hm
    obtain ⟨row, hrow, hid, hmessage⟩ := h.locked c hc m hm
    refine ⟨row, ?_, hid, hmessage⟩
    simp only [World.table, htable]
    exact List.mem_append_left _ hrow

theorem Invariant.rollback
    (h : Invariant ⟨db, pre ++ ⟨writes, .live⟩ :: post, cycles, broker⟩) :
    Invariant ⟨db, pre ++ ⟨writes, .rolledBack⟩ :: post, cycles, broker⟩ := by
  refine { h with drawn_nodup := ?_, enqueues := ?_, mem_ids := ?_ }
  · simpa [World.drawn, Transaction.ids] using h.drawn_nodup
  · simpa [or_imp, forall_and] using h.enqueues
  · intro i
    refine (h.mem_ids i).trans ?_
    simp [or_and_right, exists_or]

/-- The commit of a cycle marks only what was accepted. -/
theorem Invariant.commitCycle {c : Cycle} {pre post : List Cycle}
    (h : Invariant ⟨db, transactions, pre ++ c :: post, broker⟩) :
    Invariant ⟨applyAll c.writes db, transactions, pre ++ post, broker⟩ := by
  have htable : (applyAll c.writes db) .outboxMessages = (db .outboxMessages).map c.mark :=
    applyAll_cycle c db
  have hids : ((applyAll c.writes db) .outboxMessages).map OutboxMessage.id
      = (db .outboxMessages).map OutboxMessage.id := by
    rw [htable, List.map_map]
    exact List.map_congr_left fun row _ => c.mark_id row
  have hsub : ∀ d ∈ pre ++ post, d ∈ pre ++ c :: post := fun d hd =>
    ReadCommitted.mem_of_mem_erase hd
  constructor
  · exact h.drawn_nodup
  · exact h.enqueues
  · simp only [World.table, hids]
    exact h.ids_nodup
  · simp only [World.table, hids]
    exact h.mem_ids
  · intro row' hrow' hp
    simp only [World.table, htable] at hrow'
    obtain ⟨row, hrow, rfl⟩ := List.mem_map.mp hrow'
    simp only [Cycle.mark_id, Cycle.mark_message]
    by_cases hmem : row.id ∈ c.published.map OutboxMessage.id
    · -- the row was published in this cycle: the broker has the message the cycle read
      obtain ⟨m, hm, hid⟩ := List.mem_map.mp hmem
      obtain ⟨read, hread, hrid, hmessage⟩ :=
        h.locked c (by simp) m (List.mem_append_left _ hm)
      obtain rfl : read = row :=
        List.inj_on_of_nodup_map h.ids_nodup hread hrow (hrid.trans hid)
      rw [hrid, hmessage]
      exact h.accepted c (by simp) m hm
    · refine h.published row hrow ?_
      simpa [Cycle.mark, hmem] using hp
  · exact fun d hd => h.accepted d (hsub d hd)
  · intro d hd m hm
    obtain ⟨row, hrow, hid, hmessage⟩ := h.locked d (hsub d hd) m hm
    refine ⟨c.mark row, ?_, by simpa using hid, by simpa using hmessage⟩
    simp only [World.table, htable]
    exact List.mem_map_of_mem hrow

/-- A batch is made of rows of the table. -/
theorem mem_table_of_mem_batch {w : World} {n : ℕ} {m : OutboxMessage} (h : m ∈ w.batch n) :
    m ∈ w.table := by
  have := List.mem_of_mem_take h
  exact List.mem_of_mem_filter (Sql.mem_orderBy.mp this)

/-- Every step keeps the invariant. -/
theorem Invariant.step {w w' : World} (h : Invariant w) (hs : Step w w') : Invariant w' := by
  cases hs with
  | begin writes henq hfresh =>
    refine { h with drawn_nodup := hfresh, enqueues := ?_, mem_ids := ?_ }
    · intro tx htx
      rcases List.mem_cons.mp htx with rfl | htx
      · exact henq
      · exact h.enqueues tx htx
    · intro i
      refine (h.mem_ids i).trans ?_
      simp
  | commit pre post hadm => exact h.commit
  | rollback pre post => exact h.rollback
  | select now n =>
    refine { h with accepted := ?_, locked := ?_ }
    · intro c hc
      rcases List.mem_cons.mp hc with rfl | hc
      · exact fun m hm => by simp at hm
      · exact h.accepted c hc
    · intro c hc
      rcases List.mem_cons.mp hc with rfl | hc
      · intro m hm
        have hbatch : m ∈ w.batch n := by simpa [Cycle.locked] using hm
        exact ⟨m, mem_table_of_mem_batch (w := w) hbatch, rfl, rfl⟩
      · exact h.locked c hc
  | publish pre post =>
    refine { h with published := ?_, accepted := ?_, locked := ?_ }
    · exact fun row hrow hp => List.mem_cons_of_mem _ (h.published row hrow hp)
    · intro c hc m hm
      simp only [List.mem_append, List.mem_cons] at hc
      rcases hc with hc | rfl | hc
      · exact List.mem_cons_of_mem _ (h.accepted c (by simp [hc]) m hm)
      · rcases List.mem_append.mp hm with hm | hm
        · exact List.mem_cons_of_mem _
            (h.accepted _ (List.mem_append_right _ List.mem_cons_self) m hm)
        · obtain rfl := List.mem_singleton.mp hm
          exact List.mem_cons_self
      · exact List.mem_cons_of_mem _ (h.accepted c (by simp [hc]) m hm)
    · intro c hc m hm
      simp only [List.mem_append, List.mem_cons] at hc
      rcases hc with hc | rfl | hc
      · exact h.locked c (by simp [hc]) m hm
      · exact h.locked _ (List.mem_append_right _ List.mem_cons_self) m
          (by simpa [Cycle.locked] using hm)
      · exact h.locked c (by simp [hc]) m hm
  | publishRaises pre post taken =>
    refine h.mono (fun d hd => ReadCommitted.mem_of_mem_erase hd) fun m hm => ?_
    split
    · exact List.mem_cons_of_mem _ hm
    · exact hm
  | commitCycle pre post => exact h.commitCycle
  | crash pre post => exact h.mono (fun d hd => ReadCommitted.mem_of_mem_erase hd) fun m hm => hm

end Invariant

theorem Reached.invariant {w : World} (hw : Reached w) : Invariant w := by
  induction hw with
  | init => exact .init
  | step _ hs ih => exact ih.step hs

/-- **The outbox delivers at least once.**  At every point of every run, an event is in the
table exactly if its business transaction committed, a row that is marked has been
accepted by the broker, and a row the broker never accepted is unmarked and open to the
next `SELECT` unless a live cycle has it locked. -/
theorem outbox_at_least_once {w : World} (hw : Reached w) :
    (∀ tx ∈ w.transactions, ∀ i ∈ tx.ids,
        i ∈ w.table.map OutboxMessage.id ↔ tx.status = .committed)
      ∧ (∀ row ∈ w.table, ∃ tx ∈ w.transactions, tx.status = .committed ∧ row.id ∈ tx.ids)
      ∧ (∀ row ∈ w.table, row.publishedAt ≠ none → (row.id, row.message) ∈ w.broker)
      ∧ ∀ row ∈ w.table, (row.id, row.message) ∉ w.broker →
          row.publishedAt = none ∧ (w.isLocked row = false → row ∈ w.selectable) := by
  have h := hw.invariant
  refine ⟨fun tx htx i hi => ?_, fun row hrow => ?_, h.published, fun row hrow hnot => ?_⟩
  · constructor
    · intro hmem
      obtain ⟨tx', htx', hstatus, hi'⟩ := (h.mem_ids i).mp hmem
      rwa [h.eq_of_mem_ids htx htx' hi hi']
    · exact fun hstatus => (h.mem_ids i).mpr ⟨tx, htx, hstatus, hi⟩
  · exact (h.mem_ids row.id).mp (List.mem_map_of_mem hrow)
  · have hnone : row.publishedAt = none := by
      by_contra hp
      exact hnot (h.published row hrow hp)
    refine ⟨hnone, fun hlocked => List.mem_filter.mpr ⟨hrow, ?_⟩⟩
    simp [hnone, hlocked]

/-- An event whose worker died after the broker had taken the message, so that it will be
sent again. -/
theorem outbox_at_least_once_crash :
    let row : OutboxMessage := ⟨"e1", "filenest.acme.p0.file.ready", .obj [], 1, none, "acme", "p0"⟩
    let tx : Transaction := ⟨[.insert .outboxMessages row], .committed⟩
    let w : World := ⟨applyAll tx.writes Database.empty, [tx], [], [("e1", row.message)]⟩
    (∀ tx ∈ w.transactions, ∀ i ∈ tx.ids,
        i ∈ w.table.map OutboxMessage.id ↔ tx.status = .committed)
      ∧ (∀ row ∈ w.table, ∃ tx ∈ w.transactions, tx.status = .committed ∧ row.id ∈ tx.ids)
      ∧ (∀ row ∈ w.table, row.publishedAt ≠ none → (row.id, row.message) ∈ w.broker)
      ∧ ∀ row ∈ w.table, (row.id, row.message) ∉ w.broker →
          row.publishedAt = none ∧ (w.isLocked row = false → row ∈ w.selectable) := by
  intro row tx w
  have hbegin := Reached.init.step (.begin tx.writes (by simp [tx, row, Enqueues])
    (by simp [World.drawn, World.init, Transaction.ids, tx, enqueued]))
  have hcommit := hbegin.step (.commit [] [] (by decide))
  have hselect : Reached ⟨w.db, w.transactions, [⟨5, [], [row]⟩], []⟩ :=
    hcommit.step (.select 5 100)
  have hpublish := hselect.step (.publish [] [])
  exact outbox_at_least_once (w := w) (hpublish.step (.crash [] []))

/-- An unpublished row that is not locked is in every batch that is large enough. -/
theorem mem_batch_of_selectable {w : World} {row : OutboxMessage} (h : row ∈ w.selectable)
    {n : ℕ} (hn : w.selectable.length ≤ n) : row ∈ w.batch n := by
  have hlength : (Sql.orderBy OutboxMessage.createdAt w.selectable).length ≤ n := by
    simpa [Sql.orderBy] using hn
  rw [World.batch, List.take_of_length_le hlength]
  exact Sql.mem_orderBy.mpr h

/-- The operations of the API are business transactions of the outbox. -/
theorem Operation.enqueues {ctx : TenantContext} {env : Env} {db : Database} (hdb : db.Good)
    {projectId : String} {op : Operation} {r : Response} {ws : List DbWrite}
    (h : op.run ctx env db projectId = .ok (r, ws)) : ∀ x ∈ ws, Enqueues x :=
  (Operation.sound hdb h).enqueues

end Outbox

end FileNest
