import FileNest.Outbox
import FileNest.Lib.Batches
import Mathlib.Logic.Relation

/-!
# One worker, cycle after cycle

A cycle publishes the oldest unpublished rows one by one and marks them all in the end.  Where
one publish raises, the session rolls back, and the next cycle selects the same rows again.  So
a row whose publish always raises holds up its batch, and every row behind it.

## Main definitions

* `publishEach`, `World.pollAndPublish`, `World.runCycles` — the loop, a cycle and the worker.
* `World.backlog` — the rows that wait, oldest first.
* `World.IsPublished` — a row is marked.

## Main results

* `pollAndPublish_steps` — a cycle is a run of the outbox.
* `backlog_runCycles` — the backlog is served in batches.
* `head_of_line_iff` — **which rows a cycle, and the worker, ever publishes.**
* `poison_blocks` — a row that is never published, behind one that cannot be.
-/

namespace FileNest

open RowStore

namespace Outbox

/-- The loop over a batch: whether it comes to its end, and what the broker has taken. -/
def publishEach (raises : OutboxMessage → Bool) :
    List OutboxMessage → List (String × Message) → Bool × List (String × Message)
  | [], broker => (true, broker)
  | m :: ms, broker =>
      if raises m then (false, broker) else publishEach raises ms ((m.id, m.message) :: broker)

section Cycle

variable (raises : OutboxMessage → Bool) (batchSize : ℕ) (w : World)

/-- `_poll_and_publish`, with the number of rows it answers if no publish raises. -/
def World.pollAndPublish (now : ℕ) : Option ℕ × World :=
  let messages := w.batch batchSize
  match publishEach raises messages w.broker with
  -- the session rolls back
  | (false, broker) => (none, { w with broker })
  | (true, broker) =>
      let db := applyAll (Cycle.writes ⟨now, messages, []⟩) w.db
      (some messages.length, { w with db, broker })

/-- `_run`: one cycle after the other, whatever comes of them. -/
def World.runCycles (w : World) : List ℕ → World
  | [] => w
  | now :: nows => runCycles (w.pollAndPublish raises batchSize now).2 nows

/-- The rows that wait, oldest first. -/
def World.backlog : List OutboxMessage := Sql.orderBy OutboxMessage.createdAt w.selectable

/-- The row with the id is marked. -/
def World.IsPublished (id : String) : Prop :=
  ∃ row ∈ w.table, row.id = id ∧ row.publishedAt ≠ none

end Cycle

section Cycle

variable {raises : OutboxMessage → Bool} {batchSize : ℕ} {w w' : World}

/-! ### A cycle -/

theorem publishEach_fst (raises : OutboxMessage → Bool) (ms : List OutboxMessage)
    (broker : List (String × Message)) :
    (publishEach raises ms broker).1 = !ms.any raises := by
  induction ms generalizing broker with
  | nil => rfl
  | cons m ms ih =>
    rw [publishEach, List.any_cons]
    cases raises m with
    | true => rfl
    | false => exact ih _

/-- A cycle marks its batch, or nothing. -/
theorem pollAndPublish_snd (raises : OutboxMessage → Bool) (batchSize : ℕ) (w : World) (now : ℕ) :
    ((w.batch batchSize).any raises = true ∧
        ∃ broker, (w.pollAndPublish raises batchSize now).2 = { w with broker }) ∨
      ((w.batch batchSize).any raises = false ∧
        ∃ db broker, db = applyAll (Cycle.writes ⟨now, w.batch batchSize, []⟩) w.db ∧
          (w.pollAndPublish raises batchSize now).2 = { w with db, broker }) := by
  have hfst := publishEach_fst raises (w.batch batchSize) w.broker
  simp only [World.pollAndPublish]
  cases hpublish : publishEach raises (w.batch batchSize) w.broker with
  | mk done broker =>
    rw [hpublish] at hfst
    cases done with
    | false =>
      refine .inl ⟨?_, broker, rfl⟩
      simpa using hfst.symm
    | true =>
      refine .inr ⟨?_, _, broker, rfl, rfl⟩
      simpa using hfst.symm

/-- The loop is a run of the outbox: it publishes row after row, and the worker commits or rolls
back. -/
theorem publishEach_steps (raises : OutboxMessage → Bool) (w : World) (now : ℕ)
    (ms published : List OutboxMessage) (broker : List (String × Message)) :
    Relation.ReflTransGen Step ⟨w.db, w.transactions, ⟨now, published, ms⟩ :: w.cycles, broker⟩
      (match publishEach raises ms broker with
        | (false, broker) => { w with broker }
        | (true, broker) =>
          { w with db := applyAll (Cycle.writes ⟨now, published ++ ms, []⟩) w.db, broker }) := by
  induction ms generalizing published broker with
  | nil =>
    rw [List.append_nil]
    exact .single (.commitCycle [] w.cycles)
  | cons m ms ih =>
    rw [publishEach]
    cases raises m with
    | true => exact .single (.publishRaises [] w.cycles false)
    | false =>
      have hrest := ih (published ++ [m]) ((m.id, m.message) :: broker)
      rw [List.append_assoc] at hrest
      exact .head (.publish [] w.cycles) hrest

/-- **A cycle is a run of the outbox.** -/
theorem pollAndPublish_steps (now : ℕ) :
    Relation.ReflTransGen Step w (w.pollAndPublish raises batchSize now).2 := by
  refine .head (.select now batchSize) ?_
  have hsteps := publishEach_steps raises w now (w.batch batchSize) [] w.broker
  simp only [World.pollAndPublish]
  cases hpublish : publishEach raises (w.batch batchSize) w.broker with
  | mk done broker =>
    rw [hpublish] at hsteps
    cases done <;> exact hsteps

/-! ### The backlog -/

theorem batch_eq_take : w.batch batchSize = w.backlog.take batchSize := rfl

theorem mem_selectable {row : OutboxMessage} :
    row ∈ w.selectable ↔ row ∈ w.table ∧ row.publishedAt = none ∧ w.isLocked row = false := by
  simp [World.selectable]

theorem mem_backlog {row : OutboxMessage} : row ∈ w.backlog ↔ row ∈ w.selectable := Sql.mem_orderBy

theorem nodup_backlog (hids : (w.table.map OutboxMessage.id).Nodup) :
    (w.backlog.map OutboxMessage.id).Nodup :=
  ((Sql.perm_orderBy _ _).map _).nodup_iff.mpr (hids.sublist (List.filter_sublist.map _))

/-- What the batch leaves. -/
theorem filter_take (hids : (w.table.map OutboxMessage.id).Nodup) (n : ℕ) :
    (w.backlog.filter fun row => row.id ∉ (w.backlog.take n).map OutboxMessage.id)
      = w.backlog.drop n := by
  have hnodup := nodup_backlog hids
  rw [← List.take_append_drop n w.backlog, List.map_append, List.nodup_append] at hnodup
  conv_lhs => rw [← List.take_append_drop n w.backlog]
  rw [List.filter_append]
  have hnone : ((w.backlog.take n).filter fun row =>
      row.id ∉ (w.backlog.take n).map OutboxMessage.id) = [] := by
    refine List.filter_eq_nil_iff.mpr fun row hrow => ?_
    have hmem : row.id ∈ (w.backlog.take n).map OutboxMessage.id := List.mem_map_of_mem hrow
    simpa only [decide_eq_true_eq, not_not] using hmem
  have hall : ((w.backlog.drop n).filter fun row =>
      row.id ∉ (w.backlog.take n).map OutboxMessage.id) = w.backlog.drop n := by
    refine List.filter_eq_self.mpr fun row hrow => decide_eq_true fun hmem => ?_
    exact hnodup.2.2 _ hmem _ (List.mem_map_of_mem hrow) rfl
  rw [List.take_append_drop, hnone, hall, List.nil_append]

/-- The rows that wait after a batch is marked. -/
theorem selectable_marked {c : Cycle} (hcycles : w'.cycles = w.cycles)
    (htable : w'.table = w.table.map c.mark) :
    w'.selectable = w.selectable.filter fun row => row.id ∉ c.published.map OutboxMessage.id := by
  have hlocked : ∀ row, w'.isLocked row = w.isLocked row := by
    intro row
    unfold World.isLocked
    rw [hcycles]
  have hmark : ∀ row, row.id ∉ c.published.map OutboxMessage.id → c.mark row = row :=
    fun row hrow => if_neg hrow
  unfold World.selectable
  rw [htable, List.filter_map, List.filter_filter]
  have hkept : ∀ row, ((fun row => row.publishedAt.isNone && !w'.isLocked row) ∘ c.mark) row
      = (decide (row.id ∉ c.published.map OutboxMessage.id) &&
        (row.publishedAt.isNone && !w.isLocked row)) := by
    intro row
    rw [Function.comp_apply]
    by_cases hrow : row.id ∈ c.published.map OutboxMessage.id
    · have hsome : (c.mark row).publishedAt = some c.now := by
        rw [Cycle.mark, if_pos hrow]
      rw [hsome, decide_eq_false (not_not_intro hrow)]
      rfl
    · rw [hmark row hrow, hlocked, decide_eq_true hrow, Bool.true_and]
  rw [List.filter_congr fun row _ => hkept row]
  refine (List.map_congr_left fun row hrow => ?_).trans (List.map_id' _)
  have hrow' := (List.mem_filter.mp hrow).2
  rw [Bool.and_eq_true] at hrow'
  exact hmark row (of_decide_eq_true hrow'.1)

/-- **A cycle serves the backlog as a batch.** -/
theorem backlog_pollAndPublish (hids : (w.table.map OutboxMessage.id).Nodup) (now : ℕ) :
    (w.pollAndPublish raises batchSize now).2.backlog
      = Batches.round raises batchSize w.backlog := by
  rw [Batches.round, ← batch_eq_take]
  obtain ⟨hany, broker, heq⟩ | ⟨hnone, _, broker, rfl, heq⟩ :=
    pollAndPublish_snd raises batchSize w now
  · rw [if_pos hany, heq]
    rfl
  · let c : Cycle := ⟨now, w.batch batchSize, []⟩
    have hselectable :
        World.selectable { w with db := applyAll c.writes w.db, broker }
          = w.selectable.filter fun row => row.id ∉ c.published.map OutboxMessage.id :=
      selectable_marked rfl (applyAll_cycle c w.db)
    rw [if_neg (by rw [hnone]; exact Bool.false_ne_true), heq, World.backlog, hselectable,
      Sql.orderBy_filter]
    exact filter_take hids batchSize

/-! ### What becomes of a row -/

/-- What a cycle leaves of a row: it is there as it was, or it is marked; and no row is new. -/
structure Later (w w' : World) : Prop where
  cycles : w'.cycles = w.cycles
  ids : w'.table.map OutboxMessage.id = w.table.map OutboxMessage.id
  rows : ∀ row ∈ w.table, row ∈ w'.table ∨ w'.IsPublished row.id

theorem Later.refl (w : World) : Later w w := ⟨rfl, rfl, fun _ hrow => .inl hrow⟩

theorem Later.trans {w'' : World} (h : Later w w') (h' : Later w' w'') : Later w w'' where
  cycles := h'.cycles.trans h.cycles
  ids := h'.ids.trans h.ids
  rows := by
    intro row hrow
    rcases h.rows row hrow with hsame | ⟨row', hrow', hid, hpublished⟩
    · exact h'.rows row hsame
    · rcases h'.rows row' hrow' with hsame | hmarked
      · exact .inr ⟨row', hsame, hid, hpublished⟩
      · exact .inr (hid ▸ hmarked)

theorem later_pollAndPublish (now : ℕ) : Later w (w.pollAndPublish raises batchSize now).2 := by
  obtain ⟨-, broker, heq⟩ | ⟨-, _, broker, rfl, heq⟩ :=
    pollAndPublish_snd raises batchSize w now
  · rw [heq]
    exact ⟨rfl, rfl, fun _ hrow => .inl hrow⟩
  · rw [heq]
    let c : Cycle := ⟨now, w.batch batchSize, []⟩
    have htable : World.table { w with db := applyAll c.writes w.db, broker }
        = w.table.map c.mark := applyAll_cycle c w.db
    refine ⟨rfl, ?_, fun row hrow => ?_⟩
    · rw [htable, List.map_map]
      exact List.map_congr_left fun row _ => c.mark_id row
    · have hmem : c.mark row ∈ World.table { w with db := applyAll c.writes w.db, broker } :=
        htable ▸ List.mem_map_of_mem hrow
      by_cases hpublished : row.id ∈ c.published.map OutboxMessage.id
      · refine .inr ⟨c.mark row, hmem, c.mark_id row, ?_⟩
        rw [Cycle.mark, if_pos hpublished]
        exact Option.some_ne_none _
      · rw [Cycle.mark, if_neg hpublished] at hmem
        exact .inl hmem

/-- A row that waited is marked exactly if it waits no longer. -/
theorem Later.isPublished_iff (h : Later w w') (hids : (w.table.map OutboxMessage.id).Nodup)
    {row : OutboxMessage} (hrow : row ∈ w.selectable) :
    w'.IsPublished row.id ↔ row ∉ w'.backlog := by
  rw [mem_backlog, mem_selectable]
  obtain ⟨hmem, hnone, hlocked⟩ := mem_selectable.mp hrow
  constructor
  · rintro ⟨row', hrow', hid, hpublished⟩ ⟨hmem', -, -⟩
    rw [List.inj_on_of_nodup_map (h.ids ▸ hids) hrow' hmem' hid] at hpublished
    exact hpublished hnone
  · intro hnot
    rcases h.rows row hmem with hsame | hmarked
    · refine absurd ⟨hsame, hnone, ?_⟩ hnot
      unfold World.isLocked at *
      rwa [h.cycles]
    · exact hmarked

/-! ### The worker -/

theorem later_runCycles (nows : List ℕ) : Later w (w.runCycles raises batchSize nows) := by
  induction nows generalizing w with
  | nil => exact .refl w
  | cons now nows ih => exact (later_pollAndPublish now).trans ih

/-- **The backlog is served in batches.** -/
theorem backlog_runCycles (hids : (w.table.map OutboxMessage.id).Nodup) (nows : List ℕ) :
    (w.runCycles raises batchSize nows).backlog
      = Batches.rounds raises batchSize nows.length w.backlog := by
  induction nows generalizing w with
  | nil => rfl
  | cons now nows ih =>
    have hlater : Later w (w.pollAndPublish raises batchSize now).2 := later_pollAndPublish now
    rw [World.runCycles, ih (hlater.ids ▸ hids), backlog_pollAndPublish hids]
    rfl

/-- A cycle publishes its batch if no publish in it raises, and else nothing. -/
theorem isPublished_pollAndPublish_iff (hids : (w.table.map OutboxMessage.id).Nodup) (now : ℕ)
    {row : OutboxMessage} (hrow : row ∈ w.selectable) :
    (w.pollAndPublish raises batchSize now).2.IsPublished row.id
      ↔ row ∈ w.batch batchSize ∧ ∀ m ∈ w.batch batchSize, raises m = false := by
  have hnodup : w.backlog.Nodup := List.Nodup.of_map _ (nodup_backlog hids)
  have hmem : row ∈ w.backlog := mem_backlog.mpr hrow
  rw [(later_pollAndPublish now).isPublished_iff hids hrow, backlog_pollAndPublish hids,
    Batches.round, ← batch_eq_take]
  split
  · rename_i hany
    obtain ⟨m, hm, hraises⟩ := List.any_eq_true.mp hany
    refine iff_of_false (fun hnot => hnot hmem) fun hbatch => ?_
    rw [hbatch.2 m hm] at hraises
    cases hraises
  · rename_i hnone
    have hall : ∀ m ∈ w.batch batchSize, raises m = false := fun m hm =>
      (Bool.not_eq_true _).mp fun hraises => hnone (List.any_eq_true.mpr ⟨m, hm, hraises⟩)
    rw [and_iff_left hall, batch_eq_take]
    rw [← List.take_append_drop batchSize w.backlog] at hmem hnodup
    constructor
    · exact fun hnot => (List.mem_append.mp hmem).resolve_right hnot
    · exact fun htake hdrop => (List.nodup_append.mp hnodup).2.2 row htake row hdrop rfl

end Cycle

/-- **Which rows a cycle, and the worker, ever publishes**, when the rows that raise always do: a
cycle those of its batch, if none of the batch raises; and the worker those that have no such
row in their batch or in one before, counting batches from the oldest row. -/
theorem head_of_line_iff {w : World} (hids : (w.table.map OutboxMessage.id).Nodup)
    (raises : OutboxMessage → Bool) {batchSize : ℕ} (hsize : 0 < batchSize) :
    (∀ now, ∀ row ∈ w.selectable,
      (w.pollAndPublish raises batchSize now).2.IsPublished row.id
        ↔ row ∈ w.batch batchSize ∧ ∀ m ∈ w.batch batchSize, raises m = false) ∧
    ∀ p (hp : p < w.backlog.length),
      (∃ nows, (w.runCycles raises batchSize nows).IsPublished w.backlog[p].id)
        ↔ ∀ m ∈ w.backlog.take (batchSize * (p / batchSize + 1)), raises m = false := by
  refine ⟨fun now row hrow => isPublished_pollAndPublish_iff hids now hrow, fun p hp => ?_⟩
  have hnodup : w.backlog.Nodup := List.Nodup.of_map _ (nodup_backlog hids)
  have hrow : w.backlog[p] ∈ w.selectable := mem_backlog.mp (List.getElem_mem hp)
  have hpublished : ∀ nows, (w.runCycles raises batchSize nows).IsPublished w.backlog[p].id
      ↔ w.backlog[p] ∉ Batches.rounds raises batchSize nows.length w.backlog := by
    intro nows
    rw [(later_runCycles nows).isPublished_iff hids hrow, backlog_runCycles hids]
  rw [← Batches.leaves_iff hsize hnodup hp]
  constructor
  · rintro ⟨nows, h⟩
    exact ⟨nows.length, (hpublished nows).mp h⟩
  · rintro ⟨k, h⟩
    refine ⟨List.replicate k 0, (hpublished _).mpr ?_⟩
    rwa [List.length_replicate]

/-- An event the broker refuses. -/
def poison : OutboxMessage := ⟨"e1", "filenest.acme.p0.file.ready", .obj [], 1, none, "acme", "p0"⟩

/-- A later one it would take. -/
def healthy : OutboxMessage := ⟨"e2", "filenest.acme.p0.file.ready", .obj [], 2, none, "acme", "p0"⟩

/-- Both wait. -/
def poisoned : World :=
  ⟨applyAll [.insert .outboxMessages poison, .insert .outboxMessages healthy] Database.empty,
    [], [], []⟩

theorem head_of_line_poisoned :
    (∀ now, ∀ row ∈ poisoned.selectable,
      (poisoned.pollAndPublish (· == poison) 100 now).2.IsPublished row.id
        ↔ row ∈ poisoned.batch 100 ∧ ∀ m ∈ poisoned.batch 100, (m == poison) = false) ∧
    ∀ p (hp : p < poisoned.backlog.length),
      (∃ nows, (poisoned.runCycles (· == poison) 100 nows).IsPublished poisoned.backlog[p].id)
        ↔ ∀ m ∈ poisoned.backlog.take (100 * (p / 100 + 1)), (m == poison) = false :=
  head_of_line_iff (by decide) _ (by decide)

/-- **A row that is never published**, behind one that cannot be. -/
theorem poison_blocks :
    ¬∀ (w : World) (raises : OutboxMessage → Bool) (batchSize now : ℕ),
      (w.table.map OutboxMessage.id).Nodup →
        (w.selectable.filter raises).length < batchSize →
          (∃ row ∈ w.selectable, raises row = false) →
            ∃ row ∈ w.selectable, raises row = false ∧
              (w.pollAndPublish raises batchSize now).2.IsPublished row.id := by
  intro h
  obtain ⟨row, hrow, -, hpublished⟩ := h poisoned (· == poison) 100 3 (by decide) (by decide)
    ⟨healthy, by decide, by decide⟩
  have hbatch := (isPublished_pollAndPublish_iff (by decide) 3 hrow).mp hpublished
  exact absurd (hbatch.2 poison (by decide)) (by decide)

end Outbox

end FileNest
