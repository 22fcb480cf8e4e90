import FileNest.Processing.Pipeline
import Mathlib.Logic.Relation

/-!
# Requests, outbox, broker and workers together

One state machine for everything that reads and writes files: requests under READ
COMMITTED, the publish cycles of the outbox, the broker with its unacknowledged messages,
and the handlers of the processing worker.  A request, a run and a failure handler each
read at one step and commit at a later one.  Anything may raise, handlers may die at any
point, and the broker delivers a message as often as it likes until it is acknowledged.

Time is counted in commits: the log keeps every commit that may touch a file, with the
number of commits there were when its transaction read.

## Main definitions

* `Phase`, `Handler` — how far the handling of a delivery has come.
* `Entry` — a commit in the log.
* `World`, `Step`, `Run` — the states, the steps, and the runs whose steps a condition allows.
* `Silently`, `Commits`, `Source` — what steps do to database, log and reads.
* `Consistent` — every transaction in flight read an earlier good database.

## Main results

* `Step.silently`, `Step.commits` — **every step either commits an entry or leaves files
  and messages alone.**
* `Consistent.run` — every run keeps the world consistent.
-/

namespace FileNest

open RowStore ReadCommitted

namespace Processing

/-- A request between its read and its commit. -/
structure InFlight where
  call : ServiceCall
  snapshot : Database
  /-- How many commits there were when it read. -/
  readAt : ℕ

/-- How far the handling of a delivery has come. -/
inductive Phase where
  | received
  /-- `_execute` has read. -/
  | executing (snapshot : Database) (readAt : ℕ)
  /-- `_execute` has raised. -/
  | raised (reason : String)
  /-- `_mark_failed` has read. -/
  | failing (reason : String) (snapshot : Database) (readAt : ℕ)
  /-- `run` has returned; the message is about to be acknowledged. -/
  | returned

/-- What the open transaction of a handler read, and when. -/
def Phase.read : Phase → Option (Database × ℕ)
  | executing snapshot readAt | failing _ snapshot readAt => some (snapshot, readAt)
  | received | raised _ | returned => none

/-- One delivery being handled. -/
structure Handler where
  /-- The sequence number of the message. -/
  seq : ℕ
  target : Target
  phase : Phase

/-- A commit of a request, of a run, or of a failure handler. -/
inductive Commit where
  | request (call : ServiceCall) (snapshot : Database) (writes : List DbWrite)
  | outcome (env : PipelineEnv) (target : Target) (snapshot : Database) (o : Outcome)
  | failure (env : PipelineEnv) (target : Target) (snapshot : Database) (o : Outcome)

/-- What was committed. -/
def Commit.writes : Commit → List DbWrite
  | request _ _ writes => writes
  | outcome env target _ o | failure env target _ o => o.writes env target

/-- A commit in the log. -/
structure Entry where
  what : Commit
  /-- How many commits there were when its transaction read. -/
  readAt : ℕ
  /-- How many there were with it. -/
  committedAt : ℕ

/-- Database, commits (newest first), requests in flight, publish cycles in flight, the
messages the broker has accepted (oldest first, each with the id of its row), those not
acknowledged with their sequence numbers, and the handlers. -/
structure World where
  db : Database
  log : List Entry := []
  requests : List InFlight := []
  cycles : List Outbox.Cycle := []
  stream : List (String × Message) := []
  unacked : List (ℕ × Message) := []
  handlers : List Handler := []

/-- What a condition on steps can tell apart: commits, and failure handlers that raise. -/
inductive Label where
  | silent
  | commit (e : Entry)
  | swallow (target : Target)

/-- The world after a commit. -/
def World.commit (w : World) (e : Entry) : World :=
  { w with db := applyAll e.what.writes w.db, log := e :: w.log }

/-- The world after the broker has taken the message of a row. -/
def World.accept (w : World) (m : OutboxMessage) : World :=
  { w with
    stream := w.stream ++ [(m.id, m.message)]
    unacked := (w.stream.length, m.message) :: w.unacked }

/-- One step. -/
inductive Step (w : World) : Label → World → Prop
  /-- A request reads. -/
  | read (call : ServiceCall) :
      Step w .silent { w with requests := ⟨call, w.db, w.log.length⟩ :: w.requests }
  /-- A request commits. -/
  | commit (pre post : List InFlight) {r : InFlight} {ws : List DbWrite} {e : Entry}
      (hr : w.requests = pre ++ r :: post) (hws : r.call.writes r.snapshot = some ws)
      (he : e = ⟨.request r.call r.snapshot ws, r.readAt, w.log.length + 1⟩)
      (hadm : Admissible ws w.db) :
      Step w (.commit e) { w.commit e with requests := pre ++ post }
  | rollback (pre post : List InFlight) {r : InFlight} (hr : w.requests = pre ++ r :: post) :
      Step w .silent { w with requests := pre ++ post }
  /-- A publish cycle selects unpublished rows. -/
  | select (now : ℕ) (batch : List OutboxMessage)
      (hbatch : ∀ m ∈ batch, m ∈ w.db .outboxMessages ∧ m.publishedAt = none) :
      Step w .silent { w with cycles := ⟨now, [], batch⟩ :: w.cycles }
  /-- The broker accepts the next message of a batch. -/
  | publish (pre post : List Outbox.Cycle) {now : ℕ} {published remaining : List OutboxMessage}
      {m : OutboxMessage} (hc : w.cycles = pre ++ ⟨now, published, m :: remaining⟩ :: post) :
      Step w .silent
        { w.accept m with cycles := pre ++ ⟨now, published ++ [m], remaining⟩ :: post }
  /-- The publish raises, whether or not the broker took the message. -/
  | publishRaises (pre post : List Outbox.Cycle) {now : ℕ}
      {published remaining : List OutboxMessage} {m : OutboxMessage} (taken : Bool)
      (hc : w.cycles = pre ++ ⟨now, published, m :: remaining⟩ :: post) :
      Step w .silent { (if taken then w.accept m else w) with cycles := pre ++ post }
  /-- The batch is marked. -/
  | mark (pre post : List Outbox.Cycle) {now : ℕ} {published : List OutboxMessage}
      (hc : w.cycles = pre ++ ⟨now, published, []⟩ :: post) :
      Step w .silent
        { w with
          db := applyAll (Outbox.Cycle.writes ⟨now, published, []⟩) w.db
          cycles := pre ++ post }
  /-- A publish cycle dies. -/
  | abandon (pre post : List Outbox.Cycle) {c : Outbox.Cycle}
      (hc : w.cycles = pre ++ c :: post) : Step w .silent { w with cycles := pre ++ post }
  /-- An unacknowledged message is delivered, once more or for the first time. -/
  | deliver {seq : ℕ} {m : Message} {target : Target} (hm : (seq, m) ∈ w.unacked)
      (hsub : ProcessingWorker.subscribed m = true)
      (htarget : ProcessingWorker.target m = some target) :
      Step w .silent { w with handlers := ⟨seq, target, .received⟩ :: w.handlers }
  /-- A run starts: it reads. -/
  | start (pre post : List Handler) {seq : ℕ} {target : Target}
      (hh : w.handlers = pre ++ ⟨seq, target, .received⟩ :: post) :
      Step w .silent
        { w with handlers := pre ++ ⟨seq, target, .executing w.db w.log.length⟩ :: post }
  /-- The file is not `processing`. -/
  | skip (pre post : List Handler) {seq n : ℕ} {target : Target} {snapshot : Database}
      (env : PipelineEnv)
      (hh : w.handlers = pre ++ ⟨seq, target, .executing snapshot n⟩ :: post)
      (hskip : PipelineExecutor.execute env snapshot target = .ok none) :
      Step w .silent { w with handlers := pre ++ ⟨seq, target, .returned⟩ :: post }
  /-- A run commits its outcome; the commit may still raise, with its effect in place. -/
  | settle (pre post : List Handler) {seq n : ℕ} {target : Target} {snapshot : Database}
      {env : PipelineEnv} {o : Outcome} {e : Entry} {next : Phase}
      (hh : w.handlers = pre ++ ⟨seq, target, .executing snapshot n⟩ :: post)
      (ho : PipelineExecutor.execute env snapshot target = .ok (some o))
      (he : e = ⟨.outcome env target snapshot o, n, w.log.length + 1⟩)
      (hadm : Admissible (o.writes env target) w.db)
      (hnext : next = .returned ∨ ∃ reason, next = .raised reason) :
      Step w (.commit e) { w.commit e with handlers := pre ++ ⟨seq, target, next⟩ :: post }
  /-- A run raises, wherever it stands. -/
  | raise (pre post : List Handler) {seq : ℕ} {target : Target} {phase : Phase} (reason : String)
      (hh : w.handlers = pre ++ ⟨seq, target, phase⟩ :: post)
      (hphase : phase = .received ∨ ∃ snapshot n, phase = .executing snapshot n) :
      Step w .silent { w with handlers := pre ++ ⟨seq, target, .raised reason⟩ :: post }
  /-- The failure handler reads. -/
  | load (pre post : List Handler) {seq : ℕ} {target : Target} {reason : String}
      (hh : w.handlers = pre ++ ⟨seq, target, .raised reason⟩ :: post) :
      Step w .silent
        { w with handlers := pre ++ ⟨seq, target, .failing reason w.db w.log.length⟩ :: post }
  /-- The failure handler commits. -/
  | fail (pre post : List Handler) {seq n : ℕ} {target : Target} {reason : String}
      {snapshot : Database} (env : PipelineEnv) {o : Outcome} {e : Entry}
      (hh : w.handlers = pre ++ ⟨seq, target, .failing reason snapshot n⟩ :: post)
      (ho : PipelineExecutor.markFailed snapshot target reason = .ok o)
      (he : e = ⟨.failure env target snapshot o, n, w.log.length + 1⟩)
      (hadm : Admissible (o.writes env target) w.db) :
      Step w (.commit e) { w.commit e with handlers := pre ++ ⟨seq, target, .returned⟩ :: post }
  /-- The failure handler raises; its exception is swallowed. -/
  | swallow (pre post : List Handler) {seq : ℕ} {target : Target} {phase : Phase}
      (hh : w.handlers = pre ++ ⟨seq, target, phase⟩ :: post)
      (hphase : ∃ reason, phase = .raised reason
        ∨ ∃ snapshot n, phase = .failing reason snapshot n) :
      Step w (.swallow target) { w with handlers := pre ++ ⟨seq, target, .returned⟩ :: post }
  /-- The message is acknowledged. -/
  | ack (pre post : List Handler) {seq : ℕ} {target : Target}
      (hh : w.handlers = pre ++ ⟨seq, target, .returned⟩ :: post) :
      Step w .silent
        { w with
          unacked := w.unacked.filter fun x => x.1 != seq
          handlers := pre ++ post }
  /-- A handler gives the message back, or dies. -/
  | drop (pre post : List Handler) {h : Handler} (hh : w.handlers = pre ++ h :: post) :
      Step w .silent { w with handlers := pre ++ post }

/-- A run whose steps all meet a condition. -/
def Run (allows : World → Label → Prop) : World → World → Prop :=
  Relation.ReflTransGen fun w w' => ∃ l, Step w l w' ∧ allows w l

theorem Run.step {allows : World → Label → Prop} {w w' w'' : World} {l : Label}
    (h : Run allows w w') (hs : Step w' l w'') (ha : allows w' l) : Run allows w w'' :=
  h.tail ⟨l, hs, ha⟩

/-! ### What a step does -/

/-- What a replaced list has in it. -/
theorem mem_replace {α : Type} {pre post : List α} {x y z : α} (h : z ∈ pre ++ y :: post) :
    z = y ∨ z ∈ pre ++ x :: post := by
  simp only [List.mem_append, List.mem_cons] at h ⊢
  tauto

/-- The messages of the outbox. -/
def messages (db : Database) : List Message := (db .outboxMessages).map OutboxMessage.message

/-- Nothing is committed but the marks of a publish cycle, and whoever reads reads now. -/
structure Silently (w w' : World) : Prop where
  log : w'.log = w.log
  files : w'.db .files = w.db .files
  messages : messages w'.db = messages w.db
  good : w.db.Good → w'.db.Good ∧ KeepsReferenced refs w.db w'.db
  requests : ∀ r ∈ w'.requests, r ∈ w.requests ∨
    r.snapshot = w.db ∧ r.readAt = w.log.length ∧ w'.db = w.db
  handlers : ∀ x ∈ w'.handlers, x ∈ w.handlers ∨ ∀ snapshot n, x.phase.read = some (snapshot, n) →
    snapshot = w.db ∧ n = w.log.length ∧ w'.db = w.db

/-- Where a commit comes from: a request in flight, a run, or a failure handler. -/
inductive Source (w : World) : Commit → ℕ → Prop
  | request {r : InFlight} {ws : List DbWrite} (hr : r ∈ w.requests)
      (hws : r.call.writes r.snapshot = some ws) :
      Source w (.request r.call r.snapshot ws) r.readAt
  | outcome {env : PipelineEnv} {seq n : ℕ} {target : Target} {snapshot : Database} {o : Outcome}
      (hx : ⟨seq, target, .executing snapshot n⟩ ∈ w.handlers)
      (ho : PipelineExecutor.execute env snapshot target = .ok (some o)) :
      Source w (.outcome env target snapshot o) n
  | failure {env : PipelineEnv} {seq n : ℕ} {target : Target} {reason : String}
      {snapshot : Database} {o : Outcome}
      (hx : ⟨seq, target, .failing reason snapshot n⟩ ∈ w.handlers)
      (ho : PipelineExecutor.markFailed snapshot target reason = .ok o) :
      Source w (.failure env target snapshot o) n

/-- An entry is committed. -/
structure Commits (w : World) (e : Entry) (w' : World) : Prop where
  source : Source w e.what e.readAt
  admissible : Admissible e.what.writes w.db
  committedAt : e.committedAt = w.log.length + 1
  db : w'.db = applyAll e.what.writes w.db
  log : w'.log = e :: w.log
  requests : ∀ r ∈ w'.requests, r ∈ w.requests
  handlers : ∀ x ∈ w'.handlers, x ∈ w.handlers ∨ x.phase.read = none

/-- Marking a batch only updates rows. -/
theorem cycle_sound (c : Outbox.Cycle) (db : Database) :
    Resolved refs c.writes db ∧ Admissible c.writes db := by
  obtain ⟨now, published, remaining⟩ := c
  simp only [Outbox.Cycle.writes]
  induction published generalizing db with
  | nil => exact ⟨trivial, trivial⟩
  | cons m published ih => exact ⟨⟨trivial, (ih _).1⟩, ⟨trivial, (ih _).2⟩⟩

theorem messages_cycle (c : Outbox.Cycle) (db : Database) :
    messages (applyAll c.writes db) = messages db := by
  rw [messages, Outbox.applyAll_cycle, List.map_map, messages]
  exact List.map_congr_left fun row _ => c.mark_message row

/-- A commit appends the messages of its events. -/
theorem messages_applyAll {ws : List DbWrite} (henq : ∀ x ∈ ws, Enqueues x) (db : Database) :
    messages (applyAll ws db)
      = messages db ++ (Outbox.enqueued ws).map OutboxMessage.message := by
  rw [messages, Outbox.applyAll_enqueued henq, List.map_append, messages]

theorem messages_outcome (o : Outcome) (env : PipelineEnv) (target : Target) (db : Database) :
    messages (applyAll (o.writes env target) db) = messages db ++ [o.message target] :=
  messages_applyAll (o.enqueues env target) db

section View

variable {w w' : World}

/-- A step that leaves the database alone. -/
theorem Silently.of_db (hdb : w'.db = w.db) (hlog : w'.log = w.log)
    (hrequests : ∀ r ∈ w'.requests, r ∈ w.requests ∨
      r.snapshot = w.db ∧ r.readAt = w.log.length)
    (hhandlers : ∀ x ∈ w'.handlers, x ∈ w.handlers ∨ ∀ snapshot n,
      x.phase.read = some (snapshot, n) → snapshot = w.db ∧ n = w.log.length) : Silently w w' where
  log := hlog
  files := by rw [hdb]
  messages := by rw [hdb]
  good h := ⟨hdb ▸ h, hdb ▸ .refl _⟩
  requests r hr := (hrequests r hr).imp_right fun h => ⟨h.1, h.2, hdb⟩
  handlers x hx := (hhandlers x hx).imp_right fun h snapshot n hread =>
    ⟨(h snapshot n hread).1, (h snapshot n hread).2, hdb⟩

/-- One handler moves on. -/
theorem Silently.of_handler {pre post : List Handler} {x y : Handler}
    (hx : w.handlers = pre ++ x :: post)
    (hy : ∀ snapshot n, y.phase.read = some (snapshot, n) →
      snapshot = w.db ∧ n = w.log.length) :
    Silently w { w with handlers := pre ++ y :: post } := by
  refine .of_db rfl rfl (fun r hr => .inl hr) fun z hz => ?_
  rcases mem_replace (x := x) hz with rfl | hz
  · exact .inr hy
  · exact .inl (hx ▸ hz)

/-- A step that is no commit. -/
theorem Step.silently {l : Label} (hs : Step w l w') (hl : ∀ e, l ≠ .commit e) :
    Silently w w' := by
  cases hs with
  | read call =>
    refine .of_db rfl rfl (fun r hr => ?_) fun x hx => .inl hx
    rcases List.mem_cons.mp hr with rfl | hr
    · exact .inr ⟨rfl, rfl⟩
    · exact .inl hr
  | commit pre post hr hws he hadm => exact absurd rfl (hl _)
  | rollback pre post hr =>
    exact .of_db rfl rfl (fun s hs => .inl (hr ▸ ReadCommitted.mem_of_mem_erase hs))
      fun x hx => .inl hx
  | select now batch hbatch => exact .of_db rfl rfl (fun r hr => .inl hr) fun x hx => .inl hx
  | publish pre post hc => exact .of_db rfl rfl (fun r hr => .inl hr) fun x hx => .inl hx
  | publishRaises pre post taken hc =>
    cases taken <;> exact .of_db rfl rfl (fun r hr => .inl hr) fun x hx => .inl hx
  | mark pre post hc =>
    rename_i now published
    refine ⟨rfl, ?_, messages_cycle _ _, fun hgood => ?_, fun r hr => .inl hr, fun x hx => .inl hx⟩
    -- the batch is of event rows
    · refine applyAll_of_table_ne (fun x hx => ?_) w.db
      obtain ⟨m, -, rfl⟩ := List.mem_map.mp hx
      simp
    · have hsound := cycle_sound ⟨now, published, []⟩ w.db
      exact hgood.commit (.refl _) hsound.1 hsound.2
  | abandon pre post hc => exact .of_db rfl rfl (fun r hr => .inl hr) fun x hx => .inl hx
  | deliver hm hsub htarget =>
    refine .of_db rfl rfl (fun r hr => .inl hr) fun x hx => ?_
    rcases List.mem_cons.mp hx with rfl | hx
    · exact .inr fun snapshot n hread => by cases hread
    · exact .inl hx
  | start pre post hh =>
    refine .of_handler hh fun snapshot n hread => ?_
    cases hread
    exact ⟨rfl, rfl⟩
  | skip pre post env hh hskip => exact .of_handler hh fun snapshot n hread => by cases hread
  | settle pre post hh ho he hadm hnext => exact absurd rfl (hl _)
  | raise pre post reason hh hphase => exact .of_handler hh fun snapshot n hread => by cases hread
  | load pre post hh =>
    refine .of_handler hh fun snapshot n hread => ?_
    cases hread
    exact ⟨rfl, rfl⟩
  | fail pre post env hh ho he hadm => exact absurd rfl (hl _)
  | swallow pre post hh hphase => exact .of_handler hh fun snapshot n hread => by cases hread
  | ack pre post hh =>
    exact .of_db rfl rfl (fun r hr => .inl hr)
      fun x hx => .inl (hh ▸ ReadCommitted.mem_of_mem_erase hx)
  | drop pre post hh =>
    exact .of_db rfl rfl (fun r hr => .inl hr)
      fun x hx => .inl (hh ▸ ReadCommitted.mem_of_mem_erase hx)

/-- A step that is a commit. -/
theorem Step.commits {e : Entry} (hs : Step w (.commit e) w') : Commits w e w' := by
  cases hs with
  | commit pre post hr hws he hadm =>
    subst he
    exact ⟨.request (by rw [hr]; simp) hws, hadm, rfl, rfl, rfl,
      fun s hs => hr ▸ ReadCommitted.mem_of_mem_erase hs, fun x hx => .inl hx⟩
  | settle pre post hh ho he hadm hnext =>
    subst he
    have hmem := hh ▸ List.mem_append_right pre List.mem_cons_self
    refine ⟨.outcome hmem ho, hadm, rfl, rfl, rfl, fun r hr => hr, fun x hx => ?_⟩
    rcases mem_replace hx with rfl | hx
    -- returned or raised, the handler holds no snapshot
    · refine .inr ?_
      rcases hnext with rfl | ⟨reason, rfl⟩ <;> rfl
    · exact .inl (hh ▸ hx)
  | fail pre post env hh ho he hadm =>
    subst he
    have hmem := hh ▸ List.mem_append_right pre List.mem_cons_self
    refine ⟨.failure hmem ho, hadm, rfl, rfl, rfl, fun r hr => hr, fun x hx => ?_⟩
    rcases mem_replace hx with rfl | hx
    · exact .inr rfl
    · exact .inl (hh ▸ hx)

end View

/-! ### Consistency -/

/-- A database that was read before the present one. -/
structure Earlier (snapshot db : Database) : Prop where
  good : snapshot.Good
  keeps : KeepsReferenced refs snapshot db

/-- Good databases wherever a transaction reads or has read. -/
structure Consistent (w : World) : Prop where
  good : w.db.Good
  requests : ∀ r ∈ w.requests, Earlier r.snapshot w.db
  handlers : ∀ x ∈ w.handlers, ∀ snapshot n, x.phase.read = some (snapshot, n) →
    Earlier snapshot w.db

/-- A file on record keeps its owner. -/
theorem Earlier.owner_eq {snapshot db : Database} (h : Earlier snapshot db) (hdb : db.Good)
    {record f : File} (hrecord : record ∈ snapshot .files) (hf : f ∈ db .files)
    (hid : f.id = record.id) :
    f.organizationId = record.organizationId ∧ f.projectId = record.projectId :=
  file_owner_eq h.keeps hdb.uniquePk hrecord hf hid

theorem Outcome.resolved (o : Outcome) (env : PipelineEnv) (target : Target) (db : Database) :
    Resolved refs (o.writes env target) db := by
  refine .of_forall fun w hw => ?_
  simp only [Outcome.writes, List.mem_cons, List.not_mem_nil, or_false] at hw
  rcases hw with rfl | rfl
  · trivial
  · exact fun k hk => by cases hk

section Consistency

variable {w w' : World}

/-- What a commit in a consistent world does to references. -/
theorem Consistent.commit (h : Consistent w) {e : Entry} (hc : Commits w e w') :
    w'.db.Good ∧ KeepsReferenced refs w.db w'.db := by
  obtain ⟨hsource, hadm, -, hdb, -, -, -⟩ := hc
  obtain ⟨what, readAt, committedAt⟩ := e
  rw [hdb]
  cases hsource with
  | request hr hws =>
    have hread := h.requests _ hr
    exact h.good.commit hread.keeps (ServiceCall.resolved hread.good hws) hadm
  | outcome hx ho => exact h.good.commit (.refl _) (Outcome.resolved _ _ _ _) hadm
  | failure hx ho => exact h.good.commit (.refl _) (Outcome.resolved _ _ _ _) hadm

/-- All a commit does to the outbox is to enqueue. -/
theorem Commits.enqueues {e : Entry} (hc : Commits w e w') (h : Consistent w) :
    ∀ x ∈ e.what.writes, Enqueues x := by
  obtain ⟨hsource, -, -, -, -, -, -⟩ := hc
  obtain ⟨what, readAt, committedAt⟩ := e
  cases hsource with
  | request hr hws =>
    obtain ⟨r, hres⟩ := ServiceResult.writes_eq_some.mp hws
    exact (Operation.sound (h.requests _ hr).good hres).enqueues
  | outcome hx ho => exact Outcome.enqueues _ _ _
  | failure hx ho => exact Outcome.enqueues _ _ _

/-- The log only grows. -/
theorem Run.log_suffix {allows : World → Label → Prop} (h : Run allows w w') :
    w.log <:+ w'.log := by
  induction h with
  | refl => exact List.suffix_rfl
  | tail _ hs ih =>
    obtain ⟨l, hs, -⟩ := hs
    refine ih.trans ?_
    by_cases hl : ∃ e, l = .commit e
    · obtain ⟨e, rfl⟩ := hl
      rw [hs.commits.log]
      exact List.suffix_cons _ _
    · exact (hs.silently fun e he => hl ⟨e, he⟩).log ▸ List.suffix_rfl

/-- Every step keeps the world consistent. -/
theorem Consistent.step {l : Label} (h : Consistent w) (hs : Step w l w') : Consistent w' := by
  have hlater : w'.db.Good ∧ KeepsReferenced refs w.db w'.db → ∀ snapshot,
      Earlier snapshot w.db → Earlier snapshot w'.db := fun hdb snapshot he =>
    ⟨he.good, he.keeps.trans hdb.2⟩
  by_cases hl : ∃ e, l = .commit e
  · obtain ⟨e, rfl⟩ := hl
    have hc := hs.commits
    have hdb := h.commit hc
    refine ⟨hdb.1, fun r hr => hlater hdb _ (h.requests r (hc.requests r hr)),
      fun x hx snapshot n hread => ?_⟩
    rcases hc.handlers x hx with hx | hx
    · exact hlater hdb _ (h.handlers x hx snapshot n hread)
    · rw [hx] at hread
      cases hread
  · have hq := hs.silently fun e he => hl ⟨e, he⟩
    have hdb := hq.good h.good
    have hnow : Earlier w.db w'.db := ⟨h.good, hdb.2⟩
    refine ⟨hdb.1, fun r hr => ?_, fun x hx snapshot n hread => ?_⟩
    · rcases hq.requests r hr with hr | hr
      · exact hlater hdb _ (h.requests r hr)
      · rwa [hr.1]
    · rcases hq.handlers x hx with hx | hx
      · exact hlater hdb _ (h.handlers x hx snapshot n hread)
      · rwa [(hx snapshot n hread).1]

/-- So does every run. -/
theorem Consistent.run {allows : World → Label → Prop} (h : Consistent w)
    (hr : Run allows w w') : Consistent w' := by
  induction hr with
  | refl => exact h
  | tail _ hs ih =>
    obtain ⟨l, hs, -⟩ := hs
    exact ih.step hs

end Consistency

/-! ### Values to compute with -/

/-- The database after a confirmed upload to a project that scans. -/
def scannedDb : Database := runAll scannedUpload Database.empty

/-- The file of that upload. -/
def scannedFile : File where
  id := "f0"
  organizationId := "acme"
  projectId := "p0"
  filename := "a.txt"
  contentType := "text/plain"
  sizeBytes := 1
  status := .processing
  storageKey := some "acme/p0/f0"
  folderId := none
  versionCount := 1
  metadata := []
  tags := []
  createdAt := 3
  updatedAt := 4

/-- The message of that upload. -/
def scannedMessage : Message where
  subject := "filenest.acme.p0.file.uploaded"
  payload := .obj [("file_id", .str "f0"), ("filename", .str "a.txt"),
    ("storage_key", .str "acme/p0/f0"), ("content_type", .str "text/plain"),
    ("size_bytes", .int 1)]

/-- The message is with the broker. -/
def scannedWorld : World := { db := scannedDb, unacked := [(0, scannedMessage)] }

/-- Two deliveries, both of which have read the row. -/
theorem scannedWorld_delivered_twice (allows : World → Label → Prop)
    (hsilent : ∀ w, w.db = scannedDb → allows w .silent) :
    Run allows scannedWorld { scannedWorld with
      handlers := [⟨0, ⟨"f0", "acme", "p0"⟩, .executing scannedDb 0⟩,
        ⟨0, ⟨"f0", "acme", "p0"⟩, .executing scannedDb 0⟩] } := by
  have hdeliver : ∀ w : World, (0, scannedMessage) ∈ w.unacked →
      Step w .silent { w with handlers := ⟨0, ⟨"f0", "acme", "p0"⟩, .received⟩ :: w.handlers } :=
    fun w hw => .deliver hw (by decide) (by decide)
  have h₁ : Run allows scannedWorld _ :=
    Run.step .refl (hdeliver scannedWorld List.mem_cons_self) (hsilent _ rfl)
  have h₂ := h₁.step (hdeliver _ List.mem_cons_self) (hsilent _ rfl)
  have h₃ := h₂.step (.start [] _ rfl) (hsilent _ rfl)
  exact h₃.step (.start [_] [] rfl) (hsilent _ rfl)

/-- The outcome of a run that has read the row. -/
def scannedOutcome : Outcome where
  record := scannedFile
  status := .ready
  category := some "document"
  event := "file.ready"
  payload := [("file_id", .str "f0"), ("filename", .str "a.txt"),
    ("storage_key", .str "acme/p0/f0"), ("category", .str "document")]

theorem execute_scannedDb (eventId : String) (now : ℕ) :
    PipelineExecutor.execute (devPipeline eventId now) scannedDb ⟨"f0", "acme", "p0"⟩
      = .ok (some scannedOutcome) :=
  rfl

/-- The commit of that outcome. -/
def scannedEntry : Entry :=
  ⟨.outcome (devPipeline "e0" 5) ⟨"f0", "acme", "p0"⟩ scannedDb scannedOutcome, 0, 1⟩

/-- One of the two deliveries has committed. -/
def settledWorld : World :=
  { scannedWorld.commit scannedEntry with
    handlers := [⟨0, ⟨"f0", "acme", "p0"⟩, .returned⟩,
      ⟨0, ⟨"f0", "acme", "p0"⟩, .executing scannedDb 0⟩] }

theorem run_settledWorld (allows : World → Label → Prop)
    (hsilent : ∀ w, w.db = scannedDb → allows w .silent)
    (hcommit : ∀ w, w.db = scannedDb → w.log = [] → allows w (.commit scannedEntry)) :
    Run allows scannedWorld settledWorld := by
  refine (scannedWorld_delivered_twice allows hsilent).step ?_ (hcommit _ rfl rfl)
  exact .settle [] [_] rfl (execute_scannedDb "e0" 5) rfl (by decide) (.inl rfl)

end Processing

end FileNest
