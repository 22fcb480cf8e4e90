import FileNest.Processing.World

/-!
# One outcome per upload

A run reads the row, and much later commits over whatever the row has become; the failure
handler does not look at the status at all.  So two runs of one file may both commit.
When each of them commits only over the row it loaded, and the failure handler only over
a row still `processing`, one commit settles the file, and nothing after it does.

## Main definitions

* `rowsOf`, `statusesOf`, `outcomes` — the row of a file, its status, its outcome events.
* `Commit.touches` — the commit changes the row of a file.
* `SettlesOnce` — no commit on the file between a run's read and its commit.
* `Settling` — the invariant.

## Main results

* `Settling.step` — every step that meets the condition keeps the invariant.
* `single_outcome` — **one terminal status, one event, and no change afterwards.**
* `second_outcome` — without the condition there may be two.
-/

namespace FileNest

open RowStore

namespace Processing

/-- The rows of a file: one, if it exists. -/
def rowsOf (db : Database) (i : String) : List File :=
  (db .files).filter fun (f : File) => f.id == i

/-- Its status. -/
def statusesOf (db : Database) (i : String) : List FileStatus := (rowsOf db i).map File.status

/-- The events that announce a terminal status. -/
def terminalEvents : List String := ["file.ready", "file.processing_failed", "file.quarantined"]

/-- The message announces an outcome of the file. -/
def isOutcome (f : File) (m : Message) : Bool := terminalEvents.any fun e => m.announces f e

/-- The outcomes of a file announced so far. -/
def outcomes (db : Database) (f : File) : List Message := (messages db).filter (isOutcome f)

/-- The write creates or changes the file. -/
def touchesFile (i : String) : DbWrite → Bool
  | .insert .files (row : File) => row.id == i
  | .update .files j _ => j == i
  | .delete .files _ => true
  | _ => false

/-- The commit creates or changes the file. -/
def Commit.touches (c : Commit) (i : String) : Bool := c.writes.any (touchesFile i)

/-- The commits so far that changed the file. -/
def World.touching (w : World) (i : String) : List Entry := w.log.filter fun e => e.what.touches i

/-- **The condition**: no request changes the file, a run or failure handler commits only
if nobody has committed on the file since it loaded the row, and a failure handler only
if the row it loaded was still `processing`. -/
def SettlesOnce (i : String) (w : World) : Label → Prop
  | .commit e => e.what.touches i = true →
      (∀ e' ∈ w.touching i, e'.committedAt ≤ e.readAt) ∧
        match e.what with
        | .request _ _ _ => False
        | .outcome _ _ _ _ => True
        | .failure _ _ _ o => o.record.status = .processing
  | _ => True

/-! ### Commits that leave the file alone -/

theorem rowsOf_apply {i : String} {x : DbWrite} (hx : touchesFile i x = false) (db : Database) :
    rowsOf (x.apply db) i = rowsOf db i := by
  by_cases ht : x.table = .files
  swap
  · rw [rowsOf, apply_of_table_ne ht, rowsOf]
  cases x with
  | insert t row =>
    obtain rfl : t = .files := ht
    have hne : (File.id row == i) = false := hx
    simp [rowsOf, hne]
  | update t j f =>
    obtain rfl : t = .files := ht
    have hne : j ≠ i := by simpa [touchesFile] using hx
    have hkeep : ∀ r : File, r.id = i → (if r.id = j then (f.toFun r : File) else r) = r := by
      intro r hr
      rw [if_neg fun h => hne (h.symm.trans hr)]
    have hid : ∀ r : File, (if r.id = j then (f.toFun r : File) else r).id = r.id := by
      intro r
      split
      · exact f.pk_toFun r
      · rfl
    have happly : (Write.update .files j f).apply db .files
        = (db .files).map fun (r : File) => if r.id = j then (f.toFun r : File) else r :=
      apply_update_self ..
    simp only [rowsOf, happly, List.filter_map]
    refine (List.map_congr_left fun r hr => ?_).trans ((List.map_id' _).trans ?_)
    · have hr := (List.mem_filter.mp hr).2
      simp only [Function.comp, hid, beq_iff_eq] at hr
      exact hkeep r hr
    · exact List.filter_congr fun r _ => by simp only [Function.comp, hid]
  | delete t p =>
    obtain rfl : t = .files := ht
    cases hx

/-- A transaction that leaves a file alone. -/
theorem rowsOf_applyAll {i : String} {ws : List DbWrite} (h : ws.any (touchesFile i) = false)
    (db : Database) : rowsOf (applyAll ws db) i = rowsOf db i := by
  induction ws generalizing db with
  | nil => rfl
  | cons x ws ih =>
    simp only [List.any_cons, Bool.or_eq_false_iff] at h
    rw [applyAll_cons, ih h.2, rowsOf_apply h.1]

theorem rowsOf_of_files {db db' : Database} (h : db' .files = db .files) (i : String) :
    rowsOf db' i = rowsOf db i := by
  rw [rowsOf, h, rowsOf]

theorem mem_rowsOf {db : Database} {i : String} {f : File} :
    f ∈ rowsOf db i ↔ f ∈ db .files ∧ f.id = i := by
  simp [rowsOf]

/-- A file on record is its only row. -/
theorem rowsOf_eq_singleton {db : Database} (hdb : db.Good) {f : File} (hf : f ∈ db .files) :
    rowsOf db f.id = [f] := by
  have hnodup : (db .files).Nodup := (hdb.uniquePk .files).of_map _
  rw [rowsOf, List.filter_congr (q := fun g => decide (g = f)) fun g hg => ?_,
    List.filter_eq, List.count_eq_one_of_mem hnodup hf, List.replicate_one]
  rw [Bool.eq_iff_iff, beq_iff_eq, decide_eq_true_iff]
  exact ⟨fun hid => hdb.uniquePk.eq_of_pk (t := .files) hg hf hid, fun heq => heq ▸ rfl⟩

/-- An outcome touches the file it loaded. -/
theorem touches_outcome (o : Outcome) (env : PipelineEnv) (target : Target) (i : String) :
    (o.writes env target).any (touchesFile i) = (o.record.id == i) := by
  simp [Outcome.writes, touchesFile, File.save, TransactionalOutboxPublisher.publish]

/-- The rows of the file after the commit of an outcome on it. -/
theorem rowsOf_outcome (o : Outcome) (env : PipelineEnv) (target : Target) (db : Database) :
    rowsOf (applyAll (o.writes env target) db) o.record.id
      = (rowsOf db o.record.id).map fun f => (o.record.flush (o.saved env.now)).toFun f := by
  rw [rowsOf, o.applyAll_files, List.filter_map, rowsOf]
  have hid : ∀ f : File, (if f.id = o.record.id then
      ((o.record.flush (o.saved env.now)).toFun f : File) else f).id = f.id := by
    intro f
    split <;> rfl
  have hfilter : (db .files).filter ((fun f : File => f.id == o.record.id) ∘ fun f =>
      if f.id = o.record.id then (o.record.flush (o.saved env.now)).toFun f else f)
        = (db .files).filter fun f : File => f.id == o.record.id :=
    List.filter_congr fun f _ => by simp only [Function.comp, hid]
  rw [hfilter]
  refine List.map_congr_left fun f hf => ?_
  rw [if_pos (by simpa using (List.mem_filter.mp hf).2)]

/-! ### Outcomes that are announced -/

theorem mem_terminalEvents {s : FileStatus} {e : String} (h : outcomeEvent s = some e) :
    e ∈ terminalEvents := by
  cases s <;> cases h <;> decide

theorem isOutcome_of_fileId_ne {f : File} {m : Message} (h : m.fileId ≠ some f.id) :
    isOutcome f m = false := by
  simp [isOutcome, terminalEvents, Message.announces, h]

theorem isOutcome_of_quiet {f : File} {row : OutboxMessage}
    (h : Quiet (.insert .outboxMessages row)) : isOutcome f row.message = false := by
  have hsubject : ∀ e ∈ terminalEvents, row.subject
      ≠ eventSubject f.organizationId f.projectId e := fun e he =>
    h.events row rfl e (by revert e; decide) _ _
  simp only [isOutcome, List.any_eq_false, Message.announces, OutboxMessage.message,
    Bool.and_eq_true, beq_iff_eq, not_and]
  exact fun e he heq => absurd heq (hsubject e he)

/-- A request that leaves a file alone announces nothing of it. -/
theorem outcomes_request {ctx : TenantContext} {env : Env} {snapshot db : Database}
    {projectId : String} {op : Operation} {ws : List DbWrite} {f : File}
    (heffect : FileEffect ctx env snapshot projectId op ws) (henq : ∀ x ∈ ws, Enqueues x)
    (htouch : ws.any (touchesFile f.id) = false) :
    outcomes (applyAll ws db) f = outcomes db f := by
  rw [outcomes, messages_applyAll henq, List.filter_append, outcomes]
  refine (congrArg _ (List.filter_eq_nil_iff.mpr fun m hm => ?_)).trans (List.append_nil _)
  obtain ⟨row, hrow, rfl⟩ := List.mem_map.mp hm
  rw [Bool.not_eq_true]
  rcases heffect.event_cases (Outbox.mem_enqueued.mp hrow) with hquiet | ⟨record, new, hsave, hid⟩
  · exact isOutcome_of_quiet hquiet
  · refine isOutcome_of_fileId_ne fun h => ?_
    have hne := List.any_eq_false.mp htouch _ hsave
    rw [hid, Option.some.injEq] at h
    simp [touchesFile, File.save, h] at hne

/-- What a commit announces of a file, if it comes from a run. -/
theorem outcomes_outcome {o : Outcome} {env : PipelineEnv} {target : Target}
    {snapshot db : Database} {f : File} (h : o.Terminal snapshot target)
    (howner : o.record.id = f.id → target.organizationId = f.organizationId
      ∧ target.projectId = f.projectId) :
    outcomes (applyAll (o.writes env target) db) f
      = outcomes db f ++ if o.record.id = f.id then [o.message target] else [] := by
  rw [outcomes, messages_outcome, List.filter_append, outcomes]
  split
  · rename_i hid
    obtain ⟨ho, hp⟩ := howner hid
    have hm : isOutcome f (o.message target) = true := by
      rw [isOutcome, List.any_eq_true]
      refine ⟨o.event, mem_terminalEvents h.event_eq, ?_⟩
      simp only [Message.announces, h.message_fileId, hid, beq_self_eq_true, Bool.and_true]
      simp [Outcome.message, ho, hp]
    rw [List.filter_singleton, hm]
    rfl
  · rename_i hid
    have hm := isOutcome_of_fileId_ne (f := f) (m := o.message target)
      (by rw [h.message_fileId]; simpa using hid)
    rw [List.filter_singleton, hm]
    rfl

/-! ### The invariant -/

/-- Status and message of a commit of a run. -/
def Commit.settled : Commit → Option (FileStatus × Message)
  | .request _ _ _ => none
  | .outcome _ target _ o | .failure _ target _ o => some (o.status, o.message target)

/-- Where a file stands that was `processing` in `db₀`: still so, or settled once. -/
def Stands (f : File) (db₀ : Database) (w : World) : Prop :=
  (w.touching f.id = [] ∧ statusesOf w.db f.id = [.processing] ∧ outcomes w.db f = outcomes db₀ f)
    ∨ ∃ e s m event, w.touching f.id = [e] ∧ e.what.settled = some (s, m)
      ∧ outcomeEvent s = some event
      ∧ m.subject = eventSubject f.organizationId f.projectId event
      ∧ statusesOf w.db f.id = [s] ∧ outcomes w.db f = outcomes db₀ f ++ [m]

/-- What holds in every world of a run on a file that was `processing` in `db₀`. -/
structure Settling (f : File) (db₀ : Database) (w : World) : Prop where
  consistent : Consistent w
  keeps : Earlier db₀ w.db
  committedAt_le : ∀ e ∈ w.log, e.committedAt ≤ w.log.length
  readAt_le : ∀ x ∈ w.handlers, ∀ snapshot n, x.phase.read = some (snapshot, n) →
    n ≤ w.log.length
  /-- What a handler read is what the row is, unless somebody has committed on it. -/
  fresh : ∀ x ∈ w.handlers, ∀ snapshot n, x.phase.read = some (snapshot, n) →
    (∀ e ∈ w.touching f.id, e.committedAt ≤ n) → rowsOf snapshot f.id = rowsOf w.db f.id
  stands : Stands f db₀ w

section Invariant

variable {f : File} {db₀ : Database} {w w' : World}

/-- Steps that commit nothing. -/
theorem Settling.silently (h : Settling f db₀ w) (hcons : Consistent w')
    (hq : Silently w w') : Settling f db₀ w' := by
  have htouching : w'.touching f.id = w.touching f.id := by rw [World.touching, hq.log]; rfl
  have hrows : rowsOf w'.db f.id = rowsOf w.db f.id := rowsOf_of_files hq.files _
  refine ⟨hcons, ⟨h.keeps.good, h.keeps.keeps.trans (hq.good h.consistent.good).2⟩, ?_, ?_, ?_, ?_⟩
  · rw [hq.log]
    exact h.committedAt_le
  · intro x hx snapshot n hread
    rw [hq.log]
    rcases hq.handlers x hx with hx | hx
    · exact h.readAt_le x hx snapshot n hread
    · exact (hx snapshot n hread).2.1.le
  · intro x hx snapshot n hread hn
    rw [hrows]
    rcases hq.handlers x hx with hx | hx
    · exact h.fresh x hx snapshot n hread (htouching ▸ hn)
    · rw [(hx snapshot n hread).1]
  · have hstands := h.stands
    rw [Stands] at hstands ⊢
    rwa [htouching, statusesOf, hrows, outcomes, hq.messages]

/-- The commit of a run or failure handler. -/
structure RunCommit (i : String) (w : World) (e : Entry) (env : PipelineEnv) (target : Target)
    (snapshot : Database) (o : Outcome) : Prop where
  writes : e.what.writes = o.writes env target
  settled : e.what.settled = some (o.status, o.message target)
  terminal : o.Terminal snapshot target
  read : ∃ x ∈ w.handlers, x.phase.read = some (snapshot, e.readAt)
  /-- If the condition holds, a row it settles was read as `processing`. -/
  loaded : SettlesOnce i w (.commit e) → e.what.touches i = true →
    o.record.status = .processing

/-- A commit comes from a request that has one of the shapes, or from a handler. -/
theorem Commits.cases {e : Entry} (i : String) (hcons : Consistent w) (hc : Commits w e w') :
    (∃ ctx env snapshot projectId op, FileEffect ctx env snapshot projectId op e.what.writes
        ∧ (∀ x ∈ e.what.writes, Enqueues x)
        ∧ (SettlesOnce i w (.commit e) → e.what.touches i = false))
      ∨ ∃ env target snapshot o, RunCommit i w e env target snapshot o := by
  obtain ⟨hsource, -, -, -, -, -, -⟩ := hc
  obtain ⟨what, readAt, committedAt⟩ := e
  cases hsource with
  | request hr hws =>
    obtain ⟨r, hres⟩ := ServiceResult.writes_eq_some.mp hws
    have hsnap := (hcons.requests _ hr).good
    refine .inl ⟨_, _, _, _, _, Operation.fileEffect hsnap hres,
      (Operation.sound hsnap hres).enqueues, fun hcond => ?_⟩
    rw [← Bool.not_eq_true]
    exact fun htouch => (hcond htouch).2
  | outcome hx ho =>
    have hspec := PipelineExecutor.execute_eq_some ho
    exact .inr ⟨_, _, _, _, rfl, rfl, hspec.1, ⟨_, hx, rfl⟩, fun _ _ => hspec.2.1⟩
  | failure hx ho =>
    exact .inr ⟨_, _, _, _, rfl, rfl, (PipelineExecutor.markFailed_eq_ok ho).1, ⟨_, hx, rfl⟩,
      fun hcond htouch => (hcond htouch).2⟩

theorem touching_commit {e : Entry} (i : String) (hc : Commits w e w') :
    w'.touching i = if e.what.touches i then e :: w.touching i else w.touching i := by
  rw [World.touching, hc.log, List.filter_cons]
  rfl

/-- In a world of the run the file has a row, of the owner it had. -/
theorem Stands.exists_row (h : Stands f db₀ w) : ∃ g, g ∈ rowsOf w.db f.id := by
  have hne : statusesOf w.db f.id ≠ [] := by
    rcases h with ⟨-, hs, -⟩ | ⟨_, _, _, _, -, -, -, -, hs, -⟩ <;> simp [hs]
  exact List.exists_mem_of_ne_nil _ fun hnil => hne (by simp [statusesOf, hnil])

/-- A run works on the file under its owner. -/
theorem Settling.owner_eq (h : Settling f db₀ w) (hf : f ∈ db₀ .files) {snapshot : Database}
    (hsnap : Earlier snapshot w.db) {target : Target} {o : Outcome}
    (ho : o.Terminal snapshot target) (hid : o.record.id = f.id) :
    target.organizationId = f.organizationId ∧ target.projectId = f.projectId := by
  obtain ⟨g, hg⟩ := h.stands.exists_row
  obtain ⟨hg, hgid⟩ := mem_rowsOf.mp hg
  obtain ⟨hrecord, -, horg, hproj, -⟩ := FileRepository.of_get ho.get_eq
  have hnow := hsnap.owner_eq h.consistent.good hrecord hg (hgid.trans hid.symm)
  have hthen := h.keeps.owner_eq h.consistent.good hf hg hgid
  exact ⟨horg.symm.trans (hnow.1.symm.trans hthen.1), hproj.symm.trans (hnow.2.symm.trans hthen.2)⟩

/-- A commit that leaves the file alone. -/
theorem Stands.untouched (hs : Settling f db₀ w) {e : Entry}
    (hc : Commits w e w') (htouch : e.what.touches f.id = false) : Stands f db₀ w' := by
  have hrows : rowsOf w'.db f.id = rowsOf w.db f.id := by
    rw [hc.db]
    exact rowsOf_applyAll htouch w.db
  have houtcomes : outcomes w'.db f = outcomes w.db f := by
    rw [hc.db]
    rcases hc.cases f.id hs.consistent with
      ⟨_, _, _, _, _, heffect, henq, -⟩ | ⟨env, target, snapshot, o, hrun⟩
    · exact outcomes_request heffect henq htouch
    · obtain ⟨x, hx, hread⟩ := hrun.read
      have hne : o.record.id ≠ f.id := by
        rw [Commit.touches, hrun.writes, touches_outcome] at htouch
        simpa using htouch
      rw [hrun.writes, outcomes_outcome hrun.terminal (fun hid => absurd hid hne), if_neg hne,
        List.append_nil]
  have hstands := hs.stands
  rw [Stands] at hstands ⊢
  rwa [touching_commit f.id hc, htouch, statusesOf, hrows, houtcomes]

/-- A commit that settles the file: nobody has before. -/
theorem Stands.touched (hs : Settling f db₀ w) (hf : f ∈ db₀ .files) {e : Entry}
    (hc : Commits w e w') (hcond : SettlesOnce f.id w (.commit e))
    (htouch : e.what.touches f.id = true) : Stands f db₀ w' := by
  rcases hc.cases f.id hs.consistent with
    ⟨_, _, _, _, _, -, -, hnot⟩ | ⟨env, target, snapshot, o, hrun⟩
  · rw [hnot hcond] at htouch
    cases htouch
  obtain ⟨x, hx, hread⟩ := hrun.read
  have hid : o.record.id = f.id := by
    rw [Commit.touches, hrun.writes, touches_outcome] at htouch
    simpa using htouch
  have hprocessing := hrun.loaded hcond htouch
  have hrecord := (FileRepository.of_get hrun.terminal.get_eq).1
  have hsnap := hs.consistent.handlers x hx _ _ hread
  have howner := hs.owner_eq hf hsnap hrun.terminal hid
  have hfresh := hs.fresh x hx _ _ hread (hcond htouch).1
  have hmem : o.record.status ∈ statusesOf w.db f.id := by
    rw [statusesOf, ← hfresh]
    exact List.mem_map_of_mem (mem_rowsOf.mpr ⟨hrecord, hid⟩)
  rcases hs.stands with ⟨hnone, hstatus, houtcomes⟩ | ⟨e₀, s, m, event, -, -, hevent, -, hstatus, -⟩
  · refine .inr ⟨e, o.status, o.message target, o.event, ?_, hrun.settled, hrun.terminal.event_eq,
      ?_, ?_, ?_⟩
    · rw [touching_commit f.id hc, htouch, hnone]
      rfl
    · rw [Outcome.message, howner.1, howner.2]
    · rw [statusesOf, hc.db, hrun.writes, ← hid, rowsOf_outcome, hid, List.map_map]
      -- the row was `processing`, and takes the new status
      have hne : o.status ≠ .processing := by
        intro hstat
        have := hrun.terminal.event_eq
        rw [hstat] at this
        cases this
      have hmap : ∀ g ∈ rowsOf w.db f.id, (File.status ∘ fun g =>
          ((o.record.flush (o.saved env.now)).toFun g : File)) g = o.status := by
        intro g _
        change flushColumn o.record.status o.status g.status = o.status
        rw [flushColumn, hprocessing, if_neg hne]
      rw [List.map_congr_left hmap]
      have hlength := congrArg List.length hstatus
      simp only [statusesOf, List.length_map, List.length_singleton] at hlength
      obtain ⟨g, hg⟩ := List.length_eq_one_iff.mp hlength
      rw [hg]
      rfl
    · rw [hc.db, hrun.writes, outcomes_outcome hrun.terminal fun _ => howner, if_pos hid, houtcomes]
  · -- settled already: what it loaded was not `processing`
    rw [hstatus, List.mem_singleton, hprocessing] at hmem
    rw [← hmem] at hevent
    cases hevent

/-- Steps that commit. -/
theorem Settling.commit (hs : Settling f db₀ w) (hf : f ∈ db₀ .files) (hcons : Consistent w')
    {e : Entry} (hc : Commits w e w') (hcond : SettlesOnce f.id w (.commit e)) :
    Settling f db₀ w' := by
  refine ⟨hcons, ⟨hs.keeps.good, hs.keeps.keeps.trans (hs.consistent.commit hc).2⟩, ?_, ?_, ?_, ?_⟩
  · intro e' he'
    rw [hc.log] at he' ⊢
    rcases List.mem_cons.mp he' with rfl | he'
    · exact hc.committedAt.le
    · exact (hs.committedAt_le e' he').trans (by simp)
  · intro x hx snapshot n hread
    rw [hc.log]
    rcases hc.handlers x hx with hx | hx
    · exact (hs.readAt_le x hx snapshot n hread).trans (by simp)
    · rw [hx] at hread
      cases hread
  · intro x hx snapshot n hread hn
    rcases hc.handlers x hx with hx | hx
    · rw [touching_commit f.id hc] at hn
      by_cases htouch : e.what.touches f.id = true
      · -- this very commit came after the read
        have hle := hn e (by rw [if_pos htouch]; exact List.mem_cons_self)
        have := hs.readAt_le x hx snapshot n hread
        have := hc.committedAt
        omega
      · rw [if_neg htouch] at hn
        rw [hs.fresh x hx snapshot n hread hn, hc.db]
        exact (rowsOf_applyAll (by simpa [Commit.touches] using htouch) w.db).symm
    · rw [hx] at hread
      cases hread
  · by_cases htouch : e.what.touches f.id = true
    · exact .touched hs hf hc hcond htouch
    · exact .untouched hs hc (by simpa using htouch)

/-- **Every step that meets the condition keeps the invariant.** -/
theorem Settling.step (hs : Settling f db₀ w) (hf : f ∈ db₀ .files) {l : Label}
    (hstep : Step w l w') (hcond : SettlesOnce f.id w l) : Settling f db₀ w' := by
  have hcons := hs.consistent.step hstep
  cases l with
  | commit e => exact hs.commit hf hcons hstep.commits hcond
  | silent => exact hs.silently hcons (hstep.silently fun _ h => by cases h)
  | swallow target => exact hs.silently hcons (hstep.silently fun _ h => by cases h)

end Invariant

/-! ### Runs -/

/-- A file that is `processing`, with nothing of it in a worker's hands yet. -/
structure Uploaded (f : File) (w : World) : Prop where
  consistent : Consistent w
  file : f ∈ w.db .files
  status : f.status = .processing
  handlers : w.handlers = []
  log : w.log = []

theorem Uploaded.settling {f : File} {w : World} (h : Uploaded f w) : Settling f w.db w := by
  refine ⟨h.consistent, ⟨h.consistent.good, .refl _⟩, by simp [h.log], by simp [h.handlers],
    by simp [h.handlers], .inl ⟨by simp [World.touching, h.log], ?_, rfl⟩⟩
  rw [statusesOf, rowsOf_eq_singleton h.consistent.good h.file, List.map_singleton, h.status]

theorem Settling.run {f : File} {db₀ : Database} {w w' : World} (h : Settling f db₀ w)
    (hf : f ∈ db₀ .files) (hr : Run (SettlesOnce f.id) w w') : Settling f db₀ w' := by
  induction hr with
  | refl => exact h
  | tail _ hs ih =>
    obtain ⟨l, hs, hcond⟩ := hs
    exact ih.step hf hs hcond

/-- The file is still `processing` with no outcome announced, or one commit has settled it:
one terminal status, one event that announces it, and the later world has no other. -/
def OneOutcome (f : File) (w₀ w w' : World) : Prop :=
  (w.touching f.id = [] ∧ statusesOf w.db f.id = [.processing]
      ∧ outcomes w.db f = outcomes w₀.db f)
    ∨ ∃ e s m event, w.touching f.id = [e] ∧ outcomeEvent s = some event
      ∧ m.subject = eventSubject f.organizationId f.projectId event
      ∧ statusesOf w.db f.id = [s] ∧ outcomes w.db f = outcomes w₀.db f ++ [m]
      ∧ w'.touching f.id = [e] ∧ statusesOf w'.db f.id = [s]
      ∧ outcomes w'.db f = outcomes w.db f

/-- **One outcome per upload.**  In every run that meets the condition a file that was
`processing` is settled at most once, with one event, and nothing later in the run changes
its status or announces another outcome. -/
theorem single_outcome {f : File} {w₀ w w' : World} (hstart : Uploaded f w₀)
    (h : Run (SettlesOnce f.id) w₀ w) (h' : Run (SettlesOnce f.id) w w') :
    OneOutcome f w₀ w w' := by
  have hw := hstart.settling.run hstart.file h
  have hw' := hw.run hstart.file h'
  have hsuffix : w.touching f.id <:+ w'.touching f.id := h'.log_suffix.filter _
  rcases hw.stands with hnone | ⟨e, s, m, event, hone, hsettled, hevent, hsubject, hstatus, hout⟩
  · exact .inl hnone
  · refine .inr ⟨e, s, m, event, hone, hevent, hsubject, hstatus, hout, ?_⟩
    rw [hone] at hsuffix
    rcases hw'.stands with ⟨hnone, -⟩ | ⟨e', s', m', -, hone', hsettled', -, -, hstatus', hout'⟩
    · rw [hnone] at hsuffix
      simp at hsuffix
    · -- the one commit of the later world is the one there was
      rw [hone'] at hsuffix ⊢
      obtain rfl : e = e' := by simpa using hsuffix.eq_of_length rfl
      rw [hsettled, Option.some.injEq, Prod.mk.injEq] at hsettled'
      obtain ⟨rfl, rfl⟩ := hsettled'
      exact ⟨rfl, hstatus', hout'.trans hout.symm⟩

/-! ### Two deliveries of one message -/

theorem uploaded_scannedWorld : Uploaded scannedFile scannedWorld where
  consistent := ⟨(reached_runAll .empty scannedUpload).good, fun r hr => (by cases hr),
    fun x hx => (by cases hx)⟩
  file := by decide
  status := rfl
  handlers := rfl
  log := rfl

/-- A delivery that settles the file, and a second one whose worker dies. -/
theorem single_outcome_redelivered :
    OneOutcome scannedFile scannedWorld settledWorld
      { settledWorld with handlers := [⟨0, ⟨"f0", "acme", "p0"⟩, .returned⟩] } := by
  have hrun := run_settledWorld (SettlesOnce scannedFile.id) (fun _ _ => trivial) fun w _ hw _ =>
    ⟨by simp [World.touching, hw], trivial⟩
  have hdrop : Run (SettlesOnce scannedFile.id) settledWorld _ :=
    Run.step .refl (.drop [_] [] rfl) trivial
  exact single_outcome uploaded_scannedWorld hrun hdrop

/-- No request changes the file, and nothing else is asked of a run. -/
def OnlyRuns (i : String) (_ : World) : Label → Prop
  | .commit e => e.what.touches i = true → e.what.settled ≠ none
  | _ => True

/-- A second delivery that had read the row before the first one committed, and raises: the
failure handler turns the file from `ready` to `failed`, with a second event. -/
theorem second_outcome :
    ¬∀ (f : File) (w₀ w w' : World), Uploaded f w₀ → Run (OnlyRuns f.id) w₀ w →
      Run (OnlyRuns f.id) w w' → OneOutcome f w₀ w w' := by
  intro h
  have hrun := run_settledWorld (OnlyRuns scannedFile.id) (fun _ _ => trivial)
    fun w _ _ _ => nofun
  have hraise : Run (OnlyRuns scannedFile.id) settledWorld _ :=
    Run.step .refl (.raise [_] [] "timed out" rfl (.inr ⟨_, _, rfl⟩)) trivial
  have hload := hraise.step (.load [_] [] rfl) trivial
  have hfail := hload.step (.fail [_] [] (devPipeline "e1" 6) rfl rfl rfl
    (by decide)) fun _ => nofun
  rcases h _ _ _ _ uploaded_scannedWorld hrun hfail with ⟨-, hstatus, -⟩ | hone
  · exact absurd hstatus (by decide)
  · obtain ⟨_, s, _, _, -, -, -, hstatus, -, -, hstatus', -⟩ := hone
    exact absurd (hstatus.trans hstatus'.symm) (by decide)

end Processing

end FileNest
