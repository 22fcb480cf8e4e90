import FileNest.Processing.Lifecycle

/-!
# Deleted files

Every query of a file leaves deleted rows out, so whoever reads a file after its deletion
fails.  But updates go by primary key, and a transaction that has read the file before may
commit after: a run of the pipeline turns a deleted file `ready`, and says so.

## Main definitions

* `Commit.deletes` — the commit of a `delete_file`.
* `told` — the events about a file in the outbox.
* `ReadsDeletion` — no commit on a deleted file by a transaction that read it before.
* `Buried` — the invariant.

## Main results

* `Buried.step` — every step that meets the condition keeps the invariant.
* `deleted_frozen` — **after its deletion nothing happens to a file.**
* `ready_after_deleted` — without the condition a run may still settle it.
-/

namespace FileNest

open RowStore

namespace Processing

/-- The commit deletes the file. -/
def Commit.deletes (c : Commit) (i : String) : Prop :=
  match c with
  | .request call _ _ => call.op = .deleteFile i
  | .outcome _ _ _ _ | .failure _ _ _ _ => False

/-- The events about a file in the outbox. -/
def told (db : Database) (i : String) : List Message :=
  (messages db).filter fun m => m.fileId == some i

/-- **The condition**: who commits on a deleted file has read it since. -/
def ReadsDeletion (i : String) (w : World) : Label → Prop
  | .commit e => e.what.touches i = true →
      ∀ d ∈ w.log, d.what.deletes i → d.committedAt ≤ e.readAt
  | _ => True

/-- The file is on record, deleted. -/
def Gone (db : Database) (i : String) : Prop :=
  rowsOf db i ≠ [] ∧ ∀ f ∈ rowsOf db i, File.deletedAt f ≠ none

/-! ### What transactions in flight have read -/

/-- A transaction in flight read this database, that many commits into the run. -/
inductive Reads (w : World) : Database → ℕ → Prop
  | request {r : InFlight} (hr : r ∈ w.requests) : Reads w r.snapshot r.readAt
  | handler {x : Handler} {snapshot : Database} {n : ℕ} (hx : x ∈ w.handlers)
      (hread : x.phase.read = some (snapshot, n)) : Reads w snapshot n

section Reads

variable {w w' : World} {snapshot : Database} {n : ℕ}

theorem Consistent.reads (h : Consistent w) (hr : Reads w snapshot n) : Earlier snapshot w.db := by
  cases hr with
  | request hr => exact h.requests _ hr
  | handler hx hread => exact h.handlers _ hx _ _ hread

theorem Source.reads {c : Commit} (h : Source w c n) : Reads w c.snapshot n := by
  cases h with
  | request hr hws => exact .request hr
  | outcome hx ho => exact .handler hx rfl
  | failure hx ho => exact .handler hx rfl

theorem Silently.reads (h : Silently w w') (hr : Reads w' snapshot n) :
    Reads w snapshot n ∨ snapshot = w.db ∧ n = w.log.length := by
  cases hr with
  | request hr =>
    rcases h.requests _ hr with hr | ⟨hsnap, hn, -⟩
    · exact .inl (.request hr)
    · exact .inr ⟨hsnap, hn⟩
  | handler hx hread =>
    rcases h.handlers _ hx with hx | hnow
    · exact .inl (.handler hx hread)
    · exact .inr ⟨(hnow _ _ hread).1, (hnow _ _ hread).2.1⟩

theorem Commits.reads {e : Entry} (h : Commits w e w') (hr : Reads w' snapshot n) :
    Reads w snapshot n := by
  cases hr with
  | request hr => exact .request (h.requests _ hr)
  | handler hx hread =>
    rcases h.handlers _ hx with hx | hnone
    · exact .handler hx hread
    · rw [hnone] at hread
      cases hread

end Reads

/-! ### Commits on a file -/

/-- An operation that touches a file creates it, or has read it alive. -/
theorem touches_cases {ctx : TenantContext} {env : Env} {snapshot : Database}
    {projectId i : String} {op : Operation} {ws : List DbWrite}
    (h : FileEffect ctx env snapshot projectId op ws) (htouch : ws.any (touchesFile i) = true) :
    (∃ (row : File) (rest : List DbWrite), ws = .insert .files row :: rest ∧ row.id = i)
      ∨ ∃ record ∈ rowsOf snapshot i, File.deletedAt record = none := by
  obtain ⟨x, hx, hxi⟩ := List.any_eq_true.mp htouch
  have hquiet : ¬Quiet x := fun hquiet => by
    rw [touchesFile_of_table_ne hquiet.files] at hxi
    cases hxi
  -- a file that was loaded is alive
  have hloaded : ∀ {fileId : String} {record new : File},
      FileRepository.get snapshot fileId ctx.organizationId projectId = .ok record →
      x = record.save new → ∃ record ∈ rowsOf snapshot i, File.deletedAt record = none := by
    intro fileId record new hrecord hsave
    subst hsave
    obtain ⟨hmem, -, -, -, hlive⟩ := FileRepository.of_get hrecord
    exact ⟨record, mem_rowsOf.mpr ⟨hmem, by simpa [touchesFile, File.save] using hxi⟩, hlive⟩
  cases h with
  | none hop hws => exact absurd (hws x hx) hquiet
  | create hop hstatus hcount hrest =>
    rename_i record rest
    rcases List.mem_cons.mp hx with rfl | hx
    · exact .inl ⟨record, rest, rfl, by simpa [touchesFile] using hxi⟩
    · exact absurd (hrest x hx) hquiet
  | modify pre hop hrecord hstatus hcount hpre hpost =>
    rcases List.mem_append.mp hx with hx | hx
    · exact absurd (hpre x hx) hquiet
    · rcases List.mem_cons.mp hx with hx | hx
      · exact .inr (hloaded hrecord hx)
      · exact absurd (hpost x hx) hquiet
  | settle version hop hrecord hconfig hsettle hpre =>
    rename_i fileId record config status event pre
    simp only [List.mem_append, List.mem_cons, List.not_mem_nil, or_false] at hx
    rcases hx with (hx | hx) | hx | rfl
    · exact absurd (hpre x hx) hquiet
    · cases version with
      | none => cases hx
      | some key =>
        obtain rfl := List.mem_singleton.mp hx
        cases hxi
    · exact .inr (hloaded hrecord hx)
    · rw [touchesFile_of_table_ne (by rw [settleUpload_table hsettle]; decide)] at hxi
      cases hxi
  | restore hrecord hevent =>
    simp only [List.mem_cons, List.not_mem_nil, or_false] at hx
    rcases hx with rfl | hx | rfl
    · cases hxi
    · exact .inr (hloaded hrecord hx)
    · exact absurd hevent hquiet

/-- Every event an operation enqueues is about a file it touches. -/
theorem event_touches {ctx : TenantContext} {env : Env} {snapshot : Database}
    {projectId : String} {op : Operation} {r : Response} {ws : List DbWrite}
    (hgood : snapshot.Good) (h : op.run ctx env snapshot projectId = .ok (r, ws))
    {row : OutboxMessage} (hrow : row ∈ Outbox.enqueued ws) :
    ∃ i, row.message.fileId = some i ∧ ws.any (touchesFile i) = true := by
  have htable := (Operation.sound hgood h).tables _ (Outbox.mem_enqueued.mp hrow)
  cases op with
  | confirmUpload fileId => exact (confirmUpload_announcesChange h).event_touches hrow
  | multipartComplete uploadId req => exact (complete_announcesChange h).event_touches hrow
  | restoreVersion fileId versionId => exact (restoreVersion_announcesChange h).event_touches hrow
  | deleteFile fileId => exact (deleteFile_announcesChange h).event_touches hrow
  | initUpload req =>
    simp only [Operation.run, FileService.initUpload, bind_eq_ok, pure_eq_ok, Prod.mk.injEq] at h
    obtain ⟨_, -, _, -, -, -, -, -, _, -, _, -, -, rfl⟩ := h
    obtain rfl := List.mem_singleton.mp hrow
    exact ⟨env.uuid4 0, rfl, by simp [touchesFile]⟩
  -- no other operation writes to the outbox
  | _ => exact absurd htable (by simp [Operation.tables])

section Commits

variable {w w' : World} {e : Entry} {i : String}

/-- Every event a commit enqueues is about a file it touches. -/
theorem Commits.event_touches (hc : Commits w e w') (hw : Consistent w) {row : OutboxMessage}
    (hrow : row ∈ Outbox.enqueued e.what.writes) :
    ∃ i, row.message.fileId = some i ∧ e.what.touches i = true := by
  obtain ⟨hsource, -, -, -, -, -, -⟩ := hc
  obtain ⟨what, readAt, committedAt⟩ := e
  cases hsource with
  | request hr hws =>
    obtain ⟨r, hres⟩ := ServiceResult.writes_eq_some.mp hws
    exact Processing.event_touches (hw.requests _ hr).good hres hrow
  | outcome hx ho =>
    exact (outcome_announcesChange (PipelineExecutor.execute_eq_some ho).1).event_touches hrow
  | failure hx ho =>
    exact (outcome_announcesChange (PipelineExecutor.markFailed_eq_ok ho).1).event_touches hrow

/-- A commit that leaves a file alone says nothing of it. -/
theorem Commits.told_of_not_touches (hc : Commits w e w') (hw : Consistent w)
    (htouch : e.what.touches i = false) : told w'.db i = told w.db i := by
  rw [told, hc.db, messages_applyAll (hc.enqueues hw), List.filter_append, told]
  refine (congrArg _ (List.filter_eq_nil_iff.mpr fun m hm => ?_)).trans (List.append_nil _)
  obtain ⟨row, hrow, rfl⟩ := List.mem_map.mp hm
  obtain ⟨j, hj, htouchj⟩ := hc.event_touches hw hrow
  rw [hj, beq_iff_eq, Option.some.injEq]
  rintro rfl
  rw [htouch] at htouchj
  cases htouchj

/-- A file that its transaction has read deleted is not touched. -/
theorem Commits.not_touches (hc : Commits w e w') (hw : Consistent w) (hnow : Gone w.db i)
    (hread : Gone e.what.snapshot i) : e.what.touches i = false := by
  rw [← Bool.not_eq_true]
  intro htouch
  obtain ⟨hsource, hadm, -, -, -, -, -⟩ := hc
  obtain ⟨what, readAt, committedAt⟩ := e
  cases hsource with
  | request hr hws =>
    obtain ⟨r, hres⟩ := ServiceResult.writes_eq_some.mp hws
    rcases touches_cases (Operation.fileEffect (hw.requests _ hr).good hres) htouch with
      ⟨row, rest, hcreate, hid⟩ | ⟨record, hrecord, hlive⟩
    · -- its id is taken
      obtain ⟨f, hf⟩ := List.exists_mem_of_ne_nil _ hnow.1
      obtain ⟨hf, hfid⟩ := mem_rowsOf.mp hf
      rw [show (Commit.request _ _ _).writes = _ from hcreate] at hadm
      exact hadm.1 f hf (hfid.trans hid.symm)
    · exact hread.2 record hrecord hlive
  | outcome hx ho =>
    obtain ⟨hmem, -, -, -, hlive⟩ :=
      FileRepository.of_get (PipelineExecutor.execute_eq_some ho).1.get_eq
    rw [Commit.touches, Commit.writes, touches_outcome, beq_iff_eq] at htouch
    exact hread.2 _ (mem_rowsOf.mpr ⟨hmem, htouch⟩) hlive
  | failure hx ho =>
    obtain ⟨hmem, -, -, -, hlive⟩ :=
      FileRepository.of_get (PipelineExecutor.markFailed_eq_ok ho).1.get_eq
    rw [Commit.touches, Commit.writes, touches_outcome, beq_iff_eq] at htouch
    exact hread.2 _ (mem_rowsOf.mpr ⟨hmem, htouch⟩) hlive

/-- A file that was on record is on record. -/
theorem Earlier.exists_row {snapshot db : Database} (h : Earlier snapshot db) {record : File}
    (hrecord : record ∈ snapshot .files) : ∃ f ∈ db .files, File.id f = record.id := by
  have hmem := mem_keys_of_mem (s := snapshot) (t := Table.files) hrecord
  have hkey := h.keeps .fileVersions ⟨record.organizationId, record.projectId, record.id⟩ _ rfl hmem
  obtain ⟨f, hf, hid, -⟩ := exists_of_mem_keys (s := db) (t := Table.files) hkey
  exact ⟨f, hf, hid⟩

/-- The commit of a `delete_file` leaves the file deleted. -/
theorem Commits.gone (hc : Commits w e w') (hw : Consistent w) (hdel : e.what.deletes i) :
    Gone w'.db i := by
  obtain ⟨hsource, -, -, hdb, -, -, -⟩ := hc
  obtain ⟨what, readAt, committedAt⟩ := e
  cases hsource with
  | outcome hx ho => cases hdel
  | failure hx ho => cases hdel
  | request hr hws =>
    rename_i r ws
    obtain ⟨call, snapshot, n⟩ := r
    obtain ⟨ctx, env, projectId, op⟩ := call
    obtain rfl : op = .deleteFile i := hdel
    obtain ⟨_, hres⟩ := ServiceResult.writes_eq_some.mp hws
    simp only [ServiceCall.result, Operation.run, FileService.deleteFile, bind_eq_ok, pure_eq_ok,
      Prod.mk.injEq] at hres
    obtain ⟨record, hrecord, -, rfl⟩ := hres
    obtain ⟨hmem, rfl, -, -, hlive⟩ := FileRepository.of_get hrecord
    obtain ⟨f, hf, hfid⟩ := (hw.requests _ hr).exists_row hmem
    have hfiles : w'.db .files = (w.db .files).map fun (g : File) => if g.id = record.id then
        (record.flush (FileRepository.softDelete record env.now)).toFun g else g := by
      rw [hdb]
      exact applyAll_save [] (by simp) (by simp [publish, TransactionalOutboxPublisher.publish]) _
    have hdeleted : ∀ g : File, ((record.flush (FileRepository.softDelete record env.now)).toFun g :
        File).deletedAt = some env.now := by
      intro g
      change flushColumn record.deletedAt (some env.now) g.deletedAt = _
      rw [hlive, flushColumn, if_neg (Option.some_ne_none _)]
    constructor
    · refine List.ne_nil_of_mem (mem_rowsOf.mpr ⟨?_, ?_⟩) (a := (record.flush
        (FileRepository.softDelete record env.now)).toFun f)
      · rw [hfiles]
        exact List.mem_map.mpr ⟨f, hf, if_pos hfid⟩
      · exact hfid
    · intro g hg
      obtain ⟨hg, hgid⟩ := mem_rowsOf.mp hg
      rw [hfiles] at hg
      obtain ⟨g₀, -, rfl⟩ := List.mem_map.mp hg
      by_cases hid : g₀.id = record.id
      · rw [if_pos hid, hdeleted]
        exact Option.some_ne_none _
      · rw [if_neg hid] at hgid
        exact absurd hgid hid

end Commits

/-! ### The invariant -/

/-- What holds in every world of a run: who reads a file after its deletion reads it deleted. -/
structure Buried (i : String) (w : World) : Prop where
  consistent : Consistent w
  committedAt_le : ∀ e ∈ w.log, e.committedAt ≤ w.log.length
  readAt_le : ∀ snapshot n, Reads w snapshot n → n ≤ w.log.length
  gone : ∀ d ∈ w.log, d.what.deletes i → Gone w.db i
  seen : ∀ snapshot n, Reads w snapshot n → ∀ d ∈ w.log, d.what.deletes i → d.committedAt ≤ n →
    Gone snapshot i

section Invariant

variable {i : String} {w w' : World}

theorem Gone.of_files {db db' : Database} (h : Gone db i) (hfiles : db' .files = db .files) :
    Gone db' i := by
  rwa [Gone, rowsOf_of_files hfiles]

/-- Steps that commit nothing. -/
theorem Buried.silently (h : Buried i w) (hcons : Consistent w') (hq : Silently w w') :
    Buried i w' := by
  refine ⟨hcons, ?_, fun snapshot n hr => ?_, ?_, fun snapshot n hr d hd hdel hn => ?_⟩
  · rw [hq.log]
    exact h.committedAt_le
  · rw [hq.log]
    rcases hq.reads hr with hr | ⟨-, rfl⟩
    · exact h.readAt_le _ _ hr
    · exact le_rfl
  · rw [hq.log]
    exact fun d hd hdel => (h.gone d hd hdel).of_files hq.files
  · rw [hq.log] at hd
    rcases hq.reads hr with hr | ⟨rfl, -⟩
    · exact h.seen _ _ hr d hd hdel hn
    · exact h.gone d hd hdel

/-- A commit that meets the condition leaves a deleted file alone. -/
theorem Buried.not_touches (h : Buried i w) {d e : Entry} (hc : Commits w e w')
    (hcond : ReadsDeletion i w (.commit e)) (hd : d ∈ w.log) (hdel : d.what.deletes i) :
    e.what.touches i = false := by
  by_contra htouch
  rw [Bool.not_eq_false] at htouch
  have hread := h.seen _ _ hc.source.reads d hd hdel (hcond htouch d hd hdel)
  rw [hc.not_touches h.consistent (h.gone d hd hdel) hread] at htouch
  cases htouch

/-- Steps that commit. -/
theorem Buried.commit (h : Buried i w) (hcons : Consistent w') {e : Entry} (hc : Commits w e w')
    (hcond : ReadsDeletion i w (.commit e)) : Buried i w' := by
  have hlength : w'.log.length = w.log.length + 1 := by rw [hc.log, List.length_cons]
  refine ⟨hcons, fun e' he' => ?_, fun snapshot n hr => ?_, fun d hd hdel => ?_,
    fun snapshot n hr d hd hdel hn => ?_⟩
  · rw [hc.log] at he'
    rcases List.mem_cons.mp he' with rfl | he'
    · exact (hc.committedAt.trans hlength.symm).le
    · have := h.committedAt_le e' he'
      omega
  · have := h.readAt_le _ _ (hc.reads hr)
    omega
  · rw [hc.log] at hd
    rcases List.mem_cons.mp hd with rfl | hd
    · exact hc.gone h.consistent hdel
    · have hold := h.gone d hd hdel
      rwa [Gone, hc.db, rowsOf_applyAll (h.not_touches hc hcond hd hdel)]
  · have hle := h.readAt_le _ _ (hc.reads hr)
    rw [hc.log] at hd
    rcases List.mem_cons.mp hd with rfl | hd
    -- who is still in flight has read before this commit
    · have := hc.committedAt
      omega
    · exact h.seen _ _ (hc.reads hr) d hd hdel hn

/-- **Every step that meets the condition keeps the invariant.** -/
theorem Buried.step (h : Buried i w) {l : Label} (hs : Step w l w') (hcond : ReadsDeletion i w l) :
    Buried i w' := by
  have hcons := h.consistent.step hs
  cases l with
  | commit e => exact h.commit hcons hs.commits hcond
  | silent => exact h.silently hcons (hs.silently fun _ h => by cases h)
  | swallow target => exact h.silently hcons (hs.silently fun _ h => by cases h)

end Invariant

/-! ### Runs -/

/-- A good database, and no transaction in flight. -/
structure Begins (w : World) : Prop where
  good : w.db.Good
  log : w.log = []
  requests : w.requests = []
  handlers : w.handlers = []

theorem Begins.consistent {w : World} (h : Begins w) : Consistent w where
  good := h.good
  requests r hr := by simp [h.requests] at hr
  handlers x hx := by simp [h.handlers] at hx

theorem Begins.not_reads {w : World} (h : Begins w) {snapshot : Database} {n : ℕ} :
    ¬Reads w snapshot n := by
  intro hr
  cases hr with
  | request hr => simp [h.requests] at hr
  | handler hx hread => simp [h.handlers] at hx

theorem Begins.buried {w : World} (h : Begins w) (i : String) : Buried i w where
  consistent := h.consistent
  committedAt_le e he := by simp [h.log] at he
  readAt_le snapshot n hr := absurd hr h.not_reads
  gone d hd := by simp [h.log] at hd
  seen snapshot n hr := absurd hr h.not_reads

theorem Buried.run {i : String} {w w' : World} (h : Buried i w)
    (hr : Run (ReadsDeletion i) w w') : Buried i w' := by
  induction hr with
  | refl => exact h
  | tail _ hs ih =>
    obtain ⟨l, hs, hcond⟩ := hs
    exact ih.step hs hcond

/-- **A deleted file is frozen**: in every run that meets the condition, once its deletion has
committed, the row stays as it is and the outbox gets no event about the file. -/
theorem deleted_frozen {i : String} {w₀ w w' : World} {d : Entry} (hstart : Begins w₀)
    (hrun : Run (ReadsDeletion i) w₀ w) (hd : d ∈ w.log) (hdel : d.what.deletes i)
    (hrun' : Run (ReadsDeletion i) w w') :
    rowsOf w'.db i = rowsOf w.db i ∧ told w'.db i = told w.db i := by
  have hw := (hstart.buried i).run hrun
  induction hrun' with
  | refl => exact ⟨rfl, rfl⟩
  | tail hbefore hs ih =>
    rename_i v v'
    obtain ⟨l, hs, hcond⟩ := hs
    have hv := hw.run hbefore
    have hdv : d ∈ v.log := Run.log_suffix hbefore |>.mem hd
    by_cases hl : ∃ e, l = .commit e
    · obtain ⟨e, rfl⟩ := hl
      have htouch := hv.not_touches hs.commits hcond hdv hdel
      rw [hs.commits.told_of_not_touches hv.consistent htouch, hs.commits.db,
        rowsOf_applyAll htouch]
      exact ih
    · have hq := hs.silently fun e he => hl ⟨e, he⟩
      rw [rowsOf_of_files hq.files, told, hq.messages]
      exact ih

/-! ### A run that has read the file before -/

/-- The deletion of the file that is being scanned. -/
def scannedDeletion : ServiceCall := ⟨orgContext "acme", devEnv "x" 5, "p0", .deleteFile "f0"⟩

/-- What it writes. -/
def scannedDeletionWrites : List DbWrite :=
  [scannedFile.save (FileRepository.softDelete scannedFile 5),
   publish (orgContext "acme") (devEnv "x" 5) "p0" 0 "file.deleted"
     [("file_id", .str "f0"), ("storage_key", .str "acme/p0/f0"), ("filename", .str "a.txt")]]

theorem begins_scannedWorld : Begins scannedWorld where
  good := (reached_runAll .empty scannedUpload).good
  log := rfl
  requests := rfl
  handlers := rfl

/-- Its commit. -/
def deletionEntry : Entry :=
  ⟨.request scannedDeletion scannedDb scannedDeletionWrites, 0, 1⟩

/-- The file is deleted while a run is under way. -/
def deletedWorld : World :=
  { scannedWorld.commit deletionEntry with
    handlers := [⟨0, ⟨"f0", "acme", "p0"⟩, .executing scannedDb 0⟩] }

theorem run_deletedWorld (allows : World → Label → Prop) (hsilent : ∀ w, allows w .silent)
    (hcommit : ∀ w, w.log = [] → allows w (.commit deletionEntry)) :
    Run allows scannedWorld deletedWorld := by
  have hdeliver : Run allows scannedWorld _ :=
    Run.step .refl (.deliver (m := scannedMessage) List.mem_cons_self rfl rfl) (hsilent _)
  have hstart := hdeliver.step (.start [] [] rfl) (hsilent _)
  have hread := hstart.step (.read scannedDeletion) (hsilent _)
  exact hread.step (.commit (e := deletionEntry) [] [] rfl rfl rfl (by decide)) (hcommit _ rfl)

/-- The run raises, and its failure handler no longer finds the file. -/
theorem deleted_frozen_raised :
    let w : World := { deletedWorld with handlers := [⟨0, ⟨"f0", "acme", "p0"⟩, .returned⟩] }
    rowsOf w.db "f0" = rowsOf deletedWorld.db "f0"
      ∧ told w.db "f0" = told deletedWorld.db "f0" := by
  have hrun := run_deletedWorld (ReadsDeletion "f0") (fun _ => trivial) fun w hw _ d hd => by
    simp [hw] at hd
  have hraise : Run (ReadsDeletion "f0") deletedWorld _ :=
    Run.step .refl (.raise [] [] "timed out" rfl (.inr ⟨_, _, rfl⟩)) trivial
  have hload := hraise.step (.load [] [] rfl) trivial
  have hswallow := hload.step (.swallow [] [] rfl ⟨"timed out", .inr ⟨_, _, rfl⟩⟩) trivial
  exact deleted_frozen begins_scannedWorld hrun (d := deletionEntry) List.mem_cons_self rfl hswallow

/-- The run does not raise: the deleted file is `ready`, and an event says so. -/
theorem ready_after_deleted :
    ¬∀ (i : String) (w₀ w w' : World) (d : Entry), Begins w₀ → Run (fun _ _ => True) w₀ w →
      d ∈ w.log → d.what.deletes i → Run (fun _ _ => True) w w' →
      rowsOf w'.db i = rowsOf w.db i ∧ told w'.db i = told w.db i := by
  intro h
  have hrun := run_deletedWorld (fun _ _ => True) (fun _ => trivial) fun _ _ => trivial
  have hsettle : Run (fun _ _ => True) deletedWorld _ :=
    Run.step .refl (.settle [] [] rfl (execute_scannedDb "e0" 6) rfl (by decide) (.inl rfl)) trivial
  obtain ⟨hrows, -⟩ := h "f0" _ _ _ deletionEntry begins_scannedWorld hrun List.mem_cons_self rfl
    hsettle
  -- `processing` before, `ready` after
  exact absurd (congrArg (List.map File.status) hrows) (by decide)

end Processing

end FileNest
