import FileNest.Processing.SingleOutcome
import FileNest.Uploads.Settlement

/-!
# State changes and the events that announce them

A transaction that settles, restores or deletes a file enqueues one event about it, of the
kind that goes with the new state, under the file's own organisation and project.  A
multipart abort fails the file and enqueues nothing.

## Main definitions

* `StateChange`, `StateChange.events` — the changes, and the events that may announce them.
* `Makes`, `Announces` — a transaction changes a file, and enqueues an event about it.
* `Corresponds` — the two go together.

## Main results

* `AnnouncesChange.corresponds` — a transaction that saves a file with its event corresponds.
* `lifecycle_events` — **every committed transaction does, exactly if it is no abort.**
-/

namespace FileNest

open RowStore

namespace Processing

/-- The changes of a file that subscribers are told of. -/
inductive StateChange where
  | processing | ready | failed | quarantined | deleted
  deriving DecidableEq

/-- The events that may announce a change. -/
def StateChange.events : StateChange → List String
  | processing => ["file.uploaded"]
  | ready => ["file.ready", "file.restored"]
  | failed => ["file.processing_failed"]
  | quarantined => ["file.quarantined"]
  | deleted => ["file.deleted"]

/-- The change that leaves a row as it is. -/
def changeOf (f : File) : Option StateChange :=
  if f.deletedAt.isSome then some .deleted
  else match f.status with
    | .processing => some .processing
    | .ready => some .ready
    | .failed => some .failed
    | .quarantined => some .quarantined
    | .pending | .uploading => none

/-- The events about a file among those enqueued. -/
def eventsAbout (i : String) (ws : List DbWrite) : List OutboxMessage :=
  (Outbox.enqueued ws).filter fun row => row.message.fileId == some i

/-- The event carries the organisation, project and id of the file. -/
structure Carries (row : OutboxMessage) (f : File) (event : String) : Prop where
  subject : row.subject = eventSubject f.organizationId f.projectId event
  fileId : row.message.fileId = some f.id
  organizationId : row.organizationId = f.organizationId
  projectId : row.projectId = f.projectId

/-- The transaction writes the row of a file and leaves it changed. -/
def Makes (snapshot : Database) (ws : List DbWrite) (i : String) (c : StateChange) : Prop :=
  ws.any (touchesFile i) = true ∧ ∃ f ∈ rowsOf (applyAll ws snapshot) i, changeOf f = some c

/-- The transaction enqueues exactly one event about a file, of the matching kind. -/
def Announces (ws : List DbWrite) (f : File) (c : StateChange) : Prop :=
  ∃ row, eventsAbout f.id ws = [row] ∧ ∃ event ∈ c.events,
    row.subject = eventSubject f.organizationId f.projectId event

/-- **Changes and events go together**, and every event is about a file, under its owner. -/
structure Corresponds (snapshot : Database) (ws : List DbWrite) : Prop where
  announced : ∀ f ∈ snapshot .files, ∀ c, Makes snapshot ws (File.id f) c ↔ Announces ws f c
  carries : ∀ row ∈ Outbox.enqueued ws, ∃ f ∈ snapshot .files, ∃ event, Carries row f event

/-! ### Transactions that save one file -/

/-- The transaction saves one file of the database it read, and writes no other. -/
structure SavesOne (snapshot : Database) (ws : List DbWrite) (record new : File) : Prop where
  mem : record ∈ snapshot .files
  live : record.deletedAt = none
  writes : ∃ pre post, ws = pre ++ record.save new :: post
    ∧ (∀ x ∈ pre, x.table ≠ .files) ∧ ∀ x ∈ post, x.table ≠ .files

/-- … and enqueues one event, about that file. -/
structure SavesWith (snapshot : Database) (ws : List DbWrite) (record new : File)
    (event : String) : Prop extends SavesOne snapshot ws record new where
  event : ∃ row, Outbox.enqueued ws = [row] ∧ Carries row record event

theorem touchesFile_of_table_ne {i : String} {x : DbWrite} (h : x.table ≠ .files) :
    touchesFile i x = false := by
  cases x with
  | insert t row => cases t <;> first | rfl | exact absurd rfl h
  | update t j f => cases t <;> first | rfl | exact absurd rfl h
  | delete t p => cases t <;> first | rfl | exact absurd rfl h

section Saves

variable {snapshot : Database} {ws : List DbWrite} {record new : File}

theorem SavesOne.touches (h : SavesOne snapshot ws record new) (i : String) :
    ws.any (touchesFile i) = (record.id == i) := by
  obtain ⟨pre, post, rfl, hpre, hpost⟩ := h.writes
  have hquiet : ∀ {xs : List DbWrite}, (∀ x ∈ xs, x.table ≠ .files) →
      xs.any (touchesFile i) = false := by
    intro xs hxs
    rw [List.any_eq_false]
    intro x hx
    rw [touchesFile_of_table_ne (hxs x hx)]
    exact Bool.false_ne_true
  rw [List.any_append, List.any_cons, hquiet hpre, hquiet hpost, Bool.false_or, Bool.or_false]
  rfl

/-- The row of the file after the transaction, on what it read. -/
theorem SavesOne.rowsOf_eq (h : SavesOne snapshot ws record new) (hgood : snapshot.Good) :
    rowsOf (applyAll ws snapshot) record.id = [(record.flush new).toFun record] := by
  obtain ⟨pre, post, rfl, hpre, hpost⟩ := h.writes
  have honly : rowsOf snapshot record.id = [record] := rowsOf_eq_singleton hgood h.mem
  have hid : ∀ f : File, (if f.id = record.id then ((record.flush new).toFun f : File) else f).id
      = f.id := by
    intro f
    split <;> rfl
  rw [rowsOf, applyAll_save pre hpre hpost, List.filter_map]
  have hfilter : (snapshot .files).filter ((fun f : File => f.id == record.id) ∘ fun f =>
      if f.id = record.id then (record.flush new).toFun f else f)
        = rowsOf snapshot record.id :=
    List.filter_congr fun f _ => by simp only [Function.comp, hid]
  rw [hfilter, honly, List.map_singleton, if_pos rfl]

theorem changeOf_flush (record new : File) :
    changeOf ((record.flush new).toFun record : File) = changeOf new := by
  have hdeleted : ((record.flush new).toFun record : File).deletedAt = new.deletedAt :=
    flushColumn_current _ _
  have hstatus : ((record.flush new).toFun record : File).status = new.status :=
    flushColumn_current _ _
  rw [changeOf, changeOf, hdeleted, hstatus]

/-- What a transaction makes of a file: the change it saves, and none of another file. -/
theorem SavesOne.makes_iff (h : SavesOne snapshot ws record new) (hgood : snapshot.Good)
    {i : String} {c : StateChange} :
    Makes snapshot ws i c ↔ i = record.id ∧ changeOf new = some c := by
  rw [Makes, h.touches, beq_iff_eq]
  constructor
  · rintro ⟨rfl, f, hf, hc⟩
    rw [h.rowsOf_eq hgood, List.mem_singleton] at hf
    rw [hf, changeOf_flush] at hc
    exact ⟨rfl, hc⟩
  · rintro ⟨rfl, hc⟩
    refine ⟨rfl, _, ?_, (changeOf_flush record new).trans hc⟩
    rw [h.rowsOf_eq hgood]
    exact List.mem_singleton_self _

theorem eventSubject_inj {o p e e' : String} (h : eventSubject o p e = eventSubject o p e') :
    e = e' := by
  have hlist := congrArg String.toList h
  simp only [eventSubject, String.toList_append, List.append_assoc, List.append_cancel_left_eq]
    at hlist
  exact String.toList_injective hlist

/-- An event announces one change. -/
theorem StateChange.eq_of_mem_events {c c' : StateChange} {event : String}
    (h : event ∈ c.events) (h' : event ∈ c'.events) : c = c' := by
  have hall : ∀ e ∈ c.events, e ∈ c'.events → c = c' := by
    cases c <;> cases c' <;> decide
  exact hall event h h'

/-- What a transaction announces: the event it enqueues, of the file it saves. -/
theorem SavesWith.announces_iff {event : String} (h : SavesWith snapshot ws record new event)
    (hgood : snapshot.Good) {c : StateChange} (hevent : event ∈ c.events) {f : File}
    (hf : f ∈ snapshot .files) {c' : StateChange} :
    Announces ws f c' ↔ f.id = record.id ∧ c' = c := by
  obtain ⟨row, hrow, hcarries⟩ := h.event
  rw [Announces, eventsAbout, hrow]
  have hid : (row.message.fileId == some f.id) = (record.id == f.id) := by
    rw [hcarries.fileId]
    rfl
  constructor
  · rintro ⟨row', hrow', event', hevent', hsubject⟩
    obtain ⟨rfl, habout⟩ := List.mem_filter.mp (hrow' ▸ List.mem_singleton_self row' :
      row' ∈ [row].filter _) |>.imp_left List.mem_singleton.mp
    rw [hid, beq_iff_eq] at habout
    obtain rfl : record = f := hgood.uniquePk.eq_of_pk (t := .files) h.mem hf habout
    rw [hcarries.subject] at hsubject
    obtain rfl := eventSubject_inj hsubject
    exact ⟨rfl, StateChange.eq_of_mem_events hevent' hevent⟩
  · rintro ⟨hfid, rfl⟩
    obtain rfl : f = record := hgood.uniquePk.eq_of_pk (t := .files) hf h.mem hfid
    refine ⟨row, ?_, event, hevent, hcarries.subject⟩
    rw [List.filter_singleton, hid, beq_self_eq_true]
    rfl

/-- **A transaction that saves a file with its event corresponds.** -/
theorem SavesWith.corresponds {event : String} (h : SavesWith snapshot ws record new event)
    (hgood : snapshot.Good) {c : StateChange} (hc : changeOf new = some c)
    (hevent : event ∈ c.events) : Corresponds snapshot ws where
  announced f hf c' := by
    rw [h.makes_iff hgood, h.announces_iff hgood hevent hf, hc, Option.some.injEq]
    exact and_congr_right fun _ => eq_comm
  carries row hrow := by
    obtain ⟨row', henq, hcarries⟩ := h.event
    rw [henq, List.mem_singleton] at hrow
    exact ⟨record, h.mem, event, hrow ▸ hcarries⟩

/-- The transaction saves a file with an event that announces its change. -/
def AnnouncesChange (snapshot : Database) (ws : List DbWrite) : Prop :=
  ∃ record new event c, SavesWith snapshot ws record new event ∧ changeOf new = some c
    ∧ event ∈ StateChange.events c

theorem AnnouncesChange.corresponds (h : AnnouncesChange snapshot ws) (hgood : snapshot.Good) :
    Corresponds snapshot ws := by
  obtain ⟨record, new, event, c, hsaves, hc, hevent⟩ := h
  exact hsaves.corresponds hgood hc hevent

/-- Its event is about the file it saves. -/
theorem AnnouncesChange.event_touches (h : AnnouncesChange snapshot ws) {row : OutboxMessage}
    (hrow : row ∈ Outbox.enqueued ws) :
    ∃ i, row.message.fileId = some i ∧ ws.any (touchesFile i) = true := by
  obtain ⟨record, new, event, c, hsaves, -, -⟩ := h
  obtain ⟨row', henq, hcarries⟩ := hsaves.event
  rw [henq, List.mem_singleton] at hrow
  refine ⟨record.id, hrow ▸ hcarries.fileId, ?_⟩
  rw [hsaves.touches, beq_self_eq_true]

/-- A change without an event does not. -/
theorem SavesOne.not_corresponds (h : SavesOne snapshot ws record new) (hgood : snapshot.Good)
    {c : StateChange} (hc : changeOf new = some c) (hnone : Outbox.enqueued ws = []) :
    ¬Corresponds snapshot ws := by
  intro hcorr
  have hmakes : Makes snapshot ws record.id c := (h.makes_iff hgood).mpr ⟨rfl, hc⟩
  obtain ⟨row, hrow, -⟩ := (hcorr.announced record h.mem c).mp hmakes
  rw [eventsAbout, hnone] at hrow
  cases hrow

end Saves

/-! ### The operations -/

section Operations

variable {ctx : TenantContext} {env : Env} {snapshot : Database} {projectId : String}
  {r : Response} {ws : List DbWrite}

theorem enqueued_append (ws vs : List DbWrite) :
    Outbox.enqueued (ws ++ vs) = Outbox.enqueued ws ++ Outbox.enqueued vs := by
  induction ws with
  | nil => rfl
  | cons x ws ih =>
    rw [List.cons_append]
    cases x with
    | insert t row =>
      cases t with
      | outboxMessages => exact congrArg (row :: ·) ih
      | _ => exact ih
    | update t i f => exact ih
    | delete t p => exact ih

theorem enqueued_of_table_ne {ws : List DbWrite} (h : ∀ x ∈ ws, x.table ≠ .outboxMessages) :
    Outbox.enqueued ws = [] := by
  rw [List.eq_nil_iff_forall_not_mem]
  intro row hrow
  exact h _ (Outbox.mem_enqueued.mp hrow) rfl

/-- The event row of an operation on a file of the caller's project. -/
theorem carries_publish {record : File} (ho : record.organizationId = ctx.organizationId)
    (hp : record.projectId = projectId) (event id : String) (now : ℕ) (payload : Fields)
    (hid : Fields.get? payload "file_id" = some (.str record.id)) :
    Carries { id := id, subject := eventSubject ctx.organizationId projectId event
              payload := .obj payload, createdAt := now, organizationId := ctx.organizationId
              projectId := projectId } record event where
  subject := by rw [ho, hp]
  fileId := by simp only [OutboxMessage.message, Message.fileId, hid]
  organizationId := ho.symm
  projectId := hp.symm

/-- What settling an upload writes. -/
theorem settleWrites_announcesChange {fileId : String} {config : ProjectConfig}
    {record : File} {version : Option String} {pre : List DbWrite}
    (hrecord : FileRepository.get snapshot fileId ctx.organizationId projectId = .ok record)
    (hpre : ∀ x ∈ pre, x.table ≠ .files ∧ x.table ≠ .outboxMessages) :
    AnnouncesChange snapshot (pre ++ settleWrites ctx env projectId config record version) := by
  obtain ⟨hmem, -, ho, hp, hlive⟩ := FileRepository.of_get hrecord
  have hversions : ∀ x ∈ settleVersions ctx env projectId record version,
      x.table = .fileVersions := fun x hx =>
    mem_settleVersions_table ctx env projectId record version hx
  have hsaves : SavesWith snapshot (pre ++ settleWrites ctx env projectId config record version)
      record (record.settled version (settledStatus config) env.now)
      (bif config.virusScanEnabled then "file.uploaded" else "file.ready") := by
    refine ⟨⟨hmem, hlive, pre ++ settleVersions ctx env projectId record version, _,
      (List.append_assoc ..).symm, fun x hx => ?_, by simp⟩, _, ?_,
      carries_publish ho hp _ (env.uuid4 1) env.now (settlePayload config record) ?_⟩
    · rcases List.mem_append.mp hx with hx | hx
      · exact (hpre x hx).1
      · rw [hversions x hx]
        decide
    · rw [settleWrites, enqueued_append, enqueued_append,
        enqueued_of_table_ne fun x hx => (hpre x hx).2,
        enqueued_of_table_ne fun x hx => by rw [hversions x hx]; decide]
      rfl
    · cases hscan : config.virusScanEnabled <;> rw [settlePayload, hscan] <;> rfl
  have hdeleted : (record.settled version (settledStatus config) env.now).deletedAt = none := by
    cases version <;> exact hlive
  have hstatus : (record.settled version (settledStatus config) env.now).status
      = settledStatus config := by cases version <;> rfl
  cases hscan : config.virusScanEnabled with
  | true =>
    refine ⟨_, _, _, .processing, hsaves, ?_, by rw [hscan]; decide⟩
    rw [changeOf, hdeleted, hstatus, settledStatus, hscan]
    rfl
  | false =>
    refine ⟨_, _, _, .ready, hsaves, ?_, by rw [hscan]; decide⟩
    rw [changeOf, hdeleted, hstatus, settledStatus, hscan]
    rfl

theorem confirmUpload_announcesChange {fileId : String}
    (h : FileService.confirmUpload ctx env snapshot projectId fileId = .ok (r, ws)) :
    AnnouncesChange snapshot ws := by
  obtain ⟨record, config, hrecord, -, -, rfl⟩ := FileService.confirmUpload_eq_ok.mp h
  rw [← List.nil_append (settleWrites ..)]
  exact settleWrites_announcesChange hrecord (by simp)

theorem complete_announcesChange {uploadId : String} {req : MultipartCompleteRequest}
    (h : MultipartUploadService.complete ctx env snapshot projectId uploadId req = .ok (r, ws)) :
    AnnouncesChange snapshot ws := by
  obtain ⟨session, record, config, provider, -, hrecord, -, -, -, -, -, rfl⟩ :=
    MultipartUploadService.complete_eq_ok.mp h
  rw [← List.singleton_append]
  exact settleWrites_announcesChange hrecord (by simp [UploadSession.save])

theorem restoreVersion_announcesChange {fileId versionId : String}
    (h : FileService.restoreVersion ctx env snapshot projectId fileId versionId = .ok (r, ws)) :
    AnnouncesChange snapshot ws := by
  simp only [FileService.restoreVersion, bind_eq_ok, pure_eq_ok, Prod.mk.injEq] at h
  obtain ⟨record, hrecord, version, -, -, rfl⟩ := h
  obtain ⟨hmem, -, ho, hp, hlive⟩ := FileRepository.of_get hrecord
  refine ⟨record, record.restored version env.now, "file.restored", .ready, ?_, ?_, by decide⟩
  · exact ⟨⟨hmem, hlive, [_], [_], rfl, by simp [versionRow],
      by simp [publish, TransactionalOutboxPublisher.publish]⟩, _, rfl,
      carries_publish ho hp _ _ _ _ rfl⟩
  rw [changeOf, show (record.restored version env.now).deletedAt = none from hlive]
  rfl

theorem deleteFile_announcesChange {fileId : String}
    (h : FileService.deleteFile ctx env snapshot projectId fileId = .ok (r, ws)) :
    AnnouncesChange snapshot ws := by
  simp only [FileService.deleteFile, bind_eq_ok, pure_eq_ok, Prod.mk.injEq] at h
  obtain ⟨record, hrecord, -, rfl⟩ := h
  obtain ⟨hmem, -, ho, hp, hlive⟩ := FileRepository.of_get hrecord
  refine ⟨record, FileRepository.softDelete record env.now, "file.deleted", .deleted, ?_, rfl,
    by decide⟩
  exact ⟨⟨hmem, hlive, [], [_], rfl, by simp,
    by simp [publish, TransactionalOutboxPublisher.publish]⟩, _, rfl,
    carries_publish ho hp _ _ _ _ rfl⟩

/-- An abort fails the file, and says nothing. -/
theorem abort_not_corresponds (hgood : snapshot.Good) {uploadId : String}
    (h : MultipartUploadService.abort ctx env snapshot projectId uploadId = .ok (r, ws)) :
    ¬Corresponds snapshot ws := by
  simp only [MultipartUploadService.abort, bind_eq_ok, pure_eq_ok, Prod.mk.injEq] at h
  obtain ⟨session, -, record, hrecord, _, -, -, -, -, rfl⟩ := h
  obtain ⟨hmem, -, -, -, hlive⟩ := FileRepository.of_get hrecord
  refine SavesOne.not_corresponds (?_ : SavesOne snapshot _ record
    (FileRepository.updateStatus record .failed env.now)) hgood (c := .failed) ?_ rfl
  · exact ⟨hmem, hlive, [_], [], rfl, by simp [UploadSession.save], by simp⟩
  rw [changeOf,
    show (FileRepository.updateStatus record .failed env.now).deletedAt = none from hlive]
  rfl

end Operations

/-! ### The runs of the pipeline -/

/-- What a run or failure handler commits. -/
theorem outcome_announcesChange {env : PipelineEnv} {snapshot : Database} {target : Target}
    {o : Outcome} (h : o.Terminal snapshot target) :
    AnnouncesChange snapshot (o.writes env target) := by
  obtain ⟨hmem, -, ho, hp, hlive⟩ := FileRepository.of_get h.get_eq
  have hsaves : SavesWith snapshot (o.writes env target) o.record (o.saved env.now) o.event :=
    ⟨⟨hmem, hlive, [], [_], rfl, by simp, by simp [TransactionalOutboxPublisher.publish]⟩, _, rfl,
      ⟨by rw [ho, hp], by simp only [OutboxMessage.message, Message.fileId, h.fileId_eq],
        ho.symm, hp.symm⟩⟩
  have hevent := h.event_eq
  have hchange : ∀ c, changeOf (o.saved env.now) = some c → o.event ∈ c.events →
      AnnouncesChange snapshot (o.writes env target) := fun c hc hevent =>
    ⟨_, _, _, c, hsaves, hc, hevent⟩
  have hdeleted : (o.saved env.now).deletedAt = none := hlive
  have hstatus : (o.saved env.now).status = o.status := rfl
  rw [changeOf, hdeleted, hstatus] at hchange
  cases hs : o.status with
  | ready | failed | quarantined =>
    rw [hs] at hevent hchange
    refine hchange _ rfl ?_
    rw [← Option.some.inj hevent]
    decide
  | _ =>
    rw [hs] at hevent
    cases hevent

/-! ### Every transaction -/

/-- The operations that settle, fail, restore or delete a file. -/
def movesFile : Operation → Bool
  | .confirmUpload _ | .multipartComplete _ _ | .multipartAbort _ | .restoreVersion _ _
  | .deleteFile _ => true
  | _ => false

/-- A commit of such an operation, or of a run of the pipeline. -/
def Commit.movesFile : Commit → Bool
  | .request call _ _ => Processing.movesFile call.op
  | .outcome _ _ _ _ | .failure _ _ _ _ => true

/-- What the transaction of a commit read. -/
def Commit.snapshot : Commit → Database
  | .request _ snapshot _ | .outcome _ _ snapshot _ | .failure _ _ snapshot _ => snapshot

/-- The commit of a multipart abort. -/
def Commit.aborts : Commit → Bool
  | .request call _ _ =>
      match call.op with
      | .multipartAbort _ => true
      | _ => false
  | .outcome _ _ _ _ | .failure _ _ _ _ => false

/-- The commit of a request. -/
theorem corresponds_request_iff {call : ServiceCall} {snapshot : Database} {ws : List DbWrite}
    (hgood : snapshot.Good) (hws : call.writes snapshot = some ws)
    (hmoves : movesFile call.op = true) :
    Corresponds snapshot ws ↔ (Commit.request call snapshot ws).aborts = false := by
  obtain ⟨r, hr⟩ := ServiceResult.writes_eq_some.mp hws
  obtain ⟨ctx, env, projectId, op⟩ := call
  cases op with
  | confirmUpload fileId =>
    exact iff_of_true ((confirmUpload_announcesChange hr).corresponds hgood) rfl
  | multipartComplete uploadId req =>
    exact iff_of_true ((complete_announcesChange hr).corresponds hgood) rfl
  | restoreVersion fileId versionId =>
    exact iff_of_true ((restoreVersion_announcesChange hr).corresponds hgood) rfl
  | deleteFile fileId => exact iff_of_true ((deleteFile_announcesChange hr).corresponds hgood) rfl
  | multipartAbort uploadId =>
    exact iff_of_false (abort_not_corresponds hgood hr) Bool.true_eq_false.mp
  | _ => cases hmoves

/-- **Changes and events go together exactly in transactions that are no abort**, in every
world of every run. -/
theorem lifecycle_events {allows : World → Label → Prop} {w₀ w w' : World} {e : Entry}
    (hstart : Consistent w₀) (hrun : Run allows w₀ w) (hstep : Step w (.commit e) w')
    (hmoves : e.what.movesFile = true) :
    Corresponds e.what.snapshot e.what.writes ↔ e.what.aborts = false := by
  have hw := hstart.run hrun
  obtain ⟨hsource, -, -, -, -, -, -⟩ := hstep.commits
  obtain ⟨what, readAt, committedAt⟩ := e
  cases hsource with
  | request hr hws => exact corresponds_request_iff (hw.requests _ hr).good hws hmoves
  | outcome hx ho =>
    have hgood := (hw.handlers _ hx _ _ rfl).good
    have hterminal := (PipelineExecutor.execute_eq_some ho).1
    exact iff_of_true ((outcome_announcesChange hterminal).corresponds hgood) rfl
  | failure hx ho =>
    have hgood := (hw.handlers _ hx _ _ rfl).good
    have hterminal := (PipelineExecutor.markFailed_eq_ok ho).1
    exact iff_of_true ((outcome_announcesChange hterminal).corresponds hgood) rfl

/-- The run that settles an upload says so. -/
theorem lifecycle_events_settled : Corresponds scannedDb scannedEntry.what.writes := by
  have hrun := scannedWorld_delivered_twice (fun _ _ => True) fun _ _ => trivial
  exact (lifecycle_events (e := scannedEntry) uploaded_scannedWorld.consistent hrun
    (.settle [] [_] rfl (execute_scannedDb "e0" 5) rfl (by decide) (.inl rfl)) rfl).mpr rfl

/-- A project and a multipart upload to it, under way. -/
def startedUpload : List ServiceCall :=
  [⟨orgContext "acme", devEnv "p" 1, "", .createProject devProject⟩,
   ⟨orgContext "acme", devEnv "m" 2, "p0", .multipartStart
     { filename := "a.mp4", contentType := "video/mp4", totalSizeBytes := 1 }⟩]

/-- An upload that is aborted: its file has failed, and no event says so. -/
theorem aborted_silently :
    ¬∀ (w₀ w w' : World) (e : Entry), Consistent w₀ → Run (fun _ _ => True) w₀ w →
      Step w (.commit e) w' → e.what.movesFile = true →
      Corresponds e.what.snapshot e.what.writes := by
  intro h
  let abort : ServiceCall := ⟨orgContext "acme", devEnv "x" 3, "p0", .multipartAbort "m1"⟩
  let start : World := { db := runAll startedUpload Database.empty }
  have hstart : Consistent start :=
    ⟨(reached_runAll .empty startedUpload).good, fun r hr => (by cases hr),
      fun x hx => (by cases hx)⟩
  have hread : Run (fun _ _ => True) start _ := Run.step .refl (.read abort) trivial
  obtain ⟨r, ws, hresult⟩ : ∃ r ws, abort.result start.db = .ok (r, ws) := ⟨_, _, rfl⟩
  have hws : abort.writes start.db = some ws := ServiceResult.writes_eq_some.mpr ⟨r, hresult⟩
  have hcorr := h start _ _ _ hstart hread (.commit [] [] rfl hws rfl ?_) rfl
  · exact abort_not_corresponds hstart.good hresult hcorr
  · cases hresult
    decide

end Processing

end FileNest
