import FileNest.Reachable

/-!
# What the operations do to files

Of the operations of the API only a few touch files and their versions, and they do it
in four ways: they create a pending file, change columns that are not its version count
(an abort also sets it failed), settle an upload, or restore a version.  What can happen
to a file over a run is read off these shapes.

## Main definitions

* `Quiet` — a write that is not about files and announces nothing of the pipeline.
* `settleWrites`, `File.restored` — what settling and restoring write.
* `FileEffect` — the shapes.

## Main results

* `Operation.fileEffect` — **every operation has one of them.**
-/

namespace FileNest

open RowStore

/-- The events the pipeline answers to and announces. -/
def pipelineEvents : List String :=
  ["file.uploaded", "file.ready", "file.quarantined", "file.processing_failed"]

/-- Events of which neither ends the other have different subjects. -/
theorem eventSubject_ne {o p e o' p' e' : String} (h : ¬e.toList <:+ e'.toList)
    (h' : ¬e'.toList <:+ e.toList) : eventSubject o p e ≠ eventSubject o' p' e' := by
  intro heq
  have htail : ∀ o p e, e.toList <:+ (eventSubject o p e).toList := fun o p e =>
    ⟨("filenest." ++ o ++ "." ++ p ++ ".").toList, by simp [eventSubject]⟩
  have hsuffix := htail o p e
  rw [heq] at hsuffix
  exact (List.suffix_or_suffix_of_suffix hsuffix (htail o' p' e')).elim h h'

/-- The write is not about files or versions, and enqueues no event of the pipeline. -/
structure Quiet (w : DbWrite) : Prop where
  files : w.table ≠ .files
  fileVersions : w.table ≠ .fileVersions
  events : ∀ row, w = .insert .outboxMessages row → ∀ e ∈ pipelineEvents, ∀ o p,
    row.subject ≠ eventSubject o p e

theorem quiet_of_table {w : DbWrite} (h : w.table ∉ [.files, .fileVersions, .outboxMessages]) :
    Quiet w := by
  simp only [List.mem_cons, List.not_mem_nil, or_false, not_or] at h
  exact ⟨h.1, h.2.1, fun row hw => absurd (by rw [hw]; rfl) h.2.2⟩

theorem quiet_publish {ctx : TenantContext} {env : Env} {projectId event : String} {draw : ℕ}
    {payload : Fields} (h : ∀ e ∈ pipelineEvents, ¬event.toList <:+ e.toList ∧
      ¬e.toList <:+ event.toList) : Quiet (publish ctx env projectId draw event payload) := by
  refine ⟨by simp [publish, TransactionalOutboxPublisher.publish],
    by simp [publish, TransactionalOutboxPublisher.publish], fun row hrow e he o p => ?_⟩
  cases hrow
  exact eventSubject_ne (h e he).1 (h e he).2

/-- A file with its version count moved on, if a version goes with it. -/
def File.counted (record : File) (version : Option String) : File :=
  match version with
  | some _ => { record with versionCount := record.versionCount + 1 }
  | none => record

/-- What a confirmed or completed upload leaves of a file. -/
def File.settled (record : File) (version : Option String) (status : FileStatus) (now : ℕ) : File :=
  FileRepository.updateStatus (record.counted version) status now

/-- The version rows a confirmed or completed upload adds. -/
def settleVersions (ctx : TenantContext) (env : Env) (projectId : String) (record : File)
    (version : Option String) : List DbWrite :=
  (version.map fun key => versionRow ctx env projectId 0 record.id (record.versionCount + 1) key
    record.sizeBytes record.contentType).toList

/-- What a restore leaves of a file. -/
def File.restored (record : File) (version : FileVersion) (now : ℕ) : File :=
  { record with
    storageKey := some version.storageKey
    sizeBytes := version.sizeBytes
    contentType := version.contentType
    status := .ready
    updatedAt := now
    versionCount := record.versionCount + 1 }

/-- The file whose upload an operation confirms or completes. -/
def Operation.confirmed (db : Database) (organizationId : String) : Operation → Option String
  | confirmUpload fileId => some fileId
  | multipartComplete uploadId _ =>
      match UploadSessionRepository.get db uploadId organizationId with
      | .ok session => some session.fileId
      | .error _ => none
  | _ => none

/-- The ways an operation touches files, given the database it read. -/
inductive FileEffect (ctx : TenantContext) (env : Env) (db : Database) (projectId : String) :
    Operation → List DbWrite → Prop
  /-- No file is touched. -/
  | none {op : Operation} {ws : List DbWrite}
      (hop : op.confirmed db ctx.organizationId = Option.none) (hws : ∀ w ∈ ws, Quiet w) :
      FileEffect ctx env db projectId op ws
  /-- A pending file is created. -/
  | create {op : Operation} {record : File} {rest : List DbWrite}
      (hop : op.confirmed db ctx.organizationId = Option.none)
      (hstatus : record.status = .pending) (hcount : record.versionCount = 0)
      (hrest : ∀ w ∈ rest, Quiet w) :
      FileEffect ctx env db projectId op (.insert .files record :: rest)
  /-- Columns other than the version count are changed; an abort fails the file. -/
  | modify {op : Operation} {fileId : String} {record new : File} (pre : List DbWrite)
      {post : List DbWrite}
      (hop : op.confirmed db ctx.organizationId = Option.none)
      (hrecord : FileRepository.get db fileId ctx.organizationId projectId = .ok record)
      (hstatus : new.status = record.status ∨ new.status = .failed)
      (hcount : new.versionCount = record.versionCount)
      (hpre : ∀ w ∈ pre, Quiet w) (hpost : ∀ w ∈ post, Quiet w) :
      FileEffect ctx env db projectId op (pre ++ record.save new :: post)
  /-- An upload is settled, with a version if versioning is on. -/
  | settle {op : Operation} {fileId : String} {record : File} {config : ProjectConfig}
      (version : Option String) {status : FileStatus} {event : DbWrite} {pre : List DbWrite}
      (hop : op.confirmed db ctx.organizationId = some record.id)
      (hrecord : FileRepository.get db fileId ctx.organizationId projectId = .ok record)
      (hconfig : ProjectConfigRepository.getForProject db projectId ctx.organizationId = .ok config)
      (hsettle : FileService.settleUpload ctx env projectId config record = (status, event))
      (hpre : ∀ w ∈ pre, Quiet w) :
      FileEffect ctx env db projectId op
        (pre ++ settleVersions ctx env projectId record version ++
          [record.save (record.settled version status env.now), event])
  /-- A version is restored. -/
  | restore {fileId versionId : String} {record : File} {version : FileVersion} {event : DbWrite}
      (hrecord : FileRepository.get db fileId ctx.organizationId projectId = .ok record)
      (hevent : Quiet event) :
      FileEffect ctx env db projectId (.restoreVersion fileId versionId)
        [versionRow ctx env projectId 0 record.id (record.versionCount + 1) version.storageKey
            version.sizeBytes version.contentType,
          record.save (record.restored version env.now), event]

section Effects

variable {ctx : TenantContext} {env : Env} {db : Database} {projectId : String}
  {op : Operation} {r : Response} {ws : List DbWrite}

/-- An operation that writes neither files, versions nor events. -/
theorem Sound.fileEffect {o p : String} {ts : List Table} (h : Sound o p ts db ws)
    (hop : op.confirmed db ctx.organizationId = none)
    (hts : ∀ t ∈ ts, t ∉ [Table.files, .fileVersions, .outboxMessages]) :
    FileEffect ctx env db projectId op ws :=
  FileEffect.none hop fun w hw => quiet_of_table (hts _ (h.tables w hw))

theorem FileService.initUpload_fileEffect {req : UploadInitRequest}
    (h : initUpload ctx env db projectId req = .ok (r, ws)) :
    FileEffect ctx env db projectId (.initUpload req) ws := by
  simp only [initUpload, bind_eq_ok, pure_eq_ok, Prod.mk.injEq] at h
  obtain ⟨config, -, _, -, -, -, -, -, _, -, _, -, -, rfl⟩ := h
  refine FileEffect.create rfl rfl rfl ?_
  exact List.forall_mem_singleton.mpr (quiet_publish (by decide))

theorem FileService.confirmUpload_fileEffect {fileId : String}
    (h : confirmUpload ctx env db projectId fileId = .ok (r, ws)) :
    FileEffect ctx env db projectId (.confirmUpload fileId) ws := by
  simp only [confirmUpload, bind_eq_ok] at h
  obtain ⟨record, hrecord, config, hconfig, h⟩ := h
  have hop : (Operation.confirmUpload fileId).confirmed db ctx.organizationId = some record.id :=
    congrArg some (FileRepository.of_get hrecord).2.1.symm
  split at h <;> simp only [pure_eq_ok, Prod.mk.injEq] at h <;> obtain ⟨-, rfl⟩ := h
  · rename_i key _ _
    exact FileEffect.settle (some key) hop hrecord hconfig rfl (List.forall_mem_nil _)
  · exact FileEffect.settle none hop hrecord hconfig rfl (List.forall_mem_nil _)

theorem FileService.restoreVersion_fileEffect {fileId versionId : String}
    (h : restoreVersion ctx env db projectId fileId versionId = .ok (r, ws)) :
    FileEffect ctx env db projectId (.restoreVersion fileId versionId) ws := by
  simp only [restoreVersion, bind_eq_ok, pure_eq_ok, Prod.mk.injEq] at h
  obtain ⟨record, hrecord, version, -, -, rfl⟩ := h
  exact FileEffect.restore hrecord (quiet_publish (by decide))

theorem FileService.deleteFile_fileEffect {fileId : String}
    (h : deleteFile ctx env db projectId fileId = .ok (r, ws)) :
    FileEffect ctx env db projectId (.deleteFile fileId) ws := by
  simp only [deleteFile, bind_eq_ok, pure_eq_ok, Prod.mk.injEq] at h
  obtain ⟨record, hrecord, -, rfl⟩ := h
  refine FileEffect.modify [] rfl hrecord (.inl rfl) rfl (List.forall_mem_nil _) ?_
  exact List.forall_mem_singleton.mpr (quiet_publish (by decide))

theorem FileService.modifyFile_fileEffect {fileId : String} {change : File → File}
    {respond : File → Response}
    (h : modifyFile ctx db projectId fileId change respond = .ok (r, ws))
    (hop : op.confirmed db ctx.organizationId = none)
    (hstatus : ∀ f, (change f).status = f.status)
    (hcount : ∀ f, (change f).versionCount = f.versionCount) :
    FileEffect ctx env db projectId op ws := by
  simp only [modifyFile, bind_eq_ok, pure_eq_ok, Prod.mk.injEq] at h
  obtain ⟨record, hrecord, -, rfl⟩ := h
  exact FileEffect.modify [] hop hrecord (.inl (hstatus record)) (hcount record)
    (List.forall_mem_nil _) (List.forall_mem_nil _)

theorem MultipartUploadService.start_fileEffect {req : MultipartStartRequest}
    (h : start ctx env db projectId req = .ok (r, ws)) :
    FileEffect ctx env db projectId (.multipartStart req) ws := by
  simp only [start, bind_eq_ok, pure_eq_ok, Prod.mk.injEq] at h
  obtain ⟨config, -, -, -, -, -, _, -, _, -, -, rfl⟩ := h
  refine FileEffect.create rfl rfl rfl ?_
  exact List.forall_mem_singleton.mpr (quiet_of_table (by simp))

/-- The write that saves an upload session. -/
theorem quiet_save_session {loaded new : UploadSession} : Quiet (loaded.save new) :=
  quiet_of_table (by simp [UploadSession.save])

theorem MultipartUploadService.complete_fileEffect {uploadId : String}
    {req : MultipartCompleteRequest}
    (h : complete ctx env db projectId uploadId req = .ok (r, ws)) :
    FileEffect ctx env db projectId (.multipartComplete uploadId req) ws := by
  simp only [complete, bind_eq_ok] at h
  obtain ⟨session, hsession, record, hrecord, config, hconfig, _, -, -, -, h⟩ := h
  have hop : (Operation.multipartComplete uploadId req).confirmed db ctx.organizationId
      = some record.id := by
    simp only [Operation.confirmed, hsession, (FileRepository.of_get hrecord).2.1]
  have hpre : ∀ w ∈ [session.save (UploadSessionRepository.markCompleted session
      req.parts.length)], Quiet w := List.forall_mem_singleton.mpr quiet_save_session
  split at h
  · split at h
    · rename_i key _
      simp only [pure_eq_ok, Prod.mk.injEq] at h
      obtain ⟨-, rfl⟩ := h
      exact FileEffect.settle (some key) hop hrecord hconfig rfl hpre
    · simp at h
  · simp only [pure_eq_ok, Prod.mk.injEq] at h
    obtain ⟨-, rfl⟩ := h
    exact FileEffect.settle none hop hrecord hconfig rfl hpre

theorem MultipartUploadService.abort_fileEffect {uploadId : String}
    (h : abort ctx env db projectId uploadId = .ok (r, ws)) :
    FileEffect ctx env db projectId (.multipartAbort uploadId) ws := by
  simp only [abort, bind_eq_ok, pure_eq_ok, Prod.mk.injEq] at h
  obtain ⟨session, -, record, hrecord, _, -, -, -, -, rfl⟩ := h
  exact FileEffect.modify [_] rfl hrecord (.inr rfl) rfl
    (List.forall_mem_singleton.mpr quiet_save_session) (List.forall_mem_nil _)

theorem MetadataService.updateMetadata_fileEffect {fileId : String} {metadata : Fields}
    (h : updateMetadata ctx env db projectId fileId metadata = .ok (r, ws)) :
    FileEffect ctx env db projectId (.updateMetadata fileId metadata) ws := by
  simp only [updateMetadata, bind_eq_ok] at h
  obtain ⟨_, -, h⟩ := h
  exact FileService.modifyFile_fileEffect h rfl (fun _ => rfl) (fun _ => rfl)

theorem MetadataService.mergeMetadata_fileEffect {fileId : String} {updates : Fields}
    (h : mergeMetadata ctx env db projectId fileId updates = .ok (r, ws)) :
    FileEffect ctx env db projectId (.mergeMetadata fileId updates) ws := by
  simp only [mergeMetadata, bind_eq_ok] at h
  obtain ⟨_, -, _, -, h⟩ := h
  exact FileService.modifyFile_fileEffect h rfl (fun _ => rfl) (fun _ => rfl)

/-- **Every operation has one of the shapes.** -/
theorem Operation.fileEffect (hdb : db.Good)
    (h : op.run ctx env db projectId = .ok (r, ws)) : FileEffect ctx env db projectId op ws := by
  have hsound := Operation.sound hdb h
  cases op with
  | initUpload req => exact FileService.initUpload_fileEffect h
  | confirmUpload fileId => exact FileService.confirmUpload_fileEffect h
  | restoreVersion fileId versionId => exact FileService.restoreVersion_fileEffect h
  | deleteFile fileId => exact FileService.deleteFile_fileEffect h
  | setTags fileId tags =>
    simp only [run, FileService.setTags] at h
    exact FileService.modifyFile_fileEffect h rfl (fun _ => rfl) (fun _ => rfl)
  | addTags fileId tags =>
    simp only [run, FileService.addTags] at h
    exact FileService.modifyFile_fileEffect h rfl (fun _ => rfl) (fun _ => rfl)
  | renameFile fileId req =>
    simp only [run, FileService.renameFile] at h
    exact FileService.modifyFile_fileEffect h rfl (fun _ => rfl) (fun _ => rfl)
  | moveFile fileId folderId =>
    simp only [run, FileService.moveFile] at h
    exact FileService.modifyFile_fileEffect h rfl (fun _ => rfl) (fun _ => rfl)
  | multipartStart req => exact MultipartUploadService.start_fileEffect h
  | multipartComplete uploadId req => exact MultipartUploadService.complete_fileEffect h
  | multipartAbort uploadId => exact MultipartUploadService.abort_fileEffect h
  | updateMetadata fileId metadata => exact MetadataService.updateMetadata_fileEffect h
  | mergeMetadata fileId metadata => exact MetadataService.mergeMetadata_fileEffect h
  -- the rest writes neither files, versions nor events
  | _ => exact hsound.fileEffect rfl (by simp [tables])

end Effects

/-! ### The tables after a commit -/

/-- The status of a settled upload and the event that goes with it. -/
theorem settleUpload_cases {ctx : TenantContext} {env : Env} {projectId : String}
    {config : ProjectConfig} {record : File} {status : FileStatus} {event : DbWrite}
    (h : FileService.settleUpload ctx env projectId config record = (status, event)) :
    ∃ name payload, event = publish ctx env projectId 1 name payload
      ∧ Fields.get? payload "file_id" = some (.str record.id)
      ∧ (config.virusScanEnabled = true ∧ status = .processing ∧ name = "file.uploaded"
        ∨ config.virusScanEnabled = false ∧ status = .ready ∧ name = "file.ready") := by
  simp only [FileService.settleUpload] at h
  split at h
  · rename_i hscan
    cases h
    exact ⟨_, _, rfl, rfl, .inl ⟨hscan, rfl, rfl⟩⟩
  · rename_i hscan
    cases h
    exact ⟨_, _, rfl, rfl, .inr ⟨by simpa using hscan, rfl, rfl⟩⟩

theorem settleUpload_table {ctx : TenantContext} {env : Env} {projectId : String}
    {config : ProjectConfig} {record : File} {status : FileStatus} {event : DbWrite}
    (h : FileService.settleUpload ctx env projectId config record = (status, event)) :
    event.table = .outboxMessages := by
  obtain ⟨name, payload, rfl, -⟩ := settleUpload_cases h
  rfl

/-- Saving a file changes the rows with its id, and no other. -/
theorem applyAll_save {record new : File} (pre : List DbWrite) {post : List DbWrite}
    (hpre : ∀ w ∈ pre, w.table ≠ .files) (hpost : ∀ w ∈ post, w.table ≠ .files) (db : Database) :
    applyAll (pre ++ record.save new :: post) db .files
      = (db .files).map fun (f : File) =>
          if f.id = record.id then (record.flush new).toFun f else f := by
  rw [applyAll_append, applyAll_cons, applyAll_of_table_ne hpost, File.save, apply_update_self,
    applyAll_of_table_ne hpre]
  rfl

theorem files_save (record new : File) (db : Database) :
    applyAll [record.save new] db .files = (db .files).map fun (f : File) =>
      if f.id = record.id then (record.flush new).toFun f else f :=
  applyAll_save [] (List.forall_mem_nil _) (List.forall_mem_nil _) db

/-- Writes about files, versions apart, with a version in front. -/
theorem applyAll_versionRow {v : FileVersion} (pre : List DbWrite) {post : List DbWrite}
    (hpre : ∀ w ∈ pre, w.table ≠ .fileVersions) (hpost : ∀ w ∈ post, w.table ≠ .fileVersions)
    (db : Database) : applyAll (pre ++ .insert .fileVersions v :: post) db .fileVersions
      = db .fileVersions ++ [v] := by
  rw [applyAll_append, applyAll_cons, applyAll_of_table_ne hpost, apply_insert_self,
    applyAll_of_table_ne hpre]

/-- What a loaded file was saved as. -/
inductive Change (ctx : TenantContext) (env : Env) (snapshot : Database) (projectId : String)
    (op : Operation) (ws : List DbWrite) (record new : File) : Prop
  | modify (hop : op.confirmed snapshot ctx.organizationId = none)
      (hstatus : new.status = record.status ∨ new.status = .failed)
  | settle {config : ProjectConfig} {event : DbWrite}
      (hop : op.confirmed snapshot ctx.organizationId = some record.id)
      (hconfig : ProjectConfigRepository.getForProject snapshot projectId ctx.organizationId
        = .ok config)
      (hsettle : FileService.settleUpload ctx env projectId config record = (new.status, event))
      (hevent : event ∈ ws)
  | restore {versionId : String} (hop : op = .restoreVersion record.id versionId)
      (hstatus : new.status = .ready)

/-- Where a row of the files comes from, after an operation has committed. -/
inductive RowEffect (ctx : TenantContext) (env : Env) (snapshot : Database) (projectId : String)
    (op : Operation) (ws : List DbWrite) (db : Database) (f' : File) : Prop
  | old (hf : f' ∈ db .files) (hop : op.confirmed snapshot ctx.organizationId ≠ some f'.id)
  | created (hstatus : f'.status = .pending)
  | changed {f record new : File} (hf : f ∈ db .files) (hid : f.id = record.id)
      (hrecord : FileRepository.get snapshot record.id ctx.organizationId projectId = .ok record)
      (hf' : f' = (record.flush new).toFun f)
      (hchange : Change ctx env snapshot projectId op ws record new)

section Rows

variable {ctx : TenantContext} {env : Env} {snapshot : Database} {projectId : String}
  {op : Operation} {ws : List DbWrite}

/-- Rows after a file has been saved. -/
theorem rowEffect_of_save {fileId : String} {record new f' : File} (pre : List DbWrite)
    {post : List DbWrite}
    (hpre : ∀ w ∈ pre, w.table ≠ .files) (hpost : ∀ w ∈ post, w.table ≠ .files) {db : Database}
    (hrecord : FileRepository.get snapshot fileId ctx.organizationId projectId = .ok record)
    (hop : ∀ i, op.confirmed snapshot ctx.organizationId = some i → i = record.id)
    (hchange : Change ctx env snapshot projectId op ws record new)
    (hf' : f' ∈ applyAll (pre ++ record.save new :: post) db .files) :
    RowEffect ctx env snapshot projectId op ws db f' := by
  rw [applyAll_save pre hpre hpost] at hf'
  obtain ⟨f, hf, rfl⟩ := List.mem_map.mp hf'
  split
  · rename_i hid
    have hget := (FileRepository.of_get hrecord).2.1
    exact .changed hf hid (hget ▸ hrecord) rfl hchange
  · rename_i hid
    exact .old hf fun hconf => hid (hop _ hconf)

/-- **Where rows come from**, for every shape. -/
theorem FileEffect.rowEffect (h : FileEffect ctx env snapshot projectId op ws) {db : Database}
    {f' : File} (hf' : f' ∈ applyAll ws db .files) :
    RowEffect ctx env snapshot projectId op ws db f' := by
  cases h with
  | none hop hws =>
    rw [applyAll_of_table_ne fun w hw => (hws w hw).files] at hf'
    exact .old hf' (by simp [hop])
  | create hop hstatus hcount hrest =>
    rw [applyAll_cons, applyAll_of_table_ne fun w hw => (hrest w hw).files, apply_insert_self,
      List.mem_append, List.mem_singleton] at hf'
    rcases hf' with hf' | rfl
    · exact .old hf' (by simp [hop])
    · exact .created hstatus
  | modify pre hop hrecord hstatus hcount hpre hpost =>
    exact rowEffect_of_save pre (fun w hw => (hpre w hw).files) (fun w hw => (hpost w hw).files)
      hrecord (by simp [hop]) (.modify hop hstatus) hf'
  | settle version hop hrecord hconfig hsettle hpre =>
    rename_i fileId record config status event pre
    have hevent := settleUpload_table hsettle
    refine rowEffect_of_save _ (fun w hw => ?_) (by simp [hevent]) hrecord
      (fun i hi => by simpa [hop] using hi.symm)
      (.settle hop hconfig hsettle (List.mem_append_right _ (by simp))) hf'
    rcases List.mem_append.mp hw with hw | hw
    · exact (hpre w hw).files
    · cases version with
      | none => cases hw
      | some key =>
        obtain rfl := List.mem_singleton.mp hw
        simp [versionRow]
  | restore hrecord hevent =>
    rename_i fileId versionId record version event
    have hget := (FileRepository.of_get hrecord).2.1
    exact rowEffect_of_save [_] (by simp [versionRow]) (by simpa using hevent.files)
      hrecord (fun i hi => by cases hi) (.restore (by rw [hget]) rfl) hf'

end Rows

end FileNest
