import FileNest.FileEffects

/-!
# Settling an upload

`confirm_upload` and a multipart completion end an upload in the same way: perhaps a
version, the file's new status, one event.  When they answer and what they write is said
here exactly, with the tables before and after.

## Main definitions

* `settledStatus`, `settleEvent` — the status and the event a configuration asks for.
* `settleWrites` — what both operations write about the file.

## Main results

* `FileService.confirmUpload_eq_ok`, `MultipartUploadService.complete_eq_ok` — **when the two
  operations answer, and what they write.**
* `applyAll_settleWrites_files`, … — the tables afterwards.
-/

namespace FileNest

open RowStore

/-- The status an upload is settled with. -/
def settledStatus (config : ProjectConfig) : FileStatus :=
  bif config.virusScanEnabled then .processing else .ready

/-- What the event of a settled upload says. -/
def settlePayload (config : ProjectConfig) (record : File) : Fields :=
  bif config.virusScanEnabled then
    [("file_id", .str record.id), ("filename", .str record.filename),
      ("storage_key", .optStr record.storageKey), ("content_type", .str record.contentType),
      ("size_bytes", .int record.sizeBytes)]
  else
    [("file_id", .str record.id), ("filename", .str record.filename),
      ("storage_key", .optStr record.storageKey)]

/-- The event of a settled upload. -/
def settleEvent (ctx : TenantContext) (projectId : String) (config : ProjectConfig) (record : File)
    (id : String) (now : ℕ) : OutboxMessage where
  id := id
  subject := eventSubject ctx.organizationId projectId
    (bif config.virusScanEnabled then "file.uploaded" else "file.ready")
  payload := .obj (settlePayload config record)
  createdAt := now
  organizationId := ctx.organizationId
  projectId := projectId

theorem settleUpload_eq (ctx : TenantContext) (env : Env) (projectId : String)
    (config : ProjectConfig) (record : File) :
    FileService.settleUpload ctx env projectId config record = (settledStatus config,
      .insert .outboxMessages (settleEvent ctx projectId config record (env.uuid4 1) env.now)) := by
  rw [FileService.settleUpload, settledStatus, settleEvent, settlePayload]
  cases config.virusScanEnabled <;> rfl

/-- The key `confirm_upload` makes a version of. -/
def confirmVersion (config : ProjectConfig) (record : File) : Option String :=
  bif config.versioningEnabled then orNone record.storageKey else none

/-- The key a multipart completion makes a version of. -/
def completeVersion (config : ProjectConfig) (record : File) : Option String :=
  bif config.versioningEnabled then record.storageKey else none

theorem confirmVersion_eq_some {config : ProjectConfig} {record : File} {key : String}
    (h : confirmVersion config record = some key) : record.storageKey = some key := by
  rw [confirmVersion] at h
  cases hversioning : config.versioningEnabled with
  | false =>
    rw [hversioning, cond_false] at h
    cases h
  | true =>
    rw [hversioning, cond_true] at h
    unfold orNone at h
    split at h
    · cases h
    · exact h

theorem completeVersion_eq_some {config : ProjectConfig} {record : File} {key : String}
    (h : completeVersion config record = some key) : record.storageKey = some key := by
  rw [completeVersion] at h
  cases hversioning : config.versioningEnabled with
  | false =>
    rw [hversioning, cond_false] at h
    cases h
  | true => rwa [hversioning, cond_true] at h

theorem completeVersion_of_versioning {config : ProjectConfig} {record : File} {key : String}
    (h : config.versioningEnabled = true) (hkey : record.storageKey = some key) :
    completeVersion config record = some key := by
  rw [completeVersion, h, cond_true, hkey]

theorem completeVersion_of_not_versioning {config : ProjectConfig} {record : File}
    (h : ¬config.versioningEnabled = true) : completeVersion config record = none := by
  rw [completeVersion, Bool.eq_false_of_not_eq_true h, cond_false]

section Settle

variable (ctx : TenantContext) (env : Env) (projectId : String) (config : ProjectConfig)
  (record : File) (version : Option String)

/-- What both operations write about the file. -/
def settleWrites : List DbWrite :=
  settleVersions ctx env projectId record version ++
    [record.save (record.settled version (settledStatus config) env.now),
     .insert .outboxMessages (settleEvent ctx projectId config record (env.uuid4 1) env.now)]

end Settle

section Settle

variable {ctx : TenantContext} {env : Env} {db : Database} {projectId : String}

/-- **When `confirm_upload` answers, and what it writes.** -/
theorem FileService.confirmUpload_eq_ok {fileId : String} {r : Response} {ws : List DbWrite} :
    confirmUpload ctx env db projectId fileId = .ok (r, ws) ↔ ∃ record config,
      FileRepository.get db fileId ctx.organizationId projectId = .ok record
      ∧ ProjectConfigRepository.getForProject db projectId ctx.organizationId = .ok config
      ∧ r = .confirmUpload record.id (settledStatus config)
      ∧ ws = settleWrites ctx env projectId config record (confirmVersion config record) := by
  simp only [confirmUpload, bind_eq_ok, settleUpload_eq]
  refine exists_congr fun record => ?_
  rw [← exists_and_left]
  refine exists_congr fun config => and_congr_right fun hrecord => and_congr_right fun hconfig => ?_
  rw [confirmVersion]
  cases config.versioningEnabled with
  | false =>
    simp only [pure_eq_ok, Prod.mk.injEq, cond_false]
    exact and_congr eq_comm eq_comm
  | true =>
    cases orNone record.storageKey with
    | none =>
      simp only [pure_eq_ok, Prod.mk.injEq, cond_true]
      exact and_congr eq_comm eq_comm
    | some key =>
      simp only [pure_eq_ok, Prod.mk.injEq, cond_true]
      exact and_congr eq_comm eq_comm

/-- **When a multipart completion answers, and what it writes.**  With versioning on, a file
without a key is turned away by the database. -/
theorem MultipartUploadService.complete_eq_ok {uploadId : String} {req : MultipartCompleteRequest}
    {r : Response} {ws : List DbWrite} :
    complete ctx env db projectId uploadId req = .ok (r, ws) ↔ ∃ session record config provider,
      UploadSessionRepository.get db uploadId ctx.organizationId = .ok session
      ∧ FileRepository.get db session.fileId ctx.organizationId projectId = .ok record
      ∧ ProjectConfigRepository.getForProject db projectId ctx.organizationId = .ok config
      ∧ getProvider ctx env db projectId = .ok provider
      ∧ env.storage.completeMultipartUpload provider record.storageKey session.s3UploadId req.parts
          = .ok ()
      ∧ (config.versioningEnabled = true → record.storageKey ≠ none)
      ∧ r = .multipartComplete record.id (settledStatus config)
      ∧ ws = session.save (UploadSessionRepository.markCompleted session req.parts.length)
          :: settleWrites ctx env projectId config record (completeVersion config record) := by
  simp only [complete, bind_eq_ok, settleUpload_eq]
  constructor
  · rintro ⟨session, hsession, record, hrecord, config, hconfig, provider, hprovider, _,
      hcomplete, h⟩
    refine ⟨session, record, config, provider, hsession, hrecord, hconfig, hprovider, hcomplete, ?_⟩
    split at h
    · rename_i hversioning
      split at h
      · rename_i key hkey
        simp only [pure_eq_ok, Prod.mk.injEq] at h
        rw [completeVersion_of_versioning hversioning hkey]
        exact ⟨fun _ hnone => Option.some_ne_none key (hkey.symm.trans hnone), h.1.symm, h.2.symm⟩
      · simp only [throw_ne_ok] at h
    · rename_i hversioning
      simp only [pure_eq_ok, Prod.mk.injEq] at h
      rw [completeVersion_of_not_versioning hversioning]
      exact ⟨fun hv => absurd hv hversioning, h.1.symm, h.2.symm⟩
  · rintro ⟨session, record, config, provider, hsession, hrecord, hconfig, hprovider, hcomplete,
      hkey, rfl, rfl⟩
    refine ⟨session, hsession, record, hrecord, config, hconfig, provider, hprovider, _,
      hcomplete, ?_⟩
    split
    · rename_i hversioning
      split
      · rename_i key hsome
        rw [completeVersion_of_versioning hversioning hsome]
        rfl
      · rename_i hnone
        exact absurd hnone (hkey hversioning)
    · rename_i hversioning
      rw [completeVersion_of_not_versioning hversioning]
      rfl

end Settle

/-! ### The tables afterwards -/

section Tables

variable (ctx : TenantContext) (env : Env) (projectId : String) (config : ProjectConfig)
  (record : File) (version : Option String) (db : Database)

theorem mem_settleVersions_table {w : DbWrite}
    (hw : w ∈ settleVersions ctx env projectId record version) : w.table = .fileVersions := by
  cases version with
  | none => cases hw
  | some key =>
    obtain rfl := List.mem_singleton.mp hw
    rfl

/-- The version row both operations add. -/
def settledVersion (key : String) : FileVersion where
  id := env.uuid4 0
  fileId := record.id
  organizationId := ctx.organizationId
  projectId := projectId
  versionNumber := record.versionCount + 1
  storageKey := key
  sizeBytes := record.sizeBytes
  contentType := record.contentType
  createdAt := env.now

theorem settleVersions_eq : settleVersions ctx env projectId record version
    = (version.map (settledVersion ctx env projectId record)).toList.map
      (Write.insert Table.fileVersions) := by
  cases version <;> rfl

/-- Saving a file that has not changed since it was loaded gives what was saved. -/
theorem flush_settled (status : FileStatus) (now : ℕ) :
    (record.flush (record.settled version status now)).toFun record
      = record.settled version status now := by
  cases version <;>
    simp [File.flush, File.settled, File.counted, FileRepository.updateStatus]

theorem applyAll_settleWrites_files :
    applyAll (settleWrites ctx env projectId config record version) db .files
      = (db .files).map fun (f : File) => if f.id = record.id then
          (record.flush (record.settled version (settledStatus config) env.now)).toFun f
            else f := by
  rw [settleWrites]
  have hpost : ∀ w ∈ ([.insert .outboxMessages
      (settleEvent ctx projectId config record (env.uuid4 1) env.now)] : List DbWrite),
      w.table ≠ .files := by simp
  refine applyAll_save _ (fun w hw => ?_) hpost db
  rw [mem_settleVersions_table ctx env projectId record version hw]
  simp

theorem applyAll_settleWrites_fileVersions :
    applyAll (settleWrites ctx env projectId config record version) db .fileVersions
      = db .fileVersions ++ (version.map (settledVersion ctx env projectId record)).toList := by
  have hrest : ∀ w ∈ [record.save (record.settled version (settledStatus config) env.now),
      Write.insert Table.outboxMessages
        (settleEvent ctx projectId config record (env.uuid4 1) env.now)],
      w.table ≠ .fileVersions := by simp [File.save]
  rw [settleWrites, applyAll_append, applyAll_of_table_ne hrest, settleVersions_eq]
  cases version with
  | none => exact (List.append_nil _).symm
  | some key =>
    exact apply_insert_self Table.fileVersions (settledVersion ctx env projectId record key) db

theorem applyAll_settleWrites_outboxMessages :
    applyAll (settleWrites ctx env projectId config record version) db .outboxMessages
      = db .outboxMessages ++
        [settleEvent ctx projectId config record (env.uuid4 1) env.now] := by
  have hpre : ∀ w ∈ settleVersions ctx env projectId record version ++
      [record.save (record.settled version (settledStatus config) env.now)],
      w.table ≠ .outboxMessages := by
    intro w hw
    rcases List.mem_append.mp hw with hw | hw
    · rw [mem_settleVersions_table ctx env projectId record version hw]
      simp
    · rw [List.mem_singleton.mp hw]
      simp [File.save]
  rw [settleWrites, ← List.singleton_append, ← List.append_assoc, applyAll_append, applyAll_cons,
    applyAll_nil, apply_insert_self, applyAll_of_table_ne hpre]

/-- Nothing else is touched. -/
theorem mem_settleWrites_table {w : DbWrite}
    (hw : w ∈ settleWrites ctx env projectId config record version) :
    w.table ∈ [Table.fileVersions, .files, .outboxMessages] := by
  rw [settleWrites] at hw
  rcases List.mem_append.mp hw with hw | hw
  · rw [mem_settleVersions_table ctx env projectId record version hw]
    exact List.mem_cons_self
  · simp only [List.mem_cons, List.not_mem_nil, or_false] at hw
    rcases hw with rfl | rfl
    · exact List.mem_cons_of_mem _ List.mem_cons_self
    · exact List.mem_cons_of_mem _ (List.mem_cons_of_mem _ List.mem_cons_self)

/-- The database takes both rows if their keys are free. -/
theorem admissible_settleWrites_iff :
    Admissible (settleWrites ctx env projectId config record version) db ↔
      (version ≠ none → ∀ v ∈ db .fileVersions, FileVersion.id v ≠ env.uuid4 0)
        ∧ ∀ e ∈ db .outboxMessages, OutboxMessage.id e ≠ env.uuid4 1 := by
  have houtbox : ∀ ws : List DbWrite, (∀ w ∈ ws, w.table ≠ .outboxMessages) →
      ((∀ e ∈ applyAll ws db .outboxMessages, OutboxMessage.id e ≠ env.uuid4 1) ↔
        ∀ e ∈ db .outboxMessages, OutboxMessage.id e ≠ env.uuid4 1) := by
    intro ws hws
    rw [applyAll_of_table_ne hws]
  cases version with
  | none =>
    have hafter := houtbox [record.save (record.settled none (settledStatus config) env.now)]
      (by simp [File.save])
    constructor
    · rintro ⟨-, hevent, -⟩
      exact ⟨fun h => absurd rfl h, hafter.mp hevent⟩
    · rintro ⟨-, hevent⟩
      exact ⟨trivial, hafter.mpr hevent, trivial⟩
  | some key =>
    have hafter := houtbox [versionRow ctx env projectId 0 record.id (record.versionCount + 1) key
        record.sizeBytes record.contentType,
      record.save (record.settled (some key) (settledStatus config) env.now)]
      (by simp [File.save, versionRow])
    constructor
    · rintro ⟨hversion, -, hevent, -⟩
      exact ⟨fun _ => hversion, hafter.mp hevent⟩
    · rintro ⟨hversion, hevent⟩
      exact ⟨hversion (Option.some_ne_none key), trivial, hafter.mpr hevent, trivial⟩

end Tables

end FileNest
