import FileNest.Processing.World
import FileNest.Uploads.Objects
import FileNest.Uploads.Settlement

/-!
# What an upload declares, and what is there

The size of a file is the one its upload declared: the limits of the project and of an
upload token were put to that number, and nothing compares it with the bytes that were put.
The key of a file is made of its ids.  Neither changes afterwards, and a version has the key
and size of its file.  Whether there is an object at the key is only seen by a run of the
pipeline, which downloads it: a confirmation that need not scan, and a restore, make a file
ready without looking.

## Main definitions

* `Upload`, `uploads` — the ids, the key and the size of the files.
* `Declares` — an operation begins an upload within its limits.
* `KeysFromIds` — keys come from ids; versions have the key and size of their file.
* `UploadWrite`, `UploadsKept` — what a write, and a commit, does to uploads.
* `StoredWorld`, `StoredRun` — the system with an object store that clients put to.

## Main results

* `Operation.uploadWrites` — **no operation changes a key or a size.**
* `ready_declared` — **what is known of a file that is ready.**
* `ready_without_object` — a file that is ready, and nothing is there.
-/

namespace FileNest

open RowStore ReadCommitted

/-- What an upload declares of its file, with the key it is given. -/
structure Upload where
  id : String
  organizationId : String
  projectId : String
  storageKey : Option String
  sizeBytes : ℤ
  deriving DecidableEq

/-- The upload of a file. -/
def File.upload (f : File) : Upload :=
  ⟨f.id, f.organizationId, f.projectId, f.storageKey, f.sizeBytes⟩

/-- The uploads of the files on record. -/
def uploads (db : Database) : List Upload := (db .files).map File.upload

/-- The version has the file, the key and the size of the upload. -/
structure FileVersion.Of (v : FileVersion) (u : Upload) : Prop where
  id_eq : u.id = v.fileId
  storageKey_eq : u.storageKey = some v.storageKey
  sizeBytes_eq : u.sizeBytes = v.sizeBytes

/-- Keys come from ids, and versions have the key and the size of their file. -/
structure KeysFromIds (db : Database) : Prop where
  files : ∀ u ∈ uploads db, u.storageKey = some (storageKey u.organizationId u.projectId u.id)
  versions : ∀ v ∈ db .fileVersions, ∃ u ∈ uploads db, FileVersion.Of v u

/-- The size is within the limit of the project, as the database read has it. -/
def WithinLimit (ctx : TenantContext) (db : Database) (projectId : String) (sizeBytes : ℤ) : Prop :=
  ∃ config, ProjectConfigRepository.getForProject db projectId ctx.organizationId = .ok config
    ∧ ∀ m, config.maxFileSizeBytes = some m → m ≠ 0 → sizeBytes ≤ m

/-- An operation begins the upload: the size is the one the request declares, and within the
limits it is put to. -/
inductive Declares (ctx : TenantContext) (env : Env) (db : Database) (projectId : String) :
    Operation → Upload → Prop
  | init {req : UploadInitRequest} (hproject : WithinLimit ctx db projectId req.sizeBytes)
      (htoken : ctx.isUploadToken = true →
        ∀ m, ctx.uploadTokenMaxSize = some m → req.sizeBytes ≤ m) :
      Declares ctx env db projectId (.initUpload req)
        ⟨env.uuid4 0, ctx.organizationId, projectId,
          some (storageKey ctx.organizationId projectId (env.uuid4 0)), req.sizeBytes⟩
  | start {req : MultipartStartRequest}
      (hproject : WithinLimit ctx db projectId req.totalSizeBytes) :
      Declares ctx env db projectId (.multipartStart req)
        ⟨env.uuid4 0, ctx.organizationId, projectId,
          some (storageKey ctx.organizationId projectId (env.uuid4 0)), req.totalSizeBytes⟩

/-- What a write does to uploads and versions: it begins an upload, saves a file with its key
and size as they were, or adds a version of an upload that was read. -/
inductive UploadWrite (declares : Upload → Prop) (snapshot : Database) : DbWrite → Prop
  | other {w : DbWrite} (hfiles : w.table ≠ .files) (hversions : w.table ≠ .fileVersions) :
      UploadWrite declares snapshot w
  | create {record : File} (h : declares record.upload) :
      UploadWrite declares snapshot (.insert .files record)
  | save {record new : File} (hkey : new.storageKey = record.storageKey)
      (hsize : new.sizeBytes = record.sizeBytes) :
      UploadWrite declares snapshot (record.save new)
  | version {v : FileVersion} {u : Upload} (hu : u ∈ uploads snapshot) (hv : v.Of u) :
      UploadWrite declares snapshot (.insert .fileVersions v)

/-- What a commit does to uploads and versions. -/
structure UploadsKept (declares : Upload → Prop) (snapshot db db' : Database) : Prop where
  kept : ∀ u ∈ uploads db, u ∈ uploads db'
  new : ∀ u ∈ uploads db', u ∈ uploads db ∨ declares u
  versions : ∀ v ∈ db' .fileVersions, v ∈ db .fileVersions
    ∨ ∃ u ∈ uploads snapshot, FileVersion.Of v u

section Writes

variable {declares : Upload → Prop} {snapshot db db' db'' : Database} {ws : List DbWrite}

theorem UploadsKept.refl : UploadsKept declares snapshot db db :=
  ⟨fun _ hu => hu, fun _ hu => Or.inl hu, fun _ hv => Or.inl hv⟩

theorem UploadsKept.trans (h : UploadsKept declares snapshot db db')
    (h' : UploadsKept declares snapshot db' db'') : UploadsKept declares snapshot db db'' := by
  refine ⟨fun u hu => h'.kept u (h.kept u hu), fun u hu => ?_, fun v hv => ?_⟩
  · rcases h'.new u hu with hu | hu
    · exact h.new u hu
    · exact Or.inr hu
  · rcases h'.versions v hv with hv | hv
    · exact h.versions v hv
    · exact Or.inr hv

/-- Uploads and versions that are where they were. -/
theorem UploadsKept.of_eq (hfiles : uploads db' = uploads db)
    (hversions : db' .fileVersions = db .fileVersions) : UploadsKept declares snapshot db db' :=
  ⟨fun _ hu => hfiles ▸ hu, fun _ hu => Or.inl (hfiles ▸ hu), fun _ hv => Or.inl (hversions ▸ hv)⟩

/-- Saving a file with its key and size as they were. -/
theorem upload_flush {record new : File} (hkey : new.storageKey = record.storageKey)
    (hsize : new.sizeBytes = record.sizeBytes) (f : File) :
    File.upload ((record.flush new).toFun f) = f.upload := by
  simp only [File.upload, File.flush, hkey, hsize, flushColumn_self]

/-- **One write.** -/
theorem UploadWrite.kept {w : DbWrite} (h : UploadWrite declares snapshot w) :
    UploadsKept declares snapshot db (w.apply db) := by
  cases h with
  | other hfiles hversions =>
    refine .of_eq ?_ (apply_of_table_ne hversions db)
    rw [uploads, apply_of_table_ne hfiles, uploads]
  | @create record h =>
    have hfiles : uploads ((Write.insert Table.files record).apply db)
        = uploads db ++ [record.upload] := by
      rw [uploads, apply_insert_self, List.map_append, uploads, List.map_singleton]
    refine ⟨fun u hu => ?_, fun u hu => ?_, fun v hv => Or.inl ?_⟩
    · rw [hfiles]
      exact List.mem_append_left _ hu
    · rw [hfiles, List.mem_append, List.mem_singleton] at hu
      exact hu.imp_right fun heq : u = record.upload => heq ▸ h
    · rwa [apply_of_table_ne (by simp)] at hv
  | @save record new hkey hsize =>
    have hother : (record.save new).table ≠ .fileVersions := by simp [File.save]
    refine .of_eq ?_ (apply_of_table_ne hother db)
    rw [uploads, File.save, apply_update_self, List.map_map, uploads]
    refine List.map_congr_left fun (f : File) _ => ?_
    simp only [Function.comp]
    split
    · exact upload_flush hkey hsize f
    · rfl
  | @version v u hu hv =>
    refine ⟨fun u hu => ?_, fun u hu => Or.inl ?_, fun v' hv' => ?_⟩
    · rwa [uploads, apply_of_table_ne (by simp)]
    · rwa [uploads, apply_of_table_ne (by simp)] at hu
    · rw [apply_insert_self, List.mem_append, List.mem_singleton] at hv'
      exact hv'.imp_right fun heq : v' = v => heq ▸ ⟨u, hu, hv⟩

/-- A transaction. -/
theorem UploadsKept.applyAll (h : ∀ w ∈ ws, UploadWrite declares snapshot w) (db : Database) :
    UploadsKept declares snapshot db (applyAll ws db) := by
  induction ws generalizing db with
  | nil => exact .refl
  | cons w ws ih =>
    rw [applyAll_cons]
    exact (h w List.mem_cons_self).kept.trans (ih (fun x hx => h x (List.mem_cons_of_mem _ hx)) _)

/-- Keys stay what they were made of. -/
theorem KeysFromIds.kept (h : KeysFromIds db) (hkept : UploadsKept declares snapshot db db')
    (hdeclares : ∀ u, declares u →
      u.storageKey = some (storageKey u.organizationId u.projectId u.id))
    (hread : ∀ u ∈ uploads snapshot, u ∈ uploads db) : KeysFromIds db' := by
  constructor
  · intro u hu
    rcases hkept.new u hu with hu | hu
    · exact h.files u hu
    · exact hdeclares u hu
  · intro v hv
    rcases hkept.versions v hv with hv | ⟨u, hu, hof⟩
    · obtain ⟨u, hu, hof⟩ := h.versions v hv
      exact ⟨u, hkept.kept u hu, hof⟩
    · exact ⟨u, hkept.kept u (hread u hu), hof⟩

end Writes

/-! ### Operations -/

theorem le_of_checkSize {config : ProjectConfig} {sizeBytes : ℤ}
    (h : checkSize config sizeBytes = .ok ()) :
    ∀ m, config.maxFileSizeBytes = some m → m ≠ 0 → sizeBytes ≤ m := by
  intro m hm hne
  rw [checkSize, hm] at h
  by_contra hlt
  simp only [hne, not_le.mp hlt, ne_eq, not_false_eq_true, and_self, if_true, throw_ne_ok] at h

section Operations

variable {ctx : TenantContext} {env : Env} {db : Database} {projectId : String} {op : Operation}
  {r : Response} {ws : List DbWrite} {declares : Upload → Prop}

/-- The key an upload is given is made of its ids. -/
theorem Declares.storageKey_eq {u : Upload} (h : Declares ctx env db projectId op u) :
    u.storageKey = some (storageKey u.organizationId u.projectId u.id) := by
  cases h <;> rfl

/-- An event is no upload. -/
theorem UploadWrite.event {draw : ℕ} {event : String} {payload : Fields} :
    UploadWrite declares db (publish ctx env projectId draw event payload) :=
  .other (by simp [publish, TransactionalOutboxPublisher.publish])
    (by simp [publish, TransactionalOutboxPublisher.publish])

/-- An upload the project admits is within its limit. -/
theorem ProjectAdmits.withinLimit {filename contentType : String} {sizeBytes : ℤ}
    {config : ProjectConfig} {provider : StorageProvider}
    (h : ProjectAdmits ctx env db projectId filename contentType sizeBytes config provider) :
    WithinLimit ctx db projectId sizeBytes := by
  have hvalidates := h.validates
  simp only [validateUploadRequest, bind_eq_ok] at hvalidates
  obtain ⟨_, hsize, -⟩ := hvalidates
  exact ⟨config, h.config_eq, le_of_checkSize hsize⟩

theorem FileService.initUpload_uploadWrites {req : UploadInitRequest}
    (h : initUpload ctx env db projectId req = .ok (r, ws)) :
    ∀ w ∈ ws, UploadWrite (Declares ctx env db projectId (.initUpload req)) db w := by
  obtain ⟨config, provider, url, hadmits, htoken, -, -, rfl⟩ := initUpload_eq_ok.mp h
  intro w hw
  simp only [List.mem_cons, List.not_mem_nil, or_false] at hw
  rcases hw with rfl | rfl
  · exact .create (.init hadmits.withinLimit fun ht m hm => (htoken ht).maxSize m hm)
  · exact .event

theorem MultipartUploadService.start_uploadWrites {req : MultipartStartRequest}
    (h : start ctx env db projectId req = .ok (r, ws)) :
    ∀ w ∈ ws, UploadWrite (Declares ctx env db projectId (.multipartStart req)) db w := by
  obtain ⟨config, provider, _, hadmits, -, -, rfl⟩ := start_eq_ok.mp h
  intro w hw
  simp only [List.mem_cons, List.not_mem_nil, or_false] at hw
  rcases hw with rfl | rfl
  · exact .create (.start hadmits.withinLimit)
  · exact .other (by simp) (by simp)

/-- Settling an upload makes its version, if any, of the file that was read. -/
theorem settleWrites_uploadWrites {config : ProjectConfig} {record : File}
    {version : Option String} (hrecord : record ∈ db .files)
    (hversion : ∀ key, version = some key → record.storageKey = some key) :
    ∀ w ∈ settleWrites ctx env projectId config record version, UploadWrite declares db w := by
  intro w hw
  rw [settleWrites] at hw
  rcases List.mem_append.mp hw with hw | hw
  · cases version with
    | none => cases hw
    | some key =>
      obtain rfl := List.mem_singleton.mp hw
      exact .version (List.mem_map_of_mem hrecord) ⟨rfl, hversion key rfl, rfl⟩
  · simp only [List.mem_cons, List.not_mem_nil, or_false] at hw
    rcases hw with rfl | rfl
    · cases version <;> exact .save rfl rfl
    · exact .other (by simp) (by simp)

theorem FileService.confirmUpload_uploadWrites {fileId : String}
    (h : confirmUpload ctx env db projectId fileId = .ok (r, ws)) :
    ∀ w ∈ ws, UploadWrite declares db w := by
  obtain ⟨record, config, hrecord, -, -, rfl⟩ := confirmUpload_eq_ok.mp h
  refine settleWrites_uploadWrites (FileRepository.of_get hrecord).1 fun key hkey => ?_
  exact confirmVersion_eq_some hkey

theorem MultipartUploadService.complete_uploadWrites {uploadId : String}
    {req : MultipartCompleteRequest}
    (h : complete ctx env db projectId uploadId req = .ok (r, ws)) :
    ∀ w ∈ ws, UploadWrite declares db w := by
  obtain ⟨session, record, config, provider, -, hrecord, -, -, -, -, -, rfl⟩ := complete_eq_ok.mp h
  intro w hw
  rcases List.mem_cons.mp hw with rfl | hw
  · exact .other (by simp [UploadSession.save]) (by simp [UploadSession.save])
  · refine settleWrites_uploadWrites (FileRepository.of_get hrecord).1 (fun key hkey => ?_) w hw
    exact completeVersion_eq_some hkey

theorem MultipartUploadService.abort_uploadWrites {uploadId : String}
    (h : abort ctx env db projectId uploadId = .ok (r, ws)) :
    ∀ w ∈ ws, UploadWrite declares db w := by
  simp only [abort, bind_eq_ok, pure_eq_ok, Prod.mk.injEq] at h
  obtain ⟨session, -, record, -, _, -, -, -, -, rfl⟩ := h
  intro w hw
  simp only [List.mem_cons, List.not_mem_nil, or_false] at hw
  rcases hw with rfl | rfl
  · exact .other (by simp [UploadSession.save]) (by simp [UploadSession.save])
  · exact .save rfl rfl

/-- A restore takes key and size from a version of the file: they are the file's. -/
theorem FileService.restoreVersion_uploadWrites (hdb : db.Good) (hkeys : KeysFromIds db)
    {fileId versionId : String}
    (h : restoreVersion ctx env db projectId fileId versionId = .ok (r, ws)) :
    ∀ w ∈ ws, UploadWrite declares db w := by
  simp only [restoreVersion, bind_eq_ok, pure_eq_ok, Prod.mk.injEq] at h
  obtain ⟨record, hrecord, version, hversion, -, rfl⟩ := h
  obtain ⟨hmem, hid, -⟩ := FileRepository.of_get hrecord
  obtain ⟨hvmem, -, hvfile, -⟩ := FileVersionRepository.of_get hversion
  obtain ⟨u, hu, hof⟩ := hkeys.versions version hvmem
  obtain ⟨f, hf, rfl⟩ := List.mem_map.mp hu
  -- the upload the version is of is that of the row loaded
  obtain rfl : f = record := by
    refine hdb.uniquePk.eq_of_pk (t := .files) hf hmem ?_
    exact hof.id_eq.trans (hvfile.trans hid.symm)
  have hkey : f.storageKey = some version.storageKey := hof.storageKey_eq
  have hsize : f.sizeBytes = version.sizeBytes := hof.sizeBytes_eq
  intro w hw
  simp only [List.mem_cons, List.not_mem_nil, or_false] at hw
  rcases hw with rfl | rfl | rfl
  · exact .version hu ⟨rfl, hkey, hsize⟩
  · exact .save hkey.symm hsize.symm
  · exact .event

theorem FileService.deleteFile_uploadWrites {fileId : String}
    (h : deleteFile ctx env db projectId fileId = .ok (r, ws)) :
    ∀ w ∈ ws, UploadWrite declares db w := by
  simp only [deleteFile, bind_eq_ok, pure_eq_ok, Prod.mk.injEq] at h
  obtain ⟨record, -, -, rfl⟩ := h
  intro w hw
  simp only [List.mem_cons, List.not_mem_nil, or_false] at hw
  rcases hw with rfl | rfl
  · exact .save rfl rfl
  · exact .event

theorem FileService.modifyFile_uploadWrites {fileId : String} {change : File → File}
    {respond : File → Response}
    (h : modifyFile ctx db projectId fileId change respond = .ok (r, ws))
    (hkey : ∀ f, (change f).storageKey = f.storageKey)
    (hsize : ∀ f, (change f).sizeBytes = f.sizeBytes) : ∀ w ∈ ws, UploadWrite declares db w := by
  simp only [modifyFile, bind_eq_ok, pure_eq_ok, Prod.mk.injEq] at h
  obtain ⟨record, -, -, rfl⟩ := h
  intro w hw
  obtain rfl := List.mem_singleton.mp hw
  exact .save (hkey record) (hsize record)

/-- **No operation changes a key or a size**: an operation begins an upload within its limits,
saves files with their keys and sizes, and adds versions of uploads it has read. -/
theorem Operation.uploadWrites (hdb : db.Good) (hkeys : KeysFromIds db)
    (h : op.run ctx env db projectId = .ok (r, ws)) :
    ∀ w ∈ ws, UploadWrite (Declares ctx env db projectId op) db w := by
  have hsound := Operation.sound hdb h
  cases op with
  | initUpload req => exact FileService.initUpload_uploadWrites h
  | confirmUpload fileId => exact FileService.confirmUpload_uploadWrites h
  | restoreVersion fileId versionId => exact FileService.restoreVersion_uploadWrites hdb hkeys h
  | deleteFile fileId => exact FileService.deleteFile_uploadWrites h
  | setTags fileId tags =>
    simp only [run, FileService.setTags] at h
    exact FileService.modifyFile_uploadWrites h (fun _ => rfl) (fun _ => rfl)
  | addTags fileId tags =>
    simp only [run, FileService.addTags] at h
    exact FileService.modifyFile_uploadWrites h (fun _ => rfl) (fun _ => rfl)
  | renameFile fileId req =>
    simp only [run, FileService.renameFile] at h
    exact FileService.modifyFile_uploadWrites h (fun _ => rfl) (fun _ => rfl)
  | moveFile fileId folderId =>
    simp only [run, FileService.moveFile] at h
    exact FileService.modifyFile_uploadWrites h (fun _ => rfl) (fun _ => rfl)
  | updateMetadata fileId metadata =>
    simp only [run, MetadataService.updateMetadata, bind_eq_ok] at h
    obtain ⟨_, -, h⟩ := h
    exact FileService.modifyFile_uploadWrites h (fun _ => rfl) (fun _ => rfl)
  | mergeMetadata fileId metadata =>
    simp only [run, MetadataService.mergeMetadata, bind_eq_ok] at h
    obtain ⟨_, -, _, -, h⟩ := h
    exact FileService.modifyFile_uploadWrites h (fun _ => rfl) (fun _ => rfl)
  | multipartStart req => exact MultipartUploadService.start_uploadWrites h
  | multipartComplete uploadId req => exact MultipartUploadService.complete_uploadWrites h
  | multipartAbort uploadId => exact MultipartUploadService.abort_uploadWrites h
  -- the rest writes neither files nor versions
  | _ =>
    intro w hw
    have htable := hsound.tables w hw
    refine .other (fun heq => ?_) fun heq => ?_ <;>
      · rw [heq] at htable
        simp [tables] at htable

end Operations

/-! ### The system with an object store -/

namespace Processing

/-- The system, and what has been put to the object store, newest first. -/
structure StoredWorld where
  sys : World
  puts : List (String × Bytes) := []

/-- The object at a key. -/
def StoredWorld.object (w : StoredWorld) (key : String) : Option Bytes := w.puts.lookup key

/-- A run that commits has downloaded what was put at some time. -/
def Downloads (puts : List (String × Bytes)) : Label → Prop
  | .commit ⟨.outcome env _ _ _, _, _⟩ => ∀ provider key content,
      env.downloadBytes provider (some key) = .ok content → (key, content) ∈ puts
  | _ => True

/-- One step: of the system, whose requests delete no object, or a `PUT` of any bytes to any
key. -/
inductive StoredStep (w : StoredWorld) : StoredWorld → Prop
  | system {l : Label} {sys : World} (hs : Step w.sys l sys) (hdown : Downloads w.puts l)
      (hkeeps : ∀ r ∈ sys.requests, r.call.op.keepsObjects = true) :
      StoredStep w { w with sys := sys }
  | put (key : String) (bytes : Bytes) : StoredStep w { w with puts := (key, bytes) :: w.puts }

/-- A run. -/
def StoredRun : StoredWorld → StoredWorld → Prop := Relation.ReflTransGen StoredStep

/-- Nothing has happened yet. -/
def StoredWorld.empty : StoredWorld := { sys := { db := Database.empty } }

/-- The commit begins the upload. -/
def Commit.Declares (u : Upload) : Commit → Prop
  | .request call snapshot _ =>
    FileNest.Declares call.ctx call.env snapshot call.projectId call.op u
  | _ => False

/-- The commit of a run that makes the file ready. -/
def Commit.RunReadies (i : String) : Commit → Prop
  | .outcome _ target _ o => target.fileId = i ∧ o.status = .ready
  | _ => False

/-- The commit makes the file ready: a confirmation or completion that found the scan off, a
restore, or a run. -/
inductive Commit.Readies (i : String) : Commit → Prop
  | settle {call : ServiceCall} {snapshot : Database} {writes : List DbWrite}
      {config : ProjectConfig} (hop : call.op.confirmed snapshot call.ctx.organizationId = some i)
      (hconfig : ProjectConfigRepository.getForProject snapshot call.projectId
        call.ctx.organizationId = .ok config)
      (hscan : config.virusScanEnabled = false) : Commit.Readies i (.request call snapshot writes)
  | restore {call : ServiceCall} {snapshot : Database} {writes : List DbWrite} {versionId : String}
      (hop : call.op = .restoreVersion i versionId) :
      Commit.Readies i (.request call snapshot writes)
  | run {c : Commit} (h : c.RunReadies i) : Commit.Readies i c

/-- A database that was read, as far as uploads go. -/
structure UploadsRead (snapshot db : Database) : Prop where
  keys : KeysFromIds snapshot
  kept : ∀ u ∈ uploads snapshot, u ∈ uploads db

/-- What holds in every world of a run. -/
structure Traced (w : StoredWorld) : Prop where
  consistent : Consistent w.sys
  keys : KeysFromIds w.sys.db
  requests : ∀ r ∈ w.sys.requests, UploadsRead r.snapshot w.sys.db
  handlers : ∀ x ∈ w.sys.handlers, ∀ snapshot n, x.phase.read = some (snapshot, n) →
    UploadsRead snapshot w.sys.db
  declared : ∀ u ∈ uploads w.sys.db, ∃ e ∈ w.sys.log, e.what.Declares u
  ready : ∀ f ∈ w.sys.db .files, File.status f = .ready → ∃ e ∈ w.sys.log, e.what.Readies f.id
  downloaded : ∀ e ∈ w.sys.log, ∀ i, e.what.RunReadies i → ∃ u ∈ uploads w.sys.db, u.id = i
    ∧ ∃ key bytes, u.storageKey = some key ∧ (key, bytes) ∈ w.puts

/-- A run that gets as far as an outcome has downloaded the object. -/
theorem execute_downloads {env : PipelineEnv} {db : Database} {target : Target} {o : Outcome}
    (h : PipelineExecutor.execute env db target = .ok (some o)) :
    ∃ provider content, env.downloadBytes provider o.record.storageKey = .ok content := by
  simp only [PipelineExecutor.execute, bind_eq_ok, orText_eq_ok] at h
  obtain ⟨record, -, h⟩ := h
  split at h
  · cases h
  · simp only [bind_eq_ok, orText_eq_ok, pure_eq_ok, Option.some.injEq] at h
    obtain ⟨config, -, p, -, content, hcontent, stages, -, rfl⟩ := h
    rw [outcomeOf_record]
    exact ⟨p, content, hcontent⟩

theorem Outcome.uploadWrites (o : Outcome) (env : PipelineEnv) (target : Target)
    (declares : Upload → Prop) (snapshot : Database) :
    ∀ w ∈ o.writes env target, UploadWrite declares snapshot w := by
  intro w hw
  simp only [Outcome.writes, List.mem_cons, List.not_mem_nil, or_false] at hw
  rcases hw with rfl | rfl
  · exact .save rfl rfl
  · exact .other (by simp [TransactionalOutboxPublisher.publish])
      (by simp [TransactionalOutboxPublisher.publish])

/-- Steps that commit nothing leave versions alone. -/
theorem Step.fileVersions_eq {w w' : World} {l : Label} (hs : Step w l w')
    (hl : ∀ e, l ≠ .commit e) : w'.db .fileVersions = w.db .fileVersions := by
  cases hs with
  | commit pre post hr hws he hadm => exact absurd rfl (hl _)
  | settle pre post hh ho he hadm hnext => exact absurd rfl (hl _)
  | fail pre post env hh ho he hadm => exact absurd rfl (hl _)
  | publishRaises pre post taken hc => cases taken <;> rfl
  | mark pre post hc =>
    refine applyAll_of_table_ne (fun x hx => ?_) w.db
    obtain ⟨m, -, rfl⟩ := List.mem_map.mp hx
    simp
  | _ => rfl

theorem UploadsRead.mono {snapshot db db' : Database} (h : UploadsRead snapshot db)
    (hkept : ∀ u ∈ uploads db, u ∈ uploads db') : UploadsRead snapshot db' :=
  ⟨h.keys, fun u hu => hkept u (h.kept u hu)⟩

section Invariant

variable {w : StoredWorld} {sys : World}

/-- Steps that commit nothing. -/
theorem Traced.silently (h : Traced w) {l : Label} (hs : Step w.sys l sys)
    (hl : ∀ e, l ≠ .commit e) : Traced { w with sys := sys } := by
  have hq := hs.silently hl
  have huploads : uploads sys.db = uploads w.sys.db := congrArg (List.map File.upload) hq.files
  -- what reads now, reads these uploads
  have hnow : UploadsRead w.sys.db sys.db := ⟨h.keys, fun u hu => huploads ▸ hu⟩
  constructor
  · exact h.consistent.step hs
  · have hkept : UploadsKept (fun _ => False) w.sys.db w.sys.db sys.db :=
      .of_eq huploads (hs.fileVersions_eq hl)
    exact h.keys.kept hkept (fun u hu => hu.elim) fun u hu => hu
  · intro r hr
    rcases hq.requests r hr with hr | hr
    · exact (h.requests r hr).mono hnow.kept
    · rw [hr.1]
      exact hnow
  · intro x hx snapshot n hread
    rcases hq.handlers x hx with hx | hx
    · exact (h.handlers x hx snapshot n hread).mono hnow.kept
    · rw [(hx snapshot n hread).1]
      exact hnow
  · rw [huploads, hq.log]
    exact h.declared
  · rw [hq.files, hq.log]
    exact h.ready
  · rw [huploads, hq.log]
    exact h.downloaded

/-- What a commit does to uploads. -/
theorem Traced.uploadsKept (h : Traced w) {e : Entry} (hc : Commits w.sys e sys) :
    ∃ snapshot, UploadsRead snapshot w.sys.db
      ∧ UploadsKept (fun u => e.what.Declares u) snapshot w.sys.db sys.db := by
  obtain ⟨hsource, -, -, hdb, -, -, -⟩ := hc
  obtain ⟨what, readAt, committedAt⟩ := e
  rw [hdb]
  cases hsource with
  | @request r ws hr hws =>
    have hread := h.requests r hr
    obtain ⟨_, hres⟩ := ServiceResult.writes_eq_some.mp hws
    refine ⟨r.snapshot, hread, .applyAll ?_ _⟩
    exact Operation.uploadWrites (h.consistent.requests r hr).good hread.keys hres
  | outcome hx ho =>
    exact ⟨_, h.handlers _ hx _ _ rfl, .applyAll (Outcome.uploadWrites _ _ _ _ _) _⟩
  | failure hx ho =>
    exact ⟨_, h.handlers _ hx _ _ rfl, .applyAll (Outcome.uploadWrites _ _ _ _ _) _⟩

/-- **A file that is ready after a commit was so before, or the commit makes it so.** -/
theorem Traced.ready_commit (h : Traced w) {e : Entry} (hc : Commits w.sys e sys) {f' : File}
    (hf' : f' ∈ sys.db .files) (hready : f'.status = .ready) :
    e.what.Readies f'.id ∨ ∃ f ∈ w.sys.db .files, File.status f = .ready ∧ f.id = f'.id := by
  obtain ⟨hsource, -, -, hdb, -, -, -⟩ := hc
  obtain ⟨what, readAt, committedAt⟩ := e
  rw [hdb] at hf'
  cases hsource with
  | @request r ws hr hws =>
    obtain ⟨_, hres⟩ := ServiceResult.writes_eq_some.mp hws
    have heffect := Operation.fileEffect (h.consistent.requests r hr).good hres
    cases heffect.rowEffect hf' with
    | old hf hop => exact Or.inr ⟨f', hf, hready, rfl⟩
    | created hstatus =>
      rw [hstatus] at hready
      cases hready
    | changed hf hid hrecord hflush hchange =>
      rename_i f record new
      subst hflush
      have hstatus : flushColumn record.status new.status f.status = .ready := hready
      -- a status the call did not set is the one on record
      have hbefore : new.status ≠ .ready →
          ∃ g ∈ w.sys.db .files, File.status g = .ready ∧ g.id = f.id :=
        fun hne => ⟨f, hf, (flushColumn_ne hstatus hne).1, rfl⟩
      cases hchange with
      | modify hop hnew =>
        rcases hnew with hnew | hnew
        · rw [hnew, flushColumn_self] at hstatus
          exact Or.inr ⟨f, hf, hstatus, rfl⟩
        · exact Or.inr (hbefore (by rw [hnew]; decide))
      | settle hop hconfig hsettle hevent =>
        -- with the scan on the file is processing, so it was ready before
        obtain ⟨_, _, -, -, ⟨-, hprocessing, -⟩ | ⟨hoff, -, -⟩⟩ := settleUpload_cases hsettle
        · exact Or.inr (hbefore (by rw [hprocessing]; decide))
        · refine Or.inl (.settle ?_ hconfig hoff)
          rw [hop]
          exact congrArg some hid.symm
      | @restore versionId hop hnew =>
        have hrestore : r.call.op = .restoreVersion f.id versionId := by rw [hop, hid]
        exact Or.inl (.restore hrestore)
  | outcome hx ho =>
    obtain ⟨hterminal, -⟩ := PipelineExecutor.execute_eq_some ho
    have hrid := (FileRepository.of_get hterminal.get_eq).2.1
    rcases Outcome.ready_cases hf' hready with ⟨hoready, hid⟩ | ⟨f, hf, hfready, hid, -⟩
    · exact Or.inl (.run ⟨hrid.symm.trans hid.symm, hoready⟩)
    · exact Or.inr ⟨f, hf, hfready, hid⟩
  | failure hx ho =>
    rcases Outcome.ready_cases hf' hready with ⟨hoready, -⟩ | ⟨f, hf, hfready, hid, -⟩
    · rw [(PipelineExecutor.markFailed_eq_ok ho).2] at hoready
      cases hoready
    · exact Or.inr ⟨f, hf, hfready, hid⟩

/-- The object a run has downloaded is that of the file. -/
theorem Traced.downloaded_commit (h : Traced w) {e : Entry} (hc : Commits w.sys e sys)
    (hdown : Downloads w.puts (.commit e)) {i : String} (hrun : e.what.RunReadies i) :
    ∃ u ∈ uploads w.sys.db, u.id = i
      ∧ ∃ key bytes, u.storageKey = some key ∧ (key, bytes) ∈ w.puts := by
  obtain ⟨hsource, -, -, -, -, -, -⟩ := hc
  obtain ⟨what, readAt, committedAt⟩ := e
  cases hsource with
  | request hr hws => exact hrun.elim
  | failure hx ho => exact hrun.elim
  | @outcome env seq n target snapshot o hx ho =>
    have hread := h.handlers _ hx _ _ rfl
    obtain ⟨hterminal, -⟩ := PipelineExecutor.execute_eq_some ho
    obtain ⟨hmem, hrid, -⟩ := FileRepository.of_get hterminal.get_eq
    obtain ⟨provider, content, hcontent⟩ := execute_downloads ho
    have hu : o.record.upload ∈ uploads snapshot := List.mem_map_of_mem hmem
    have hkey : o.record.storageKey = _ := hread.keys.files _ hu
    -- the key the run downloads from is made of the ids
    rw [hkey] at hcontent
    exact ⟨_, hread.kept _ hu, hrid.trans hrun.1, _, _, hkey, hdown _ _ _ hcontent⟩

/-- A commit. -/
theorem Traced.commit (h : Traced w) {e : Entry} (hs : Step w.sys (.commit e) sys)
    (hdown : Downloads w.puts (.commit e)) : Traced { w with sys := sys } := by
  have hc := hs.commits
  obtain ⟨snapshot, hread, hkept⟩ := h.uploadsKept hc
  have hlog := hc.log
  have hold : ∀ e' ∈ w.sys.log, e' ∈ sys.log := fun e' he' => hlog ▸ List.mem_cons_of_mem _ he'
  have hnew : e ∈ sys.log := hlog ▸ List.mem_cons_self
  constructor
  · exact h.consistent.step hs
  · refine h.keys.kept hkept (fun u hu => ?_) hread.kept
    obtain ⟨what, readAt, committedAt⟩ := e
    cases what with
    | request call snap writes => exact Declares.storageKey_eq hu
    | outcome env target snap o => exact hu.elim
    | failure env target snap o => exact hu.elim
  · exact fun r hr => (h.requests r (hc.requests r hr)).mono hkept.kept
  · intro x hx snap n hphase
    rcases hc.handlers x hx with hx | hx
    · exact (h.handlers x hx snap n hphase).mono hkept.kept
    · -- the handler has committed: it holds no snapshot
      rw [hx] at hphase
      cases hphase
  · intro u hu
    rcases hkept.new u hu with hu | hu
    · obtain ⟨e', he', hdeclares⟩ := h.declared u hu
      exact ⟨e', hold e' he', hdeclares⟩
    · exact ⟨e, hnew, hu⟩
  · intro f hf hready
    rcases h.ready_commit hc hf hready with hreadies | ⟨g, hg, hgready, hid⟩
    · exact ⟨e, hnew, hreadies⟩
    · obtain ⟨e', he', hreadies⟩ := h.ready g hg hgready
      exact ⟨e', hold e' he', hid ▸ hreadies⟩
  · intro e' he' i hrun
    have hbefore : ∃ u ∈ uploads w.sys.db, u.id = i
        ∧ ∃ key bytes, u.storageKey = some key ∧ (key, bytes) ∈ w.puts := by
      rw [hlog] at he'
      rcases List.mem_cons.mp he' with rfl | he'
      · exact h.downloaded_commit hc hdown hrun
      · exact h.downloaded e' he' i hrun
    obtain ⟨u, hu, hrest⟩ := hbefore
    exact ⟨u, hkept.kept u hu, hrest⟩

/-- **Every step keeps what is known.** -/
theorem Traced.step {w' : StoredWorld} (h : Traced w) (hs : StoredStep w w') : Traced w' := by
  cases hs with
  | put key bytes =>
    refine ⟨h.consistent, h.keys, h.requests, h.handlers, h.declared, h.ready,
      fun e he i hrun => ?_⟩
    obtain ⟨u, hu, hid, key', bytes', hkey, hput⟩ := h.downloaded e he i hrun
    exact ⟨u, hu, hid, key', bytes', hkey, List.mem_cons_of_mem _ hput⟩
  | @system l sys hs hdown hkeeps =>
    by_cases hl : ∃ e, l = .commit e
    · obtain ⟨e, rfl⟩ := hl
      exact h.commit hs hdown
    · exact h.silently hs fun e he => hl ⟨e, he⟩

end Invariant

/-! ### Runs -/

theorem traced_empty : Traced .empty := by
  refine ⟨⟨Database.good_empty, fun r hr => ?_, fun x hx => ?_⟩, ⟨fun u hu => ?_, fun v hv => ?_⟩,
    fun r hr => ?_, fun x hx => ?_, fun u hu => ?_, fun f hf => ?_, fun e he => ?_⟩
  · cases hr
  · cases hx
  · cases hu
  · cases hv
  · cases hr
  · cases hx
  · cases hu
  · cases hf
  · cases he

/-- What a run can reach is known. -/
theorem StoredRun.traced {w : StoredWorld} (h : StoredRun .empty w) : Traced w := by
  induction h with
  | refl => exact traced_empty
  | tail _ hs ih => exact ih.step hs

theorem exists_lookup_of_mem {key : String} {bytes : Bytes} {puts : List (String × Bytes)}
    (h : (key, bytes) ∈ puts) : ∃ found, puts.lookup key = some found := by
  rw [← Option.isSome_iff_exists, List.lookup_isSome_iff]
  exact ⟨(key, bytes), h, beq_self_eq_true key⟩

/-- **What is known of a file that is ready**: in every run of requests but aborts, runs of the
pipeline and `PUT`s of any bytes, its key is made of its ids, its size is the one its upload
declared, within the limits of the project and the upload token, and some commit made it ready:
a confirmation or completion with the scan off, a restore, or a run.  If a run did, there is an
object at its key. -/
theorem ready_declared {w : StoredWorld} (h : StoredRun .empty w) {f : File}
    (hf : f ∈ w.sys.db .files) (hready : f.status = .ready) :
    f.storageKey = some (storageKey f.organizationId f.projectId f.id)
      ∧ (∃ e ∈ w.sys.log, e.what.Declares f.upload)
      ∧ (∃ e ∈ w.sys.log, e.what.Readies f.id)
      ∧ ∀ e ∈ w.sys.log, e.what.RunReadies f.id →
        ∃ bytes, w.object (storageKey f.organizationId f.projectId f.id) = some bytes := by
  have htraced := h.traced
  have hu : f.upload ∈ uploads w.sys.db := List.mem_map_of_mem hf
  have hkey := htraced.keys.files _ hu
  refine ⟨hkey, htraced.declared _ hu, htraced.ready f hf hready, fun e he hrun => ?_⟩
  obtain ⟨u, hu', hid, key, bytes, hukey, hput⟩ := htraced.downloaded e he f.id hrun
  -- the object is that of the file: ids are unique
  obtain ⟨g, hg, rfl⟩ := List.mem_map.mp hu'
  obtain rfl : g = f := htraced.consistent.good.uniquePk.eq_of_pk (t := .files) hg hf hid
  obtain rfl := Option.some.inj (hkey.symm.trans hukey)
  exact exists_lookup_of_mem hput

theorem StoredRun.system {sys sys' : World} {puts : List (String × Bytes)} {l : Label}
    (h : StoredRun .empty ⟨sys, puts⟩) (hs : Step sys l sys') (hdown : Downloads puts l)
    (hkeeps : ∀ r ∈ sys'.requests, r.call.op.keepsObjects = true) : StoredRun .empty ⟨sys', puts⟩ :=
  h.tail (.system hs hdown hkeeps)

/-- A step that leaves no request in flight. -/
theorem StoredRun.idle {sys sys' : World} {puts : List (String × Bytes)} {l : Label}
    (h : StoredRun .empty ⟨sys, puts⟩) (hs : Step sys l sys') (hdown : Downloads puts l)
    (hidle : sys'.requests = []) : StoredRun .empty ⟨sys', puts⟩ := by
  refine h.system hs hdown fun r hr => ?_
  rw [hidle] at hr
  cases hr

/-- Requests that run one after the other. -/
theorem StoredRun.calls {puts : List (String × Bytes)} (calls : List ServiceCall) {db : Database}
    {log : List Entry} (h : StoredRun .empty ⟨{ db := db, log := log }, puts⟩)
    (hkeeps : ∀ c ∈ calls, c.op.keepsObjects = true) :
    ∃ log', StoredRun .empty ⟨{ db := runAll calls db, log := log' }, puts⟩ := by
  induction calls generalizing db log with
  | nil => exact ⟨log, h⟩
  | cons c calls ih =>
    have hlater := fun c hc => hkeeps c (List.mem_cons_of_mem _ hc)
    have hread := h.system (.read c) trivial fun r hr => by
      obtain rfl := List.mem_singleton.mp hr
      exact hkeeps c List.mem_cons_self
    rcases hr : c.result db with e | ⟨r, ws⟩
    · rw [runAll, hr]
      exact ih h hlater
    · rw [runAll, hr, commit]
      by_cases hadm : Admissible ws db
      · rw [if_pos hadm]
        have hws : c.writes db = some ws := ServiceResult.writes_eq_some.mpr ⟨r, hr⟩
        exact ih (hread.idle (.commit [] [] rfl hws rfl hadm) trivial rfl) hlater
      · rw [if_neg hadm]
        exact ih h hlater

/-- A pipeline whose storage has one object. -/
def storedPipeline : PipelineEnv :=
  { devPipeline "e0" 5 with
    downloadBytes := fun _ key => if key = some "acme/p0/f0" then .ok [97] else .error "NoSuchKey" }

theorem storedPipeline_downloads (provider : StorageProvider) (key : String) (content : Bytes)
    (h : storedPipeline.downloadBytes provider (some key) = .ok content) :
    (key, content) ∈ [("acme/p0/f0", [97])] := by
  simp only [storedPipeline, Option.some.injEq] at h
  split at h
  · rename_i hkey
    cases h
    rw [hkey]
    exact List.mem_cons_self
  · cases h

/-- The event of an upload to be scanned. -/
def scannedEvent : OutboxMessage where
  id := "u1"
  subject := scannedMessage.subject
  payload := scannedMessage.payload
  createdAt := 4
  organizationId := "acme"
  projectId := "p0"

/-- A file that was put, confirmed and scanned, and is ready. -/
theorem storedRun_scanned : ∃ w, StoredRun .empty w ∧ w.object "acme/p0/f0" = some [97]
    ∧ ∃ f ∈ w.sys.db .files, File.status f = .ready := by
  obtain ⟨log, hcalls⟩ := StoredRun.calls scannedUpload .refl (by decide)
  have hevent : scannedEvent ∈ runAll scannedUpload Database.empty .outboxMessages := by decide
  have htarget : ProcessingWorker.target scannedEvent.message = some ⟨"f0", "acme", "p0"⟩ := by
    decide
  have hadm : Admissible (scannedOutcome.writes storedPipeline ⟨"f0", "acme", "p0"⟩)
      (runAll scannedUpload Database.empty) := by decide
  have hfile : ∃ f ∈ applyAll (scannedOutcome.writes storedPipeline ⟨"f0", "acme", "p0"⟩)
      (runAll scannedUpload Database.empty) .files, File.status f = .ready := by decide
  have hput : StoredRun .empty ⟨_, [("acme/p0/f0", [97])]⟩ := hcalls.tail (.put "acme/p0/f0" [97])
  have hselect := hput.idle (.select 5 [scannedEvent] fun m hm => by
    obtain rfl := List.mem_singleton.mp hm
    exact ⟨hevent, rfl⟩) trivial rfl
  have hpublish := hselect.idle (.publish [] [] rfl) trivial rfl
  have hdeliver := hpublish.idle (.deliver List.mem_cons_self (by decide) htarget) trivial rfl
  have hstart := hdeliver.idle (.start [] [] rfl) trivial rfl
  have hsettle :=
    hstart.idle (.settle [] [] rfl rfl rfl hadm (.inl rfl)) storedPipeline_downloads rfl
  exact ⟨_, hsettle, rfl, hfile⟩

/-- What is known of that file. -/
theorem ready_declared_scanned : ∃ w, StoredRun .empty w ∧ w.object "acme/p0/f0" = some [97]
    ∧ ∃ f ∈ w.sys.db .files, File.status f = .ready
      ∧ f.storageKey = some (storageKey f.organizationId f.projectId f.id)
      ∧ (∃ e ∈ w.sys.log, e.what.Declares f.upload)
      ∧ (∃ e ∈ w.sys.log, e.what.Readies f.id)
      ∧ ∀ e ∈ w.sys.log, e.what.RunReadies f.id →
        ∃ bytes, w.object (storageKey f.organizationId f.projectId f.id) = some bytes := by
  obtain ⟨w, hrun, hobject, f, hf, hready⟩ := storedRun_scanned
  exact ⟨w, hrun, hobject, f, hf, hready, ready_declared hrun hf hready⟩

/-- A file that is ready, and nothing is there. -/
theorem ready_without_object :
    ¬∀ w, StoredRun .empty w → ∀ f ∈ w.sys.db .files, File.status f = .ready →
      ∃ key bytes, f.storageKey = some key ∧ w.object key = some bytes
        ∧ (bytes.length : ℤ) = f.sizeBytes := by
  intro h
  obtain ⟨log, hrun⟩ := StoredRun.calls (versionedUpload ++ [confirmation "c" 4]) .refl (by decide)
  have hfile : ∃ f ∈ runAll (versionedUpload ++ [confirmation "c" 4]) Database.empty .files,
      File.status f = .ready := by decide
  obtain ⟨f, hf, hready⟩ := hfile
  obtain ⟨key, bytes, -, hobject, -⟩ := h _ hrun f hf hready
  cases hobject

end Processing

end FileNest
