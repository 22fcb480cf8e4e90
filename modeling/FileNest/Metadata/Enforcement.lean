import FileNest.Lib.Ledger
import FileNest.Metadata.ActiveSchema
import FileNest.Uploads.Admission

/-!
# Enforcement of the metadata schema

Where a project enforces its schema, replacing and merging metadata validates the final
value against the active schema.  The two ways to begin an upload store metadata too —
`init_upload` what the request and its upload token make of it, a multipart start what the
request says — and validate nothing.

## Main definitions

* `EnforcedProject` — a project that enforces a schema.
* `EnforcedCall`, `enforcedCalls` — calls that share a validator and leave the schema in place.
* `MetadataAccepted` — all metadata written in a run is accepted.
* `UploadAccepted` — the schema accepts what an upload to the project is stored with.

## Main results

* `ServiceCall.metadataEffect` — what a call does to the metadata of files.
* `EnforcedCall.commit_iff` — one commit.
* `schema_enforced_iff` — **written metadata is accepted exactly where uploads bring such.**
* `schema_unenforced` — an upload of metadata that the schema rejects.
-/

namespace FileNest

open RowStore ReadCommitted MetadataSchemaRepository

/-! ### What calls do to metadata -/

/-- The call sets the metadata of the file. -/
def ServiceCall.setsMetadata (c : ServiceCall) (fileId : String) : Prop :=
  match c.op with
  | .initUpload _ | .multipartStart _ => fileId = c.env.uuid4 0
  | .updateMetadata i _ | .mergeMetadata i _ => fileId = i
  | _ => False

/-- The metadata an upload is stored with. -/
def ServiceCall.uploadMetadata (c : ServiceCall) : Option Fields :=
  match c.op with
  | .initUpload req => some (c.ctx.uploadMetadata req.metadata)
  | .multipartStart req => some req.metadata
  | _ => none

/-- The same file, with the same metadata. -/
structure File.SameMetadata (f f' : File) : Prop where
  id : f.id = f'.id
  organizationId : f.organizationId = f'.organizationId
  projectId : f.projectId = f'.projectId
  metadata : f.metadata = f'.metadata

/-- A write that sets no metadata. -/
def KeepsMetadata (w : DbWrite) : Prop :=
  w.table ≠ .files ∨ ∃ record new : File, w = record.save new ∧ new.metadata = record.metadata

/-- What a call does to metadata: nothing, or it creates a file, or sets that of one it
validated. -/
inductive MetadataEffect (c : ServiceCall) (snapshot : Database) : List DbWrite → Prop
  | keep {ws : List DbWrite} (hsets : ∀ i, ¬c.setsMetadata i) (hupload : c.uploadMetadata = none)
      (hws : ∀ w ∈ ws, KeepsMetadata w) : MetadataEffect c snapshot ws
  | upload {record : File} {rest : List DbWrite} (hsets : ∀ i, c.setsMetadata i ↔ i = record.id)
      (hupload : c.uploadMetadata = some record.metadata)
      (ho : record.organizationId = c.ctx.organizationId) (hp : record.projectId = c.projectId)
      (hrest : ∀ w ∈ rest, w.table ≠ .files) :
      MetadataEffect c snapshot (.insert .files record :: rest)
  | write {record : File} {metadata : Fields} (hsets : ∀ i, c.setsMetadata i ↔ i = record.id)
      (hupload : c.uploadMetadata = none)
      (hrecord : FileRepository.get snapshot record.id c.ctx.organizationId c.projectId
        = .ok record)
      (hvalid : MetadataService.validateIfRequired c.ctx c.env snapshot c.projectId metadata
        = .ok ()) :
      MetadataEffect c snapshot
        [record.save { record with metadata := metadata, updatedAt := c.env.now }]

section Effects

variable {ctx : TenantContext} {env : Env} {snapshot db : Database} {projectId : String}
  {r : Response} {ws : List DbWrite}

theorem KeepsMetadata.save {record new : File} (h : new.metadata = record.metadata) :
    KeepsMetadata (record.save new) := .inr ⟨record, new, rfl, h⟩

theorem KeepsMetadata.publish {event : String} {payload : Fields} {draw : ℕ} :
    KeepsMetadata (publish ctx env projectId draw event payload) :=
  .inl (by simp [FileNest.publish, TransactionalOutboxPublisher.publish])

theorem KeepsMetadata.versionRow {draw n : ℕ} {fileId key contentType : String} {size : ℤ} :
    KeepsMetadata (versionRow ctx env projectId draw fileId n key size contentType) :=
  .inl (by simp [FileNest.versionRow])

theorem KeepsMetadata.settled {config : ProjectConfig} {record : File} :
    KeepsMetadata (FileService.settleUpload ctx env projectId config record).2 := by
  cases h : FileService.settleUpload ctx env projectId config record with
  | mk status event => exact .inl (by rw [settleUpload_table h]; decide)

theorem KeepsMetadata.save_session {loaded new : UploadSession} : KeepsMetadata (loaded.save new) :=
  .inl (by simp [UploadSession.save])

/-- Writes that set no metadata. -/
theorem mem_files_of_keepsMetadata (hws : ∀ w ∈ ws, KeepsMetadata w) {f' : File}
    (hf' : f' ∈ applyAll ws db .files) : ∃ f ∈ db .files, File.SameMetadata f f' := by
  induction ws generalizing db with
  | nil => exact ⟨f', hf', rfl, rfl, rfl, rfl⟩
  | cons w ws ih =>
    rw [applyAll_cons] at hf'
    obtain ⟨f, hf, hsame⟩ := ih (fun v hv => hws v (List.mem_cons_of_mem _ hv)) hf'
    rcases hws w List.mem_cons_self with htable | ⟨record, new, rfl, hmetadata⟩
    · rw [apply_of_table_ne htable] at hf
      exact ⟨f, hf, hsame⟩
    · rw [File.save, apply_update_self] at hf
      obtain ⟨g, hg, rfl⟩ := List.mem_map.mp hf
      refine ⟨g, hg, ?_⟩
      split at hsame
      · have hflush : flushColumn record.metadata new.metadata g.metadata = g.metadata := by
          rw [hmetadata, flushColumn_self]
        exact ⟨hsame.id, hsame.organizationId, hsame.projectId, hflush.symm.trans hsame.metadata⟩
      · exact hsame

/-- Operations that change a column of a file other than the metadata. -/
theorem FileService.modifyFile_keepsMetadata {fileId : String} {change : File → File}
    {respond : File → Response}
    (h : modifyFile ctx snapshot projectId fileId change respond = .ok (r, ws))
    (hchange : ∀ f, (change f).metadata = f.metadata) : ∀ w ∈ ws, KeepsMetadata w := by
  simp only [modifyFile, bind_eq_ok, pure_eq_ok, Prod.mk.injEq] at h
  obtain ⟨record, -, -, rfl⟩ := h
  exact List.forall_mem_singleton.mpr (.save (hchange record))

/-- Operations that set the metadata of a file. -/
theorem FileService.modifyFile_metadata {fileId : String} {change : File → File}
    {respond : File → Response}
    (h : modifyFile ctx snapshot projectId fileId change respond = .ok (r, ws)) :
    ∃ record, FileRepository.get snapshot fileId ctx.organizationId projectId = .ok record
      ∧ ws = [record.save (change record)] := by
  simp only [modifyFile, bind_eq_ok, pure_eq_ok, Prod.mk.injEq] at h
  obtain ⟨record, hrecord, -, rfl⟩ := h
  exact ⟨record, hrecord, rfl⟩

theorem FileService.confirmUpload_keepsMetadata {fileId : String}
    (h : confirmUpload ctx env snapshot projectId fileId = .ok (r, ws)) :
    ∀ w ∈ ws, KeepsMetadata w := by
  simp only [confirmUpload, bind_eq_ok] at h
  obtain ⟨record, -, config, -, h⟩ := h
  split at h <;> simp only [pure_eq_ok, Prod.mk.injEq] at h <;> obtain ⟨-, rfl⟩ := h
  · exact List.forall_mem_cons.mpr ⟨.versionRow, List.forall_mem_cons.mpr ⟨.save rfl,
      List.forall_mem_singleton.mpr .settled⟩⟩
  · exact List.forall_mem_cons.mpr ⟨.save rfl, List.forall_mem_singleton.mpr .settled⟩

theorem FileService.restoreVersion_keepsMetadata {fileId versionId : String}
    (h : restoreVersion ctx env snapshot projectId fileId versionId = .ok (r, ws)) :
    ∀ w ∈ ws, KeepsMetadata w := by
  simp only [restoreVersion, bind_eq_ok, pure_eq_ok, Prod.mk.injEq] at h
  obtain ⟨record, -, version, -, -, rfl⟩ := h
  exact List.forall_mem_cons.mpr ⟨.versionRow, List.forall_mem_cons.mpr ⟨.save rfl,
    List.forall_mem_singleton.mpr .publish⟩⟩

theorem FileService.deleteFile_keepsMetadata {fileId : String}
    (h : deleteFile ctx env snapshot projectId fileId = .ok (r, ws)) :
    ∀ w ∈ ws, KeepsMetadata w := by
  simp only [deleteFile, bind_eq_ok, pure_eq_ok, Prod.mk.injEq] at h
  obtain ⟨record, -, -, rfl⟩ := h
  exact List.forall_mem_cons.mpr ⟨.save rfl, List.forall_mem_singleton.mpr .publish⟩

theorem MultipartUploadService.complete_keepsMetadata {uploadId : String}
    {req : MultipartCompleteRequest}
    (h : complete ctx env snapshot projectId uploadId req = .ok (r, ws)) :
    ∀ w ∈ ws, KeepsMetadata w := by
  simp only [complete, bind_eq_ok] at h
  obtain ⟨session, -, record, -, config, -, _, -, -, -, h⟩ := h
  split at h
  · split at h
    · simp only [pure_eq_ok, Prod.mk.injEq] at h
      obtain ⟨-, rfl⟩ := h
      exact List.forall_mem_cons.mpr ⟨.save_session, List.forall_mem_cons.mpr ⟨.versionRow,
        List.forall_mem_cons.mpr ⟨.save rfl, List.forall_mem_singleton.mpr .settled⟩⟩⟩
    · simp at h
  · simp only [pure_eq_ok, Prod.mk.injEq] at h
    obtain ⟨-, rfl⟩ := h
    exact List.forall_mem_cons.mpr ⟨.save_session, List.forall_mem_cons.mpr ⟨.save rfl,
      List.forall_mem_singleton.mpr .settled⟩⟩

theorem MultipartUploadService.abort_keepsMetadata {uploadId : String}
    (h : abort ctx env snapshot projectId uploadId = .ok (r, ws)) :
    ∀ w ∈ ws, KeepsMetadata w := by
  simp only [abort, bind_eq_ok, pure_eq_ok, Prod.mk.injEq] at h
  obtain ⟨session, -, record, -, _, -, -, -, -, rfl⟩ := h
  exact List.forall_mem_cons.mpr ⟨.save_session, List.forall_mem_singleton.mpr (.save rfl)⟩

/-- **Every call has one of the effects.** -/
theorem ServiceCall.metadataEffect {c : ServiceCall} (hsnap : snapshot.Good)
    (h : c.result snapshot = .ok (r, ws)) : MetadataEffect c snapshot ws := by
  have hsound := Operation.sound hsnap h
  obtain ⟨ctx, env, projectId, op⟩ := c
  have hkeep : (∀ i, ¬ServiceCall.setsMetadata ⟨ctx, env, projectId, op⟩ i) →
      ServiceCall.uploadMetadata ⟨ctx, env, projectId, op⟩ = none → (∀ w ∈ ws, KeepsMetadata w) →
      MetadataEffect ⟨ctx, env, projectId, op⟩ snapshot ws := MetadataEffect.keep
  cases op with
  | initUpload req =>
    obtain ⟨config, provider, url, -, -, -, -, rfl⟩ := FileService.initUpload_eq_ok.mp h
    refine .upload (fun i => Iff.rfl) rfl rfl rfl (List.forall_mem_singleton.mpr ?_)
    simp [publish, TransactionalOutboxPublisher.publish]
  | multipartStart req =>
    obtain ⟨config, provider, uploadId, -, -, -, rfl⟩ := MultipartUploadService.start_eq_ok.mp h
    exact .upload (fun i => Iff.rfl) rfl rfl rfl (List.forall_mem_singleton.mpr (by simp))
  | updateMetadata fileId metadata =>
    simp only [ServiceCall.result, Operation.run, MetadataService.updateMetadata, bind_eq_ok] at h
    obtain ⟨_, hvalid, h⟩ := h
    obtain ⟨record, hrecord, rfl⟩ := FileService.modifyFile_metadata h
    have hid := (FileRepository.of_get hrecord).2.1
    exact .write (fun i => by rw [hid]; exact Iff.rfl) rfl (hid ▸ hrecord) hvalid
  | mergeMetadata fileId updates =>
    simp only [ServiceCall.result, Operation.run, MetadataService.mergeMetadata, bind_eq_ok] at h
    obtain ⟨loaded, hloaded, _, hvalid, h⟩ := h
    obtain ⟨record, hrecord, rfl⟩ := FileService.modifyFile_metadata h
    obtain rfl : loaded = record := Except.ok.inj (hloaded.symm.trans hrecord)
    have hid := (FileRepository.of_get hrecord).2.1
    exact .write (fun i => by rw [hid]; exact Iff.rfl) rfl (hid ▸ hrecord) hvalid
  | confirmUpload fileId =>
    exact hkeep (fun _ h => h) rfl (FileService.confirmUpload_keepsMetadata h)
  | restoreVersion fileId versionId =>
    exact hkeep (fun _ h => h) rfl (FileService.restoreVersion_keepsMetadata h)
  | deleteFile fileId => exact hkeep (fun _ h => h) rfl (FileService.deleteFile_keepsMetadata h)
  | setTags fileId tags =>
    simp only [ServiceCall.result, Operation.run, FileService.setTags] at h
    exact hkeep (fun _ h => h) rfl (FileService.modifyFile_keepsMetadata h fun _ => rfl)
  | addTags fileId tags =>
    simp only [ServiceCall.result, Operation.run, FileService.addTags] at h
    exact hkeep (fun _ h => h) rfl (FileService.modifyFile_keepsMetadata h fun _ => rfl)
  | renameFile fileId req =>
    simp only [ServiceCall.result, Operation.run, FileService.renameFile] at h
    exact hkeep (fun _ h => h) rfl (FileService.modifyFile_keepsMetadata h fun _ => rfl)
  | moveFile fileId folderId =>
    simp only [ServiceCall.result, Operation.run, FileService.moveFile] at h
    exact hkeep (fun _ h => h) rfl (FileService.modifyFile_keepsMetadata h fun _ => rfl)
  | multipartComplete uploadId req =>
    exact hkeep (fun _ h => h) rfl (MultipartUploadService.complete_keepsMetadata h)
  | multipartAbort uploadId =>
    exact hkeep (fun _ h => h) rfl (MultipartUploadService.abort_keepsMetadata h)
  -- the rest does not write files
  | _ =>
    refine hkeep (fun _ h => h) rfl fun w hw => .inl fun htable => ?_
    have htables := hsound.tables w hw
    rw [htable] at htables
    simp [Operation.tables] at htables

end Effects

/-! ### Settings that stay -/

section Settings

variable {snapshot db : Database} {p o : String} {r : Response} {ws : List DbWrite}

/-- Every configuration of the project enforces the schema. -/
def Enforces (db : Database) (p o : String) : Prop :=
  ∀ g ∈ db .projectConfigs, ProjectConfig.projectId g = p → g.organizationId = o →
    g.enforceSchema = true

/-- The four updates of a configuration. -/
theorem ProjectConfigService.updateWith_writes {ctx : TenantContext} {env : Env}
    {projectId : String}
    {change : ProjectConfig → ProjectConfig}
    (h : updateWith ctx env snapshot projectId change = .ok (r, ws)) :
    ∃ record new : ProjectConfig, ws = [record.save new] := by
  simp only [updateWith, bind_eq_ok, pure_eq_ok, Prod.mk.injEq] at h
  obtain ⟨record, -, -, rfl⟩ := h
  exact ⟨record, _, rfl⟩

/-- What a call does to configurations: nothing, or it saves one, or creates that of a new
project. -/
theorem ServiceCall.configWrites {c : ServiceCall} (hsnap : snapshot.Good)
    (h : c.result snapshot = .ok (r, ws)) :
    (∀ w ∈ ws, w.table ≠ .projectConfigs) ∨ (∃ record new : ProjectConfig, ws = [record.save new])
      ∨ ∃ record storage config, ws = [.insert .projects record, .insert .storageConfigs storage,
        .insert .projectConfigs config] ∧ record.id = config.projectId := by
  have hsound := Operation.sound hsnap h
  obtain ⟨ctx, env, projectId, op⟩ := c
  cases op with
  | updateUploadConfig req => exact .inr (.inl (ProjectConfigService.updateWith_writes h))
  | updateSecurityConfig req => exact .inr (.inl (ProjectConfigService.updateWith_writes h))
  | updateProcessingConfig req => exact .inr (.inl (ProjectConfigService.updateWith_writes h))
  | updateComplianceConfig req => exact .inr (.inl (ProjectConfigService.updateWith_writes h))
  | createProject req =>
    simp only [ServiceCall.result, Operation.run, ProjectService.createProject, bind_eq_ok,
      pure_eq_ok, Prod.mk.injEq] at h
    obtain ⟨_, -, _, -, -, rfl⟩ := h
    exact .inr (.inr ⟨_, _, _, rfl, rfl⟩)
  | _ =>
    refine .inl fun w hw htable => ?_
    have htables := hsound.tables w hw
    rw [htable] at htables
    simp [Operation.tables] at htables

/-- No call turns the enforcement off. -/
theorem Enforces.commit {c : ServiceCall} (h : Enforces db p o)
    (hproject : Store.Has db (.projects, p, ⟨o, p, ""⟩)) (hsnap : snapshot.Good)
    (hr : c.result snapshot = .ok (r, ws)) (hadm : Admissible ws db) :
    Enforces (applyAll ws db) p o := by
  intro g' hg' hp ho
  rcases c.configWrites hsnap hr with hws | ⟨record, new, rfl⟩ | ⟨record, storage, config, rfl, hid⟩
  · rw [applyAll_of_table_ne hws] at hg'
    exact h g' hg' hp ho
  · rw [applyAll_cons, applyAll_nil, ProjectConfig.save, apply_update_self] at hg'
    obtain ⟨g, hg, rfl⟩ := List.mem_map.mp hg'
    split at hp <;> rename_i hsaved
    · simp only [hsaved, if_true] at ho ⊢
      exact h g hg hp ho
    · simp only [hsaved, if_false] at ho ⊢
      exact h g hg hp ho
  · rw [applyAll_cons, applyAll_cons, applyAll_cons, applyAll_nil, apply_insert_self,
      apply_of_table_ne (by simp), apply_of_table_ne (by simp), List.mem_append,
      List.mem_singleton] at hg'
    rcases hg' with hg' | rfl
    · exact h g' hg' hp ho
    · -- a new project is not one on record
      obtain ⟨other, hother, hpk, -⟩ := exists_of_mem_keys (t := Table.projects) hproject
      exact absurd (hpk.trans (hp.symm.trans hid.symm)) (hadm.1 other hother)

end Settings

/-! ### Runs -/

/-- `jsonschema.validate`, of a schema and an instance. -/
abbrev Validator := Fields → Fields → Except (String × List Json) Unit

/-- The project enforces the schema. -/
structure EnforcedProject (db : Database) (p o : String) (S : MetadataSchema) : Prop where
  config : ∃ config, ProjectConfigRepository.getForProject db p o = .ok config
    ∧ config.enforceSchema = true
  schema : getActive db p o = .ok (some S)

/-- A call that validates with the shared validator and leaves the schema of the project in
place. -/
structure EnforcedCall (validate : Validator) (p o : String) where
  call : ServiceCall
  validator : call.env.validateSchema = validate
  keepsSchema : ∀ schema, call.op = .createSchema schema →
    ¬(call.projectId = p ∧ call.ctx.organizationId = o)

/-- Calls of any callers while the schema of a project is fixed. -/
def enforcedCalls (validate : Validator) (p o : String) :
    Program Table.Row (EnforcedCall validate p o) := fun c => c.call.writes

section Runs

variable {validate : Validator} {p o : String} {S : MetadataSchema}

/-- A call on the ledger has set the metadata of the file. -/
def MetadataSet (log : Ledger Table.Row (EnforcedCall validate p o)) (fileId : String) : Prop :=
  ∃ x ∈ log, x.1.call.setsMetadata fileId

/-- The schema accepts all metadata of the project's files that was set in the run. -/
def MetadataAccepted (validate : Validator) (p o : String) (S : MetadataSchema)
    (log : Ledger Table.Row (EnforcedCall validate p o)) (db : Database) : Prop :=
  ∀ f ∈ db .files, File.projectId f = p → f.organizationId = o → MetadataSet log f.id →
    validate S.schemaJson f.metadata = .ok ()

/-- **The condition** on an upload to the project: the schema accepts what it is stored with. -/
def UploadAccepted (validate : Validator) (p o : String) (S : MetadataSchema) :
    Guard Table.Row (EnforcedCall validate p o) := fun _ c _ =>
  ∀ metadata, c.call.uploadMetadata = some metadata → c.call.projectId = p →
    c.call.ctx.organizationId = o → validate S.schemaJson metadata = .ok ()

/-- What keeps the enforcement going. -/
structure Enforcing (p o : String) (S : MetadataSchema) (db : Database) : Prop where
  good : db.Good
  project : Store.Has db (.projects, p, ⟨o, p, ""⟩)
  enforces : Enforces db p o
  active : activeRows db p o = [S]

/-- What a transaction read, and what has become of it. -/
structure ReadBefore (p o : String) (S : MetadataSchema)
    (log : Ledger Table.Row (EnforcedCall validate p o)) (snapshot db : Database) : Prop where
  enforcing : Enforcing p o S snapshot
  keeps : KeepsReferenced refs snapshot db
  schemas : ∀ k ∈ snapshot.keys .metadataSchemas, k ∈ db.keys .metadataSchemas
  metadata : ∀ f ∈ db .files, ∀ record ∈ snapshot .files, File.id f = File.id record →
    f.metadata = record.metadata ∨ MetadataSet log f.id

variable {log : Ledger Table.Row (EnforcedCall validate p o)} {snapshot snap db : Database}
  {c : EnforcedCall validate p o} {r : Response} {ws : List DbWrite}

theorem metadataSet_append {i : String} : MetadataSet (log ++ [(c, snapshot)]) i ↔
    MetadataSet log i ∨ c.call.setsMetadata i := by
  simp only [MetadataSet, List.mem_append, List.mem_singleton, or_and_right, exists_or,
    exists_eq_left]

theorem EnforcedProject.enforcing (h : EnforcedProject db p o S) (hdb : db.Good) :
    Enforcing p o S db := by
  obtain ⟨config, hconfig, henforce⟩ := h.config
  obtain ⟨hmem, rfl, rfl⟩ := ProjectConfigRepository.of_getForProject hconfig
  refine ⟨hdb, hdb.project_of_config hmem, fun g hg hp ho => ?_,
    scalarOneOrNone_eq_some.mp h.schema⟩
  have hsame : g = config := eq_of_oneOr hconfig (List.mem_filter.mpr ⟨hg, by simp [hp, ho]⟩)
  rw [hsame]
  exact henforce

/-- What `_validate_if_required` lets through. -/
theorem Enforcing.accepted {ctx : TenantContext} {env : Env} {metadata : Fields}
    (h : Enforcing p o S snapshot) (ho : ctx.organizationId = o)
    (hvalid : MetadataService.validateIfRequired ctx env snapshot p metadata = .ok ()) :
    env.validateSchema S.schemaJson metadata = .ok () := by
  subst ho
  simp only [MetadataService.validateIfRequired, bind_eq_ok] at hvalid
  obtain ⟨config, hconfig, hvalid⟩ := hvalid
  obtain ⟨hmem, hp, ho⟩ := ProjectConfigRepository.of_getForProject hconfig
  have hactive : getActive snapshot p ctx.organizationId = .ok (some S) :=
    scalarOneOrNone_eq_some.mpr h.active
  rw [if_pos (h.enforces config hmem hp ho), hactive] at hvalid
  simp only [bind, Except.bind] at hvalid
  split at hvalid
  · assumption
  · cases hvalid

/-- A commit leaves the project enforcing its schema. -/
theorem Enforcing.commit (h : Enforcing p o S db) (hread : ReadBefore p o S log snapshot db)
    (hr : c.call.result snapshot = .ok (r, ws)) (hadm : Admissible ws db) :
    Enforcing p o S (applyAll ws db) ∧ KeepsReferenced refs db (applyAll ws db) := by
  have hsnap := hread.enforcing.good
  obtain ⟨hgood, hkeeps⟩ := h.good.commit hread.keeps
    (c.call.resolved hsnap (ServiceResult.writes_eq_some.mpr ⟨r, hr⟩)) hadm
  refine ⟨⟨hgood, hkeeps .projectConfigs ⟨o, p, ""⟩ _ rfl h.project,
    h.enforces.commit h.project hsnap hr hadm, ?_⟩, hkeeps⟩
  rw [activeRows_eq_filter, (c.call.schemaEffect hsnap hr).projectSchemas_eq h.good hread.schemas
    c.keepsSchema, ← activeRows_eq_filter, h.active]

/-- Metadata that a commit changes is set by it. -/
theorem MetadataEffect.changed {call : ServiceCall}
    (h : MetadataEffect call snapshot ws) {f' : File}
    (hf' : f' ∈ applyAll ws db .files) :
    (∃ f ∈ db .files, File.SameMetadata f f') ∨ call.setsMetadata f'.id := by
  cases h with
  | keep hsets hupload hws => exact .inl (mem_files_of_keepsMetadata hws hf')
  | upload hsets hupload ho hp hrest =>
    rw [applyAll_cons, applyAll_of_table_ne hrest, apply_insert_self, List.mem_append,
      List.mem_singleton] at hf'
    rcases hf' with hf' | rfl
    · exact .inl ⟨f', hf', rfl, rfl, rfl, rfl⟩
    · exact .inr ((hsets _).mpr rfl)
  | write hsets hupload hrecord hvalid =>
    rename_i record metadata
    rw [files_save] at hf'
    obtain ⟨f, hf, rfl⟩ := List.mem_map.mp hf'
    split
    · rename_i hid
      exact .inr ((hsets _).mpr hid)
    · exact .inl ⟨f, hf, rfl, rfl, rfl, rfl⟩

/-- What the commits of others leave of it. -/
theorem ReadBefore.commit (h : ReadBefore p o S log snap db)
    (hread : ReadBefore p o S log snapshot db) (hr : c.call.result snapshot = .ok (r, ws))
    (hkeeps : KeepsReferenced refs db (applyAll ws db)) :
    ReadBefore p o S (log ++ [(c, snapshot)]) snap (applyAll ws db) := by
  have hsnap := hread.enforcing.good
  refine ⟨h.enforcing, h.keeps.trans hkeeps,
    fun k hk => (c.call.schemaEffect hsnap hr).keys (h.schemas k hk),
      fun f' hf' record hrecord hid => ?_⟩
  rw [metadataSet_append]
  rcases (c.call.metadataEffect hsnap hr).changed hf' with ⟨f, hf, hsame⟩ | hset
  · rw [← hsame.metadata, ← hsame.id]
    exact (h.metadata f hf record hrecord (hsame.id.trans hid)).imp_right .inl
  · exact .inr (.inr hset)

/-- **A commit keeps written metadata accepted exactly if it brings such.** -/
theorem EnforcedCall.commit_iff (h : MetadataAccepted validate p o S log db) (hdb : db.Good)
    (hread : ReadBefore p o S log snapshot db) (hr : c.call.result snapshot = .ok (r, ws))
    (hadm : Admissible ws db) :
    MetadataAccepted validate p o S (log ++ [(c, snapshot)]) (applyAll ws db)
      ↔ UploadAccepted validate p o S db c snapshot := by
  have hsnap := hread.enforcing.good
  cases c.call.metadataEffect hsnap hr with
  | keep hsets hupload hws =>
    refine iff_of_true (fun f' hf' hp ho hset => ?_) fun m hm => by rw [hupload] at hm; cases hm
    obtain ⟨f, hf, hsame⟩ := mem_files_of_keepsMetadata hws hf'
    rw [← hsame.metadata]
    refine h f hf (hsame.projectId.trans hp) (hsame.organizationId.trans ho) ?_
    rw [hsame.id]
    exact (metadataSet_append.mp hset).resolve_right (hsets _)
  | upload hsets hupload ho hp hrest =>
    rename_i record rest
    have hfiles : applyAll (.insert .files record :: rest) db .files = db .files ++ [record] := by
      rw [applyAll_cons, applyAll_of_table_ne hrest, apply_insert_self]
    constructor
    · intro h' m hm hcp hco
      have hset : MetadataSet (log ++ [(c, snapshot)]) record.id :=
        metadataSet_append.mpr (.inr ((hsets _).mpr rfl))
      obtain rfl : record.metadata = m := Option.some.inj (hupload.symm.trans hm)
      exact h' record (by rw [hfiles]; exact List.mem_append_right _ (List.mem_singleton_self _))
        (hp.trans hcp) (ho.trans hco) hset
    · intro haccepted f' hf' hp' ho' hset
      rw [hfiles, List.mem_append, List.mem_singleton] at hf'
      rcases hf' with hf' | rfl
      · refine h f' hf' hp' ho' ((metadataSet_append.mp hset).resolve_right fun hset => ?_)
        exact hadm.1 f' hf' ((hsets _).mp hset)
      · exact haccepted _ hupload (hp.symm.trans hp') (ho.symm.trans ho')
  | write hsets hupload hrecord hvalid =>
    rename_i record metadata
    refine iff_of_true (fun f' hf' hp ho hset => ?_) fun m hm => by rw [hupload] at hm; cases hm
    rw [files_save] at hf'
    obtain ⟨f, hf, rfl⟩ := List.mem_map.mp hf'
    split at hp <;> rename_i hid
    · simp only [hid, if_true] at ho hset ⊢
      obtain ⟨hmem, -, hro, hrp, -⟩ := FileRepository.of_get hrecord
      obtain ⟨hfo, hfp⟩ := file_owner_eq hread.keeps hdb.uniquePk hmem hf hid
      -- the file is the project's, so the call is about the project
      have hcp : c.call.projectId = p := by rw [← hrp, ← hfp]; exact hp
      have hco : c.call.ctx.organizationId = o := by rw [← hro, ← hfo]; exact ho
      rw [hcp] at hvalid
      have haccepted := hread.enforcing.accepted hco hvalid
      rw [c.validator] at haccepted
      have hflush : ((record.flush
          { record with metadata := metadata, updatedAt := c.call.env.now }).toFun
          f).metadata = flushColumn record.metadata metadata f.metadata := rfl
      rw [hflush, flushColumn]
      split
      · -- nothing to write: the file has the metadata it was read with, or that of another call
        rename_i hsame
        rcases hread.metadata f hf record hmem hid with heq | hset
        · rwa [heq, ← hsame]
        · exact h f hf hp ho hset
      · exact haccepted
    · simp only [hid, if_false] at ho hset ⊢
      exact h f hf hp ho
        ((metadataSet_append.mp hset).resolve_right fun hset => hid ((hsets _).mp hset))

/-- In any run the project goes on enforcing its schema. -/
theorem enforcing_of_logged {start : Database} (hstart : start.Good)
    (h : EnforcedProject start p o S) {commits : Guard Table.Row (EnforcedCall validate p o)}
    {w : World Table.Row (EnforcedCall validate p o)}
    (hw : Logged (enforcedCalls validate p o) commits (· = start) log w) :
    Enforcing p o S w.store ∧ ∀ x ∈ w.inflight, ReadBefore p o S log x.2 w.store := by
  refine hw.invariant (P := fun _ db => Enforcing p o S db)
    (Q := fun log _ snapshot db => ReadBefore p o S log snapshot db) ?_ ?_ ?_
  · rintro _ rfl
    exact h.enforcing hstart
  · exact fun log c db hdb => ⟨hdb, .refl db, fun _ hk => hk, fun f hf record hrecord hid =>
      .inl (by rw [hdb.good.uniquePk.eq_of_pk (t := .files) hf hrecord hid])⟩
  · intro log db c snapshot ws hdb hread hws hadm _
    obtain ⟨r, hr⟩ := ServiceResult.writes_eq_some.mp hws
    obtain ⟨henforcing, hkeeps⟩ := hdb.commit hread hr hadm
    exact ⟨henforcing, fun _ _ hsnap => hsnap.commit hread hr hkeeps⟩

/-- **Written metadata is accepted exactly where uploads bring such**: in a project that enforces
its schema, runs whose uploads all bring metadata the schema accepts have nothing else on file,
and the first upload that does not brings in metadata that is rejected. -/
theorem schema_enforced_iff {start : Database} (hstart : start.Good)
    (h : EnforcedProject start p o S) :
    (∀ log w,
      Logged (enforcedCalls validate p o) (UploadAccepted validate p o S) (· = start) log w →
        MetadataAccepted validate p o S log w.store)
      ∧ ∀ log w log' w', Logged (enforcedCalls validate p o) .always (· = start) log w →
        MetadataAccepted validate p o S log w.store →
        LogStep (enforcedCalls validate p o) .always log w log' w' →
          (MetadataAccepted validate p o S log' w'.store
            ↔ LogStep (enforcedCalls validate p o) (UploadAccepted validate p o S) log w
              log' w') := by
  have hstep : ∀ {commits : Guard Table.Row (EnforcedCall validate p o)} {log w log' w'},
      Logged (enforcedCalls validate p o) commits (· = start) log w →
      MetadataAccepted validate p o S log w.store →
      LogStep (enforcedCalls validate p o) .always log w log' w' →
        (MetadataAccepted validate p o S log' w'.store
          ↔ LogStep (enforcedCalls validate p o) (UploadAccepted validate p o S) log w
            log' w') := by
    intro commits log w log' w' hw haccepted hs
    obtain ⟨henforcing, hinflight⟩ := enforcing_of_logged hstart h hw
    refine LogStep.iff_of_commit (P := MetadataAccepted validate p o S) haccepted ?_ hs
    intro c snapshot ws hmem hws hadm
    obtain ⟨r, hr⟩ := ServiceResult.writes_eq_some.mp hws
    exact EnforcedCall.commit_iff haccepted henforcing.good (hinflight _ hmem) hr hadm
  refine ⟨fun log w hw => ?_, fun log w log' w' => hstep⟩
  induction hw with
  | init hdb =>
    rintro f - - - ⟨x, hx, -⟩
    cases hx
  | step hw hs ih => exact (hstep hw ih hs.always).mpr hs

end Runs

/-- A validator that asks for a key. -/
def requireKind : Validator := fun _ metadata =>
  if (Fields.get? metadata "kind").isSome then .ok ()
  else .error ("'kind' is a required property", [])

/-- `SET enforce_schema = true`; no operation does that. -/
def enforceSchema : Patch Table.Row .projectConfigs where
  toFun := fun (r : ProjectConfig) => ({ r with enforceSchema := true } : ProjectConfig)
  pk_toFun := fun _ => rfl
  owner_toFun := fun _ => rfl

/-- A project with a schema that it enforces. -/
def enforcedDb : Database :=
  applyAll [.update .projectConfigs "p2" enforceSchema]
    (runAll (schemaProject ++ [newSchema "s" 2]) Database.empty)

/-- Its schema. -/
def enforcedSchema : MetadataSchema where
  id := "s0"
  organizationId := "acme"
  projectId := "p0"
  version := 1
  schemaJson := [("type", .str "object")]
  isActive := true
  createdAt := 2

theorem reached_enforcedDb : Reached enforcedDb :=
  (reached_runAll .empty _).run (.background [.update .projectConfigs "p2" enforceSchema]
    (List.forall_mem_singleton.mpr (.update _ _ _))) rfl (by decide)

theorem enforcedProject_enforcedDb : EnforcedProject enforcedDb "p0" "acme" enforcedSchema where
  config := ⟨_, rfl, rfl⟩
  schema := rfl

/-- An upload with metadata to that project. -/
def enforcedUpload (metadata : Fields) : EnforcedCall requireKind "p0" "acme" where
  call := ⟨orgContext "acme", { devEnv "f" 3 with validateSchema := requireKind }, "p0", .initUpload
    { filename := "a.txt", contentType := "text/plain", sizeBytes := 1, metadata := metadata }⟩
  validator := rfl
  keepsSchema := fun schema h => by cases h

/-- A replacement of the metadata of the uploaded file. -/
def enforcedUpdate (metadata : Fields) : EnforcedCall requireKind "p0" "acme" where
  call := ⟨orgContext "acme", { devEnv "u" 4 with validateSchema := requireKind }, "p0",
    .updateMetadata "f0" metadata⟩
  validator := rfl
  keepsSchema := fun schema h => by cases h

/-- An upload that the schema accepts, and a replacement. -/
theorem schema_enforced_upload : ∃ log w,
    Logged (enforcedCalls requireKind "p0" "acme")
      (UploadAccepted requireKind "p0" "acme" enforcedSchema) (· = enforcedDb) log w
      ∧ (w.store .files).map File.metadata = [[("kind", .str "memo")]]
      ∧ MetadataAccepted requireKind "p0" "acme" enforcedSchema log w.store := by
  have hstart : Logged (enforcedCalls requireKind "p0" "acme")
    (UploadAccepted requireKind "p0" "acme" enforcedSchema) (· = enforcedDb) [] ⟨enforcedDb, []⟩ :=
    .init rfl
  have hupload := (hstart.step (.read (enforcedUpload [("kind", .str "note")]))).step
    (.commit [] [] rfl (by decide) fun m hm _ _ => by cases hm; rfl)
  have hupdate := (hupload.step (.read (enforcedUpdate [("kind", .str "memo")]))).step
    (.commit [] [] rfl (by decide) fun m hm _ _ => by cases hm)
  exact ⟨_, _, hupdate, by decide,
    (schema_enforced_iff reached_enforcedDb.good enforcedProject_enforcedDb).1 _ _ hupdate⟩

/-- An upload of metadata that the schema rejects. -/
theorem schema_unenforced : ¬∀ validate p o S start, Reached start → EnforcedProject start p o S →
    ∀ log w, Logged (enforcedCalls validate p o) .always (· = start) log w →
      MetadataAccepted validate p o S log w.store := by
  intro h
  have hstart : Logged (enforcedCalls requireKind "p0" "acme") .always (· = enforcedDb) []
    ⟨enforcedDb, []⟩ := .init rfl
  have hupload := (hstart.step (.read (enforcedUpload []))).step
    (.commit [] [] rfl (by decide) trivial)
  have haccepted := h requireKind "p0" "acme" enforcedSchema enforcedDb reached_enforcedDb
    enforcedProject_enforcedDb _ _ hupload
  have hfile := haccepted _ List.mem_cons_self rfl rfl ⟨_, List.mem_cons_self, rfl⟩
  exact absurd hfile (by decide)

end FileNest
