import FileNest.Queries

/-!
# What the operations write

Whatever an operation commits belongs to the caller's organisation and to the project
it is addressed to, in a fixed list of tables, and names only rows on record.  This is
one lemma an operation; everything about confinement follows from
`Operation.sound`.

## Main definitions

* `Operation.tables` — the tables an operation may write.
* `Operation.target` — the project its rows belong to.
* `Sound` — confined to a project, with good references.

## Main results

* `Operation.sound` — **every operation is sound.**
* `handle_sound` — and so is every request.
-/

namespace FileNest

open RowStore ReadCommitted

/-- The tables an operation may write. -/
def Operation.tables : Operation → List Table
  | initUpload _ => [.files, .outboxMessages]
  | confirmUpload _ | restoreVersion _ _ => [.files, .fileVersions, .outboxMessages]
  | deleteFile _ => [.files, .outboxMessages]
  | setTags _ _ | addTags _ _ | renameFile _ _ | moveFile _ _ | updateMetadata _ _
  | mergeMetadata _ _ => [.files]
  | multipartStart _ | multipartAbort _ => [.files, .uploadSessions]
  | multipartComplete _ _ => [.files, .fileVersions, .uploadSessions, .outboxMessages]
  | createFolder _ | ensureFolderPath _ | deleteFolder _ => [.folders]
  | createSchema _ => [.metadataSchemas]
  | createWebhook _ | updateWebhook _ _ | deleteWebhook _ => [.webhooks]
  | createUploadToken _ => [.folders, .uploadTokens]
  | updateUploadConfig _ | updateSecurityConfig _ | updateProcessingConfig _
  | updateComplianceConfig _ => [.projectConfigs]
  | updateStorageConfig _ | verifyStorage | updateStorageSse _ => [.storageConfigs]
  | updateProject _ | deleteProject => [.projects]
  | createProject _ => [.projects, .storageConfigs, .projectConfigs]
  | getDownloadUrl _ _ _ | getFile _ | listFiles _ | listVersions _ | getVersionDownloadUrl _ _ _
  | multipartPartUrl _ _ _ | listFolders _ | getFolderByPath _ | getFolder _
  | listFolderFiles _ _ | listSchemas | listWebhooks | listDeliveries _ _ | getProjectConfig
  | getStorageConfig | getProject | listProjects _ | getUsage | getDashboard => []

/-- The project an operation's rows belong to: the one addressed, or the one created. -/
def Operation.target (env : Env) (projectId : String) : Operation → String
  | createProject _ => env.uuid4 0
  | _ => projectId

/-- All a request does to the outbox is to insert rows that are not published. -/
def Enqueues : DbWrite → Prop
  | .insert .outboxMessages (row : OutboxMessage) => row.publishedAt = none
  | .insert _ _ => True
  | .update t _ _ => t ≠ .outboxMessages
  | .delete t _ => t ≠ .outboxMessages

/-- Confined to some tables of a project, with good references, enqueueing its events. -/
structure Sound (o p : String) (ts : List Table) (db : Database) (ws : List DbWrite) : Prop where
  tables : ∀ w ∈ ws, w.table ∈ ts
  confined : ConfinedTo (tenantRegion o p ts) db ws
  resolved : Resolved refs ws db
  enqueues : ∀ w ∈ ws, Enqueues w

/-- The same of one write. -/
structure SoundWrite (o p : String) (ts : List Table) (db : Database) (w : DbWrite) : Prop where
  table : w.table ∈ ts
  confined : w.ConfinedTo (tenantRegion o p ts) db
  resolved : w.Resolved refs db
  enqueues : Enqueues w

section Writes

variable {o p : String} {ts : List Table} {db : Database}

theorem Sound.of_forall {ws : List DbWrite} (h : ∀ w ∈ ws, SoundWrite o p ts db w) :
    Sound o p ts db ws :=
  ⟨fun w hw => (h w hw).table, fun w hw => (h w hw).confined,
    Resolved.of_forall fun w hw => (h w hw).resolved,
    fun w hw => (h w hw).enqueues⟩

theorem Sound.nil : Sound o p ts db [] := .of_forall fun w hw => by simp at hw

/-- An insert into a table whose rows name nothing. -/
theorem soundWrite_insert {t : Table} {row : t.Row} (ht : t ∈ ts)
    (ho : (owner row).organizationId = o) (hp : (owner row).projectId = p)
    (hrefs : refs t (owner row) = none) (henq : Enqueues (.insert t row) := by trivial) :
    SoundWrite o p ts db (.insert t row) := by
  refine ⟨ht, ?_, fun k hk => ?_, henq⟩
  · simpa [Write.ConfinedTo] using ⟨ht, ho, hp⟩
  · rw [hrefs] at hk
    cases hk

/-- An update of a row that was found in the project. -/
theorem soundWrite_update (hdb : db.Good) {t : Table} {row : t.Row} (hrow : row ∈ db t)
    (ht : t ∈ ts) (ho : (owner row).organizationId = o) (hp : (owner row).projectId = p)
    (f : Patch Table.Row t) (henq : t ≠ .outboxMessages) :
    SoundWrite o p ts db (.update t (pk row) f) := by
  refine ⟨ht, confinedTo_update_of_mem hdb.uniquePk hrow ?_ f, trivial, henq⟩
  simpa using ⟨ht, ho, hp⟩

/-- A file of a configured project. -/
theorem soundWrite_insert_file (hdb : db.Good) {config : ProjectConfig}
    (hconfig : config ∈ db .projectConfigs) (hcp : config.projectId = p)
    (hco : config.organizationId = o) {row : File} (ht : Table.files ∈ ts)
    (ho : row.organizationId = o) (hp : row.projectId = p) :
    SoundWrite o p ts db (.insert .files row) := by
  refine ⟨ht, by simpa [Write.ConfinedTo] using ⟨ht, ho, hp⟩, fun k hk => ?_, trivial⟩
  cases hk
  have := hdb.project_of_config hconfig
  simpa [Store.Has, ho, hp, hcp, hco] using this

/-- A version of a file of the project. -/
theorem soundWrite_versionRow {ctx : TenantContext} {env : Env} {draw versionNumber : ℕ}
    {key contentType : String} {sizeBytes : ℤ} {record : File}
    (hrecord : record ∈ db .files) (ho : record.organizationId = ctx.organizationId)
    (hp : record.projectId = p) (ht : Table.fileVersions ∈ ts) :
    SoundWrite ctx.organizationId p ts db
      (versionRow ctx env p draw record.id versionNumber key sizeBytes contentType) := by
  refine ⟨ht, by simpa [versionRow, Write.ConfinedTo] using ht, fun k hk => ?_, trivial⟩
  cases hk
  have := mem_keys_of_mem hrecord
  rwa [owner_eq_rowOwner, rowOwner, ho, hp] at this

theorem soundWrite_publish {ctx : TenantContext} {env : Env} {draw : ℕ} {event : String}
    {payload : Fields} (ht : Table.outboxMessages ∈ ts) :
    SoundWrite ctx.organizationId p ts db (publish ctx env p draw event payload) :=
  soundWrite_insert ht rfl rfl rfl

/-- The update of a file found in the project. -/
theorem soundWrite_save_file (hdb : db.Good) {record : File} (hrecord : record ∈ db .files)
    (ho : record.organizationId = o) (hp : record.projectId = p) (ht : Table.files ∈ ts)
    (new : File) : SoundWrite o p ts db (record.save new) :=
  soundWrite_update hdb (t := .files) hrecord ht ho hp _ (by simp)

end Writes

/-! ### File operations -/

section Operations

variable {ctx : TenantContext} {env : Env} {db : Database} {projectId : String}
  {r : Response} {ws : List DbWrite} (hdb : db.Good)

variable (ctx env projectId) in
/-- The event that settles an upload is an outbox row. -/
theorem settleUpload_event (config : ProjectConfig) (record : File) :
    ∃ event payload, (FileService.settleUpload ctx env projectId config record).2
      = publish ctx env projectId 1 event payload := by
  simp only [FileService.settleUpload]
  split <;> exact ⟨_, _, rfl⟩

include hdb

theorem FileService.initUpload_sound {req : UploadInitRequest}
    (h : initUpload ctx env db projectId req = .ok (r, ws)) :
    Sound ctx.organizationId projectId [.files, .outboxMessages] db ws := by
  simp only [initUpload, bind_eq_ok, pure_eq_ok, Prod.mk.injEq] at h
  obtain ⟨config, hconfig, _, -, -, -, -, -, _, -, _, -, -, rfl⟩ := h
  obtain ⟨hmem, hp, ho⟩ := ProjectConfigRepository.of_getForProject hconfig
  refine .of_forall fun w hw => ?_
  simp only [List.mem_cons, List.not_mem_nil, or_false] at hw
  rcases hw with rfl | rfl
  · exact soundWrite_insert_file hdb hmem hp ho (by simp) rfl rfl
  · exact soundWrite_publish (by simp)

theorem FileService.confirmUpload_sound {fileId : String}
    (h : confirmUpload ctx env db projectId fileId = .ok (r, ws)) :
    Sound ctx.organizationId projectId [.files, .fileVersions, .outboxMessages] db ws := by
  simp only [confirmUpload, bind_eq_ok] at h
  obtain ⟨record, hrecord, config, -, h⟩ := h
  obtain ⟨hmem, -, ho, hp, -⟩ := FileRepository.of_get hrecord
  obtain ⟨event, payload, hevent⟩ := settleUpload_event ctx env projectId config record
  split at h <;> simp only [pure_eq_ok, Prod.mk.injEq] at h <;> obtain ⟨-, rfl⟩ := h <;>
    rw [hevent] <;> refine .of_forall fun w hw => ?_ <;>
    simp only [List.mem_cons, List.not_mem_nil, or_false] at hw
  · rcases hw with rfl | rfl | rfl
    · exact soundWrite_versionRow hmem ho hp (by simp)
    · exact soundWrite_save_file hdb hmem ho hp (by simp) _
    · exact soundWrite_publish (by simp)
  · rcases hw with rfl | rfl
    · exact soundWrite_save_file hdb hmem ho hp (by simp) _
    · exact soundWrite_publish (by simp)

theorem FileService.restoreVersion_sound {fileId versionId : String}
    (h : restoreVersion ctx env db projectId fileId versionId = .ok (r, ws)) :
    Sound ctx.organizationId projectId [.files, .fileVersions, .outboxMessages] db ws := by
  simp only [restoreVersion, bind_eq_ok, pure_eq_ok, Prod.mk.injEq] at h
  obtain ⟨record, hrecord, version, -, -, rfl⟩ := h
  obtain ⟨hmem, -, ho, hp, -⟩ := FileRepository.of_get hrecord
  refine .of_forall fun w hw => ?_
  simp only [List.mem_cons, List.not_mem_nil, or_false] at hw
  rcases hw with rfl | rfl | rfl
  · exact soundWrite_versionRow hmem ho hp (by simp)
  · exact soundWrite_save_file hdb hmem ho hp (by simp) _
  · exact soundWrite_publish (by simp)

theorem FileService.deleteFile_sound {fileId : String}
    (h : deleteFile ctx env db projectId fileId = .ok (r, ws)) :
    Sound ctx.organizationId projectId [.files, .outboxMessages] db ws := by
  simp only [deleteFile, bind_eq_ok, pure_eq_ok, Prod.mk.injEq] at h
  obtain ⟨record, hrecord, -, rfl⟩ := h
  obtain ⟨hmem, -, ho, hp, -⟩ := FileRepository.of_get hrecord
  refine .of_forall fun w hw => ?_
  simp only [List.mem_cons, List.not_mem_nil, or_false] at hw
  rcases hw with rfl | rfl
  · exact soundWrite_save_file hdb hmem ho hp (by simp) _
  · exact soundWrite_publish (by simp)

theorem FileService.modifyFile_sound {fileId : String} {change : File → File}
    {respond : File → Response}
    (h : modifyFile ctx db projectId fileId change respond = .ok (r, ws)) :
    Sound ctx.organizationId projectId [.files] db ws := by
  simp only [modifyFile, bind_eq_ok, pure_eq_ok, Prod.mk.injEq] at h
  obtain ⟨record, hrecord, -, rfl⟩ := h
  obtain ⟨hmem, -, ho, hp, -⟩ := FileRepository.of_get hrecord
  refine .of_forall fun w hw => ?_
  obtain rfl := List.mem_singleton.mp hw
  exact soundWrite_save_file hdb hmem ho hp (by simp) _

/-! ### Multipart and folder operations -/

theorem MultipartUploadService.start_sound {req : MultipartStartRequest}
    (h : start ctx env db projectId req = .ok (r, ws)) :
    Sound ctx.organizationId projectId [.files, .uploadSessions] db ws := by
  simp only [start, bind_eq_ok, pure_eq_ok, Prod.mk.injEq] at h
  obtain ⟨config, hconfig, -, -, -, -, _, -, _, -, -, rfl⟩ := h
  obtain ⟨hmem, hp, ho⟩ := ProjectConfigRepository.of_getForProject hconfig
  constructor
  · simp
  · intro w hw
    simp only [List.mem_cons, List.not_mem_nil, or_false] at hw
    rcases hw with rfl | rfl <;> simp [Write.ConfinedTo]
  · have hts : Table.files ∈ [Table.files] := List.mem_cons_self
    refine ⟨(soundWrite_insert_file hdb hmem hp ho hts rfl rfl).resolved, fun k hk => ?_, trivial⟩
    -- the session names the file inserted just before
    cases hk
    simp [Store.Has, Store.keys, pk, rowId]
  · intro w hw
    simp only [List.mem_cons, List.not_mem_nil, or_false] at hw
    rcases hw with rfl | rfl <;> trivial

theorem MultipartUploadService.complete_sound {uploadId : String}
    {req : MultipartCompleteRequest}
    (h : complete ctx env db projectId uploadId req = .ok (r, ws)) :
    Sound ctx.organizationId projectId [.files, .fileVersions, .uploadSessions, .outboxMessages]
      db ws := by
  simp only [complete, bind_eq_ok] at h
  obtain ⟨session, hsession, record, hrecord, config, -, _, -, -, -, h⟩ := h
  obtain ⟨hmem, hid, ho, hp, -⟩ := FileRepository.of_get hrecord
  obtain ⟨hsmem, -, hso⟩ := UploadSessionRepository.of_get hsession
  have hsp := (hdb.session_file hsmem hmem hid).2
  obtain ⟨event, payload, hevent⟩ := settleUpload_event ctx env projectId config record
  have hsave : ∀ new, SoundWrite ctx.organizationId projectId
      [.files, .fileVersions, .uploadSessions, .outboxMessages] db (session.save new) := fun new =>
    soundWrite_update hdb (t := .uploadSessions) hsmem (by simp) hso (hsp.symm.trans hp) _
      (by simp)
  split at h
  · split at h
    · simp only [pure_eq_ok, Prod.mk.injEq] at h
      obtain ⟨-, rfl⟩ := h
      refine .of_forall fun w hw => ?_
      simp only [hevent, List.mem_cons, List.not_mem_nil, or_false] at hw
      rcases hw with rfl | rfl | rfl | rfl
      · exact hsave _
      · exact soundWrite_versionRow hmem ho hp (by simp)
      · exact soundWrite_save_file hdb hmem ho hp (by simp) _
      · exact soundWrite_publish (by simp)
    · simp at h
  · simp only [pure_eq_ok, Prod.mk.injEq] at h
    obtain ⟨-, rfl⟩ := h
    refine .of_forall fun w hw => ?_
    simp only [hevent, List.mem_cons, List.not_mem_nil, or_false] at hw
    rcases hw with rfl | rfl | rfl
    · exact hsave _
    · exact soundWrite_save_file hdb hmem ho hp (by simp) _
    · exact soundWrite_publish (by simp)

theorem MultipartUploadService.abort_sound {uploadId : String}
    (h : abort ctx env db projectId uploadId = .ok (r, ws)) :
    Sound ctx.organizationId projectId [.files, .uploadSessions] db ws := by
  simp only [abort, bind_eq_ok, pure_eq_ok, Prod.mk.injEq] at h
  obtain ⟨session, hsession, record, hrecord, _, -, -, -, -, rfl⟩ := h
  obtain ⟨hmem, hid, ho, hp, -⟩ := FileRepository.of_get hrecord
  obtain ⟨hsmem, -, hso⟩ := UploadSessionRepository.of_get hsession
  have hsp := (hdb.session_file hsmem hmem hid).2
  refine .of_forall fun w hw => ?_
  simp only [List.mem_cons, List.not_mem_nil, or_false] at hw
  rcases hw with rfl | rfl
  · exact soundWrite_update hdb (t := .uploadSessions) hsmem (by simp) hso (hsp.symm.trans hp) _
      (by simp)
  · exact soundWrite_save_file hdb hmem ho hp (by simp) _

omit hdb in
theorem soundWrite_folderRow {draw : ℕ} {name path : String} {parent : Option String}
    {ts : List Table} (ht : Table.folders ∈ ts) :
    SoundWrite ctx.organizationId projectId ts db
      (.insert .folders (folderRow ctx env projectId draw name path parent)) :=
  soundWrite_insert ht rfl rfl rfl

omit hdb in
/-- Walking a path only inserts folders. -/
theorem resolvePath_sound {segments : List String} {draw : ℕ} {path : String}
    {last leaf : Option Folder} {writes : List DbWrite} {ts : List Table}
    (ht : Table.folders ∈ ts)
    (h : resolvePath ctx env db projectId segments draw path last = .ok (leaf, writes)) :
    ∀ w ∈ writes, SoundWrite ctx.organizationId projectId ts db w := by
  induction segments generalizing draw path last leaf writes with
  | nil =>
    simp only [resolvePath, pure_eq_ok, Prod.mk.injEq] at h
    obtain ⟨-, rfl⟩ := h
    simp
  | cons segment segments ih =>
    simp only [resolvePath, bind_eq_ok] at h
    obtain ⟨existing, -, h⟩ := h
    cases existing with
    | some existing => exact ih h
    | none =>
      simp only [bind_eq_ok, pure_eq_ok, Prod.mk.injEq] at h
      obtain ⟨⟨leaf', writes'⟩, hrec, -, rfl⟩ := h
      intro w hw
      rcases List.mem_cons.mp hw with rfl | hw
      · exact soundWrite_folderRow ht
      · exact ih hrec w hw

omit hdb in
theorem FolderService.createFolder_sound {req : FolderCreateRequest}
    (h : createFolder ctx env db projectId req = .ok (r, ws)) :
    Sound ctx.organizationId projectId [.folders] db ws := by
  simp only [createFolder, bind_eq_ok, pure_eq_ok, Prod.mk.injEq] at h
  obtain ⟨path, -, -, rfl⟩ := h
  refine .of_forall fun w hw => ?_
  obtain rfl := List.mem_singleton.mp hw
  exact soundWrite_folderRow (by simp)

omit hdb in
theorem FolderService.ensurePath_sound {req : EnsurePathRequest}
    (h : ensurePath ctx env db projectId req = .ok (r, ws)) :
    Sound ctx.organizationId projectId [.folders] db ws := by
  simp only [ensurePath, bind_eq_ok] at h
  obtain ⟨⟨leaf, writes⟩, hwalk, h⟩ := h
  cases leaf with
  | none => simp at h
  | some record =>
    simp only [pure_eq_ok, Prod.mk.injEq] at h
    obtain ⟨-, rfl⟩ := h
    exact .of_forall (resolvePath_sound (by simp) hwalk)

theorem FolderService.deleteFolder_sound {folderId : String}
    (h : deleteFolder ctx env db projectId folderId = .ok (r, ws)) :
    Sound ctx.organizationId projectId [.folders] db ws := by
  simp only [deleteFolder] at h
  split at h
  · simp at h
  · split at h
    · simp at h
    · simp only [bind_eq_ok, pure_eq_ok, Prod.mk.injEq] at h
      obtain ⟨record, hrecord, -, rfl⟩ := h
      obtain ⟨hmem, -, ho, hp, -⟩ := FolderRepository.of_get hrecord
      refine .of_forall fun w hw => ?_
      obtain rfl := List.mem_singleton.mp hw
      exact soundWrite_update hdb (t := .folders) hmem (by simp) ho hp _ (by simp)

/-! ### Metadata, webhooks and upload tokens -/

omit hdb in
theorem MetadataSchemaRepository.deactivateAll_sound {o p : String} {ts : List Table}
    (hdb : db.Good) (ht : Table.metadataSchemas ∈ ts) :
    ∀ w ∈ deactivateAll db p o, SoundWrite o p ts db w := by
  intro w hw
  obtain ⟨r, hr, rfl⟩ := List.mem_map.mp hw
  have hr := List.mem_filter.mp hr
  simp only [Bool.and_eq_true, beq_iff_eq] at hr
  exact soundWrite_update hdb (t := .metadataSchemas) hr.1 ht hr.2.1.2 hr.2.1.1 _ (by simp)

theorem MetadataService.createSchema_sound {schema : Fields}
    (h : createSchema ctx env db projectId schema = .ok (r, ws)) :
    Sound ctx.organizationId projectId [.metadataSchemas] db ws := by
  simp only [createSchema, pure_eq_ok, Prod.mk.injEq] at h
  obtain ⟨-, rfl⟩ := h
  refine .of_forall fun w hw => ?_
  rcases List.mem_append.mp hw with hw | hw
  · exact MetadataSchemaRepository.deactivateAll_sound hdb (by simp) w hw
  · obtain rfl := List.mem_singleton.mp hw
    exact soundWrite_insert (by simp) rfl rfl rfl

theorem MetadataService.updateMetadata_sound {fileId : String} {metadata : Fields}
    (h : updateMetadata ctx env db projectId fileId metadata = .ok (r, ws)) :
    Sound ctx.organizationId projectId [.files] db ws := by
  simp only [updateMetadata, bind_eq_ok] at h
  obtain ⟨-, -, h⟩ := h
  exact FileService.modifyFile_sound hdb h

theorem MetadataService.mergeMetadata_sound {fileId : String} {updates : Fields}
    (h : mergeMetadata ctx env db projectId fileId updates = .ok (r, ws)) :
    Sound ctx.organizationId projectId [.files] db ws := by
  simp only [mergeMetadata, bind_eq_ok] at h
  obtain ⟨-, -, -, -, h⟩ := h
  exact FileService.modifyFile_sound hdb h

omit hdb in
theorem WebhookService.create_sound {req : WebhookCreateRequest}
    (h : create ctx env projectId req = .ok (r, ws)) :
    Sound ctx.organizationId projectId [.webhooks] db ws := by
  simp only [create, pure_eq_ok, Prod.mk.injEq] at h
  obtain ⟨-, rfl⟩ := h
  refine .of_forall fun w hw => ?_
  obtain rfl := List.mem_singleton.mp hw
  exact soundWrite_insert (by simp) rfl rfl rfl

theorem WebhookService.update_sound {webhookId : String} {req : WebhookUpdateRequest}
    (h : update ctx env db projectId webhookId req = .ok (r, ws)) :
    Sound ctx.organizationId projectId [.webhooks] db ws := by
  simp only [update, bind_eq_ok, pure_eq_ok, Prod.mk.injEq] at h
  obtain ⟨webhook, hwebhook, -, rfl⟩ := h
  obtain ⟨hmem, -, ho, hp⟩ := WebhookRepository.of_get hwebhook
  refine .of_forall fun w hw => ?_
  obtain rfl := List.mem_singleton.mp hw
  exact soundWrite_update hdb (t := .webhooks) hmem (by simp) ho hp _ (by simp)

theorem WebhookService.delete_sound {webhookId : String}
    (h : delete ctx db projectId webhookId = .ok (r, ws)) :
    Sound ctx.organizationId projectId [.webhooks] db ws := by
  simp only [delete, bind_eq_ok, pure_eq_ok, Prod.mk.injEq] at h
  obtain ⟨webhook, hwebhook, -, rfl⟩ := h
  obtain ⟨hmem, -, ho, hp⟩ := WebhookRepository.of_get hwebhook
  refine .of_forall fun w hw => ?_
  obtain rfl := List.mem_singleton.mp hw
  refine ⟨List.mem_cons_self, fun (row : Webhook) hrow hid => ?_, fun u q k hk => ?_,
    Table.noConfusion⟩
  · obtain rfl : row = webhook := hdb.uniquePk.eq_of_pk (t := .webhooks) hrow hmem
      (by simpa [pk, rowId] using hid)
    simp [ho, hp]
  · cases u <;> cases hk <;> simp

omit hdb in
theorem UploadTokenService.create_sound {req : CreateUploadTokenRequest}
    (h : create ctx env db projectId req = .ok (r, ws)) :
    Sound ctx.organizationId projectId [.folders, .uploadTokens] db ws := by
  simp only [create, bind_eq_ok, pure_eq_ok, Prod.mk.injEq] at h
  obtain ⟨config, -, -, -, ⟨folderId, folderWrites⟩, hfolder, -, rfl⟩ := h
  simp only [resolveTokenFolder] at hfolder
  refine .of_forall fun w hw => ?_
  simp only [List.mem_append, List.mem_cons, List.not_mem_nil, or_false] at hw
  rcases hw with hw | rfl | rfl
  · split at hfolder
    · simp only [bind_eq_ok, pure_eq_ok, Prod.mk.injEq] at hfolder
      obtain ⟨⟨leaf, writes⟩, hwalk, -, rfl⟩ := hfolder
      exact resolvePath_sound (by simp) hwalk w hw
    · simp only [pure_eq_ok, Prod.mk.injEq] at hfolder
      obtain ⟨-, rfl⟩ := hfolder
      simp at hw
  · exact soundWrite_insert (by simp) rfl rfl rfl
  · refine ⟨by simp [UploadTokenRepository.deleteExpired],
      fun (row : UploadToken) hrow hexp => ?_, fun u q k hk => ?_,
      Table.noConfusion⟩
    · simp only [Bool.and_eq_true, beq_iff_eq] at hexp
      simp [hexp.1.1, hexp.1.2]
    · cases u <;> cases hk <;> simp

/-! ### Projects, configuration and storage -/

theorem ProjectConfigService.updateWith_sound {change : ProjectConfig → ProjectConfig}
    (h : updateWith ctx env db projectId change = .ok (r, ws)) :
    Sound ctx.organizationId projectId [.projectConfigs] db ws := by
  simp only [updateWith, bind_eq_ok, pure_eq_ok, Prod.mk.injEq] at h
  obtain ⟨record, hrecord, -, rfl⟩ := h
  obtain ⟨hmem, hp, ho⟩ := ProjectConfigRepository.of_getForProject hrecord
  refine .of_forall fun w hw => ?_
  obtain rfl := List.mem_singleton.mp hw
  exact soundWrite_update hdb (t := .projectConfigs) hmem (by simp) ho hp _ (by simp)

/-- The update of a storage configuration found for the project. -/
theorem sound_save_storageConfig {loaded saved : StorageConfig} {now : ℕ}
    (hloaded : StorageConfigRepository.getForProject db projectId ctx.organizationId = .ok loaded) :
    Sound ctx.organizationId projectId [.storageConfigs] db [loaded.save saved now] := by
  obtain ⟨hmem, hp, ho⟩ := StorageConfigRepository.of_getForProject hloaded
  refine .of_forall fun w hw => ?_
  obtain rfl := List.mem_singleton.mp hw
  exact soundWrite_update hdb (t := .storageConfigs) hmem (by simp) ho hp _ (by simp)

theorem StorageConfigService.updateConfig_sound {req : StorageConfigUpdateRequest}
    (h : updateConfig ctx env db projectId req = .ok (r, ws)) :
    Sound ctx.organizationId projectId [.storageConfigs] db ws := by
  simp only [updateConfig, saveConfig, bind_eq_ok, pure_eq_ok, Prod.mk.injEq] at h
  obtain ⟨existing, hexisting, _, -, _, -, -, rfl⟩ := h
  exact sound_save_storageConfig hdb hexisting

theorem StorageConfigService.verify_sound (h : verify ctx env db projectId = .ok (r, ws)) :
    Sound ctx.organizationId projectId [.storageConfigs] db ws := by
  simp only [verify, bind_eq_ok] at h
  obtain ⟨record, hrecord, _, -, h⟩ := h
  split at h <;> simp only [pure_eq_ok, Prod.mk.injEq] at h <;> obtain ⟨-, rfl⟩ := h
  · exact sound_save_storageConfig hdb hrecord
  · exact sound_save_storageConfig hdb hrecord

theorem StorageConfigService.updateSse_sound {sseEnabled : Bool}
    (h : updateSse ctx env db projectId sseEnabled = .ok (r, ws)) :
    Sound ctx.organizationId projectId [.storageConfigs] db ws := by
  simp only [updateSse, saveConfig, bind_eq_ok] at h
  obtain ⟨existing, hexisting, h⟩ := h
  split at h
  · simp only [pure_eq_ok, Prod.mk.injEq] at h
    obtain ⟨-, rfl⟩ := h
    exact sound_save_storageConfig hdb hexisting
  · simp at h

/-- The update of a project of the organisation. -/
theorem sound_save_project {loaded saved : Project}
    (hloaded : ProjectRepository.get db projectId ctx.organizationId = .ok loaded) :
    Sound ctx.organizationId projectId [.projects] db [loaded.save saved] := by
  obtain ⟨hmem, hid, ho⟩ := ProjectRepository.of_get hloaded
  refine .of_forall fun w hw => ?_
  obtain rfl := List.mem_singleton.mp hw
  exact soundWrite_update hdb (t := .projects) hmem (by simp) ho hid _ (by simp)

theorem ProjectService.updateProject_sound {req : UpdateProjectRequest}
    (h : updateProject ctx env db projectId req = .ok (r, ws)) :
    Sound ctx.organizationId projectId [.projects] db ws := by
  simp only [updateProject, bind_eq_ok, pure_eq_ok, Prod.mk.injEq] at h
  obtain ⟨record, hrecord, -, rfl⟩ := h
  exact sound_save_project hdb hrecord

theorem ProjectService.deleteProject_sound (h : deleteProject ctx env db projectId = .ok (r, ws)) :
    Sound ctx.organizationId projectId [.projects] db ws := by
  simp only [deleteProject, bind_eq_ok, pure_eq_ok, Prod.mk.injEq] at h
  obtain ⟨record, hrecord, -, rfl⟩ := h
  exact sound_save_project hdb hrecord

omit hdb in
/-- A new project comes with the rows that name it. -/
theorem ProjectService.createProject_sound {req : CreateProjectRequest}
    (h : createProject ctx env db req = .ok (r, ws)) :
    Sound ctx.organizationId (env.uuid4 0) [.projects, .storageConfigs, .projectConfigs] db ws := by
  simp only [createProject, bind_eq_ok, pure_eq_ok, Prod.mk.injEq] at h
  obtain ⟨-, -, ⟨bucketName, status, lastVerifiedAt⟩, -, -, rfl⟩ := h
  constructor
  · simp
  · intro w hw
    simp only [List.mem_cons, List.not_mem_nil, or_false] at hw
    rcases hw with rfl | rfl | rfl <;> simp [Write.ConfinedTo]
  · refine ⟨fun k hk => (by cases hk), fun k hk => ?_, fun k hk => ?_, trivial⟩
    · cases hk
      simp [Store.Has, Store.keys, pk, rowId]
    · cases hk
      simp only [Store.Has, Store.keys]
      rw [apply_of_table_ne (by simp)]
      simp [pk, rowId]
  · intro w hw
    simp only [List.mem_cons, List.not_mem_nil, or_false] at hw
    rcases hw with rfl | rfl | rfl <;> trivial

/-! ### Operations that only read -/

/-- If the operation succeeds, it writes nothing. -/
def ReadsOnly (x : ServiceResult) : Prop := ∀ r ws, x = .ok (r, ws) → ws = []

omit hdb in
theorem ReadsOnly.done (r : Response) : ReadsOnly (readOnly r) := by
  rintro r' ws h
  simp only [readOnly, pure_eq_ok, Prod.mk.injEq] at h
  exact h.2.symm

omit hdb in
theorem ReadsOnly.bind {α : Type} {x : Except ApiError α} {f : α → ServiceResult}
    (h : ∀ a, ReadsOnly (f a)) : ReadsOnly (x >>= f) := by
  intro r ws hx
  obtain ⟨a, -, ha⟩ := bind_eq_ok.mp hx
  exact h a r ws ha

omit hdb in
theorem ReadsOnly.fail (e : ApiError) : ReadsOnly (throw e) := by
  rintro r ws h
  simp at h

omit hdb in
theorem FolderService.getByPath_readsOnly (path : String) :
    ReadsOnly (getByPath ctx db projectId path) := by
  refine .bind fun o => ?_
  cases o with
  | none => exact .fail _
  | some record => exact .done _

omit hdb in
/-- An operation without tables only reads. -/
theorem Operation.readsOnly {op : Operation} (h : op.tables = []) :
    ReadsOnly (op.run ctx env db projectId) := by
  cases op with
  | getDownloadUrl fileId ttl inline' =>
    exact .bind fun _ => .bind fun _ => .bind fun _ => .bind fun _ => .done _
  | getFile fileId => exact .bind fun _ => .done _
  | listFiles params => exact .done _
  | listVersions fileId => exact .bind fun _ => .done _
  | getVersionDownloadUrl fileId versionId ttl =>
    exact .bind fun _ => .bind fun _ => .bind fun _ => .bind fun _ => .bind fun _ => .done _
  | multipartPartUrl uploadId part ttl =>
    exact .bind fun _ => .bind fun _ => .bind fun _ => .bind fun _ => .bind fun _ => .done _
  | listFolders name => exact .done _
  | getFolderByPath path => exact FolderService.getByPath_readsOnly path
  | getFolder folderId => exact .bind fun _ => .done _
  | listFolderFiles folderId params => exact .bind fun _ => .done _
  | listSchemas => exact .done _
  | listWebhooks => exact .done _
  | listDeliveries webhookId limit => exact .bind fun _ => .done _
  | getProjectConfig => exact .bind fun _ => .done _
  | getStorageConfig => exact .bind fun _ => .done _
  | getProject => exact .bind fun _ => .done _
  | listProjects params => exact .done _
  | getUsage => exact .done _
  | getDashboard => exact .done _
  | _ => simp [tables] at h

/-! ### Every operation -/

/-- **Every operation is sound**: what it commits is confined to its tables in the project
it is about, and names rows on record. -/
theorem Operation.sound {op : Operation} (h : op.run ctx env db projectId = .ok (r, ws)) :
    Sound ctx.organizationId (op.target env projectId) op.tables db ws := by
  cases op with
  | initUpload req => exact FileService.initUpload_sound hdb h
  | confirmUpload fileId => exact FileService.confirmUpload_sound hdb h
  | restoreVersion fileId versionId => exact FileService.restoreVersion_sound hdb h
  | deleteFile fileId => exact FileService.deleteFile_sound hdb h
  | setTags fileId tags =>
    simp only [run, FileService.setTags] at h
    exact FileService.modifyFile_sound hdb h
  | addTags fileId tags =>
    simp only [run, FileService.addTags] at h
    exact FileService.modifyFile_sound hdb h
  | renameFile fileId req =>
    simp only [run, FileService.renameFile] at h
    exact FileService.modifyFile_sound hdb h
  | moveFile fileId folderId =>
    simp only [run, FileService.moveFile] at h
    exact FileService.modifyFile_sound hdb h
  | multipartStart req => exact MultipartUploadService.start_sound hdb h
  | multipartComplete uploadId req => exact MultipartUploadService.complete_sound hdb h
  | multipartAbort uploadId => exact MultipartUploadService.abort_sound hdb h
  | createFolder req => exact FolderService.createFolder_sound h
  | ensureFolderPath req => exact FolderService.ensurePath_sound h
  | deleteFolder folderId => exact FolderService.deleteFolder_sound hdb h
  | createSchema schema => exact MetadataService.createSchema_sound hdb h
  | updateMetadata fileId metadata => exact MetadataService.updateMetadata_sound hdb h
  | mergeMetadata fileId metadata => exact MetadataService.mergeMetadata_sound hdb h
  | createWebhook req => exact WebhookService.create_sound h
  | updateWebhook webhookId req => exact WebhookService.update_sound hdb h
  | deleteWebhook webhookId => exact WebhookService.delete_sound hdb h
  | createUploadToken req => exact UploadTokenService.create_sound h
  | updateUploadConfig req => exact ProjectConfigService.updateWith_sound hdb h
  | updateSecurityConfig req => exact ProjectConfigService.updateWith_sound hdb h
  | updateProcessingConfig req => exact ProjectConfigService.updateWith_sound hdb h
  | updateComplianceConfig req => exact ProjectConfigService.updateWith_sound hdb h
  | updateStorageConfig req => exact StorageConfigService.updateConfig_sound hdb h
  | verifyStorage => exact StorageConfigService.verify_sound hdb h
  | updateStorageSse sseEnabled => exact StorageConfigService.updateSse_sound hdb h
  | updateProject req => exact ProjectService.updateProject_sound hdb h
  | deleteProject => exact ProjectService.deleteProject_sound hdb h
  | createProject req => exact ProjectService.createProject_sound h
  -- the rest only read
  | _ =>
    obtain rfl := Operation.readsOnly rfl r ws h
    exact .nil

omit hdb in
/-- What a request commits is what its operation commits. -/
theorem handle_ok {req : Request} (h : handle ctx env req db = .ok (r, ws)) :
    req.op.dependency.check ctx env db req.projectId = .ok ()
      ∧ requireScope ctx req.op.requiredScopes = .ok ()
      ∧ req.op.run ctx env db req.projectId = .ok (r, ws) := by
  simp only [handle, bind_eq_ok] at h
  obtain ⟨_, hcheck, _, hscope, h⟩ := h
  split at h
  · simp at h
  · exact ⟨hcheck, hscope, h⟩

omit hdb in
/-- Past the checks the operation answers. -/
theorem handle_of_checks {req : Request}
    (hcheck : req.op.dependency.check ctx env db req.projectId = .ok ())
    (hscope : requireScope ctx req.op.requiredScopes = .ok ())
    (hvalid : req.op.metadataInvalid = false) :
    handle ctx env req db = req.op.run ctx env db req.projectId := by
  simp only [handle, hcheck, hscope, hvalid, Bool.false_eq_true, if_false]
  rfl

theorem handle_sound {req : Request} (h : handle ctx env req db = .ok (r, ws)) :
    Sound ctx.organizationId (req.op.target env req.projectId) req.op.tables db ws :=
  Operation.sound hdb (handle_ok h).2.2

end Operations

end FileNest
