import FileNest.Schemas

/-!
# File service

Uploads, versions, downloads and listings.  A service operation reads the database,
then either fails or gives its response together with the writes its transaction
commits; a failed operation commits nothing.

## Main definitions

* `ServiceResult` — a response and the writes committed with it.
* `validateUploadRequest`, `effectiveUpload` — the checks an upload passes.
* `FileService.initUpload`, `FileService.confirmUpload`,
  `FileService.restoreVersion`, … — the operations.
-/

namespace FileNest

open RowStore

/-- A response and the writes committed with it, or the error that rolled them back. -/
abbrev ServiceResult := Except ApiError (Response × List DbWrite)

/-- A transaction that writes nothing. -/
def readOnly (r : Response) : ServiceResult := pure (r, [])

/-- `{m.strip().lower() for m in csv.split(",")}`. -/
def csvSet (csv : String) : List String :=
  dictFromKeys ((Text.split ',' csv).map fun m => Text.lower (Text.strip m))

/-- Size limit of a project. -/
def checkSize (config : ProjectConfig) (sizeBytes : ℤ) : Except ApiError Unit :=
  match config.maxFileSizeBytes with
  | some m =>
      if m ≠ 0 ∧ m < sizeBytes then
        throw (fileTooLargeError ("File size " ++ Text.thousands sizeBytes ++
          " bytes exceeds the project limit of " ++ Text.thousands m ++ " bytes")
          [("size_bytes", .int sizeBytes), ("max_file_size_bytes", .int m)])
      else pure ()
  | none => pure ()

/-- MIME allowlist of a project. -/
def checkContentType (config : ProjectConfig) (contentType : String) : Except ApiError Unit :=
  match orNone config.allowedMimeTypes with
  | some csv =>
      if Text.lower contentType ∈ csvSet csv then pure ()
      else throw (validationError
        ("Content type '" ++ contentType ++ "' is not allowed for this project")
        [("content_type", .str contentType), ("allowed_mime_types", .strs (csvSet csv))])
  | none => pure ()

/-- Extension allowlist of a project. -/
def checkExtension (config : ProjectConfig) (filename : String) : Except ApiError Unit :=
  match orNone config.allowedExtensions with
  | some csv =>
      let ext := Text.lower (Text.pathSuffix filename)
      if ext = "" then throw (validationError "Filename must have an extension"
        [("filename", .str filename), ("allowed_extensions", .strs (csvSet csv))])
      else if ext ∈ csvSet csv then pure ()
      else throw (validationError ("File extension '" ++ ext ++
        "' is not allowed for this project")
        [("extension", .str ext), ("allowed_extensions", .strs (csvSet csv))])
  | none => pure ()

/-- `validate_upload_request`. -/
def validateUploadRequest (config : ProjectConfig) (filename contentType : String)
    (sizeBytes : ℤ) : Except ApiError Unit := do
  checkSize config sizeBytes
  checkContentType config contentType
  checkExtension config filename

/-- `_mime_allowed`: exact types and `type/*` patterns. -/
def mimeAllowed (contentType : String) (allowed : List String) : Bool :=
  allowed.any fun pattern =>
    let p := Text.lower (Text.strip pattern)
    let ct := Text.lower contentType
    p == "*/*" || p == ct ||
      (Text.endsWith p "/*" && Text.startsWith ct (String.ofList p.toList.dropLast))

/-- What an upload is stored with, once an upload token has had its say. -/
structure EffectiveUpload where
  folderId : Option String
  metadata : Fields
  tags : List String

/-- The upload-token block of `init_upload`: folder, metadata and tags of the token win
over the browser's, and its size and type limits are enforced. -/
def effectiveUpload (ctx : TenantContext) (req : UploadInitRequest) :
    Except ApiError EffectiveUpload := do
  if !ctx.isUploadToken then
    return ⟨req.folderId, req.metadata, req.tags⟩
  match ctx.uploadTokenMaxSize with
  | some m =>
      if m < req.sizeBytes then
        throw (fileTooLargeError ("File size " ++ Text.thousands req.sizeBytes ++
          " bytes exceeds the upload token limit of " ++ Text.thousands m ++ " bytes")
          [("size_bytes", .int req.sizeBytes), ("max_size", .int m)])
  | none => pure ()
  match ctx.uploadTokenAllowedMimeTypes with
  | some types =>
      if types ≠ [] ∧ "*/*" ∉ types ∧ mimeAllowed req.contentType types = false then
        throw (validationError ("Content type '" ++ req.contentType ++
          "' is not permitted by the upload token")
          [("content_type", .str req.contentType), ("allowed_mime_types", .strs types)])
  | none => pure ()
  return {
    folderId := ctx.uploadTokenFolderId.orElse fun _ => req.folderId
    metadata := req.metadata.update (ctx.uploadTokenDefaultMetadata.getD [])
    -- an empty list of default tags counts as none
    tags := match ctx.uploadTokenDefaultTags with
      | some (t :: ts) => dictFromKeys (req.tags ++ t :: ts)
      | _ => req.tags }

/-- The in-flight limit of a project. -/
def checkInFlight (config : ProjectConfig) (inFlight : ℕ) : Except ApiError Unit :=
  match config.maxFilesPerRequest with
  | some m =>
      if m ≠ 0 ∧ m ≤ (inFlight : ℤ) then
        throw (validationError ("Too many concurrent uploads (" ++ toString inFlight ++
          "). Project limit is " ++ toString m ++ " simultaneous upload(s).")
          [("in_flight", .int inFlight), ("max_files_per_request", .int m)])
      else pure ()
  | none => pure ()

/-- `_storage_key`. -/
def storageKey (organizationId projectId fileId : String) : String :=
  organizationId ++ "/" ++ projectId ++ "/" ++ fileId

/-- `_get_provider`: the platform default stands in for a missing storage row. -/
def getProvider (ctx : TenantContext) (env : Env) (db : Database) (projectId : String) :
    Except ApiError StorageProvider :=
  match StorageConfigRepository.getForProject db projectId ctx.organizationId with
  | .ok config => buildProvider env.settings env.crypto config
  | .error (.filenest .notFound _ _) => defaultProvider env.settings
  | .error e => .error e

/-- The event row of a service operation. -/
def publish (ctx : TenantContext) (env : Env) (projectId : String) (draw : ℕ) (event : String)
    (payload : Fields) : DbWrite :=
  TransactionalOutboxPublisher.publish (env.uuid4 draw) env.now ctx.organizationId projectId
    event payload

/-- The version row written with a confirmed upload or a restore. -/
def versionRow (ctx : TenantContext) (env : Env) (projectId : String) (draw : ℕ)
    (fileId : String) (versionNumber : ℕ) (key : String) (sizeBytes : ℤ) (contentType : String) :
    DbWrite :=
  .insert .fileVersions
    ({ id := env.uuid4 draw, fileId := fileId, organizationId := ctx.organizationId
       projectId := projectId, versionNumber := versionNumber, storageKey := key
       sizeBytes := sizeBytes, contentType := contentType, createdAt := env.now } : FileVersion)

namespace FileService

variable (ctx : TenantContext) (env : Env) (db : Database) (projectId : String)

/-- `init_upload`. -/
def initUpload (req : UploadInitRequest) : ServiceResult := do
  let config ← ProjectConfigRepository.getForProject db projectId ctx.organizationId
  let effective ← effectiveUpload ctx req
  validateUploadRequest config req.filename req.contentType req.sizeBytes
  -- uploads are counted, not reserved
  checkInFlight config (FileRepository.countInFlight db ctx.organizationId projectId)
  let fileId := env.uuid4 0
  let key := storageKey ctx.organizationId projectId fileId
  let record : File :=
    { id := fileId, organizationId := ctx.organizationId, projectId := projectId
      filename := req.filename, contentType := req.contentType, sizeBytes := req.sizeBytes
      folderId := effective.folderId, tags := dictFromKeys effective.tags
      metadata := effective.metadata, ownerUserId := ctx.ownerUserId
      ownerOrgId := ctx.ownerOrgId, storageKey := some key
      createdAt := env.now, updatedAt := env.now }
  let provider ← getProvider ctx env db projectId
  let ttl := resolveTtl config none
  let uploadUrl ← env.storage.generatePresignedUploadUrl provider key req.contentType
    req.sizeBytes ttl
  return (.uploadInit fileId uploadUrl (env.now + ttl * second),
    [.insert .files record,
     publish ctx env projectId 1 "file.upload.initiated"
       [("file_id", .str fileId), ("filename", .str req.filename),
        ("size_bytes", .int req.sizeBytes)]])

/-- The status a confirmed or completed upload takes, with the event that says so. -/
def settleUpload (config : ProjectConfig) (record : File) : FileStatus × DbWrite :=
  if config.virusScanEnabled then
    (.processing, publish ctx env projectId 1 "file.uploaded"
      [("file_id", .str record.id), ("filename", .str record.filename),
       ("storage_key", .optStr record.storageKey), ("content_type", .str record.contentType),
       ("size_bytes", .int record.sizeBytes)])
  else
    (.ready, publish ctx env projectId 1 "file.ready"
      [("file_id", .str record.id), ("filename", .str record.filename),
       ("storage_key", .optStr record.storageKey)])

/-- `confirm_upload`. -/
def confirmUpload (fileId : String) : ServiceResult := do
  let record ← FileRepository.get db fileId ctx.organizationId projectId
  let config ← ProjectConfigRepository.getForProject db projectId ctx.organizationId
  -- whatever status the file has
  let (status, event) := settleUpload ctx env projectId config record
  match config.versioningEnabled, orNone record.storageKey with
  | true, some key =>
      let versionCount := record.versionCount + 1
      let saved := FileRepository.updateStatus { record with versionCount := versionCount }
        status env.now
      return (.confirmUpload record.id status,
        [versionRow ctx env projectId 0 record.id versionCount key record.sizeBytes
          record.contentType, record.save saved, event])
  -- without versioning, or without a key, there is no version
  | _, _ =>
      let saved := FileRepository.updateStatus record status env.now
      return (.confirmUpload record.id status, [record.save saved, event])

/-- `list_versions`. -/
def listVersions (fileId : String) : ServiceResult := do
  let _ ← FileRepository.get db fileId ctx.organizationId projectId
  let items := (FileVersionRepository.list db fileId ctx.organizationId projectId).map
    FileVersionResponse.ofRecord
  readOnly (.fileVersionList items items.length)

/-- `get_version_download_url`. -/
def getVersionDownloadUrl (fileId versionId : String) (callerTtl : Option ℕ) :
    ServiceResult := do
  let _ ← FileRepository.get db fileId ctx.organizationId projectId
  let version ← FileVersionRepository.get db versionId fileId ctx.organizationId
  let config ← ProjectConfigRepository.getForProject db projectId ctx.organizationId
  let ttl := resolveTtl config callerTtl
  let provider ← getProvider ctx env db projectId
  let url ← env.storage.generatePresignedDownloadUrl provider version.storageKey none ttl
  readOnly (.downloadUrl url (env.now + ttl * second))

/-- `restore_version`: the version's bytes become the file's, at once `ready`, and the
restore is a version of its own. -/
def restoreVersion (fileId versionId : String) : ServiceResult := do
  let record ← FileRepository.get db fileId ctx.organizationId projectId
  let version ← FileVersionRepository.get db versionId fileId ctx.organizationId
  let versionCount := record.versionCount + 1
  let saved : File := { record with
    storageKey := some version.storageKey
    sizeBytes := version.sizeBytes
    contentType := version.contentType
    status := .ready
    updatedAt := env.now
    versionCount := versionCount }
  return (.restoreVersion record.id versionCount,
    [versionRow ctx env projectId 0 record.id versionCount version.storageKey version.sizeBytes
      version.contentType,
     record.save saved,
     publish ctx env projectId 1 "file.restored"
       [("file_id", .str record.id), ("restored_from_version", .int version.versionNumber),
        ("new_version_number", .int versionCount), ("storage_key", .str version.storageKey)]])

/-- `get_file`. -/
def getFile (fileId : String) : ServiceResult := do
  let record ← FileRepository.get db fileId ctx.organizationId projectId
  readOnly (.file (.ofRecord record))

/-- `get_download_url`. -/
def getDownloadUrl (fileId : String) (callerTtl : Option ℕ) (inline' : Bool) :
    ServiceResult := do
  let record ← FileRepository.get db fileId ctx.organizationId projectId
  let config ← ProjectConfigRepository.getForProject db projectId ctx.organizationId
  let ttl := resolveTtl config callerTtl
  let provider ← getProvider ctx env db projectId
  let url ← env.storage.generatePresignedDownloadUrl provider record.storageKey
    (if inline' then none else some record.filename) ttl
  readOnly (.downloadUrl url (env.now + ttl * second))

/-- `delete_file`. -/
def deleteFile (fileId : String) : ServiceResult := do
  let record ← FileRepository.get db fileId ctx.organizationId projectId
  return (.deleted record.id,
    [record.save (FileRepository.softDelete record env.now),
     publish ctx env projectId 0 "file.deleted"
       [("file_id", .str record.id), ("storage_key", .optStr record.storageKey),
        ("filename", .str record.filename)]])

/-- The page of files a listing returns. -/
def fileListResponse (filters : FileRepository.Filters) (params : FileListParams) : Response :=
  let total := FileRepository.count db ctx.organizationId projectId filters
  let items := (FileRepository.list db ctx.organizationId projectId filters params.limit
    params.offset params.cursor).map FileResponse.ofRecord
  -- behind a cursor a full page is taken for more to come
  let hasMore := match orNone params.cursor with
    | none => items.length == params.limit && decide (params.offset + params.limit < total)
    | some _ => items.length == params.limit
  .fileList
    { items := items, total := total, limit := params.limit
      offset := if (orNone params.cursor).isNone then params.offset else 0
      hasMore := hasMore
      nextCursor := bif hasMore then items.getLast?.map FileResponse.id else none }

/-- `list_files`. -/
def listFiles (params : FileListParams) : ServiceResult :=
  readOnly (fileListResponse ctx db projectId params.filters params)

/-- The body of the operations that change one column of a file and answer with it. -/
def modifyFile (fileId : String) (change : File → File) (respond : File → Response) :
    ServiceResult := do
  let record ← FileRepository.get db fileId ctx.organizationId projectId
  return (respond (change record), [record.save (change record)])

/-- `set_tags`. -/
def setTags (fileId : String) (tags : List String) : ServiceResult :=
  modifyFile ctx db projectId fileId (FileRepository.setTags · tags env.now)
    fun r => .tags r.id r.tags

/-- `add_tags`. -/
def addTags (fileId : String) (tags : List String) : ServiceResult :=
  modifyFile ctx db projectId fileId (FileRepository.addTags · tags env.now)
    fun r => .tags r.id r.tags

/-- `rename_file`. -/
def renameFile (fileId : String) (req : RenameFileRequest) : ServiceResult :=
  modifyFile ctx db projectId fileId (FileRepository.renameFile · req.filename env.now)
    fun r => .file (.ofRecord r)

/-- `move_file`: the folder is taken as given. -/
def moveFile (fileId : String) (folderId : Option String) : ServiceResult :=
  modifyFile ctx db projectId fileId (FileRepository.moveFile · folderId env.now)
    fun r => .file (.ofRecord r)

end FileService

end FileNest
