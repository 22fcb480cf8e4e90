import FileNest.Services.File

/-!
# Multipart upload and folder services

## Main definitions

* `MultipartUploadService.start`, `partUrl`, `complete`, `abort` — a multipart upload.
* `resolvePath` — the walk that creates the missing segments of a folder path.
* `FolderService.createFolder`, `ensurePath`, `deleteFolder`, … — folders.
-/

namespace FileNest

open RowStore

/-- What an `IntegrityError` is answered with. -/
def integrityError : ApiError := conflictError "A conflict occurred. Please try again." []

namespace MultipartUploadService

variable (ctx : TenantContext) (env : Env) (db : Database) (projectId : String)

/-- `start`. -/
def start (req : MultipartStartRequest) : ServiceResult := do
  let config ← ProjectConfigRepository.getForProject db projectId ctx.organizationId
  -- nothing here asks for an upload token
  validateUploadRequest config req.filename req.contentType req.totalSizeBytes
  checkInFlight config (FileRepository.countInFlight db ctx.organizationId projectId)
  let fileId := env.uuid4 0
  let key := storageKey ctx.organizationId projectId fileId
  let record : File :=
    { id := fileId, organizationId := ctx.organizationId, projectId := projectId
      filename := req.filename, contentType := req.contentType
      sizeBytes := req.totalSizeBytes, folderId := req.folderId
      tags := dictFromKeys req.tags, metadata := req.metadata, storageKey := some key
      createdAt := env.now, updatedAt := env.now }
  let provider ← getProvider ctx env db projectId
  let providerUploadId ← env.storage.createMultipartUpload provider key req.contentType
  let session : UploadSession :=
    { id := env.uuid4 1, organizationId := ctx.organizationId, projectId := projectId
      fileId := fileId, s3UploadId := providerUploadId, filename := req.filename
      contentType := req.contentType, totalSizeBytes := req.totalSizeBytes
      createdAt := env.now, expiresAt := env.now + day }
  return (.multipartStart session.id fileId,
    [.insert .files record, .insert .uploadSessions session])

/-- `part_url`. -/
def partUrl (uploadId : String) (partNumber : ℕ) (callerTtl : Option ℕ) : ServiceResult := do
  let session ← UploadSessionRepository.get db uploadId ctx.organizationId
  let record ← FileRepository.get db session.fileId ctx.organizationId projectId
  -- neither the status of the session nor its time is looked at
  let config ← ProjectConfigRepository.getForProject db projectId ctx.organizationId
  let ttl := resolveTtl config callerTtl
  let provider ← getProvider ctx env db projectId
  let url ← env.storage.generatePresignedPartUrl provider record.storageKey session.s3UploadId
    partNumber ttl
  readOnly (.multipartPartUrl uploadId partNumber url (env.now + ttl * second))

/-- `complete`. -/
def complete (uploadId : String) (req : MultipartCompleteRequest) : ServiceResult := do
  let session ← UploadSessionRepository.get db uploadId ctx.organizationId
  let record ← FileRepository.get db session.fileId ctx.organizationId projectId
  let config ← ProjectConfigRepository.getForProject db projectId ctx.organizationId
  let provider ← getProvider ctx env db projectId
  env.storage.completeMultipartUpload provider record.storageKey session.s3UploadId req.parts
  let marked := session.save (UploadSessionRepository.markCompleted session req.parts.length)
  let (status, event) := FileService.settleUpload ctx env projectId config record
  if config.versioningEnabled then
    match record.storageKey with
    | some key =>
        let versionCount := record.versionCount + 1
        let saved := FileRepository.updateStatus { record with versionCount := versionCount }
          status env.now
        return (.multipartComplete record.id status,
          [marked, versionRow ctx env projectId 0 record.id versionCount key record.sizeBytes
            record.contentType, record.save saved, event])
    -- the column of the version row takes no null
    | none => throw integrityError
  else
    let saved := FileRepository.updateStatus record status env.now
    return (.multipartComplete record.id status, [marked, record.save saved, event])

/-- `abort`. -/
def abort (uploadId : String) : ServiceResult := do
  let session ← UploadSessionRepository.get db uploadId ctx.organizationId
  let record ← FileRepository.get db session.fileId ctx.organizationId projectId
  let provider ← getProvider ctx env db projectId
  env.storage.abortMultipartUpload provider record.storageKey session.s3UploadId
  return (.multipartAbort uploadId,
    [session.save (UploadSessionRepository.markAborted session),
     record.save (FileRepository.updateStatus record .failed env.now)])

end MultipartUploadService

/-! ### Folders -/

/-- The row `FolderRepository.create` inserts. -/
def folderRow (ctx : TenantContext) (env : Env) (projectId : String) (draw : ℕ)
    (name path : String) (parentFolderId : Option String) : Folder :=
  { id := env.uuid4 draw, organizationId := ctx.organizationId, projectId := projectId
    parentFolderId := parentFolderId, name := name, path := path, createdAt := env.now }

/-- Walk a path from the left, creating the segments that are missing: the leaf and the
inserts.  A segment created here is never looked up again, since paths only grow. -/
def resolvePath (ctx : TenantContext) (env : Env) (db : Database) (projectId : String) :
    List String → ℕ → String → Option Folder → Except ApiError (Option Folder × List DbWrite)
  | [], _, _, last => pure (last, [])
  | segment :: segments, draw, path, last => do
      let current := path ++ "/" ++ segment
      match ← FolderRepository.getByPath db current ctx.organizationId projectId with
      | some existing => resolvePath ctx env db projectId segments draw current (some existing)
      | none =>
          let record := folderRow ctx env projectId draw segment current (last.map Folder.id)
          let (leaf, writes) ←
            resolvePath ctx env db projectId segments (draw + 1) current (some record)
          return (leaf, .insert .folders record :: writes)

namespace FolderService

variable (ctx : TenantContext) (env : Env) (db : Database) (projectId : String)

/-- The path of a new folder: under its parent, which must exist, or at the root. -/
def newFolderPath (req : FolderCreateRequest) : Except ApiError String :=
  match req.parentFolderId with
  | some parentId => do
      let parent ← FolderRepository.get db parentId ctx.organizationId projectId
      return parent.path ++ "/" ++ req.name
  | none => return "/" ++ req.name

/-- `create_folder`. -/
def createFolder (req : FolderCreateRequest) : ServiceResult := do
  let path ← newFolderPath ctx db projectId req
  -- a folder that has the path is not looked for
  let record := folderRow ctx env projectId 0 req.name path req.parentFolderId
  return (.folder (.ofRecord record), [.insert .folders record])

/-- `get_folder`. -/
def getFolder (folderId : String) : ServiceResult := do
  let record ← FolderRepository.get db folderId ctx.organizationId projectId
  readOnly (.folder (.ofRecord record))

/-- `get_by_path`. -/
def getByPath (path : String) : ServiceResult := do
  let normalised := "/" ++ Text.stripChar '/' path
  match ← FolderRepository.getByPath db normalised ctx.organizationId projectId with
  | some record => readOnly (.folder (.ofRecord record))
  | none => throw (notFoundError ("Folder at path '" ++ path ++ "' not found"))

/-- `list_folders`. -/
def listFolders (name : Option String) : ServiceResult :=
  let items := (FolderRepository.list db ctx.organizationId projectId name).map
    FolderResponse.ofRecord
  readOnly (.folderList items items.length)

/-- `ensure_path`. -/
def ensurePath (req : EnsurePathRequest) : ServiceResult := do
  let (leaf, writes) ← resolvePath ctx env db projectId
    (Text.split '/' (Text.stripChar '/' req.path)) 0 "" none
  match leaf with
  | some record => return (.folder (.ofRecord record), writes)
  | none => throw (.unhandled "'NoneType' object has no attribute 'id'")

/-- `list_folder_files`: the folder replaces any folder filter. -/
def listFolderFiles (folderId : String) (params : FileListParams) : ServiceResult := do
  let _ ← FolderRepository.get db folderId ctx.organizationId projectId
  readOnly (FileService.fileListResponse ctx db projectId
    { params.filters with folderId := some folderId } params)

/-- `delete_folder`: only an empty folder goes. -/
def deleteFolder (folderId : String) : ServiceResult :=
  if FolderRepository.hasSubfolders db folderId ctx.organizationId projectId then
    throw (conflictError "Folder cannot be deleted while it contains subfolders"
      [("folder_id", .str folderId), ("reason", .str "has_subfolders")])
  else if FolderRepository.hasFiles db folderId ctx.organizationId projectId then
    throw (conflictError "Folder cannot be deleted while it contains files"
      [("folder_id", .str folderId), ("reason", .str "has_files")])
  else do
    let record ← FolderRepository.get db folderId ctx.organizationId projectId
    return (.deleted folderId, [record.save (FolderRepository.softDelete record env.now)])

end FolderService

end FileNest
