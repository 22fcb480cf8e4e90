import FileNest.Services.Project

/-!
# Routes

Every route of the API composes a dependency factory, a scope check and a service
operation, in that order.  The factories differ: those of files, folders, multipart
uploads and metadata check the project of the token and the project's IP allowlist,
those of webhooks and upload tokens check the project only, and those of projects,
configuration, storage and reports check nothing.

## Main definitions

* `Operation` — the operations, one constructor a route.
* `Operation.dependency`, `Operation.requiredScopes` — the route table.
* `Operation.run` — the service call.
* `handle` — a whole request.
-/

namespace FileNest

open RowStore

/-- What a dependency factory checks before it builds its service. -/
inductive Dependency where
  /-- `get_file_service` and its like: project of the token, then IP allowlist. -/
  | projectAndAllowlist
  /-- `get_webhook_service`, `get_upload_token_service`: project of the token. -/
  | project
  /-- `get_project_service` and its like: nothing. -/
  | none
  deriving DecidableEq

/-- The operations of the API, one a route. -/
inductive Operation where
  | initUpload (req : UploadInitRequest)
  | confirmUpload (fileId : String)
  | getDownloadUrl (fileId : String) (ttl : ℕ) (inline' : Bool)
  | getFile (fileId : String)
  | listFiles (params : FileListParams)
  | setTags (fileId : String) (tags : List String)
  | addTags (fileId : String) (tags : List String)
  | renameFile (fileId : String) (req : RenameFileRequest)
  | deleteFile (fileId : String)
  | listVersions (fileId : String)
  | getVersionDownloadUrl (fileId versionId : String) (ttl : ℕ)
  | restoreVersion (fileId versionId : String)
  | multipartStart (req : MultipartStartRequest)
  | multipartPartUrl (uploadId : String) (part ttl : ℕ)
  | multipartComplete (uploadId : String) (req : MultipartCompleteRequest)
  | multipartAbort (uploadId : String)
  | createFolder (req : FolderCreateRequest)
  | listFolders (name : Option String)
  | getFolderByPath (path : String)
  | ensureFolderPath (req : EnsurePathRequest)
  | getFolder (folderId : String)
  | listFolderFiles (folderId : String) (params : FileListParams)
  | deleteFolder (folderId : String)
  | moveFile (fileId : String) (folderId : Option String)
  | createSchema (schema : Fields)
  | listSchemas
  | updateMetadata (fileId : String) (metadata : Fields)
  | mergeMetadata (fileId : String) (metadata : Fields)
  | createWebhook (req : WebhookCreateRequest)
  | listWebhooks
  | updateWebhook (webhookId : String) (req : WebhookUpdateRequest)
  | deleteWebhook (webhookId : String)
  | listDeliveries (webhookId : String) (limit : ℕ)
  | createUploadToken (req : CreateUploadTokenRequest)
  | getProjectConfig
  | updateUploadConfig (req : UpdateUploadConfigRequest)
  | updateSecurityConfig (req : UpdateSecurityConfigRequest)
  | updateProcessingConfig (req : UpdateProcessingConfigRequest)
  | updateComplianceConfig (req : UpdateComplianceConfigRequest)
  | updateStorageConfig (req : StorageConfigUpdateRequest)
  | getStorageConfig
  | verifyStorage
  | updateStorageSse (sseEnabled : Bool)
  | getProject
  | updateProject (req : UpdateProjectRequest)
  | deleteProject
  | createProject (req : CreateProjectRequest)
  | listProjects (params : ProjectListParams)
  | getUsage
  | getDashboard

namespace Operation

/-- The dependency factory of the route. -/
def dependency : Operation → Dependency
  | initUpload _ | confirmUpload _ | getDownloadUrl _ _ _ | getFile _ | listFiles _
  | setTags _ _ | addTags _ _ | renameFile _ _ | deleteFile _ | listVersions _
  | getVersionDownloadUrl _ _ _ | restoreVersion _ _ | moveFile _ _
  | multipartStart _ | multipartPartUrl _ _ _ | multipartComplete _ _ | multipartAbort _
  | createFolder _ | listFolders _ | getFolderByPath _ | ensureFolderPath _ | getFolder _
  | listFolderFiles _ _ | deleteFolder _
  | createSchema _ | listSchemas | updateMetadata _ _ | mergeMetadata _ _ =>
      .projectAndAllowlist
  | createWebhook _ | listWebhooks | updateWebhook _ _ | deleteWebhook _ | listDeliveries _ _
  | createUploadToken _ => .project
  | getProjectConfig | updateUploadConfig _ | updateSecurityConfig _ | updateProcessingConfig _
  | updateComplianceConfig _ | updateStorageConfig _ | getStorageConfig | verifyStorage
  | updateStorageSse _ | getProject | updateProject _ | deleteProject | createProject _
  | listProjects _ | getUsage | getDashboard => .none

/-- The scopes the route asserts; the configuration routes assert none. -/
def requiredScopes : Operation → List String
  | initUpload _ | confirmUpload _ => ["files:upload"]
  | getDownloadUrl _ _ _ | getVersionDownloadUrl _ _ _ => ["files:download"]
  | getFile _ | listFiles _ | listVersions _ => ["files:read"]
  | setTags _ _ | addTags _ _ | renameFile _ _ | restoreVersion _ _ => ["files:metadata"]
  | deleteFile _ => ["files:delete"]
  | multipartStart _ | multipartPartUrl _ _ _ | multipartComplete _ _ | multipartAbort _ =>
      ["files:upload"]
  | createFolder _ | ensureFolderPath _ | deleteFolder _ | moveFile _ _ => ["folders:write"]
  | listFolders _ | getFolderByPath _ | getFolder _ | listFolderFiles _ _ => ["folders:read"]
  | createSchema _ => ["projects:update"]
  | listSchemas => ["projects:read"]
  | updateMetadata _ _ | mergeMetadata _ _ => ["files:update_metadata"]
  | createWebhook _ | updateWebhook _ _ | deleteWebhook _ => ["webhooks:write"]
  | listWebhooks | listDeliveries _ _ => ["webhooks:read"]
  | createUploadToken _ => ["upload_tokens:create", "files:upload", "files:read"]
  | getProjectConfig | updateUploadConfig _ | updateSecurityConfig _ | updateProcessingConfig _
  | updateComplianceConfig _ => []
  | updateStorageConfig _ | verifyStorage | updateStorageSse _ => ["projects:update"]
  | getStorageConfig => ["projects:read"]
  | getProject | listProjects _ => ["projects:read"]
  | updateProject _ | deleteProject | createProject _ => ["projects:update"]
  | getUsage | getDashboard => ["projects:read"]

/-- Whether a project id is part of the route's path. -/
def projectAddressed : Operation → Bool
  | createProject _ | listProjects _ | getUsage | getDashboard => false
  | _ => true

/-- The route's `status` parameter, which hides the module of that name. -/
def statusParam : Operation → Option String
  | listFiles params => params.filters.status
  | listFolderFiles _ params => params.filters.status
  | _ => none

/-- Whether the route's `metadata` parameter fails to parse. -/
def metadataInvalid : Operation → Bool
  | listFiles params => params.metadataInvalid
  | listFolderFiles _ params => params.metadataInvalid
  | _ => false

/-- The service call of the route. -/
def run (ctx : TenantContext) (env : Env) (db : Database) (projectId : String) :
    Operation → ServiceResult
  | initUpload req => FileService.initUpload ctx env db projectId req
  | confirmUpload fileId => FileService.confirmUpload ctx env db projectId fileId
  | getDownloadUrl fileId ttl inline' =>
      FileService.getDownloadUrl ctx env db projectId fileId (some ttl) inline'
  | getFile fileId => FileService.getFile ctx db projectId fileId
  | listFiles params => FileService.listFiles ctx db projectId params
  | setTags fileId tags => FileService.setTags ctx env db projectId fileId tags
  | addTags fileId tags => FileService.addTags ctx env db projectId fileId tags
  | renameFile fileId req => FileService.renameFile ctx env db projectId fileId req
  | deleteFile fileId => FileService.deleteFile ctx env db projectId fileId
  | listVersions fileId => FileService.listVersions ctx db projectId fileId
  | getVersionDownloadUrl fileId versionId ttl =>
      FileService.getVersionDownloadUrl ctx env db projectId fileId versionId (some ttl)
  | restoreVersion fileId versionId =>
      FileService.restoreVersion ctx env db projectId fileId versionId
  | multipartStart req => MultipartUploadService.start ctx env db projectId req
  | multipartPartUrl uploadId part ttl =>
      MultipartUploadService.partUrl ctx env db projectId uploadId part (some ttl)
  | multipartComplete uploadId req =>
      MultipartUploadService.complete ctx env db projectId uploadId req
  | multipartAbort uploadId => MultipartUploadService.abort ctx env db projectId uploadId
  | createFolder req => FolderService.createFolder ctx env db projectId req
  | listFolders name => FolderService.listFolders ctx db projectId name
  | getFolderByPath path => FolderService.getByPath ctx db projectId path
  | ensureFolderPath req => FolderService.ensurePath ctx env db projectId req
  | getFolder folderId => FolderService.getFolder ctx db projectId folderId
  | listFolderFiles folderId params =>
      FolderService.listFolderFiles ctx db projectId folderId params
  | deleteFolder folderId => FolderService.deleteFolder ctx env db projectId folderId
  | moveFile fileId folderId => FileService.moveFile ctx env db projectId fileId folderId
  | createSchema schema => MetadataService.createSchema ctx env db projectId schema
  | listSchemas => MetadataService.listSchemas ctx db projectId
  | updateMetadata fileId metadata =>
      MetadataService.updateMetadata ctx env db projectId fileId metadata
  | mergeMetadata fileId metadata =>
      MetadataService.mergeMetadata ctx env db projectId fileId metadata
  | createWebhook req => WebhookService.create ctx env projectId req
  | listWebhooks => WebhookService.list ctx db projectId
  | updateWebhook webhookId req => WebhookService.update ctx env db projectId webhookId req
  | deleteWebhook webhookId => WebhookService.delete ctx db projectId webhookId
  | listDeliveries webhookId limit =>
      WebhookService.listDeliveries ctx db projectId webhookId limit
  | createUploadToken req => UploadTokenService.create ctx env db projectId req
  | getProjectConfig => ProjectConfigService.getConfig ctx db projectId
  | updateUploadConfig req => ProjectConfigService.updateUploadConfig ctx env db projectId req
  | updateSecurityConfig req => ProjectConfigService.updateSecurityConfig ctx env db projectId req
  | updateProcessingConfig req =>
      ProjectConfigService.updateProcessingConfig ctx env db projectId req
  | updateComplianceConfig req =>
      ProjectConfigService.updateComplianceConfig ctx env db projectId req
  | updateStorageConfig req => StorageConfigService.updateConfig ctx env db projectId req
  | getStorageConfig => StorageConfigService.getConfig ctx db projectId
  | verifyStorage => StorageConfigService.verify ctx env db projectId
  | updateStorageSse sseEnabled => StorageConfigService.updateSse ctx env db projectId sseEnabled
  | getProject => ProjectService.getProject ctx db projectId
  | updateProject req => ProjectService.updateProject ctx env db projectId req
  | deleteProject => ProjectService.deleteProject ctx env db projectId
  | createProject req => ProjectService.createProject ctx env db req
  | listProjects params => ProjectService.listProjects ctx db params
  | getUsage => UsageService.getUsage ctx env db
  | getDashboard => DashboardService.getDashboard ctx env db

end Operation

/-- The checks of a dependency factory. -/
def Dependency.check (ctx : TenantContext) (env : Env) (db : Database) (projectId : String) :
    Dependency → Except ApiError Unit
  | .projectAndAllowlist => do
      requireProject ctx projectId
      let config ← ProjectConfigRepository.getForProject db projectId ctx.organizationId
      checkIpAllowlist env.ip env.request config.allowedIps
  | .project => requireProject ctx projectId
  | .none => pure ()

/-- What an invalid `metadata` parameter raises: the routes look for the 422 they mean to answer in
their parameter `status`. -/
def invalidMetadataFilter (status : Option String) : ApiError :=
  .unhandled (Text.quoted (if status.isSome then "str" else "NoneType") ++
    " object has no attribute 'HTTP_422_UNPROCESSABLE_ENTITY'")

/-- A request: the project id of its path, if the route has one, and the operation. -/
structure Request where
  projectId : String
  op : Operation

/-- A whole request of an authenticated caller. -/
def handle (ctx : TenantContext) (env : Env) (req : Request) (db : Database) : ServiceResult := do
  req.op.dependency.check ctx env db req.projectId
  requireScope ctx req.op.requiredScopes
  if req.op.metadataInvalid then throw (invalidMetadataFilter req.op.statusParam)
  else req.op.run ctx env db req.projectId

/-- Commit what an operation would write.  A primary key that is taken rolls the
transaction back, like any error. -/
def commit (db : Database) : ServiceResult → Except ApiError Response × Database
  | .ok (r, writes) =>
      if Admissible writes db then (.ok r, applyAll writes db) else (.error integrityError, db)
  | .error e => (.error e, db)

end FileNest
