import FileNest.Repositories.Events
import FileNest.Repositories.Usage

/-!
# Requests and responses

The bodies of the routes after validation — a validator's demand is a field of the
structure, so a rejected body cannot be built — and the response models.

## Main definitions

* `UploadInitRequest`, `MultipartStartRequest`, … — request bodies.
* `FileResponse`, `FolderResponse`, … — responses, with the `_to_response` mappings.
* `Response` — any response body.
-/

namespace FileNest

/-! ### Request bodies -/

/-- Body for initiating a file upload. -/
structure UploadInitRequest where
  filename : String
  contentType : String
  sizeBytes : ℤ
  folderId : Option String := none
  tags : List String := []
  metadata : Fields := []

/-- Body for initiating a multipart upload. -/
structure MultipartStartRequest where
  filename : String
  contentType : String
  totalSizeBytes : ℤ
  folderId : Option String := none
  tags : List String := []
  metadata : Fields := []

/-- Body for completing a multipart upload: part numbers and ETags. -/
structure MultipartCompleteRequest where
  parts : List (ℕ × String)

/-- Body for renaming a file; the name is stripped and not empty. -/
structure RenameFileRequest where
  filename : String
  filename_stripped : Text.strip filename = filename := by decide
  filename_ne : filename ≠ "" := by decide

/-- Body for creating a folder; the name is stripped, not empty and without slashes. -/
structure FolderCreateRequest where
  name : String
  parentFolderId : Option String := none
  name_stripped : Text.strip name = name := by decide
  name_ne : name ≠ "" := by decide
  name_no_slash : '/' ∉ name.toList := by decide

/-- Body for `ensure-path`; no segment is blank. -/
structure EnsurePathRequest where
  path : String
  segments_ne : ∀ seg ∈ Text.split '/' path, Text.strip seg ≠ "" := by decide

/-- Query of a file list. -/
structure FileListParams where
  filters : FileRepository.Filters := {}
  /-- Whether the `metadata` parameter is present and not a JSON object. -/
  metadataInvalid : Bool := false
  limit : ℕ := 50
  offset : ℕ := 0
  cursor : Option String := none
  limit_mem : 1 ≤ limit ∧ limit ≤ 200 := by decide

/-- Body for creating an upload token. -/
structure CreateUploadTokenRequest where
  maxSize : Option ℤ := none
  allowedMimeTypes : Option (List String) := none
  maxFiles : Option ℤ := none
  folderId : Option String := none
  metadata : Option Fields := none
  tags : Option (List String) := none
  expiresIn : ℕ := 3600
  ownerUserId : Option String := none
  ownerOrgId : Option String := none
  folderPath : Option String := none
  expiresIn_mem : 60 ≤ expiresIn ∧ expiresIn ≤ 86400 := by decide

/-- Body for creating a webhook. -/
structure WebhookCreateRequest where
  url : String
  events : List String := []
  isActive : Bool := true

/-- Body for updating a webhook. -/
structure WebhookUpdateRequest where
  url : Option String := none
  events : Option (List String) := none
  isActive : Option Bool := none

/-- Body for creating a project. -/
structure CreateProjectRequest where
  name : String
  slug : String
  description : Option String := none
  storageMode : String := "managed"
  storageProvider : String := "s3"
  name_length : 1 ≤ name.length ∧ name.length ≤ 255 := by decide
  storageMode_mem : storageMode ∈ ["managed", "byob"] := by decide
  storageProvider_mem : storageProvider ∈ supportedProviders := by decide

/-- Body for updating a project. -/
structure UpdateProjectRequest where
  name : Option String := none
  description : Option String := none
  versioningEnabled : Option Bool := none
  ocrEnabled : Option Bool := none
  name_length : ∀ n ∈ name, 1 ≤ n.length ∧ n.length ≤ 255 := by decide

/-- Partial update of the upload restrictions. -/
structure UpdateUploadConfigRequest where
  maxFileSizeBytes : Option ℤ := none
  allowedMimeTypes : Option (List String) := none
  allowedExtensions : Option (List String) := none
  maxFilesPerRequest : Option ℤ := none
  maxFileSizeBytes_pos : ∀ n ∈ maxFileSizeBytes, 1 ≤ n := by decide
  maxFilesPerRequest_pos : ∀ n ∈ maxFilesPerRequest, 1 ≤ n := by decide

/-- Partial update of the network security settings. -/
structure UpdateSecurityConfigRequest where
  allowedIps : Option (List String) := none
  allowedOrigins : Option (List String) := none
  requireSignedUrls : Option Bool := none
  signedUrlTtlSeconds : Option ℕ := none
  signedUrlTtlSeconds_mem : ∀ n ∈ signedUrlTtlSeconds, 60 ≤ n ∧ n ≤ 86400 := by decide

/-- Partial update of the processing flags. -/
structure UpdateProcessingConfigRequest where
  versioningEnabled : Option Bool := none
  ocrEnabled : Option Bool := none
  virusScanEnabled : Option Bool := none

/-- Partial update of the compliance settings. -/
structure UpdateComplianceConfigRequest where
  retentionDays : Option ℤ := none
  wormEnabled : Option Bool := none
  legalHoldEnabled : Option Bool := none
  dataResidency : Option String := none
  retentionDays_pos : ∀ n ∈ retentionDays, 1 ≤ n := by decide

/-- Body for updating the storage credentials. -/
structure StorageConfigUpdateRequest where
  bucketName : String
  region : Option String := none
  endpointUrl : Option String := none
  accessKeyId : Option String := none
  secretAccessKey : Option String := none
  serverSideEncryption : String := "AES256"
  kmsKeyId : Option String := none
  accountName : Option String := none
  accountKey : Option String := none
  credentialsJson : Option String := none
  bucketName_length : 1 ≤ bucketName.length ∧ bucketName.length ≤ 255 := by decide
  region_length : ∀ r ∈ region, r.length ≤ 100 := by decide
  serverSideEncryption_mem : serverSideEncryption ∈ ["AES256", "aws:kms"] := by decide

/-! ### Responses -/

/-- Full file record. -/
structure FileResponse where
  id : String
  organizationId : String
  projectId : String
  filename : String
  contentType : String
  sizeBytes : ℤ
  status : FileStatus
  storageKey : String
  folderId : Option String
  category : Option String
  versionCount : ℕ
  tags : List String
  metadata : Fields
  createdAt : ℕ
  updatedAt : ℕ

/-- `FileService._to_response`. -/
def FileResponse.ofRecord (record : File) : FileResponse where
  id := record.id
  organizationId := record.organizationId
  projectId := record.projectId
  filename := record.filename
  contentType := record.contentType
  sizeBytes := record.sizeBytes
  status := record.status
  storageKey := record.storageKey.getD ""
  folderId := record.folderId
  category := record.category
  versionCount := record.versionCount
  tags := record.tags
  metadata := record.metadata
  createdAt := record.createdAt
  updatedAt := record.updatedAt

/-- A page of files. -/
structure FileListResponse where
  items : List FileResponse
  total : ℕ
  limit : ℕ
  offset : ℕ
  hasMore : Bool
  nextCursor : Option String

/-- A file version. -/
structure FileVersionResponse where
  id : String
  fileId : String
  versionNumber : ℕ
  storageKey : String
  sizeBytes : ℤ
  contentType : String
  createdAt : ℕ

/-- `FileService._to_version_response`. -/
def FileVersionResponse.ofRecord (version : FileVersion) : FileVersionResponse where
  id := version.id
  fileId := version.fileId
  versionNumber := version.versionNumber
  storageKey := version.storageKey
  sizeBytes := version.sizeBytes
  contentType := version.contentType
  createdAt := version.createdAt

/-- A folder. -/
structure FolderResponse where
  id : String
  organizationId : String
  projectId : String
  parentFolderId : Option String
  name : String
  path : String
  createdAt : ℕ

/-- `FolderService._to_response`. -/
def FolderResponse.ofRecord (record : Folder) : FolderResponse where
  id := record.id
  organizationId := record.organizationId
  projectId := record.projectId
  parentFolderId := record.parentFolderId
  name := record.name
  path := record.path
  createdAt := record.createdAt

/-- A metadata schema version. -/
structure MetadataSchemaResponse where
  id : String
  projectId : String
  organizationId : String
  version : ℕ
  schema : Fields
  isActive : Bool
  createdAt : ℕ

/-- `MetadataService._to_schema_response`. -/
def MetadataSchemaResponse.ofRecord (record : MetadataSchema) : MetadataSchemaResponse where
  id := record.id
  projectId := record.projectId
  organizationId := record.organizationId
  version := record.version
  schema := record.schemaJson
  isActive := record.isActive
  createdAt := record.createdAt

/-- A project. -/
structure ProjectResponse where
  id : String
  organizationId : String
  name : String
  slug : String
  description : Option String
  storageMode : String
  storageProvider : String
  versioningEnabled : Bool
  ocrEnabled : Bool
  isActive : Bool
  createdAt : ℕ
  updatedAt : ℕ

/-- `ProjectService._to_response`. -/
def ProjectResponse.ofRecord (record : Project) : ProjectResponse where
  id := record.id
  organizationId := record.organizationId
  name := record.name
  slug := record.slug
  description := record.description
  storageMode := record.storageMode
  storageProvider := record.storageProvider
  versioningEnabled := record.versioningEnabled
  ocrEnabled := record.ocrEnabled
  isActive := record.isActive
  createdAt := record.createdAt
  updatedAt := record.updatedAt

/-- A project configuration, with its lists split. -/
structure ProjectConfigResponse where
  id : String
  organizationId : String
  projectId : String
  maxFileSizeBytes : Option ℤ
  allowedMimeTypes : Option (List String)
  allowedExtensions : Option (List String)
  maxFilesPerRequest : Option ℤ
  allowedIps : Option (List String)
  allowedOrigins : Option (List String)
  requireSignedUrls : Bool
  signedUrlTtlSeconds : ℕ
  versioningEnabled : Bool
  ocrEnabled : Bool
  virusScanEnabled : Bool
  retentionDays : Option ℤ
  wormEnabled : Bool
  legalHoldEnabled : Bool
  dataResidency : Option String
  createdAt : ℕ
  updatedAt : ℕ

/-- A storage configuration, without its credentials. -/
structure StorageConfigResponse where
  projectId : String
  environment : String
  storageMode : String
  provider : String
  region : Option String
  bucketName : Option String
  endpointUrl : Option String
  serverSideEncryption : Option String
  sseEnabled : Bool
  status : String
  lastVerifiedAt : Option ℕ

/-- `StorageConfigService._to_response`. -/
def StorageConfigResponse.ofRecord (record : StorageConfig) : StorageConfigResponse where
  projectId := record.projectId
  environment := record.environment
  storageMode := record.storageMode
  provider := record.provider
  region := record.region
  bucketName := record.bucketName
  endpointUrl := record.endpointUrl
  serverSideEncryption := record.serverSideEncryption
  sseEnabled := record.sseEnabled
  status := record.status
  lastVerifiedAt := record.lastVerifiedAt

/-- A webhook; the secret is only there on creation. -/
structure WebhookResponse where
  id : String
  organizationId : String
  projectId : String
  url : String
  events : List String
  isActive : Bool
  signingSecret : Option String
  createdAt : ℕ
  updatedAt : ℕ

/-- A delivery attempt. -/
structure WebhookDeliveryResponse where
  id : String
  webhookId : String
  eventType : String
  status : String
  attemptCount : ℕ
  responseStatusCode : Option ℕ
  responseBody : Option String
  nextRetryAt : Option ℕ
  createdAt : ℕ

/-- `WebhookDeliveryResponse(...)` of a row. -/
def WebhookDeliveryResponse.ofRecord (d : WebhookDelivery) : WebhookDeliveryResponse where
  id := d.id
  webhookId := d.webhookId
  eventType := d.eventType
  status := d.status
  attemptCount := d.attemptCount
  responseStatusCode := d.responseStatusCode
  responseBody := d.responseBody
  nextRetryAt := d.nextRetryAt
  createdAt := d.createdAt

/-- Constraints shown to the browser. -/
structure UploadTokenConstraints where
  maxSize : ℤ
  allowedMimeTypes : List String
  maxFiles : ℤ

/-- The dashboard payload. -/
structure DashboardResponse where
  stats : UsageStats
  uploadsByDay : List (ℕ × ℕ)
  storageByDay : List (ℕ × ℤ)
  statusDistribution : List (FileStatus × ℕ)
  recentFiles : List RecentFile

/-- A response body. -/
inductive Response where
  | uploadInit (fileId uploadUrl : String) (expiresAt : ℕ)
  | confirmUpload (id : String) (status : FileStatus)
  | file (r : FileResponse)
  | fileList (r : FileListResponse)
  | downloadUrl (url : String) (expiresAt : ℕ)
  | deleted (id : String)
  | fileVersionList (items : List FileVersionResponse) (total : ℕ)
  | restoreVersion (fileId : String) (versionNumber : ℕ)
  | tags (id : String) (tags : List String)
  | multipartStart (uploadId fileId : String)
  | multipartPartUrl (uploadId : String) (partNumber : ℕ) (url : String) (expiresAt : ℕ)
  | multipartComplete (fileId : String) (status : FileStatus)
  | multipartAbort (uploadId : String)
  | folder (r : FolderResponse)
  | folderList (items : List FolderResponse) (total : ℕ)
  | metadataSchema (r : MetadataSchemaResponse)
  | metadataSchemaList (items : List MetadataSchemaResponse) (total : ℕ)
  | metadata (id : String) (metadata : Fields)
  | project (r : ProjectResponse)
  | projectList (items : List ProjectResponse) (total page pageSize totalPages : ℕ)
  | projectConfig (r : ProjectConfigResponse)
  | storageConfig (r : StorageConfigResponse)
  | storageVerify (ok : Bool) (latencyMs : ℚ) (error : Option String)
  | uploadToken (token : String) (expiresAt : ℕ) (constraints : UploadTokenConstraints)
  | webhook (r : WebhookResponse)
  | webhookList (items : List WebhookResponse) (total : ℕ)
  | webhookDeliveryList (items : List WebhookDeliveryResponse) (total : ℕ)
  | usage (stats : UsageStats) (projects : List ProjectUsageItem)
  | dashboard (r : DashboardResponse)
  | noContent

end FileNest
