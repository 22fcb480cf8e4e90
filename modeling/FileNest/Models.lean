import FileNest.Json
import FileNest.Lib.RowStore

/-!
# The tables of the backend

One structure per ORM model, one list of rows per table.  Times are microseconds
since the epoch.  The `metadata_json`, `schema_json` and `payload` columns hold the
values their JSON texts denote.

Every row carries the organisation and project it belongs to (a project's project is
itself).  Upload sessions, file versions and webhook deliveries also name a parent row.
No statement of the program ever assigns these columns after the insert.

## Main definitions

* `Project`, `ProjectConfig`, …, `OutboxMessage` — the rows.
* `Table`, `Table.Row`, `Database` — the tables.
* `Owner` — organisation, project and parent of a row.
* `File.assign`, … — the columns a flush writes.
-/

namespace FileNest

open RowStore

/-- File lifecycle states.  Nothing in the program writes `uploading`, but
`count_in_flight` asks for it. -/
inductive FileStatus where
  | pending | uploading | processing | ready | failed | quarantined
  deriving DecidableEq

/-- The value of the `status` column. -/
def FileStatus.value : FileStatus → String
  | pending => "pending"
  | uploading => "uploading"
  | processing => "processing"
  | ready => "ready"
  | failed => "failed"
  | quarantined => "quarantined"

/-- A project belongs to one organisation and is the unit of storage and processing
configuration. -/
structure Project where
  id : String
  organizationId : String
  name : String
  slug : String
  description : Option String
  storageMode : String
  storageProvider : String
  versioningEnabled : Bool := false
  ocrEnabled : Bool := false
  isActive : Bool := true
  createdAt : ℕ
  updatedAt : ℕ
  deletedAt : Option ℕ := none
  deriving DecidableEq

/-- Per-project configuration, one row per project; comma-separated lists stay text. -/
structure ProjectConfig where
  id : String
  organizationId : String
  projectId : String
  maxFileSizeBytes : Option ℤ := none
  allowedMimeTypes : Option String := none
  allowedExtensions : Option String := none
  maxFilesPerRequest : Option ℤ := none
  allowedIps : Option String := none
  allowedOrigins : Option String := none
  requireSignedUrls : Bool := false
  signedUrlTtlSeconds : ℕ := 3600
  enforceSchema : Bool := false
  versioningEnabled : Bool := false
  ocrEnabled : Bool := false
  virusScanEnabled : Bool := false
  retentionDays : Option ℤ := none
  wormEnabled : Bool := false
  legalHoldEnabled : Bool := false
  dataResidency : Option String := none
  createdAt : ℕ
  updatedAt : ℕ
  deriving DecidableEq

/-- Where the bytes of a project are stored; credentials are an encrypted blob. -/
structure StorageConfig where
  id : String
  organizationId : String
  projectId : String
  environment : String := "production"
  storageMode : String
  provider : String
  configEncrypted : Option String := none
  region : Option String := none
  bucketName : Option String := none
  endpointUrl : Option String := none
  serverSideEncryption : Option String := none
  kmsKeyId : Option String := none
  sseEnabled : Bool := false
  status : String
  lastVerifiedAt : Option ℕ := none
  createdAt : ℕ
  updatedAt : ℕ
  deriving DecidableEq

/-- A file record; the bytes live in object storage under `storageKey`. -/
structure File where
  id : String
  organizationId : String
  projectId : String
  filename : String
  contentType : String
  sizeBytes : ℤ
  status : FileStatus := .pending
  storageKey : Option String
  folderId : Option String
  category : Option String := none
  versionCount : ℕ := 0
  metadata : Fields
  tags : List String
  ownerUserId : Option String := none
  ownerOrgId : Option String := none
  deletedAt : Option ℕ := none
  createdAt : ℕ
  updatedAt : ℕ
  deriving DecidableEq

/-- An immutable snapshot of a file's bytes. -/
structure FileVersion where
  id : String
  fileId : String
  organizationId : String
  projectId : String
  versionNumber : ℕ
  storageKey : String
  sizeBytes : ℤ
  contentType : String
  createdAt : ℕ
  deriving DecidableEq

/-- A folder with its materialised path. -/
structure Folder where
  id : String
  organizationId : String
  projectId : String
  parentFolderId : Option String
  name : String
  path : String
  createdAt : ℕ
  deletedAt : Option ℕ := none
  deriving DecidableEq

/-- A versioned JSON Schema for a project's file metadata. -/
structure MetadataSchema where
  id : String
  organizationId : String
  projectId : String
  version : ℕ
  schemaJson : Fields
  isActive : Bool
  createdAt : ℕ
  deriving DecidableEq

/-- A short-lived upload credential for browser clients. -/
structure UploadToken where
  id : String
  organizationId : String
  projectId : String
  token : String
  maxSize : Option ℤ
  allowedMimeTypes : Option (List String)
  maxFiles : Option ℤ
  folderId : Option String
  defaultMetadata : Option Fields
  defaultTags : Option (List String)
  ownerUserId : Option String
  ownerOrgId : Option String
  expiresAt : ℕ
  createdAt : ℕ
  deriving DecidableEq

/-- An in-progress multipart upload. -/
structure UploadSession where
  id : String
  organizationId : String
  projectId : String
  fileId : String
  s3UploadId : String
  filename : String
  contentType : String
  totalSizeBytes : ℤ
  partCount : Option ℕ := none
  status : String := "in_progress"
  createdAt : ℕ
  expiresAt : ℕ
  deriving DecidableEq

/-- A customer-configured endpoint for signed event payloads. -/
structure Webhook where
  id : String
  organizationId : String
  projectId : String
  url : String
  events : String
  signingSecret : String
  isActive : Bool
  createdAt : ℕ
  updatedAt : ℕ
  deriving DecidableEq

/-- One delivery attempt of a webhook event. -/
structure WebhookDelivery where
  id : String
  webhookId : String
  organizationId : String
  projectId : String
  eventType : String
  payloadJson : String
  status : String
  attemptCount : ℕ
  responseStatusCode : Option ℕ
  responseBody : Option String
  nextRetryAt : Option ℕ
  createdAt : ℕ
  deriving DecidableEq

/-- An event waiting in the transactional outbox. -/
structure OutboxMessage where
  id : String
  subject : String
  payload : Json
  createdAt : ℕ
  publishedAt : Option ℕ := none
  organizationId : String
  projectId : String
  deriving DecidableEq

/-! ### Tables -/

/-- The tables. -/
inductive Table where
  | projects | projectConfigs | storageConfigs | files | fileVersions | folders
  | metadataSchemas | uploadTokens | uploadSessions | webhooks | webhookDeliveries
  | outboxMessages
  deriving DecidableEq

/-- The rows of a table. -/
abbrev Table.Row : Table → Type
  | projects => Project
  | projectConfigs => ProjectConfig
  | storageConfigs => StorageConfig
  | files => File
  | fileVersions => FileVersion
  | folders => Folder
  | metadataSchemas => MetadataSchema
  | uploadTokens => UploadToken
  | uploadSessions => UploadSession
  | webhooks => Webhook
  | webhookDeliveries => WebhookDelivery
  | outboxMessages => OutboxMessage

/-- Whom a row belongs to. -/
structure Owner where
  organizationId : String
  projectId : String
  /-- The file of a session or version, the webhook of a delivery. -/
  parentId : String := ""
  deriving DecidableEq

/-- The primary key of a row. -/
def rowId : {t : Table} → t.Row → String
  | .projects, r => Project.id r
  | .projectConfigs, r => ProjectConfig.id r
  | .storageConfigs, r => StorageConfig.id r
  | .files, r => File.id r
  | .fileVersions, r => FileVersion.id r
  | .folders, r => Folder.id r
  | .metadataSchemas, r => MetadataSchema.id r
  | .uploadTokens, r => UploadToken.id r
  | .uploadSessions, r => UploadSession.id r
  | .webhooks, r => Webhook.id r
  | .webhookDeliveries, r => WebhookDelivery.id r
  | .outboxMessages, r => OutboxMessage.id r

/-- The owner of a row. -/
def rowOwner : {t : Table} → t.Row → Owner
  | .projects, (r : Project) => ⟨r.organizationId, r.id, ""⟩
  | .projectConfigs, (r : ProjectConfig) => ⟨r.organizationId, r.projectId, ""⟩
  | .storageConfigs, (r : StorageConfig) => ⟨r.organizationId, r.projectId, ""⟩
  | .files, (r : File) => ⟨r.organizationId, r.projectId, ""⟩
  | .fileVersions, (r : FileVersion) => ⟨r.organizationId, r.projectId, r.fileId⟩
  | .folders, (r : Folder) => ⟨r.organizationId, r.projectId, ""⟩
  | .metadataSchemas, (r : MetadataSchema) => ⟨r.organizationId, r.projectId, ""⟩
  | .uploadTokens, (r : UploadToken) => ⟨r.organizationId, r.projectId, ""⟩
  | .uploadSessions, (r : UploadSession) => ⟨r.organizationId, r.projectId, r.fileId⟩
  | .webhooks, (r : Webhook) => ⟨r.organizationId, r.projectId, ""⟩
  | .webhookDeliveries, (r : WebhookDelivery) => ⟨r.organizationId, r.projectId, r.webhookId⟩
  | .outboxMessages, (r : OutboxMessage) => ⟨r.organizationId, r.projectId, ""⟩

instance : Keyed Table.Row String Owner := ⟨rowId, rowOwner⟩

/-- The database. -/
abbrev Database := Store Table.Row

/-- A write of a transaction. -/
abbrev DbWrite := Write Table.Row

/-- The empty database. -/
def Database.empty : Database := fun _ => []

@[simp] theorem owner_eq_rowOwner {t : Table} (r : t.Row) : owner r = rowOwner r := rfl

attribute [simp] rowOwner

theorem pk_eq_rowId {t : Table} (r : t.Row) : pk r = rowId r := rfl

end FileNest
