import FileNest.Repositories.Files

/-!
# Projects, their configuration and storage: queries and writes

## Main definitions

* `ProjectRepository`, `ProjectConfigRepository`, `StorageConfigRepository` — the
  queries.
* `Project.save`, `ProjectConfig.save`, `StorageConfig.save` — the `UPDATE`s.
-/

namespace FileNest

open RowStore

/-! ### Projects -/

/-- Sort order of a project list; unknown columns fall back to `created_at`. -/
inductive ProjectSort where
  | name | createdAt | storageProvider | storageMode

/-- Query parameters of the project list. -/
structure ProjectListParams where
  page : ℕ := 1
  pageSize : ℕ := 20
  sortBy : ProjectSort := .createdAt
  ascending : Bool := false
  search : Option String := none
  storageProvider : Option String := none
  storageMode : Option String := none
  page_pos : 1 ≤ page := by decide
  pageSize_mem : 1 ≤ pageSize ∧ pageSize ≤ 100 := by decide

/-- Rows sorted on the column asked for. -/
def ProjectListParams.sort (params : ProjectListParams) (rows : List Project) : List Project :=
  match params.sortBy, params.ascending with
  | .name, true => Sql.orderBy Project.name rows
  | .name, false => Sql.orderByDesc Project.name rows
  | .createdAt, true => Sql.orderBy Project.createdAt rows
  | .createdAt, false => Sql.orderByDesc Project.createdAt rows
  | .storageProvider, true => Sql.orderBy Project.storageProvider rows
  | .storageProvider, false => Sql.orderByDesc Project.storageProvider rows
  | .storageMode, true => Sql.orderBy Project.storageMode rows
  | .storageMode, false => Sql.orderByDesc Project.storageMode rows

/-- The filters of the project list. -/
def ProjectListParams.matches (params : ProjectListParams) (r : Project) : Bool :=
  ((orNone params.search).all fun s =>
      Sql.ilike r.name ("%" ++ s ++ "%") || Sql.ilike r.slug ("%" ++ s ++ "%"))
    && ((orNone params.storageProvider).all fun p => r.storageProvider == p)
    && params.storageMode.all fun m => r.storageMode == m

namespace ProjectRepository

variable (db : Database)

/-- `get`. -/
def get (projectId organizationId : String) : Except ApiError Project :=
  oneOr (notFoundError ("Project " ++ projectId ++ " not found"))
    ((db .projects).filter fun (r : Project) =>
      r.id == projectId && r.organizationId == organizationId && r.deletedAt.isNone)

/-- `get_by_slug`: deleted projects release their slug. -/
def getBySlug (slug organizationId : String) : Except ApiError (Option Project) :=
  scalarOneOrNone ((db .projects).filter fun (r : Project) =>
    r.slug == slug && r.organizationId == organizationId && r.deletedAt.isNone)

/-- `list`: the page and the total. -/
def list (organizationId : String) (params : ProjectListParams) : List Project × ℕ :=
  let rows := (db .projects).filter fun (r : Project) =>
    r.organizationId == organizationId && r.isActive && r.deletedAt.isNone && params.matches r
  (Sql.page ((params.page - 1) * params.pageSize) params.pageSize (params.sort rows), rows.length)

/-- `soft_delete`. -/
def softDelete (record : Project) (now : ℕ) : Project :=
  { record with deletedAt := some now, isActive := false, updatedAt := now }

end ProjectRepository

/-- The `UPDATE` of a project. -/
def Project.flush (loaded new : Project) : Patch Table.Row .projects where
  toFun := fun (r : Project) => ({ r with
    name := flushColumn loaded.name new.name r.name
    description := flushColumn loaded.description new.description r.description
    versioningEnabled :=
      flushColumn loaded.versioningEnabled new.versioningEnabled r.versioningEnabled
    ocrEnabled := flushColumn loaded.ocrEnabled new.ocrEnabled r.ocrEnabled
    isActive := flushColumn loaded.isActive new.isActive r.isActive
    updatedAt := flushColumn loaded.updatedAt new.updatedAt r.updatedAt
    deletedAt := flushColumn loaded.deletedAt new.deletedAt r.deletedAt } : Project)
  pk_toFun := fun _ => rfl
  owner_toFun := fun _ => rfl

/-- The write that saves a loaded project. -/
def Project.save (loaded new : Project) : DbWrite :=
  .update .projects loaded.id (loaded.flush new)

/-! ### Project configuration -/

/-- `ProjectConfigRepository.get_for_project`. -/
def ProjectConfigRepository.getForProject (db : Database) (projectId organizationId : String) :
    Except ApiError ProjectConfig :=
  oneOr (notFoundError ("No config found for project " ++ projectId))
    ((db .projectConfigs).filter fun (r : ProjectConfig) =>
      r.projectId == projectId && r.organizationId == organizationId)

/-- The `UPDATE` of a project configuration. -/
def ProjectConfig.flush (loaded new : ProjectConfig) : Patch Table.Row .projectConfigs where
  toFun := fun (r : ProjectConfig) => ({ r with
    maxFileSizeBytes := flushColumn loaded.maxFileSizeBytes new.maxFileSizeBytes r.maxFileSizeBytes
    allowedMimeTypes := flushColumn loaded.allowedMimeTypes new.allowedMimeTypes r.allowedMimeTypes
    allowedExtensions :=
      flushColumn loaded.allowedExtensions new.allowedExtensions r.allowedExtensions
    maxFilesPerRequest :=
      flushColumn loaded.maxFilesPerRequest new.maxFilesPerRequest r.maxFilesPerRequest
    allowedIps := flushColumn loaded.allowedIps new.allowedIps r.allowedIps
    allowedOrigins := flushColumn loaded.allowedOrigins new.allowedOrigins r.allowedOrigins
    requireSignedUrls :=
      flushColumn loaded.requireSignedUrls new.requireSignedUrls r.requireSignedUrls
    signedUrlTtlSeconds :=
      flushColumn loaded.signedUrlTtlSeconds new.signedUrlTtlSeconds r.signedUrlTtlSeconds
    versioningEnabled :=
      flushColumn loaded.versioningEnabled new.versioningEnabled r.versioningEnabled
    ocrEnabled := flushColumn loaded.ocrEnabled new.ocrEnabled r.ocrEnabled
    virusScanEnabled := flushColumn loaded.virusScanEnabled new.virusScanEnabled r.virusScanEnabled
    retentionDays := flushColumn loaded.retentionDays new.retentionDays r.retentionDays
    wormEnabled := flushColumn loaded.wormEnabled new.wormEnabled r.wormEnabled
    legalHoldEnabled := flushColumn loaded.legalHoldEnabled new.legalHoldEnabled r.legalHoldEnabled
    dataResidency := flushColumn loaded.dataResidency new.dataResidency r.dataResidency
    updatedAt := flushColumn loaded.updatedAt new.updatedAt r.updatedAt } : ProjectConfig)
  pk_toFun := fun _ => rfl
  owner_toFun := fun _ => rfl

/-- The write that saves a loaded project configuration. -/
def ProjectConfig.save (loaded new : ProjectConfig) : DbWrite :=
  .update .projectConfigs loaded.id (loaded.flush new)

/-! ### Storage configuration -/

namespace StorageConfigRepository

/-- `get_for_project`, for the production environment every caller asks for. -/
def getForProject (db : Database) (projectId organizationId : String) :
    Except ApiError StorageConfig :=
  oneOr (notFoundError ("No storage config found for project " ++ projectId))
    ((db .storageConfigs).filter fun (r : StorageConfig) =>
      r.projectId == projectId && r.organizationId == organizationId
        && r.environment == "production")

/-- `update`: new credentials, to be verified again. -/
def update (record : StorageConfig) (bucketName : String) (region endpointUrl : Option String)
    (configEncrypted : String) (serverSideEncryption kmsKeyId : Option String) : StorageConfig :=
  { record with
    bucketName := some bucketName
    region := region
    endpointUrl := endpointUrl
    configEncrypted := some configEncrypted
    serverSideEncryption := serverSideEncryption
    kmsKeyId := kmsKeyId
    status := "pending_verification" }

/-- `update_status`. -/
def updateStatus (record : StorageConfig) (status : String) (lastVerifiedAt : Option ℕ) :
    StorageConfig :=
  { record with
    status := status
    lastVerifiedAt := lastVerifiedAt.orElse fun _ => record.lastVerifiedAt }

/-- `update_sse`. -/
def updateSse (record : StorageConfig) (sseEnabled : Bool) : StorageConfig :=
  { record with sseEnabled := sseEnabled }

end StorageConfigRepository

/-- The `UPDATE` of a storage configuration; `onupdate` refreshes `updated_at`. -/
def StorageConfig.flush (loaded new : StorageConfig) (now : ℕ) :
    Patch Table.Row .storageConfigs where
  toFun := fun (r : StorageConfig) => ({ r with
    configEncrypted := flushColumn loaded.configEncrypted new.configEncrypted r.configEncrypted
    region := flushColumn loaded.region new.region r.region
    bucketName := flushColumn loaded.bucketName new.bucketName r.bucketName
    endpointUrl := flushColumn loaded.endpointUrl new.endpointUrl r.endpointUrl
    serverSideEncryption :=
      flushColumn loaded.serverSideEncryption new.serverSideEncryption r.serverSideEncryption
    kmsKeyId := flushColumn loaded.kmsKeyId new.kmsKeyId r.kmsKeyId
    sseEnabled := flushColumn loaded.sseEnabled new.sseEnabled r.sseEnabled
    status := flushColumn loaded.status new.status r.status
    lastVerifiedAt := flushColumn loaded.lastVerifiedAt new.lastVerifiedAt r.lastVerifiedAt
    updatedAt := if new = loaded then r.updatedAt else now } : StorageConfig)
  pk_toFun := fun _ => rfl
  owner_toFun := fun _ => rfl

theorem StorageConfig.flush_bucketName (loaded new record : StorageConfig) (now : ℕ) :
    ((loaded.flush new now).toFun record).bucketName
      = flushColumn loaded.bucketName new.bucketName record.bucketName := rfl

theorem StorageConfig.flush_status (loaded new record : StorageConfig) (now : ℕ) :
    ((loaded.flush new now).toFun record).status
      = flushColumn loaded.status new.status record.status := rfl

/-- The write that saves a loaded storage configuration. -/
def StorageConfig.save (loaded new : StorageConfig) (now : ℕ) : DbWrite :=
  .update .storageConfigs loaded.id (loaded.flush new now)

end FileNest
