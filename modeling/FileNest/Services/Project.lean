import FileNest.Services.Metadata

/-!
# Project, configuration, storage and reporting services

## Main definitions

* `ProjectService` — projects; creation also inserts the storage and configuration rows.
* `ProjectConfigService` — the four partial updates of a configuration.
* `StorageConfigService` — credentials, connectivity probe, server-side encryption.
* `UsageService`, `DashboardService` — organisation-wide reports.
-/

namespace FileNest

open RowStore

/-! ### Projects -/

/-- `provision_managed_bucket`. -/
def provisionManagedBucket (env : Env) (projectId provider : String) : Except ApiError String := do
  let bucketName := "fn-" ++ projectId
  let managed ← buildManagedProvider env.settings (Text.lower provider) bucketName false
  env.storage.createBucket managed bucketName
  env.storage.setBucketCors managed ["*"]
  return bucketName

/-- Write and delete the probe object. -/
def probe (env : Env) (provider : StorageProvider) (key : String) : Except ApiError Unit := do
  env.storage.upload provider key "filenest-probe" "text/plain"
  env.storage.deleteObject provider key

/-- The key of the probe object. -/
def probeKey (organizationId projectId : String) : String :=
  organizationId ++ "/" ++ projectId ++ "/.filenest-probe"

/-- Bucket, status and verification time of a new project's storage: a managed bucket is
provisioned and probed, a customer's waits for its credentials. -/
def initialStorage (ctx : TenantContext) (env : Env) (projectId : String)
    (req : CreateProjectRequest) : Except ApiError (Option String × String × Option ℕ) := do
  if req.storageMode = "managed" then
    let bucketName ← provisionManagedBucket env projectId req.storageProvider
    let probed := do
      let provider ← buildManagedProvider env.settings req.storageProvider bucketName false
      probe env provider (probeKey ctx.organizationId projectId)
    match probed with
    | .ok () => return (some bucketName, "active", some env.now)
    | .error _ => return (some bucketName, "verification_failed", none)
  else return (none, "pending_verification", none)

namespace ProjectService

variable (ctx : TenantContext) (env : Env) (db : Database)

/-- No active project of the organisation has the slug. -/
def requireFreeSlug (slug : String) : Except ApiError Unit := do
  match ← ProjectRepository.getBySlug db slug ctx.organizationId with
  | some _ =>
      throw (conflictError "A project with this slug already exists in your organisation." [])
  | none => return

/-- `create_project`. -/
def createProject (req : CreateProjectRequest) : ServiceResult := do
  requireFreeSlug ctx db req.slug
  let record : Project :=
    { id := env.uuid4 0, organizationId := ctx.organizationId, name := req.name
      slug := req.slug, description := req.description, storageMode := req.storageMode
      storageProvider := req.storageProvider, createdAt := env.now, updatedAt := env.now }
  let (bucketName, status, lastVerifiedAt) ← initialStorage ctx env record.id req
  let storage : StorageConfig :=
    { id := env.uuid4 1, organizationId := ctx.organizationId, projectId := record.id
      storageMode := req.storageMode, provider := req.storageProvider
      bucketName := bucketName, status := status, lastVerifiedAt := lastVerifiedAt
      sseEnabled := decide (Text.lower req.storageProvider ∈ ["s3", "r2", "azure_blob", "gcs"])
      createdAt := env.now, updatedAt := env.now }
  let config : ProjectConfig :=
    { id := env.uuid4 2, organizationId := ctx.organizationId, projectId := record.id
      createdAt := env.now, updatedAt := env.now }
  return (.project (.ofRecord record),
    [.insert .projects record, .insert .storageConfigs storage, .insert .projectConfigs config])

/-- `get_project`. -/
def getProject (projectId : String) : ServiceResult := do
  let record ← ProjectRepository.get db projectId ctx.organizationId
  readOnly (.project (.ofRecord record))

/-- `list_projects`. -/
def listProjects (params : ProjectListParams) : ServiceResult :=
  let (records, total) := ProjectRepository.list db ctx.organizationId params
  readOnly (.projectList (records.map ProjectResponse.ofRecord) total params.page params.pageSize
    (if total = 0 then 1 else (total + params.pageSize - 1) / params.pageSize))

/-- `update_project`. -/
def updateProject (projectId : String) (req : UpdateProjectRequest) : ServiceResult := do
  let record ← ProjectRepository.get db projectId ctx.organizationId
  let saved : Project := { record with
    name := req.name.getD record.name
    description := req.description.orElse fun _ => record.description
    versioningEnabled := req.versioningEnabled.getD record.versioningEnabled
    ocrEnabled := req.ocrEnabled.getD record.ocrEnabled
    updatedAt := env.now }
  return (.project (.ofRecord saved), [record.save saved])

/-- `delete_project`. -/
def deleteProject (projectId : String) : ServiceResult := do
  let record ← ProjectRepository.get db projectId ctx.organizationId
  return (.noContent, [record.save (ProjectRepository.softDelete record env.now)])

end ProjectService

/-! ### Project configuration -/

/-- `_join`. -/
def joinCsv (values : List String) : Option String :=
  orNone (some (Text.joinWith "," ((values.map Text.strip).filter (· != ""))))

/-- `_split`. -/
def splitCsv (text : Option String) : Option (List String) :=
  (orNone text).map fun csv => ((Text.split ',' csv).map Text.strip).filter (· != "")

/-- `_to_response`. -/
def ProjectConfigResponse.ofRecord (record : ProjectConfig) : ProjectConfigResponse where
  id := record.id
  organizationId := record.organizationId
  projectId := record.projectId
  maxFileSizeBytes := record.maxFileSizeBytes
  allowedMimeTypes := splitCsv record.allowedMimeTypes
  allowedExtensions := splitCsv record.allowedExtensions
  maxFilesPerRequest := record.maxFilesPerRequest
  allowedIps := splitCsv record.allowedIps
  allowedOrigins := splitCsv record.allowedOrigins
  requireSignedUrls := record.requireSignedUrls
  signedUrlTtlSeconds := record.signedUrlTtlSeconds
  versioningEnabled := record.versioningEnabled
  ocrEnabled := record.ocrEnabled
  virusScanEnabled := record.virusScanEnabled
  retentionDays := record.retentionDays
  wormEnabled := record.wormEnabled
  legalHoldEnabled := record.legalHoldEnabled
  dataResidency := record.dataResidency
  createdAt := record.createdAt
  updatedAt := record.updatedAt

namespace ProjectConfigService

variable (ctx : TenantContext) (env : Env) (db : Database) (projectId : String)

/-- `get_config`. -/
def getConfig : ServiceResult := do
  let record ← ProjectConfigRepository.getForProject db projectId ctx.organizationId
  readOnly (.projectConfig (.ofRecord record))

/-- The body of the four updates: load, change, save. -/
def updateWith (change : ProjectConfig → ProjectConfig) : ServiceResult := do
  let record ← ProjectConfigRepository.getForProject db projectId ctx.organizationId
  let saved : ProjectConfig := { change record with updatedAt := env.now }
  return (.projectConfig (.ofRecord saved), [record.save saved])

/-- `update_upload_config`: an absent or null field keeps its value, an empty list
clears it. -/
def updateUploadConfig (req : UpdateUploadConfigRequest) : ServiceResult :=
  updateWith ctx env db projectId fun record => { record with
    maxFileSizeBytes := req.maxFileSizeBytes.orElse fun _ => record.maxFileSizeBytes
    allowedMimeTypes := (req.allowedMimeTypes.map joinCsv).getD record.allowedMimeTypes
    allowedExtensions := (req.allowedExtensions.map joinCsv).getD record.allowedExtensions
    maxFilesPerRequest := req.maxFilesPerRequest.orElse fun _ => record.maxFilesPerRequest }

/-- `update_security_config`; the bucket's CORS policy follows on a best-effort basis. -/
def updateSecurityConfig (req : UpdateSecurityConfigRequest) : ServiceResult :=
  updateWith ctx env db projectId fun record => { record with
    allowedIps := (req.allowedIps.map joinCsv).getD record.allowedIps
    allowedOrigins := (req.allowedOrigins.map joinCsv).getD record.allowedOrigins
    requireSignedUrls := req.requireSignedUrls.getD record.requireSignedUrls
    signedUrlTtlSeconds := req.signedUrlTtlSeconds.getD record.signedUrlTtlSeconds }

/-- `_sync_bucket_cors`, after the commit: whose bucket gets which origins, unless no provider
can be built.  Whatever the provider answers is only logged. -/
def syncBucketCors (config : ProjectConfig) : Option (StorageProvider × List String) :=
  let origins := match splitCsv config.allowedOrigins with
    | some (origin :: origins) => origin :: origins
    | _ => ["*"]
  match StorageConfigRepository.getForProject db projectId ctx.organizationId >>=
      buildProvider env.settings env.crypto with
  | .ok provider => some (provider, origins)
  | .error (.filenest .notFound _ _) =>
      (defaultProvider env.settings).toOption.map fun provider => (provider, origins)
  | .error _ => none

/-- `update_processing_config`. -/
def updateProcessingConfig (req : UpdateProcessingConfigRequest) : ServiceResult :=
  updateWith ctx env db projectId fun record => { record with
    versioningEnabled := req.versioningEnabled.getD record.versioningEnabled
    ocrEnabled := req.ocrEnabled.getD record.ocrEnabled
    virusScanEnabled := req.virusScanEnabled.getD record.virusScanEnabled }

/-- `update_compliance_config`. -/
def updateComplianceConfig (req : UpdateComplianceConfigRequest) : ServiceResult :=
  updateWith ctx env db projectId fun record => { record with
    retentionDays := req.retentionDays.orElse fun _ => record.retentionDays
    wormEnabled := req.wormEnabled.getD record.wormEnabled
    legalHoldEnabled := req.legalHoldEnabled.getD record.legalHoldEnabled
    dataResidency := req.dataResidency.orElse fun _ => record.dataResidency }

end ProjectConfigService

/-! ### Storage configuration -/

/-- `_build_byob_credentials`: credentials, encryption and KMS key for a provider. -/
def buildByobCredentials (provider : String) (req : StorageConfigUpdateRequest) :
    Except ApiError (Fields × Option String × Option String) :=
  let p := Text.lower provider
  if p ∈ ["s3", "minio", "rustfs", "r2"] then
    match orNone req.accessKeyId, orNone req.secretAccessKey with
    | some accessKeyId, some secretAccessKey =>
        let kms := if req.serverSideEncryption = "aws:kms" then req.kmsKeyId else none
        pure ([("access_key_id", .str accessKeyId), ("secret_access_key", .str secretAccessKey)] ++
            ((orNone kms).map fun k => [("kms_key_id", Json.str k)]).getD [],
          some req.serverSideEncryption, kms)
    | _, _ => throw (validationError
        "access_key_id and secret_access_key are required for S3-compatible providers"
        [("provider", .str provider)])
  else if p = "azure_blob" then
    match orNone req.accountName, orNone req.accountKey with
    | some accountName, some accountKey =>
        pure ([("account_name", .str accountName), ("account_key", .str accountKey)], none, none)
    | _, _ => throw (validationError
        "account_name and account_key are required for Azure Blob Storage"
        [("provider", .str provider)])
  else if p = "gcs" then
    match orNone req.credentialsJson with
    | some credentialsJson => pure ([("credentials_json", .str credentialsJson)], none, none)
    | none => throw (validationError "credentials_json is required for Google Cloud Storage"
        [("provider", .str provider)])
  else throw (validationError ("Unsupported provider: '" ++ provider ++ "'")
    [("provider", .str provider),
     ("supported", .strs ["s3", "minio", "rustfs", "r2", "azure_blob", "gcs"])])

namespace StorageConfigService

variable (ctx : TenantContext) (env : Env) (db : Database) (projectId : String)

/-- The response for a saved configuration, its `updated_at` aside. -/
def saveConfig (loaded saved : StorageConfig) : ServiceResult :=
  pure (.storageConfig (.ofRecord saved), [loaded.save saved env.now])

/-- `update_config`. -/
def updateConfig (req : StorageConfigUpdateRequest) : ServiceResult := do
  let existing ← StorageConfigRepository.getForProject db projectId ctx.organizationId
  let (creds, sse, kms) ← buildByobCredentials existing.provider req
  let configEncrypted ← orStorageError (env.crypto.encrypt creds)
  saveConfig env existing (StorageConfigRepository.update existing req.bucketName req.region
    req.endpointUrl configEncrypted sse kms)

/-- `get_config`. -/
def getConfig : ServiceResult := do
  let record ← StorageConfigRepository.getForProject db projectId ctx.organizationId
  readOnly (.storageConfig (.ofRecord record))

/-- `verify`: the outcome of the probe becomes the status. -/
def verify : ServiceResult := do
  let record ← StorageConfigRepository.getForProject db projectId ctx.organizationId
  let provider ← buildProvider env.settings env.crypto record
  match probe env provider (probeKey ctx.organizationId projectId) with
  | .ok () => return (.storageVerify true env.latencyMs none,
      [record.save (StorageConfigRepository.updateStatus record "active" (some env.now)) env.now])
  | .error e => return (.storageVerify false env.latencyMs (some e.text),
      [record.save (StorageConfigRepository.updateStatus record "verification_failed" none)
        env.now])

/-- `update_sse`. -/
def updateSse (sseEnabled : Bool) : ServiceResult := do
  let existing ← StorageConfigRepository.getForProject db projectId ctx.organizationId
  if existing.provider ∈ ["minio", "rustfs"] then
    saveConfig env existing (StorageConfigRepository.updateSse existing sseEnabled)
  else throw (validationError "SSE can only be toggled for MinIO and RustFS projects"
    [("provider", .str existing.provider)])

end StorageConfigService

/-! ### Reports -/

/-- `UsageService.get_usage`. -/
def UsageService.getUsage (ctx : TenantContext) (env : Env) (db : Database) : ServiceResult :=
  readOnly (.usage (UsageRepository.getStats db env.now ctx.organizationId)
    (UsageRepository.getProjectBreakdown db ctx.organizationId))

/-- `DashboardService.get_dashboard`. -/
def DashboardService.getDashboard (ctx : TenantContext) (env : Env) (db : Database) :
    ServiceResult :=
  readOnly (.dashboard
    { stats := UsageRepository.getStats db env.now ctx.organizationId
      uploadsByDay := DashboardRepository.getUploadsByDay db env.now ctx.organizationId
      storageByDay := DashboardRepository.getStorageByDay db env.now ctx.organizationId
      statusDistribution := DashboardRepository.getStatusDistribution db ctx.organizationId
      recentFiles := DashboardRepository.getRecentFiles db ctx.organizationId 10 })

end FileNest
