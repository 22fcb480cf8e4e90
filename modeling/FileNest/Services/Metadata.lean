import FileNest.Services.Multipart

/-!
# Metadata, webhook and upload-token services

## Main definitions

* `MetadataService` — schemas and file metadata.
* `WebhookService` — webhook endpoints and their deliveries.
* `UploadTokenService.create` — browser upload tokens.
-/

namespace FileNest

open RowStore

namespace MetadataService

variable (ctx : TenantContext) (env : Env) (db : Database) (projectId : String)

/-- `create_schema`. -/
def createSchema (schema : Fields) : ServiceResult :=
  let nextVersion :=
    MetadataSchemaRepository.getMaxVersion db projectId ctx.organizationId + 1
  let record : MetadataSchema :=
    { id := env.uuid4 0, organizationId := ctx.organizationId, projectId := projectId
      version := nextVersion, schemaJson := schema, isActive := true, createdAt := env.now }
  pure (.metadataSchema (.ofRecord record),
    MetadataSchemaRepository.deactivateAll db projectId ctx.organizationId ++
      [.insert .metadataSchemas record])

/-- `list_schemas`. -/
def listSchemas : ServiceResult :=
  let items := (MetadataSchemaRepository.list db projectId ctx.organizationId).map
    MetadataSchemaResponse.ofRecord
  readOnly (.metadataSchemaList items items.length)

/-- `_validate_if_required`. -/
def validateIfRequired (metadata : Fields) : Except ApiError Unit := do
  let config ← ProjectConfigRepository.getForProject db projectId ctx.organizationId
  if config.enforceSchema then
    match ← MetadataSchemaRepository.getActive db projectId ctx.organizationId with
    | none => return
    | some schema =>
        match env.validateSchema schema.schemaJson metadata with
        | .ok () => return
        | .error (message, path) =>
            throw (validationError ("Metadata validation failed: " ++ message)
              [("path", .arr path), ("schema_version", .int schema.version)])
  else return

/-- `update_metadata`. -/
def updateMetadata (fileId : String) (metadata : Fields) : ServiceResult := do
  validateIfRequired ctx env db projectId metadata
  FileService.modifyFile ctx db projectId fileId
    (FileRepository.updateMetadata · metadata env.now) fun r => .metadata r.id r.metadata

/-- `merge_metadata`: what is validated is the merged object. -/
def mergeMetadata (fileId : String) (updates : Fields) : ServiceResult := do
  let record ← FileRepository.get db fileId ctx.organizationId projectId
  validateIfRequired ctx env db projectId (record.metadata.update updates)
  FileService.modifyFile ctx db projectId fileId
    (FileRepository.mergeMetadata · updates env.now) fun r => .metadata r.id r.metadata

end MetadataService

/-! ### Webhooks -/

/-- `_events_to_str`. -/
def eventsToStr (events : List String) : String :=
  Text.joinWith "," ((events.map Text.strip).filter (· != ""))

/-- `_str_to_events`. -/
def strToEvents (events : String) : List String :=
  if events = "" then [] else ((Text.split ',' events).map Text.strip).filter (· != "")

/-- `WebhookService._to_response`. -/
def WebhookResponse.ofRecord (webhook : Webhook) (secret : Option String) : WebhookResponse where
  id := webhook.id
  organizationId := webhook.organizationId
  projectId := webhook.projectId
  url := webhook.url
  events := strToEvents webhook.events
  isActive := webhook.isActive
  signingSecret := secret
  createdAt := webhook.createdAt
  updatedAt := webhook.updatedAt

namespace WebhookService

variable (ctx : TenantContext) (env : Env) (db : Database) (projectId : String)

/-- `create`: the only response that shows the secret. -/
def create (req : WebhookCreateRequest) : ServiceResult :=
  let webhook : Webhook :=
    { id := env.uuid4 0, organizationId := ctx.organizationId, projectId := projectId
      url := req.url, events := eventsToStr req.events, signingSecret := env.tokenHex
      isActive := req.isActive, createdAt := env.now, updatedAt := env.now }
  pure (.webhook (.ofRecord webhook (some env.tokenHex)), [.insert .webhooks webhook])

/-- `list`. -/
def list : ServiceResult :=
  let items := (WebhookRepository.list db ctx.organizationId projectId).map
    (WebhookResponse.ofRecord · none)
  readOnly (.webhookList items items.length)

/-- `update`. -/
def update (webhookId : String) (req : WebhookUpdateRequest) : ServiceResult := do
  let webhook ← WebhookRepository.get db webhookId ctx.organizationId projectId
  let saved : Webhook := { webhook with
    url := req.url.getD webhook.url
    events := (req.events.map eventsToStr).getD webhook.events
    isActive := req.isActive.getD webhook.isActive }
  let flushed : Webhook :=
    { saved with updatedAt := if saved = webhook then webhook.updatedAt else env.now }
  return (.webhook (.ofRecord flushed none), [webhook.save saved env.now])

/-- `delete`. -/
def delete (webhookId : String) : ServiceResult := do
  let webhook ← WebhookRepository.get db webhookId ctx.organizationId projectId
  return (.noContent, [WebhookRepository.delete webhook])

/-- `list_deliveries`. -/
def listDeliveries (webhookId : String) (limit : ℕ) : ServiceResult := do
  let _ ← WebhookRepository.get db webhookId ctx.organizationId projectId
  let items := (WebhookRepository.listDeliveries db webhookId ctx.organizationId limit).map
    WebhookDeliveryResponse.ofRecord
  readOnly (.webhookDeliveryList items items.length)

end WebhookService

/-! ### Upload tokens -/

/-- `_token_mime_covered_by_config`. -/
def tokenMimeCoveredByConfig (tokenPattern : String) (configSet : List String) : Bool :=
  let p := Text.lower (Text.strip tokenPattern)
  if "*/*" ∈ configSet then true
  else if p = "*/*" then false
  else if Text.endsWith p "/*" then configSet.contains p
  else
    let major := (Text.split '/' p).headD "" ++ "/*"
    configSet.contains p || configSet.contains major

/-- `_reject_token_mime_types`. -/
def rejectTokenMimeTypes (tokenTypes : List String) (configMimeCsv : String) : List String :=
  let configSet := ((Text.split ',' configMimeCsv).filter fun t => Text.strip t != "").map
    fun t => Text.lower (Text.strip t)
  tokenTypes.filter fun t => !tokenMimeCoveredByConfig t configSet

/-- Token limits must not exceed the project's. -/
def checkTokenConstraints (config : ProjectConfig) (req : CreateUploadTokenRequest) :
    Except ApiError Unit := do
  match req.maxSize, config.maxFileSizeBytes with
  | some n, some m =>
      if m < n then throw (validationError ("Token max_size (" ++ Text.thousands n ++
        " bytes) exceeds the project limit of " ++ Text.thousands m ++ " bytes")
        [("token_max_size", .int n), ("project_max_file_size_bytes", .int m)])
  | _, _ => pure ()
  match req.maxFiles, config.maxFilesPerRequest with
  | some n, some m =>
      if m < n then throw (validationError ("Token max_files (" ++ toString n ++
        ") exceeds the project limit of " ++ toString m ++ " files per request")
        [("token_max_files", .int n), ("project_max_files_per_request", .int m)])
  | _, _ => pure ()
  match req.allowedMimeTypes, orNone config.allowedMimeTypes with
  | some types, some csv =>
      let rejected := rejectTokenMimeTypes types csv
      if rejected ≠ [] then throw (validationError
        ("Token allowed_mime_types contains types not permitted by the project config: " ++
          Text.joinWith ", " rejected)
        [("rejected_types", .strs rejected), ("project_allowed_mime_types", .str csv)])
  | _, _ => pure ()

/-- `_DEFAULT_MAX_SIZE`. -/
def defaultMaxSize : ℤ := 100 * 1024 * 1024

/-- `_DEFAULT_MAX_FILES`. -/
def defaultMaxFiles : ℤ := 10

/-- The folder of a token: a path wins over an id, and is created where it is missing. -/
def resolveTokenFolder (ctx : TenantContext) (env : Env) (db : Database) (projectId : String)
    (req : CreateUploadTokenRequest) : Except ApiError (Option String × List DbWrite) :=
  match req.folderPath with
  | some path => do
      let (leaf, writes) ← resolvePath ctx env db projectId
        (Text.split '/' (Text.stripChar '/' path)) 1 "" none
      return (leaf.map Folder.id, writes)
  | none => return (req.folderId, [])

/-- `UploadTokenService.create`.  Ids: the token's first, then the folders'. -/
def UploadTokenService.create (ctx : TenantContext) (env : Env) (db : Database)
    (projectId : String) (req : CreateUploadTokenRequest) : ServiceResult := do
  let config ← ProjectConfigRepository.getForProject db projectId ctx.organizationId
  checkTokenConstraints config req
  let (folderId, folderWrites) ← resolveTokenFolder ctx env db projectId req
  let constraints : UploadTokenConstraints :=
    { maxSize := req.maxSize.getD defaultMaxSize
      allowedMimeTypes := req.allowedMimeTypes.getD ["*/*"]
      maxFiles := req.maxFiles.getD defaultMaxFiles }
  let expiresAt := env.now + req.expiresIn * second
  let record : UploadToken :=
    { id := env.uuid4 0, organizationId := ctx.organizationId, projectId := projectId
      token := "fn_upload_token_" ++ env.tokenHex, maxSize := some constraints.maxSize
      allowedMimeTypes := some constraints.allowedMimeTypes
      maxFiles := some constraints.maxFiles, folderId := folderId
      defaultMetadata := req.metadata, defaultTags := req.tags
      ownerUserId := req.ownerUserId, ownerOrgId := orNone req.ownerOrgId
      expiresAt := expiresAt, createdAt := env.now }
  return (.uploadToken record.token expiresAt constraints,
    folderWrites ++ [.insert .uploadTokens record,
      UploadTokenRepository.deleteExpired ctx.organizationId projectId env.pruneNow])

end FileNest
