import FileNest.Reachable

/-!
# What an upload has to pass

An upload is admitted if its project has a configuration, its declared size, type and
extension suit it, the project has room for one more upload in flight, and a storage
provider can be built; an upload token may ask for more.  What a token asks, and what it
makes of the folder, metadata and tags of the request, is said here once, free of the
order in which the code raises its errors.

## Main definitions

* `TokenAllows` — the size and type limits of an upload token.
* `TenantContext.uploadFolder`, `TenantContext.effective` — what a token makes of an upload.
* `ProjectAdmits` — the checks of the project.
* `UploadRequest` — the two ways to begin an upload.
* `FileService.initRecord`, `MultipartUploadService.startRecord` — the files they create.

## Main results

* `effectiveUpload_eq_ok` — the upload-token block of `init_upload`.
* `FileService.initUpload_eq_ok`, `MultipartUploadService.start_eq_ok` — **when the two ways
  to begin an upload answer, and what they write.**
-/

namespace FileNest

open RowStore

/-- The size and type limits of an upload token. -/
structure TokenAllows (ctx : TenantContext) (sizeBytes : ℤ) (contentType : String) : Prop where
  maxSize : ∀ m, ctx.uploadTokenMaxSize = some m → sizeBytes ≤ m
  mimeTypes : ∀ types, ctx.uploadTokenAllowedMimeTypes = some types →
    types = [] ∨ "*/*" ∈ types ∨ mimeAllowed contentType types = true

/-- The context of an upload token tells what it is. -/
theorem isUploadToken_uploadTokenContext (record : UploadToken) :
    (uploadTokenContext record).isUploadToken = true := by
  simp only [TenantContext.isUploadToken, Text.startsWith, uploadTokenContext, String.toList_append]
  exact List.isPrefixOf_iff_prefix.mpr (List.prefix_append _ _)

/-- A bearer token that is found gives the context of its row. -/
theorem verifyUploadToken_eq_ok {db : Database} {now : ℕ} {token : String} {ctx : TenantContext} :
    verifyUploadToken db now token = .ok ctx ↔ ∃ record,
      UploadTokenRepository.getByToken db now token = .ok (some record)
        ∧ ctx = uploadTokenContext record := by
  simp only [verifyUploadToken, bind_eq_ok]
  constructor
  · rintro ⟨found, hfound, h⟩
    cases found with
    | none => cases h
    | some record => exact ⟨record, hfound, (Except.ok.inj h).symm⟩
  · rintro ⟨record, hfound, rfl⟩
    exact ⟨some record, hfound, rfl⟩

/-- The folder an upload goes to: the token's, if it has one, or the request's. -/
def TenantContext.uploadFolder (ctx : TenantContext) (folderId : Option String) : Option String :=
  bif ctx.isUploadToken then ctx.uploadTokenFolderId.orElse fun _ => folderId else folderId

/-- The metadata of an upload: the token's defaults win. -/
def TenantContext.uploadMetadata (ctx : TenantContext) (metadata : Fields) : Fields :=
  bif ctx.isUploadToken then metadata.update (ctx.uploadTokenDefaultMetadata.getD []) else metadata

/-- The tags of an upload: those of the token come after the request's. -/
def TenantContext.uploadTags (ctx : TenantContext) (tags : List String) : List String :=
  bif ctx.isUploadToken then
    match ctx.uploadTokenDefaultTags with
    | some (t :: ts) => dictFromKeys (tags ++ t :: ts)
    | _ => tags
  else tags

/-- What a token makes of an upload. -/
def TenantContext.effective (ctx : TenantContext) (req : UploadInitRequest) : EffectiveUpload where
  folderId := ctx.uploadFolder req.folderId
  metadata := ctx.uploadMetadata req.metadata
  tags := ctx.uploadTags req.tags

/-- A check that may throw before the rest of a `do` block. -/
theorem ite_throw_bind_eq_ok {α β : Type} {c : Prop} [Decidable c] {e : ApiError}
    {x : Except ApiError β} {b : β} :
    (if c then ((throw e : Except ApiError α) >>= fun _ => x) else x) = .ok b ↔ ¬c ∧ x = .ok b := by
  by_cases hc : c
  · rw [if_pos hc]
    simp only [bind_eq_ok, throw_ne_ok, false_and, exists_false, hc, not_true_eq_false]
  · rw [if_neg hc]
    simp only [hc, not_false_eq_true, true_and]

theorem tokenAllows_iff {ctx : TenantContext} {sizeBytes : ℤ} {contentType : String} :
    TokenAllows ctx sizeBytes contentType ↔
      (∀ m, ctx.uploadTokenMaxSize = some m → ¬m < sizeBytes)
        ∧ ∀ types, ctx.uploadTokenAllowedMimeTypes = some types →
          ¬(types ≠ [] ∧ "*/*" ∉ types ∧ mimeAllowed contentType types = false) := by
  have htypes : ∀ types, ¬(types ≠ [] ∧ "*/*" ∉ types ∧ mimeAllowed contentType types = false) ↔
      types = [] ∨ "*/*" ∈ types ∨ mimeAllowed contentType types = true := by
    intro types
    simp only [not_and_or, not_not, ne_eq, Bool.not_eq_false]
  simp only [htypes, not_lt]
  exact ⟨fun h => ⟨h.1, h.2⟩, fun h => ⟨h.1, h.2⟩⟩

/-- **The upload-token block of `init_upload`.** -/
theorem effectiveUpload_eq_ok {ctx : TenantContext} {req : UploadInitRequest}
    {effective : EffectiveUpload} : effectiveUpload ctx req = .ok effective ↔
      (ctx.isUploadToken = true → TokenAllows ctx req.sizeBytes req.contentType)
        ∧ ctx.effective req = effective := by
  simp only [effectiveUpload, TenantContext.effective, TenantContext.uploadFolder,
    TenantContext.uploadMetadata, TenantContext.uploadTags, tokenAllows_iff]
  cases ctx.isUploadToken with
  | false =>
    simp only [Bool.not_false, if_true, pure_eq_ok, cond_false, reduceCtorEq, false_imp_iff,
      true_and]
  | true =>
    simp only [Bool.not_true, Bool.false_eq_true, if_false, cond_true, forall_const]
    -- one case for each limit and each kind of tags the token may carry
    rcases ctx.uploadTokenDefaultTags with _ | _ | ⟨t, ts⟩ <;>
      rcases ctx.uploadTokenMaxSize with _ | m <;>
      rcases ctx.uploadTokenAllowedMimeTypes with _ | types <;>
      simp only [ite_throw_bind_eq_ok, pure_eq_ok, reduceCtorEq, false_imp_iff, implies_true,
        true_and, and_true, Option.some.injEq, forall_eq', and_assoc]

/-! ### The project -/

/-- The checks of the project, with the configuration and the provider they come from. -/
structure ProjectAdmits (ctx : TenantContext) (env : Env) (db : Database) (projectId : String)
    (filename contentType : String) (sizeBytes : ℤ) (config : ProjectConfig)
    (provider : StorageProvider) : Prop where
  config_eq : ProjectConfigRepository.getForProject db projectId ctx.organizationId = .ok config
  validates : validateUploadRequest config filename contentType sizeBytes = .ok ()
  inFlight : checkInFlight config (FileRepository.countInFlight db ctx.organizationId projectId)
    = .ok ()
  provider_eq : getProvider ctx env db projectId = .ok provider

/-- The two ways to begin an upload. -/
inductive UploadRequest where
  | init (req : UploadInitRequest)
  | start (req : MultipartStartRequest)

namespace UploadRequest

def op : UploadRequest → Operation
  | init req => .initUpload req
  | start req => .multipartStart req

def filename : UploadRequest → String
  | init req => req.filename
  | start req => req.filename

def contentType : UploadRequest → String
  | init req => req.contentType
  | start req => req.contentType

def sizeBytes : UploadRequest → ℤ
  | init req => req.sizeBytes
  | start req => req.totalSizeBytes

/-- Both routes check the project, the address and one scope. -/
theorem gates (request : UploadRequest) : request.op.dependency = .projectAndAllowlist
    ∧ request.op.requiredScopes = ["files:upload"] ∧ request.op.metadataInvalid = false := by
  cases request <;> exact ⟨rfl, rfl, rfl⟩

end UploadRequest

section Begin

variable (ctx : TenantContext) (env : Env) (projectId : String)

/-- The file `init_upload` creates. -/
def FileService.initRecord (req : UploadInitRequest) : File where
  id := env.uuid4 0
  organizationId := ctx.organizationId
  projectId := projectId
  filename := req.filename
  contentType := req.contentType
  sizeBytes := req.sizeBytes
  folderId := ctx.uploadFolder req.folderId
  tags := dictFromKeys (ctx.uploadTags req.tags)
  metadata := ctx.uploadMetadata req.metadata
  ownerUserId := ctx.ownerUserId
  ownerOrgId := ctx.ownerOrgId
  storageKey := some (storageKey ctx.organizationId projectId (env.uuid4 0))
  createdAt := env.now
  updatedAt := env.now

/-- The file a multipart start creates. -/
def MultipartUploadService.startRecord (req : MultipartStartRequest) : File where
  id := env.uuid4 0
  organizationId := ctx.organizationId
  projectId := projectId
  filename := req.filename
  contentType := req.contentType
  sizeBytes := req.totalSizeBytes
  folderId := req.folderId
  tags := dictFromKeys req.tags
  metadata := req.metadata
  storageKey := some (storageKey ctx.organizationId projectId (env.uuid4 0))
  createdAt := env.now
  updatedAt := env.now

/-- The session a multipart start creates. -/
def MultipartUploadService.startSession (req : MultipartStartRequest) (providerUploadId : String) :
    UploadSession where
  id := env.uuid4 1
  organizationId := ctx.organizationId
  projectId := projectId
  fileId := env.uuid4 0
  s3UploadId := providerUploadId
  filename := req.filename
  contentType := req.contentType
  totalSizeBytes := req.totalSizeBytes
  createdAt := env.now
  expiresAt := env.now + day

end Begin

section Begin

variable {ctx : TenantContext} {env : Env} {db : Database} {projectId : String}

/-- **When `init_upload` answers, and what it writes.** -/
theorem FileService.initUpload_eq_ok {req : UploadInitRequest} {r : Response}
    {ws : List DbWrite} : initUpload ctx env db projectId req = .ok (r, ws) ↔
      ∃ config provider url,
        ProjectAdmits ctx env db projectId req.filename req.contentType req.sizeBytes config
        provider
        ∧ (ctx.isUploadToken = true → TokenAllows ctx req.sizeBytes req.contentType)
        ∧ env.storage.generatePresignedUploadUrl provider
            (storageKey ctx.organizationId projectId (env.uuid4 0)) req.contentType req.sizeBytes
            (resolveTtl config none) = .ok url
        ∧ r = .uploadInit (env.uuid4 0) url (env.now + resolveTtl config none * second)
        ∧ ws = [.insert .files (initRecord ctx env projectId req),
            publish ctx env projectId 1 "file.upload.initiated"
              [("file_id", .str (env.uuid4 0)), ("filename", .str req.filename),
               ("size_bytes", .int req.sizeBytes)]] := by
  simp only [initUpload, bind_eq_ok, pure_eq_ok, Prod.mk.injEq, effectiveUpload_eq_ok]
  constructor
  · rintro ⟨config, hconfig, _, ⟨htoken, rfl⟩, _, hvalidates, _, hinFlight, provider, hprovider,
      url, hurl, rfl, rfl⟩
    exact ⟨config, provider, url, ⟨hconfig, hvalidates, hinFlight, hprovider⟩, htoken, hurl,
      rfl, rfl⟩
  · rintro ⟨config, provider, url, hadmits, htoken, hurl, rfl, rfl⟩
    exact ⟨config, hadmits.config_eq, _, ⟨htoken, rfl⟩, _, hadmits.validates, _, hadmits.inFlight,
      provider, hadmits.provider_eq, url, hurl, rfl, rfl⟩

/-- **When a multipart start answers, and what it writes.** -/
theorem MultipartUploadService.start_eq_ok {req : MultipartStartRequest} {r : Response}
    {ws : List DbWrite} : start ctx env db projectId req = .ok (r, ws) ↔
      ∃ config provider providerUploadId,
        ProjectAdmits ctx env db projectId req.filename req.contentType req.totalSizeBytes config
          provider
        ∧ env.storage.createMultipartUpload provider
            (storageKey ctx.organizationId projectId (env.uuid4 0)) req.contentType
            = .ok providerUploadId
        ∧ r = .multipartStart (env.uuid4 1) (env.uuid4 0)
        ∧ ws = [.insert .files (startRecord ctx env projectId req),
            .insert .uploadSessions (startSession ctx env projectId req providerUploadId)] := by
  simp only [start, bind_eq_ok, pure_eq_ok, Prod.mk.injEq]
  constructor
  · rintro ⟨config, hconfig, _, hvalidates, _, hinFlight, provider, hprovider, providerUploadId,
      hcreate, rfl, rfl⟩
    exact ⟨config, provider, providerUploadId, ⟨hconfig, hvalidates, hinFlight, hprovider⟩, hcreate,
      rfl, rfl⟩
  · rintro ⟨config, provider, providerUploadId, hadmits, hcreate, rfl, rfl⟩
    exact ⟨config, hadmits.config_eq, _, hadmits.validates, _, hadmits.inFlight, provider,
      hadmits.provider_eq, providerUploadId, hcreate, rfl, rfl⟩

end Begin

end FileNest
