import FileNest.Uploads.Admission
import FileNest.Isolation
import FileNest.Storage.Gcs

/-!
# Presigned URLs

Four operations hand a client a URL that storage accepts without further credentials.  How long it
lives is the project's policy, and where it points must be reachable for the client, which the
endpoint the application itself uses need not be.  Each provider has a method of its own for
uploads, downloads and parts.

## Main definitions

* `SignedUrl` — what the methods sign, with the endpoint and the end of the URL.
* `StorageProvider.generatePresignedUploadUrl` and so on — the methods of the three providers.
* `UrlIssue`, `Operation.issue` — the call an operation makes for its URL.
* `UrlIssue.MeetsPolicy` — the URL ends in time and points where a client can reach it.

## Main results

* `Operation.answer_issue` — the URL handed out is the answer to that call.
* `presigned_policy_iff` — **what breaks the policy are URLs of parts: on S3 with a public URL, and
  on Azure with a signature that outlives it.**
-/

namespace FileNest

open RowStore

/-! ### The providers' methods -/

/-- The keyword arguments of an S3 client. -/
structure S3ClientKwargs where
  regionName : String
  endpointUrl : Option String
  awsAccessKeyId : Option String
  awsSecretAccessKey : Option String
  addressingStyle : String
  deriving DecidableEq

/-- A URL with what is signed in it. -/
inductive SignedUrl where
  /-- `generate_presigned_url` of a client. -/
  | s3 (client : S3ClientKwargs) (operation : String) (params : Fields) (expiresAt : ℕ)
  /-- The URL of a blob with the answer of `generate_blob_sas`. -/
  | blob (accountUrl : String) (containerName key : Option String) (permission : String)
      (options : Fields) (expiry : ℕ)
  /-- The URL of a block of a blob, with a signature that was made before. -/
  | block (accountUrl : String) (containerName key : Option String) (partNumber : ℕ) (sas : String)
  /-- `generate_signed_url` of a blob. -/
  | gcs (bucketName : Option String) (key method : String) (options : Fields) (expiresAt : ℕ)

/-- Where the URL points; the libraries know where Amazon and Google are. -/
def SignedUrl.endpoint : SignedUrl → Option String
  | s3 client _ _ _ => client.endpointUrl
  | blob accountUrl _ _ _ _ _ | block accountUrl _ _ _ _ => some accountUrl
  | gcs _ _ _ _ _ => none

/-- When the URL ends, given when signatures do that are kept as text. -/
def SignedUrl.expiresAt (sasExpiry : String → Option ℕ) : SignedUrl → Option ℕ
  | s3 _ _ _ expiresAt => some expiresAt
  | blob _ _ _ _ _ expiry => some expiry
  | block _ _ _ _ sas => sasExpiry sas
  | gcs _ _ _ _ expiresAt => some expiresAt

/-- A key in a URL; a column without one reads `None`. -/
def keyText (key : Option String) : String := key.getD "None"

/-- The account of an Azure provider. -/
def azureAccountUrl (accountName : String) : String :=
  "https://" ++ accountName ++ ".blob.core.windows.net"

namespace StorageProvider

/-- `_sse_params`. -/
def sseParams (sseEnabled : Bool) (serverSideEncryption kmsKeyId : Option String) : Fields :=
  if sseEnabled then
    if (orNone serverSideEncryption).getD "AES256" = "aws:kms" then
      [("ServerSideEncryption", .str "aws:kms")] ++
        ((orNone kmsKeyId).map fun k => [("SSEKMSKeyId", Json.str k)]).getD []
    else [("ServerSideEncryption", .str "AES256")]
  else []

/-- `_client_kwargs`. -/
def clientKwargs (endpointUrl publicUrl accessKeyId secretAccessKey : Option String)
    (region : String) (forcePathStyle forPresign : Bool) : S3ClientKwargs where
  regionName := region
  endpointUrl :=
    if forPresign && (orNone publicUrl).isSome then orNone publicUrl else orNone endpointUrl
  awsAccessKeyId := orNone accessKeyId
  awsSecretAccessKey := orNone secretAccessKey
  addressingStyle := if forcePathStyle then "path" else "auto"

/-- The header a download is named by. -/
def contentDisposition (name : String) (filename : Option String) : Fields :=
  ((orNone filename).map fun f =>
    [(name, Json.str ("attachment; filename=" ++ "\"" ++ f ++ "\""))]).getD []

/-- `generate_presigned_upload_url`; the size is not signed. -/
def generatePresignedUploadUrl (now : ℕ) (key contentType : String) (expiresIn : ℕ) :
    StorageProvider → SignedUrl
  | s3 endpointUrl publicUrl accessKeyId secretAccessKey bucketName region forcePathStyle sseEnabled
      serverSideEncryption kmsKeyId =>
      .s3 (clientKwargs endpointUrl publicUrl accessKeyId secretAccessKey region forcePathStyle
          true)
        "put_object"
        ([("Bucket", .optStr bucketName), ("Key", .str key), ("ContentType", .str contentType)] ++
          sseParams sseEnabled serverSideEncryption kmsKeyId)
        (now + expiresIn * second)
  | azureBlob accountName _ containerName =>
      .blob (azureAccountUrl accountName) containerName key "cw"
        [("content_type", .str contentType)] (now + expiresIn * second)
  | gcs _ _ bucketName _ =>
      .gcs bucketName key "PUT" [("content_type", .str contentType)] (now + expiresIn * second)

/-- `generate_presigned_download_url`. -/
def generatePresignedDownloadUrl (now : ℕ) (key filename : Option String) (expiresIn : ℕ) :
    StorageProvider → SignedUrl
  | s3 endpointUrl publicUrl accessKeyId secretAccessKey bucketName region forcePathStyle _ _ _ =>
      .s3 (clientKwargs endpointUrl publicUrl accessKeyId secretAccessKey region forcePathStyle
          true)
        "get_object"
        ([("Bucket", .optStr bucketName), ("Key", .optStr key)] ++
          contentDisposition "ResponseContentDisposition" filename)
        (now + expiresIn * second)
  | azureBlob accountName _ containerName =>
      .blob (azureAccountUrl accountName) containerName key "r"
        (contentDisposition "content_disposition" filename) (now + expiresIn * second)
  | gcs _ _ bucketName _ =>
      .gcs bucketName (keyText key) "GET" (contentDisposition "response_disposition" filename)
        (now + expiresIn * second)

/-- `generate_presigned_part_url`. -/
def generatePresignedPartUrl (now : ℕ) (key : Option String) (uploadId : String)
    (partNumber expiresIn : ℕ) : StorageProvider → SignedUrl
  | s3 endpointUrl publicUrl accessKeyId secretAccessKey bucketName region forcePathStyle _ _ _ =>
      -- the client of the application's own calls
      .s3 (clientKwargs endpointUrl publicUrl accessKeyId secretAccessKey region forcePathStyle
          false)
        "upload_part"
        [("Bucket", .optStr bucketName), ("Key", .optStr key), ("UploadId", .str uploadId),
          ("PartNumber", .int partNumber)]
        (now + expiresIn * second)
  | azureBlob accountName _ containerName =>
      -- the lifetime is not looked at
      .block (azureAccountUrl accountName) containerName key partNumber uploadId
  | gcs _ _ bucketName _ =>
      .gcs bucketName (GCSStorageProvider.partKey (keyText key) uploadId partNumber) "PUT" []
        (now + expiresIn * second)

/-- Where clients reach the provider. -/
def clientFacing : StorageProvider → Option String
  | s3 endpointUrl publicUrl _ _ _ _ _ _ _ _ =>
      match orNone publicUrl with
      | some url => some url
      | none => orNone endpointUrl
  | azureBlob accountName _ _ => some (azureAccountUrl accountName)
  | gcs _ _ _ _ => none

end StorageProvider

/-! ### The calls of the services -/

/-- A method that presigns, with its arguments. -/
inductive UrlCall where
  | upload (key contentType : String) (sizeBytes : ℤ)
  | download (key filename : Option String)
  | part (key : Option String) (uploadId : String) (partNumber : ℕ)

/-- The call for a URL: what it is for, and by which configuration. -/
structure UrlIssue where
  config : ProjectConfig
  /-- The lifetime the caller asks for. -/
  callerTtl : Option ℕ
  provider : StorageProvider
  call : UrlCall

namespace UrlIssue

variable (issue : UrlIssue)

/-- The lifetime the policy gives. -/
def ttl : ℕ := resolveTtl issue.config issue.callerTtl

/-- What the provider answers. -/
def answer (storage : StorageClient) : Except ApiError String :=
  match issue.call with
  | .upload key contentType sizeBytes =>
      storage.generatePresignedUploadUrl issue.provider key contentType sizeBytes issue.ttl
  | .download key filename =>
      storage.generatePresignedDownloadUrl issue.provider key filename issue.ttl
  | .part key uploadId partNumber =>
      storage.generatePresignedPartUrl issue.provider key uploadId partNumber issue.ttl

/-- What is signed in the answer. -/
def signed (now : ℕ) : SignedUrl :=
  match issue.call with
  | .upload key contentType _ =>
      issue.provider.generatePresignedUploadUrl now key contentType issue.ttl
  | .download key filename => issue.provider.generatePresignedDownloadUrl now key filename issue.ttl
  | .part key uploadId partNumber =>
      issue.provider.generatePresignedPartUrl now key uploadId partNumber issue.ttl

/-- The URL ends within the lifetime, and points to where clients reach the provider. -/
structure MeetsPolicy (sasExpiry : String → Option ℕ) (now : ℕ) : Prop where
  lifetime : ∀ e ∈ (issue.signed now).expiresAt sasExpiry, e ≤ now + issue.ttl * second
  endpoint : (issue.signed now).endpoint = issue.provider.clientFacing

/-- What the URL of a part needs: on S3, no public URL apart from the endpoint; on Azure, that the
signature the upload was started with ends within the lifetime. -/
def PartInPolicy (sasExpiry : String → Option ℕ) (now : ℕ) : Prop :=
  match issue.call, issue.provider with
  | .part _ _ _, .s3 endpointUrl publicUrl _ _ _ _ _ _ _ _ =>
      ∀ url ∈ orNone publicUrl, orNone endpointUrl = some url
  | .part _ uploadId _, .azureBlob _ _ _ =>
      ∀ e ∈ sasExpiry uploadId, e ≤ now + issue.ttl * second
  | _, _ => True

end UrlIssue

/-- The URLs handed out with an answer. -/
def Operation.presignedUrls (op : Operation) (r : Response) : List String :=
  match op, r with
  | initUpload _, .uploadInit _ url _ => [url]
  | getDownloadUrl _ _ _, .downloadUrl url _ => [url]
  | getVersionDownloadUrl _ _ _, .downloadUrl url _ => [url]
  | multipartPartUrl _ _ _, .multipartPartUrl _ _ url _ => [url]
  | _, _ => []

/-- The call an operation makes for its URL, if it hands one out. -/
def Operation.issue (ctx : TenantContext) (env : Env) (db : Database) (projectId : String) :
    Operation → Except ApiError (Option UrlIssue)
  | initUpload req => do
      let config ← ProjectConfigRepository.getForProject db projectId ctx.organizationId
      let provider ← getProvider ctx env db projectId
      return some ⟨config, none, provider, .upload
        (storageKey ctx.organizationId projectId (env.uuid4 0)) req.contentType req.sizeBytes⟩
  | getDownloadUrl fileId ttl inline' => do
      let record ← FileRepository.get db fileId ctx.organizationId projectId
      let config ← ProjectConfigRepository.getForProject db projectId ctx.organizationId
      let provider ← getProvider ctx env db projectId
      return some ⟨config, some ttl, provider, .download record.storageKey
        (if inline' then none else some record.filename)⟩
  | getVersionDownloadUrl fileId versionId ttl => do
      let version ← FileVersionRepository.get db versionId fileId ctx.organizationId
      let config ← ProjectConfigRepository.getForProject db projectId ctx.organizationId
      let provider ← getProvider ctx env db projectId
      return some ⟨config, some ttl, provider, .download version.storageKey none⟩
  | multipartPartUrl uploadId part ttl => do
      let session ← UploadSessionRepository.get db uploadId ctx.organizationId
      let record ← FileRepository.get db session.fileId ctx.organizationId projectId
      let config ← ProjectConfigRepository.getForProject db projectId ctx.organizationId
      let provider ← getProvider ctx env db projectId
      return some ⟨config, some ttl, provider, .part record.storageKey session.s3UploadId part⟩
  | _ => pure none

section Issue

variable {ctx : TenantContext} {env : Env} {db : Database} {projectId : String} {op : Operation}
  {r : Response} {ws : List DbWrite} {url : String}

/-- **The URL in an answer is what the provider answers to the call.** -/
theorem Operation.answer_issue (h : op.run ctx env db projectId = .ok (r, ws))
    (hurl : url ∈ op.presignedUrls r) : ∃ issue : UrlIssue,
      op.issue ctx env db projectId = .ok (some issue) ∧ issue.answer env.storage = .ok url := by
  cases op with
  | initUpload req =>
    obtain ⟨config, provider, answer, hadmits, -, hanswer, rfl, -⟩ :=
      FileService.initUpload_eq_ok.mp h
    obtain rfl := List.mem_singleton.mp hurl
    refine ⟨⟨config, none, provider, .upload _ _ _⟩, ?_, hanswer⟩
    simp only [issue, bind_eq_ok, pure_eq_ok]
    exact ⟨config, hadmits.config_eq, provider, hadmits.provider_eq, rfl⟩
  | getDownloadUrl fileId ttl inline' =>
    simp only [run, FileService.getDownloadUrl, readOnly, bind_eq_ok, pure_eq_ok,
      Prod.mk.injEq] at h
    obtain ⟨record, hrecord, config, hconfig, provider, hprovider, answer, hanswer, rfl, -⟩ := h
    obtain rfl := List.mem_singleton.mp hurl
    refine ⟨⟨config, some ttl, provider, .download _ _⟩, ?_, hanswer⟩
    simp only [issue, bind_eq_ok, pure_eq_ok]
    exact ⟨record, hrecord, config, hconfig, provider, hprovider, rfl⟩
  | getVersionDownloadUrl fileId versionId ttl =>
    simp only [run, FileService.getVersionDownloadUrl, readOnly, bind_eq_ok, pure_eq_ok,
      Prod.mk.injEq] at h
    obtain ⟨-, -, version, hversion, config, hconfig, provider, hprovider, answer, hanswer, rfl, -⟩
      := h
    obtain rfl := List.mem_singleton.mp hurl
    refine ⟨⟨config, some ttl, provider, .download _ none⟩, ?_, hanswer⟩
    simp only [issue, bind_eq_ok, pure_eq_ok]
    exact ⟨version, hversion, config, hconfig, provider, hprovider, rfl⟩
  | multipartPartUrl uploadId part ttl =>
    simp only [run, MultipartUploadService.partUrl, readOnly, bind_eq_ok, pure_eq_ok,
      Prod.mk.injEq] at h
    obtain ⟨session, hsession, record, hrecord, config, hconfig, provider, hprovider, answer,
      hanswer, rfl, -⟩ := h
    obtain rfl := List.mem_singleton.mp hurl
    refine ⟨⟨config, some ttl, provider, .part _ _ _⟩, ?_, hanswer⟩
    simp only [issue, bind_eq_ok, pure_eq_ok]
    exact ⟨session, hsession, record, hrecord, config, hconfig, provider, hprovider, rfl⟩
  | _ => cases hurl

end Issue

/-! ### Which URLs are within the policy -/

section Policy

variable {sasExpiry : String → Option ℕ} {now : ℕ}

theorem StorageProvider.clientKwargs_presign (endpointUrl publicUrl accessKeyId
    secretAccessKey : Option String) (region : String) (forcePathStyle : Bool) :
    (clientKwargs endpointUrl publicUrl accessKeyId secretAccessKey region forcePathStyle
      true).endpointUrl = match orNone publicUrl with
        | some url => some url
        | none => orNone endpointUrl := by
  cases h : orNone publicUrl with
  | none => simp [clientKwargs, h]
  | some url => simp [clientKwargs, h]

theorem UrlIssue.MeetsPolicy.of_expiresAt {issue : UrlIssue}
    (hexpires : (issue.signed now).expiresAt sasExpiry = some (now + issue.ttl * second))
    (hendpoint : (issue.signed now).endpoint = issue.provider.clientFacing) :
    issue.MeetsPolicy sasExpiry now := by
  refine ⟨fun e he => ?_, hendpoint⟩
  rw [hexpires, Option.mem_some_iff] at he
  exact he.symm.le

/-- Uploads and downloads are presigned as the policy says. -/
theorem UrlIssue.meetsPolicy_of_not_part {issue : UrlIssue}
    (h : ∀ key uploadId partNumber, issue.call ≠ .part key uploadId partNumber) :
    issue.MeetsPolicy sasExpiry now := by
  obtain ⟨config, callerTtl, provider, call⟩ := issue
  cases call with
  | part key uploadId partNumber => exact absurd rfl (h key uploadId partNumber)
  | upload key contentType sizeBytes =>
    cases provider with
    | s3 endpointUrl publicUrl accessKeyId secretAccessKey bucketName region forcePathStyle =>
      exact .of_expiresAt rfl (StorageProvider.clientKwargs_presign _ _ _ _ _ _)
    | azureBlob accountName accountKey containerName => exact .of_expiresAt rfl rfl
    | gcs credentialsJson credentialsFile bucketName projectId => exact .of_expiresAt rfl rfl
  | download key filename =>
    cases provider with
    | s3 endpointUrl publicUrl accessKeyId secretAccessKey bucketName region forcePathStyle =>
      exact .of_expiresAt rfl (StorageProvider.clientKwargs_presign _ _ _ _ _ _)
    | azureBlob accountName accountKey containerName => exact .of_expiresAt rfl rfl
    | gcs credentialsJson credentialsFile bucketName projectId => exact .of_expiresAt rfl rfl

theorem UrlIssue.meetsPolicy_iff (issue : UrlIssue) :
    issue.MeetsPolicy sasExpiry now ↔ issue.PartInPolicy sasExpiry now := by
  obtain ⟨config, callerTtl, provider, call⟩ := issue
  cases call with
  | upload key contentType sizeBytes =>
    exact iff_of_true (meetsPolicy_of_not_part fun _ _ _ => nofun) trivial
  | download key filename =>
    exact iff_of_true (meetsPolicy_of_not_part fun _ _ _ => nofun) trivial
  | part key uploadId partNumber =>
    cases provider with
    | s3 endpointUrl publicUrl accessKeyId secretAccessKey bucketName region forcePathStyle =>
      have hendpoint : orNone endpointUrl = (match orNone publicUrl with
          | some url => some url
          | none => orNone endpointUrl) ↔
            ∀ url ∈ orNone publicUrl, orNone endpointUrl = some url := by
        cases orNone publicUrl with
        | none => simp
        | some url => simp
      constructor
      · exact fun h => hendpoint.mp h.endpoint
      · exact fun h => .of_expiresAt rfl (hendpoint.mpr h)
    | azureBlob accountName accountKey containerName =>
      exact ⟨fun h => h.lifetime, fun h => ⟨h, rfl⟩⟩
    | gcs credentialsJson credentialsFile bucketName projectId =>
      exact iff_of_true (.of_expiresAt rfl rfl) trivial

end Policy

/-- **A URL that is handed out meets the policy unless it is that of a part, on S3 with a public
URL or on Azure with a signature that outlives the policy.** -/
theorem presigned_policy_iff {ctx : TenantContext} {env : Env} {db : Database} {projectId : String}
    {op : Operation} {r : Response} {ws : List DbWrite} {url : String}
    (sasExpiry : String → Option ℕ) (h : op.run ctx env db projectId = .ok (r, ws))
    (hurl : url ∈ op.presignedUrls r) : ∃ issue : UrlIssue,
      op.issue ctx env db projectId = .ok (some issue) ∧ issue.answer env.storage = .ok url ∧
        (issue.MeetsPolicy sasExpiry env.now ↔ issue.PartInPolicy sasExpiry env.now) := by
  obtain ⟨issue, hissue, hanswer⟩ := Operation.answer_issue h hurl
  exact ⟨issue, hissue, hanswer, issue.meetsPolicy_iff⟩

/-- The session of an upload that is started on Azure keeps a signature for a day. -/
theorem sasExpiry_of_start {ctx : TenantContext} {env : Env} {db : Database} {projectId : String}
    {req : MultipartStartRequest} {r : Response} {ws : List DbWrite}
    {sasExpiry : String → Option ℕ}
    (hsas : ∀ accountName accountKey containerName key contentType sas,
      env.storage.createMultipartUpload (.azureBlob accountName accountKey containerName) key
        contentType = .ok sas → sasExpiry sas = some (env.now + day))
    {accountName accountKey : String} {containerName : Option String}
    (hprovider : getProvider ctx env db projectId
      = .ok (.azureBlob accountName accountKey containerName))
    (h : MultipartUploadService.start ctx env db projectId req = .ok (r, ws)) :
    ∃ record, ∃ session : UploadSession,
      ws = [.insert .files record, .insert .uploadSessions session] ∧
        sasExpiry session.s3UploadId = some (session.createdAt + day) := by
  obtain ⟨config, provider, sas, hadmits, hcreate, -, rfl⟩ :=
    MultipartUploadService.start_eq_ok.mp h
  obtain rfl := Except.ok.inj (hadmits.provider_eq.symm.trans hprovider)
  exact ⟨_, _, rfl, hsas _ _ _ _ _ _ hcreate⟩

/-! ### Two projects -/

/-- The platform's RustFS, which clients reach by another name, and its Azure account. -/
def publicSettings : Settings where
  rustfsPublicUrl := some "https://files.example"
  azureAccountName := some "filenest"
  azureAccountKey := some "key"

/-- An environment with these settings. -/
def publicEnv (tag : String) (now : ℕ) : Env := { devEnv tag now with settings := publicSettings }

/-- A project on one of the platform's providers, and an upload in parts. -/
def multipartDb (provider : CreateProjectRequest) : Database :=
  runAll [⟨orgContext "acme", publicEnv "p" 1, "", .createProject provider⟩,
    ⟨orgContext "acme", publicEnv "u" 2, "p0", .multipartStart
      { filename := "a.bin", contentType := "application/octet-stream", totalSizeBytes := 10 }⟩]
    Database.empty

/-- A project on RustFS. -/
def rustfsProject : CreateProjectRequest :=
  { devProject with storageProvider := "rustfs", storageProvider_mem := by decide }

/-- A project on Azure. -/
def azureProject : CreateProjectRequest :=
  { devProject with storageProvider := "azure_blob", storageProvider_mem := by decide }

/-- A member who uploads ten bytes. -/
def tenBytes : Operation := .initUpload
  { filename := "a.bin", contentType := "application/octet-stream", sizeBytes := 10 }

/-- The upload's URL on RustFS points to where clients reach it, and ends in time. -/
theorem upload_in_policy :
    ∃ issue : UrlIssue, tenBytes.issue (orgContext "acme") (publicEnv "e" 3)
          (multipartDb rustfsProject) "p0" = .ok (some issue) ∧
        issue.answer (publicEnv "e" 3).storage = .ok "http://localhost:9000/acme/p0/e0" ∧
        issue.MeetsPolicy (fun _ => none) 3 := by
  obtain ⟨issue, hissue, hanswer, hpolicy⟩ := @presigned_policy_iff (orgContext "acme")
    (publicEnv "e" 3) (multipartDb rustfsProject) "p0" tenBytes _ _ _ (fun _ => none) rfl
    (List.mem_singleton_self _)
  refine ⟨issue, hissue, hanswer, hpolicy.mpr ?_⟩
  obtain rfl := Option.some.inj (Except.ok.inj (show _ = Except.ok (some issue) from hissue))
  trivial

/-- The signature of the upload, which ends a day after its start. -/
def startedSas (sas : String) : Option ℕ :=
  if sas = "upload-acme/p0/u0" then some (2 + day) else none

/-- A URL for the first part, for a minute. -/
def partOne : Operation := .multipartPartUrl "u1" 1 60

/-- On RustFS its endpoint is the application's, and on Azure it lives for a day. -/
theorem partUrls_outside_policy :
    (Reached (multipartDb rustfsProject) ∧
      ∃ issue : UrlIssue, partOne.issue (orgContext "acme") (publicEnv "e" 3)
          (multipartDb rustfsProject) "p0" = .ok (some issue) ∧
        issue.answer (publicEnv "e" 3).storage = .ok "http://localhost:9000/upload-acme/p0/u0" ∧
        ¬issue.MeetsPolicy startedSas 3) ∧
    Reached (multipartDb azureProject) ∧
      ∃ issue : UrlIssue, partOne.issue (orgContext "acme") (publicEnv "e" 3)
          (multipartDb azureProject) "p0" = .ok (some issue) ∧
        issue.answer (publicEnv "e" 3).storage = .ok "http://localhost:9000/upload-acme/p0/u0" ∧
        ¬issue.MeetsPolicy startedSas 3 := by
  refine ⟨⟨reached_runAll .empty _, _, rfl, rfl, fun hpolicy => ?_⟩, reached_runAll .empty _, _,
    rfl, rfl, fun hpolicy => ?_⟩
  · have hendpoint : some "http://localhost:9000" = some "https://files.example" :=
      hpolicy.endpoint
    exact absurd hendpoint (by decide)
  · have hlifetime : 2 + day ≤ 3 + 60 * second := hpolicy.lifetime (2 + day) rfl
    exact absurd hlifetime (by decide)

end FileNest
