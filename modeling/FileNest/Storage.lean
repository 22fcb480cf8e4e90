import FileNest.Auth

/-!
# Storage providers and the environment of a request

`build_provider` turns a storage configuration into a provider object: platform
credentials for managed projects, decrypted customer credentials otherwise.  What a
provider's calls answer, like everything else a request reads that is not in the
database, comes from the environment.

## Main definitions

* `Settings` — the platform's settings, as far as storage reads them.
* `StorageProvider` — a provider object with the arguments it was built from.
* `StorageProvider.construct` — what its constructor does with them.
* `buildProvider`, `defaultProvider` — `StorageResolver`.
* `Env` — clock, random draws, storage answers and library calls of one request.
-/

namespace FileNest

/-- The library of Google Cloud: what making a client raises, with credentials that are given as
text, that are in a file, and that are found in the environment. -/
structure GoogleCloud where
  fromInfo : String → Option String → Except String Unit := fun _ _ => .ok ()
  fromFile : String → Option String → Except String Unit := fun _ _ => .ok ()
  fromEnvironment : Option String → Except String Unit := fun _ => .ok ()

/-- Platform settings, and the library that is installed. -/
structure Settings where
  defaultStorageProvider : String := "s3"
  s3AccessKeyId : Option String := none
  s3SecretAccessKey : Option String := none
  s3BucketName : String := "filenest"
  s3Region : String := "us-east-1"
  minioEndpointUrl : String := "http://localhost:9000"
  minioAccessKeyId : Option String := none
  minioSecretAccessKey : Option String := none
  minioBucketName : String := "filenest"
  minioRegion : String := "us-east-1"
  rustfsEndpointUrl : String := "http://localhost:9000"
  rustfsPublicUrl : Option String := none
  rustfsAccessKeyId : Option String := none
  rustfsSecretAccessKey : Option String := none
  rustfsBucketName : String := "filenest"
  rustfsRegion : String := "us-east-1"
  r2EndpointUrl : Option String := none
  r2AccessKeyId : Option String := none
  r2SecretAccessKey : Option String := none
  r2BucketName : String := "filenest"
  r2Region : String := "auto"
  azureAccountName : Option String := none
  azureAccountKey : Option String := none
  gcsProjectId : Option String := none
  gcsCredentialsJson : Option String := none
  gcsCredentialsFile : Option String := none
  google : GoogleCloud := {}

/-- A provider object, with the arguments of its constructor. -/
inductive StorageProvider where
  | s3 (endpointUrl publicUrl accessKeyId secretAccessKey bucketName : Option String)
      (region : String) (forcePathStyle sseEnabled : Bool)
      (serverSideEncryption kmsKeyId : Option String)
  | azureBlob (accountName accountKey : String) (containerName : Option String)
  | gcs (credentialsJson credentialsFile bucketName projectId : Option String)
  deriving DecidableEq

/-- `GCSStorageProvider._build_client`.  What it raises is nobody's error. -/
def GoogleCloud.buildClient (google : GoogleCloud)
    (credentialsJson credentialsFile projectId : Option String) : Except ApiError Unit :=
  let client := match orNone credentialsJson, orNone credentialsFile with
    | some text, _ => google.fromInfo text projectId
    | none, some path => google.fromFile path projectId
    | none, none => google.fromEnvironment projectId
  client.mapError .unhandled

theorem GoogleCloud.buildClient_cases (google : GoogleCloud)
    (credentialsJson credentialsFile projectId : Option String) :
    google.buildClient credentialsJson credentialsFile projectId = .ok () ∨
      ∃ text, google.buildClient credentialsJson credentialsFile projectId
        = .error (.unhandled text) := by
  have hmap : ∀ client : Except String Unit, client.mapError ApiError.unhandled = .ok () ∨
      ∃ text, client.mapError ApiError.unhandled = .error (.unhandled text) := by
    rintro (text | ⟨⟩)
    · exact .inr ⟨text, rfl⟩
    · exact .inl rfl
  exact hmap _

/-- The constructors of the providers: that of GCS makes a client, the others keep their
arguments. -/
def StorageProvider.construct (google : GoogleCloud) :
    StorageProvider → Except ApiError StorageProvider
  | gcs credentialsJson credentialsFile bucketName projectId => do
      google.buildClient credentialsJson credentialsFile projectId
      pure (.gcs credentialsJson credentialsFile bucketName projectId)
  | p => pure p

/-- `_SUPPORTED_PROVIDERS`. -/
def supportedProviders : List String := ["s3", "minio", "rustfs", "r2", "azure_blob", "gcs"]

/-- The error every builder ends with. -/
def unsupportedProvider (provider : String) : ApiError :=
  storageError ("Unsupported storage provider: '" ++ provider ++ "'")
    [("configured", .str provider), ("supported", .strs supportedProviders)]

/-- `_build_managed_provider`: platform credentials. -/
def buildManagedProvider (settings : Settings) (provider bucketName : String)
    (sseEnabled : Bool) : Except ApiError StorageProvider :=
  match Text.lower provider with
  | "s3" => pure (.s3 none none settings.s3AccessKeyId settings.s3SecretAccessKey bucketName
      settings.s3Region false sseEnabled none none)
  | "minio" => pure (.s3 settings.minioEndpointUrl none settings.minioAccessKeyId
      settings.minioSecretAccessKey bucketName settings.minioRegion true sseEnabled none none)
  | "rustfs" => pure (.s3 settings.rustfsEndpointUrl settings.rustfsPublicUrl
      settings.rustfsAccessKeyId settings.rustfsSecretAccessKey bucketName settings.rustfsRegion
      true sseEnabled none none)
  | "r2" => pure (.s3 settings.r2EndpointUrl none settings.r2AccessKeyId
      settings.r2SecretAccessKey bucketName settings.r2Region true sseEnabled none none)
  | "azure_blob" =>
      match orNone settings.azureAccountName, orNone settings.azureAccountKey with
      | some name, some key => pure (.azureBlob name key bucketName)
      | _, _ => throw (storageError
          "AZURE_ACCOUNT_NAME and AZURE_ACCOUNT_KEY must be set for managed Azure storage"
          [("provider", .str "azure_blob")])
  | "gcs" => (StorageProvider.gcs settings.gcsCredentialsJson settings.gcsCredentialsFile
      bucketName settings.gcsProjectId).construct settings.google
  | _ => throw (unsupportedProvider provider)

/-- `app.core.crypto`: AES-256-GCM under the key in the settings.  All it raises is
`StorageError`, with a message and a detail. -/
structure Crypto where
  /-- `encrypt_storage_credentials`. -/
  encrypt : Fields → Except (String × Fields) String
  /-- `decrypt_storage_credentials`. -/
  decrypt : String → Except (String × Fields) Fields

/-- A call of the crypto module. -/
def orStorageError {α : Type} : Except (String × Fields) α → Except ApiError α
  | .ok a => pure a
  | .error (message, detail) => throw (storageError message detail)

/-- `creds.get(key)`, for credentials that are text. -/
def credential (creds : Fields) (key : String) : Option String :=
  match creds.get? key with
  | some (.str s) => some s
  | _ => none

/-- `creds[key]`. -/
def requiredCredential (creds : Fields) (key : String) : Except ApiError String :=
  match credential creds key with
  | some s => pure s
  | none => throw (.unhandled (Text.quoted key))

/-- `_build_byob_provider`: decrypted customer credentials. -/
def buildByobProvider (settings : Settings) (crypto : Crypto) (config : StorageConfig) :
    Except ApiError StorageProvider := do
  match orNone config.configEncrypted with
  | none => throw (storageError
      "BYOB storage config has no credentials — call update_config first"
      [("project_id", .str config.projectId)])
  | some blob =>
    let creds ← orStorageError (crypto.decrypt blob)
    let p := Text.lower config.provider
    if p ∈ ["s3", "minio", "rustfs", "r2"] then
      pure (.s3 config.endpointUrl none (credential creds "access_key_id")
        (credential creds "secret_access_key") config.bucketName
        ((orNone config.region).getD "us-east-1") (p != "s3") config.sseEnabled
        config.serverSideEncryption config.kmsKeyId)
    else if p = "azure_blob" then
      pure (.azureBlob (← requiredCredential creds "account_name")
        (← requiredCredential creds "account_key") config.bucketName)
    else if p = "gcs" then
      (StorageProvider.gcs (credential creds "credentials_json") none config.bucketName
        none).construct settings.google
    else throw (unsupportedProvider config.provider)

/-- `StorageResolver.build_provider`. -/
def buildProvider (settings : Settings) (crypto : Crypto) (config : StorageConfig) :
    Except ApiError StorageProvider :=
  if config.storageMode = "managed" then
    buildManagedProvider settings config.provider
      ((orNone config.bucketName).getD ("fn-" ++ config.projectId)) config.sseEnabled
  else buildByobProvider settings crypto config

/-- `StorageResolver.get_provider`: the platform default, whatever the project. -/
def defaultProvider (settings : Settings) : Except ApiError StorageProvider :=
  let p := Text.lower settings.defaultStorageProvider
  let bucket := match p with
    | "s3" => settings.s3BucketName
    | "minio" => settings.minioBucketName
    | "rustfs" => settings.rustfsBucketName
    | "r2" => settings.r2BucketName
    | _ => "filenest"
  buildManagedProvider settings p bucket false

/-- What the calls of a provider answer. -/
structure StorageClient where
  generatePresignedUploadUrl (p : StorageProvider) (key contentType : String) (sizeBytes : ℤ)
    (expiresIn : ℕ) : Except ApiError String
  generatePresignedDownloadUrl (p : StorageProvider) (key : Option String)
    (filename : Option String) (expiresIn : ℕ) : Except ApiError String
  createMultipartUpload (p : StorageProvider) (key contentType : String) : Except ApiError String
  generatePresignedPartUrl (p : StorageProvider) (key : Option String) (uploadId : String)
    (partNumber expiresIn : ℕ) : Except ApiError String
  completeMultipartUpload (p : StorageProvider) (key : Option String) (uploadId : String)
    (parts : List (ℕ × String)) : Except ApiError Unit
  abortMultipartUpload (p : StorageProvider) (key : Option String) (uploadId : String) :
    Except ApiError Unit
  upload (p : StorageProvider) (key : String) (data : String) (contentType : String) :
    Except ApiError Unit
  deleteObject (p : StorageProvider) (key : String) : Except ApiError Unit
  createBucket (p : StorageProvider) (bucketName : String) : Except ApiError Unit
  setBucketCors (p : StorageProvider) (allowedOrigins : List String) : Except ApiError Unit

/-- Everything a request reads that is not in the database. -/
structure Env where
  /-- `datetime.now(UTC)`. -/
  now : ℕ
  /-- The ids drawn, in order. -/
  uuid4 : ℕ → String
  /-- `secrets.token_hex(32)`. -/
  tokenHex : String
  /-- The measured latency of a probe, in milliseconds. -/
  latencyMs : ℚ
  settings : Settings
  crypto : Crypto
  storage : StorageClient
  /-- `jsonschema.validate(instance, schema)`: the message and path of the violation. -/
  validateSchema : (schema metadata : Fields) → Except (String × List Json) Unit
  ip : IpParsers
  request : ClientInfo
  /-- `datetime.now(UTC)` when expired upload tokens are pruned. -/
  pruneNow : ℕ := now

/-- Microseconds in a second. -/
def second : ℕ := 1000000

/-- Microseconds in a day. -/
def day : ℕ := 86400 * second

end FileNest
