import FileNest.Storage.Crypto
import FileNest.Storage.Gate

/-!
# Credentials at rest

A customer's credentials are encrypted when they are saved and decrypted whenever a provider is
built of them.  The update that saves them saves the bucket, the region and the encryption as well,
but only the columns that differ from what it has read: where two updates overlap, the credentials
of the one can end up beside the bucket of the other.

## Main definitions

* `StorageConfigUpdateRequest.asked` — the provider that a request asks for.
* `Sealing` — every call finds the same key, and draws a nonce of its own.
* `NotOvertaken` — what an update left alone is still what it has read.

## Main results

* `Accepted.buildByobProvider` — decrypted credentials build the provider of their request.
* `HoldsOf.built` — stored credentials build a provider, but for those that Google refuses.
* `stored_credentials` — **… whoever builds it; after an update it is the one that was asked for
  exactly if the update was not overtaken, until the next update.**
-/

namespace FileNest

open RowStore ReadCommitted

/-! ### What a request asks for -/

/-- The KMS key a request is saved with. -/
def StorageConfigUpdateRequest.kms (req : StorageConfigUpdateRequest) : Option String :=
  if req.serverSideEncryption = "aws:kms" then req.kmsKeyId else none

/-- The library takes the credentials, if they are for it. -/
def StorageProvider.Constructs (google : GoogleCloud) : StorageProvider → Prop
  | gcs credentialsJson credentialsFile _ projectId =>
      google.buildClient credentialsJson credentialsFile projectId = .ok ()
  | s3 .. | azureBlob .. => True

theorem StorageProvider.construct_eq_ok_iff {google : GoogleCloud} {p q : StorageProvider} :
    p.construct google = .ok q ↔ p.Constructs google ∧ q = p := by
  cases p with
  | s3 => exact ⟨fun h => ⟨trivial, (pure_eq_ok.mp h).symm⟩, fun h => pure_eq_ok.mpr h.2.symm⟩
  | azureBlob =>
    exact ⟨fun h => ⟨trivial, (pure_eq_ok.mp h).symm⟩, fun h => pure_eq_ok.mpr h.2.symm⟩
  | gcs json file bucket project =>
    rw [construct, Constructs, bind_eq_ok]
    constructor
    · rintro ⟨⟨⟩, hclient, hq⟩
      exact ⟨hclient, (pure_eq_ok.mp hq).symm⟩
    · rintro ⟨hclient, rfl⟩
      exact ⟨(), hclient, rfl⟩

/-- A request that a provider can be saved with: its credentials, encryption and key. -/
inductive Accepted (provider : String) (req : StorageConfigUpdateRequest) :
    Fields → Option String → Option String → Prop
  | s3 (hp : Text.lower provider ∈ ["s3", "minio", "rustfs", "r2"]) {accessKeyId secret : String}
      (hkey : req.accessKeyId = some accessKeyId) (hsecret : req.secretAccessKey = some secret)
      (more : Fields) (hmore : more = [] ∨ ∃ kms, more = [("kms_key_id", .str kms)]) :
      Accepted provider req
        ([("access_key_id", .str accessKeyId), ("secret_access_key", .str secret)] ++ more)
        (some req.serverSideEncryption) req.kms
  | azure (hp : Text.lower provider = "azure_blob") {accountName accountKey : String}
      (hname : req.accountName = some accountName) (hkey : req.accountKey = some accountKey) :
      Accepted provider req
        [("account_name", .str accountName), ("account_key", .str accountKey)] none none
  | gcs (hp : Text.lower provider = "gcs") {credentialsJson : String}
      (hjson : orNone req.credentialsJson = some credentialsJson) :
      Accepted provider req [("credentials_json", .str credentialsJson)] none none

/-- The provider that the credentials of a request make of a configuration. -/
def StorageConfigUpdateRequest.opened (req : StorageConfigUpdateRequest) (config : StorageConfig) :
    StorageProvider :=
  let p := Text.lower config.provider
  if p ∈ ["s3", "minio", "rustfs", "r2"] then
    .s3 config.endpointUrl none req.accessKeyId req.secretAccessKey config.bucketName
      ((orNone config.region).getD "us-east-1") (p != "s3") config.sseEnabled
      config.serverSideEncryption config.kmsKeyId
  else if p = "azure_blob" then
    .azureBlob (req.accountName.getD "") (req.accountKey.getD "") config.bucketName
  else .gcs req.credentialsJson none config.bucketName none

/-- The provider that a request asks for. -/
def StorageConfigUpdateRequest.asked (req : StorageConfigUpdateRequest) (config : StorageConfig) :
    StorageProvider :=
  req.opened { config with
    bucketName := some req.bucketName
    region := req.region
    endpointUrl := req.endpointUrl
    serverSideEncryption := some req.serverSideEncryption
    kmsKeyId := req.kms }

section Requests

variable {provider : String} {req : StorageConfigUpdateRequest} {creds : Fields}
  {sse kms : Option String}

theorem eq_some_of_orNone {a : Option String} {text : String} (h : orNone a = some text) :
    a = some text := by
  unfold orNone at h
  split at h
  · cases h
  · exact h

theorem accepted_of_build (h : buildByobCredentials provider req = .ok (creds, sse, kms)) :
    Accepted provider req creds sse kms := by
  simp only [buildByobCredentials] at h
  split at h
  · rename_i hp
    split at h
    · rename_i accessKeyId secret hkey hsecret
      simp only [pure_eq_ok, Prod.mk.injEq] at h
      obtain ⟨rfl, rfl, rfl⟩ := h
      refine .s3 hp (eq_some_of_orNone hkey) (eq_some_of_orNone hsecret) _ ?_
      cases orNone (if req.serverSideEncryption = "aws:kms" then req.kmsKeyId else none) with
      | none => exact .inl rfl
      | some kms => exact .inr ⟨kms, rfl⟩
    · exact (throw_ne_ok.mp h).elim
  split at h
  · rename_i hp
    split at h
    · rename_i accountName accountKey hname hkey
      simp only [pure_eq_ok, Prod.mk.injEq] at h
      obtain ⟨rfl, rfl, rfl⟩ := h
      exact .azure hp (eq_some_of_orNone hname) (eq_some_of_orNone hkey)
    · exact (throw_ne_ok.mp h).elim
  split at h
  · rename_i hp
    split at h
    · rename_i credentialsJson hjson
      simp only [pure_eq_ok, Prod.mk.injEq] at h
      obtain ⟨rfl, rfl, rfl⟩ := h
      exact .gcs hp hjson
    · exact (throw_ne_ok.mp h).elim
  · exact (throw_ne_ok.mp h).elim

/-- Credentials are a dict of texts. -/
theorem Accepted.textFields (h : Accepted provider req creds sse kms) : TextFields creds := by
  cases h with
  | s3 hp hkey hsecret more hmore =>
    rcases hmore with rfl | ⟨kms, rfl⟩ <;> simp [TextFields]
  | azure hp hname hkey => simp [TextFields]
  | gcs hp hjson => simp [TextFields]

/-- **Decrypted credentials build the provider of their request.** -/
theorem Accepted.buildByobProvider {config : StorageConfig} {settings : Settings}
    {crypto : Crypto} {blob : String} (h : Accepted config.provider req creds sse kms)
    (hblob : orNone config.configEncrypted = some blob) (hopen : crypto.decrypt blob = .ok creds) :
    buildByobProvider settings crypto config
      = (req.opened config).construct settings.google := by
  simp only [FileNest.buildByobProvider, hblob, hopen, orStorageError,
    StorageConfigUpdateRequest.opened]
  cases h with
  | s3 hp hkey hsecret more hmore =>
    rw [pure_bind, if_pos hp, if_pos hp, hkey, hsecret]
    rfl
  | azure hp hname hkey =>
    have hnot : Text.lower config.provider ∉ ["s3", "minio", "rustfs", "r2"] := by
      rw [hp]
      decide
    rw [pure_bind, if_neg hnot, if_neg hnot, if_pos hp, if_pos hp, hname, hkey]
    rfl
  | gcs hp hjson =>
    have hnot : Text.lower config.provider ∉ ["s3", "minio", "rustfs", "r2"] := by
      rw [hp]
      decide
    have hazure : Text.lower config.provider ≠ "azure_blob" := by
      rw [hp]
      decide
    rw [pure_bind, if_neg hnot, if_neg hnot, if_neg hazure, if_neg hazure, if_pos hp,
      eq_some_of_orNone hjson]
    rfl

end Requests

/-! ### Columns -/

/-- If an update leaves a column alone, it still reads as the update has read it. -/
def KeepsColumn {α β : Type} (read : α → β) (loaded new current : α) : Prop :=
  new = loaded → read current = read loaded

theorem read_flushColumn_iff {α β : Type} [DecidableEq α] (read : α → β) {loaded new current : α} :
    read (flushColumn loaded new current) = read new ↔ KeepsColumn read loaded new current := by
  rw [flushColumn, KeepsColumn]
  split
  · rename_i hsame
    exact ⟨fun h _ => hsame ▸ h, fun h => hsame ▸ h hsame⟩
  · rename_i hne
    exact iff_of_true rfl fun hsame => absurd hsame hne

/-- The region a client is made with. -/
def regionRead (region : Option String) : String := (orNone region).getD "us-east-1"

/-- What the update leaves alone is still what it has read, as far as the provider goes. -/
structure NotOvertaken (req : StorageConfigUpdateRequest) (loaded current : StorageConfig) :
    Prop where
  bucketName : KeepsColumn id loaded.bucketName (some req.bucketName) current.bucketName
  endpointUrl : Text.lower loaded.provider ∈ ["s3", "minio", "rustfs", "r2"] →
    KeepsColumn id loaded.endpointUrl req.endpointUrl current.endpointUrl
  region : Text.lower loaded.provider ∈ ["s3", "minio", "rustfs", "r2"] →
    KeepsColumn regionRead loaded.region req.region current.region
  serverSideEncryption : Text.lower loaded.provider ∈ ["s3", "minio", "rustfs", "r2"] →
    KeepsColumn id loaded.serverSideEncryption (some req.serverSideEncryption)
      current.serverSideEncryption
  kmsKeyId : Text.lower loaded.provider ∈ ["s3", "minio", "rustfs", "r2"] →
    KeepsColumn id loaded.kmsKeyId req.kms current.kmsKeyId

/-- The columns that a provider is built of, but for the switch of the encryption. -/
def StorageConfig.routing (s : StorageConfig) : Option String × Option String × Option String
    × Option String × Option String × Option String :=
  (s.configEncrypted, s.bucketName, s.region, s.endpointUrl, s.serverSideEncryption, s.kmsKeyId)

/-- The columns that no update writes. -/
def StorageConfig.fixed (s : StorageConfig) : String × String × String × String × String × String :=
  (s.id, s.organizationId, s.projectId, s.environment, s.storageMode, s.provider)

section Columns

variable {req : StorageConfigUpdateRequest} {creds : Fields} {sse kms : Option String}
  {loaded current : StorageConfig} {blob : String} {now : ℕ}

/-- The credentials of a request make of a row what it asks for exactly if the row has what it
was to be saved with. -/
theorem opened_eq_asked_iff {s : StorageConfig} : req.opened s = req.asked s ↔
    s.bucketName = some req.bucketName ∧ (Text.lower s.provider ∈ ["s3", "minio", "rustfs", "r2"] →
      s.endpointUrl = req.endpointUrl ∧ regionRead s.region = regionRead req.region
        ∧ s.serverSideEncryption = some req.serverSideEncryption ∧ s.kmsKeyId = req.kms) := by
  by_cases hp : Text.lower s.provider ∈ ["s3", "minio", "rustfs", "r2"]
  · simp only [StorageConfigUpdateRequest.opened, StorageConfigUpdateRequest.asked, if_pos hp]
    simp only [StorageProvider.s3.injEq, regionRead, hp, forall_const, true_and]
    exact and_left_comm
  · by_cases hazure : Text.lower s.provider = "azure_blob"
    · simp only [StorageConfigUpdateRequest.opened, StorageConfigUpdateRequest.asked, if_neg hp,
        if_pos hazure]
      simp only [StorageProvider.azureBlob.injEq, true_and, hp, false_implies, and_true]
    · simp only [StorageConfigUpdateRequest.opened, StorageConfigUpdateRequest.asked, if_neg hp,
        if_neg hazure]
      simp only [StorageProvider.gcs.injEq, true_and, hp, false_implies, and_true]

/-- The bucket makes no difference to the library. -/
theorem constructs_opened_iff {google : GoogleCloud} {s : StorageConfig} :
    (req.opened s).Constructs google ↔ (req.asked s).Constructs google := by
  by_cases hp : Text.lower s.provider ∈ ["s3", "minio", "rustfs", "r2"]
  · simp only [StorageConfigUpdateRequest.opened, StorageConfigUpdateRequest.asked, if_pos hp]
    exact iff_of_true trivial trivial
  · by_cases hazure : Text.lower s.provider = "azure_blob"
    · simp only [StorageConfigUpdateRequest.opened, StorageConfigUpdateRequest.asked, if_neg hp,
        if_pos hazure]
      exact iff_of_true trivial trivial
    · simp only [StorageConfigUpdateRequest.opened, StorageConfigUpdateRequest.asked, if_neg hp,
        if_neg hazure]
      exact Iff.rfl

/-- **What an update makes of a row is what it asks for exactly if it was not overtaken.** -/
theorem opened_flush_iff (h : Accepted loaded.provider req creds sse kms)
    (hprovider : current.provider = loaded.provider) :
    let saved := (loaded.flush (StorageConfigRepository.update loaded req.bucketName req.region
      req.endpointUrl blob sse kms) now).toFun current
    req.opened saved = req.asked saved ↔ NotOvertaken req loaded current := by
  intro saved
  have hname : saved.provider = loaded.provider := hprovider
  rw [opened_eq_asked_iff, hname]
  have hbucket : saved.bucketName = some req.bucketName
      ↔ KeepsColumn id loaded.bucketName (some req.bucketName) current.bucketName :=
    read_flushColumn_iff id
  have hendpoint : saved.endpointUrl = req.endpointUrl
      ↔ KeepsColumn id loaded.endpointUrl req.endpointUrl current.endpointUrl :=
    read_flushColumn_iff id
  have hregion : regionRead saved.region = regionRead req.region
      ↔ KeepsColumn regionRead loaded.region req.region current.region :=
    read_flushColumn_iff regionRead
  have hsse : saved.serverSideEncryption = sse
      ↔ KeepsColumn id loaded.serverSideEncryption sse current.serverSideEncryption :=
    read_flushColumn_iff id
  have hkms : saved.kmsKeyId = kms ↔ KeepsColumn id loaded.kmsKeyId kms current.kmsKeyId :=
    read_flushColumn_iff id
  rw [hbucket, hendpoint, hregion]
  constructor
  · rintro ⟨hb, hrest⟩
    cases h with
    | s3 hp hkey hsecret more hmore =>
      obtain ⟨he, hr, hs, hk⟩ := hrest hp
      exact ⟨hb, fun _ => he, fun _ => hr, fun _ => hsse.mp hs, fun _ => hkms.mp hk⟩
    | azure hp hname hkey =>
      have hnot : Text.lower loaded.provider ∉ ["s3", "minio", "rustfs", "r2"] := by
        rw [hp]
        decide
      exact ⟨hb, fun hp => absurd hp hnot, fun hp => absurd hp hnot, fun hp => absurd hp hnot,
        fun hp => absurd hp hnot⟩
    | gcs hp hjson =>
      have hnot : Text.lower loaded.provider ∉ ["s3", "minio", "rustfs", "r2"] := by
        rw [hp]
        decide
      exact ⟨hb, fun hp => absurd hp hnot, fun hp => absurd hp hnot, fun hp => absurd hp hnot,
        fun hp => absurd hp hnot⟩
  · intro hkept
    refine ⟨hkept.bucketName, fun hs3 => ⟨hkept.endpointUrl hs3, hkept.region hs3, ?_⟩⟩
    cases h with
    | s3 hp hkey hsecret more hmore =>
      exact ⟨hsse.mpr (hkept.serverSideEncryption hs3), hkms.mpr (hkept.kmsKeyId hs3)⟩
    | azure hp hname hkey =>
      rw [hp] at hs3
      exact absurd hs3 (by decide)
    | gcs hp hjson =>
      rw [hp] at hs3
      exact absurd hs3 (by decide)

theorem fixed_flush (new : StorageConfig) :
    ((loaded.flush new now).toFun current).fixed = current.fixed := rfl

/-- A save that leaves the columns alone. -/
theorem routing_flush {new : StorageConfig} (h : new.routing = loaded.routing) :
    ((loaded.flush new now).toFun current).routing = current.routing := by
  simp only [StorageConfig.routing, Prod.mk.injEq] at h
  obtain ⟨hblob, hbucket, hregion, hendpoint, hsse, hkms⟩ := h
  simp only [StorageConfig.routing, StorageConfig.flush, hblob, hbucket, hregion, hendpoint, hsse,
    hkms, flushColumn_self]

/-- What the credentials make of a row depends on these columns and the switch. -/
theorem opened_congr {s s' : StorageConfig} (hfixed : s'.fixed = s.fixed)
    (hrouting : s'.routing = s.routing) :
    req.opened s' = req.asked s' ↔ req.opened s = req.asked s := by
  simp only [StorageConfig.fixed, StorageConfig.routing, Prod.mk.injEq] at hfixed hrouting
  rw [opened_eq_asked_iff, opened_eq_asked_iff, hfixed.2.2.2.2.2, hrouting.2.1, hrouting.2.2.1,
    hrouting.2.2.2.1, hrouting.2.2.2.2.1, hrouting.2.2.2.2.2]

end Columns

/-! ### Calls -/

/-- What a call does to the storage configurations. -/
inductive CredentialEffect (ctx : TenantContext) (env : Env) (db : Database) (projectId : String) :
    Operation → List DbWrite → Prop
  | none {op : Operation} {ws : List DbWrite} (hws : ∀ w ∈ ws, w.table ≠ .storageConfigs) :
      CredentialEffect ctx env db projectId op ws
  | create {req : CreateProjectRequest} {record : Project} {storage : StorageConfig}
      {config : ProjectConfig} (hempty : storage.configEncrypted = .none) :
      CredentialEffect ctx env db projectId (.createProject req)
        [.insert .projects record, .insert .storageConfigs storage, .insert .projectConfigs config]
  | save {op : Operation} {loaded new : StorageConfig}
      (hloaded : StorageConfigRepository.getForProject db projectId ctx.organizationId = .ok loaded)
      (hsame : new.routing = loaded.routing) :
      CredentialEffect ctx env db projectId op [loaded.save new env.now]
  | update {req : StorageConfigUpdateRequest} {loaded : StorageConfig} {creds : Fields}
      {sse kms : Option String} {blob : String}
      (hloaded : StorageConfigRepository.getForProject db projectId ctx.organizationId = .ok loaded)
      (haccepted : Accepted loaded.provider req creds sse kms)
      (hblob : env.crypto.encrypt creds = .ok blob) :
      CredentialEffect ctx env db projectId (.updateStorageConfig req)
        [loaded.save (StorageConfigRepository.update loaded req.bucketName req.region
          req.endpointUrl blob sse kms) env.now]

section Calls

variable {ctx : TenantContext} {env : Env} {db snapshot : Database} {projectId : String}
  {op : Operation} {r : Response} {ws : List DbWrite}

theorem orStorageError_eq_ok {α : Type} {x : Except (String × Fields) α} {a : α}
    (h : orStorageError x = .ok a) : x = .ok a := by
  cases x with
  | ok b =>
    obtain rfl := pure_eq_ok.mp h
    rfl
  | error e => exact (throw_ne_ok.mp h).elim

/-- What an update reads, encrypts and writes. -/
theorem StorageConfigService.of_updateConfig {req : StorageConfigUpdateRequest}
    (h : updateConfig ctx env db projectId req = .ok (r, ws)) :
    ∃ loaded creds sse kms blob,
      StorageConfigRepository.getForProject db projectId ctx.organizationId = .ok loaded
        ∧ Accepted loaded.provider req creds sse kms ∧ env.crypto.encrypt creds = .ok blob
        ∧ ws = [loaded.save (StorageConfigRepository.update loaded req.bucketName req.region
          req.endpointUrl blob sse kms) env.now] := by
  simp only [updateConfig, saveConfig, bind_eq_ok, pure_eq_ok, Prod.mk.injEq] at h
  obtain ⟨loaded, hloaded, ⟨creds, sse, kms⟩, hcreds, blob, hblob, -, rfl⟩ := h
  exact ⟨loaded, creds, sse, kms, blob, hloaded, accepted_of_build hcreds,
    orStorageError_eq_ok hblob, rfl⟩

theorem ProjectService.createProject_credentialEffect {req : CreateProjectRequest}
    (h : createProject ctx env db req = .ok (r, ws)) :
    CredentialEffect ctx env db projectId (.createProject req) ws := by
  simp only [createProject, bind_eq_ok, pure_eq_ok, Prod.mk.injEq] at h
  obtain ⟨_, -, ⟨bucket, status, verifiedAt⟩, -, -, rfl⟩ := h
  exact .create rfl

/-- **What every call does to the storage configurations.** -/
theorem Operation.credentialEffect (hdb : db.Good)
    (h : op.run ctx env db projectId = .ok (r, ws)) :
    CredentialEffect ctx env db projectId op ws := by
  have heffect := Operation.storageEffect hdb h
  cases op with
  | updateStorageConfig req =>
    obtain ⟨loaded, creds, sse, kms, blob, hloaded, haccepted, hblob, rfl⟩ :=
      StorageConfigService.of_updateConfig h
    exact .update hloaded haccepted hblob
  | createProject req => exact ProjectService.createProject_credentialEffect h
  | _ =>
    cases heffect with
    | none hws => exact .none fun w hw => (hws w hw).1
    | project => exact .none (by simp [Project.save])
    | save hloaded hchange => cases hchange <;> exact .save hloaded rfl

/-- Rows stay, with the columns that no update writes. -/
def KeepsFixed (snapshot db : Database) : Prop :=
  ∀ s ∈ snapshot .storageConfigs, ∃ s' ∈ db .storageConfigs, StorageConfig.fixed s' = s.fixed

theorem KeepsFixed.trans {a b c : Database} (hab : KeepsFixed a b) (hbc : KeepsFixed b c) :
    KeepsFixed a c := by
  intro s hs
  obtain ⟨s', hs', h⟩ := hab s hs
  obtain ⟨s'', hs'', h'⟩ := hbc s' hs'
  exact ⟨s'', hs'', h'.trans h⟩

/-- What becomes of a row when a loaded one is saved. -/
theorem mem_applyAll_saveStorage {loaded new s : StorageConfig} {now : ℕ} :
    s ∈ applyAll [loaded.save new now] db .storageConfigs ↔
      ∃ s₀ ∈ db .storageConfigs,
        s = if StorageConfig.id s₀ = loaded.id then (loaded.flush new now).toFun s₀ else s₀ := by
  rw [applyAll_saveStorage, List.mem_map]
  exact exists_congr fun _ => and_congr_right fun _ => eq_comm

theorem CredentialEffect.keepsFixed (h : CredentialEffect ctx env snapshot projectId op ws)
    (db : Database) : KeepsFixed db (applyAll ws db) := by
  have hsave (loaded new : StorageConfig) (now : ℕ) :
      KeepsFixed db (applyAll [loaded.save new now] db) := by
    intro s hs
    refine ⟨_, mem_applyAll_saveStorage.mpr ⟨s, hs, rfl⟩, ?_⟩
    split <;> rfl
  cases h with
  | none hws =>
    intro s hs
    rw [applyAll_of_table_ne hws]
    exact ⟨s, hs, rfl⟩
  | create hempty =>
    intro s hs
    rw [applyAll_create_storageConfigs]
    exact ⟨s, List.mem_append_left _ hs, rfl⟩
  | save hloaded hsame => exact hsave _ _ _
  | update hloaded haccepted hblob => exact hsave _ _ _

/-- The row a call loaded, as it is now. -/
theorem KeepsFixed.current (h : KeepsFixed snapshot db) {loaded : StorageConfig}
    (hloaded : StorageConfigRepository.getForProject snapshot projectId ctx.organizationId
      = .ok loaded) : ∃ current ∈ db .storageConfigs, StorageConfig.fixed current = loaded.fixed :=
  h loaded (StorageConfigRepository.of_getForProject hloaded).1

end Calls

/-! ### Runs -/

section Runs

variable (lib : CryptoLibrary) (key : Option String)

/-- Every call finds the same key, and a nonce that no blob it has read starts with. -/
def Sealing : Guard Table.Row ServiceCall := fun _ c snapshot =>
  ∃ nonce : String, nonce.length = 12 ∧ c.env.crypto = cryptoModule lib key nonce
    ∧ ∀ s ∈ snapshot .storageConfigs, ∀ blob, StorageConfig.configEncrypted s = some blob →
      blob.toList.take 12 ≠ nonce.toList

/-- Moreover, nobody updates the storage of the project. -/
def Undisturbed (projectId : String) : Guard Table.Row ServiceCall := fun db c snapshot =>
  Sealing lib key db c snapshot
    ∧ (c.projectId = projectId → ∀ req, c.op ≠ .updateStorageConfig req)

/-- A row has the credentials of a request. -/
def HoldsOf (req : StorageConfigUpdateRequest) (s : StorageConfig) : Prop :=
  ∃ blob creds sse kms, s.configEncrypted = some blob ∧ blob ≠ ""
    ∧ Accepted s.provider req creds sse kms ∧ decryptStorageCredentials lib key blob = .ok creds

/-- A row that has credentials has those of a request. -/
def Holds (s : StorageConfig) : Prop := s.configEncrypted = none ∨ ∃ req, HoldsOf lib key req s

/-- What holds of the database, and of what the calls in flight have read. -/
structure Sealed (w : World Table.Row ServiceCall) : Prop where
  good : Database.Good w.store
  holds : ∀ s ∈ w.store .storageConfigs, Holds lib key s
  snapshots : ∀ x ∈ w.inflight, Database.Good x.2 ∧ KeepsReferenced refs x.2 w.store
    ∧ KeepsFixed x.2 w.store

/-- The commit of an update of the storage configuration. -/
inductive Saves (c : ServiceCall) (req : StorageConfigUpdateRequest) (snapshot : Database) :
    World Table.Row ServiceCall → World Table.Row ServiceCall → Prop
  | commit (db : Database) (pre post : List (ServiceCall × Database)) {ws : List DbWrite}
      (hop : c.op = .updateStorageConfig req) (hws : c.writes snapshot = some ws)
      (hseal : Sealing lib key db c snapshot) :
      Saves c req snapshot ⟨db, pre ++ (c, snapshot) :: post⟩ ⟨applyAll ws db, pre ++ post⟩

variable {lib key} {req : StorageConfigUpdateRequest} {s s' : StorageConfig}
  {w w' : World Table.Row ServiceCall} {projectId : String}

theorem HoldsOf.congr (h : HoldsOf lib key req s) (hfixed : s'.fixed = s.fixed)
    (hrouting : s'.routing = s.routing) : HoldsOf lib key req s' := by
  simp only [StorageConfig.fixed, StorageConfig.routing, Prod.mk.injEq] at hfixed hrouting
  obtain ⟨blob, creds, sse, kms, hblob, hne, haccepted, hopen⟩ := h
  exact ⟨blob, creds, sse, kms, hrouting.1.trans hblob, hne, hfixed.2.2.2.2.2 ▸ haccepted, hopen⟩

theorem Holds.congr (h : Holds lib key s) (hfixed : s'.fixed = s.fixed)
    (hrouting : s'.routing = s.routing) : Holds lib key s' := by
  rcases h with hnone | ⟨req, hreq⟩
  · have hblob : s'.configEncrypted = s.configEncrypted := congrArg Prod.fst hrouting
    exact .inl (hblob.trans hnone)
  · exact .inr ⟨req, hreq.congr hfixed hrouting⟩

/-- **What a row is built into.** -/
theorem HoldsOf.buildProvider (h : HoldsOf lib key req s) (hmode : s.storageMode ≠ "managed")
    (settings : Settings) (nonce : String) :
    buildProvider settings (cryptoModule lib key nonce) s
      = (req.opened s).construct settings.google := by
  obtain ⟨blob, creds, sse, kms, hblob, hne, haccepted, hopen⟩ := h
  have hsome : orNone s.configEncrypted = some blob := hblob ▸ orNone_of_ne hne
  rw [FileNest.buildProvider, if_neg hmode]
  exact haccepted.buildByobProvider hsome hopen

/-- Stored credentials build a provider, but for those that Google refuses. -/
theorem HoldsOf.built (h : HoldsOf lib key req s) (hmode : s.storageMode ≠ "managed")
    (settings : Settings) (nonce : String) :
    (∃ p, FileNest.buildProvider settings (cryptoModule lib key nonce) s = .ok p)
      ∨ Text.lower s.provider = "gcs" ∧ ∃ credentialsJson text,
        settings.google.fromInfo credentialsJson none = .error text
          ∧ FileNest.buildProvider settings (cryptoModule lib key nonce) s
            = .error (.unhandled text) := by
  rw [h.buildProvider hmode settings nonce]
  obtain ⟨blob, creds, sse, kms, -, -, haccepted, -⟩ := h
  have hopened (hp : Text.lower s.provider ∉ ["s3", "minio", "rustfs", "r2"])
      (hazure : Text.lower s.provider ≠ "azure_blob") :
      req.opened s = .gcs req.credentialsJson none s.bucketName none := by
    rw [StorageConfigUpdateRequest.opened, if_neg hp, if_neg hazure]
  cases haccepted with
  | s3 hp hkey hsecret more hmore =>
    refine .inl ⟨req.opened s, StorageProvider.construct_eq_ok_iff.mpr ⟨?_, rfl⟩⟩
    rw [StorageConfigUpdateRequest.opened, if_pos hp]
    trivial
  | azure hp hname hkey =>
    refine .inl ⟨req.opened s, StorageProvider.construct_eq_ok_iff.mpr ⟨?_, rfl⟩⟩
    rw [StorageConfigUpdateRequest.opened, if_neg (by rw [hp]; decide), if_pos hp]
    trivial
  | gcs hp hjson =>
    rename_i credentialsJson
    rw [hopened (by rw [hp]; decide) (by rw [hp]; decide)]
    have hclient : settings.google.buildClient req.credentialsJson none none
        = (settings.google.fromInfo credentialsJson none).mapError .unhandled := by
      rw [GoogleCloud.buildClient, hjson]
    rw [StorageProvider.construct, hclient]
    cases hinfo : settings.google.fromInfo credentialsJson none with
    | ok client => exact .inl ⟨_, rfl⟩
    | error text => exact .inr ⟨hp, credentialsJson, text, hinfo, rfl⟩

/-- An update writes its blob, whatever is there. -/
theorem holdsOf_flush (hlib : lib.Lawful) {env : Env} {snapshot : Database} {ctx : TenantContext}
    {loaded current : StorageConfig} {creds : Fields} {sse kms : Option String} {blob : String}
    {db : Database} {op : Operation} (hseal : Sealing lib key db ⟨ctx, env, projectId, op⟩ snapshot)
    (hloaded : StorageConfigRepository.getForProject snapshot projectId ctx.organizationId
      = .ok loaded) (hfixed : current.fixed = loaded.fixed)
    (haccepted : Accepted loaded.provider req creds sse kms)
    (hblob : env.crypto.encrypt creds = .ok blob) :
    HoldsOf lib key req ((loaded.flush (StorageConfigRepository.update loaded req.bucketName
      req.region req.endpointUrl blob sse kms) env.now).toFun current) := by
  obtain ⟨nonce, hnonce, hcrypto, hfresh⟩ := hseal
  have hcrypto : env.crypto = cryptoModule lib key nonce := hcrypto
  rw [hcrypto] at hblob
  have hmem := (StorageConfigRepository.of_getForProject hloaded).1
  -- the nonce tells the blob from the one that was read
  have hnew : some blob ≠ loaded.configEncrypted := fun hsame =>
    hfresh loaded hmem blob hsame.symm (take_encryptStorageCredentials hnonce hblob)
  have hprovider : current.provider = loaded.provider := by
    simp only [StorageConfig.fixed, Prod.mk.injEq] at hfixed
    exact hfixed.2.2.2.2.2
  refine ⟨blob, creds, sse, kms, ?_, encryptStorageCredentials_ne_empty hnonce hblob,
    hprovider ▸ haccepted, decryptStorageCredentials_encrypt hlib hnonce haccepted.textFields hblob⟩
  show flushColumn loaded.configEncrypted (some blob) current.configEncrypted = some blob
  rw [flushColumn, if_neg hnew]

/-- The row a call loaded is the one with its id. -/
theorem eq_current (hdb : Database.Good w.store) {loaded current : StorageConfig}
    (hcurrent : current ∈ w.store .storageConfigs) (hfixed : current.fixed = loaded.fixed)
    (hs : s ∈ w.store .storageConfigs) (hid : s.id = loaded.id) : s = current := by
  have hcid : current.id = loaded.id := congrArg Prod.fst hfixed
  exact hdb.uniquePk.eq_of_pk (t := .storageConfigs) hs hcurrent (hid.trans hcid.symm)

theorem Sealed.step (hlib : lib.Lawful) (h : Sealed lib key w)
    (hs : Step ServiceCall.writes (Sealing lib key) w w') : Sealed lib key w' := by
  cases hs with
  | read c =>
    refine ⟨h.good, h.holds, fun x hx => ?_⟩
    rcases List.mem_cons.mp hx with rfl | hx
    · exact ⟨h.good, .refl _, fun s hs => ⟨s, hs, rfl⟩⟩
    · exact h.snapshots x hx
  | rollback pre post => exact ⟨h.good, h.holds, fun x hx => h.snapshots x (mem_of_mem_erase hx)⟩
  | commit pre post hrun hadm hc =>
    rename_i db snapshot c ws
    obtain ⟨hsnap, hread, hfixed⟩ := h.snapshots _ (List.mem_append_right _ List.mem_cons_self)
    obtain ⟨r, hr⟩ := ServiceResult.writes_eq_some.mp hrun
    obtain ⟨hgood, hkeeps⟩ := h.good.commit hread (ServiceCall.resolved hsnap hrun) hadm
    obtain ⟨ctx, env, projectId, op⟩ := c
    have heffect := Operation.credentialEffect hsnap hr
    refine ⟨hgood, ?_, fun x hx => ?_⟩
    · intro s hs
      have hs : s ∈ applyAll ws db .storageConfigs := hs
      cases heffect with
      | none hws =>
        rw [applyAll_of_table_ne hws] at hs
        exact h.holds s hs
      | create hempty =>
        rw [applyAll_create_storageConfigs, List.mem_append, List.mem_singleton] at hs
        rcases hs with hs | rfl
        · exact h.holds s hs
        · exact .inl hempty
      | save hloaded hsame =>
        obtain ⟨s₀, hs₀, rfl⟩ := mem_applyAll_saveStorage.mp hs
        split
        · exact (h.holds s₀ hs₀).congr (fixed_flush _) (routing_flush hsame)
        · exact h.holds s₀ hs₀
      | update hloaded haccepted hblob =>
        obtain ⟨s₀, hs₀, rfl⟩ := mem_applyAll_saveStorage.mp hs
        split
        · rename_i hid
          obtain ⟨current, hcurrent, hsame⟩ := hfixed.current hloaded
          obtain rfl := eq_current h.good hcurrent hsame hs₀ hid
          exact .inr ⟨_, holdsOf_flush hlib hc hloaded hsame haccepted hblob⟩
        · exact h.holds s₀ hs₀
    · obtain ⟨hsnap', hread', hfixed'⟩ := h.snapshots x (mem_of_mem_erase hx)
      exact ⟨hsnap', hread'.trans hkeeps, hfixed'.trans (heffect.keepsFixed db)⟩

theorem Sealed.reachable (hlib : lib.Lawful)
    (hw : Reachable ServiceCall.writes (Sealing lib key) (· = Database.empty) w) :
    Sealed lib key w := by
  induction hw with
  | init h =>
    obtain rfl := h
    exact ⟨Database.good_empty, fun s hs => (by cases hs), fun x hx => (by cases hx)⟩
  | step _ hs ih => exact ih.step hlib hs

/-- A row stays as it is while nobody updates the storage of its project. -/
theorem Sealed.kept (h : Sealed lib key w)
    (hs : Step ServiceCall.writes (Undisturbed lib key projectId) w w')
    (hmem : s ∈ w.store .storageConfigs) (hproject : s.projectId = projectId) :
    ∃ s' ∈ w'.store .storageConfigs, s'.fixed = s.fixed ∧ s'.routing = s.routing := by
  cases hs with
  | read c => exact ⟨s, hmem, rfl, rfl⟩
  | rollback pre post => exact ⟨s, hmem, rfl, rfl⟩
  | commit pre post hrun hadm hc =>
    rename_i db snapshot c ws
    obtain ⟨hsnap, -, hfixed⟩ := h.snapshots _ (List.mem_append_right _ List.mem_cons_self)
    obtain ⟨r, hr⟩ := ServiceResult.writes_eq_some.mp hrun
    obtain ⟨ctx, env, target, op⟩ := c
    have heffect := Operation.credentialEffect hsnap hr
    show ∃ s' ∈ applyAll ws db .storageConfigs, StorageConfig.fixed s' = s.fixed
      ∧ s'.routing = s.routing
    cases heffect with
    | none hws =>
      rw [applyAll_of_table_ne hws]
      exact ⟨s, hmem, rfl, rfl⟩
    | create hempty =>
      rw [applyAll_create_storageConfigs]
      exact ⟨s, List.mem_append_left _ hmem, rfl, rfl⟩
    | save hloaded hsame =>
      refine ⟨_, mem_applyAll_saveStorage.mpr ⟨s, hmem, rfl⟩, ?_⟩
      split
      · exact ⟨fixed_flush _, routing_flush hsame⟩
      · exact ⟨rfl, rfl⟩
    | update hloaded haccepted hblob =>
      rename_i loaded _ _ _ _
      refine ⟨s, mem_applyAll_saveStorage.mpr ⟨s, hmem, ?_⟩, rfl, rfl⟩
      rw [if_neg]
      intro hid
      -- it would be the project's own row
      obtain ⟨current, hcurrent, hsame⟩ := hfixed.current hloaded
      obtain rfl := eq_current h.good hcurrent hsame hmem hid
      have htarget : loaded.projectId = target :=
        (StorageConfigRepository.of_getForProject hloaded).2.1
      have hsameProject : s.projectId = loaded.projectId := by
        simp only [StorageConfig.fixed, Prod.mk.injEq] at hsame
        exact hsame.2.2.1
      exact hc.2 (htarget.symm.trans (hsameProject.symm.trans hproject)) _ rfl

/-- … and so through a run. -/
theorem Sealed.kept_run (hlib : lib.Lawful) (h : Sealed lib key w)
    (hrun : Relation.ReflTransGen (Step ServiceCall.writes (Undisturbed lib key projectId)) w w')
    (hmem : s ∈ w.store .storageConfigs) (hproject : s.projectId = projectId) :
    Sealed lib key w'
      ∧ ∃ s' ∈ w'.store .storageConfigs, s'.fixed = s.fixed ∧ s'.routing = s.routing := by
  induction hrun with
  | refl => exact ⟨h, s, hmem, rfl, rfl⟩
  | tail _ hs ih =>
    obtain ⟨hsealed, s₁, hs₁, hfixed₁, hrouting₁⟩ := ih
    have hproject₁ : s₁.projectId = projectId := by
      simp only [StorageConfig.fixed, Prod.mk.injEq] at hfixed₁
      exact hfixed₁.2.2.1.trans hproject
    obtain ⟨s₂, hs₂, hfixed₂, hrouting₂⟩ := hsealed.kept hs hs₁ hproject₁
    exact ⟨hsealed.step hlib (hs.mono fun _ _ _ hc => hc.1),
      s₂, hs₂, hfixed₂.trans hfixed₁, hrouting₂.trans hrouting₁⟩

/-- **Stored credentials build a provider.**  However calls interleave, a configuration of a
customer's storage that has credentials is built into a provider, by whatever request, unless they
are for Google and its library refuses them.  After an update has committed, and until the next one
of the project, the provider is the one that the update asks for, the switch of the encryption
aside, exactly if the update was not overtaken and the library takes the credentials. -/
theorem stored_credentials (hlib : lib.Lawful)
    (hw : Reachable ServiceCall.writes (Sealing lib key) (· = Database.empty) w)
    (settings : Settings) (nonce : String) :
    (∀ s ∈ w.store .storageConfigs, s.storageMode ≠ "managed" → s.configEncrypted ≠ none →
      (∃ p, buildProvider settings (cryptoModule lib key nonce) s = .ok p)
        ∨ Text.lower s.provider = "gcs" ∧ ∃ credentialsJson text,
          settings.google.fromInfo credentialsJson none = .error text
            ∧ buildProvider settings (cryptoModule lib key nonce) s = .error (.unhandled text))
    ∧ ∀ c req snapshot w₁, Saves lib key c req snapshot w w₁ →
      ∃ loaded current, current ∈ w.store .storageConfigs ∧ current.id = loaded.id
        ∧ StorageConfigRepository.getForProject snapshot c.projectId c.ctx.organizationId
          = .ok loaded
        ∧ ∀ w₂, Relation.ReflTransGen
            (Step ServiceCall.writes (Undisturbed lib key c.projectId)) w₁ w₂ →
          ∃ s ∈ w₂.store .storageConfigs, s.id = loaded.id ∧ (s.storageMode ≠ "managed" →
            (buildProvider settings (cryptoModule lib key nonce) s = .ok (req.asked s)
              ↔ NotOvertaken req loaded current ∧ (req.asked s).Constructs settings.google)) := by
  have hsealed := Sealed.reachable hlib hw
  constructor
  · intro s hs hmode hblob
    rcases hsealed.holds s hs with hnone | ⟨req, hreq⟩
    · exact absurd hnone hblob
    · exact hreq.built hmode settings nonce
  intro c req snapshot w₁ hsaves
  cases hsaves with
  | commit db pre post hop hws hseal =>
    rename_i ws
    obtain ⟨hsnap, -, hfixed⟩ := hsealed.snapshots _ (List.mem_append_right _ List.mem_cons_self)
    obtain ⟨r, hr⟩ := ServiceResult.writes_eq_some.mp hws
    have hadm : Admissible ws db := ServiceCall.update_admissible hop hr
    have hsealed₁ := hsealed.step hlib (.commit pre post hws hadm hseal)
    obtain ⟨ctx, env, projectId, op⟩ := c
    obtain rfl : op = .updateStorageConfig req := hop
    obtain ⟨loaded, creds, sse, kms, blob, hloaded, haccepted, hblob, rfl⟩ :=
      StorageConfigService.of_updateConfig hr
    obtain ⟨current, hcurrent, hsame⟩ := hfixed.current hloaded
    have hid : current.id = loaded.id := congrArg Prod.fst hsame
    have hcolumns := hsame
    simp only [StorageConfig.fixed, Prod.mk.injEq] at hcolumns
    have hproject : current.projectId = projectId :=
      hcolumns.2.2.1.trans (StorageConfigRepository.of_getForProject hloaded).2.1
    refine ⟨loaded, current, hcurrent, hid, hloaded, fun w₂ hrun => ?_⟩
    -- the row the update leaves, and the same row later
    have hholds := holdsOf_flush hlib hseal hloaded hsame haccepted hblob
    let new := StorageConfigRepository.update loaded req.bucketName req.region req.endpointUrl blob
      sse kms
    have hsaved : (loaded.flush new env.now).toFun current
        ∈ applyAll [loaded.save new env.now] db .storageConfigs :=
      mem_applyAll_saveStorage.mpr ⟨current, hcurrent, (if_pos hid).symm⟩
    obtain ⟨-, s, hs, hfixed', hrouting'⟩ := hsealed₁.kept_run hlib hrun hsaved hproject
    refine ⟨s, hs, (congrArg Prod.fst hfixed').trans hid, fun hmode => ?_⟩
    rw [(hholds.congr hfixed' hrouting').buildProvider hmode,
      StorageProvider.construct_eq_ok_iff, constructs_opened_iff, and_comm,
      eq_comm.trans (opened_congr hfixed' hrouting')]
    exact and_congr_left fun _ => opened_flush_iff haccepted hcolumns.2.2.2.2.2

end Runs

/-- An environment with this key. -/
def sealedEnv (tag : String) (now : ℕ) (nonce : String) : Env :=
  { devEnv tag now with crypto := cryptoModule devLibrary devKey nonce }

/-- A project on a customer's storage. -/
def sealedProject : ServiceCall :=
  ⟨orgContext "acme", sealedEnv "p" 1 "first nonce.", "", .createProject
    { devProject with
      storageMode := "byob"
      storageMode_mem := .tail _ (.head _) }⟩

/-- Its credentials. -/
def sealedUpdate : ServiceCall :=
  ⟨orgContext "acme", sealedEnv "u" 2 "second nonce", "p0", .updateStorageConfig devBucket⟩

theorem stored_credentials_opened :
    let db := runAll [sealedProject] Database.empty
    ∃ s ∈ (commit db (sealedUpdate.result db)).2 .storageConfigs,
      buildProvider {} (cryptoModule devLibrary devKey "") s = .ok (devBucket.asked s) := by
  intro db
  have hproject : Reachable ServiceCall.writes (Sealing devLibrary devKey) (· = Database.empty)
      ⟨db, []⟩ := by
    refine AllowedRun.reachable ⟨?_, trivial⟩ (.init rfl)
    exact ⟨"first nonce.", rfl, rfl, fun s hs => by cases hs⟩
  have hstored := (stored_credentials devLibrary_lawful (hproject.step (.read sealedUpdate)) {}
    "").2 sealedUpdate devBucket db _ (.commit db [] [] rfl rfl ⟨"second nonce", rfl, rfl, ?_⟩)
  · obtain ⟨loaded, current, hcurrent, -, hloaded, hrun⟩ := hstored
    obtain ⟨s, hs, -, hiff⟩ := hrun _ .refl
    have hmode : s.storageMode ≠ "managed" := by
      obtain rfl := List.mem_singleton.mp hs
      exact show "byob" ≠ "managed" by decide
    -- nobody has come between
    have hsame : loaded = current := by
      obtain rfl := List.mem_singleton.mp hcurrent
      exact (Except.ok.inj hloaded).symm
    rw [← hsame] at hiff
    have hconstructs : (devBucket.asked s).Constructs ({} : Settings).google := by
      obtain rfl := List.mem_singleton.mp hs
      exact trivial
    exact ⟨s, hs, (hiff hmode).mpr ⟨⟨fun _ => rfl, fun _ _ => rfl, fun _ _ => rfl, fun _ _ => rfl,
      fun _ _ => rfl⟩, hconstructs⟩⟩
  · intro s hs blob hblob
    obtain rfl := List.mem_singleton.mp hs
    cases hblob

end FileNest
