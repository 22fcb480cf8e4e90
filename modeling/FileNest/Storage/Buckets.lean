import FileNest.Reachable
import FileNest.Versioning

/-!
# Whose bucket

The platform's own credentials open every managed bucket; what keeps projects apart is the
name in the storage configuration.  A managed project is created with the bucket named
after it, and verification and the encryption toggle leave the name alone, but the update
that saves a customer's credentials writes the name it is given, managed or not.

## Main definitions

* `StorageEffect` — the ways an operation touches storage configurations.
* `Operation.provider` — the provider a call addresses.
* `OwnBucket` — the customer's credentials, or the platform's on the project's bucket.
* `ManagedBucketKept` — no update names another bucket for a managed project.

## Main results

* `Operation.storageEffect` — every operation has one of the shapes.
* `Operation.run_congr` — what a call answers depends on storage only through these.
* `managed_buckets` — **managed projects keep to their bucket.**
* `managed_bucket_renamed` — without the condition they need not.
-/

namespace FileNest

open RowStore ReadCommitted

/-! ### What the operations do to storage configurations -/

/-- The bucket of a managed project. -/
def managedBucket (projectId : String) : String := "fn-" ++ projectId

/-- What became of a storage configuration that was loaded. -/
inductive StorageChange (env : Env) (loaded : StorageConfig) : Operation → StorageConfig → Prop
  | update (req : StorageConfigUpdateRequest) (blob : String) (sse kms : Option String) :
      StorageChange env loaded (.updateStorageConfig req)
        (StorageConfigRepository.update loaded req.bucketName req.region req.endpointUrl blob
          sse kms)
  | verified (provider : StorageProvider)
      (hbuild : buildProvider env.settings env.crypto loaded = .ok provider)
      (hprobe : probe env provider (probeKey loaded.organizationId loaded.projectId) = .ok ()) :
      StorageChange env loaded .verifyStorage
        (StorageConfigRepository.updateStatus loaded "active" (some env.now))
  | unverified :
      StorageChange env loaded .verifyStorage
        (StorageConfigRepository.updateStatus loaded "verification_failed" none)
  | sse (sseEnabled : Bool) :
      StorageChange env loaded (.updateStorageSse sseEnabled)
        (StorageConfigRepository.updateSse loaded sseEnabled)

/-- Only an update of the credentials names a bucket. -/
theorem StorageChange.bucketName {env : Env} {loaded new : StorageConfig} {op : Operation}
    (h : StorageChange env loaded op new) : new.bucketName = loaded.bucketName
      ∨ ∃ req, op = .updateStorageConfig req ∧ new.bucketName = some req.bucketName := by
  cases h with
  | update req blob sse kms => exact .inr ⟨req, rfl, rfl⟩
  | verified provider hbuild hprobe => exact .inl rfl
  | unverified => exact .inl rfl
  | sse sseEnabled => exact .inl rfl

/-- The ways an operation touches projects and their storage configurations. -/
inductive StorageEffect (ctx : TenantContext) (env : Env) (db : Database) (projectId : String) :
    Operation → List DbWrite → Prop
  | none {op : Operation} {ws : List DbWrite}
      (hws : ∀ w ∈ ws, w.table ≠ .storageConfigs ∧ w.table ≠ .projects) :
      StorageEffect ctx env db projectId op ws
  | project {op : Operation} {record new : Project} :
      StorageEffect ctx env db projectId op [record.save new]
  | save {op : Operation} {loaded new : StorageConfig}
      (hloaded : StorageConfigRepository.getForProject db projectId ctx.organizationId = .ok loaded)
      (hchange : StorageChange env loaded op new) :
      StorageEffect ctx env db projectId op [loaded.save new env.now]
  | create {req : CreateProjectRequest} {record : Project} {storage : StorageConfig}
      {config : ProjectConfig} (hid : record.id = env.uuid4 0)
      (hproject : storage.projectId = record.id)
      (horg : storage.organizationId = record.organizationId)
      (henv : storage.environment = "production")
      (hbucket : storage.storageMode = "managed" →
        storage.bucketName = some (managedBucket record.id)) :
      StorageEffect ctx env db projectId (.createProject req)
        [.insert .projects record, .insert .storageConfigs storage, .insert .projectConfigs config]

section Effects

variable {ctx : TenantContext} {env : Env} {db : Database} {projectId : String}
  {op : Operation} {r : Response} {ws : List DbWrite}

theorem provisionManagedBucket_eq_ok {id provider name : String}
    (h : provisionManagedBucket env id provider = .ok name) : name = managedBucket id := by
  simp only [provisionManagedBucket, bind_eq_ok, pure_eq_ok] at h
  obtain ⟨_, -, _, -, _, -, rfl⟩ := h
  rfl

/-- The bucket of a new managed project is its own. -/
theorem initialStorage_bucket {id : String} {req : CreateProjectRequest} {bucket : Option String}
    {status : String} {verifiedAt : Option ℕ}
    (h : initialStorage ctx env id req = .ok (bucket, status, verifiedAt))
    (hmanaged : req.storageMode = "managed") : bucket = some (managedBucket id) := by
  simp only [initialStorage, if_pos hmanaged, bind_eq_ok] at h
  obtain ⟨name, hname, h⟩ := h
  obtain rfl := provisionManagedBucket_eq_ok hname
  split at h <;> simp only [pure_eq_ok, Prod.mk.injEq] at h <;> exact h.1.symm

theorem ProjectService.createProject_storageEffect {req : CreateProjectRequest}
    (h : createProject ctx env db req = .ok (r, ws)) :
    StorageEffect ctx env db projectId (.createProject req) ws := by
  simp only [createProject, bind_eq_ok, pure_eq_ok, Prod.mk.injEq] at h
  obtain ⟨_, -, ⟨bucket, status, verifiedAt⟩, hstorage, -, rfl⟩ := h
  exact .create rfl rfl rfl rfl fun hmanaged => initialStorage_bucket hstorage hmanaged

/-- What an update of the credentials writes. -/
theorem StorageConfigService.updateConfig_writes {req : StorageConfigUpdateRequest}
    (h : updateConfig ctx env db projectId req = .ok (r, ws)) :
    ∃ loaded blob sse kms,
      StorageConfigRepository.getForProject db projectId ctx.organizationId = .ok loaded
        ∧ ws = [loaded.save (StorageConfigRepository.update loaded req.bucketName req.region
          req.endpointUrl blob sse kms) env.now] := by
  simp only [updateConfig, saveConfig, bind_eq_ok, pure_eq_ok, Prod.mk.injEq] at h
  obtain ⟨loaded, hloaded, ⟨creds, sse, kms⟩, -, blob, -, -, rfl⟩ := h
  exact ⟨loaded, blob, sse, kms, hloaded, rfl⟩

theorem StorageConfigService.updateConfig_storageEffect {req : StorageConfigUpdateRequest}
    (h : updateConfig ctx env db projectId req = .ok (r, ws)) :
    StorageEffect ctx env db projectId (.updateStorageConfig req) ws := by
  obtain ⟨loaded, blob, sse, kms, hloaded, rfl⟩ := updateConfig_writes h
  exact .save hloaded (.update req blob sse kms)

theorem StorageConfigService.verify_storageEffect
    (h : verify ctx env db projectId = .ok (r, ws)) :
    StorageEffect ctx env db projectId .verifyStorage ws := by
  simp only [verify, bind_eq_ok] at h
  obtain ⟨loaded, hloaded, provider, hprovider, h⟩ := h
  split at h <;> simp only [pure_eq_ok, Prod.mk.injEq] at h <;> obtain ⟨-, rfl⟩ := h
  · rename_i hprobe
    obtain ⟨-, hp, ho⟩ := StorageConfigRepository.of_getForProject hloaded
    rw [← hp, ← ho] at hprobe
    exact .save hloaded (.verified provider hprovider hprobe)
  · exact .save hloaded .unverified

theorem StorageConfigService.updateSse_storageEffect {sseEnabled : Bool}
    (h : updateSse ctx env db projectId sseEnabled = .ok (r, ws)) :
    StorageEffect ctx env db projectId (.updateStorageSse sseEnabled) ws := by
  simp only [updateSse, bind_eq_ok] at h
  obtain ⟨loaded, hloaded, h⟩ := h
  split at h
  · simp only [saveConfig, pure_eq_ok, Prod.mk.injEq] at h
    obtain ⟨-, rfl⟩ := h
    exact .save hloaded (.sse sseEnabled)
  · simp only [throw_ne_ok] at h

/-- **Every operation has one of the shapes.** -/
theorem Operation.storageEffect (hdb : db.Good) (h : op.run ctx env db projectId = .ok (r, ws)) :
    StorageEffect ctx env db projectId op ws := by
  have hsound := Operation.sound hdb h
  have hnone : (∀ t ∈ op.tables, t ≠ Table.storageConfigs ∧ t ≠ .projects) →
      StorageEffect ctx env db projectId op ws := fun ht =>
    .none fun w hw => ht _ (hsound.tables w hw)
  cases op with
  | createProject req => exact ProjectService.createProject_storageEffect h
  | updateStorageConfig req => exact StorageConfigService.updateConfig_storageEffect h
  | verifyStorage => exact StorageConfigService.verify_storageEffect h
  | updateStorageSse sseEnabled => exact StorageConfigService.updateSse_storageEffect h
  | updateProject req =>
    simp only [run, ProjectService.updateProject, bind_eq_ok, pure_eq_ok, Prod.mk.injEq] at h
    obtain ⟨record, -, -, rfl⟩ := h
    exact .project
  | deleteProject =>
    simp only [run, ProjectService.deleteProject, bind_eq_ok, pure_eq_ok, Prod.mk.injEq] at h
    obtain ⟨record, -, -, rfl⟩ := h
    exact .project
  | _ => exact hnone (by simp [tables])

end Effects

/-! ### The providers a call addresses -/

/-- The provider a call addresses, once what it looks up before is found.  An update of the
security settings addresses one if it changes the origins. -/
def Operation.provider (ctx : TenantContext) (env : Env) (db : Database) (projectId : String) :
    Operation → Option StorageProvider
  | initUpload _ | multipartStart _ => do
      let _ ← (ProjectConfigRepository.getForProject db projectId ctx.organizationId).toOption
      (getProvider ctx env db projectId).toOption
  | getDownloadUrl fileId _ _ | getVersionDownloadUrl fileId _ _ => do
      let _ ← (FileRepository.get db fileId ctx.organizationId projectId).toOption
      (getProvider ctx env db projectId).toOption
  | multipartPartUrl uploadId _ _ | multipartComplete uploadId _ | multipartAbort uploadId => do
      let session ← (UploadSessionRepository.get db uploadId ctx.organizationId).toOption
      let _ ← (FileRepository.get db session.fileId ctx.organizationId projectId).toOption
      (getProvider ctx env db projectId).toOption
  | verifyStorage => do
      let record ← (StorageConfigRepository.getForProject db projectId ctx.organizationId).toOption
      (buildProvider env.settings env.crypto record).toOption
  | updateSecurityConfig req => do
      let record ← (ProjectConfigRepository.getForProject db projectId ctx.organizationId).toOption
      let _ ← req.allowedOrigins
      (ProjectConfigService.syncBucketCors ctx env db projectId record).map Prod.fst
  | createProject req =>
      if req.storageMode = "managed" then
        (buildManagedProvider env.settings req.storageProvider (managedBucket (env.uuid4 0))
          false).toOption
      else none
  | _ => none

/-- Two storages that answer alike for a provider. -/
structure AgreeAt (s s' : StorageClient) (p : StorageProvider) : Prop where
  generatePresignedUploadUrl : s.generatePresignedUploadUrl p = s'.generatePresignedUploadUrl p
  generatePresignedDownloadUrl :
    s.generatePresignedDownloadUrl p = s'.generatePresignedDownloadUrl p
  createMultipartUpload : s.createMultipartUpload p = s'.createMultipartUpload p
  generatePresignedPartUrl : s.generatePresignedPartUrl p = s'.generatePresignedPartUrl p
  completeMultipartUpload : s.completeMultipartUpload p = s'.completeMultipartUpload p
  abortMultipartUpload : s.abortMultipartUpload p = s'.abortMultipartUpload p
  upload : s.upload p = s'.upload p
  deleteObject : s.deleteObject p = s'.deleteObject p
  createBucket : s.createBucket p = s'.createBucket p
  setBucketCors : s.setBucketCors p = s'.setBucketCors p

theorem toOption_eq_some {ε α : Type} {x : Except ε α} {a : α} :
    x.toOption = some a ↔ x = .ok a := by
  cases x <;> simp [Except.toOption]

theorem found {ε α β : Type} {x : Except ε α} {f : α → Option β} {a : α} {b : β}
    (hx : x = .ok a) (hf : f a = some b) : x.toOption >>= f = some b := by
  rw [hx]
  exact hf

theorem bind_congr_ok {ε α β : Type} {x : Except ε α} {f g : α → Except ε β}
    (h : ∀ a, x = .ok a → f a = g a) : x >>= f = x >>= g := by
  cases x with
  | error e => rfl
  | ok a => exact h a rfl

section Providers

variable {ctx : TenantContext} {env : Env} {db : Database} {projectId : String}

theorem probe_congr {s : StorageClient} {p : StorageProvider} (h : AgreeAt env.storage s p)
    (key : String) : probe { env with storage := s } p key = probe env p key := by
  simp only [probe, h.upload, h.deleteObject]

/-- The names of providers are lower case. -/
theorem lower_storageProvider (req : CreateProjectRequest) :
    Text.lower req.storageProvider = req.storageProvider := by
  have hall : ∀ p ∈ supportedProviders, Text.lower p = p := by decide
  exact hall _ req.storageProvider_mem

theorem provisionManagedBucket_congr {s : StorageClient} {id provider : String}
    (h : ∀ p, buildManagedProvider env.settings (Text.lower provider) (managedBucket id) false
      = .ok p → AgreeAt env.storage s p) :
    provisionManagedBucket { env with storage := s } id provider
      = provisionManagedBucket env id provider := by
  refine bind_congr_ok fun p hp => ?_
  have hs := h p hp
  simp only [hs.createBucket, hs.setBucketCors]

theorem initialStorage_congr {s : StorageClient} {id : String} {req : CreateProjectRequest}
    (h : ∀ p, req.storageMode = "managed" → buildManagedProvider env.settings req.storageProvider
      (managedBucket id) false = .ok p → AgreeAt env.storage s p) :
    initialStorage ctx { env with storage := s } id req = initialStorage ctx env id req := by
  by_cases hmanaged : req.storageMode = "managed"
  · have hprovision : provisionManagedBucket { env with storage := s } id req.storageProvider
        = provisionManagedBucket env id req.storageProvider := by
      refine provisionManagedBucket_congr fun p hp => h p hmanaged ?_
      rwa [lower_storageProvider] at hp
    simp only [initialStorage, if_pos hmanaged]
    rw [hprovision]
    refine bind_congr_ok fun name hname => ?_
    obtain rfl := provisionManagedBucket_eq_ok hname
    have hprobe : (do
          let provider ← buildManagedProvider env.settings req.storageProvider
            (managedBucket id) false
          probe { env with storage := s } provider (probeKey ctx.organizationId id))
        = (do
          let provider ← buildManagedProvider env.settings req.storageProvider
            (managedBucket id) false
          probe env provider (probeKey ctx.organizationId id)) :=
      bind_congr_ok fun p hp => probe_congr (h p hmanaged hp) _
    simp only [hprobe]
  · simp only [initialStorage, if_neg hmanaged]

/-- Folders are not kept in storage. -/
theorem resolvePath_congr {s : StorageClient} (segments : List String) (draw : ℕ) (path : String)
    (last : Option Folder) :
    resolvePath ctx { env with storage := s } db projectId segments draw path last
      = resolvePath ctx env db projectId segments draw path last := by
  induction segments generalizing draw path last with
  | nil => rfl
  | cons segment segments ih =>
    rw [resolvePath, resolvePath]
    simp only [ih]
    rfl

theorem resolveTokenFolder_congr {s : StorageClient} (req : CreateUploadTokenRequest) :
    resolveTokenFolder ctx { env with storage := s } db projectId req
      = resolveTokenFolder ctx env db projectId req := by
  simp only [resolveTokenFolder, resolvePath_congr]

/-- **What a call answers depends on storage only through the provider it addresses.** -/
theorem Operation.run_congr {op : Operation} {s : StorageClient}
    (h : ∀ p, op.provider ctx env db projectId = some p → AgreeAt env.storage s p) :
    op.run ctx { env with storage := s } db projectId = op.run ctx env db projectId := by
  cases op with
  | initUpload req =>
    refine bind_congr_ok fun config hconfig => bind_congr_ok fun effective _ =>
      bind_congr_ok fun _ _ => bind_congr_ok fun _ _ => bind_congr_ok fun p hp => ?_
    have hs := h p (found hconfig (toOption_eq_some.mpr hp))
    simp only [hs.generatePresignedUploadUrl]
    rfl
  | getDownloadUrl fileId ttl inline' =>
    refine bind_congr_ok fun record hrecord => bind_congr_ok fun config _ =>
      bind_congr_ok fun p hp => ?_
    have hs := h p (found hrecord (toOption_eq_some.mpr hp))
    simp only [hs.generatePresignedDownloadUrl]
  | getVersionDownloadUrl fileId versionId ttl =>
    refine bind_congr_ok fun record hrecord => bind_congr_ok fun version _ =>
      bind_congr_ok fun config _ => bind_congr_ok fun p hp => ?_
    have hs := h p (found hrecord (toOption_eq_some.mpr hp))
    simp only [hs.generatePresignedDownloadUrl]
  | multipartStart req =>
    refine bind_congr_ok fun config hconfig => bind_congr_ok fun _ _ =>
      bind_congr_ok fun _ _ => bind_congr_ok fun p hp => ?_
    have hs := h p (found hconfig (toOption_eq_some.mpr hp))
    simp only [hs.createMultipartUpload]
  | multipartPartUrl uploadId part ttl =>
    refine bind_congr_ok fun session hsession => bind_congr_ok fun record hrecord =>
      bind_congr_ok fun config _ => bind_congr_ok fun p hp => ?_
    have hs := h p (found hsession (found hrecord (toOption_eq_some.mpr hp)))
    simp only [hs.generatePresignedPartUrl]
  | multipartComplete uploadId req =>
    refine bind_congr_ok fun session hsession => bind_congr_ok fun record hrecord =>
      bind_congr_ok fun config _ => bind_congr_ok fun p hp => ?_
    have hs := h p (found hsession (found hrecord (toOption_eq_some.mpr hp)))
    simp only [hs.completeMultipartUpload]
    rfl
  | multipartAbort uploadId =>
    refine bind_congr_ok fun session hsession => bind_congr_ok fun record hrecord =>
      bind_congr_ok fun p hp => ?_
    have hs := h p (found hsession (found hrecord (toOption_eq_some.mpr hp)))
    simp only [hs.abortMultipartUpload]
  | verifyStorage =>
    refine bind_congr_ok fun record hrecord => bind_congr_ok fun p hp => ?_
    have hs := h p (found hrecord (toOption_eq_some.mpr hp))
    simp only [probe_congr hs]
  | createProject req =>
    have hstorage : initialStorage ctx { env with storage := s } (env.uuid4 0) req
        = initialStorage ctx env (env.uuid4 0) req := by
      refine initialStorage_congr fun p hmanaged hp => h p ?_
      rw [provider, if_pos hmanaged, hp]
      rfl
    simp only [run, ProjectService.createProject, hstorage]
  | createUploadToken req =>
    simp only [run, UploadTokenService.create, resolveTokenFolder_congr]
  | ensureFolderPath req => simp only [run, FolderService.ensurePath, resolvePath_congr]
  | _ => rfl

end Providers

/-! ### The invariant -/

/-- The customer's credentials, or the platform's on the bucket of the project. -/
inductive OwnBucket (env : Env) (projectId : String) (p : StorageProvider) : Prop
  | managed (provider : String) (sseEnabled : Bool)
      (h : buildManagedProvider env.settings provider (managedBucket projectId) sseEnabled = .ok p)
  | customer (config : StorageConfig) (hmode : config.storageMode ≠ "managed")
      (hproject : config.projectId = projectId)
      (h : buildByobProvider env.settings env.crypto config = .ok p)

/-- **The condition**: who updates the storage of a managed project names its bucket. -/
def ManagedBucketKept : Guard Table.Row ServiceCall := fun _ c snapshot => ∀ req config,
  c.op = .updateStorageConfig req →
  StorageConfigRepository.getForProject snapshot c.projectId c.ctx.organizationId = .ok config →
  config.storageMode = "managed" → req.bucketName = managedBucket c.projectId

/-- Managed projects keep to their bucket, and every project has storage. -/
structure Bucketed (db : Database) : Prop where
  managed : ∀ s ∈ db .storageConfigs, StorageConfig.storageMode s = "managed" →
    s.bucketName = some (managedBucket s.projectId)
  stored : ∀ p ∈ db .projects, ∃ s ∈ db .storageConfigs, StorageConfig.projectId s = Project.id p
    ∧ s.organizationId = p.organizationId ∧ s.environment = "production"

/-- Storage configurations stay, with their project and mode. -/
def KeepsStorage (snapshot db : Database) : Prop :=
  ∀ s ∈ snapshot .storageConfigs, ∃ s' ∈ db .storageConfigs, StorageConfig.id s' = s.id
    ∧ s'.projectId = s.projectId ∧ s'.storageMode = s.storageMode

theorem applyAll_saveStorage (loaded new : StorageConfig) (now : ℕ) (db : Database) :
    applyAll [loaded.save new now] db .storageConfigs = (db .storageConfigs).map
      fun (s : StorageConfig) =>
        if s.id = loaded.id then (loaded.flush new now).toFun s else s := by
  rw [applyAll_cons, applyAll_nil, StorageConfig.save, apply_update_self]
  rfl

/-- A new project adds its row, … -/
theorem applyAll_create_projects (record : Project) (storage : StorageConfig)
    (config : ProjectConfig) (db : Database) :
    applyAll [.insert .projects record, .insert .storageConfigs storage,
      .insert .projectConfigs config] db .projects = db .projects ++ [record] := by
  rw [applyAll_cons, applyAll_of_table_ne (by simp), apply_insert_self]

/-- … and that of its storage. -/
theorem applyAll_create_storageConfigs (record : Project) (storage : StorageConfig)
    (config : ProjectConfig) (db : Database) :
    applyAll [.insert .projects record, .insert .storageConfigs storage,
      .insert .projectConfigs config] db .storageConfigs = db .storageConfigs ++ [storage] := by
  rw [applyAll_cons, applyAll_cons, applyAll_of_table_ne (by simp), apply_insert_self,
    apply_of_table_ne (by simp)]

section Invariant

variable {ctx : TenantContext} {env : Env} {snapshot db : Database} {projectId : String}
  {op : Operation} {ws : List DbWrite}

/-- Configurations stay through a commit. -/
theorem StorageEffect.keepsStorage (h : StorageEffect ctx env snapshot projectId op ws)
    (db : Database) : KeepsStorage db (applyAll ws db) := by
  intro s hs
  cases h with
  | none hws =>
    rw [applyAll_of_table_ne fun w hw => (hws w hw).1]
    exact ⟨s, hs, rfl, rfl, rfl⟩
  | project =>
    rw [applyAll_of_table_ne (by simp [Project.save])]
    exact ⟨s, hs, rfl, rfl, rfl⟩
  | save hloaded hchange =>
    rw [applyAll_saveStorage]
    refine ⟨_, List.mem_map_of_mem hs, ?_⟩
    split <;> exact ⟨rfl, rfl, rfl⟩
  | create hid hproject horg henv hbucket =>
    rw [applyAll_create_storageConfigs]
    exact ⟨s, List.mem_append_left _ hs, rfl, rfl, rfl⟩

/-- Every project has storage after a commit. -/
theorem StorageEffect.stored (h : StorageEffect ctx env snapshot projectId op ws)
    (hdb : Bucketed db) : ∀ p ∈ applyAll ws db .projects, ∃ s ∈ applyAll ws db .storageConfigs,
      StorageConfig.projectId s = Project.id p ∧ s.organizationId = p.organizationId
        ∧ s.environment = "production" := by
  intro p hp
  cases h with
  | none hws =>
    rw [applyAll_of_table_ne fun w hw => (hws w hw).2] at hp
    rw [applyAll_of_table_ne fun w hw => (hws w hw).1]
    exact hdb.stored p hp
  | project =>
    rename_i record new
    rw [applyAll_of_table_ne (by simp [Project.save])]
    rw [applyAll_cons, applyAll_nil, Project.save, apply_update_self] at hp
    obtain ⟨p₀, hp₀, rfl⟩ := List.mem_map.mp hp
    obtain ⟨s, hs, hproject, horg, henv⟩ := hdb.stored p₀ hp₀
    refine ⟨s, hs, ?_⟩
    split <;> exact ⟨hproject, horg, henv⟩
  | save hloaded hchange =>
    rw [applyAll_of_table_ne (by simp [StorageConfig.save])] at hp
    obtain ⟨s, hs, hproject, horg, henv⟩ := hdb.stored p hp
    rw [applyAll_saveStorage]
    refine ⟨_, List.mem_map_of_mem hs, ?_⟩
    split <;> exact ⟨hproject, horg, henv⟩
  | create hid hproject horg henv hbucket =>
    rename_i req record storage config
    rw [applyAll_create_storageConfigs]
    rw [applyAll_create_projects, List.mem_append, List.mem_singleton] at hp
    rcases hp with hp | rfl
    · obtain ⟨s, hs, hall⟩ := hdb.stored p hp
      exact ⟨s, List.mem_append_left _ hs, hall⟩
    · exact ⟨storage, List.mem_append_right _ (List.mem_singleton_self _), hproject, horg, henv⟩

/-- Managed projects keep to their bucket through a commit that meets the condition. -/
theorem StorageEffect.managed (h : StorageEffect ctx env snapshot projectId op ws)
    (hgood : db.Good) (hdb : Bucketed db) (hkeeps : KeepsStorage snapshot db)
    (hcond : ManagedBucketKept db ⟨ctx, env, projectId, op⟩ snapshot) :
    ∀ s ∈ applyAll ws db .storageConfigs, StorageConfig.storageMode s = "managed" →
      s.bucketName = some (managedBucket s.projectId) := by
  intro s hs hmode
  cases h with
  | none hws =>
    rw [applyAll_of_table_ne fun w hw => (hws w hw).1] at hs
    exact hdb.managed s hs hmode
  | project =>
    rw [applyAll_of_table_ne (by simp [Project.save])] at hs
    exact hdb.managed s hs hmode
  | save hloaded hchange =>
    rename_i loaded new
    rw [applyAll_saveStorage] at hs
    obtain ⟨s₀, hs₀, rfl⟩ := List.mem_map.mp hs
    split at hmode
    swap
    · rename_i hid
      rw [if_neg hid]
      exact hdb.managed s₀ hs₀ hmode
    rename_i hid
    rw [if_pos hid]
    obtain ⟨hmem, hproject, -⟩ := StorageConfigRepository.of_getForProject hloaded
    -- the row is the one that was loaded, in the same mode
    obtain ⟨s', hs', hsid, hsproject, hsmode⟩ := hkeeps loaded hmem
    obtain rfl : s₀ = s' :=
      hgood.uniquePk.eq_of_pk (t := .storageConfigs) hs₀ hs' (hid.trans hsid.symm)
    have hbefore : s₀.bucketName = some (managedBucket s₀.projectId) := hdb.managed s₀ hs₀ hmode
    have hafter : ((loaded.flush new env.now).toFun s₀).bucketName = s₀.bucketName := by
      rw [StorageConfig.flush_bucketName]
      rcases hchange.bucketName with hkept | ⟨req, rfl, hnew⟩
      · rw [hkept, flushColumn_self]
      · have hname : req.bucketName = managedBucket projectId :=
          hcond req loaded rfl hloaded (hsmode.symm.trans hmode)
        rw [hnew, hbefore, hname, hsproject, hproject, flushColumn_same]
    exact hafter.trans hbefore
  | create hid hproject horg henv hbucket =>
    rw [applyAll_create_storageConfigs, List.mem_append, List.mem_singleton] at hs
    rcases hs with hs | rfl
    · exact hdb.managed s hs hmode
    · rw [hbucket hmode, hproject]

/-- Whatever a configuration of a bucketed database is built into is the project's own. -/
theorem Bucketed.ownBucket {db : Database} (hdb : Bucketed db) {organizationId : String}
    {config : StorageConfig} {p : StorageProvider}
    (hconfig : StorageConfigRepository.getForProject db projectId organizationId = .ok config)
    (hp : buildProvider env.settings env.crypto config = .ok p) : OwnBucket env projectId p := by
  obtain ⟨hmem, hproject, -⟩ := StorageConfigRepository.of_getForProject hconfig
  rw [buildProvider] at hp
  split at hp
  · rename_i hmode
    have hbucket : (orNone config.bucketName).getD ("fn-" ++ config.projectId)
        = managedBucket projectId := by
      rw [hdb.managed config hmem hmode, hproject, managedBucket]
      simp only [orNone]
      split <;> rfl
    rw [hbucket] at hp
    exact .managed _ _ hp
  · rename_i hmode
    exact .customer config hmode hproject hp

theorem oneOr_ne_notFound {α : Type} {a : α} {rows : List α} (ha : a ∈ rows) {e : ApiError}
    {message : String} {detail : Fields} :
    oneOr e rows ≠ .error (.filenest .notFound message detail) := by
  match rows, ha with
  | [_], _ => exact nofun
  | _ :: _ :: _, _ => exact nofun

theorem construct_ne_notFound {google : GoogleCloud} {p : StorageProvider} {message : String}
    {detail : Fields} : p.construct google ≠ .error (.filenest .notFound message detail) := by
  cases p with
  | s3 => exact nofun
  | azureBlob => exact nofun
  | gcs json file bucket project =>
    rw [StorageProvider.construct]
    rcases google.buildClient_cases json file project with hok | ⟨text, herror⟩
    · rw [hok]
      exact nofun
    · rw [herror]
      exact nofun

/-- Building a provider never raises that something is not found. -/
theorem buildManagedProvider_ne_notFound {provider bucketName message : String} {sse : Bool}
    {detail : Fields} : buildManagedProvider env.settings provider bucketName sse
      ≠ .error (.filenest .notFound message detail) := by
  rw [buildManagedProvider]
  split
  case h_5 => split <;> exact nofun
  case h_6 => exact construct_ne_notFound
  all_goals exact nofun

theorem requiredCredential_ne_notFound {creds : Fields} {key message : String} {detail : Fields} :
    requiredCredential creds key ≠ .error (.filenest .notFound message detail) := by
  rw [requiredCredential]
  split <;> exact nofun

theorem buildByobProvider_ne_notFound {settings : Settings} {crypto : Crypto}
    {config : StorageConfig} {message : String} {detail : Fields} :
    buildByobProvider settings crypto config ≠ .error (.filenest .notFound message detail) := by
  rw [buildByobProvider]
  split
  · exact nofun
  · rename_i blob _
    cases hcreds : crypto.decrypt blob with
    | error e => exact nofun
    | ok creds =>
      change (if _ then _ else _) ≠ _
      split
      · exact nofun
      · split
        · cases hname : requiredCredential creds "account_name" with
          | error e =>
            intro h
            have he : e = _ :=
              Except.error.inj (h : (.error e : Except ApiError StorageProvider) = _)
            exact requiredCredential_ne_notFound (hname.trans (congrArg _ he))
          | ok name =>
            cases hkey : requiredCredential creds "account_key" with
            | error e =>
              intro h
              have he : e = _ :=
                Except.error.inj (h : (.error e : Except ApiError StorageProvider) = _)
              exact requiredCredential_ne_notFound (hkey.trans (congrArg _ he))
            | ok key => exact nofun
        · split
          · exact construct_ne_notFound
          · exact nofun

theorem buildProvider_ne_notFound {config : StorageConfig} {message : String} {detail : Fields} :
    buildProvider env.settings env.crypto config ≠ .error (.filenest .notFound message detail) := by
  rw [buildProvider]
  split
  · exact buildManagedProvider_ne_notFound
  · exact buildByobProvider_ne_notFound

/-- The platform's default is never asked for a project on record. -/
theorem Bucketed.getForProject_ne_notFound {db : Database} (hdb : Bucketed db)
    {organizationId message : String} {detail : Fields}
    (hproject : ∃ p ∈ db .projects, Project.id p = projectId ∧ p.organizationId = organizationId) :
    StorageConfigRepository.getForProject db projectId organizationId
      ≠ .error (.filenest .notFound message detail) := by
  obtain ⟨p, hp, rfl, rfl⟩ := hproject
  obtain ⟨s, hs, hsproject, hsorg, hsenv⟩ := hdb.stored p hp
  rw [StorageConfigRepository.getForProject]
  refine oneOr_ne_notFound (a := s) (List.mem_filter.mpr ⟨hs, ?_⟩)
  simp only [hsproject, hsorg, hsenv, beq_self_eq_true, Bool.and_self]

/-- The provider of a project on record. -/
theorem Bucketed.getProvider {db : Database} (hdb : Bucketed db) {p : StorageProvider}
    (hproject : ∃ q ∈ db .projects, Project.id q = projectId
      ∧ q.organizationId = ctx.organizationId)
    (hp : getProvider ctx env db projectId = .ok p) : OwnBucket env projectId p := by
  rw [FileNest.getProvider] at hp
  split at hp
  · rename_i config hconfig
    exact hdb.ownBucket hconfig hp
  · rename_i message detail hnot
    exact absurd hnot (hdb.getForProject_ne_notFound hproject)
  · cases hp

/-- Whose bucket gets the origins of a project on record. -/
theorem Bucketed.syncBucketCors {db : Database} (hdb : Bucketed db) {config : ProjectConfig}
    {p : StorageProvider} {origins : List String}
    (hproject : ∃ q ∈ db .projects, Project.id q = projectId
      ∧ q.organizationId = ctx.organizationId)
    (hp : ProjectConfigService.syncBucketCors ctx env db projectId config = some (p, origins)) :
    OwnBucket env projectId p := by
  simp only [ProjectConfigService.syncBucketCors] at hp
  split at hp
  · rename_i provider hbuild
    obtain ⟨storage, hstorage, hbuild⟩ := bind_eq_ok.mp hbuild
    cases hp
    exact hdb.ownBucket hstorage hbuild
  · rename_i message detail hnot
    cases hstorage : StorageConfigRepository.getForProject db projectId ctx.organizationId with
    | error e =>
      rw [hstorage] at hnot
      cases hnot
      exact absurd hstorage (hdb.getForProject_ne_notFound hproject)
    | ok storage =>
      rw [hstorage] at hnot
      exact absurd hnot buildProvider_ne_notFound
  · cases hp

/-- **Every call addresses a provider of its own**, in a database that is good and bucketed. -/
theorem Bucketed.provider {db : Database} (hdb : Bucketed db) (hgood : db.Good)
    {p : StorageProvider}
    (h : op.provider ctx env db projectId = some p) :
    OwnBucket env (op.target env projectId) p := by
  have hconfig : ∀ {config}, ProjectConfigRepository.getForProject db projectId ctx.organizationId
      = .ok config → ∃ q ∈ db .projects, Project.id q = projectId
        ∧ q.organizationId = ctx.organizationId := by
    intro config hconfig
    obtain ⟨hmem, rfl, ho⟩ := ProjectConfigRepository.of_getForProject hconfig
    obtain ⟨q, hq, hid, howner⟩ := exists_of_mem_keys (hgood.project_of_config hmem)
    exact ⟨q, hq, hid, (congrArg Owner.organizationId howner).trans ho⟩
  have hfile : ∀ {fileId record}, FileRepository.get db fileId ctx.organizationId projectId
      = .ok record → ∃ q ∈ db .projects, Project.id q = projectId
        ∧ q.organizationId = ctx.organizationId := by
    intro fileId record hrecord
    obtain ⟨hmem, -, ho, rfl, -⟩ := FileRepository.of_get hrecord
    obtain ⟨q, hq, hid, hqo⟩ := hgood.file_project hmem
    exact ⟨q, hq, hid, hqo.trans ho⟩
  cases op with
  | initUpload _ | multipartStart _ =>
    obtain ⟨config, hfound, hp⟩ := Option.bind_eq_some_iff.mp h
    exact hdb.getProvider (hconfig (toOption_eq_some.mp hfound)) (toOption_eq_some.mp hp)
  | getDownloadUrl _ _ _ | getVersionDownloadUrl _ _ _ =>
    obtain ⟨record, hfound, hp⟩ := Option.bind_eq_some_iff.mp h
    exact hdb.getProvider (hfile (toOption_eq_some.mp hfound)) (toOption_eq_some.mp hp)
  | multipartPartUrl _ _ _ | multipartComplete _ _ | multipartAbort _ =>
    obtain ⟨session, -, h⟩ := Option.bind_eq_some_iff.mp h
    obtain ⟨record, hfound, hp⟩ := Option.bind_eq_some_iff.mp h
    exact hdb.getProvider (hfile (toOption_eq_some.mp hfound)) (toOption_eq_some.mp hp)
  | verifyStorage =>
    obtain ⟨config, hfound, hp⟩ := Option.bind_eq_some_iff.mp h
    exact hdb.ownBucket (toOption_eq_some.mp hfound) (toOption_eq_some.mp hp)
  | updateSecurityConfig req =>
    obtain ⟨config, hfound, h⟩ := Option.bind_eq_some_iff.mp h
    obtain ⟨origins, -, h⟩ := Option.bind_eq_some_iff.mp h
    obtain ⟨⟨q, origins⟩, hsync, rfl⟩ := Option.map_eq_some_iff.mp h
    exact hdb.syncBucketCors (hconfig (toOption_eq_some.mp hfound)) hsync
  | createProject req =>
    rw [Operation.provider] at h
    split at h
    · exact .managed _ _ (toOption_eq_some.mp h)
    · cases h
  | _ => cases h

end Invariant

/-! ### Runs -/

/-- **Managed projects keep to their bucket**: in every reachable state of runs that meet the
condition, a managed configuration names the bucket of its project, and whatever provider a
call addresses has the customer's credentials or is of the bucket of the call's project. -/
theorem managed_buckets {w : World Table.Row ServiceCall}
    (hw : Reachable ServiceCall.writes ManagedBucketKept (· = Database.empty) w) :
    (∀ s ∈ w.store .storageConfigs, StorageConfig.storageMode s = "managed" →
        s.bucketName = some (managedBucket s.projectId))
      ∧ ∀ (c : ServiceCall) (p : StorageProvider),
          c.op.provider c.ctx c.env w.store c.projectId = some p →
          OwnBucket c.env (c.op.target c.env c.projectId) p := by
  have hinv : Database.Good w.store ∧ Bucketed w.store := by
    refine ServiceCall.invariant (P := Bucketed) (R := KeepsStorage) ?_ ?_ ?_ hw
    · exact ⟨fun s hs => (by cases hs), fun p hp => (by cases hp)⟩
    · exact fun db s hs => ⟨s, hs, rfl, rfl, rfl⟩
    · intro db snapshot c r ws hgood hsnap _ hkeeps hdb hr _ hcond
      have heffect := Operation.storageEffect hsnap hr
      refine ⟨⟨heffect.managed hgood hdb hkeeps hcond, heffect.stored hdb⟩,
        fun snap hsnap s hs => ?_⟩
      -- what was on record when a call read stays
      obtain ⟨s', hs', hid, hproject, hmode⟩ := hsnap s hs
      obtain ⟨s'', hs'', hid', hproject', hmode'⟩ := heffect.keepsStorage db s' hs'
      exact ⟨s'', hs'', hid'.trans hid, hproject'.trans hproject, hmode'.trans hmode⟩
  exact ⟨hinv.2.managed, fun c p hp => hinv.2.provider hinv.1 hp⟩

/-- Two managed projects. -/
def twoProjects : List ServiceCall :=
  [⟨orgContext "acme", devEnv "p" 1, "", .createProject devProject⟩,
   ⟨orgContext "acme", devEnv "q" 2, "", .createProject
     { devProject with name := "Pictures", slug := "pictures", name_length := by decide }⟩]

/-- An update of the storage of the first. -/
def bucketUpdate (bucketName : String)
    (h : 1 ≤ bucketName.length ∧ bucketName.length ≤ 255 := by decide) : ServiceCall :=
  ⟨orgContext "acme", devEnv "u" 3, "p0", .updateStorageConfig
    { devBucket with bucketName := bucketName, bucketName_length := h }⟩

/-- An update that names the bucket that is there. -/
theorem managed_buckets_kept :
    let db := runAll (twoProjects ++ [bucketUpdate "fn-p0"]) Database.empty
    (∃ s ∈ db .storageConfigs, StorageConfig.status s = "pending_verification")
      ∧ ∀ s ∈ db .storageConfigs, StorageConfig.storageMode s = "managed" →
        s.bucketName = some (managedBucket s.projectId) := by
  refine ⟨by decide, ?_⟩
  have hallowed : AllowedRun ManagedBucketKept (twoProjects ++ [bucketUpdate "fn-p0"])
      Database.empty := by
    refine ⟨fun _ _ h => (by cases h), fun _ _ h => (by cases h), fun _ _ h => ?_, trivial⟩
    cases h
    exact fun _ _ => rfl
  exact (managed_buckets (hallowed.reachable (.init rfl))).1

/-- An update that names the bucket of the other project. -/
theorem managed_bucket_renamed :
    ¬∀ w : World Table.Row ServiceCall,
      Reachable ServiceCall.writes .always (· = Database.empty) w →
      ∀ s ∈ w.store .storageConfigs, StorageConfig.storageMode s = "managed" →
        s.bucketName = some (managedBucket s.projectId) := by
  intro h
  have hrun := reachable_runAll .always (fun _ _ => trivial)
    (twoProjects ++ [bucketUpdate "fn-q0"]) (.init rfl)
  exact absurd (h _ hrun) (by decide)

end FileNest
