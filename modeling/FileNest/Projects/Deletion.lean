import FileNest.CredentialScope
import FileNest.Projects.Flags
import FileNest.Uploads.Admission
import FileNest.Tokens.Advertised

/-!
# Deleted projects

Deleting a project marks its row.  The routes of projects look at the mark; the others ask for
the configuration of the project, which stays, or for nothing, so that uploads, folders, tokens
and configuration updates go on as before.

## Main definitions

* `ApiCall`, `ApiCall.serve` — a request of an authenticated caller, and a run of them.
* `Operation.Begins` — the operations a deleted project should refuse.
* `ApiCall.Passes` — what such a request is checked for.
* `Inert` — once a deletion is committed, every later one of them is refused.

## Main results

* `ApiCall.accepted_iff` — a request is accepted exactly if it passes the checks.
* `ApiCall.passes_of_deletion` — none of the checks looks at the mark.
* `inert_iff` — **deleted projects are inert exactly if all later requests fail for some other
  reason.**
-/

namespace FileNest

open RowStore Trace

/-- A request, with its caller. -/
structure ApiCall where
  ctx : TenantContext
  env : Env
  req : Request

/-- The project has been deleted. -/
def ProjectDeleted (db : Database) (projectId : String) : Prop :=
  ∃ p ∈ (db .projects : List Project), p.id = projectId ∧ p.deletedAt ≠ none

/-- The paths a walk looks up. -/
def walkPaths : List String → String → List String
  | [], _ => []
  | segment :: segments, path =>
      (path ++ "/" ++ segment) :: walkPaths segments (path ++ "/" ++ segment)

/-- What begins an upload, creates folders or an upload token, or changes the configuration. -/
def Operation.Begins : Operation → Prop
  | initUpload _ | multipartStart _ | createFolder _ | ensureFolderPath _ | createUploadToken _
  | updateUploadConfig _ | updateSecurityConfig _ | updateProcessingConfig _
  | updateComplianceConfig _ | updateStorageConfig _ | updateStorageSse _ => True
  | _ => False

section Checks

variable (ctx : TenantContext) (env : Env) (db : Database) (projectId : String)

/-- No folder path of a walk is taken twice. -/
def WalkFinds (path : String) : Prop :=
  ∀ q ∈ walkPaths (Text.split '/' (Text.stripChar '/' path)) "",
    ∃ found, FolderRepository.getByPath db q ctx.organizationId projectId = .ok found

/-- The project has a configuration. -/
def Configured : Prop :=
  ∃ config, ProjectConfigRepository.getForProject db projectId ctx.organizationId = .ok config

/-- What an operation checks for itself. -/
def Operation.Passes : Operation → Prop
  | initUpload req => (ctx.isUploadToken = true → TokenAllows ctx req.sizeBytes req.contentType) ∧
      ∃ config provider, ProjectAdmits ctx env db projectId req.filename req.contentType
          req.sizeBytes config provider ∧
        ∃ url, env.storage.generatePresignedUploadUrl provider
          (storageKey ctx.organizationId projectId (env.uuid4 0)) req.contentType req.sizeBytes
          (resolveTtl config none) = .ok url
  | multipartStart req => ∃ config provider, ProjectAdmits ctx env db projectId req.filename
        req.contentType req.totalSizeBytes config provider ∧
      ∃ uploadId, env.storage.createMultipartUpload provider
        (storageKey ctx.organizationId projectId (env.uuid4 0)) req.contentType = .ok uploadId
  | createFolder req => ∀ parentId, req.parentFolderId = some parentId →
      ∃ parent, FolderRepository.get db parentId ctx.organizationId projectId = .ok parent
  | ensureFolderPath req => WalkFinds ctx db projectId req.path
  | createUploadToken req =>
      (∃ config,
        ProjectConfigRepository.getForProject db projectId ctx.organizationId = .ok config ∧
        checkTokenConstraints config req = .ok ()) ∧
      ∀ path, req.folderPath = some path → WalkFinds ctx db projectId path
  | updateUploadConfig _ | updateSecurityConfig _ | updateProcessingConfig _
  | updateComplianceConfig _ => Configured ctx db projectId
  | updateStorageConfig req => ∃ existing,
      StorageConfigRepository.getForProject db projectId ctx.organizationId = .ok existing ∧
      ∃ creds sse kms, buildByobCredentials existing.provider req = .ok (creds, sse, kms) ∧
        ∃ blob, orStorageError (env.crypto.encrypt creds) = .ok blob
  | updateStorageSse _ => ∃ existing,
      StorageConfigRepository.getForProject db projectId ctx.organizationId = .ok existing ∧
        existing.provider ∈ ["minio", "rustfs"]
  | _ => False

end Checks

namespace ApiCall

variable (db : Database) (c : ApiCall)

/-- A request that is served alone. -/
def serve : Database := c.req.after c.ctx c.env db

/-- The request is accepted. -/
def Accepted : Prop := ∃ r ws, handle c.ctx c.env c.req db = .ok (r, ws)

/-- The request deletes its project. -/
def Deletes : Prop := c.req.op = .deleteProject ∧ c.Accepted db

/-- A request on the project that a deletion should end is refused. -/
def RefusedOn (projectId : String) : Prop :=
  c.req.projectId = projectId → c.req.op.Begins → ¬c.Accepted db

/-- What such a request is checked for: the token's project and the address, where the route asks
for them, the scopes, and what the operation needs. -/
def Passes : Prop :=
  c.req.op.dependency.check c.ctx c.env db c.req.projectId = .ok () ∧
    (∀ s ∈ c.req.op.requiredScopes, s ∈ c.ctx.scopes) ∧
    c.req.op.Passes c.ctx c.env db c.req.projectId

end ApiCall

/-- Once the deletion of a project is committed, every later request of these is refused. -/
def Inert : Database → List ApiCall → Prop
  | _, [] => True
  | db, c :: calls =>
      (c.Deletes db → EachStep ApiCall.serve (fun db d => d.RefusedOn db c.req.projectId)
        (c.serve db) calls) ∧ Inert (c.serve db) calls

/-- A request on a deleted project fails one of its checks. -/
def FailsOtherwise (db : Database) (c : ApiCall) : Prop :=
  ProjectDeleted db c.req.projectId → c.req.op.Begins → ¬c.Passes db

/-! ### What the operations check -/

section Accepted

variable {ctx : TenantContext} {env : Env} {db : Database} {projectId : String}

/-- A walk succeeds if its lookups do. -/
theorem resolvePath_ok_iff (env : Env) (segments : List String) (draw : ℕ) (path : String)
    (last : Option Folder) :
    (∃ out, resolvePath ctx env db projectId segments draw path last = .ok out) ↔
      ∀ q ∈ walkPaths segments path,
        ∃ found, FolderRepository.getByPath db q ctx.organizationId projectId = .ok found := by
  induction segments generalizing draw path last with
  | nil => exact iff_of_true ⟨_, rfl⟩ fun q hq => by cases hq
  | cons segment segments ih =>
    rw [resolvePath, walkPaths, List.forall_mem_cons]
    simp only [bind_eq_ok]
    constructor
    · rintro ⟨out, found, hfound, hrest⟩
      refine ⟨⟨found, hfound⟩, ?_⟩
      cases found with
      | some existing => exact (ih _ _ _).mp ⟨out, hrest⟩
      | none =>
        obtain ⟨⟨leaf, writes⟩, hwalk, -⟩ := bind_eq_ok.mp hrest
        exact (ih _ _ _).mp ⟨_, hwalk⟩
    · rintro ⟨⟨found, hfound⟩, hrest⟩
      cases found with
      | some existing =>
        obtain ⟨out, hwalk⟩ := (ih draw _ (some existing)).mpr hrest
        exact ⟨out, some existing, hfound, hwalk⟩
      | none =>
        obtain ⟨⟨leaf, writes⟩, hwalk⟩ := (ih (draw + 1) _ _).mpr hrest
        exact ⟨_, none, hfound, bind_eq_ok.mpr ⟨_, hwalk, rfl⟩⟩

/-- A walk of at least one segment ends somewhere. -/
theorem resolvePath_leaf {segments : List String} {draw : ℕ} {path : String}
    {last leaf : Option Folder} {writes : List DbWrite}
    (h : resolvePath ctx env db projectId segments draw path last = .ok (leaf, writes))
    (hne : segments ≠ [] ∨ last ≠ none) : leaf ≠ none := by
  induction segments generalizing draw path last leaf writes with
  | nil =>
    simp only [resolvePath, pure_eq_ok, Prod.mk.injEq] at h
    rw [← h.1]
    exact hne.resolve_left fun hnot => hnot rfl
  | cons segment segments ih =>
    simp only [resolvePath, bind_eq_ok] at h
    obtain ⟨found, -, h⟩ := h
    cases found with
    | some existing => exact ih h (.inr (Option.some_ne_none _))
    | none =>
      obtain ⟨⟨leaf', writes'⟩, hwalk, h⟩ := bind_eq_ok.mp h
      simp only [pure_eq_ok, Prod.mk.injEq] at h
      rw [← h.1]
      exact ih hwalk (.inr (Option.some_ne_none _))

theorem ensurePath_ok_iff {req : EnsurePathRequest} :
    (∃ out, FolderService.ensurePath ctx env db projectId req = .ok out)
      ↔ WalkFinds ctx db projectId req.path := by
  unfold WalkFinds
  rw [← resolvePath_ok_iff env _ 0 _ none, FolderService.ensurePath]
  constructor
  · rintro ⟨out, h⟩
    obtain ⟨walk, hwalk, -⟩ := bind_eq_ok.mp h
    exact ⟨walk, hwalk⟩
  · rintro ⟨⟨leaf, writes⟩, hwalk⟩
    cases leaf with
    | none =>
      refine absurd rfl (resolvePath_leaf hwalk (.inl ?_))
      simp [Text.split, Text.splitChars_ne_nil]
    | some record => exact ⟨_, bind_eq_ok.mpr ⟨_, hwalk, rfl⟩⟩

theorem resolveTokenFolder_ok_iff (env : Env) {req : CreateUploadTokenRequest} :
    (∃ out, resolveTokenFolder ctx env db projectId req = .ok out)
      ↔ ∀ path, req.folderPath = some path → WalkFinds ctx db projectId path := by
  unfold resolveTokenFolder
  cases req.folderPath with
  | none => exact iff_of_true ⟨_, rfl⟩ fun path hpath => by cases hpath
  | some path =>
    simp only [Option.some.injEq, forall_eq']
    unfold WalkFinds
    rw [← resolvePath_ok_iff env _ 1 _ none]
    constructor
    · rintro ⟨out, h⟩
      obtain ⟨walk, hwalk, -⟩ := bind_eq_ok.mp h
      exact ⟨walk, hwalk⟩
    · rintro ⟨walk, hwalk⟩
      exact ⟨_, bind_eq_ok.mpr ⟨walk, hwalk, rfl⟩⟩

theorem updateWith_ok_iff {change : ProjectConfig → ProjectConfig} :
    (∃ out, ProjectConfigService.updateWith ctx env db projectId change = .ok out)
      ↔ Configured ctx db projectId := by
  unfold ProjectConfigService.updateWith Configured
  constructor
  · rintro ⟨out, h⟩
    obtain ⟨config, hconfig, -⟩ := bind_eq_ok.mp h
    exact ⟨config, hconfig⟩
  · rintro ⟨config, hconfig⟩
    exact ⟨_, bind_eq_ok.mpr ⟨config, hconfig, rfl⟩⟩

/-- **What the operations check.** -/
theorem Operation.run_ok_iff {op : Operation} (hop : op.Begins) :
    (∃ out, op.run ctx env db projectId = .ok out) ↔ op.Passes ctx env db projectId := by
  cases op with
  | initUpload req =>
    simp only [run, Passes, Prod.exists, FileService.initUpload_eq_ok]
    constructor
    · rintro ⟨-, -, config, provider, url, hadmits, htoken, hurl, -, -⟩
      exact ⟨htoken, config, provider, hadmits, url, hurl⟩
    · rintro ⟨htoken, config, provider, hadmits, url, hurl⟩
      exact ⟨_, _, config, provider, url, hadmits, htoken, hurl, rfl, rfl⟩
  | multipartStart req =>
    simp only [run, Passes, Prod.exists, MultipartUploadService.start_eq_ok]
    constructor
    · rintro ⟨-, -, config, provider, uploadId, hadmits, hcreate, -, -⟩
      exact ⟨config, provider, hadmits, uploadId, hcreate⟩
    · rintro ⟨config, provider, hadmits, uploadId, hcreate⟩
      exact ⟨_, _, config, provider, uploadId, hadmits, hcreate, rfl, rfl⟩
  | createFolder req =>
    simp only [run, Passes, FolderService.createFolder, FolderService.newFolderPath, bind_eq_ok]
    cases req.parentFolderId with
    | none => exact iff_of_true ⟨_, _, rfl, rfl⟩ fun _ hparent => by cases hparent
    | some parentId =>
      simp only [Option.some.injEq, forall_eq', bind_eq_ok]
      constructor
      · rintro ⟨out, path, ⟨parent, hparent, -⟩, -⟩
        exact ⟨parent, hparent⟩
      · rintro ⟨parent, hparent⟩
        exact ⟨_, _, ⟨parent, hparent, rfl⟩, rfl⟩
  | ensureFolderPath req => exact ensurePath_ok_iff
  | createUploadToken req =>
    simp only [run, Passes, UploadTokenService.create, bind_eq_ok, ← resolveTokenFolder_ok_iff env]
    constructor
    · rintro ⟨out, config, hconfig, _, hconstraints, folder, hfolder, -⟩
      exact ⟨⟨config, hconfig, hconstraints⟩, folder, hfolder⟩
    · rintro ⟨⟨config, hconfig, hconstraints⟩, folder, hfolder⟩
      exact ⟨_, config, hconfig, _, hconstraints, folder, hfolder, rfl⟩
  | updateUploadConfig req => exact updateWith_ok_iff
  | updateSecurityConfig req => exact updateWith_ok_iff
  | updateProcessingConfig req => exact updateWith_ok_iff
  | updateComplianceConfig req => exact updateWith_ok_iff
  | updateStorageConfig req =>
    simp only [run, Passes, StorageConfigService.updateConfig, StorageConfigService.saveConfig,
      bind_eq_ok]
    constructor
    · rintro ⟨out, existing, hexisting, ⟨creds, sse, kms⟩, hcreds, blob, hblob, -⟩
      exact ⟨existing, hexisting, creds, sse, kms, hcreds, blob, hblob⟩
    · rintro ⟨existing, hexisting, creds, sse, kms, hcreds, blob, hblob⟩
      exact ⟨_, existing, hexisting, ⟨creds, sse, kms⟩, hcreds, blob, hblob, rfl⟩
  | updateStorageSse sseEnabled =>
    simp only [run, Passes, StorageConfigService.updateSse, bind_eq_ok]
    constructor
    · rintro ⟨out, existing, hexisting, h⟩
      split at h
      · rename_i hprovider
        exact ⟨existing, hexisting, hprovider⟩
      · cases h
    · rintro ⟨existing, hexisting, hprovider⟩
      exact ⟨_, existing, hexisting, if_pos hprovider⟩
  | _ => cases hop

/-- **A request is accepted exactly if it passes the checks.** -/
theorem ApiCall.accepted_iff {c : ApiCall} (hop : c.req.op.Begins) :
    c.Accepted db ↔ c.Passes db := by
  have hvalid : c.req.op.metadataInvalid = false := by
    cases hcase : c.req.op <;> rw [hcase] at hop <;> first | rfl | cases hop
  unfold Accepted Passes
  rw [← requireScope_ok_iff, ← Operation.run_ok_iff hop]
  constructor
  · rintro ⟨r, ws, h⟩
    obtain ⟨hcheck, hscope, hrun⟩ := handle_ok h
    exact ⟨hcheck, hscope, _, hrun⟩
  · rintro ⟨hcheck, hscope, ⟨r, ws⟩, hrun⟩
    exact ⟨r, ws, (handle_of_checks hcheck hscope hvalid).trans hrun⟩

/-! ### What the checks look at -/

/-- **None of the checks looks at the rows of projects.** -/
theorem ApiCall.passes_congr {db db' : Database} (h : ∀ t, t ≠ .projects → db t = db' t)
    {c : ApiCall} : c.Passes db ↔ c.Passes db' := by
  have hconfig : ∀ p o, ProjectConfigRepository.getForProject db p o
      = ProjectConfigRepository.getForProject db' p o := by
    intro p o
    unfold ProjectConfigRepository.getForProject
    rw [h _ (by decide)]
  have hstorage : ∀ p o, StorageConfigRepository.getForProject db p o
      = StorageConfigRepository.getForProject db' p o := by
    intro p o
    unfold StorageConfigRepository.getForProject
    rw [h _ (by decide)]
  have hfolder : ∀ f o p, FolderRepository.get db f o p = FolderRepository.get db' f o p := by
    intro f o p
    unfold FolderRepository.get
    rw [h _ (by decide)]
  have hpath : ∀ q o p, FolderRepository.getByPath db q o p
      = FolderRepository.getByPath db' q o p := by
    intro q o p
    unfold FolderRepository.getByPath
    rw [h _ (by decide)]
  have hcount : ∀ o p, FileRepository.countInFlight db o p
      = FileRepository.countInFlight db' o p := by
    intro o p
    unfold FileRepository.countInFlight
    rw [h _ (by decide)]
  have hprovider : ∀ p, getProvider c.ctx c.env db p = getProvider c.ctx c.env db' p := by
    intro p
    unfold getProvider
    rw [hstorage]
  have hadmits : ∀ p filename contentType sizeBytes config provider,
      ProjectAdmits c.ctx c.env db p filename contentType sizeBytes config provider ↔
        ProjectAdmits c.ctx c.env db' p filename contentType sizeBytes config provider := by
    intro p filename contentType sizeBytes config provider
    constructor
    · rintro ⟨h1, h2, h3, h4⟩
      exact ⟨hconfig _ _ ▸ h1, h2, hcount _ _ ▸ h3, hprovider _ ▸ h4⟩
    · rintro ⟨h1, h2, h3, h4⟩
      exact ⟨(hconfig _ _).symm ▸ h1, h2, (hcount _ _).symm ▸ h3, (hprovider _).symm ▸ h4⟩
  have hcheck : ∀ d : Dependency, d.check c.ctx c.env db c.req.projectId
      = d.check c.ctx c.env db' c.req.projectId := by
    intro d
    unfold Dependency.check
    rw [hconfig]
  have hop : c.req.op.Passes c.ctx c.env db c.req.projectId
      ↔ c.req.op.Passes c.ctx c.env db' c.req.projectId := by
    unfold Operation.Passes WalkFinds Configured
    simp only [hconfig, hstorage, hfolder, hpath, hadmits]
  unfold Passes
  rw [hcheck, hop]

/-- Deleting a project changes nothing a later request is checked for. -/
theorem ApiCall.passes_of_deletion {d : ApiCall} (hd : d.req.op = .deleteProject) (c : ApiCall) :
    c.Passes (d.serve db) ↔ c.Passes db := by
  refine ApiCall.passes_congr fun t ht => ?_
  unfold ApiCall.serve Request.after
  rcases hr : handle d.ctx d.env d.req db with e | ⟨r, ws⟩
  · rfl
  have hrun := (handle_ok hr).2.2
  rw [hd] at hrun
  simp only [Operation.run, ProjectService.deleteProject, bind_eq_ok, pure_eq_ok,
    Prod.mk.injEq] at hrun
  obtain ⟨loaded, -, -, rfl⟩ := hrun
  simp only [commit]
  split
  · exact applyAll_of_table_ne (by simpa [Project.save] using ht.symm) db
  · rfl

end Accepted

/-! ### Deletions -/

section Deletions

variable {db : Database} {c : ApiCall} {projectId : String}

/-- A saved project is deleted if it was, or is by this. -/
theorem projectDeleted_save {loaded : Project} (saved : Project) :
    ProjectDeleted (applyAll [loaded.save saved] db) projectId ↔
      ∃ p ∈ (db .projects : List Project), p.id = projectId ∧
        (if p.id = loaded.id then flushColumn loaded.deletedAt saved.deletedAt p.deletedAt
          else p.deletedAt) ≠ none := by
  unfold ProjectDeleted
  rw [applyAll_cons, applyAll_nil, Project.save, apply_update_self]
  constructor
  · rintro ⟨p', hp', hid, hdeleted⟩
    obtain ⟨p, hp, rfl⟩ := List.mem_map.mp hp'
    refine ⟨p, hp, ?_, ?_⟩
    · split at hid <;> exact hid
    · by_cases heq : p.id = loaded.id
      · rw [if_pos heq]
        simpa [pk, rowId, heq, Project.flush] using hdeleted
      · rw [if_neg heq]
        simpa [pk, rowId, heq] using hdeleted
  · rintro ⟨p, hp, hid, hdeleted⟩
    refine ⟨_, List.mem_map_of_mem hp, ?_, ?_⟩
    · split <;> exact hid
    · by_cases heq : p.id = loaded.id
      · simpa [pk, rowId, heq, Project.flush] using hdeleted
      · simpa [pk, rowId, heq] using hdeleted

theorem Database.Good.serveApi (hdb : db.Good) (c : ApiCall) : (c.serve db).Good :=
  hdb.commitResult fun _ _ hr => (handle_sound hdb hr).resolved

/-- Whoever deletes finds a project that is not deleted. -/
theorem ProjectRepository.deletedAt_of_get {o : String} {p : Project}
    (h : ProjectRepository.get db projectId o = .ok p) : p.deletedAt = none := by
  have hfilter := (List.mem_filter.mp (mem_of_oneOr h)).2
  simp only [Bool.and_eq_true, Option.isNone_iff_eq_none] at hfilter
  exact hfilter.2

/-- The rows of projects are only written by three operations. -/
theorem projectDeleted_commit (hdb : db.Good) {ctx : TenantContext} {env : Env} {op : Operation}
    {r : Response} {ws : List DbWrite} {target : String}
    (hr : op.run ctx env db target = .ok (r, ws)) (hop : op ≠ .deleteProject) :
    ProjectDeleted (applyAll ws db) projectId ↔ ProjectDeleted db projectId := by
  have htables : ∀ w ∈ ws, w.table ∈ op.tables := (Operation.sound hdb hr).tables
  have hother : Table.projects ∉ op.tables →
      (ProjectDeleted (applyAll ws db) projectId ↔ ProjectDeleted db projectId) := by
    intro hnot
    have hnone : ∀ w ∈ ws, w.table ≠ .projects := fun w hw heq => hnot (heq ▸ htables w hw)
    unfold ProjectDeleted
    rw [applyAll_of_table_ne hnone]
  cases op with
  | deleteProject => exact absurd rfl hop
  | updateProject req =>
    simp only [Operation.run, ProjectService.updateProject, bind_eq_ok, pure_eq_ok,
      Prod.mk.injEq] at hr
    obtain ⟨loaded, -, -, rfl⟩ := hr
    rw [projectDeleted_save]
    simp only [flushColumn_self, ite_self]
    rfl
  | createProject req =>
    simp only [Operation.run, ProjectService.createProject, bind_eq_ok, pure_eq_ok,
      Prod.mk.injEq] at hr
    obtain ⟨-, -, ⟨bucketName, status, lastVerifiedAt⟩, -, -, rfl⟩ := hr
    unfold ProjectDeleted
    rw [applyAll_cons, applyAll_of_table_ne (by simp), apply_insert_self]
    constructor
    · rintro ⟨p, hp, hid, hdeleted⟩
      obtain hp | hp := List.mem_append.mp hp
      · exact ⟨p, hp, hid, hdeleted⟩
      · rw [List.mem_singleton.mp hp] at hdeleted
        exact absurd rfl hdeleted
    · rintro ⟨p, hp, hrest⟩
      exact ⟨p, List.mem_append_left _ hp, hrest⟩
  | _ => exact hother (by simp [Operation.tables])

/-- **A project is deleted by its deletion only**, and for good. -/
theorem ApiCall.projectDeleted_serve (hdb : db.Good) (c : ApiCall) :
    ProjectDeleted (c.serve db) projectId ↔
      ProjectDeleted db projectId ∨ c.Deletes db ∧ c.req.projectId = projectId := by
  unfold ApiCall.serve Request.after
  rcases hr : handle c.ctx c.env c.req db with e | ⟨r, ws⟩
  · refine (or_iff_left ?_).symm
    rintro ⟨⟨-, r, ws, hok⟩, -⟩
    rw [hr] at hok
    cases hok
  have hrun := (handle_ok hr).2.2
  by_cases hop : c.req.op = .deleteProject
  · have hdeletes : c.Deletes db := ⟨hop, r, ws, hr⟩
    rw [hop] at hrun
    simp only [Operation.run, ProjectService.deleteProject, bind_eq_ok, pure_eq_ok,
      Prod.mk.injEq] at hrun
    obtain ⟨loaded, hloaded, -, rfl⟩ := hrun
    obtain ⟨hmem, hid, -⟩ := ProjectRepository.of_get hloaded
    have hnone := ProjectRepository.deletedAt_of_get hloaded
    have hadm : Admissible [loaded.save (ProjectRepository.softDelete loaded c.env.now)] db :=
      ⟨trivial, trivial⟩
    simp only [commit, if_pos hadm]
    rw [projectDeleted_save, and_iff_right hdeletes]
    have hflush : ∀ current, flushColumn loaded.deletedAt
        (ProjectRepository.softDelete loaded c.env.now).deletedAt current ≠ none := by
      intro current
      simp [flushColumn, hnone, ProjectRepository.softDelete]
    constructor
    · rintro ⟨p, hp, hpid, hdeleted⟩
      by_cases heq : p.id = loaded.id
      · exact .inr (hid.symm.trans (heq.symm.trans hpid))
      · rw [if_neg heq] at hdeleted
        exact .inl ⟨p, hp, hpid, hdeleted⟩
    · rintro (⟨p, hp, hpid, hdeleted⟩ | htarget)
      · refine ⟨p, hp, hpid, ?_⟩
        split
        · exact hflush _
        · exact hdeleted
      · refine ⟨loaded, hmem, hid.trans htarget, ?_⟩
        rw [if_pos rfl]
        exact hflush _
  · rw [or_iff_left fun h => hop h.1.1]
    simp only [commit]
    split
    · exact projectDeleted_commit hdb hrun hop
    · rfl

/-! ### Runs -/

/-- Requests that are refused, for whatever is deleted now and by the run. -/
theorem inert_iff_of_good (hdb : db.Good) (calls : List ApiCall) :
    (Inert db calls ∧ ∀ projectId, ProjectDeleted db projectId →
      EachStep ApiCall.serve (fun db c => c.RefusedOn db projectId) db calls)
      ↔ EachStep ApiCall.serve FailsOtherwise db calls := by
  induction calls generalizing db with
  | nil => exact ⟨fun _ => trivial, fun _ => ⟨trivial, fun _ _ => trivial⟩⟩
  | cons c calls ih =>
    have hstep : (∀ projectId, ProjectDeleted db projectId → c.RefusedOn db projectId)
        ↔ FailsOtherwise db c := by
      constructor
      · intro hrefused hdeleted hop
        rw [← ApiCall.accepted_iff hop]
        exact hrefused _ hdeleted rfl hop
      · rintro hfails projectId hdeleted rfl hop
        rw [ApiCall.accepted_iff hop]
        exact hfails hdeleted hop
    simp only [EachStep, ← ih (hdb.serveApi c), ← hstep]
    constructor
    · rintro ⟨⟨hdeletes, hinert⟩, hold⟩
      refine ⟨fun P hP => (hold P hP).1, hinert, fun P hP => ?_⟩
      obtain hP | ⟨hnew, rfl⟩ := (c.projectDeleted_serve hdb).mp hP
      · exact (hold P hP).2
      · exact hdeletes hnew
    · rintro ⟨hnow, hinert, hlater⟩
      refine ⟨⟨fun hnew => ?_, hinert⟩, fun P hP => ⟨hnow P hP, ?_⟩⟩
      · exact hlater _ ((c.projectDeleted_serve hdb).mpr (.inr ⟨hnew, rfl⟩))
      · exact hlater P ((c.projectDeleted_serve hdb).mpr (.inl hP))

/-- **Deleted projects are inert throughout a run exactly if every later request on one of them
fails one of the checks a project that is not deleted makes.** -/
theorem inert_iff (calls : List ApiCall) :
    Inert Database.empty calls ↔ EachStep ApiCall.serve FailsOtherwise Database.empty calls := by
  rw [← inert_iff_of_good Database.good_empty]
  refine (and_iff_left ?_).symm
  rintro projectId ⟨p, hp, -⟩
  cases hp

end Deletions

/-- A project is created, a token is issued for it, the project is deleted, and the token is used
for an upload. -/
def uploadAfterDeletion : List ApiCall :=
  [⟨orgContext "acme", devEnv "p" 1, ⟨"", .createProject devProject⟩⟩,
    ⟨orgContext "acme", devEnv "t" 2, ⟨"p0", .createUploadToken devTokenRequest⟩⟩,
    ⟨orgContext "acme", devEnv "d" 3, ⟨"p0", .deleteProject⟩⟩,
    ⟨uploadTokenContext devToken, devEnv "f" 4,
      ⟨"p0", .initUpload ⟨"a.txt", "text/plain", 1, none, [], []⟩⟩⟩]

/-- The token is still valid, and the upload begins. -/
theorem upload_after_deletion :
    ProjectDeleted ((uploadAfterDeletion.take 3).foldl ApiCall.serve Database.empty) "p0" ∧
      verifyUploadToken ((uploadAfterDeletion.take 3).foldl ApiCall.serve Database.empty) 4
        devToken.token = .ok (uploadTokenContext devToken) ∧
      (uploadAfterDeletion.foldl ApiCall.serve Database.empty .files).length = 1 ∧
      ¬Inert Database.empty uploadAfterDeletion := by
  have hdeletes : ApiCall.Deletes
      ((uploadAfterDeletion.take 2).foldl ApiCall.serve Database.empty)
      ⟨orgContext "acme", devEnv "d" 3, ⟨"p0", .deleteProject⟩⟩ := ⟨rfl, _, _, rfl⟩
  refine ⟨?_, rfl, rfl, ?_⟩
  · unfold ProjectDeleted
    decide
  · rintro ⟨-, -, hinert, -⟩
    exact (hinert hdeletes).1 rfl trivial ⟨_, _, rfl⟩

end FileNest
