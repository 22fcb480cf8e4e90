import FileNest.Reachable

/-!
# Isolation of organisations

An operation only reads rows of its caller's organisation, and only writes such rows.
So what one organisation does is invisible to every other one: its rows stay as they
are, and each operation of the other gives the same response and the same writes.

## Main definitions

* `runAll` — calls of services, run one after the other.
* `Collisionless` — no call draws an id that is taken.

## Main results

* `Operation.run_agree` — **an operation is local to its organisation.**
* `agree_runAll` — a run of one organisation leaves the rows of another alone.
* `organization_isolation` — and everything the other can observe.
* `noninterference` — the same with the calls of both interleaved.
-/

namespace FileNest

open RowStore ReadCommitted

/-! ### What an operation reads -/

section Agree

variable {ctx : TenantContext} {db db' : Database}
  (h : Agree (orgRegion ctx.organizationId) db db') (env : Env) (projectId : String)
include h

theorem getProvider_agree :
    getProvider ctx env db projectId = getProvider ctx env db' projectId := by
  simp only [getProvider, StorageConfigRepository.getForProject_agree h]

theorem FileService.fileListResponse_agree (filters : FileRepository.Filters)
    (params : FileListParams) : fileListResponse ctx db projectId filters params
      = fileListResponse ctx db' projectId filters params := by
  simp only [fileListResponse, FileRepository.count_agree h, FileRepository.list_agree h]

theorem FileService.modifyFile_agree (fileId : String) (change : File → File)
    (respond : File → Response) : modifyFile ctx db projectId fileId change respond
      = modifyFile ctx db' projectId fileId change respond := by
  simp only [modifyFile, FileRepository.get_agree h]

theorem resolvePath_agree (segments : List String) (draw : ℕ) (path : String)
    (last : Option Folder) : resolvePath ctx env db projectId segments draw path last
      = resolvePath ctx env db' projectId segments draw path last := by
  induction segments generalizing draw path last with
  | nil => rfl
  | cons segment segments ih =>
    simp only [resolvePath, FolderRepository.getByPath_agree h, ih]

theorem resolveTokenFolder_agree (req : CreateUploadTokenRequest) :
    resolveTokenFolder ctx env db projectId req = resolveTokenFolder ctx env db' projectId req := by
  simp only [resolveTokenFolder, resolvePath_agree h]

theorem MetadataService.validateIfRequired_agree (metadata : Fields) :
    validateIfRequired ctx env db projectId metadata
      = validateIfRequired ctx env db' projectId metadata := by
  simp only [validateIfRequired, ProjectConfigRepository.getForProject_agree h,
    MetadataSchemaRepository.getActive, MetadataSchemaRepository.activeRows_agree h]

theorem ProjectConfigService.updateWith_agree (change : ProjectConfig → ProjectConfig) :
    updateWith ctx env db projectId change = updateWith ctx env db' projectId change := by
  simp only [updateWith, ProjectConfigRepository.getForProject_agree h]

theorem UsageService.getUsage_agree (hdb : db.Good) (hdb' : db'.Good) :
    getUsage ctx env db = getUsage ctx env db' := by
  simp only [getUsage, UsageRepository.getStats, UsageRepository.liveFiles_agree h,
    UsageRepository.liveProjects_agree h, UsageRepository.getProjectBreakdown_agree h hdb hdb']

theorem DashboardService.getDashboard_agree (hdb : db.Good) (hdb' : db'.Good) :
    getDashboard ctx env db = getDashboard ctx env db' := by
  simp only [getDashboard, UsageRepository.getStats, DashboardRepository.getUploadsByDay,
    DashboardRepository.getStorageByDay, DashboardRepository.filesByDay,
    DashboardRepository.getStatusDistribution, UsageRepository.liveFiles_agree h,
    UsageRepository.liveProjects_agree h, DashboardRepository.getRecentFiles_agree h hdb hdb']

end Agree

/-- **An operation is local to its organisation**: databases that agree on the caller's
organisation give it the same response and the same writes. -/
theorem Operation.run_agree {ctx : TenantContext} {db db' : Database}
    (h : Agree (orgRegion ctx.organizationId) db db') (hdb : db.Good) (hdb' : db'.Good)
    (env : Env) (projectId : String) (op : Operation) :
    op.run ctx env db projectId = op.run ctx env db' projectId := by
  cases op with
  | initUpload req =>
    simp only [run, FileService.initUpload, ProjectConfigRepository.getForProject_agree h,
      FileRepository.countInFlight_agree h, getProvider_agree h]
  | confirmUpload fileId =>
    simp only [run, FileService.confirmUpload, FileRepository.get_agree h,
      ProjectConfigRepository.getForProject_agree h]
  | getDownloadUrl fileId ttl inline' =>
    simp only [run, FileService.getDownloadUrl, FileRepository.get_agree h,
      ProjectConfigRepository.getForProject_agree h, getProvider_agree h]
  | getFile fileId => simp only [run, FileService.getFile, FileRepository.get_agree h]
  | listFiles params => simp only [run, FileService.listFiles, FileService.fileListResponse_agree h]
  | setTags fileId tags => simp only [run, FileService.setTags, FileService.modifyFile_agree h]
  | addTags fileId tags => simp only [run, FileService.addTags, FileService.modifyFile_agree h]
  | renameFile fileId req => simp only [run, FileService.renameFile, FileService.modifyFile_agree h]
  | moveFile fileId folderId =>
    simp only [run, FileService.moveFile, FileService.modifyFile_agree h]
  | deleteFile fileId => simp only [run, FileService.deleteFile, FileRepository.get_agree h]
  | listVersions fileId =>
    simp only [run, FileService.listVersions, FileRepository.get_agree h,
      FileVersionRepository.list_agree h]
  | getVersionDownloadUrl fileId versionId ttl =>
    simp only [run, FileService.getVersionDownloadUrl, FileRepository.get_agree h,
      FileVersionRepository.get_agree h, ProjectConfigRepository.getForProject_agree h,
      getProvider_agree h]
  | restoreVersion fileId versionId =>
    simp only [run, FileService.restoreVersion, FileRepository.get_agree h,
      FileVersionRepository.get_agree h]
  | multipartStart req =>
    simp only [run, MultipartUploadService.start, ProjectConfigRepository.getForProject_agree h,
      FileRepository.countInFlight_agree h, getProvider_agree h]
  | multipartPartUrl uploadId part ttl =>
    simp only [run, MultipartUploadService.partUrl, UploadSessionRepository.get_agree h,
      FileRepository.get_agree h, ProjectConfigRepository.getForProject_agree h,
      getProvider_agree h]
  | multipartComplete uploadId req =>
    simp only [run, MultipartUploadService.complete, UploadSessionRepository.get_agree h,
      FileRepository.get_agree h, ProjectConfigRepository.getForProject_agree h,
      getProvider_agree h]
  | multipartAbort uploadId =>
    simp only [run, MultipartUploadService.abort, UploadSessionRepository.get_agree h,
      FileRepository.get_agree h, getProvider_agree h]
  | createFolder req =>
    simp only [run, FolderService.createFolder, FolderService.newFolderPath,
      FolderRepository.get_agree h]
  | listFolders name =>
    simp only [run, FolderService.listFolders, FolderRepository.list_agree h]
  | getFolderByPath path =>
    simp only [run, FolderService.getByPath, FolderRepository.getByPath_agree h]
  | ensureFolderPath req => simp only [run, FolderService.ensurePath, resolvePath_agree h]
  | getFolder folderId => simp only [run, FolderService.getFolder, FolderRepository.get_agree h]
  | listFolderFiles folderId params =>
    simp only [run, FolderService.listFolderFiles, FolderRepository.get_agree h,
      FileService.fileListResponse_agree h]
  | deleteFolder folderId =>
    simp only [run, FolderService.deleteFolder, FolderRepository.hasSubfolders_agree h,
      FolderRepository.hasFiles_agree h, FolderRepository.get_agree h]
  | createSchema schema =>
    simp only [run, MetadataService.createSchema, MetadataSchemaRepository.getMaxVersion,
      MetadataSchemaRepository.deactivateAll, MetadataSchemaRepository.list_agree h,
      MetadataSchemaRepository.activeRows_agree h]
  | listSchemas =>
    simp only [run, MetadataService.listSchemas, MetadataSchemaRepository.list_agree h]
  | updateMetadata fileId metadata =>
    simp only [run, MetadataService.updateMetadata, MetadataService.validateIfRequired_agree h,
      FileService.modifyFile_agree h]
  | mergeMetadata fileId metadata =>
    simp only [run, MetadataService.mergeMetadata, FileRepository.get_agree h,
      MetadataService.validateIfRequired_agree h, FileService.modifyFile_agree h]
  | createWebhook req => rfl
  | listWebhooks => simp only [run, WebhookService.list, WebhookRepository.list_agree h]
  | updateWebhook webhookId req =>
    simp only [run, WebhookService.update, WebhookRepository.get_agree h]
  | deleteWebhook webhookId =>
    simp only [run, WebhookService.delete, WebhookRepository.get_agree h]
  | listDeliveries webhookId limit =>
    simp only [run, WebhookService.listDeliveries, WebhookRepository.get_agree h,
      WebhookRepository.listDeliveries_agree h]
  | createUploadToken req =>
    simp only [run, UploadTokenService.create, ProjectConfigRepository.getForProject_agree h,
      resolveTokenFolder_agree h]
  | getProjectConfig =>
    simp only [run, ProjectConfigService.getConfig, ProjectConfigRepository.getForProject_agree h]
  | updateUploadConfig req => exact ProjectConfigService.updateWith_agree h _ _ _
  | updateSecurityConfig req => exact ProjectConfigService.updateWith_agree h _ _ _
  | updateProcessingConfig req => exact ProjectConfigService.updateWith_agree h _ _ _
  | updateComplianceConfig req => exact ProjectConfigService.updateWith_agree h _ _ _
  | updateStorageConfig req =>
    simp only [run, StorageConfigService.updateConfig,
      StorageConfigRepository.getForProject_agree h]
  | getStorageConfig =>
    simp only [run, StorageConfigService.getConfig, StorageConfigRepository.getForProject_agree h]
  | verifyStorage =>
    simp only [run, StorageConfigService.verify, StorageConfigRepository.getForProject_agree h]
  | updateStorageSse sseEnabled =>
    simp only [run, StorageConfigService.updateSse, StorageConfigRepository.getForProject_agree h]
  | getProject => simp only [run, ProjectService.getProject, ProjectRepository.get_agree h]
  | updateProject req =>
    simp only [run, ProjectService.updateProject, ProjectRepository.get_agree h]
  | deleteProject => simp only [run, ProjectService.deleteProject, ProjectRepository.get_agree h]
  | createProject req =>
    simp only [run, ProjectService.createProject, ProjectService.requireFreeSlug,
      ProjectRepository.getBySlug_agree h]
  | listProjects params =>
    simp only [run, ProjectService.listProjects, ProjectRepository.list_agree h]
  | getUsage => exact UsageService.getUsage_agree h env hdb hdb'
  | getDashboard => exact DashboardService.getDashboard_agree h env hdb hdb'

/-! ### Runs of service calls -/

/-- The database after some calls, one after the other. -/
def runAll : List ServiceCall → Database → Database
  | [], db => db
  | c :: calls, db => runAll calls (commit db (c.result db)).2

theorem reached_runAll {db : Database} (h : Reached db) (calls : List ServiceCall) :
    Reached (runAll calls db) := by
  induction calls generalizing db with
  | nil => exact h
  | cons c calls ih => exact ih (h.call _ _ _ _)

/-- One committed call leaves the rows of other organisations alone. -/
theorem agree_commit {db : Database} (hdb : db.Good) (c : ServiceCall) {o : String}
    (ho : c.ctx.organizationId ≠ o) : Agree (orgRegion o) db (commit db (c.result db)).2 := by
  rcases hr : c.result db with e | ⟨r, ws⟩
  · exact .refl _ _
  · simp only [commit]
    split
    · refine (agree_compl_applyAll (Operation.sound hdb hr).confined).mono fun t w hw => ?_
      simp only [orgRegion_iff] at hw
      simp [Region.compl, tenantRegion, hw, Ne.symm ho]
    · exact .refl _ _

/-- A run of one organisation leaves the rows of another alone. -/
theorem agree_runAll {db : Database} (hdb : Reached db) {o : String} (calls : List ServiceCall)
    (ho : ∀ c ∈ calls, c.ctx.organizationId ≠ o) : Agree (orgRegion o) db (runAll calls db) := by
  induction calls generalizing db with
  | nil => exact .refl _ _
  | cons c calls ih =>
    have hc := agree_commit hdb.good c (ho c List.mem_cons_self)
    exact hc.trans (ih (hdb.call _ _ _ _) fun d hd => ho d (List.mem_cons_of_mem _ hd))

/-- **Isolation of organisations.**  After any calls made for organisation `A`, the rows of
another organisation `B` are what they were, and so is the outcome — response and writes,
or error — of every operation a caller of `B` could issue. -/
theorem organization_isolation {A : String} {ctxB : TenantContext}
    (hne : A ≠ ctxB.organizationId) {db : Database} (hdb : Reached db)
    (calls : List ServiceCall) (hA : ∀ c ∈ calls, c.ctx.organizationId = A) :
    (runAll calls db).restrict (orgRegion ctxB.organizationId)
        = db.restrict (orgRegion ctxB.organizationId)
      ∧ ∀ (env : Env) (projectId : String) (op : Operation),
          op.run ctxB env (runAll calls db) projectId = op.run ctxB env db projectId := by
  have h : Agree (orgRegion ctxB.organizationId) db (runAll calls db) :=
    agree_runAll hdb calls fun c hc => (hA c hc).trans_ne hne
  exact ⟨h.symm, fun env projectId op =>
    op.run_agree h.symm (reached_runAll hdb calls).good hdb.good env projectId⟩

/-- A project of one organisation, and another that reaches for it by its id. -/
theorem organization_isolation_foreign_project :
    let start := runAll [⟨orgContext "globex", devEnv "g" 1, "", .createProject devProject⟩]
      Database.empty
    let calls : List ServiceCall :=
      [⟨orgContext "acme", devEnv "a" 2, "g0", .updateSecurityConfig { allowedIps := some [] }⟩,
       ⟨orgContext "acme", devEnv "a" 3, "g0", .deleteProject⟩,
       ⟨orgContext "acme", devEnv "a" 4, "", .createProject devProject⟩]
    (runAll calls start).restrict (orgRegion "globex") = start.restrict (orgRegion "globex")
      ∧ ∀ (env : Env) (projectId : String) (op : Operation),
          op.run (orgContext "globex") env (runAll calls start) projectId
            = op.run (orgContext "globex") env start projectId :=
  organization_isolation (show "acme" ≠ (orgContext "globex").organizationId by decide)
    (reached_runAll .empty _) _ (by decide)

/-! ### Interleaved calls -/

/-- No call of a run draws an id that is taken. -/
def Collisionless : List ServiceCall → Database → Prop
  | [], _ => True
  | c :: calls, db =>
      (∀ r ws, c.result db = .ok (r, ws) → Admissible ws db)
        ∧ Collisionless calls (commit db (c.result db)).2

/-- The responses to the calls of one organisation. -/
def responsesTo (o : String) : List ServiceCall → Database → List (Except ApiError Response)
  | [], _ => []
  | c :: calls, db =>
      if c.ctx.organizationId = o then
        (commit db (c.result db)).1 :: responsesTo o calls (commit db (c.result db)).2
      else responsesTo o calls (commit db (c.result db)).2

/-- The calls of one organisation. -/
def callsOf (o : String) (calls : List ServiceCall) : List ServiceCall :=
  calls.filter fun c => c.ctx.organizationId == o

/-- Calls that commit the same writes keep databases in agreement. -/
theorem commit_agree {R : Region Table Owner} {db db' : Database} (h : Agree R db db')
    {x : ServiceResult} (hadm : ∀ r ws, x = .ok (r, ws) → Admissible ws db)
    (hadm' : ∀ r ws, x = .ok (r, ws) → Admissible ws db') :
    (commit db x).1 = (commit db' x).1 ∧ Agree R (commit db x).2 (commit db' x).2 := by
  rcases x with e | ⟨r, ws⟩
  · exact ⟨rfl, h⟩
  · simp only [commit, if_pos (hadm r ws rfl), if_pos (hadm' r ws rfl)]
    exact ⟨trivial, h.applyAll ws⟩

/-- **Noninterference**: an organisation gets the responses it would get if no other one
had made a call, however their calls interleave. -/
theorem noninterference {o : String} {db db' : Database} (hdb : Reached db) (hdb' : Reached db')
    (h : Agree (orgRegion o) db db') {calls : List ServiceCall} (hc : Collisionless calls db)
    (hc' : Collisionless (callsOf o calls) db') :
    responsesTo o calls db = responsesTo o (callsOf o calls) db' := by
  induction calls generalizing db db' with
  | nil => rfl
  | cons c calls ih =>
    by_cases ho : c.ctx.organizationId = o
    · have hcons : callsOf o (c :: calls) = c :: callsOf o calls := by simp [callsOf, ho]
      rw [hcons] at hc' ⊢
      have hres : c.result db = c.result db' :=
        c.op.run_agree (ho ▸ h) hdb.good hdb'.good c.env c.projectId
      have hstep := commit_agree h hc.1 (hres ▸ hc'.1)
      simp only [responsesTo, if_pos ho, ← hres] at hc' ⊢
      rw [hstep.1]
      exact congrArg _ (ih (hdb.call _ _ _ _) (hres ▸ hdb'.call _ _ _ _) hstep.2 hc.2
        (by simpa [Collisionless, ← hres] using hc'.2))
    · have hcons : callsOf o (c :: calls) = callsOf o calls := by simp [callsOf, ho]
      rw [hcons] at hc' ⊢
      simp only [responsesTo, if_neg ho]
      exact ih (hdb.call _ _ _ _) hdb' ((agree_commit hdb.good c ho).symm.trans h) hc.2 hc'

/-- Calls of two organisations; one reaches for the project of the other. -/
def devCalls : List ServiceCall :=
  [⟨orgContext "globex", devEnv "g" 1, "", .createProject devProject⟩,
   ⟨orgContext "acme", devEnv "a" 2, "g0", .deleteProject⟩,
   ⟨orgContext "acme", devEnv "a" 3, "", .createProject devProject⟩,
   ⟨orgContext "globex", devEnv "g" 4, "g0", .deleteProject⟩]

theorem noninterference_two : responsesTo "globex" devCalls Database.empty
    = responsesTo "globex" (callsOf "globex" devCalls) Database.empty := by
  refine noninterference .empty .empty (.refl _ _) ⟨?_, ?_, ?_, ?_, trivial⟩ ⟨?_, ?_, trivial⟩
  all_goals
    intro r ws h
    cases h
    try decide

end FileNest
