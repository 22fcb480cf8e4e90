import FileNest.Isolation

/-!
# What a scoped credential can reach

A project-scoped credential is stopped at other projects' URLs by the dependency
factories that check it, and an upload token by its two scopes.  The configuration
routes ask for neither, and the project, configuration and storage factories do not
look at the project of the token: what exactly gets through is the subject here.

## Main definitions

* `Request.response`, `Request.after`, `requests` — requests of one caller.
* `tokenRegion`, `ConfigUpdate` — what an upload token is for, and what else it may do.
* `projectRegion`, `ScopedTo` — confinement of a request to its caller's project.

## Main results

* `upload_token_confinement` — **a token that updates no configuration only touches the
  uploads of its project.**
* `scopedTo_iff` — **exactly the requests that are confined to the caller's project.**
-/

namespace FileNest

open RowStore ReadCommitted

/-! ### Requests of one caller -/

/-- The response to a request. -/
def Request.response (ctx : TenantContext) (env : Env) (req : Request) (db : Database) :
    Except ApiError Response := (commit db (handle ctx env req db)).1

/-- The database after a request. -/
def Request.after (ctx : TenantContext) (env : Env) (req : Request) (db : Database) : Database :=
  (commit db (handle ctx env req db)).2

/-- The database after a sequence of requests of one caller. -/
def requests (ctx : TenantContext) : List (Env × Request) → Database → Database
  | [], db => db
  | (env, req) :: reqs, db => requests ctx reqs (req.after ctx env db)

section Request

variable {ctx : TenantContext} {env : Env} {req : Request} {db : Database}

/-- A request fails before its operation, or is its operation. -/
theorem handle_cases (ctx : TenantContext) (env : Env) (req : Request) (db : Database) :
    (∃ e, handle ctx env req db = .error e)
      ∨ handle ctx env req db = req.op.run ctx env db req.projectId := by
  rcases h : handle ctx env req db with e | ⟨r, ws⟩
  · exact .inl ⟨e, rfl⟩
  · exact .inr (handle_ok h).2.2.symm

theorem Reached.request (h : Reached db) (ctx : TenantContext) (env : Env) (req : Request) :
    Reached (req.after ctx env db) := by
  simp only [Request.after]
  rcases handle_cases ctx env req db with ⟨e, he⟩ | hr
  · rw [he]
    exact h
  · rw [hr]
    exact h.call ctx env req.projectId req.op

/-- What a request leaves alone: everything, if it fails, and everything outside the
region its writes are confined to. -/
theorem agree_after {R : Region Table Owner}
    (h : ∀ r ws, handle ctx env req db = .ok (r, ws) → ConfinedTo R db ws) :
    Agree R.compl db (req.after ctx env db) := by
  simp only [Request.after]
  rcases hr : handle ctx env req db with e | ⟨r, ws⟩
  · exact .refl _ _
  · simp only [commit]
    split
    · exact agree_compl_applyAll (h r ws hr)
    · exact .refl _ _

end Request

/-! ### Upload tokens -/

/-- The tables an upload goes through. -/
def tokenTables : List Table := [.files, .fileVersions, .uploadSessions, .outboxMessages]

/-- The uploads of a token's project. -/
def tokenRegion (record : UploadToken) : Region Table Owner :=
  tenantRegion record.organizationId record.projectId tokenTables

/-- The four updates of a configuration. -/
def Operation.updatesConfig : Operation → Bool
  | updateUploadConfig _ | updateSecurityConfig _ | updateProcessingConfig _
  | updateComplianceConfig _ => true
  | _ => false

/-- The request updates the configuration of a project of the caller's organisation. -/
def ConfigUpdate (ctx : TenantContext) (req : Request) (db : Database) : Prop :=
  req.op.updatesConfig = true ∧
    ∃ config, ProjectConfigRepository.getForProject db req.projectId ctx.organizationId = .ok config

/-- No request of a run updates a configuration. -/
def NoConfigUpdate (ctx : TenantContext) : List (Env × Request) → Database → Prop
  | [], _ => True
  | (env, req) :: reqs, db =>
      ¬ConfigUpdate ctx req db ∧ NoConfigUpdate ctx reqs (req.after ctx env db)

/-- What the scopes of a token admit: uploads behind the project check, reading the
configuration, and updating it. -/
theorem tokenOperation {op : Operation}
    (h : ∀ s ∈ op.requiredScopes, s ∈ ["files:upload", "files:read"]) :
    (op.dependency = .projectAndAllowlist ∧ (∀ t ∈ op.tables, t ∈ tokenTables)
        ∧ ∀ env p, op.target env p = p)
      ∨ op.tables = [] ∨ op.updatesConfig = true := by
  cases op <;> simp_all [Operation.requiredScopes, Operation.dependency, Operation.tables,
    Operation.updatesConfig, Operation.target, tokenTables]

/-- An update of a configuration that succeeds has found one. -/
theorem configUpdate_of_run {ctx : TenantContext} {env : Env} {req : Request} {db : Database}
    {x : Response × List DbWrite} (hop : req.op.updatesConfig = true)
    (h : req.op.run ctx env db req.projectId = .ok x) : ConfigUpdate ctx req db := by
  refine ⟨hop, ?_⟩
  have key : ∀ change, ProjectConfigService.updateWith ctx env db req.projectId change = .ok x →
      ∃ config, ProjectConfigRepository.getForProject db req.projectId ctx.organizationId
        = .ok config := by
    intro change h
    simp only [ProjectConfigService.updateWith, bind_eq_ok] at h
    exact ⟨_, h.choose_spec.1⟩
  generalize req.op = op at hop h
  cases op with
  | updateUploadConfig _ => exact key _ h
  | updateSecurityConfig _ => exact key _ h
  | updateProcessingConfig _ => exact key _ h
  | updateComplianceConfig _ => exact key _ h
  | _ => simp [Operation.updatesConfig] at hop

/-- One request of a token. -/
theorem tokenRequest_agree (record : UploadToken) {db : Database} (hdb : db.Good) {env : Env}
    {req : Request} (h : ¬ConfigUpdate (uploadTokenContext record) req db) :
    Agree (tokenRegion record).compl db (req.after (uploadTokenContext record) env db) := by
  refine agree_after fun r ws hr => ?_
  obtain ⟨hcheck, hscope, hrun⟩ := handle_ok hr
  have hconf := (handle_sound hdb hr).confined
  rcases tokenOperation (requireScope_ok_iff.mp hscope) with ⟨hdep, htables, htarget⟩ | hnil | hup
  · -- the dependency compares the project of the token with the one addressed
    rw [hdep] at hcheck
    obtain ⟨_, hproject, -⟩ := bind_eq_ok.mp hcheck
    have hp := requireProject_ok_iff.mp hproject _ rfl
    refine hconf.mono fun t o ho => ?_
    simp only [tenantRegion_iff, htarget, ← hp] at ho
    simpa [tokenRegion, uploadTokenContext] using ⟨htables t ho.1, ho.2⟩
  · refine hconf.mono fun t o ho => ?_
    simp [hnil] at ho
  · exact absurd (configUpdate_of_run hup hrun) h

/-- Agreement outside the uploads of a project is equality of the other tables. -/
theorem eq_of_agree_compl {o p : String} {ts : List Table} {db db' : Database}
    (h : Agree (tenantRegion o p ts).compl db db') {t : Table} (ht : t ∉ ts) : db t = db' t := by
  have key : ∀ d : Database, d.restrict (tenantRegion o p ts).compl t = d t := by
    intro d
    refine List.filter_eq_self.mpr fun r _ => ?_
    simp [Region.compl, tenantRegion, ht]
  rw [← key db, ← key db', h]

/-- **Upload-token confinement.**  Whatever requests a token makes, as long as none of them
updates a configuration, only uploads of its project change: every other row of every
table is what it was, and the other tables are what they were. -/
theorem upload_token_confinement (record : UploadToken) {db : Database} (hdb : Reached db)
    (reqs : List (Env × Request)) (h : NoConfigUpdate (uploadTokenContext record) reqs db) :
    (requests (uploadTokenContext record) reqs db).restrict (tokenRegion record).compl
        = db.restrict (tokenRegion record).compl
      ∧ ∀ t ∉ tokenTables, requests (uploadTokenContext record) reqs db t = db t := by
  have hagree : Agree (tokenRegion record).compl db
      (requests (uploadTokenContext record) reqs db) := by
    induction reqs generalizing db with
    | nil => exact .refl _ _
    | cons step reqs ih =>
      exact (tokenRequest_agree record hdb.good h.1).trans (ih (hdb.request _ _ _) h.2)
  exact ⟨hagree.symm, fun t ht => (eq_of_agree_compl hagree ht).symm⟩

/-- A project and an upload token issued for it. -/
def tokenDatabase : Database :=
  runAll [⟨orgContext "acme", devEnv "p" 1, "", .createProject devProject⟩,
    ⟨orgContext "acme", devEnv "t" 2, "p0", .createUploadToken {}⟩] Database.empty

/-- The token of `tokenDatabase`. -/
def devToken : UploadToken where
  id := "t0"
  organizationId := "acme"
  projectId := "p0"
  token := "fn_upload_token_tsecret"
  maxSize := some defaultMaxSize
  allowedMimeTypes := some ["*/*"]
  maxFiles := some defaultMaxFiles
  folderId := none
  defaultMetadata := none
  defaultTags := none
  ownerUserId := none
  ownerOrgId := none
  expiresAt := 2 + 3600 * second
  createdAt := 2

theorem reached_tokenDatabase : Reached tokenDatabase := reached_runAll .empty _

/-- An upload with the token, and a look at the configuration. -/
theorem upload_token_confinement_upload :
    let reqs : List (Env × Request) :=
      [(devEnv "f" 3, ⟨"p0", .initUpload ⟨"a.txt", "text/plain", 1, none, [], []⟩⟩),
       (devEnv "c" 4, ⟨"p0", .confirmUpload "f0"⟩), (devEnv "g" 5, ⟨"p0", .getProjectConfig⟩)]
    devToken ∈ tokenDatabase .uploadTokens
      ∧ (requests (uploadTokenContext devToken) reqs tokenDatabase .files).length = 1
      ∧ (requests (uploadTokenContext devToken) reqs tokenDatabase).restrict
            (tokenRegion devToken).compl
          = tokenDatabase.restrict (tokenRegion devToken).compl
      ∧ ∀ t ∉ tokenTables,
          requests (uploadTokenContext devToken) reqs tokenDatabase t = tokenDatabase t :=
  ⟨by decide, by decide, upload_token_confinement devToken reached_tokenDatabase _
    (by simp [NoConfigUpdate, ConfigUpdate, Operation.updatesConfig])⟩

/-- The configuration routes ask for no scope: the token lifts the project's IP allowlist,
size limit or virus scan, here by one `PATCH`. -/
theorem upload_token_updates_config :
    ¬∀ (record : UploadToken) (db : Database) (reqs : List (Env × Request)), Reached db →
      verifyUploadToken db 3 record.token = .ok (uploadTokenContext record) →
        (requests (uploadTokenContext record) reqs db).restrict (tokenRegion record).compl
          = db.restrict (tokenRegion record).compl := by
  intro h
  have hrun := h devToken tokenDatabase
    [(devEnv "x" 3, ⟨"p0", .updateProcessingConfig { virusScanEnabled := some false }⟩)]
    reached_tokenDatabase rfl
  have htable := eq_of_agree_compl (t := .projectConfigs) hrun (by decide)
  exact absurd htable (by decide)

/-! ### Project-scoped credentials -/

/-- Every row of a project. -/
def projectRegion (organizationId projectId : String) : Region Table Owner := fun _ o =>
  o.organizationId == organizationId && o.projectId == projectId

@[simp] theorem projectRegion_iff {organizationId projectId : String} {t : Table} {o : Owner} :
    projectRegion organizationId projectId t o = true ↔
      o.organizationId = organizationId ∧ o.projectId = projectId := by
  simp [projectRegion]

/-- A request of a project-scoped caller stays within the project: it changes no row of
another project, and if it is addressed to another one, its response does not depend on
what that project's rows are. -/
structure ScopedTo (ctx : TenantContext) (env : Env) (req : Request) : Prop where
  unchanged : ∀ q, ctx.projectId ≠ some q → ∀ db, Reached db →
    Agree (projectRegion ctx.organizationId q) db (req.after ctx env db)
  independent : ctx.projectId ≠ some req.projectId → ∀ db db', Reached db → Reached db' →
    Agree (projectRegion ctx.organizationId req.projectId).compl db db' →
      req.response ctx env db = req.response ctx env db'

/-- A project-addressed request changes no row of a project it is not addressed to. -/
theorem agree_of_addressed {ctx : TenantContext} {env : Env} {req : Request} {db : Database}
    (hdb : db.Good) (haddr : req.op.projectAddressed = true) {q : String}
    (hq : req.projectId ≠ q) :
    Agree (projectRegion ctx.organizationId q) db (req.after ctx env db) := by
  have htarget : req.op.target env req.projectId = req.projectId := by
    generalize req.op = op at haddr
    cases op <;> first | rfl | simp [Operation.projectAddressed] at haddr
  refine (agree_after fun r ws hr => (handle_sound hdb hr).confined).mono fun t o ho => ?_
  simp only [projectRegion_iff] at ho
  simp [Region.compl, tenantRegion, htarget, ho, hq.symm]

/-- A request that fails with the same error on every database. -/
theorem scopedTo_of_error {ctx : TenantContext} {env : Env} {req : Request} {e : ApiError}
    (h : ∀ db, handle ctx env req db = .error e) : ScopedTo ctx env req where
  unchanged _ _ db _ := by
    simp only [Request.after, h, commit]
    exact .refl _ _
  independent _ db db' _ _ _ := by simp only [Request.response, h, commit]

/-- The project of the token is checked first, where it is checked. -/
theorem handle_of_mismatch {ctx : TenantContext} {p : String} (hctx : ctx.projectId = some p)
    {env : Env} {req : Request} (hne : p ≠ req.projectId)
    (hdep : req.op.dependency ≠ .none) (db : Database) :
    handle ctx env req db = .error projectMismatch := by
  have hproject : requireProject ctx req.projectId = .error projectMismatch := by
    simp only [requireProject, hctx, if_neg hne]
    rfl
  simp only [handle]
  cases hd : req.op.dependency with
  | none => exact absurd hd hdep
  | project => simp only [Dependency.check, hproject]; rfl
  | projectAndAllowlist => simp only [Dependency.check, hproject]; rfl

/-- A route whose factory checks nothing still asks for its scopes. -/
theorem handle_of_missing_scope {ctx : TenantContext} {env : Env} {req : Request}
    (hdep : req.op.dependency = .none) {e : ApiError}
    (hscope : requireScope ctx req.op.requiredScopes = .error e) (db : Database) :
    handle ctx env req db = .error e := by
  simp only [handle, hdep, Dependency.check, hscope]
  rfl

/-! ### Telling whether a project exists -/

/-- The response is a 404 of the domain. -/
def isNotFound {α : Type} : Except ApiError α → Bool
  | .error (.filenest .notFound _ _) => true
  | _ => false

theorem isNotFound_commit (db : Database) (x : ServiceResult) :
    isNotFound (commit db x).1 = isNotFound x := by
  rcases x with e | ⟨r, ws⟩
  · cases e with
    | filenest kind message detail => cases kind <;> rfl
    | _ => rfl
  · simp only [commit]
    split <;> rfl

theorem isNotFound_bind {α β : Type} {x : Except ApiError α} {f : α → Except ApiError β}
    (hx : isNotFound x = false) (hf : ∀ a, isNotFound (f a) = false) :
    isNotFound (x >>= f) = false := by
  rcases x with e | a
  · cases e with
    | filenest kind message detail => cases kind <;> first | rfl | simp [isNotFound] at hx
    | _ => rfl
  · exact hf a

/-- The rows of a project with storage of its own and no credentials yet. -/
def bareProject (organizationId projectId : String) : Project where
  id := projectId
  organizationId := organizationId
  name := "Docs"
  slug := "docs"
  description := none
  storageMode := "byob"
  storageProvider := "s3"
  createdAt := 1
  updatedAt := 1

@[inherit_doc bareProject]
def bareStorage (organizationId projectId : String) : StorageConfig where
  id := projectId
  organizationId := organizationId
  projectId := projectId
  storageMode := "byob"
  provider := "s3"
  status := "pending_verification"
  sseEnabled := true
  createdAt := 1
  updatedAt := 1

@[inherit_doc bareProject]
def bareConfig (organizationId projectId : String) : ProjectConfig where
  id := projectId
  organizationId := organizationId
  projectId := projectId
  createdAt := 1
  updatedAt := 1

/-- A database with nothing but one project. -/
def projectDatabase (organizationId projectId : String) : Database :=
  applyAll [.insert .projects (bareProject organizationId projectId),
    .insert .storageConfigs (bareStorage organizationId projectId),
    .insert .projectConfigs (bareConfig organizationId projectId)] Database.empty

section ProjectDatabase

variable (o q : String)

/-- `create_project` reaches it, if that is the id drawn. -/
theorem reached_projectDatabase : Reached (projectDatabase o q) :=
  Reached.empty.run
    (.service (orgContext o) { devEnv "" 1 with uuid4 := fun _ => q } ""
      (.createProject { name := "Docs", slug := "docs", storageMode := "byob" }))
    rfl ⟨fun _ hr => absurd hr List.not_mem_nil, fun _ hr => absurd hr List.not_mem_nil,
      fun _ hr => absurd hr List.not_mem_nil, trivial⟩

@[simp] theorem projectDatabase_get :
    ProjectRepository.get (projectDatabase o q) q o = .ok (bareProject o q) := by
  have : projectDatabase o q .projects = [bareProject o q] := rfl
  simp [ProjectRepository.get, this, bareProject]
  rfl

@[simp] theorem projectDatabase_storageConfig :
    StorageConfigRepository.getForProject (projectDatabase o q) q o = .ok (bareStorage o q) := by
  have : projectDatabase o q .storageConfigs = [bareStorage o q] := rfl
  simp [StorageConfigRepository.getForProject, this, bareStorage]
  rfl

@[simp] theorem projectDatabase_config :
    ProjectConfigRepository.getForProject (projectDatabase o q) q o = .ok (bareConfig o q) := by
  have : projectDatabase o q .projectConfigs = [bareConfig o q] := rfl
  simp [ProjectConfigRepository.getForProject, this, bareConfig]
  rfl

/-- Without the project there is nothing else. -/
theorem agree_projectDatabase :
    Agree (projectRegion o q).compl Database.empty (projectDatabase o q) := by
  refine agree_compl_applyAll fun w hw => ?_
  simp only [List.mem_cons, List.not_mem_nil, or_false] at hw
  rcases hw with rfl | rfl | rfl <;> simp [Write.ConfinedTo, bareProject, bareStorage, bareConfig]

end ProjectDatabase

/-- A route whose factory checks nothing, addressed to a project that does not exist. -/
theorem isNotFound_empty {op : Operation} (hdep : op.dependency = .none)
    (haddr : op.projectAddressed = true) (ctx : TenantContext) (env : Env) (q : String) :
    isNotFound (op.run ctx env Database.empty q) = true := by
  cases op with
  | getProjectConfig | updateUploadConfig _ | updateSecurityConfig _ | updateProcessingConfig _
  | updateComplianceConfig _ | updateStorageConfig _ | getStorageConfig | verifyStorage
  | updateStorageSse _ | getProject | updateProject _ | deleteProject => rfl
  | createProject _ | listProjects _ | getUsage | getDashboard =>
    simp [Operation.projectAddressed] at haddr
  | _ => simp [Operation.dependency] at hdep

theorem isNotFound_buildByobCredentials (req : StorageConfigUpdateRequest) :
    isNotFound (buildByobCredentials "s3" req) = false := by
  have hp : Text.lower "s3" ∈ ["s3", "minio", "rustfs", "r2"] := by decide
  simp only [buildByobCredentials, if_pos hp]
  split <;> rfl

theorem isNotFound_orStorageError {α : Type} (x : Except (String × Fields) α) :
    isNotFound (orStorageError x) = false := by
  cases x <;> rfl

/-- The same route, addressed to a project that does. -/
theorem isNotFound_projectDatabase {op : Operation} (hdep : op.dependency = .none)
    (haddr : op.projectAddressed = true) (ctx : TenantContext) (env : Env) (q : String) :
    isNotFound (op.run ctx env (projectDatabase ctx.organizationId q) q) = false := by
  have hupdate : ∀ change, isNotFound (ProjectConfigService.updateWith ctx env
      (projectDatabase ctx.organizationId q) q change) = false := by
    intro change
    simp only [ProjectConfigService.updateWith, projectDatabase_config]
    rfl
  cases op with
  | getProjectConfig =>
    simp only [Operation.run, ProjectConfigService.getConfig, projectDatabase_config]
    rfl
  | updateUploadConfig req => exact hupdate _
  | updateSecurityConfig req => exact hupdate _
  | updateProcessingConfig req => exact hupdate _
  | updateComplianceConfig req => exact hupdate _
  | updateStorageConfig req =>
    simp only [Operation.run, StorageConfigService.updateConfig, projectDatabase_storageConfig]
    change isNotFound (buildByobCredentials "s3" req >>= _) = false
    exact isNotFound_bind (isNotFound_buildByobCredentials req) fun _ =>
      isNotFound_bind (isNotFound_orStorageError _) fun _ => rfl
  | getStorageConfig =>
    simp only [Operation.run, StorageConfigService.getConfig, projectDatabase_storageConfig]
    rfl
  | verifyStorage =>
    simp only [Operation.run, StorageConfigService.verify, projectDatabase_storageConfig]
    rfl
  | updateStorageSse sseEnabled =>
    simp only [Operation.run, StorageConfigService.updateSse, projectDatabase_storageConfig]
    rfl
  | getProject =>
    simp only [Operation.run, ProjectService.getProject, projectDatabase_get]
    rfl
  | updateProject req =>
    simp only [Operation.run, ProjectService.updateProject, projectDatabase_get]
    rfl
  | deleteProject =>
    simp only [Operation.run, ProjectService.deleteProject, projectDatabase_get]
    rfl
  | createProject _ | listProjects _ | getUsage | getDashboard =>
    simp [Operation.projectAddressed] at haddr
  | _ => simp [Operation.dependency] at hdep

/-- A request that passes a factory that checks nothing is its operation. -/
theorem handle_of_open {ctx : TenantContext} {env : Env} {req : Request}
    (hdep : req.op.dependency = .none) (hscope : requireScope ctx req.op.requiredScopes = .ok ())
    (db : Database) : handle ctx env req db = req.op.run ctx env db req.projectId := by
  have hmetadata : req.op.metadataInvalid = false := by
    generalize req.op = op at hdep
    cases op <;> first | rfl | simp [Operation.dependency] at hdep
  simp only [handle, hdep, Dependency.check, hscope, hmetadata]
  rfl

/-- **The requests confined to the caller's project**: those addressed to it, those whose
factory checks the project of the token, and those whose scopes the caller lacks. -/
theorem scopedTo_iff {ctx : TenantContext} {p : String} (hctx : ctx.projectId = some p)
    (env : Env) {req : Request} (haddr : req.op.projectAddressed = true) :
    ScopedTo ctx env req ↔
      req.projectId = p ∨ req.op.dependency ≠ .none
        ∨ ∃ s ∈ req.op.requiredScopes, s ∉ ctx.scopes := by
  constructor
  · intro h
    by_contra hcon
    simp only [not_or, not_not, not_exists, not_and] at hcon
    obtain ⟨hne, hdep, hscopes⟩ := hcon
    have hscope := requireScope_ok_iff.mpr hscopes
    have hres := h.independent (by simpa [hctx, eq_comm] using hne) _ _ Reached.empty
      (reached_projectDatabase ctx.organizationId req.projectId) (agree_projectDatabase _ _)
    have hfound := congrArg isNotFound hres
    simp only [Request.response, isNotFound_commit, handle_of_open hdep hscope,
      isNotFound_empty hdep haddr, isNotFound_projectDatabase hdep haddr] at hfound
    cases hfound
  · intro h
    by_cases hp : req.projectId = p
    · -- nothing is said about the responses of the caller's own project
      refine ⟨fun q hq db hdb => agree_of_addressed hdb.good haddr ?_, fun hne => ?_⟩
      · rintro rfl
        exact hq (by rw [hctx, hp])
      · exact absurd (by rw [hctx, hp]) hne
    · by_cases hdep : req.op.dependency = .none
      · obtain ⟨s, hs, hmissing⟩ := (h.resolve_left hp).resolve_left (not_not.mpr hdep)
        rcases hr : requireScope ctx req.op.requiredScopes with e | ⟨⟩
        · exact scopedTo_of_error (handle_of_missing_scope hdep hr)
        · exact absurd (requireScope_ok_iff.mp hr s hs) hmissing
      · exact scopedTo_of_error (handle_of_mismatch hctx (Ne.symm hp) hdep)

/-- A file of another project, asked for with a token. -/
theorem scopedTo_getFile :
    ScopedTo (uploadTokenContext devToken) (devEnv "x" 3) ⟨"q0", .getFile "f0"⟩ :=
  (scopedTo_iff (p := "p0") rfl _ rfl).mpr (.inr (.inl (by decide)))

/-- Two projects of one organisation, and a credential of the first that switches off the
virus scan of the second. -/
theorem project_token_updates_other_project :
    let db := runAll [⟨orgContext "acme", devEnv "p" 1, "", .createProject devProject⟩,
      ⟨orgContext "acme", devEnv "q" 2, "", .createProject ⟨"Site", "site", none, "managed", "s3",
        by decide, by decide, by decide⟩⟩] Database.empty
    let ctx := uploadTokenContext devToken
    let req : Request := ⟨"q0", .updateProcessingConfig { virusScanEnabled := some false }⟩
    Reached db ∧ ctx.projectId = some "p0" ∧ req.op.projectAddressed = true
      ∧ ¬Agree (projectRegion "acme" "q0") db (req.after ctx (devEnv "x" 3) db) := by
  refine ⟨reached_runAll .empty _, rfl, rfl, fun h => ?_⟩
  exact absurd (congrFun h .projectConfigs) (by decide)

end FileNest
