import FileNest.Uploads.Settlement
import FileNest.Uploads.TokenConstraints

/-!
# Single-shot and multipart uploads

For callers with an API key or a session the two ways to upload a file come to the same:
they are accepted together, and what `init_upload` and `confirm_upload` leave in the
database is what a multipart start and its completion leave there, but for the ids drawn,
the storage key built from one of them, and the times.

## Main definitions

* `callerContext` — the context of an API key or a session.
* `singleShotUpload`, `multipartUpload` — two requests, one after the other.
* `uploadOutcome` — what an upload leaves behind, given its ids and times.

## Main results

* `uploads_agree` — **both are accepted alike, and leave this behind.**
-/

namespace FileNest

open RowStore

/-- The context of an API key or a session: organisation, project, actor, scopes and test
mode are all it has. -/
def callerContext (organizationId : String) (projectId : Option String) (actorId : String)
    (scopes : List String) (isTestMode : Bool) : TenantContext where
  organizationId := organizationId
  projectId := projectId
  actorId := actorId
  scopes := scopes
  isTestMode := isTestMode

/-! ### Two requests -/

section Requests

variable (ctx : TenantContext) (first second : Env) (db : Database) (projectId : String)
  (req : UploadInitRequest)

/-- `init_upload`, then `confirm_upload` with the id of its answer. -/
def singleShotUpload : Except ApiError Response × Database :=
  let started := commit db (FileService.initUpload ctx first db projectId req)
  match started.1 with
  | .ok (.uploadInit fileId _ _) =>
      commit started.2 (FileService.confirmUpload ctx second started.2 projectId fileId)
  | answer => (answer, started.2)

/-- A multipart start, then its completion with the id of its answer. -/
def multipartUpload (parts : List (ℕ × String)) : Except ApiError Response × Database :=
  let started := commit db (MultipartUploadService.start ctx first db projectId req.toMultipart)
  match started.1 with
  | .ok (.multipartStart uploadId _) =>
      commit started.2
        (MultipartUploadService.complete ctx second started.2 projectId uploadId { parts := parts })
  | answer => (answer, started.2)

end Requests

/-- The storage calls of an upload answer. -/
structure StorageClient.Answers (storage : StorageClient) : Prop where
  presigns : ∀ p key contentType sizeBytes ttl, ∃ url,
    storage.generatePresignedUploadUrl p key contentType sizeBytes ttl = .ok url
  starts : ∀ p key contentType, ∃ uploadId,
    storage.createMultipartUpload p key contentType = .ok uploadId
  completes : ∀ p key uploadId parts,
    storage.completeMultipartUpload p key uploadId parts = .ok ()

/-- The ids a request draws for an upload are on no row. -/
def Env.Fresh (env : Env) (db : Database) : Prop :=
  ∀ n < 2, ∀ t, ∀ r ∈ db t, pk r ≠ env.uuid4 n

/-- Two requests to one deployment, with ids of their own and storage that answers. -/
structure TwoRequests (first second : Env) (db : Database) : Prop where
  settings_eq : second.settings = first.settings
  crypto_eq : second.crypto = first.crypto
  first_answers : first.storage.Answers
  second_answers : second.storage.Answers
  first_fresh : first.Fresh db
  second_fresh : second.Fresh db
  draws_ne : ∀ m < 2, ∀ n < 2, second.uuid4 m ≠ first.uuid4 n

/-! ### What an upload leaves behind -/

/-- The ids and times of an upload. -/
structure UploadDraws where
  fileId : String
  versionId : String
  eventId : String
  startedAt : ℕ
  settledAt : ℕ

/-- What two requests draw. -/
def uploadDraws (first second : Env) : UploadDraws where
  fileId := first.uuid4 0
  versionId := second.uuid4 0
  eventId := second.uuid4 1
  startedAt := first.now
  settledAt := second.now

/-- A file, perhaps a version, and the last event. -/
structure Uploaded where
  file : File
  version : Option FileVersion
  event : OutboxMessage

section Outcome

variable (ctx : TenantContext) (projectId : String) (config : ProjectConfig)
  (req : UploadInitRequest) (draws : UploadDraws)

/-- The file of an upload when it begins. -/
def newFile : File where
  id := draws.fileId
  organizationId := ctx.organizationId
  projectId := projectId
  filename := req.filename
  contentType := req.contentType
  sizeBytes := req.sizeBytes
  folderId := req.folderId
  tags := dictFromKeys req.tags
  metadata := req.metadata
  storageKey := some (storageKey ctx.organizationId projectId draws.fileId)
  createdAt := draws.startedAt
  updatedAt := draws.startedAt

/-- What an upload leaves behind, given its ids and times. -/
def uploadOutcome : Uploaded where
  file :=
    { newFile ctx projectId req draws with
      status := settledStatus config
      versionCount := bif config.versioningEnabled then 1 else 0
      updatedAt := draws.settledAt }
  version := bif config.versioningEnabled then
      some
        { id := draws.versionId
          fileId := draws.fileId
          organizationId := ctx.organizationId
          projectId := projectId
          versionNumber := 1
          storageKey := storageKey ctx.organizationId projectId draws.fileId
          sizeBytes := req.sizeBytes
          contentType := req.contentType
          createdAt := draws.settledAt }
    else none
  event := settleEvent ctx projectId config (newFile ctx projectId req draws) draws.eventId
    draws.settledAt

end Outcome

/-- One file and at most one version more than before, and the event is the last one. -/
structure Leaves (before after : Database) (u : Uploaded) : Prop where
  files : after .files = before .files ++ [u.file]
  versions : after .fileVersions = before .fileVersions ++ u.version.toList
  events : ∃ earlier, after .outboxMessages = before .outboxMessages ++ earlier ++ [u.event]

/-! ### Callers without a token -/

/-- The context carries nothing of an upload token. -/
structure NoToken (ctx : TenantContext) : Prop where
  ownerUserId : ctx.ownerUserId = none
  ownerOrgId : ctx.ownerOrgId = none
  folderId : ctx.uploadTokenFolderId = none
  defaultMetadata : ctx.uploadTokenDefaultMetadata = none
  defaultTags : ctx.uploadTokenDefaultTags = none
  allowedMimeTypes : ctx.uploadTokenAllowedMimeTypes = none
  maxSize : ctx.uploadTokenMaxSize = none

section Begin

variable {ctx : TenantContext} {first second : Env} {db : Database} {projectId : String}
  {req : UploadInitRequest}

theorem NoToken.allows (h : NoToken ctx) (sizeBytes : ℤ) (contentType : String) :
    TokenAllows ctx sizeBytes contentType := by
  constructor
  · intro m hm
    rw [h.maxSize] at hm
    cases hm
  · intro types htypes
    rw [h.allowedMimeTypes] at htypes
    cases htypes

/-- The file such a caller begins an upload with, at either entry point. -/
theorem NoToken.initRecord_eq (h : NoToken ctx) (second : Env) :
    FileService.initRecord ctx first projectId req
      = newFile ctx projectId req (uploadDraws first second) := by
  have hfolder : ctx.uploadFolder req.folderId = req.folderId := by
    rw [TenantContext.uploadFolder, h.folderId]
    cases ctx.isUploadToken <;> rfl
  have hmetadata : ctx.uploadMetadata req.metadata = req.metadata := by
    rw [TenantContext.uploadMetadata, h.defaultMetadata]
    cases ctx.isUploadToken <;> rfl
  have htags : ctx.uploadTags req.tags = req.tags := by
    rw [TenantContext.uploadTags, h.defaultTags]
    cases ctx.isUploadToken <;> rfl
  rw [FileService.initRecord, hfolder, hmetadata, htags, h.ownerUserId, h.ownerOrgId]
  rfl

theorem getProvider_congr (ctx : TenantContext) (projectId : String) {env env' : Env}
    {db db' : Database} (hsettings : env'.settings = env.settings)
    (hcrypto : env'.crypto = env.crypto) (hstorage : db' .storageConfigs = db .storageConfigs) :
    getProvider ctx env' db' projectId = getProvider ctx env db projectId := by
  rw [getProvider, getProvider, StorageConfigRepository.getForProject,
    StorageConfigRepository.getForProject, hsettings, hcrypto, hstorage]

/-- **Both entry points accept what the project admits.** -/
theorem NoToken.start_accepts_iff (h : NoToken ctx) (db : Database) (projectId : String)
    (req : UploadInitRequest) {env env' : Env} (hsettings : env'.settings = env.settings)
    (hcrypto : env'.crypto = env.crypto) (hanswers : env.storage.Answers)
    (hanswers' : env'.storage.Answers) :
    (∃ x, MultipartUploadService.start ctx env db projectId req.toMultipart = .ok x)
      ↔ ∃ x, FileService.initUpload ctx env' db projectId req = .ok x := by
  have hprovider := getProvider_congr ctx projectId hsettings hcrypto
    (rfl : db .storageConfigs = db .storageConfigs)
  constructor
  · rintro ⟨⟨r, ws⟩, hstart⟩
    obtain ⟨config, provider, uploadId, hadmits, -, -, -⟩ :=
      MultipartUploadService.start_eq_ok.mp hstart
    -- what the project admits is the same, and storage answers either way
    obtain ⟨url, hurl⟩ := hanswers'.presigns provider
      (storageKey ctx.organizationId projectId (env'.uuid4 0)) req.contentType req.sizeBytes
      (resolveTtl config none)
    have hadmits' : ProjectAdmits ctx env' db projectId req.filename req.contentType req.sizeBytes
        config provider :=
      ⟨hadmits.config_eq, hadmits.validates, hadmits.inFlight, hprovider.trans hadmits.provider_eq⟩
    exact ⟨_, FileService.initUpload_eq_ok.mpr
      ⟨config, provider, url, hadmits', fun _ => h.allows _ _, hurl, rfl, rfl⟩⟩
  · rintro ⟨⟨r, ws⟩, hinit⟩
    obtain ⟨config, provider, url, hadmits, -, -, -, -⟩ := FileService.initUpload_eq_ok.mp hinit
    obtain ⟨uploadId, huploadId⟩ := hanswers.starts provider
      (storageKey ctx.organizationId projectId (env.uuid4 0)) req.contentType
    have hadmits' : ProjectAdmits ctx env db projectId req.filename req.contentType req.sizeBytes
        config provider :=
      ⟨hadmits.config_eq, hadmits.validates, hadmits.inFlight,
        hprovider.symm.trans hadmits.provider_eq⟩
    exact ⟨_, MultipartUploadService.start_eq_ok.mpr
      ⟨config, provider, uploadId, hadmits', huploadId, rfl, rfl⟩⟩

end Begin

/-! ### Settling -/

/-- A row that was appended is the one a query finds, if it matches no other. -/
theorem oneOr_filter_append {α : Type} {e : ApiError} {rows : List α} {row : α} {p : α → Bool}
    (hrows : ∀ r ∈ rows, p r = false) (hrow : p row = true) :
    oneOr e ((rows ++ [row]).filter p) = .ok row := by
  have hnone : rows.filter p = [] := List.filter_eq_nil_iff.mpr fun r hr => by simp [hrows r hr]
  rw [List.filter_append, hnone, List.nil_append, List.filter_cons_of_pos hrow]
  rfl

/-- A database in which an upload has begun. -/
structure Begun (before db : Database) (record : File) : Prop where
  files : db .files = before .files ++ [record]
  fresh : ∀ f ∈ before .files, File.id f ≠ record.id
  versions : db .fileVersions = before .fileVersions
  configs : db .projectConfigs = before .projectConfigs
  storage : db .storageConfigs = before .storageConfigs
  events : ∃ earlier, db .outboxMessages = before .outboxMessages ++ earlier

section Settle

variable {ctx : TenantContext} {first second : Env} {before db : Database} {projectId : String}
  {req : UploadInitRequest} {config : ProjectConfig}

theorem storageKey_ne_empty (o p i : String) : storageKey o p i ≠ "" := by
  intro h
  have hlength := congrArg String.length h
  simp only [storageKey, String.length_append] at hlength
  have hslash : "/".length = 1 := rfl
  have hempty : "".length = 0 := rfl
  omega

theorem orNone_storageKey (o p i : String) :
    orNone (some (storageKey o p i)) = some (storageKey o p i) := by
  rw [orNone]
  intro h
  exact storageKey_ne_empty o p i (Option.some.inj h)

/-- The version of a file that has just begun, if versioning is on. -/
theorem confirmVersion_newFile (draws : UploadDraws) :
    confirmVersion config (newFile ctx projectId req draws)
      = completeVersion config (newFile ctx projectId req draws) := by
  rw [confirmVersion, completeVersion, newFile, orNone_storageKey]

theorem Begun.get {draws : UploadDraws} (h : Begun before db (newFile ctx projectId req draws)) :
    FileRepository.get db draws.fileId ctx.organizationId projectId
      = .ok (newFile ctx projectId req draws) := by
  rw [FileRepository.get, h.files]
  refine oneOr_filter_append (fun f hf => ?_) (by simp [newFile])
  -- no other row has the id
  have hid : (f.id == draws.fileId) = false := beq_eq_false_iff_ne.mpr (h.fresh f hf)
  rw [hid, Bool.false_and, Bool.false_and, Bool.false_and]

theorem uploadOutcome_file (draws : UploadDraws) :
    (newFile ctx projectId req draws).settled
        (completeVersion config (newFile ctx projectId req draws)) (settledStatus config)
        draws.settledAt
      = (uploadOutcome ctx projectId config req draws).file := by
  rw [completeVersion, uploadOutcome]
  cases config.versioningEnabled <;> rfl

theorem uploadOutcome_version :
    (completeVersion config (newFile ctx projectId req (uploadDraws first second))).map
        (settledVersion ctx second projectId (newFile ctx projectId req (uploadDraws first second)))
      = (uploadOutcome ctx projectId config req (uploadDraws first second)).version := by
  rw [completeVersion, uploadOutcome]
  cases config.versioningEnabled <;> rfl

/-- What settling a new file leaves behind. -/
theorem Begun.settle (h : Begun before db (newFile ctx projectId req (uploadDraws first second))) :
    Leaves before (applyAll (settleWrites ctx second projectId config
        (newFile ctx projectId req (uploadDraws first second))
        (completeVersion config (newFile ctx projectId req (uploadDraws first second)))) db)
      (uploadOutcome ctx projectId config req (uploadDraws first second)) := by
  set record := newFile ctx projectId req (uploadDraws first second) with hrecord
  constructor
  · rw [applyAll_settleWrites_files, h.files, List.map_append, List.map_singleton, if_pos rfl,
      flush_settled]
    congr 1
    · refine (List.map_congr_left fun f hf => ?_).trans (List.map_id' _)
      exact if_neg (h.fresh f hf)
    · exact congrArg (fun f => [f]) (uploadOutcome_file (uploadDraws first second))
  · rw [applyAll_settleWrites_fileVersions, h.versions, hrecord, uploadOutcome_version]
  · obtain ⟨earlier, hearlier⟩ := h.events
    exact ⟨earlier, by rw [applyAll_settleWrites_outboxMessages, hearlier]; rfl⟩

end Settle

/-! ### The two ways -/

section Ways

variable {ctx : TenantContext} {first second : Env} {db : Database} {projectId : String}
  {req : UploadInitRequest} {config : ProjectConfig}

theorem commit_ok {r : Response} {ws : List DbWrite} {x : ServiceResult} (hx : x = .ok (r, ws))
    (hadm : Admissible ws db) : commit db x = (.ok r, applyAll ws db) := by
  rw [hx, commit, if_pos hadm]

/-- A begun upload has the configuration of the project. -/
theorem Begun.config_eq {after : Database} {record : File} (h : Begun db after record) :
    ProjectConfigRepository.getForProject after projectId ctx.organizationId
      = ProjectConfigRepository.getForProject db projectId ctx.organizationId := by
  rw [ProjectConfigRepository.getForProject, ProjectConfigRepository.getForProject, h.configs]

/-- **A multipart upload that is accepted goes through**, and leaves its outcome behind. -/
theorem multipartUpload_leaves (h : TwoRequests first second db) (parts : List (ℕ × String))
    (haccepts : ∃ x, MultipartUploadService.start ctx first db projectId req.toMultipart = .ok x)
    (hconfig : ProjectConfigRepository.getForProject db projectId ctx.organizationId = .ok config) :
    ∃ after, multipartUpload ctx first second db projectId req parts
        = (.ok (.multipartComplete (first.uuid4 0) (settledStatus config)), after)
      ∧ Leaves db after (uploadOutcome ctx projectId config req (uploadDraws first second)) := by
  obtain ⟨⟨r, ws⟩, hstart⟩ := haccepts
  obtain ⟨config', provider, uploadId, hadmits, -, rfl, rfl⟩ :=
    MultipartUploadService.start_eq_ok.mp hstart
  obtain rfl : config' = config := Except.ok.inj (hadmits.config_eq.symm.trans hconfig)
  set record := newFile ctx projectId req (uploadDraws first second) with hrecord
  set session := MultipartUploadService.startSession ctx first projectId req.toMultipart uploadId
    with hsession
  set begun := applyAll [.insert .files record, .insert .uploadSessions session] db with hbegun
  have hadm : Admissible ([.insert .files record, .insert .uploadSessions session] : List DbWrite)
      db := by
    refine ⟨h.first_fresh 0 (by omega) .files, ?_, trivial⟩
    intro s hs
    rw [apply_of_table_ne (by simp)] at hs
    exact h.first_fresh 1 (by omega) .uploadSessions s hs
  have hsessions : begun .uploadSessions = db .uploadSessions ++ [session] := by
    rw [hbegun, applyAll_cons, applyAll_cons, applyAll_nil, apply_insert_self,
      apply_of_table_ne (by simp)]
  have hbegun' : Begun db begun record :=
    ⟨rfl, h.first_fresh 0 (by omega) .files, rfl, rfl, rfl, [], (List.append_nil _).symm⟩
  have hget : UploadSessionRepository.get begun (first.uuid4 1) ctx.organizationId
      = .ok session := by
    rw [UploadSessionRepository.get, hsessions]
    refine oneOr_filter_append (fun s hs => ?_)
      (by simp [session, MultipartUploadService.startSession])
    have hid : (s.id == first.uuid4 1) = false :=
      beq_eq_false_iff_ne.mpr (h.first_fresh 1 (by omega) .uploadSessions s hs)
    rw [hid, Bool.false_and]
  -- completing marks the session, which is no row of the outcome
  set marked :=
    session.save (UploadSessionRepository.markCompleted session parts.length) with hmarked
  have hsettled : Begun db (marked.apply begun) record :=
    ⟨rfl, hbegun'.fresh, rfl, rfl, rfl, hbegun'.events⟩
  have hcomplete : MultipartUploadService.complete ctx second begun projectId (first.uuid4 1)
      { parts := parts } = .ok (.multipartComplete record.id (settledStatus config'),
        marked :: settleWrites ctx second projectId config' record
          (completeVersion config' record)) := by
    refine MultipartUploadService.complete_eq_ok.mpr ⟨session, record, config', provider, hget,
      hbegun'.get, hbegun'.config_eq.trans hconfig, ?_, h.second_answers.completes _ _ _ _,
      fun _ => Option.some_ne_none _, rfl, rfl⟩
    exact (getProvider_congr ctx projectId h.settings_eq h.crypto_eq hbegun'.storage).trans
      hadmits.provider_eq
  have hadm' : Admissible (marked :: settleWrites ctx second projectId config' record
      (completeVersion config' record)) begun := by
    refine ⟨trivial, (admissible_settleWrites_iff _ _ _ _ _ _ _).mpr ⟨fun _ => ?_, ?_⟩⟩
    · exact h.second_fresh 0 (by omega) .fileVersions
    · exact h.second_fresh 1 (by omega) .outboxMessages
  refine ⟨_, ?_, hsettled.settle⟩
  rw [multipartUpload, commit_ok hstart hadm]
  exact commit_ok hcomplete hadm'

/-- **A single-shot upload that is accepted goes through**, and leaves its outcome behind. -/
theorem singleShotUpload_leaves (hctx : NoToken ctx) (h : TwoRequests first second db)
    (haccepts : ∃ x, FileService.initUpload ctx first db projectId req = .ok x)
    (hconfig : ProjectConfigRepository.getForProject db projectId ctx.organizationId = .ok config) :
    ∃ after, singleShotUpload ctx first second db projectId req
        = (.ok (.confirmUpload (first.uuid4 0) (settledStatus config)), after)
      ∧ Leaves db after (uploadOutcome ctx projectId config req (uploadDraws first second)) := by
  obtain ⟨⟨r, ws⟩, hinit⟩ := haccepts
  obtain ⟨config', provider, url, hadmits, -, -, rfl, rfl⟩ := FileService.initUpload_eq_ok.mp hinit
  obtain rfl : config' = config := Except.ok.inj (hadmits.config_eq.symm.trans hconfig)
  rw [hctx.initRecord_eq second] at hinit
  set record := newFile ctx projectId req (uploadDraws first second) with hrecord
  set initiated := publish ctx first projectId 1 "file.upload.initiated"
    [("file_id", .str (first.uuid4 0)), ("filename", .str req.filename),
      ("size_bytes", .int req.sizeBytes)] with hinitiated
  set begun := applyAll [.insert .files record, initiated] db with hbegun
  have hadm : Admissible ([.insert .files record, initiated] : List DbWrite) db := by
    refine ⟨h.first_fresh 0 (by omega) .files, ?_, trivial⟩
    intro e he
    rw [apply_of_table_ne (by simp)] at he
    exact h.first_fresh 1 (by omega) .outboxMessages e he
  have hbegun' : Begun db begun record :=
    ⟨rfl, h.first_fresh 0 (by omega) .files, rfl, rfl, rfl, [_], rfl⟩
  -- the confirmation finds the row and the configuration
  have hconfirm : FileService.confirmUpload ctx second begun projectId (first.uuid4 0)
      = .ok (.confirmUpload record.id (settledStatus config'),
        settleWrites ctx second projectId config' record (completeVersion config' record)) := by
    refine FileService.confirmUpload_eq_ok.mpr ⟨record, config', hbegun'.get,
      hbegun'.config_eq.trans hconfig, rfl, ?_⟩
    rw [hrecord, confirmVersion_newFile]
  have hadm' : Admissible (settleWrites ctx second projectId config' record
      (completeVersion config' record)) begun := by
    refine (admissible_settleWrites_iff _ _ _ _ _ _ _).mpr ⟨fun _ => ?_, ?_⟩
    · exact h.second_fresh 0 (by omega) .fileVersions
    · intro e he
      have he' : e ∈ db .outboxMessages ++ [_] := he
      rcases List.mem_append.mp he' with he' | he'
      · exact h.second_fresh 1 (by omega) .outboxMessages e he'
      · rw [List.mem_singleton.mp he']
        exact (h.draws_ne 1 (by omega) 1 (by omega)).symm
  refine ⟨_, ?_, hbegun'.settle⟩
  rw [singleShotUpload, commit_ok hinit hadm]
  exact commit_ok hconfirm hadm'

end Ways

/-- **Single-shot and multipart uploads agree** for callers with an API key or a session:
for every such caller, request and database, a multipart start is accepted exactly if
`init_upload` is, and then both uploads go through — a start and its completion, an
`init_upload` and its confirmation — and leave behind the same outcome, each with its own
ids and times. -/
theorem uploads_agree (organizationId : String) (callerProject : Option String) (actorId : String)
    (scopes : List String) (isTestMode : Bool) (db : Database) (projectId : String)
    (req : UploadInitRequest) (parts : List (ℕ × String)) {start complete init confirm : Env}
    (hmultipart : TwoRequests start complete db) (hsingle : TwoRequests init confirm db)
    (hsettings : init.settings = start.settings) (hcrypto : init.crypto = start.crypto) :
    let ctx := callerContext organizationId callerProject actorId scopes isTestMode
    ((∃ x, MultipartUploadService.start ctx start db projectId req.toMultipart = .ok x)
        ↔ ∃ x, FileService.initUpload ctx init db projectId req = .ok x)
      ∧ ((∃ x, FileService.initUpload ctx init db projectId req = .ok x) →
        ∃ config, ProjectConfigRepository.getForProject db projectId organizationId = .ok config
          ∧ (∃ after, multipartUpload ctx start complete db projectId req parts
                = (.ok (.multipartComplete (start.uuid4 0) (settledStatus config)), after)
              ∧ Leaves db after
                (uploadOutcome ctx projectId config req (uploadDraws start complete)))
          ∧ ∃ after, singleShotUpload ctx init confirm db projectId req
                = (.ok (.confirmUpload (init.uuid4 0) (settledStatus config)), after)
              ∧ Leaves db after (uploadOutcome ctx projectId config req
                (uploadDraws init confirm))) := by
  intro ctx
  have hctx : NoToken ctx := ⟨rfl, rfl, rfl, rfl, rfl, rfl, rfl⟩
  have hiff := hctx.start_accepts_iff db projectId req hsettings hcrypto hmultipart.first_answers
    hsingle.first_answers
  refine ⟨hiff, fun hinit => ?_⟩
  obtain ⟨⟨r, ws⟩, hx⟩ := hinit
  obtain ⟨config, provider, url, hadmits, -, -, -, -⟩ := FileService.initUpload_eq_ok.mp hx
  have hconfig := hadmits.config_eq
  exact ⟨config, hconfig, multipartUpload_leaves hmultipart parts (hiff.mpr ⟨_, hx⟩) hconfig,
    singleShotUpload_leaves hctx hsingle ⟨_, hx⟩ hconfig⟩

/-- Ids with these tags are on no row of the project. -/
theorem devEnv_fresh {tag : String} (htag : tag ∈ ["a", "b", "c", "d"]) (now : ℕ) :
    (devEnv tag now).Fresh oneProject := by
  intro n hn t r hr
  have hrows : ∀ i ∈ (oneProject t).map pk, ∀ tag ∈ ["a", "b", "c", "d"], ∀ n < 2,
      i ≠ tag ++ toString n := by
    cases t <;> decide
  exact hrows _ (List.mem_map_of_mem hr) tag htag n hn

theorem devStorage_answers : devStorage.Answers :=
  ⟨fun _ _ _ _ _ => ⟨_, rfl⟩, fun _ _ _ => ⟨_, rfl⟩, fun _ _ _ _ => rfl⟩

theorem twoRequests_devEnv (tag tag' : String) (htag : tag ∈ ["a", "b", "c", "d"])
    (htag' : tag' ∈ ["a", "b", "c", "d"])
    (hne : ∀ m < 2, ∀ n < 2, tag' ++ toString m ≠ tag ++ toString n) (now now' : ℕ) :
    TwoRequests (devEnv tag now) (devEnv tag' now') oneProject :=
  ⟨rfl, rfl, devStorage_answers, devStorage_answers, devEnv_fresh htag now, devEnv_fresh htag' now',
    hne⟩

/-- An upload to a project, made both ways. -/
theorem uploads_agree_one_project :
    let ctx := callerContext "acme" none "user_1" ["files:upload"] false
    let req : UploadInitRequest :=
      { filename := "a.txt", contentType := "text/plain", sizeBytes := 1 }
    ∃ config after after',
      (multipartUpload ctx (devEnv "a" 2) (devEnv "b" 3) oneProject "p0" req []).2
        = after
      ∧ Leaves oneProject after
        (uploadOutcome ctx "p0" config req (uploadDraws (devEnv "a" 2) (devEnv "b" 3)))
      ∧ (singleShotUpload ctx (devEnv "c" 4) (devEnv "d" 5) oneProject "p0" req).2 = after'
      ∧ Leaves oneProject after'
        (uploadOutcome ctx "p0" config req (uploadDraws (devEnv "c" 4) (devEnv "d" 5))) := by
  intro ctx req
  obtain ⟨config, -, ⟨after, hmultipart, hleaves⟩, after', hsingle, hleaves'⟩ :=
    (uploads_agree "acme" none "user_1" ["files:upload"] false oneProject "p0" req []
      (twoRequests_devEnv "a" "b" (by decide) (by decide) (by decide) 2 3)
      (twoRequests_devEnv "c" "d" (by decide) (by decide) (by decide) 4 5)
      rfl rfl).2 ⟨_, rfl⟩
  exact ⟨config, after, after', congrArg Prod.snd hmultipart, hleaves, congrArg Prod.snd hsingle,
    hleaves'⟩

end FileNest
