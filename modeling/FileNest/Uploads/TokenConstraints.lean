import FileNest.Isolation
import FileNest.Uploads.Admission

/-!
# Upload tokens at the two entry points

An upload token carries limits and defaults that the browser cannot override — at
`init_upload`.  A multipart start reads none of them, so the two entry points agree on an
upload exactly if the token asks nothing of it and adds nothing to it.

## Main definitions

* `UploadInitRequest.toMultipart` — the same upload at the other entry point.
* `SameUpload`, `EntryPointsAgree` — what it means to enforce a token alike.
* `TokenAddsNothing` — the request already meets the token.
* `TokenMakesNoDifference` — it does if the project and storage let the upload begin.

## Main results

* `token_uploads_agree_iff` — **the entry points agree exactly on such requests.**
* `token_bypassed` — a limit of a token, passed by.
-/

namespace FileNest

open RowStore

/-- The same upload at the other entry point. -/
def UploadInitRequest.toMultipart (req : UploadInitRequest) : MultipartStartRequest where
  filename := req.filename
  contentType := req.contentType
  totalSizeBytes := req.sizeBytes
  folderId := req.folderId
  tags := req.tags
  metadata := req.metadata

/-- Two files agree on folder, metadata, tags and owner. -/
structure SameUpload (f g : File) : Prop where
  folderId_eq : f.folderId = g.folderId
  metadata_eq : f.metadata = g.metadata
  tags_eq : f.tags = g.tags
  ownerUserId_eq : f.ownerUserId = g.ownerUserId
  ownerOrgId_eq : f.ownerOrgId = g.ownerOrgId

/-- One entry point accepts an upload exactly if the other does, and then the files they
create agree. -/
def EntryPointsAgree (ctx : TenantContext) (env : Env) (db : Database) (projectId : String)
    (req : UploadInitRequest) : Prop :=
  ((∃ x, MultipartUploadService.start ctx env db projectId req.toMultipart = .ok x)
      ↔ ∃ x, FileService.initUpload ctx env db projectId req = .ok x)
    ∧ ∀ r ws r' ws',
      MultipartUploadService.start ctx env db projectId req.toMultipart = .ok (r, ws) →
        FileService.initUpload ctx env db projectId req = .ok (r', ws') →
        ∀ f g : File, .insert .files f ∈ ws → .insert .files g ∈ ws' → SameUpload f g

/-- The request already meets the token: it is within the token's limits, names its folder
if it has one, carries its default metadata and tags, and the token names no owner. -/
structure TokenAddsNothing (ctx : TenantContext) (req : UploadInitRequest) : Prop where
  allows : TokenAllows ctx req.sizeBytes req.contentType
  folderId : ∀ id, ctx.uploadTokenFolderId = some id → req.folderId = some id
  metadata : ∀ fields, ctx.uploadTokenDefaultMetadata = some fields →
    ∀ k v, Fields.get? fields.reverse k = some v → Fields.get? req.metadata k = some v
  tags : ∀ tags, ctx.uploadTokenDefaultTags = some tags → ∀ t ∈ tags, t ∈ req.tags
  ownerUserId : ctx.ownerUserId = none
  ownerOrgId : ctx.ownerOrgId = none

section Begin

variable (ctx : TenantContext) (env : Env) (db : Database) (projectId : String)
  (req : UploadInitRequest)

/-- Storage begins a multipart upload of the request. -/
def StorageStarts (provider : StorageProvider) : Prop :=
  ∃ uploadId, env.storage.createMultipartUpload provider
    (storageKey ctx.organizationId projectId (env.uuid4 0)) req.contentType = .ok uploadId

/-- Storage signs an upload URL for the request. -/
def StorageSigns (config : ProjectConfig) (provider : StorageProvider) : Prop :=
  ∃ url, env.storage.generatePresignedUploadUrl provider
    (storageKey ctx.organizationId projectId (env.uuid4 0)) req.contentType req.sizeBytes
    (resolveTtl config none) = .ok url

/-- If the project admits the upload, and one of the entry points has what it needs from
storage and the token, then storage answers at both and the request already meets the
token. -/
def TokenMakesNoDifference : Prop :=
  ∀ config provider,
    ProjectAdmits ctx env db projectId req.filename req.contentType req.sizeBytes config provider →
    StorageStarts ctx env projectId req provider
      ∨ TokenAllows ctx req.sizeBytes req.contentType
        ∧ StorageSigns ctx env projectId req config provider →
    StorageStarts ctx env projectId req provider
      ∧ StorageSigns ctx env projectId req config provider ∧ TokenAddsNothing ctx req

end Begin

section Begin

variable {ctx : TenantContext} {env : Env} {db : Database} {projectId : String}
  {req : UploadInitRequest}

/-! ### What a token adds -/

theorem uploadFolder_eq_iff (htoken : ctx.isUploadToken = true) {folderId : Option String} :
    folderId = ctx.uploadFolder folderId
      ↔ ∀ id, ctx.uploadTokenFolderId = some id → folderId = some id := by
  rw [TenantContext.uploadFolder, htoken, cond_true]
  cases ctx.uploadTokenFolderId with
  | none =>
    refine ⟨fun _ id hid => ?_, fun _ => rfl⟩
    cases hid
  | some id' =>
    exact ⟨fun h id hid => h.trans hid, fun h => h id' rfl⟩

theorem uploadMetadata_eq_iff (htoken : ctx.isUploadToken = true) {metadata : Fields} :
    metadata = ctx.uploadMetadata metadata
      ↔ ∀ fields, ctx.uploadTokenDefaultMetadata = some fields →
      ∀ k v, Fields.get? fields.reverse k = some v → metadata.get? k = some v := by
  rw [TenantContext.uploadMetadata, htoken, cond_true, eq_comm, Fields.update_eq_self_iff]
  cases ctx.uploadTokenDefaultMetadata with
  | none =>
    refine ⟨fun _ fields hfields => ?_, fun _ k v hv => ?_⟩
    · cases hfields
    · cases hv
  | some fields =>
    constructor
    · intro h fields' hsome
      obtain rfl := Option.some.inj hsome
      exact h
    · exact fun h => h fields rfl

theorem uploadTags_eq_iff (htoken : ctx.isUploadToken = true) {tags : List String} :
    dictFromKeys tags = dictFromKeys (ctx.uploadTags tags)
      ↔ ∀ defaults, ctx.uploadTokenDefaultTags = some defaults → ∀ t ∈ defaults, t ∈ tags := by
  rw [TenantContext.uploadTags, htoken, cond_true, eq_comm]
  split
  -- tags are keys of a dict: those that are there already add nothing
  · rename_i t ts hdefaults
    rw [dictFromKeys_dictFromKeys, dictFromKeys_append_eq_iff, hdefaults]
    constructor
    · intro h defaults hsome
      obtain rfl := Option.some.inj hsome
      exact h
    · exact fun h => h _ rfl
  · rename_i hdefaults
    refine ⟨fun _ defaults hsome t ht => ?_, fun _ => rfl⟩
    cases defaults with
    | nil => cases ht
    | cons t' ts => exact absurd hsome (hdefaults t' ts)

/-- The files of the two entry points agree exactly if the token adds nothing. -/
theorem sameUpload_iff (htoken : ctx.isUploadToken = true)
    (hallows : TokenAllows ctx req.sizeBytes req.contentType) :
    SameUpload (MultipartUploadService.startRecord ctx env projectId req.toMultipart)
      (FileService.initRecord ctx env projectId req) ↔ TokenAddsNothing ctx req := by
  constructor
  · rintro ⟨hfolder, hmetadata, htags, huser, horg⟩
    refine ⟨hallows, ?_, ?_, ?_, huser.symm, horg.symm⟩
    · exact (uploadFolder_eq_iff htoken).mp hfolder
    · exact (uploadMetadata_eq_iff htoken).mp hmetadata
    · exact (uploadTags_eq_iff htoken).mp htags
  · rintro ⟨-, hfolder, hmetadata, htags, huser, horg⟩
    refine ⟨?_, ?_, ?_, huser.symm, horg.symm⟩
    · exact (uploadFolder_eq_iff htoken).mpr hfolder
    · exact (uploadMetadata_eq_iff htoken).mpr hmetadata
    · exact (uploadTags_eq_iff htoken).mpr htags

/-! ### The entry points -/

/-- A multipart start that is accepted. -/
theorem start_accepts_iff :
    (∃ x, MultipartUploadService.start ctx env db projectId req.toMultipart = .ok x) ↔
      ∃ config provider, ProjectAdmits ctx env db projectId req.filename req.contentType
          req.sizeBytes config provider ∧ StorageStarts ctx env projectId req provider := by
  constructor
  · rintro ⟨⟨r, ws⟩, h⟩
    obtain ⟨config, provider, uploadId, hadmits, hstarts, -, -⟩ :=
      MultipartUploadService.start_eq_ok.mp h
    exact ⟨config, provider, hadmits, uploadId, hstarts⟩
  · rintro ⟨config, provider, hadmits, uploadId, hstarts⟩
    exact ⟨_, MultipartUploadService.start_eq_ok.mpr
      ⟨config, provider, uploadId, hadmits, hstarts, rfl, rfl⟩⟩

/-- An `init_upload` of a token that is accepted. -/
theorem initUpload_accepts_iff (htoken : ctx.isUploadToken = true) :
    (∃ x, FileService.initUpload ctx env db projectId req = .ok x) ↔
      ∃ config provider, ProjectAdmits ctx env db projectId req.filename req.contentType
          req.sizeBytes config provider ∧ TokenAllows ctx req.sizeBytes req.contentType
        ∧ StorageSigns ctx env projectId req config provider := by
  constructor
  · rintro ⟨⟨r, ws⟩, h⟩
    obtain ⟨config, provider, url, hadmits, hallows, hsigns, -, -⟩ :=
      FileService.initUpload_eq_ok.mp h
    exact ⟨config, provider, hadmits, hallows htoken, url, hsigns⟩
  · rintro ⟨config, provider, hadmits, hallows, url, hsigns⟩
    exact ⟨_, FileService.initUpload_eq_ok.mpr
      ⟨config, provider, url, hadmits, fun _ => hallows, hsigns, rfl, rfl⟩⟩

/-- A project admits an upload with one configuration and one provider. -/
theorem ProjectAdmits.unique {filename contentType : String} {sizeBytes : ℤ}
    {config config' : ProjectConfig} {provider provider' : StorageProvider}
    (h : ProjectAdmits ctx env db projectId filename contentType sizeBytes config provider)
    (h' : ProjectAdmits ctx env db projectId filename contentType sizeBytes config' provider') :
    config = config' ∧ provider = provider' :=
  ⟨Except.ok.inj (h.config_eq.symm.trans h'.config_eq),
    Except.ok.inj (h.provider_eq.symm.trans h'.provider_eq)⟩

/-- The file each entry point creates. -/
theorem MultipartUploadService.start_file {r : Response} {ws : List DbWrite} {f : File}
    {req : MultipartStartRequest} (h : start ctx env db projectId req = .ok (r, ws))
    (hf : .insert .files f ∈ ws) : f = startRecord ctx env projectId req := by
  obtain ⟨config, provider, uploadId, -, -, -, rfl⟩ := start_eq_ok.mp h
  simp only [List.mem_cons, List.not_mem_nil, or_false] at hf
  rcases hf with hf | hf
  · cases hf
    rfl
  · cases hf

theorem FileService.initUpload_file {r : Response} {ws : List DbWrite} {f : File}
    (h : initUpload ctx env db projectId req = .ok (r, ws)) (hf : .insert .files f ∈ ws) :
    f = initRecord ctx env projectId req := by
  obtain ⟨config, provider, url, -, -, -, -, rfl⟩ := initUpload_eq_ok.mp h
  simp only [List.mem_cons, List.not_mem_nil, or_false] at hf
  rcases hf with hf | hf
  · cases hf
    rfl
  · cases hf

end Begin

/-- **The entry points agree exactly on requests that already meet the token**: for every
upload token, request and database, a multipart start and `init_upload` accept alike, with
files that agree on folder, metadata, tags and owner, if and only if the token makes no
difference to the upload. -/
theorem token_uploads_agree_iff {ctx : TenantContext} (htoken : ctx.isUploadToken = true)
    (env : Env)
    (db : Database) (projectId : String) (req : UploadInitRequest) :
    EntryPointsAgree ctx env db projectId req
      ↔ TokenMakesNoDifference ctx env db projectId req := by
  rw [EntryPointsAgree, start_accepts_iff, initUpload_accepts_iff htoken]
  constructor
  · rintro ⟨haccepts, hagree⟩ config provider hadmits hone
    -- whichever accepts, both do
    have hboth : StorageStarts ctx env projectId req provider
        ∧ TokenAllows ctx req.sizeBytes req.contentType
        ∧ StorageSigns ctx env projectId req config provider := by
      rcases hone with hstarts | ⟨hallows, hsigns⟩
      · obtain ⟨config', provider', hadmits', hallows, hsigns⟩ :=
          haccepts.mp ⟨config, provider, hadmits, hstarts⟩
        obtain ⟨rfl, rfl⟩ := hadmits.unique hadmits'
        exact ⟨hstarts, hallows, hsigns⟩
      · obtain ⟨config', provider', hadmits', hstarts⟩ :=
          haccepts.mpr ⟨config, provider, hadmits, hallows, hsigns⟩
        obtain ⟨rfl, rfl⟩ := hadmits.unique hadmits'
        exact ⟨hstarts, hallows, hsigns⟩
    obtain ⟨hstarts, hallows, hsigns⟩ := hboth
    obtain ⟨⟨r, ws⟩, hstart⟩ := start_accepts_iff.mpr ⟨config, provider, hadmits, hstarts⟩
    obtain ⟨⟨r', ws'⟩, hinit⟩ :=
      (initUpload_accepts_iff htoken).mpr ⟨config, provider, hadmits, hallows, hsigns⟩
    -- the two files are the same, so the token had nothing to add
    have hsame : SameUpload (MultipartUploadService.startRecord ctx env projectId req.toMultipart)
        (FileService.initRecord ctx env projectId req) := by
      refine hagree r ws r' ws' hstart hinit _ _ ?_ ?_
      · obtain ⟨_, _, _, -, -, -, rfl⟩ := MultipartUploadService.start_eq_ok.mp hstart
        exact List.mem_cons_self
      · obtain ⟨_, _, _, -, -, -, -, rfl⟩ := FileService.initUpload_eq_ok.mp hinit
        exact List.mem_cons_self
    exact ⟨hstarts, hsigns, (sameUpload_iff htoken hallows).mp hsame⟩
  · intro h
    constructor
    · constructor
      · rintro ⟨config, provider, hadmits, hstarts⟩
        obtain ⟨-, hsigns, hnothing⟩ := h config provider hadmits (Or.inl hstarts)
        exact ⟨config, provider, hadmits, hnothing.allows, hsigns⟩
      · rintro ⟨config, provider, hadmits, hallows, hsigns⟩
        obtain ⟨hstarts, -, -⟩ := h config provider hadmits (Or.inr ⟨hallows, hsigns⟩)
        exact ⟨config, provider, hadmits, hstarts⟩
    · intro r ws r' ws' hstart hinit f g hf hg
      rw [MultipartUploadService.start_file hstart hf, FileService.initUpload_file hinit hg]
      obtain ⟨config, provider, hadmits, hstarts⟩ := start_accepts_iff.mp ⟨_, hstart⟩
      obtain ⟨-, -, hnothing⟩ := h config provider hadmits (Or.inl hstarts)
      exact (sameUpload_iff htoken hnothing.allows).mpr hnothing

/-- A token that limits the size of what it uploads. -/
def limitedToken : UploadToken where
  id := "t1"
  organizationId := "acme"
  projectId := "p0"
  token := "fn_upload_1"
  maxSize := some 10
  allowedMimeTypes := none
  maxFiles := none
  folderId := none
  defaultMetadata := none
  defaultTags := some ["avatar"]
  ownerUserId := none
  ownerOrgId := none
  expiresAt := 1000
  createdAt := 1

/-- A project. -/
def oneProject : Database :=
  runAll [⟨orgContext "acme", devEnv "p" 1, "", .createProject devProject⟩] Database.empty

/-- Within the limit and tagged as the token says, both entry points create the file. -/
theorem token_uploads_agree_tagged :
    let req : UploadInitRequest :=
      { filename := "a.png", contentType := "image/png", sizeBytes := 10, tags := ["avatar"] }
    EntryPointsAgree (uploadTokenContext limitedToken) (devEnv "u" 2) oneProject "p0" req := by
  intro req
  refine (token_uploads_agree_iff (by decide) _ _ _ _).mpr fun config provider hadmits _ => ?_
  refine ⟨⟨_, rfl⟩, ⟨_, rfl⟩, ⟨?_, ?_⟩, ?_, ?_, ?_, rfl, rfl⟩
  · intro m hm
    obtain rfl := Option.some.inj hm
    decide
  · exact fun types htypes => nomatch htypes
  · exact fun id hid => nomatch hid
  · exact fun fields hfields => nomatch hfields
  · intro tags htags
    obtain rfl := Option.some.inj htags
    decide

/-- A limit of a token, passed by: the upload `init_upload` refuses is started in parts. -/
theorem token_bypassed :
    ¬∀ ctx env db projectId req, TenantContext.isUploadToken ctx = true →
      EntryPointsAgree ctx env db projectId req := by
  intro h
  have hagree := (h (uploadTokenContext limitedToken) (devEnv "u" 2) oneProject "p0"
    { filename := "a.png", contentType := "image/png", sizeBytes := 11 } (by decide)).1
  obtain ⟨x, hx⟩ := hagree.mp ⟨_, rfl⟩
  cases hx

end FileNest
