import FileNest.Isolation
import FileNest.Uploads.Admission
import Mathlib.Algebra.Order.BigOperators.Group.List

/-!
# What a token advertises

The answer to the creation of an upload token tells the browser the size and the types it
may upload.  Limits that are asked for are compared with the project's, those that are not
get defaults that are not; and types are compared with the project's as patterns, while an
upload has to be of a type the project lists by name.

## Main definitions

* `UploadTokenService.tokenRecord`, `tokenConstraints` — the token, and what is said of it.
* `MimeMatches` — a type and a pattern.
* `Honoured` — no upload within the advertised limits is rejected for size or type.
* `AdvertisedWithin` — the advertised limits are the project's, or narrower.

## Main results

* `UploadTokenService.create_eq_ok` — what creation answers and writes.
* `exists_mimeMatches_notMem` — no list has all the types of a wildcard.
* `sizes_pass_iff`, `types_pass_iff` — which advertised sizes and types the project lets pass.
* `advertised_honoured_iff` — **advertised limits are honoured exactly if they are within the
  project's.**
* `advertised_rejected` — an upload a token invites, rejected.
-/

namespace FileNest

open RowStore

/-! ### The creation of a token -/

namespace UploadTokenService

section Create

variable (ctx : TenantContext) (env : Env) (projectId : String) (req : CreateUploadTokenRequest)

/-- What the response says of the token. -/
def tokenConstraints : UploadTokenConstraints where
  maxSize := req.maxSize.getD defaultMaxSize
  allowedMimeTypes := req.allowedMimeTypes.getD ["*/*"]
  maxFiles := req.maxFiles.getD defaultMaxFiles

/-- The token. -/
def tokenRecord (folderId : Option String) : UploadToken where
  id := env.uuid4 0
  organizationId := ctx.organizationId
  projectId := projectId
  token := "fn_upload_token_" ++ env.tokenHex
  maxSize := some (tokenConstraints req).maxSize
  allowedMimeTypes := some (tokenConstraints req).allowedMimeTypes
  maxFiles := some (tokenConstraints req).maxFiles
  folderId := folderId
  defaultMetadata := req.metadata
  defaultTags := req.tags
  ownerUserId := req.ownerUserId
  ownerOrgId := orNone req.ownerOrgId
  expiresAt := env.now + req.expiresIn * second
  createdAt := env.now

end Create

variable {ctx : TenantContext} {env : Env} {db : Database} {projectId : String}
  {req : CreateUploadTokenRequest} {r : Response} {ws : List DbWrite}

/-- **What creation answers and writes.** -/
theorem create_eq_ok (h : create ctx env db projectId req = .ok (r, ws)) :
    ∃ config folderId folderWrites,
      ProjectConfigRepository.getForProject db projectId ctx.organizationId = .ok config
      ∧ checkTokenConstraints config req = .ok ()
      ∧ resolveTokenFolder ctx env db projectId req = .ok (folderId, folderWrites)
      ∧ r = .uploadToken ("fn_upload_token_" ++ env.tokenHex) (env.now + req.expiresIn * second)
        (tokenConstraints req)
      ∧ ws = folderWrites ++ [.insert .uploadTokens (tokenRecord ctx env projectId req folderId),
        UploadTokenRepository.deleteExpired ctx.organizationId projectId env.pruneNow] := by
  simp only [create, bind_eq_ok, pure_eq_ok, Prod.mk.injEq] at h
  obtain ⟨config, hconfig, _, hconstraints, ⟨folderId, folderWrites⟩, hfolder, rfl, rfl⟩ := h
  exact ⟨config, folderId, folderWrites, hconfig, hconstraints, hfolder, rfl, rfl⟩

/-- Finding the folder of a token writes folders only. -/
theorem resolveTokenFolder_table {folderId : Option String} {writes : List DbWrite}
    (h : resolveTokenFolder ctx env db projectId req = .ok (folderId, writes)) :
    ∀ w ∈ writes, w.table = .folders := by
  rw [resolveTokenFolder] at h
  split at h
  · simp only [bind_eq_ok, pure_eq_ok, Prod.mk.injEq] at h
    obtain ⟨⟨leaf, writes'⟩, hwalk, -, rfl⟩ := h
    have hsound : ∀ w ∈ writes', SoundWrite ctx.organizationId projectId [.folders] db w :=
      resolvePath_sound (by decide) hwalk
    exact fun w hw => List.mem_singleton.mp (hsound w hw).table
  · simp only [pure_eq_ok, Prod.mk.injEq] at h
    obtain ⟨-, rfl⟩ := h
    exact fun w hw => by cases hw

end UploadTokenService

/-! ### Patterns of types -/

/-- An entry of a list of types, as it is compared. -/
def mimePattern (entry : String) : String := Text.lower (Text.strip entry)

/-- A type matches an entry: any type, this one, or any of its kind. -/
def MimeMatches (contentType entry : String) : Prop :=
  mimePattern entry = "*/*" ∨ mimePattern entry = Text.lower contentType
    ∨ ∃ kind, mimePattern entry = kind ++ "/*"
      ∧ Text.startsWith (Text.lower contentType) (kind ++ "/") = true

theorem endsWith_wildcard_iff {p : String} :
    Text.endsWith p "/*" = true ↔ ∃ kind, p = kind ++ "/*" := by
  rw [Text.endsWith, List.isSuffixOf_iff_suffix]
  constructor
  · rintro ⟨cs, hcs⟩
    refine ⟨String.ofList cs, String.toList_injective ?_⟩
    rw [String.toList_append, String.toList_ofList, hcs]
  · rintro ⟨kind, rfl⟩
    exact ⟨kind.toList, (String.toList_append).symm⟩

/-- A wildcard without its star. -/
theorem dropLast_wildcard (kind : String) :
    String.ofList (kind ++ "/*").toList.dropLast = kind ++ "/" := by
  apply String.toList_injective
  rw [String.toList_ofList, String.toList_append, String.toList_append]
  exact List.dropLast_append_of_ne_nil (by decide)

/-- What `_mime_allowed` decides. -/
theorem mimeAllowed_iff {contentType : String} {allowed : List String} :
    mimeAllowed contentType allowed = true ↔ ∃ e ∈ allowed, MimeMatches contentType e := by
  simp only [mimeAllowed, List.any_eq_true, Bool.or_eq_true, beq_iff_eq, Bool.and_eq_true,
    or_assoc, MimeMatches, mimePattern]
  refine exists_congr fun e => and_congr_right fun _ => or_congr_right (or_congr_right ?_)
  rw [endsWith_wildcard_iff]
  constructor
  · rintro ⟨⟨kind, hkind⟩, h⟩
    rw [hkind, dropLast_wildcard] at h
    exact ⟨kind, hkind, h⟩
  · rintro ⟨kind, hkind, h⟩
    rw [← dropLast_wildcard, ← hkind] at h
    exact ⟨⟨kind, hkind⟩, h⟩

/-- An entry, read as a type, matches itself. -/
theorem mimeMatches_mimePattern (entry : String) : MimeMatches (mimePattern entry) entry :=
  .inr (.inl (by rw [mimePattern, Text.lower_lower]))

/-- **No list has all the types of a wildcard**: one that is longer than all of them is
missing. -/
theorem exists_mimeMatches_notMem {entry : String}
    (h : Text.endsWith (mimePattern entry) "/*" = true) (types : List String) :
    ∃ contentType, MimeMatches contentType entry ∧ Text.lower contentType ∉ types := by
  obtain ⟨kind, hkind⟩ := endsWith_wildcard_iff.mp h
  have hlower : ∀ c ∈ kind.toList, Unicode.lowerSimple c = c := by
    intro c hc
    have hmem : c ∈ (mimePattern entry).toList := by
      rw [hkind, String.toList_append]
      exact List.mem_append_left _ hc
    exact Text.small_of_mem_lower hmem
  let tail := List.replicate ((types.map String.length).sum + 1) 'x'
  have htail : ∀ c ∈ tail, Unicode.lowerSimple c = c := by
    intro c hc
    obtain rfl := List.eq_of_mem_replicate hc
    decide
  have hself :
      Text.lower (kind ++ "/" ++ String.ofList tail) = kind ++ "/" ++ String.ofList tail := by
    refine Text.lower_of_small fun c hc => ?_
    rw [String.toList_append, String.toList_append, List.mem_append, List.mem_append] at hc
    rcases hc with (hc | hc) | hc
    · exact hlower c hc
    · obtain rfl := List.mem_singleton.mp hc
      decide
    · rw [String.toList_ofList] at hc
      exact htail c hc
  refine ⟨kind ++ "/" ++ String.ofList tail, .inr (.inr ⟨kind, hkind, ?_⟩), ?_⟩
  · rw [hself, Text.startsWith, List.isPrefixOf_iff_prefix]
    exact ⟨tail, by simp only [String.toList_append, String.toList_ofList]⟩
  · intro hmem
    rw [hself] at hmem
    have hle : (kind ++ "/" ++ String.ofList tail).length ≤ (types.map String.length).sum :=
      List.le_sum_of_mem (List.mem_map_of_mem hmem)
    have hlength : tail.length = (types.map String.length).sum + 1 := List.length_replicate
    rw [String.length_append, String.length_ofList] at hle
    omega

/-! ### The checks of an upload -/

theorem checkSize_eq_ok {config : ProjectConfig} {sizeBytes : ℤ} :
    checkSize config sizeBytes = .ok () ↔
      ∀ m, config.maxFileSizeBytes = some m → m = 0 ∨ sizeBytes ≤ m := by
  rw [checkSize]
  cases config.maxFileSizeBytes with
  | none => simp only [pure_eq_ok, reduceCtorEq, false_imp_iff, implies_true]
  | some m =>
    simp only [Option.some.injEq, forall_eq']
    by_cases hm : m ≠ 0 ∧ m < sizeBytes
    · rw [if_pos hm]
      simp only [throw_ne_ok, false_iff]
      omega
    · rw [if_neg hm]
      simp only [pure_eq_ok, true_iff]
      omega

theorem checkContentType_eq_ok {config : ProjectConfig} {contentType : String} :
    checkContentType config contentType = .ok () ↔
      ∀ csv, orNone config.allowedMimeTypes = some csv → Text.lower contentType ∈ csvSet csv := by
  rw [checkContentType]
  cases orNone config.allowedMimeTypes with
  | none => simp only [pure_eq_ok, reduceCtorEq, false_imp_iff, implies_true]
  | some csv =>
    simp only [Option.some.injEq, forall_eq']
    by_cases hmem : Text.lower contentType ∈ csvSet csv
    · rw [if_pos hmem]
      simp only [pure_eq_ok, hmem]
    · rw [if_neg hmem]
      simp only [throw_ne_ok, hmem]

/-- `init_upload` fails with the error of a check of size or type, be it the token's or the
project's. -/
def RejectedForLimits (ctx : TenantContext) (env : Env) (db : Database) (projectId : String)
    (config : ProjectConfig) (req : UploadInitRequest) : Prop :=
  ∃ e, FileService.initUpload ctx env db projectId req = .error e
    ∧ (effectiveUpload ctx req = .error e ∨ checkSize config req.sizeBytes = .error e
      ∨ checkContentType config req.contentType = .error e)

/-- The first check that fails decides. -/
theorem not_rejectedForLimits_iff (ctx : TenantContext) (env : Env) {db : Database}
    {projectId : String} {config : ProjectConfig} {req : UploadInitRequest}
    (hconfig : ProjectConfigRepository.getForProject db projectId ctx.organizationId = .ok config) :
    ¬RejectedForLimits ctx env db projectId config req ↔
      (∃ effective, effectiveUpload ctx req = .ok effective)
        ∧ checkSize config req.sizeBytes = .ok ()
        ∧ checkContentType config req.contentType = .ok () := by
  constructor
  · intro h
    have hinit : ∀ e, (effectiveUpload ctx req = .error e ∨ ∃ effective,
        effectiveUpload ctx req = .ok effective
          ∧ validateUploadRequest config req.filename req.contentType req.sizeBytes = .error e) →
        FileService.initUpload ctx env db projectId req = .error e := by
      rintro e (he | ⟨effective, heffective, he⟩)
      · exact bind_eq_error.mpr (.inr ⟨config, hconfig, bind_eq_error.mpr (.inl he)⟩)
      · exact bind_eq_error.mpr (.inr ⟨config, hconfig, bind_eq_error.mpr
          (.inr ⟨effective, heffective, bind_eq_error.mpr (.inl he)⟩)⟩)
    cases heffective : effectiveUpload ctx req with
    | error e => exact absurd ⟨e, hinit e (.inl heffective), .inl heffective⟩ h
    | ok effective =>
      have hvalidate := fun e he => hinit e (.inr ⟨effective, heffective, he⟩)
      cases hsize : checkSize config req.sizeBytes with
      | error e =>
        have he := hvalidate e (bind_eq_error.mpr (.inl hsize))
        exact absurd ⟨e, he, .inr (.inl hsize)⟩ h
      | ok _ =>
        cases htype : checkContentType config req.contentType with
        | error e =>
          have he := hvalidate e (bind_eq_error.mpr
            (.inr ⟨(), hsize, bind_eq_error.mpr (.inl htype)⟩))
          exact absurd ⟨e, he, .inr (.inr htype)⟩ h
        | ok _ => exact ⟨⟨effective, rfl⟩, rfl, rfl⟩
  · rintro ⟨⟨effective, heffective⟩, hsize, htype⟩ ⟨e, -, h | h | h⟩
    · rw [heffective] at h
      cases h
    · rw [hsize] at h
      cases h
    · rw [htype] at h
      cases h

/-! ### Honouring what is advertised -/

/-- The upload is of a size and a type that are advertised. -/
structure WithinLimits (constraints : UploadTokenConstraints) (req : UploadInitRequest) : Prop where
  maxSize : req.sizeBytes ≤ constraints.maxSize
  mimeTypes : ∃ e ∈ constraints.allowedMimeTypes, MimeMatches req.contentType e

/-- As long as the configuration of the project stays what it is, no upload with the token that
is within the limits is rejected for its size or its type. -/
def Honoured (record : UploadToken) (config : ProjectConfig)
    (constraints : UploadTokenConstraints) : Prop :=
  ∀ env db,
    ProjectConfigRepository.getForProject db record.projectId record.organizationId = .ok config →
    ∀ req, WithinLimits constraints req →
      ¬RejectedForLimits (uploadTokenContext record) env db record.projectId config req

/-- **The condition** on a request for a token: it allows no type at all; or its size limit is its
own or the default is within the project's, and if the project lists types then each of the
token's is one of them, by name. -/
def AdvertisedWithin (config : ProjectConfig) (req : CreateUploadTokenRequest) : Prop :=
  req.allowedMimeTypes = some []
    ∨ (∀ m, config.maxFileSizeBytes = some m → m = 0 ∨ req.maxSize ≠ none ∨ defaultMaxSize ≤ m)
      ∧ ∀ csv, orNone config.allowedMimeTypes = some csv →
        ∀ e ∈ req.allowedMimeTypes.getD ["*/*"],
          Text.endsWith (mimePattern e) "/*" = false ∧ mimePattern e ∈ csvSet csv

/-- A size limit that is asked for is within the project's. -/
theorem checkTokenConstraints_maxSize {config : ProjectConfig} {req : CreateUploadTokenRequest}
    (h : checkTokenConstraints config req = .ok ()) {n m : ℤ} (hn : req.maxSize = some n)
    (hm : config.maxFileSizeBytes = some m) : n ≤ m := by
  by_contra hlt
  simp only [checkTokenConstraints, hn, hm, not_le.mp hlt, if_true, bind_eq_ok, throw_ne_ok,
    false_and, exists_false] at h

/-- The token's own checks pass what it advertises. -/
theorem effectiveUpload_of_within {ctx : TenantContext} {env : Env} {projectId : String}
    {create : CreateUploadTokenRequest} {folderId : Option String} {req : UploadInitRequest}
    (h : WithinLimits (UploadTokenService.tokenConstraints create) req) :
    ∃ effective, effectiveUpload
      (uploadTokenContext (UploadTokenService.tokenRecord ctx env projectId create folderId)) req
        = .ok effective := by
  refine ⟨_, effectiveUpload_eq_ok.mpr ⟨fun _ => ⟨?_, ?_⟩, rfl⟩⟩
  · rintro m ⟨⟩
    exact h.maxSize
  · rintro types ⟨⟩
    exact .inr (.inr (mimeAllowed_iff.mpr h.mimeTypes))

section Advertised

variable {ctx : TenantContext} {env : Env} {db : Database} {projectId : String}
  {req : CreateUploadTokenRequest} {config : ProjectConfig} {folderId : Option String}

/-- With the token's checks out of the way, the project's decide. -/
theorem honoured_tokenRecord_iff
    (hconfig : ProjectConfigRepository.getForProject db projectId ctx.organizationId = .ok config) :
    Honoured (UploadTokenService.tokenRecord ctx env projectId req folderId) config
        (UploadTokenService.tokenConstraints req) ↔
      ∀ upload, WithinLimits (UploadTokenService.tokenConstraints req) upload →
        checkSize config upload.sizeBytes = .ok ()
          ∧ checkContentType config upload.contentType = .ok () := by
  constructor
  · intro h upload hwithin
    exact ((not_rejectedForLimits_iff (uploadTokenContext _) env hconfig).mp
      (h env db hconfig upload hwithin)).2
  · intro h env' db' hconfig' upload hwithin
    exact (not_rejectedForLimits_iff (uploadTokenContext _) env' hconfig').mpr
      ⟨effectiveUpload_of_within hwithin, h upload hwithin⟩

/-- Every size that is advertised passes: it was asked for and compared, or the default is
within the project's limit. -/
theorem sizes_pass_iff (hcheck : checkTokenConstraints config req = .ok ()) :
    checkSize config (req.maxSize.getD defaultMaxSize) = .ok () ↔
      ∀ m, config.maxFileSizeBytes = some m →
        m = 0 ∨ req.maxSize ≠ none ∨ defaultMaxSize ≤ m := by
  rw [checkSize_eq_ok]
  refine forall₂_congr fun m hm => or_congr_right ?_
  cases hn : req.maxSize with
  | none => simp
  | some n => simpa using checkTokenConstraints_maxSize hcheck hn hm

/-- Every type that matches an entry passes only if the entry is the name of a type. -/
theorem types_pass_iff {entry : String} :
    (∀ contentType, MimeMatches contentType entry → checkContentType config contentType = .ok ()) ↔
      ∀ csv, orNone config.allowedMimeTypes = some csv →
        Text.endsWith (mimePattern entry) "/*" = false ∧ mimePattern entry ∈ csvSet csv := by
  constructor
  · intro h csv hcsv
    constructor
    · by_contra hwildcard
      rw [Bool.not_eq_false] at hwildcard
      obtain ⟨contentType, hmatch, hnot⟩ := exists_mimeMatches_notMem hwildcard (csvSet csv)
      exact hnot (checkContentType_eq_ok.mp (h contentType hmatch) csv hcsv)
    · have hself := checkContentType_eq_ok.mp (h _ (mimeMatches_mimePattern entry)) csv hcsv
      rwa [mimePattern, Text.lower_lower] at hself
  · intro h contentType hmatch
    refine checkContentType_eq_ok.mpr fun csv hcsv => ?_
    obtain ⟨hwildcard, hmem⟩ := h csv hcsv
    -- no wildcard, so the type is the entry
    rcases hmatch with hany | heq | ⟨kind, hkind, -⟩
    · rw [hany] at hwildcard
      exact absurd hwildcard (by decide)
    · exact heq ▸ hmem
    · rw [endsWith_wildcard_iff.mpr ⟨kind, hkind⟩] at hwildcard
      cases hwildcard

/-- Unless no type is allowed, some entry is advertised. -/
theorem exists_advertised (h : req.allowedMimeTypes ≠ some []) :
    ∃ e, e ∈ req.allowedMimeTypes.getD ["*/*"] := by
  rcases htypes : req.allowedMimeTypes with _ | _ | ⟨e, es⟩
  · exact ⟨"*/*", List.mem_singleton_self _⟩
  · exact absurd htypes h
  · exact ⟨e, List.mem_cons_self⟩

/-- A smaller size passes too. -/
theorem checkSize_mono {n n' : ℤ} (hle : n' ≤ n) (h : checkSize config n = .ok ()) :
    checkSize config n' = .ok () :=
  checkSize_eq_ok.mpr fun m hm => (checkSize_eq_ok.mp h m hm).imp_right hle.trans

/-- **Every upload within the limits passes the project's checks** exactly if the limits are within
the project's. -/
theorem uploads_pass_iff (hcheck : checkTokenConstraints config req = .ok ()) :
    (∀ upload, WithinLimits (UploadTokenService.tokenConstraints req) upload →
        checkSize config upload.sizeBytes = .ok ()
          ∧ checkContentType config upload.contentType = .ok ()) ↔ AdvertisedWithin config req := by
  constructor
  · intro h
    have htry : ∀ e ∈ req.allowedMimeTypes.getD ["*/*"], ∀ contentType, MimeMatches contentType e →
        checkSize config (req.maxSize.getD defaultMaxSize) = .ok ()
          ∧ checkContentType config contentType = .ok () := fun e he contentType hmatch =>
      h ⟨"", contentType, req.maxSize.getD defaultMaxSize, none, [], []⟩ ⟨le_refl _, e, he, hmatch⟩
    by_cases hnil : req.allowedMimeTypes = some []
    · exact .inl hnil
    · obtain ⟨e, he⟩ := exists_advertised hnil
      have hsize := (htry e he _ (mimeMatches_mimePattern e)).1
      refine .inr ⟨(sizes_pass_iff hcheck).mp hsize, fun csv hcsv e he => ?_⟩
      exact types_pass_iff.mp (fun contentType hmatch => (htry e he contentType hmatch).2) csv hcsv
  · rintro (hnil | ⟨hsize, htypes⟩) upload ⟨hmax, e, he, hmatch⟩
    · rw [UploadTokenService.tokenConstraints, hnil] at he
      cases he
    · exact ⟨checkSize_mono hmax ((sizes_pass_iff hcheck).mpr hsize),
        types_pass_iff.mpr (fun csv hcsv => htypes csv hcsv e he) upload.contentType hmatch⟩

/-- **Advertised limits are honoured exactly if they are within the project's.** -/
theorem advertised_honoured_iff {token : String} {expiresAt : ℕ}
    {constraints : UploadTokenConstraints} {ws : List DbWrite} {record : UploadToken}
    (hconfig : ProjectConfigRepository.getForProject db projectId ctx.organizationId = .ok config)
    (h : UploadTokenService.create ctx env db projectId req
      = .ok (.uploadToken token expiresAt constraints, ws))
    (hrecord : .insert .uploadTokens record ∈ ws) :
    Honoured record config constraints ↔ AdvertisedWithin config req := by
  obtain ⟨config', folderId, folderWrites, hconfig', hcheck, hfolder, hr, rfl⟩ :=
    UploadTokenService.create_eq_ok h
  obtain rfl := Except.ok.inj (hconfig.symm.trans hconfig')
  obtain ⟨rfl, rfl, rfl⟩ := Response.uploadToken.inj hr
  obtain rfl : record = UploadTokenService.tokenRecord ctx env projectId req folderId := by
    rcases List.mem_append.mp hrecord with hmem | hmem
    · cases UploadTokenService.resolveTokenFolder_table hfolder _ hmem
    · rcases List.mem_cons.mp hmem with heq | hmem
      · cases heq
        rfl
      · cases List.mem_singleton.mp hmem
  exact (honoured_tokenRecord_iff hconfig).trans (uploads_pass_iff hcheck)

end Advertised

/-- A project for images of up to a megabyte. -/
def imagesProject : List ServiceCall :=
  [⟨orgContext "acme", devEnv "p" 1, "", .createProject devProject⟩,
   ⟨orgContext "acme", devEnv "u" 2, "p0", .updateUploadConfig
     { devUploadConfig with
       maxFileSizeBytes := some 1000000
       allowedMimeTypes := some ["image/png"]
       maxFileSizeBytes_pos := by decide }⟩]

/-- The database with that project. -/
def imagesDb : Database := runAll imagesProject Database.empty

/-- A token for what the project allows. -/
def imagesToken : CreateUploadTokenRequest :=
  { devTokenRequest with maxSize := some 1000000, allowedMimeTypes := some ["image/png"] }

theorem advertised_honoured_images : ∃ record config,
    Honoured record config (UploadTokenService.tokenConstraints imagesToken) := by
  obtain ⟨config, hconfig, htypes⟩ : ∃ config,
      ProjectConfigRepository.getForProject imagesDb "p0" (orgContext "acme").organizationId
        = .ok config ∧ orNone config.allowedMimeTypes = some "image/png" := ⟨_, rfl, rfl⟩
  obtain ⟨expiresAt, ws, record, hcreate, hrecord⟩ : ∃ expiresAt ws record,
      UploadTokenService.create (orgContext "acme") (devEnv "t" 3) imagesDb "p0" imagesToken
        = .ok (.uploadToken "fn_upload_token_tsecret" expiresAt
            (UploadTokenService.tokenConstraints imagesToken), ws)
        ∧ .insert .uploadTokens record ∈ ws := ⟨_, _, _, rfl, .head _⟩
  refine ⟨record, config, (advertised_honoured_iff hconfig hcreate hrecord).mpr (.inr
    ⟨fun _ _ => .inr (.inl (Option.some_ne_none _)), fun csv hcsv e he => ?_⟩)⟩
  obtain rfl := Option.some.inj (htypes.symm.trans hcsv)
  obtain rfl := List.mem_singleton.mp he
  decide

/-- An upload a token invites, rejected. -/
theorem advertised_rejected : ¬∀ ctx env db projectId req config token expiresAt constraints ws
    record, Reached db →
    ProjectConfigRepository.getForProject db projectId ctx.organizationId = .ok config →
    UploadTokenService.create ctx env db projectId req
      = .ok (.uploadToken token expiresAt constraints, ws) →
    .insert .uploadTokens record ∈ ws → Honoured record config constraints := by
  intro h
  have hhonoured := h (orgContext "acme") (devEnv "t" 3) imagesDb "p0" devTokenRequest _ _ _ _ _ _
    (reached_runAll .empty imagesProject) rfl rfl (.head _)
  refine hhonoured (devEnv "x" 4) imagesDb rfl
    { filename := "a.png", contentType := "image/png", sizeBytes := 2000000 } ⟨by decide, ?_⟩
    ⟨_, rfl, .inr (.inl rfl)⟩
  exact ⟨"*/*", List.mem_singleton_self _, .inl rfl⟩

end FileNest
