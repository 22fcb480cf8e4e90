import FileNest.Projects.Flags
import FileNest.Tokens.Advertised
import FileNest.Uploads.Declared

/-!
# Declared sizes and the columns they go to

The size of a file is the one its upload declared, in a column of 32 bits.  Three gates put a
bound to it: the schema of the request, which takes any integer, the limit of an upload token,
for single uploads, and that of the project, both of which may be absent.  None of them is a
lower bound, and a project without a limit below the width of the column has no upper one.

## Main definitions

* `Storable` — the size fits the column, and is not negative.
* `GatesAdmit` — the request passes the checks of the project and of the token.
* `LetsNothingThrough`, `Capped` — what a configuration may do about it.
* `SizesStorable` — the sizes on record are storable.

## Main results

* `SizesStorable.usage` — no sum of storable sizes is negative.
* `sizes_storable_iff` — **all admitted sizes are storable exactly if nothing is admitted;** while
  storable sizes are declared, those on record are.
-/

namespace FileNest

open RowStore Trace

/-- The size fits a column of 32 bits, and is not negative. -/
structure Storable (sizeBytes : ℤ) : Prop where
  nonneg : 0 ≤ sizeBytes
  fits : sizeBytes < 2 ^ 31

/-- The request passes the checks of the project, and those of an upload token where they are
made. -/
structure GatesAdmit (ctx : TenantContext) (config : ProjectConfig) (request : UploadRequest) :
    Prop where
  project : validateUploadRequest config request.filename request.contentType request.sizeBytes
    = .ok ()
  token : ∀ req, request = .init req → ctx.isUploadToken = true →
    TokenAllows ctx req.sizeBytes req.contentType

/-- The lists of the project let no file through, whatever its size. -/
def LetsNothingThrough (config : ProjectConfig) : Prop :=
  ∀ filename contentType, checkContentType config contentType = .ok () →
    checkExtension config filename ≠ .ok ()

/-- The limit of the project is below the width of the column. -/
def Capped (config : ProjectConfig) : Prop :=
  ∃ m, config.maxFileSizeBytes = some m ∧ m ≠ 0 ∧ m < 2 ^ 31

section Gates

variable {ctx : TenantContext} {config : ProjectConfig}

theorem validateUploadRequest_eq_ok {filename contentType : String} {sizeBytes : ℤ} :
    validateUploadRequest config filename contentType sizeBytes = .ok () ↔
      (∀ m, config.maxFileSizeBytes = some m → m = 0 ∨ sizeBytes ≤ m) ∧
        checkContentType config contentType = .ok () ∧ checkExtension config filename = .ok () := by
  rw [← checkSize_eq_ok]
  unfold validateUploadRequest
  simp only [bind_eq_ok]
  constructor
  · rintro ⟨_, hsize, _, htype, hextension⟩
    exact ⟨hsize, htype, hextension⟩
  · rintro ⟨hsize, htype, hextension⟩
    exact ⟨_, hsize, _, htype, hextension⟩

/-- No token is asked for where parts are put. -/
theorem gatesAdmit_start {req : MultipartStartRequest} :
    GatesAdmit ctx config (.start req) ↔
      (∀ m, config.maxFileSizeBytes = some m → m = 0 ∨ req.totalSizeBytes ≤ m) ∧
        checkContentType config req.contentType = .ok () ∧
        checkExtension config req.filename = .ok () := by
  refine Iff.trans ⟨fun h => h.project, fun h => ⟨h, fun _ heq => by cases heq⟩⟩
    validateUploadRequest_eq_ok

/-- What gets through at all gets through with any size within the limit. -/
theorem exists_admitted (ctx : TenantContext) (h : ¬LetsNothingThrough config) (sizeBytes : ℤ)
    (hsize : ∀ m, config.maxFileSizeBytes = some m → m = 0 ∨ sizeBytes ≤ m) :
    ∃ request, GatesAdmit ctx config request ∧ request.sizeBytes = sizeBytes := by
  unfold LetsNothingThrough at h
  simp only [ne_eq, not_forall, not_not] at h
  obtain ⟨filename, contentType, htype, hextension⟩ := h
  refine ⟨.start { filename, contentType, totalSizeBytes := sizeBytes }, ?_, rfl⟩
  exact gatesAdmit_start.mpr ⟨hsize, htype, hextension⟩

/-- Nothing gets through. -/
theorem LetsNothingThrough.not_admits (h : LetsNothingThrough config) (request : UploadRequest) :
    ¬GatesAdmit ctx config request := by
  intro hadmits
  obtain ⟨-, htype, hextension⟩ := validateUploadRequest_eq_ok.mp hadmits.project
  exact h _ _ htype hextension

/-- **No gate is a lower bound.** -/
theorem admitted_nonneg_iff :
    (∀ request, GatesAdmit ctx config request → 0 ≤ request.sizeBytes)
      ↔ LetsNothingThrough config := by
  constructor
  · intro hnonneg
    by_contra hthrough
    obtain ⟨request, hadmits, hsize⟩ := exists_admitted ctx hthrough
      (min (-1) (config.maxFileSizeBytes.getD 0)) fun m hm => by
        rw [hm]
        exact .inr (min_le_right _ _)
    have hneg := hnonneg request hadmits
    omega
  · exact fun hnothing request hadmits => absurd hadmits (hnothing.not_admits request)

/-- The upper bound is the project's. -/
theorem admitted_fits_iff :
    (∀ request, GatesAdmit ctx config request → request.sizeBytes < 2 ^ 31)
      ↔ LetsNothingThrough config ∨ Capped config := by
  constructor
  · intro hfits
    by_contra hopen
    obtain ⟨hthrough, hcap⟩ := not_or.mp hopen
    obtain ⟨request, hadmits, hsize⟩ := exists_admitted ctx hthrough (2 ^ 31) fun m hm => by
        by_contra hover
        obtain ⟨hzero, hle⟩ := not_or.mp hover
        exact hcap ⟨m, hm, hzero, not_le.mp hle⟩
    have hlt := hfits request hadmits
    omega
  · rintro (hnothing | ⟨m, hm, hzero, hlt⟩) request hadmits
    · exact absurd hadmits (hnothing.not_admits request)
    · obtain ⟨hsize, -⟩ := validateUploadRequest_eq_ok.mp hadmits.project
      exact ((hsize m hm).resolve_left hzero).trans_lt hlt

/-- All admitted sizes are storable exactly if nothing is admitted. -/
theorem admitted_storable_iff :
    (∀ request, GatesAdmit ctx config request → Storable request.sizeBytes)
      ↔ LetsNothingThrough config := by
  constructor
  · intro hstorable
    exact admitted_nonneg_iff.mp fun request hadmits => (hstorable request hadmits).nonneg
  · exact fun hnothing request hadmits => absurd hadmits (hnothing.not_admits request)

end Gates

/-! ### Sizes on record -/

/-- The sizes on record are storable. -/
structure SizesStorable (db : Database) : Prop where
  files : ∀ u ∈ uploads db, Storable u.sizeBytes
  versions : ∀ v ∈ (db .fileVersions : List FileVersion), Storable v.sizeBytes

/-- If the call begins an upload, it declares a storable size. -/
def DeclaresStorable (_db : Database) (c : ServiceCall) : Prop :=
  ∀ request : UploadRequest, c.op = request.op → Storable request.sizeBytes

section Runs

variable {db : Database}

theorem totalSize_nonneg {files : List File} (h : ∀ f ∈ files, 0 ≤ f.sizeBytes) :
    0 ≤ totalSize files := by
  induction files with
  | nil => exact le_rfl
  | cons f files ih =>
    obtain ⟨hf, hfiles⟩ := List.forall_mem_cons.mp h
    exact add_nonneg hf (ih hfiles)

/-- **No sum is negative.** -/
theorem SizesStorable.usage (h : SizesStorable db) (now : ℕ) (organizationId : String) :
    0 ≤ (UsageRepository.getStats db now organizationId).totalStorageBytes ∧
      ∀ item ∈ UsageRepository.getProjectBreakdown db organizationId, 0 ≤ item.storageBytes := by
  have hfile : ∀ f ∈ (db .files : List File), 0 ≤ f.sizeBytes := by
    intro f hf
    exact (h.files f.upload (List.mem_map_of_mem hf)).nonneg
  constructor
  · exact totalSize_nonneg fun f hf => hfile f (List.mem_of_mem_filter hf)
  · intro item hitem
    unfold UsageRepository.getProjectBreakdown at hitem
    obtain ⟨p, -, rfl⟩ := List.mem_map.mp ((Sql.perm_orderByDesc _ _).mem_iff.mp hitem)
    exact totalSize_nonneg fun f hf => hfile f (List.mem_of_mem_filter hf)

/-- What an operation begins has the size it declares. -/
theorem Declares.sizeBytes_eq {ctx : TenantContext} {env : Env} {projectId : String}
    {op : Operation} {u : Upload} (h : Declares ctx env db projectId op u) :
    ∃ request : UploadRequest, op = request.op ∧ u.sizeBytes = request.sizeBytes := by
  cases h with
  | init _ _ => exact ⟨.init _, rfl, rfl⟩
  | start _ => exact ⟨.start _, rfl, rfl⟩

/-- One call. -/
theorem SizesStorable.serve (hdb : db.Good) (hkeys : KeysFromIds db) (h : SizesStorable db)
    {c : ServiceCall} (hc : DeclaresStorable db c) :
    KeysFromIds (c.serve db) ∧ SizesStorable (c.serve db) := by
  unfold ServiceCall.serve
  rcases hr : c.result db with e | ⟨r, ws⟩
  · exact ⟨hkeys, h⟩
  simp only [commit]
  split
  swap
  · exact ⟨hkeys, h⟩
  have hkept := UploadsKept.applyAll (Operation.uploadWrites hdb hkeys hr) db
  have hkeys' : KeysFromIds (applyAll ws db) :=
    hkeys.kept hkept (fun u hu => hu.storageKey_eq) fun _ hu => hu
  have hfiles : ∀ u ∈ uploads (applyAll ws db), Storable u.sizeBytes := by
    intro u hu
    obtain hold | hnew := hkept.new u hu
    · exact h.files u hold
    · obtain ⟨request, hop, hsize⟩ := hnew.sizeBytes_eq
      rw [hsize]
      exact hc request hop
  refine ⟨hkeys', hfiles, fun v hv => ?_⟩
  obtain ⟨u, hu, hof⟩ := hkeys'.versions v hv
  rw [← hof.sizeBytes_eq]
  exact hfiles u hu

/-- **While storable sizes are declared, those on record are storable.** -/
theorem sizes_storable_run (calls : List ServiceCall)
    (h : EachStep ServiceCall.serve DeclaresStorable Database.empty calls) :
    Throughout ServiceCall.serve SizesStorable Database.empty calls := by
  have hempty : SizesStorable Database.empty :=
    ⟨fun u hu => (by cases hu), fun v hv => (by cases hv)⟩
  have hkeys : KeysFromIds Database.empty := ⟨fun u hu => (by cases hu), fun v hv => (by cases hv)⟩
  have hrun := h.throughout (P := fun db => Database.Good db ∧ KeysFromIds db ∧ SizesStorable db)
    (fun db c hdb hc => ⟨hdb.1.serve c, hdb.2.2.serve hdb.1 hdb.2.1 hc⟩)
    ⟨Database.good_empty, hkeys, hempty⟩
  exact hrun.imp fun _ hdb => hdb.2.2

/-- **Admitted sizes are storable exactly if nothing is admitted**; they fit the column if the
limit of the project does; and while clients declare storable sizes, those on record are, and no
sum is negative. -/
theorem sizes_storable_iff (ctx : TenantContext) (config : ProjectConfig)
    (calls : List ServiceCall) :
    ((∀ request, GatesAdmit ctx config request → Storable request.sizeBytes)
        ↔ LetsNothingThrough config) ∧
      ((∀ request, GatesAdmit ctx config request → request.sizeBytes < 2 ^ 31)
        ↔ LetsNothingThrough config ∨ Capped config) ∧
      (EachStep ServiceCall.serve DeclaresStorable Database.empty calls →
        Throughout ServiceCall.serve (fun db => SizesStorable db ∧ ∀ now organizationId,
          0 ≤ (UsageRepository.getStats db now organizationId).totalStorageBytes)
          Database.empty calls) := by
  refine ⟨admitted_storable_iff, admitted_fits_iff, fun h => ?_⟩
  refine (sizes_storable_run calls h).imp fun db hsizes => ⟨hsizes, fun now organizationId => ?_⟩
  exact (hsizes.usage now organizationId).1

end Runs

/-- A project is created, and an upload of less than nothing begins. -/
def negativeUpload : List ServiceCall :=
  [⟨orgContext "acme", devEnv "p" 1, "", .createProject devProject⟩,
    ⟨orgContext "acme", devEnv "f" 2, "p0", .initUpload ⟨"a.txt", "text/plain", -1, none, [], []⟩⟩]

/-- The upload is admitted, and the organisation uses less than nothing. -/
theorem negative_size_admitted :
    (UsageRepository.getStats (runAll negativeUpload Database.empty) 3 "acme").totalStorageBytes
        = -1 ∧
      (∃ config ∈ (runAll negativeUpload Database.empty .projectConfigs : List ProjectConfig),
        ∃ request, GatesAdmit (orgContext "acme") config request ∧
          ¬Storable request.sizeBytes) ∧
      ¬Throughout ServiceCall.serve SizesStorable Database.empty negativeUpload := by
  refine ⟨by decide, ?_, fun h => ?_⟩
  · refine ⟨_, .head _, .init ⟨"a.txt", "text/plain", -1, none, [], []⟩, ⟨rfl, ?_⟩, fun h => ?_⟩
    · rintro req - htoken
      cases htoken
    · exact absurd h.nonneg (by decide)
  · have hsum := (h.last.usage 3 "acme").1
    have hneg : (UsageRepository.getStats (runAll negativeUpload Database.empty) 3
      "acme").totalStorageBytes = -1 := by decide
    exact absurd (hneg ▸ hsum) (by decide)

end FileNest
