import FileNest.Isolation
import FileNest.Lib.Overlap
import FileNest.Uploads.Admission
import Mathlib.Data.Set.Finite.Basic

/-!
# How many files a token may create

An upload token carries a maximum number of files.  It is stored, and it reaches the
context of every request the token makes, but neither way to begin an upload reads it.
Requests that overlap even pass by the in-flight limit of the project, so a token that is
admitted once is admitted any number of times.

## Main definitions

* `TokenUpload`, `tokenUploads` — upload requests with a bearer token, and their runs.
* `MaxFilesKept` — no run creates more files than the token allows.
* `UploadAdmitted` — what a request has to pass.

## Main results

* `tokenUploads_eq_some`, `UploadAdmitted.redraw` — what a request that is admitted writes.
* `max_files_kept_iff` — **the limit is kept exactly where nothing at all can be uploaded.**
* `max_files_exceeded` — two files through a token for one.
-/

namespace FileNest

open RowStore ReadCommitted

/-- An upload request with a bearer token. -/
structure TokenUpload where
  env : Env
  projectId : String
  request : UploadRequest

/-- The request authenticates, and is handled. -/
def TokenUpload.result (c : TokenUpload) (token : String) (db : Database) : ServiceResult := do
  let ctx ← verifyUploadToken db c.env.now token
  handle ctx c.env ⟨c.projectId, c.request.op⟩ db

/-- The upload requests made with a token. -/
def tokenUploads (token : String) : Program Table.Row TokenUpload := fun c db =>
  (c.result token db).writes

/-- However the upload requests made with the token interleave, they create no more files than
it allows. -/
def MaxFilesKept (token : String) (db : Database) : Prop :=
  ∀ record ∈ db .uploadTokens, UploadToken.token record = token →
    ∀ m, record.maxFiles = some m →
      ∀ w, Reachable (tokenUploads token) .always (· = db) w →
        ((w.store .files).length : ℤ) ≤ (db .files).length + m

/-- The token is valid, on its project, and from an address the project allows; the project
admits the upload, and so does the token. -/
structure UploadAdmitted (token : String) (c : TokenUpload) (db : Database) (record : UploadToken)
    (config : ProjectConfig) (provider : StorageProvider) : Prop where
  record_eq : UploadTokenRepository.getByToken db c.env.now token = .ok (some record)
  projectId_eq : record.projectId = c.projectId
  address : checkIpAllowlist c.env.ip c.env.request config.allowedIps = .ok ()
  admits : ProjectAdmits (uploadTokenContext record) c.env db c.projectId c.request.filename
    c.request.contentType c.request.sizeBytes config provider
  allows : ∀ req, c.request = .init req →
    TokenAllows (uploadTokenContext record) req.sizeBytes req.contentType

/-- **The condition**: no upload request made with the token is admitted. -/
def NoUploadAdmitted (token : String) (db : Database) : Prop :=
  ∀ c record config provider, ¬UploadAdmitted token c db record config provider

section Request

variable {token : String} {c : TokenUpload} {db : Database} {record : UploadToken}
  {config : ProjectConfig} {provider : StorageProvider} {ws : List DbWrite}

/-- **What writes was admitted.** -/
theorem tokenUploads_eq_some (h : tokenUploads token c db = some ws) :
    ∃ record config provider, UploadAdmitted token c db record config provider := by
  obtain ⟨r, h⟩ := ServiceResult.writes_eq_some.mp h
  simp only [TokenUpload.result, bind_eq_ok] at h
  obtain ⟨ctx, hverify, h⟩ := h
  obtain ⟨record, hrecord, rfl⟩ := verifyUploadToken_eq_ok.mp hverify
  obtain ⟨hcheck, -, h⟩ := handle_ok h
  obtain ⟨env, projectId, request⟩ := c
  simp only [request.gates.1, Dependency.check, bind_eq_ok] at hcheck
  obtain ⟨_, hproject, config, hconfig, haddress⟩ := hcheck
  have hprojectId : record.projectId = projectId := by
    simp only [requireProject, uploadTokenContext] at hproject
    split at hproject
    · assumption
    · cases hproject
  cases request with
  | init req =>
    obtain ⟨config', provider, url, hadmits, hallows, -⟩ := FileService.initUpload_eq_ok.mp h
    obtain rfl := Except.ok.inj (hconfig.symm.trans hadmits.config_eq)
    refine ⟨record, config, provider, hrecord, hprojectId, haddress, hadmits, ?_⟩
    rintro _ ⟨⟩
    exact hallows (isUploadToken_uploadTokenContext record)
  | start req =>
    obtain ⟨config', provider, uploadId, hadmits, -⟩ := MultipartUploadService.start_eq_ok.mp h
    obtain rfl := Except.ok.inj (hconfig.symm.trans hadmits.config_eq)
    exact ⟨record, config, provider, hrecord, hprojectId, haddress, hadmits, fun _ h => by cases h⟩

/-- The same request with other ids, from a storage that answers. -/
def TokenUpload.redraw (c : TokenUpload) (ids : ℕ → String) : TokenUpload :=
  { c with env := { c.env with uuid4 := ids, storage := devStorage } }

/-- A request that is admitted creates one file, whatever ids it draws. -/
theorem UploadAdmitted.redraw (h : UploadAdmitted token c db record config provider)
    (ids : ℕ → String) : ∃ (f : File) (w : DbWrite), w.table ≠ .files ∧ w.Inserts (ids 1)
      ∧ f.id = ids 0 ∧ tokenUploads token (c.redraw ids) db = some [.insert .files f, w] := by
  obtain ⟨env, projectId, request⟩ := c
  obtain ⟨hrecord, hprojectId, haddress, hadmits, hallows⟩ := h
  obtain ⟨hdependency, hscopes, hvalid⟩ := request.gates
  have hcheck : Dependency.check (uploadTokenContext record)
      { env with uuid4 := ids, storage := devStorage } db projectId .projectAndAllowlist
        = .ok () := by
    simp only [Dependency.check, bind_eq_ok]
    refine ⟨(), ?_, config, hadmits.config_eq, haddress⟩
    exact if_pos hprojectId
  have hscope : requireScope (uploadTokenContext record) ["files:upload"] = .ok () := by
    rw [requireScope, if_pos (by simp [uploadTokenContext])]
    rfl
  -- past the checks, the operation
  have hrun : ∀ r ws, request.op.run (uploadTokenContext record)
      { env with uuid4 := ids, storage := devStorage } db projectId = .ok (r, ws) →
      tokenUploads token ((⟨env, projectId, request⟩ : TokenUpload).redraw ids) db = some ws := by
    intro r ws hres
    refine ServiceResult.writes_eq_some.mpr ⟨r, ?_⟩
    simp only [TokenUpload.result, TokenUpload.redraw, bind_eq_ok]
    refine ⟨_, verifyUploadToken_eq_ok.mpr ⟨record, hrecord, rfl⟩, ?_⟩
    rw [handle_of_checks (by rw [hdependency, hcheck]) (by rw [hscopes, hscope]) hvalid, hres]
  have hadmits' : ProjectAdmits (uploadTokenContext record)
      { env with uuid4 := ids, storage := devStorage } db projectId request.filename
      request.contentType request.sizeBytes config provider :=
    ⟨hadmits.config_eq, hadmits.validates, hadmits.inFlight, hadmits.provider_eq⟩
  cases request with
  | init req =>
    refine ⟨_, _, ?_, ?_, ?_, hrun _ _ (FileService.initUpload_eq_ok.mpr
      ⟨config, provider, _, hadmits', fun _ => hallows req rfl, rfl, rfl, rfl⟩)⟩
    · simp [publish, TransactionalOutboxPublisher.publish]
    · exact ⟨_, _, rfl, rfl⟩
    · rfl
  | start req =>
    refine ⟨_, _, ?_, ?_, ?_, hrun _ _ (MultipartUploadService.start_eq_ok.mpr
      ⟨config, provider, _, hadmits', rfl, rfl, rfl⟩)⟩
    · simp
    · exact ⟨_, _, rfl, rfl⟩
    · rfl

end Request

/-! ### Runs -/

/-- The tables. -/
def tables : List Table :=
  [.projects, .projectConfigs, .storageConfigs, .files, .fileVersions, .folders, .metadataSchemas,
   .uploadTokens, .uploadSessions, .webhooks, .webhookDeliveries, .outboxMessages]

theorem mem_tables (t : Table) : t ∈ tables := by
  cases t <;> decide

/-- Ids that are not on record, all different. -/
theorem exists_fresh_ids (db : Database) : ∃ ids : ℕ → String, Function.Injective ids
    ∧ ∀ t, ∀ r ∈ db t, ∀ n, rowId r ≠ ids n := by
  have hinfinite : {i | i ∈ tables.flatMap fun t => (db t).map rowId}ᶜ.Infinite :=
    (List.finite_toSet _).infinite_compl
  refine ⟨fun n => (hinfinite.natEmbedding _ n).1, fun m n h => ?_, fun t r hr n heq => ?_⟩
  · exact (hinfinite.natEmbedding _).injective (Subtype.ext h)
  · refine (hinfinite.natEmbedding _ n).2 (List.mem_flatMap.mpr ⟨t, mem_tables t, ?_⟩)
    exact List.mem_map.mpr ⟨r, hr, heq⟩

section Runs

variable {token : String} {c : TokenUpload} {db : Database} {record : UploadToken}
  {config : ProjectConfig} {provider : StorageProvider}

/-- **A token that is admitted once is admitted any number of times**: all requests read before
the first of them commits. -/
theorem UploadAdmitted.overlap (h : UploadAdmitted token c db record config provider) (n : ℕ) :
    ∃ w, Reachable (tokenUploads token) .always (· = db) w
      ∧ (w.store .files).length = (db .files).length + n := by
  obtain ⟨ids, hinjective, hfresh⟩ := exists_fresh_ids db
  choose f x htable hinserts hid hwrites using fun i => h.redraw fun k => ids (2 * i + k)
  have hcalls : List.Forall₂ (fun c ws => tokenUploads token c db = some ws)
      ((List.range n).map fun i => c.redraw fun k => ids (2 * i + k))
      ((List.range n).map fun i => [.insert .files (f i), x i]) := by
    rw [List.forall₂_map_left_iff, List.forall₂_map_right_iff, List.forall₂_same]
    exact fun i _ => hwrites i
  have hins : List.Forall₂ Write.Inserts
      ((List.range n).map fun i => [.insert .files (f i), x i]).flatten
      ((List.range n).flatMap fun i => [ids (2 * i), ids (2 * i + 1)]) := by
    refine List.rel_flatMap (R := Eq) (List.forall₂_refl _) ?_
    rintro i _ rfl
    exact .cons ⟨.files, f i, rfl, hid i⟩ (.cons (hinserts i) .nil)
  have hadm : Admissible ((List.range n).map fun i => [.insert .files (f i), x i]).flatten db := by
    refine admissible_of_fresh hins ?_ fun t r hr hmem => ?_
    · refine List.nodup_flatMap.mpr ⟨fun i _ => ?_, List.nodup_range.imp fun hne => ?_⟩
      · simp [hinjective.eq_iff]
      · simp only [Function.onFun, List.disjoint_cons_left, List.mem_cons, List.not_mem_nil,
          or_false, hinjective.eq_iff, List.disjoint_nil_left, and_true]
        omega
    · obtain ⟨i, -, hi⟩ := List.mem_flatMap.mp hmem
      simp only [List.mem_cons, List.not_mem_nil, or_false] at hi
      rcases hi with hi | hi <;> exact hfresh t r hr _ hi
  have hstart : Reachable (tokenUploads token) .always (· = db) ⟨db, []⟩ := .init rfl
  have hone : ∀ ws ∈ (List.range n).map fun i => [.insert .files (f i), x i], ∀ s : Database,
      (applyAll ws s .files).length = (s .files).length + 1 := by
    intro ws hws s
    obtain ⟨i, -, rfl⟩ := List.mem_map.mp hws
    rw [applyAll_cons, applyAll_cons, applyAll_nil, apply_of_table_ne (htable i), apply_insert_self,
      List.length_append, List.length_singleton]
  have hcount := count_applyAll_flatten (fun s : Database => (s .files).length) hone db
  rw [List.length_map, List.length_range] at hcount
  exact ⟨_, hstart.overlap hcalls hadm, hcount⟩

/-- Where nothing is admitted nothing changes. -/
theorem NoUploadAdmitted.store_eq (h : NoUploadAdmitted token db) {w : World Table.Row TokenUpload}
    (hw : Reachable (tokenUploads token) .always (· = db) w) : w.store = db := by
  refine (hw.invariant (P := (· = db)) (Q := fun _ snapshot _ => snapshot = db) ?_ ?_ ?_).1
  · exact fun s hs => hs
  · exact fun c s hs => hs
  · rintro s c snapshot ws - rfl hws - -
    obtain ⟨record, config, provider, hadmitted⟩ := tokenUploads_eq_some hws
    exact absurd hadmitted (h c record config provider)

/-- **The limit of a token is kept exactly where nothing at all can be uploaded with it**: from
every database, over all interleavings of its upload requests. -/
theorem max_files_kept_iff (token : String) (db : Database) :
    MaxFilesKept token db ↔ ∀ record ∈ db .uploadTokens, UploadToken.token record = token →
      ∀ m, record.maxFiles = some m → 0 ≤ m ∧ NoUploadAdmitted token db := by
  refine forall₂_congr fun record _ => forall₃_congr fun _ m _ => ?_
  constructor
  · intro h
    have hzero : ((db .files).length : ℤ) ≤ (db .files).length + m := h _ (.init rfl)
    refine ⟨by omega, fun c record' config provider hadmitted => ?_⟩
    obtain ⟨w, hw, hlength⟩ := hadmitted.overlap (m.toNat + 1)
    have hmax := h w hw
    rw [hlength] at hmax
    omega
  · rintro ⟨hm, hnone⟩ w hw
    rw [hnone.store_eq hw]
    omega

end Runs

/-- A project with a token for one file. -/
def tokenProject : List ServiceCall :=
  [⟨orgContext "acme", devEnv "p" 1, "", .createProject devProject⟩,
   ⟨orgContext "acme", devEnv "t" 2, "p0", .createUploadToken
     { devTokenRequest with maxFiles := some 1 }⟩]

/-- An upload with that token. -/
def tokenUpload (tag : String) : TokenUpload :=
  ⟨devEnv tag 3, "p0", .init { filename := "a.txt", contentType := "text/plain", sizeBytes := 1 }⟩

/-- Two files through a token for one, one after the other. -/
theorem max_files_exceeded : ¬∀ token db, Reached db → MaxFilesKept token db := by
  intro h
  have hdb := reached_runAll .empty tokenProject
  obtain ⟨record, hrecord, htoken, hmax⟩ :
      ∃ record ∈ runAll tokenProject Database.empty .uploadTokens,
        UploadToken.token record = "fn_upload_token_tsecret" ∧ record.maxFiles = some 1 := by decide
  have hstart : Reachable (tokenUploads "fn_upload_token_tsecret") .always
      (· = runAll tokenProject Database.empty) ⟨runAll tokenProject Database.empty, []⟩ := .init rfl
  have hfirst := (hstart.step (.read (tokenUpload "x"))).step
    (.commit [] [] rfl (by decide) trivial)
  have hsecond := (hfirst.step (.read (tokenUpload "y"))).step
    (.commit [] [] rfl (by decide) trivial)
  exact absurd (h _ _ hdb record hrecord htoken 1 hmax _ hsecond) (by decide)

end FileNest
