import FileNest.Metadata.Enforcement
import FileNest.Sdk.Records

/-!
# Metadata through the Node SDK

`files.upload` sends the caller's metadata as it is, and the backend stores and renders it as
it is.  On the way back `camelizeKeys` runs over the whole body, the caller's metadata
included.

## Main definitions

* `NodeUpload` — the request by which `upload` registers a file.
* `UploadedBefore` — the request has committed and a run has gone on since, in which nobody
  set the file's metadata.

## Main results

* `UploadedBefore.metadata_eq` — the stored metadata is what the caller passed.
* `metadata_round_trip_iff` — **the caller gets back what it passed exactly if no key at any
  depth is in snake_case.**
-/

namespace FileNest

open RowStore ReadCommitted

/-! ### The upload -/

/-- The metadata the request carries. -/
def UploadRequest.metadata : UploadRequest → Fields
  | init req => req.metadata
  | start req => req.metadata

/-- The request by which `_singleUpload` or `_multipartUpload` registers a file with metadata;
the Node SDK authenticates with an API key. -/
structure NodeUpload (m : Fields) where
  ctx : TenantContext
  env : Env
  projectId : String
  request : UploadRequest
  apiKey : ctx.isUploadToken = false
  metadata_eq : request.metadata = m

namespace NodeUpload

variable {m : Fields}

/-- The call of the backend. -/
def call (u : NodeUpload m) : ServiceCall := ⟨u.ctx, u.env, u.projectId, u.request.op⟩

/-- The id of the file. -/
def fileId (u : NodeUpload m) : String := u.env.uuid4 0

/-- The backend stores the metadata as it is. -/
theorem uploadMetadata_eq (u : NodeUpload m) : u.call.uploadMetadata = some m := by
  obtain ⟨ctx, env, projectId, request, hkey, rfl⟩ := u
  cases request with
  | init req =>
    show some (ctx.uploadMetadata req.metadata) = _
    rw [TenantContext.uploadMetadata, hkey, cond_false]
    rfl
  | start req => rfl

end NodeUpload

/-- A transaction that leaves the metadata of a file alone. -/
def Call.leavesMetadata (fileId : String) : Call → Prop
  | .service ctx env projectId op => ¬ServiceCall.setsMetadata ⟨ctx, env, projectId, op⟩ fileId
  | .background writes _ => ∀ w ∈ writes, KeepsMetadata w

/-- The run goes on and leaves the metadata of the file alone. -/
def LeavingMetadata (fileId : String) : Guard Table.Row Call := fun _ c _ => c.leavesMetadata fileId

/-- In some run, the upload's request has committed, and nobody has set the file's metadata
since. -/
inductive UploadedBefore {m : Fields} (u : NodeUpload m) : World Table.Row Call → Prop
  | commit (pre post : List (Call × Database)) {db snapshot : Database} {r : Response}
      {ws : List DbWrite}
      (hw : Reachable Call.run .always (· = Database.empty)
        ⟨db, pre ++ (.service u.ctx u.env u.projectId u.request.op, snapshot) :: post⟩)
      (hr : u.call.result snapshot = .ok (r, ws)) (hadm : Admissible ws db) :
      UploadedBefore u ⟨applyAll ws db, pre ++ post⟩
  | step {w w' : World Table.Row Call} (h : UploadedBefore u w)
      (hs : Step Call.run (LeavingMetadata u.fileId) w w') : UploadedBefore u w'

/-! ### What is stored -/

theorem Call.good {commits : Guard Table.Row Call} {w : World Table.Row Call}
    (hw : Reachable Call.run commits (· = Database.empty) w) :
    ∀ x ∈ w.inflight, Database.Good x.2 := by
  intro x hx
  have hstart : ∀ s, s = Database.empty → Database.Good s := by
    rintro _ rfl
    exact Database.good_empty
  exact ((hw.good hstart fun c s ws hs hws => c.run_resolved hs hws).2 x hx).1

namespace UploadedBefore

variable {m : Fields} {u : NodeUpload m} {w : World Table.Row Call}

theorem reachable (h : UploadedBefore u w) :
    Reachable Call.run .always (· = Database.empty) w := by
  induction h with
  | commit pre post hw hr hadm =>
    exact hw.step (.commit pre post (ServiceResult.writes_eq_some.mpr ⟨_, hr⟩) hadm trivial)
  | step _ hs ih => exact ih.step hs.always

/-- The request brings a file with the caller's metadata. -/
theorem metadata_of_upload {db snapshot : Database} {ws : List DbWrite}
    (heffect : MetadataEffect u.call snapshot ws) (hadm : Admissible ws db) :
    ∀ f ∈ applyAll ws db .files, File.id f = u.fileId → f.metadata = m := by
  have hupload' := u.uploadMetadata_eq
  have hsets' : u.call.setsMetadata u.fileId := by
    obtain ⟨ctx, env, projectId, request, -, -⟩ := u
    cases request <;> exact rfl
  cases heffect with
  | keep hsets hupload hws => exact absurd hsets' (hsets _)
  | write hsets hupload hrecord hvalid =>
    rw [hupload] at hupload'
    cases hupload'
  | upload hsets hupload ho hp hrest =>
    rename_i record rest
    obtain rfl : record.metadata = m := Option.some.inj (hupload.symm.trans hupload')
    have hid : u.fileId = record.id := (hsets _).mp hsets'
    intro f hf hfid
    rw [applyAll_cons, applyAll_of_table_ne hrest, apply_insert_self, List.mem_append,
      List.mem_singleton] at hf
    obtain hf | rfl := hf
    · -- the id is new
      exact absurd (hfid.trans hid) (hadm.1 f hf)
    · rfl

/-- **The metadata on record is what the caller passed.** -/
theorem metadata_eq (h : UploadedBefore u w) :
    ∀ f ∈ w.store .files, File.id f = u.fileId → f.metadata = m := by
  induction h with
  | commit pre post hw hr hadm =>
    have hsnap := Call.good hw _ (List.mem_append_right pre List.mem_cons_self)
    exact metadata_of_upload (u.call.metadataEffect hsnap hr) hadm
  | step hbefore hs ih =>
    have hsnaps := Call.good hbefore.reachable
    cases hs with
    | read c => exact ih
    | rollback pre post => exact ih
    | commit pre post hrun hadm hleaves =>
      rename_i db snapshot c ws
      have hsnap := hsnaps _ (List.mem_append_right pre List.mem_cons_self)
      intro f' hf' hid
      have hsame : ∃ f ∈ db .files, File.SameMetadata f f' := by
        cases c with
        | service ctx env projectId op =>
          obtain ⟨r, hr⟩ := ServiceResult.writes_eq_some.mp hrun
          have heffect := ServiceCall.metadataEffect (c := ⟨ctx, env, projectId, op⟩) hsnap hr
          refine (heffect.changed hf').resolve_right ?_
          rw [hid]
          exact hleaves
        | background writes hwrites =>
          obtain rfl : writes = ws := Option.some.inj hrun
          exact mem_files_of_keepsMetadata hleaves hf'
      obtain ⟨f, hf, hf''⟩ := hsame
      rw [← hf''.metadata]
      exact ih f hf (hf''.id.trans hid)

end UploadedBefore

/-! ### What comes back -/

/-- The metadata of a record, as the core client hands it out. -/
theorem property_metadata (iso : ℕ → String) (r : FileResponse) :
    CoreHttp.property (camelizeKeys (r.render iso)) "metadata"
      = some (camelizeKeys (.obj r.metadata)) := by
  have hname : snakeToCamel "metadata" = "metadata" := by decide +kernel
  have hkey : "metadata" ∈ fileBodyKeys := by decide
  have hget : CoreHttp.property (camelizeKeys (r.render iso)) (snakeToCamel "metadata")
      = (CoreHttp.property (r.render iso) "metadata").map camelizeKeys := by
    refine property_camelizeKeys ?_ hkey
    exact fileRecordFields_keys.1
  rw [hname] at hget
  exact hget

/-- **The caller gets its metadata back exactly if no key at any depth is in snake_case.** -/
theorem metadata_round_trip_iff {m : Fields} (hm : (Json.obj m).DistinctKeys) {u : NodeUpload m}
    {w : World Table.Row Call} (hw : UploadedBefore u w) {ctx : TenantContext} {projectId : String}
    {r : FileResponse} {ws : List DbWrite}
    (hget : FileService.getFile ctx w.store projectId u.fileId = .ok (.file r, ws))
    {iso : ℕ → String} {config : CoreHttp.Config} {attempts : ℕ → Attempt}
    {contentLength : Option String}
    (hanswer : lastAnswer CoreHttp.again config.maxRetries attempts
      = .response (Rendered.response iso (.file r) contentLength)) :
    (∃ v, CoreHttp.request config attempts .get = .ok (some v) ∧
        CoreHttp.property v "metadata" = some (.obj m)) ↔
      (Json.obj m).AllKeys fun key => ¬SnakeCase key := by
  simp only [FileService.getFile, readOnly, bind_eq_ok, pure_eq_ok, Prod.mk.injEq,
    Response.file.injEq] at hget
  obtain ⟨record, hrecord, rfl, -⟩ := hget
  obtain ⟨hmem, hid, -⟩ := FileRepository.of_get hrecord
  have hstored : record.metadata = m := hw.metadata_eq record hmem hid
  have hmetadata := property_metadata iso (.ofRecord record)
  rw [show (FileResponse.ofRecord record).metadata = m from hstored] at hmetadata
  rw [CoreHttp.request_response hanswer, ← camelizeKeys_eq_self_iff hm]
  constructor
  · rintro ⟨v, hv, hback⟩
    obtain rfl : camelizeKeys ((FileResponse.ofRecord record).render iso) = v :=
      Option.some.inj (Except.ok.inj hv)
    exact Option.some.inj (hmetadata.symm.trans hback)
  · intro h
    exact ⟨_, rfl, hmetadata.trans (congrArg some h)⟩

/-! ### An upload to the project of `schemaProject` -/

/-- Its body. -/
def nodeRequest (m : Fields) : UploadInitRequest where
  filename := "a.txt"
  contentType := "text/plain"
  sizeBytes := 1
  metadata := m

theorem orgContext_apiKey : (orgContext "acme").isUploadToken = false := by decide

/-- The upload. -/
def nodeUpload (m : Fields) : NodeUpload m where
  ctx := orgContext "acme"
  env := devEnv "f" 3
  projectId := "p0"
  request := .init (nodeRequest m)
  apiKey := orgContext_apiKey
  metadata_eq := rfl

/-- What it writes. -/
def nodeWrites (m : Fields) : List DbWrite :=
  [.insert .files (FileService.initRecord (orgContext "acme") (devEnv "f" 3) "p0" (nodeRequest m)),
    publish (orgContext "acme") (devEnv "f" 3) "p0" 1 "file.upload.initiated"
      [("file_id", .str "f0"), ("filename", .str "a.txt"), ("size_bytes", .int 1)]]

/-- The database after it. -/
def nodeDb (m : Fields) : Database := applyAll (nodeWrites m) (runAll schemaProject Database.empty)

/-- The file as it is rendered. -/
def nodeFile (m : Fields) : FileResponse :=
  .ofRecord (FileService.initRecord (orgContext "acme") (devEnv "f" 3) "p0" (nodeRequest m))

theorem uploadedBefore_nodeUpload (m : Fields) :
    ∃ w, UploadedBefore (nodeUpload m) w ∧ w.store = nodeDb m := by
  obtain ⟨⟨db, inflight⟩, hw, hdb⟩ := reached_runAll .empty schemaProject
  obtain rfl : db = runAll schemaProject Database.empty := hdb
  have htoken : (orgContext "acme").isUploadToken = true → TokenAllows (orgContext "acme") 1
      "text/plain" := fun h => absurd (orgContext_apiKey.symm.trans h) Bool.false_ne_true
  have hr : ∃ r, (nodeUpload m).call.result (runAll schemaProject Database.empty)
      = .ok (r, nodeWrites m) :=
    ⟨_, FileService.initUpload_eq_ok.mpr
      ⟨_, _, _, ⟨rfl, rfl, rfl, rfl⟩, htoken, rfl, rfl, rfl⟩⟩
  have hadm : Admissible (nodeWrites m) (runAll schemaProject Database.empty) :=
    ⟨List.forall_mem_nil _, List.forall_mem_nil _, trivial⟩
  obtain ⟨r, hr⟩ := hr
  exact ⟨_, .commit [] inflight (hw.step (.read _)) hr hadm, rfl⟩

theorem getFile_nodeDb (m : Fields) :
    FileService.getFile (orgContext "acme") (nodeDb m) "p0" "f0" = .ok (.file (nodeFile m), []) :=
  rfl

/-- The answer to `files.get`. -/
def nodeAnswer (m : Fields) : ℕ → Attempt :=
  fun _ => .response (Rendered.response toString (.file (nodeFile m)) none)

/-- Keys that are not in snake_case come back. -/
theorem metadata_round_trip_plain :
    ∃ v, CoreHttp.request ⟨30000, 3⟩
        (nodeAnswer [("patientId", .obj [("ward_7", .null), ("_", .strs ["a_b"])])]) .get
        = .ok (some v) ∧
      CoreHttp.property v "metadata"
        = some (.obj [("patientId", .obj [("ward_7", .null), ("_", .strs ["a_b"])])]) := by
  obtain ⟨w, hw, hdb⟩ := uploadedBefore_nodeUpload
    [("patientId", .obj [("ward_7", .null), ("_", .strs ["a_b"])])]
  have hget := getFile_nodeDb [("patientId", .obj [("ward_7", .null), ("_", .strs ["a_b"])])]
  rw [← hdb] at hget
  refine (metadata_round_trip_iff ?_ hw hget (lastAnswer_const _ _ _)).mpr ?_
  · simp [Json.DistinctKeys, Json.DistinctKeysFields, Json.strs, Json.DistinctKeysElems]
  · refine ⟨by decide, ⟨by decide, trivial, by decide, ?_, trivial⟩, trivial⟩
    exact ⟨trivial, trivial⟩

/-- A key in snake_case comes back renamed. -/
theorem metadata_key_renamed :
    ∃ w, UploadedBefore (nodeUpload [("patient_id", .str "P1")]) w ∧
      FileService.getFile (orgContext "acme") w.store "p0" "f0"
        = .ok (.file (nodeFile [("patient_id", .str "P1")]), []) ∧
      ∃ v, CoreHttp.request ⟨30000, 3⟩ (nodeAnswer [("patient_id", .str "P1")]) .get
          = .ok (some v) ∧
        CoreHttp.property v "metadata" = some (.obj [("patientId", .str "P1")]) ∧
        CoreHttp.property v "metadata" ≠ some (.obj [("patient_id", .str "P1")]) := by
  obtain ⟨w, hw, hdb⟩ := uploadedBefore_nodeUpload [("patient_id", .str "P1")]
  refine ⟨w, hw, hdb ▸ getFile_nodeDb _, _, rfl, ?_⟩
  have hback : CoreHttp.property (camelizeKeys ((nodeFile [("patient_id", .str "P1")]).render
      toString)) "metadata" = some (.obj [("patientId", .str "P1")]) := by decide +kernel
  refine ⟨hback, fun h => ?_⟩
  exact absurd (hback.symm.trans h) (by decide)

end FileNest
