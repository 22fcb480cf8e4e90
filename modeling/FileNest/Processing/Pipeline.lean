import FileNest.FileEffects
import FileNest.Isolation
import FileNest.Outbox

/-!
# The processing pipeline

A run loads the file and the project's configuration, downloads the bytes, and puts
them through the virus scan (if the project has it on), the check of the declared type
and the classification, up to the first stage that does not pass.  The outcome — status,
category and event — is committed in one transaction.  Any exception ends in
`_mark_failed`, whose own exceptions are swallowed.

## Main definitions

* `PipelineEnv` — clock, settings and library calls of a run.
* `Stage.run`, `runStages` — the stages, and the loop over them.
* `PipelineExecutor.execute`, `PipelineExecutor.markFailed` — a run's two transactions.
* `ProcessingWorker.target` — what a message asks for.

## Main results

* `PipelineExecutor.execute_eq_some` — **an outcome replaces `processing`, and a scanned
  project's file is only ready if the scan passed.**
-/

namespace FileNest

open RowStore

/-- What a call of clamd comes back with. -/
inductive ScanReply where
  | timedOut
  | raised (text : String)
  /-- The `stream` entry of the reply, if there is one. -/
  | replied (stream : Option (String × Option String))

/-- Clock, settings and library calls of a run. -/
structure PipelineEnv where
  /-- `datetime.now(UTC)`. -/
  now : ℕ
  /-- The id of the event row. -/
  eventId : String
  settings : Settings
  crypto : Crypto
  clamavTimeout : ℕ := 300
  /-- `provider.download_bytes(key)`. -/
  downloadBytes : StorageProvider → Option String → Except String (List UInt8)
  /-- `cd.instream(content)`. -/
  instream : List UInt8 → ScanReply
  /-- `magic.from_buffer(sample, mime=True)`; `none` if the library is not installed. -/
  fromBuffer : List UInt8 → Except String (Option String)

/-- Outcome from a single pipeline stage. -/
structure StageResult where
  passed : Bool
  reason : Option String := none
  category : Option String := none
  deriving DecidableEq

/-- `VirusScanStage.run`. -/
def VirusScanStage.run (env : PipelineEnv) (filename : String) (content : List UInt8) :
    Except String StageResult :=
  let scanned : Except String (String × Option String) :=
    match env.instream content with
    | .timedOut => .error ("ClamAV scan timed out after " ++ toString env.clamavTimeout ++
        "s for '" ++ filename ++ "' — clamd may still be loading virus definitions")
    | .raised text => .error text
    | .replied stream => .ok (stream.getD ("ERROR", none))
  match scanned with
  | .error text => .error text
  | .ok (status, virusName) =>
      if status = "FOUND" then
        .ok { passed := false, reason := some ("Virus detected: " ++ virusName.getD "None") }
      else if status = "ERROR" then
        .error ("ClamAV scan error for '" ++ filename ++ "': " ++ virusName.getD "None")
      else .ok { passed := true }

/-- `_ALIASES`. -/
def mimeAliases : List (String × List String) :=
  [("image/jpg", ["image/jpeg"]), ("image/jpeg", ["image/jpg"]),
   ("text/plain", ["text/x-python", "text/x-script.python", "application/x-sh"])]

/-- `_COMPATIBLE_PREFIXES`. -/
def compatiblePrefixes : List (String × String) :=
  [("image/svg+xml", "text/xml"), ("image/svg+xml", "application/xml")]

/-- `_types_compatible`. -/
def typesCompatible (declared detected : String) : Bool :=
  declared == detected
    || mimeAliases.any (fun a => a.1 == declared && a.2.contains detected)
    || compatiblePrefixes.contains (declared, detected)

/-- `MimeValidationStage.run`: the first 4 KB are sniffed. -/
def MimeValidationStage.run (env : PipelineEnv) (declaredContentType : String)
    (content : List UInt8) : Except String StageResult := do
  match ← env.fromBuffer (content.take 4096) with
  | none => return { passed := true }
  | some detected =>
      if typesCompatible declaredContentType detected then return { passed := true }
      else return { passed := false, reason := some ("MIME mismatch: declared=" ++
        declaredContentType ++ ", detected=" ++ detected) }

/-- `_CATEGORY_MAP`, by category. -/
def categoryMap : List (String × List String) :=
  [("document", [".pdf", ".doc", ".docx", ".xls", ".xlsx", ".ppt", ".pptx", ".txt", ".rtf",
     ".odt", ".ods", ".odp", ".csv", ".md"]),
   ("image", [".jpg", ".jpeg", ".png", ".gif", ".webp", ".svg", ".bmp", ".tiff", ".tif", ".ico",
     ".heic", ".heif"]),
   ("video", [".mp4", ".avi", ".mov", ".mkv", ".wmv", ".flv", ".webm", ".m4v", ".mpeg", ".mpg"]),
   ("audio", [".mp3", ".wav", ".flac", ".aac", ".ogg", ".m4a", ".wma", ".opus"]),
   ("archive", [".zip", ".tar", ".gz", ".bz2", ".7z", ".rar", ".tgz", ".xz"])]

/-- `ClassificationStage.run`. -/
def ClassificationStage.run (filename : String) : StageResult :=
  let ext := Text.lower (Text.pathSuffix filename)
  { passed := true
    category := some (((categoryMap.find? fun c => c.2.contains ext).map Prod.fst).getD "other") }

/-- The stages. -/
inductive Stage where
  | virusScan | mimeValidation | classification
  deriving DecidableEq

/-- `stage.run(filename, content_type, content)`. -/
def Stage.run (env : PipelineEnv) (record : File) (content : List UInt8) :
    Stage → Except String StageResult
  | virusScan => VirusScanStage.run env record.filename content
  | mimeValidation => MimeValidationStage.run env record.contentType content
  | classification => .ok (ClassificationStage.run record.filename)

/-- The stage list: classification always last. -/
def stageList (config : ProjectConfig) : List Stage :=
  (if config.virusScanEnabled then [.virusScan] else []) ++ [.mimeValidation, .classification]

/-- The variables the stage loop leaves behind. -/
structure StagesOutcome where
  category : Option String := none
  quarantined : Bool := false
  failedReason : Option String := none

/-- The loop over the stages: it stops at the first that does not pass. -/
def runStages (env : PipelineEnv) (record : File) (content : List UInt8) :
    List Stage → Option String → Except String StagesOutcome
  | [], category => .ok { category := category }
  | stage :: stages, category => do
      let result ← stage.run env record content
      let category := result.category.orElse fun _ => category
      if result.passed then runStages env record content stages category
      else if stage = .virusScan then return { category := category, quarantined := true }
      else return { category := category, failedReason := result.reason }

/-- A file a message asks to process. -/
structure Target where
  fileId : String
  organizationId : String
  projectId : String
  deriving DecidableEq

/-- What a transaction of a run commits on the file it loaded. -/
structure Outcome where
  record : File
  status : FileStatus
  category : Option String
  event : String
  payload : Fields

/-- The file as the run saves it. -/
def Outcome.saved (o : Outcome) (now : ℕ) : File :=
  { o.record with
    status := o.status
    updatedAt := now
    category := (orNone o.category).orElse fun _ => o.record.category }

/-- The writes of the transaction. -/
def Outcome.writes (o : Outcome) (env : PipelineEnv) (target : Target) : List DbWrite :=
  [o.record.save (o.saved env.now),
   TransactionalOutboxPublisher.publish env.eventId env.now target.organizationId
     target.projectId o.event o.payload]

/-- Outcome and event of a run whose stages did not raise. -/
def outcomeOf (record : File) (stages : StagesOutcome) : Outcome :=
  if stages.quarantined then
    { record := record, status := .quarantined, category := stages.category
      event := "file.quarantined"
      payload := [("file_id", .str record.id), ("filename", .str record.filename),
        ("storage_key", .optStr record.storageKey), ("reason", .optStr stages.failedReason)] }
  else match stages.failedReason with
    | some reason =>
        { record := record, status := .failed, category := stages.category
          event := "file.processing_failed"
          payload := [("file_id", .str record.id), ("filename", .str record.filename),
            ("reason", .str reason)] }
    | none =>
        { record := record, status := .ready, category := stages.category
          event := "file.ready"
          payload := [("file_id", .str record.id), ("filename", .str record.filename),
            ("storage_key", .optStr record.storageKey),
            ("category", .optStr stages.category)] }

/-- What `str(exc)` gives of an error. -/
def orText {α : Type} : Except ApiError α → Except String α
  | .ok a => .ok a
  | .error e => .error e.text

namespace PipelineExecutor

/-- The provider of a run: the platform default stands in for a missing storage row, also
when building the provider says not found. -/
def provider (env : PipelineEnv) (db : Database) (target : Target) :
    Except ApiError StorageProvider :=
  match StorageConfigRepository.getForProject db target.projectId target.organizationId >>=
      buildProvider env.settings env.crypto with
  | .error (.filenest .notFound _ _) => defaultProvider env.settings
  | x => x

/-- `_execute`: nothing, if the file is not `processing`. -/
def execute (env : PipelineEnv) (db : Database) (target : Target) :
    Except String (Option Outcome) := do
  let record ← orText
    (FileRepository.get db target.fileId target.organizationId target.projectId)
  if record.status ≠ .processing then return none
  else
    let config ← orText
      (ProjectConfigRepository.getForProject db target.projectId target.organizationId)
    let provider ← orText (provider env db target)
    let content ← env.downloadBytes provider record.storageKey
    let stages ← runStages env record content (stageList config) none
    return some (outcomeOf record stages)

/-- `_mark_failed`: the file is failed whatever its status. -/
def markFailed (db : Database) (target : Target) (reason : String) : Except String Outcome := do
  let record ← orText
    (FileRepository.get db target.fileId target.organizationId target.projectId)
  return { record := record, status := .failed, category := none
           event := "file.processing_failed"
           payload := [("file_id", .str target.fileId), ("reason", .str reason)] }

end PipelineExecutor

/-- The messages the worker subscribes to: `filenest.*.*.file.uploaded`. -/
def ProcessingWorker.subscribed (m : Message) : Bool :=
  match Text.split '.' m.subject with
  | ["filenest", _, _, "file", "uploaded"] => true
  | _ => false

/-- `payload["file_id"]`. -/
def Message.fileId (m : Message) : Option String :=
  match m.payload with
  | .obj fields =>
      match Fields.get? fields "file_id" with
      | some (.str fileId) => some fileId
      | _ => none
  | _ => none

/-- What `_handle` reads off a message; `none` if that raises. -/
def ProcessingWorker.target (m : Message) : Option Target :=
  match m.fileId, Text.split '.' m.subject with
  | some fileId, _ :: organizationId :: projectId :: _ => some ⟨fileId, organizationId, projectId⟩
  | _, _ => none

/-- The message announces an event of a file. -/
def Message.announces (m : Message) (f : File) (event : String) : Bool :=
  m.subject == eventSubject f.organizationId f.projectId event && m.fileId == some f.id

/-- What an operation enqueues is quiet, or the event of the upload it settles. -/
theorem FileEffect.event_cases {ctx : TenantContext} {env : Env} {db : Database}
    {projectId : String} {op : Operation} {ws : List DbWrite}
    (h : FileEffect ctx env db projectId op ws) {row : OutboxMessage}
    (hrow : .insert .outboxMessages row ∈ ws) :
    Quiet (.insert .outboxMessages row)
      ∨ ∃ record new, File.save record new ∈ ws ∧ row.message.fileId = some record.id := by
  cases h with
  | none hop hws => exact .inl (hws _ hrow)
  | create hop hstatus hcount hrest =>
    rcases List.mem_cons.mp hrow with heq | hrow
    · cases heq
    · exact .inl (hrest _ hrow)
  | modify pre hop hrecord hstatus hcount hpre hpost =>
    rcases List.mem_append.mp hrow with hrow | hrow
    · exact .inl (hpre _ hrow)
    · rcases List.mem_cons.mp hrow with heq | hrow
      · cases heq
      · exact .inl (hpost _ hrow)
  | settle version hop hrecord hconfig hsettle hpre =>
    rename_i fileId record config status event pre
    obtain ⟨name, payload, rfl, hfile, -⟩ := settleUpload_cases hsettle
    simp only [List.mem_append, List.mem_cons, List.not_mem_nil, or_false] at hrow
    rcases hrow with (hrow | hrow) | heq | heq
    · exact .inl (hpre _ hrow)
    · cases version with
      | none => cases hrow
      | some key =>
        obtain heq := List.mem_singleton.mp hrow
        cases heq
    · cases heq
    · refine .inr ⟨record, record.settled version status env.now, by simp, ?_⟩
      cases heq
      simp [OutboxMessage.message, Message.fileId, hfile]
  | restore hrecord hevent =>
    simp only [List.mem_cons, List.not_mem_nil, or_false] at hrow
    rcases hrow with heq | heq | heq
    · cases heq
    · cases heq
    · exact .inl (heq ▸ hevent)

/-! ### What a run can commit -/

/-- The event that announces a terminal status. -/
def outcomeEvent : FileStatus → Option String
  | .ready => some "file.ready"
  | .failed => some "file.processing_failed"
  | .quarantined => some "file.quarantined"
  | _ => none

/-- A terminal status with its event, of the file that was loaded. -/
structure Outcome.Terminal (o : Outcome) (db : Database) (target : Target) : Prop where
  get_eq : FileRepository.get db target.fileId target.organizationId target.projectId
    = .ok o.record
  event_eq : outcomeEvent o.status = some o.event
  fileId_eq : Fields.get? o.payload "file_id" = some (.str o.record.id)

/-- The message of the outcome's event. -/
def Outcome.message (o : Outcome) (target : Target) : Message :=
  ⟨eventSubject target.organizationId target.projectId o.event, .obj o.payload⟩

theorem Outcome.Terminal.message_fileId {o : Outcome} {db : Database} {target : Target}
    (h : o.Terminal db target) : (o.message target).fileId = some o.record.id := by
  simp [message, Message.fileId, h.fileId_eq]

/-- What the commit of an outcome does to files. -/
theorem Outcome.applyAll_files (o : Outcome) (env : PipelineEnv) (target : Target) (db : Database) :
    applyAll (o.writes env target) db .files = (db .files).map fun (f : File) =>
      if f.id = o.record.id then (o.record.flush (o.saved env.now)).toFun f else f :=
  applyAll_save [] (by simp) (by simp [TransactionalOutboxPublisher.publish]) db

/-- A file that is ready after the commit of an outcome was so before, or the outcome is that it
is ready. -/
theorem Outcome.ready_cases {o : Outcome} {env : PipelineEnv} {target : Target} {db : Database}
    {f' : File} (hf' : f' ∈ applyAll (o.writes env target) db .files)
      (hready : f'.status = .ready) :
    (o.status = .ready ∧ f'.id = o.record.id)
      ∨ ∃ f ∈ db .files, File.status f = .ready ∧ f.id = f'.id ∧ f.projectId = f'.projectId := by
  rw [o.applyAll_files] at hf'
  obtain ⟨f, hf, rfl⟩ := List.mem_map.mp hf'
  by_cases hid : f.id = o.record.id
  · rw [if_pos hid] at hready ⊢
    have hstatus : flushColumn o.record.status o.status f.status = .ready := hready
    by_cases ho : o.status = .ready
    · exact Or.inl ⟨ho, hid⟩
    · exact Or.inr ⟨f, hf, (flushColumn_ne hstatus ho).1, rfl, rfl⟩
  · rw [if_neg hid] at hready ⊢
    exact Or.inr ⟨f, hf, hready, rfl, rfl⟩

theorem Outcome.enqueues (o : Outcome) (env : PipelineEnv) (target : Target) :
    ∀ w ∈ o.writes env target, Enqueues w := by
  intro w hw
  simp only [Outcome.writes, List.mem_cons, List.not_mem_nil, or_false] at hw
  rcases hw with rfl | rfl
  · exact nofun
  · rfl

/-- The virus scan of a run returned passed. -/
def ScanPassed (env : PipelineEnv) (db : Database) (target : Target) : Prop :=
  ∃ record provider content,
    FileRepository.get db target.fileId target.organizationId target.projectId = .ok record
      ∧ PipelineExecutor.provider env db target = .ok provider
      ∧ env.downloadBytes provider record.storageKey = .ok content
      ∧ VirusScanStage.run env record.filename content = .ok { passed := true }

@[simp] theorem orText_eq_ok {α : Type} {x : Except ApiError α} {a : α} :
    orText x = .ok a ↔ x = .ok a := by
  cases x <;> simp [orText]

/-- A scan that passes says nothing else. -/
theorem VirusScanStage.run_of_passed {env : PipelineEnv} {filename : String}
    {content : List UInt8} {result : StageResult} (h : run env filename content = .ok result)
    (hpassed : result.passed = true) : result = { passed := true } := by
  simp only [run] at h
  split at h
  · cases h
  · split at h
    · cases h
      cases hpassed
    · split at h
      · cases h
      · cases h
        rfl

/-- A scan that does not pass quarantines. -/
theorem runStages_virusScan {env : PipelineEnv} {record : File} {content : List UInt8}
    {stages : List Stage} {category : Option String} {out : StagesOutcome}
    (h : runStages env record content (.virusScan :: stages) category = .ok out) :
    out.quarantined = true
      ∨ VirusScanStage.run env record.filename content = .ok { passed := true } := by
  simp only [runStages, Stage.run, bind_eq_ok] at h
  obtain ⟨result, hscan, h⟩ := h
  split at h
  · rename_i hpassed
    obtain rfl := VirusScanStage.run_of_passed hscan hpassed
    exact .inr hscan
  · simp only [if_true, pure_eq_ok] at h
    rw [← h]
    exact .inl rfl

theorem outcomeOf_record (record : File) (stages : StagesOutcome) :
    (outcomeOf record stages).record = record := by
  simp only [outcomeOf]
  split
  · rfl
  · split <;> rfl

theorem outcomeOf_terminal (record : File) (stages : StagesOutcome) :
    outcomeEvent (outcomeOf record stages).status = some (outcomeOf record stages).event
      ∧ Fields.get? (outcomeOf record stages).payload "file_id" = some (.str record.id) := by
  simp only [outcomeOf]
  split
  · exact ⟨rfl, rfl⟩
  · split <;> exact ⟨rfl, rfl⟩

theorem outcomeOf_quarantined {record : File} {stages : StagesOutcome}
    (h : stages.quarantined = true) : (outcomeOf record stages).status = .quarantined := by
  simp [outcomeOf, h]

namespace PipelineExecutor

variable {env : PipelineEnv} {db : Database} {target : Target} {o : Outcome}

/-- **What a run commits**: a terminal status in place of `processing`, and `ready` only
after a scan that passed, if the project has the scan on. -/
theorem execute_eq_some (h : execute env db target = .ok (some o)) :
    o.Terminal db target ∧ o.record.status = .processing
      ∧ ∃ config, ProjectConfigRepository.getForProject db target.projectId
          target.organizationId = .ok config
        ∧ (config.virusScanEnabled = true → o.status = .ready → ScanPassed env db target) := by
  simp only [execute, bind_eq_ok, orText_eq_ok] at h
  obtain ⟨record, hrecord, h⟩ := h
  split at h
  · cases h
  · rename_i hprocessing
    simp only [bind_eq_ok, orText_eq_ok, pure_eq_ok, Option.some.injEq] at h
    obtain ⟨config, hconfig, p, hprovider, content, hcontent, stages, hstages, rfl⟩ := h
    have hrec := outcomeOf_record record stages
    obtain ⟨hevent, hfile⟩ := outcomeOf_terminal record stages
    refine ⟨⟨by rwa [hrec], hevent, by rwa [hrec]⟩, by simpa [hrec] using hprocessing, config,
      hconfig, fun hscan hready => ?_⟩
    simp only [stageList, hscan, if_true, List.singleton_append] at hstages
    rcases runStages_virusScan hstages with hq | hpassed
    · rw [outcomeOf_quarantined hq] at hready
      cases hready
    · exact ⟨record, p, content, hrecord, hprovider, hcontent, hpassed⟩

/-- A run that skips saw the file settled. -/
theorem execute_eq_none (h : execute env db target = .ok none) :
    ∃ record, FileRepository.get db target.fileId target.organizationId target.projectId
      = .ok record ∧ record.status ≠ .processing := by
  simp only [execute, bind_eq_ok, orText_eq_ok] at h
  obtain ⟨record, hrecord, h⟩ := h
  split at h
  · rename_i hstatus
    exact ⟨record, hrecord, hstatus⟩
  · simp only [bind_eq_ok, pure_eq_ok] at h
    obtain ⟨_, -, _, -, _, -, _, -, h⟩ := h
    cases h

theorem markFailed_eq_ok {reason : String} (h : markFailed db target reason = .ok o) :
    o.Terminal db target ∧ o.status = .failed := by
  simp only [markFailed, bind_eq_ok, orText_eq_ok, pure_eq_ok] at h
  obtain ⟨record, hrecord, rfl⟩ := h
  exact ⟨⟨hrecord, rfl, by rw [(FileRepository.of_get hrecord).2.1]; rfl⟩, rfl⟩

end PipelineExecutor

/-! ### Values to compute with -/

/-- A pipeline whose storage, scanner and type detection always answer well. -/
def devPipeline (eventId : String) (now : ℕ) : PipelineEnv where
  now := now
  eventId := eventId
  settings := {}
  crypto := { encrypt := fun _ => .ok "blob", decrypt := fun _ => .ok [] }
  downloadBytes _ _ := .ok [97]
  instream _ := .replied (some ("OK", none))
  fromBuffer _ := .ok (some "text/plain")

/-- A project that scans, and an upload to it, confirmed. -/
def scannedUpload : List ServiceCall :=
  [⟨orgContext "acme", devEnv "p" 1, "", .createProject devProject⟩,
   ⟨orgContext "acme", devEnv "c" 2, "p0",
     .updateProcessingConfig { versioningEnabled := some true, virusScanEnabled := some true }⟩,
   ⟨orgContext "acme", devEnv "f" 3, "p0", .initUpload
     { filename := "a.txt", contentType := "text/plain", sizeBytes := 1 }⟩,
   ⟨orgContext "acme", devEnv "u" 4, "p0", .confirmUpload "f0"⟩]

end FileNest
