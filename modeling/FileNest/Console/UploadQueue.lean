import FileNest.Lib.EventLoop
import FileNest.Sdk.Uploads

/-!
# The upload queue of the web console

`useFileUpload` shows a list of items, and uploads those that are queued all at once.  Every
upload asks the server actions and the store, and changes its item on the way; meanwhile files
are added and items removed.

A click is handled before the next one, so `startUpload` reads the items that are shown.  What is
written to the console of the browser is left out.

## Main definitions

* `UploadItem`, `ItemPatch` — an item, and its changes.
* `ConsoleRequest`, `ConsoleRequest.Answer` — what an upload asks.
* `uploadSingle`, `uploadMultipart`, `uploadServerSide`, `upload` — the uploads.
* `uploadQueue` — what may happen to the list.

## Main results

* `upload_asks`, `upload_settles` — the status an upload shows while it waits, and at its end.
* `uploadQueue_statuses` — **the list tells what the uploads are doing.**
-/

namespace FileNest

open Exchange EventLoop

/-! ### Items -/

/-- `UploadStatus`. -/
inductive UploadStatus where
  | queued
  | uploading
  | confirming
  | done
  | error
  deriving DecidableEq

/-- `UploadItem`; `progress` is -1 where the server does not tell. -/
structure UploadItem where
  id : String
  file : BrowserFile
  status : UploadStatus
  progress : ℤ
  fileId : Option String
  uploadId : Option String
  error : Option String
  isMultipart : Bool

/-- The item `addFiles` makes of a file; `MULTIPART_THRESHOLD` is the size of a chunk. -/
def newItem (id : String) (file : BrowserFile) : UploadItem where
  id := id
  file := file
  status := .queued
  progress := 0
  fileId := none
  uploadId := none
  error := none
  isMultipart := decide (chunkSize ≤ file.data.length)

/-- The fields of a `Partial<UploadItem>` that the uploads set. -/
structure ItemPatch where
  status : Option UploadStatus := none
  progress : Option ℤ := none
  fileId : Option String := none
  uploadId : Option String := none
  error : Option String := none

/-- `{ ...item, ...patch }`. -/
def UploadItem.update (item : UploadItem) (patch : ItemPatch) : UploadItem :=
  { item with
    status := patch.status.getD item.status
    progress := patch.progress.getD item.progress
    fileId := patch.fileId.orElse fun _ => item.fileId
    uploadId := patch.uploadId.orElse fun _ => item.uploadId
    error := patch.error.orElse fun _ => item.error }

/-- The list of items. -/
def uploadBoard : Board String ItemPatch UploadItem where
  key := UploadItem.id
  apply := UploadItem.update
  key_apply _ _ := rfl

/-- `uploadMode`. -/
inductive UploadMode where
  | presigned
  | server
  deriving DecidableEq

/-- `UploadConfig`. -/
structure UploadConfig where
  projectId : String
  uploadMode : UploadMode
  folderId : Option String
  tags : Option (List String)
  metadata : Option Fields

/-! ### Requests -/

/-- What is thrown: an `Error`, or something else. -/
inductive Thrown where
  | error (message : String)
  | other

/-- `err instanceof Error ? err.message : "Upload failed"`. -/
def Thrown.message : Thrown → String
  | error message => message
  | other => "Upload failed"

/-- The error of a server action. -/
structure ActionError where
  message : Option String

/-- `[data, err]`, unless the call itself fails. -/
inductive ActionAnswer (α : Type) where
  | rejected (thrown : Thrown)
  | returned (data : Option α) (err : Option ActionError)

/-- How an `XMLHttpRequest` ends. -/
inductive XhrAnswer where
  | threw (thrown : Thrown)
  | networkError
  | timedOut
  | loaded (status : ℕ) (etag : Option String) (responseText : String)

/-- The response of the proxy: its `error`, if its body is JSON. -/
inductive ProxyAnswer where
  | rejected (thrown : Thrown)
  | answered (status : ℕ) (json : Except Thrown (Option String))

/-- The form for the proxy. -/
structure UploadForm where
  file : BrowserFile
  projectId : String
  folderId : Option String
  tags : List String
  metadata : Fields

/-- What an upload asks of the server actions, of the store and of the proxy; `shown` is the
progress to show for a percentage of the request. -/
inductive ConsoleRequest where
  | initiateUpload (projectId : String) (body : UploadBody)
  | confirmUpload (projectId fileId : String)
  | initiateMultipart (projectId : String) (body : UploadBody)
  | getPartUrl (projectId uploadId : String) (part : ℕ)
  | completeMultipart (projectId uploadId : String) (parts : List UploadedPart)
  | abortMultipart (projectId uploadId : String)
  | xhrPut (url : String) (body : List UInt8) (contentType : String) (shown : ℤ → ℤ)
  | postUpload (form : UploadForm)

/-- What it is answered; a file comes with its URL, and a session with its file. -/
def ConsoleRequest.Answer : ConsoleRequest → Type
  | initiateUpload _ _ => ActionAnswer (String × String)
  | confirmUpload _ _ => ActionAnswer Unit
  | initiateMultipart _ _ => ActionAnswer (String × String)
  | getPartUrl _ _ _ => ActionAnswer String
  | completeMultipart _ _ _ => ActionAnswer String
  | abortMultipart _ _ => ActionAnswer Unit
  | xhrPut _ _ _ _ => XhrAnswer
  | postUpload _ => ProxyAnswer

/-- An upload of the console. -/
abbrev UploadJob := Job ConsoleRequest.Answer ItemPatch Thrown

/-- What an upload did. -/
abbrev UploadJob.Transcript :=
  Exchange.Transcript (@Act.Answer ConsoleRequest ItemPatch ConsoleRequest.Answer)

/-! #### The server actions -/

/-- `initiateUploadAction`. -/
def initiateUploadAction (projectId : String) (body : UploadBody) :
    UploadJob (ActionAnswer (String × String)) :=
  request (ConsoleRequest.initiateUpload projectId body)

/-- `confirmUploadAction`. -/
def confirmUploadAction (projectId fileId : String) : UploadJob (ActionAnswer Unit) :=
  request (ConsoleRequest.confirmUpload projectId fileId)

/-- `initiateMultipartAction`. -/
def initiateMultipartAction (projectId : String) (body : UploadBody) :
    UploadJob (ActionAnswer (String × String)) :=
  request (ConsoleRequest.initiateMultipart projectId body)

/-- `getPartUrlAction`. -/
def getPartUrlAction (projectId uploadId : String) (part : ℕ) : UploadJob (ActionAnswer String) :=
  request (ConsoleRequest.getPartUrl projectId uploadId part)

/-- `completeMultipartAction`. -/
def completeMultipartAction (projectId uploadId : String) (parts : List UploadedPart) :
    UploadJob (ActionAnswer String) :=
  request (ConsoleRequest.completeMultipart projectId uploadId parts)

/-- `abortMultipartAction`. -/
def abortMultipartAction (projectId uploadId : String) : UploadJob (ActionAnswer Unit) :=
  request (ConsoleRequest.abortMultipart projectId uploadId)

/-- `if (err || !data) throw new Error(err?.message ?? fallback)`. -/
def ActionAnswer.orThrow {α : Type} (fallback : String) : ActionAnswer α → UploadJob α
  | .rejected thrown => .fail thrown
  | .returned (some data) none => .done data
  | .returned none none => .fail (.error fallback)
  | .returned _ (some err) => .fail (.error (err.message.getD fallback))

/-- `if (err) throw new Error(err.message ?? fallback)`. -/
def ActionAnswer.throwError {α : Type} (fallback : String) : ActionAnswer α → UploadJob Unit
  | .rejected thrown => .fail thrown
  | .returned _ none => .done ()
  | .returned _ (some err) => .fail (.error (err.message.getD fallback))

/-- `xhrPut`: the ETag without its quotes, if the status is 2xx. -/
def xhrPut (url : String) (body : List UInt8) (contentType : String) (shown : ℤ → ℤ) :
    UploadJob (Option String) :=
  .ask (.request (.xhrPut url body contentType shown)) fun
    | .threw thrown => .fail thrown
    | .networkError => .fail (.error "Network error during S3 PUT")
    | .timedOut => .fail (.error "Upload timed out")
    | .loaded status etag responseText =>
      if 200 ≤ status ∧ status < 300 then .done ((etag.filter (· ≠ "")).map unquote)
      else .fail (.error ("S3 PUT failed: " ++ toString status ++ " — " ++ responseText))

/-! ### Uploads -/

/-- The body of the requests that register the file. -/
def UploadItem.body (item : UploadItem) (config : UploadConfig) : UploadBody where
  filename := item.file.name
  contentType := orDefault item.file.type "application/octet-stream"
  sizeBytes := item.file.data.length
  folderId := config.folderId.filter (· ≠ "")
  metadata := config.metadata.getD []
  tags := config.tags.getD []

/-- What the browser rounds: `Math.round((loaded / total) * 100)`,
`Math.round((i / chunkCount) * 100)` and `Math.round((pct / 100) * (100 / chunkCount))`. -/
structure Rounding where
  percent : (loaded total : ℕ) → ℤ
  base : (i chunkCount : ℕ) → ℤ
  share : (pct : ℤ) → (chunkCount : ℕ) → ℤ

variable (rounding : Rounding)

/-- `updateItem`, with the status and the message of what was caught. -/
def showError (err : Thrown) : UploadJob Unit :=
  emit { status := some .error, error := some err.message }

/-- What `uploadSingle` tries, after the item is `uploading`. -/
def sendSingle (item : UploadItem) (config : UploadConfig) : UploadJob Unit := do
  let (fileId, uploadUrl) ← initiateUploadAction config.projectId (item.body config)
    >>= ActionAnswer.orThrow "Failed to initiate upload"
  emit { fileId := some fileId }
  let _ ← xhrPut uploadUrl item.file.data (item.body config).contentType id
  emit { status := some .confirming, progress := some 100 }
  confirmUploadAction config.projectId fileId
    >>= ActionAnswer.throwError "Failed to confirm upload"

/-- `uploadSingle`. -/
def uploadSingle (item : UploadItem) (config : UploadConfig) : UploadJob Unit :=
  Prog.rescue (do
    emit { status := some .uploading, progress := some 0 }
    sendSingle item config
    emit { status := some .done }) showError

/-- `Math.min(baseProgress + …, 99)`. -/
def partProgress (i chunkCount : ℕ) (pct : ℤ) : ℤ :=
  min (rounding.base i chunkCount + rounding.share pct chunkCount) 99

/-- A round of the loop over the parts. -/
def sendPart (config : UploadConfig) (uploadId contentType : String) (chunkCount : ℕ) (i : ℕ)
    (chunk : List UInt8) : UploadJob UploadedPart := do
  let url ← getPartUrlAction config.projectId uploadId (i + 1)
    >>= ActionAnswer.orThrow ("Failed to get URL for part " ++ toString (i + 1))
  let etag ← xhrPut url chunk contentType (partProgress rounding i chunkCount)
  if etag.getD "" = "" then
    .fail (.error ("Part " ++ toString (i + 1) ++ " upload succeeded but ETag was missing. " ++
      "Ensure the S3 bucket CORS policy includes ExposeHeaders: [\"ETag\"]."))
  else pure { partNumber := i + 1, etag := etag.getD "" }

/-- What `uploadMultipart` tries, once there is a session. -/
def sendParts (item : UploadItem) (config : UploadConfig) (uploadId fileId : String) :
    UploadJob Unit := do
  emit { uploadId := some uploadId, fileId := some fileId }
  let chunks := WebConsole.chunks item.file.data
  let parts ← Prog.each
    (sendPart rounding config uploadId (item.body config).contentType chunks.length) 0 chunks
  emit { status := some .confirming, progress := some 99 }
  completeMultipartAction config.projectId uploadId parts
    >>= ActionAnswer.throwError "Failed to complete multipart upload"

/-- `if (uploadId) await abortMultipartAction(…)`, with whatever answer. -/
def abortSession (config : UploadConfig) (uploadId : String) : UploadJob Unit :=
  if uploadId = "" then pure ()
  else do
    let _ ← abortMultipartAction config.projectId uploadId

/-- What `uploadMultipart` tries, after the item is `uploading`; there is a session to abort only
once it has begun. -/
def sendMultipart (item : UploadItem) (config : UploadConfig) : UploadJob Unit := do
  let (uploadId, fileId) ← initiateMultipartAction config.projectId (item.body config)
    >>= ActionAnswer.orThrow "Failed to start multipart upload"
  (sendParts rounding item config uploadId fileId).rescue fun err => do
    abortSession config uploadId
    .fail err

/-- `uploadMultipart`. -/
def uploadMultipart (item : UploadItem) (config : UploadConfig) : UploadJob Unit :=
  Prog.rescue (do
    emit { status := some .uploading, progress := some 0 }
    sendMultipart rounding item config
    emit { status := some .done, progress := some 100 }) showError

/-- What `uploadServerSide` tries, after the item is `uploading`. -/
def sendServerSide (item : UploadItem) (config : UploadConfig) : UploadJob Unit :=
  .ask (.request (.postUpload
    { file := item.file, projectId := config.projectId,
      folderId := config.folderId.filter (· ≠ ""), tags := config.tags.getD [],
      metadata := config.metadata.getD [] })) fun
    | .rejected thrown => .fail thrown
    | .answered status json =>
      if 200 ≤ status ∧ status ≤ 299 then Prog.lift (json.map fun _ => ())
      else .fail (.error ((json.toOption.bind id).getD
        ("Server upload failed: " ++ toString status)))

/-- `uploadServerSide`. -/
def uploadServerSide (item : UploadItem) (config : UploadConfig) : UploadJob Unit :=
  Prog.rescue (do
    emit { status := some .uploading, progress := some (-1) }
    sendServerSide item config
    emit { status := some .done, progress := some 100 }) showError

/-- The upload `startUpload` begins for an item. -/
def upload (item : UploadItem) (config : UploadConfig) : UploadJob Unit :=
  match config.uploadMode with
  | .server => uploadServerSide item config
  | .presigned =>
    if item.isMultipart then uploadMultipart rounding item config else uploadSingle item config

/-- What it tries, after the item is `uploading`. -/
def send (item : UploadItem) (config : UploadConfig) : UploadJob Unit :=
  match config.uploadMode with
  | .server => sendServerSide item config
  | .presigned =>
    if item.isMultipart then sendMultipart rounding item config else sendSingle item config

/-! ### What an upload shows -/

/-- The item is `uploading` or `confirming`. -/
def UploadStatus.Active (status : UploadStatus) : Prop := status = .uploading ∨ status = .confirming

instance (status : UploadStatus) : Decidable status.Active := inferInstanceAs (Decidable (_ ∨ _))

/-- The status after a change. -/
def UploadStatus.after (status : UploadStatus) (patch : ItemPatch) : UploadStatus :=
  patch.status.getD status

/-- The status a queued item has after what an upload did. -/
def statusAfter (t : UploadJob.Transcript) : UploadStatus :=
  (emitted t).foldl UploadStatus.after .queued

/-- A change that leaves the item active. -/
def KeepsActive : (Σ a, @Act.Answer ConsoleRequest ItemPatch ConsoleRequest.Answer a) → Prop
  | ⟨.emit patch, _⟩ => patch.status = none ∨ patch.status = some .confirming
  | ⟨.request _, _⟩ => True

section Status

variable {item : UploadItem} {config : UploadConfig} {t : UploadJob.Transcript}

theorem foldl_after_active {status : UploadStatus} (hstatus : status.Active)
    (h : ∀ e ∈ t, KeepsActive e) : ((emitted t).foldl UploadStatus.after status).Active := by
  induction t generalizing status with
  | nil => exact hstatus
  | cons e t ih =>
    obtain ⟨he, ht⟩ := List.forall_mem_cons.mp h
    obtain ⟨a, x⟩ := e
    cases a with
    | request r => exact ih hstatus ht
    | emit patch =>
      refine ih ?_ ht
      rcases he with he | he
      · rwa [UploadStatus.after, he]
      · rw [UploadStatus.after, he]
        exact .inr rfl

theorem every_request (r : ConsoleRequest) :
    Every KeepsActive (request r : UploadJob (ConsoleRequest.Answer r)) :=
  fun _ => ⟨trivial, trivial⟩

theorem every_emit {patch : ItemPatch}
    (h : patch.status = none ∨ patch.status = some .confirming) :
    Every KeepsActive (emit patch : UploadJob Unit) :=
  fun _ => ⟨h, trivial⟩

theorem every_orThrow {α : Type} (fallback : String) (answer : ActionAnswer α) :
    Every KeepsActive (answer.orThrow fallback) := by
  cases answer with
  | rejected thrown => exact trivial
  | returned data err => cases data <;> cases err <;> exact trivial

theorem every_throwError {α : Type} (fallback : String) (answer : ActionAnswer α) :
    Every KeepsActive (answer.throwError fallback) := by
  cases answer with
  | rejected thrown => exact trivial
  | returned data err => cases err <;> exact trivial

theorem every_xhrPut (url : String) (body : List UInt8) (contentType : String) (shown : ℤ → ℤ) :
    Every KeepsActive (xhrPut url body contentType shown) := by
  refine fun x => ⟨trivial, ?_⟩
  cases x with
  | threw thrown => exact trivial
  | networkError => exact trivial
  | timedOut => exact trivial
  | loaded status etag responseText =>
    show Every KeepsActive (if _ then _ else _)
    split <;> exact trivial

theorem every_sendSingle : Every KeepsActive (sendSingle item config) := by
  refine .bind (.bind (every_request _) (every_orThrow _)) fun ⟨fileId, uploadUrl⟩ => ?_
  refine .bind (every_emit (.inl rfl)) fun _ => .bind (every_xhrPut _ _ _ _) fun _ => ?_
  exact .bind (every_emit (.inr rfl)) fun _ => .bind (every_request _) (every_throwError _)

theorem every_sendPart (uploadId contentType : String) (chunkCount i : ℕ) (chunk : List UInt8) :
    Every KeepsActive (sendPart rounding config uploadId contentType chunkCount i chunk) := by
  refine .bind (.bind (every_request _) (every_orThrow _)) fun url => ?_
  refine .bind (every_xhrPut _ _ _ _) fun etag => ?_
  split <;> exact trivial

theorem every_sendParts (uploadId fileId : String) :
    Every KeepsActive (sendParts rounding item config uploadId fileId) := by
  refine .bind (every_emit (.inl rfl)) fun _ => ?_
  refine .bind (.each (every_sendPart rounding uploadId _ _) _ _) fun parts => ?_
  exact .bind (every_emit (.inr rfl)) fun _ => .bind (every_request _) (every_throwError _)

theorem every_abortSession (uploadId : String) :
    Every KeepsActive (abortSession config uploadId) := by
  unfold abortSession
  split
  · exact trivial
  · exact .bind (every_request _) fun _ => trivial

theorem every_sendMultipart : Every KeepsActive (sendMultipart rounding item config) := by
  refine .bind (.bind (every_request _) (every_orThrow _)) fun ⟨uploadId, fileId⟩ => ?_
  refine .rescue (every_sendParts rounding uploadId fileId) fun err => ?_
  exact .bind (every_abortSession uploadId) fun _ => trivial

theorem every_sendServerSide : Every KeepsActive (sendServerSide item config) := by
  refine fun x => ⟨trivial, ?_⟩
  cases x with
  | rejected thrown => exact trivial
  | answered status json =>
    show Every KeepsActive (if _ then _ else _)
    split
    · cases json <;> exact trivial
    · exact trivial

/-- Until an upload is over, it leaves its item active. -/
theorem every_send : Every KeepsActive (send rounding item config) := by
  unfold send
  split
  · exact every_sendServerSide
  · split
    · exact every_sendMultipart rounding
    · exact every_sendSingle

/-- The first change of the item. -/
def startPatch (config : UploadConfig) : ItemPatch where
  status := some .uploading
  progress := some (if config.uploadMode = .server then -1 else 0)

/-- The last, where nothing fails. -/
def donePatch (item : UploadItem) (config : UploadConfig) : ItemPatch where
  status := some .done
  progress := if config.uploadMode = .presigned ∧ item.isMultipart = false then none else some 100

/-- The last, where something does. -/
def errorPatch (err : Thrown) : ItemPatch where
  status := some .error
  error := some err.message

/-- The three uploads differ in what they try. -/
theorem upload_eq (item : UploadItem) (config : UploadConfig) : upload rounding item config =
    Prog.rescue (emit (startPatch config) >>= fun _ => send rounding item config >>= fun _ =>
      emit (donePatch item config)) showError := by
  unfold upload send startPatch donePatch
  cases config.uploadMode with
  | server => rfl
  | presigned => cases item.isMultipart <;> rfl

/-- A change of the item, as the transcript has it. -/
abbrev shown (patch : ItemPatch) :
    Σ a, @Act.Answer ConsoleRequest ItemPatch ConsoleRequest.Answer a := ⟨.emit patch, ()⟩

theorem statusAfter_start (h : ∀ e ∈ t, KeepsActive e) :
    (statusAfter (shown (startPatch config) :: t)).Active := by
  have hstart : UploadStatus.uploading.Active := .inl rfl
  exact foldl_after_active (t := t) hstart h

/-- The upload succeeds. -/
def Succeeds (item : UploadItem) (config : UploadConfig) (t : UploadJob.Transcript) : Prop :=
  ∃ sent, Runs (send rounding item config) sent (.ok ()) ∧
    t = shown (startPatch config) :: (sent ++ [shown (donePatch item config)])

/-- The upload fails. -/
def FailsWith (item : UploadItem) (config : UploadConfig) (err : Thrown)
    (t : UploadJob.Transcript) : Prop :=
  ∃ sent, Runs (send rounding item config) sent (.error err) ∧
    t = shown (startPatch config) :: (sent ++ [shown (errorPatch err)])

/-- **While an upload waits, its item is active.** -/
theorem upload_asks : Asks (upload rounding item config) fun t a =>
    ∀ r, a = .request r → (statusAfter t).Active := by
  rw [upload_eq]
  refine .rescue ?_ fun t err _ => .ask (fun r h => by cases h) fun _ => .done
  refine .ask (fun r h => by cases h) fun _ => .bind (p := send rounding item config) ?_ ?_
  · intro t a next h r _
    exact statusAfter_start ((every_send rounding).follows h)
  · exact fun t _ _ => .ask (fun r h => by cases h) fun _ => .done

/-- **An upload succeeds, or fails.** -/
theorem upload_settles : Ensures (upload rounding item config)
    (fun t _ => Succeeds rounding item config t ∨ ∃ err, FailsWith rounding item config err t)
    (fun _ _ => False) := by
  rw [upload_eq]
  refine .rescue (fun t err => ∃ sent, Runs (send rounding item config) sent (.error err) ∧
    t = shown (startPatch config) :: sent) ?_ ?_
  · refine .ask fun _ => .bind (p := send rounding item config)
      (fun t _ => Runs (send rounding item config) t (.ok ())) ?_ ?_
    · intro t out hrun
      cases out with
      | ok a => exact hrun
      | error err => exact ⟨t, hrun, rfl⟩
    · exact fun t _ hrun => .ask fun _ => .done (.inl ⟨t, hrun, rfl⟩)
  · rintro t err ⟨sent, hrun, rfl⟩
    exact .ask fun _ => .done (.inr ⟨err, sent, hrun, rfl⟩)

end Status

/-! ### The queue -/

/-- A percentage of a PUT is reported. -/
def ReportsProgress (rest : UploadJob Unit) (patch : ItemPatch) : Prop :=
  ∃ url body contentType shown next loaded total,
    rest = .ask (.request (.xhrPut url body contentType shown)) next ∧
      patch = { progress := some (shown (rounding.percent loaded total)) }

/-- What may happen: `addFiles` adds items, `removeFile` and `clearAll` remove some, `startUpload`
begins with what is queued. -/
def uploadQueue : Rules ConsoleRequest.Answer ItemPatch Thrown Unit UploadItem where
  fresh item := item = newItem item.id item.file
  idle _ item := item.status = .queued
  starts item job := ∃ config, job = upload rounding item config
  notes := ReportsProgress rounding

/-- A state of the hook. -/
abbrev UploadQueue := Loop ConsoleRequest.Answer ItemPatch Thrown Unit UploadItem

/-- An upload at work. -/
abbrev UploadTask := Task ConsoleRequest.Answer ItemPatch Thrown Unit UploadItem

/-- The states that can be reached. -/
abbrev UploadQueue.Reached (l : UploadQueue) : Prop :=
  Loop.Reached uploadBoard (uploadQueue rounding) l

/-- `isUploading`. -/
def isUploading (items : List UploadItem) : Bool := items.any fun i => i.status.Active

/-- `allDone`. -/
def allDone (items : List UploadItem) : Bool :=
  !items.isEmpty && items.all fun i => i.status = .done ∨ i.status = .error

/-- `hasQueued`. -/
def hasQueued (items : List UploadItem) : Bool := items.any fun i => i.status = .queued

/-- The item tells what its upload is doing. -/
def UploadTask.Shows (τ : UploadTask) (item : UploadItem) : Prop :=
  ∃ config, τ.job = upload rounding τ.origin config ∧
    ((item.status.Active ∧ ∃ r next, τ.rest = .ask (.request r) next) ∨
      (item.status = .done ∧ τ.rest = .done () ∧
        Succeeds rounding τ.origin config τ.transcript) ∨
      (item.status = .error ∧ τ.rest = .done () ∧ ∃ err, item.error = some err.message ∧
        FailsWith rounding τ.origin config err τ.transcript))

section Queue

variable {rounding} {l : UploadQueue} {τ : UploadTask} {item : UploadItem}

theorem status_foldl (ps : List ItemPatch) (item : UploadItem) :
    (ps.foldl UploadItem.update item).status = ps.foldl UploadStatus.after item.status := by
  induction ps generalizing item with
  | nil => rfl
  | cons p ps ih => exact ih (item.update p)

theorem error_foldl (ps : List ItemPatch) (item : UploadItem) :
    (ps.foldl UploadItem.update item).error
      = ps.foldl (fun error p => p.error.orElse fun _ => error) item.error := by
  induction ps generalizing item with
  | nil => rfl
  | cons p ps ih => exact ih (item.update p)

/-- Reports of progress leave the status. -/
theorem status_view (h : τ.Sound (uploadQueue rounding)) :
    (τ.view uploadBoard).status = statusAfter τ.transcript := by
  have horigin : τ.origin.status = .queued := by rw [show τ.origin = _ from h.fresh]; rfl
  calc (τ.view uploadBoard).status
      = τ.patches.foldl UploadStatus.after τ.origin.status := status_foldl _ _
    _ = τ.patches.foldl UploadStatus.after .queued := by rw [horigin]
    _ = statusAfter τ.transcript := by
        refine h.foldl_patches ?_ _
        rintro rest p ⟨_, _, _, _, _, _, _, -, rfl⟩ status
        rfl

/-- They leave the error. -/
theorem error_view (h : τ.Sound (uploadQueue rounding)) : (τ.view uploadBoard).error
    = (emitted τ.transcript).foldl (fun error p => p.error.orElse fun _ => error)
        τ.origin.error := by
  refine (error_foldl _ _).trans (h.foldl_patches ?_ _)
  rintro rest p ⟨_, _, _, _, _, _, _, -, rfl⟩ error
  rfl

theorem emitted_last {e : Σ a, @Act.Answer ConsoleRequest ItemPatch ConsoleRequest.Answer a}
    {sent : UploadJob.Transcript} {patch : ItemPatch} :
    emitted (e :: (sent ++ [shown patch])) = emitted (e :: sent) ++ [patch] := by
  rw [← List.cons_append, emitted_append]
  rfl

theorem Succeeds.status {t : UploadJob.Transcript} {config : UploadConfig}
    (h : Succeeds rounding item config t) : statusAfter t = .done := by
  obtain ⟨sent, -, rfl⟩ := h
  rw [statusAfter, emitted_last, List.foldl_append]
  rfl

theorem FailsWith.status {t : UploadJob.Transcript} {config : UploadConfig} {err : Thrown}
    (h : FailsWith rounding item config err t) : statusAfter t = .error := by
  obtain ⟨sent, -, rfl⟩ := h
  rw [statusAfter, emitted_last, List.foldl_append]
  rfl

/-- The view of a task is what the upload is doing. -/
theorem shows_view (h : τ.Sound (uploadQueue rounding)) :
    τ.Shows rounding (τ.view uploadBoard) := by
  obtain ⟨config, hjob⟩ := h.starts
  have hfollows := h.follows
  have hwaits := h.waits
  rw [hjob] at hfollows
  refine ⟨config, hjob, ?_⟩
  rw [status_view h]
  cases hrest : τ.rest with
  | fail err =>
    rw [hrest] at hfollows
    exact (upload_settles rounding _ _ hfollows.runs_fail).elim
  | ask a next =>
    rw [hrest] at hfollows hwaits
    cases a with
    | emit p => exact hwaits.elim
    | request r =>
      exact .inl ⟨upload_asks rounding _ _ _ hfollows r rfl, r, next, rfl⟩
  | done u =>
    rw [hrest] at hfollows
    rcases upload_settles rounding _ _ hfollows.runs_done with hsent | ⟨err, hfails⟩
    · exact .inr (.inl ⟨hsent.status, rfl, hsent⟩)
    · refine .inr (.inr ⟨hfails.status, rfl, err, ?_, hfails⟩)
      obtain ⟨sent, -, htranscript⟩ := hfails
      rw [error_view h, htranscript, emitted_last, List.foldl_append]
      rfl

/-- Only an item that no upload has begun with is queued. -/
theorem uploadQueue_tellsIdle : (uploadQueue rounding).TellsIdle uploadBoard := by
  intro l hl origin horigin hidle τ hτ hkey
  obtain ⟨config, -, hcases⟩ := shows_view (hl.tasks τ hτ)
  rw [← hl.shown origin horigin τ hτ hkey, show origin.status = .queued from hidle] at hcases
  rcases hcases with ⟨hactive, -⟩ | ⟨hdone, -⟩ | ⟨herror, -⟩
  · exact absurd hactive (by decide)
  · cases hdone
  · cases herror

theorem UploadQueue.Reached.sound (h : l.Reached rounding) :
    l.Sound uploadBoard (uploadQueue rounding) := Loop.Reached.sound _ _ uploadQueue_tellsIdle h

/-- An item that no upload has begun with is queued, and any other tells what its own is doing. -/
theorem shows_of_sound (h : l.Sound uploadBoard (uploadQueue rounding)) (hitem : item ∈ l.records) :
    (item.status = .queued ∧ ∀ τ ∈ l.tasks, τ.origin.id ≠ item.id) ∨
      ∃ τ ∈ l.tasks, τ.origin.id = item.id ∧ UploadTask.Shows rounding τ item := by
  by_cases htask : ∃ τ ∈ l.tasks, τ.origin.id = item.id
  · obtain ⟨τ, hτ, hkey⟩ := htask
    refine .inr ⟨τ, hτ, hkey, ?_⟩
    rw [h.shown item hitem τ hτ hkey]
    exact shows_view (h.tasks τ hτ)
  · have hnone : ∀ τ ∈ l.tasks, τ.origin.id ≠ item.id := fun τ hτ hkey => htask ⟨τ, hτ, hkey⟩
    refine .inl ⟨?_, hnone⟩
    rw [show item = newItem item.id item.file from h.idle item hitem hnone]
    rfl

/-- An item is active exactly while its upload waits. -/
theorem active_iff (h : l.Reached rounding) (hitem : item ∈ l.records) : item.status.Active ↔
    ∃ τ ∈ l.tasks, τ.origin.id = item.id ∧ ∃ r next, τ.rest = .ask (.request r) next := by
  constructor
  · intro hactive
    rcases shows_of_sound h.sound hitem with ⟨hqueued, -⟩ | ⟨τ, hτ, hid, config, -, hcases⟩
    · rw [hqueued] at hactive
      exact absurd hactive (by decide)
    · rcases hcases with ⟨-, hwaits⟩ | ⟨hdone, -⟩ | ⟨herror, -⟩
      · exact ⟨τ, hτ, hid, hwaits⟩
      · rw [hdone] at hactive
        exact absurd hactive (by decide)
      · rw [herror] at hactive
        exact absurd hactive (by decide)
  · rintro ⟨τ, hτ, hid, r, next, hrest⟩
    have hview := shows_view (h.sound.tasks τ hτ)
    rw [← h.sound.shown item hitem τ hτ hid] at hview
    obtain ⟨config, -, ⟨hactive, -⟩ | ⟨-, hended, -⟩ | ⟨-, hended, -⟩⟩ := hview
    · exact hactive
    · rw [hrest] at hended
      cases hended
    · rw [hrest] at hended
      cases hended

/-- The dialog is locked exactly while an upload of one of its items waits. -/
theorem isUploading_iff (h : l.Reached rounding) : isUploading l.records = true ↔
    ∃ item ∈ l.records, ∃ τ ∈ l.tasks, τ.origin.id = item.id ∧
      ∃ r next, τ.rest = .ask (.request r) next := by
  simp only [isUploading, List.any_eq_true, decide_eq_true_eq]
  exact exists_congr fun item => and_congr_right fun hitem => active_iff h hitem

/-- Where everything is done, no upload of an item waits and none has yet to begin. -/
theorem not_isUploading_of_allDone (h : allDone l.records = true) :
    isUploading l.records = false ∧ hasQueued l.records = false := by
  simp only [allDone, Bool.and_eq_true, List.all_eq_true, decide_eq_true_eq] at h
  simp only [isUploading, hasQueued, List.any_eq_false, decide_eq_true_eq]
  refine ⟨fun item hitem => ?_, fun item hitem => ?_⟩
  · rcases h.2 item hitem with hdone | herror
    · rw [hdone]
      decide
    · rw [herror]
      decide
  · rcases h.2 item hitem with hdone | herror
    · rw [hdone]
      decide
    · rw [herror]
      decide

/-- **Every item tells what its own upload is doing**, whatever the other uploads do meanwhile. -/
theorem uploadQueue_statuses (h : l.Reached rounding) (hitem : item ∈ l.records) :
    (item.status = .queued ∧ ∀ τ ∈ l.tasks, τ.origin.id ≠ item.id) ∨
      ∃ τ ∈ l.tasks, τ.origin.id = item.id ∧ UploadTask.Shows rounding τ item :=
  shows_of_sound h.sound hitem

end Queue

/-! #### Uploads that are granted -/

/-- Every action returns what it is asked for, and every PUT is answered 200 with an ETag. -/
def consoleGrant : (r : ConsoleRequest) → r.Answer
  | .initiateUpload _ _ => .returned (some ("f1", "https://store/f1")) none
  | .confirmUpload _ _ => .returned none none
  | .initiateMultipart _ _ => .returned (some ("u1", "f1")) none
  | .getPartUrl _ _ part => .returned (some ("https://store/f1?part=" ++ toString part)) none
  | .completeMultipart _ _ _ => .returned (some "f1") none
  | .abortMultipart _ _ => .returned none none
  | .xhrPut _ _ _ _ => .loaded 200 (some "1") ""
  | .postUpload _ => .answered 200 (.ok none)

section Granted

variable {rounding : Rounding} {item : UploadItem} {config : UploadConfig}

theorem outcome_xhrPut (url : String) (body : List UInt8) (contentType : String)
    (shown : ℤ → ℤ) : (xhrPut url body contentType shown).outcome (Act.answer consoleGrant)
      = .ok (some "1") := by
  have htag : (((some "1" : Option String).filter (· ≠ "")).map unquote) = some "1" := by decide
  rw [← htag]
  rfl

theorem outcome_sendPart (uploadId contentType : String) (chunkCount i : ℕ) (chunk : List UInt8) :
    (sendPart rounding config uploadId contentType chunkCount i chunk).outcome
      (Act.answer consoleGrant) = .ok { partNumber := i + 1, etag := "1" } := by
  have hurl : (getPartUrlAction config.projectId uploadId (i + 1)
      >>= ActionAnswer.orThrow ("Failed to get URL for part " ++ toString (i + 1))).outcome
        (Act.answer consoleGrant) = .ok ("https://store/f1?part=" ++ toString (i + 1)) := rfl
  have htag : ¬(some "1" : Option String).getD "" = "" := by decide
  rw [sendPart, Prog.outcome_bind hurl, Prog.outcome_bind (outcome_xhrPut _ _ _ _), if_neg htag]
  rfl

theorem outcome_sendParts (uploadId fileId : String) :
    (sendParts rounding item config uploadId fileId).outcome (Act.answer consoleGrant)
      = .ok () := by
  have hround (chunkCount i : ℕ) (chunk : List UInt8) : ∃ part, (sendPart rounding config uploadId
      (item.body config).contentType chunkCount i chunk).outcome (Act.answer consoleGrant)
        = .ok part := ⟨_, outcome_sendPart uploadId _ chunkCount i chunk⟩
  obtain ⟨parts, hparts⟩ := Prog.outcome_each (hround (WebConsole.chunks item.file.data).length) 0
    (WebConsole.chunks item.file.data)
  have hemit (patch : ItemPatch) : (emit patch : UploadJob Unit).outcome (Act.answer consoleGrant)
      = .ok () := rfl
  rw [sendParts, Prog.outcome_bind (hemit _), Prog.outcome_bind hparts, Prog.outcome_bind (hemit _)]
  rfl

theorem outcome_sendMultipart : (sendMultipart rounding item config).outcome
    (Act.answer consoleGrant) = .ok () := by
  have hstart : (initiateMultipartAction config.projectId (item.body config)
      >>= ActionAnswer.orThrow "Failed to start multipart upload").outcome
        (Act.answer consoleGrant) = .ok ("u1", "f1") := rfl
  rw [sendMultipart, Prog.outcome_bind hstart]
  exact Prog.outcome_rescue (outcome_sendParts "u1" "f1")

/-- Where everything is granted, an upload succeeds. -/
theorem outcome_send : (send rounding item config).outcome (Act.answer consoleGrant) = .ok () := by
  unfold send
  split
  · rfl
  · split
    · exact outcome_sendMultipart
    · rfl

theorem outcome_upload : (upload rounding item config).outcome (Act.answer consoleGrant)
    = .ok () := by
  have hemit (patch : ItemPatch) : (emit patch : UploadJob Unit).outcome (Act.answer consoleGrant)
      = .ok () := rfl
  rw [upload_eq]
  refine Prog.outcome_rescue ?_
  rw [Prog.outcome_bind (hemit _), Prog.outcome_bind outcome_send]
  exact hemit _

/-- A configuration with nothing but a project. -/
def consoleUpload (mode : UploadMode) : UploadConfig := ⟨"p0", mode, none, none, none⟩

/-- **Every file can be uploaded.** -/
theorem exists_done (rounding : Rounding) (file : BrowserFile) (config : UploadConfig) :
    ∃ l : UploadQueue, l.Reached rounding ∧ ∃ item ∈ l.records, item.status = .done ∧
      ∃ τ ∈ l.tasks, τ.origin = newItem item.id file ∧ τ.rest = .done () ∧
        Succeeds rounding τ.origin config τ.transcript := by
  have hadd : UploadQueue.Reached rounding ⟨[newItem "i1" file], []⟩ :=
    .step .init (.add [_] (List.forall_mem_singleton.mpr rfl) (by simp) (by simp) (by simp))
  obtain ⟨rs, τ, hreached, hkeys, horigin, hjob, hanswers, hended⟩ :=
    hadd.start_finish consoleGrant List.mem_cons_self rfl ⟨config, rfl⟩
  have hend : τ.rest = .done () := by
    rw [hended, outcome_upload]
    rfl
  have hτ : τ ∈ ([] ++ [τ] : List UploadTask) := List.mem_append_right _ List.mem_cons_self
  have hloop := UploadQueue.Reached.sound hreached
  have hsound := hloop.tasks τ hτ
  have hsucceeds : Succeeds rounding (newItem "i1" file) config τ.transcript := by
    have hruns := hsound.follows
    rw [hjob, hend] at hruns
    refine (upload_settles rounding _ _ hruns.runs_done).resolve_right ?_
    rintro ⟨err, sent, hsent, htranscript⟩
    have hsends : ∀ e ∈ sent, e.2 = Act.answer consoleGrant e.1 := by
      intro e he
      refine hanswers e ?_
      rw [htranscript]
      exact List.mem_cons_of_mem _ (List.mem_append_left _ he)
    have hfails := hsent.outcome_eq hsends
    rw [outcome_send] at hfails
    cases hfails
  -- the record is still there
  obtain ⟨item, hitem, hid⟩ : ∃ item ∈ rs, item.id = "i1" := by
    have hkey : "i1" ∈ rs.map uploadBoard.key := by
      rw [hkeys]
      exact List.mem_cons_self
    exact List.mem_map.mp hkey
  have hkey : τ.origin.id = item.id := by rw [horigin, hid]; rfl
  refine ⟨_, hreached, item, hitem, ?_, τ, hτ, hid ▸ horigin, hend, horigin ▸ hsucceeds⟩
  rw [hloop.shown item hitem τ hτ hkey, status_view hsound]
  exact hsucceeds.status

end Granted

/-- Percentages, rounded down. -/
def devRounding : Rounding where
  percent loaded total := loaded * 100 / total
  base i chunkCount := i * 100 / chunkCount
  share pct chunkCount := pct / chunkCount

/-- An item that is done, and whose upload has succeeded. -/
theorem uploadQueue_statuses_done : ∃ l : UploadQueue, l.Reached devRounding ∧
    ∃ item ∈ l.records, item.status = .done ∧
      ∃ τ ∈ l.tasks, τ.origin.id = item.id ∧ UploadTask.Shows devRounding τ item := by
  obtain ⟨l, hreached, item, hitem, hdone, -⟩ :=
    exists_done devRounding ⟨"a.bin", "", [7]⟩ (consoleUpload .presigned)
  refine ⟨l, hreached, item, hitem, hdone, ?_⟩
  refine (uploadQueue_statuses hreached hitem).resolve_left fun h => ?_
  rw [hdone] at h
  cases h.1

end FileNest
