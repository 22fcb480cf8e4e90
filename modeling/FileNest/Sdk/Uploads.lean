import FileNest.Lib.Exchange
import FileNest.Lib.Pieces
import FileNest.Sdk.Http

/-!
# Uploads of the SDK clients

Every client uploads the same way: it registers the file with the backend, puts the bytes
straight to the object store, in one piece or in parts, and confirms or completes the upload.
Progress callbacks do not decide anything and are left out.

## Main definitions

* `UploadStep`, `UploadStep.Answer` — what a client asks of the backend and of the store.
* `uploadParts` — the loop over the parts, with the way a client puts one.
* `NodeFiles.upload`, `NodeUploads.resume`, `PythonFiles.upload`, `PythonUploads.resume`,
  `ReactContext.upload`, `WebConsole.uploadMultipart` — the clients.
-/

namespace FileNest

open Exchange Pieces

/-! ### Requests -/

/-- What a file is registered with. -/
structure UploadBody where
  filename : String
  contentType : String
  sizeBytes : ℕ
  folderId : Option String
  metadata : Fields
  tags : List String

/-- `{ part_number, etag }`. -/
structure UploadedPart where
  partNumber : ℕ
  etag : String
  deriving DecidableEq

/-- What the object store does with a PUT. -/
inductive PutAnswer where
  | unreachable
  | answered (status : ℕ) (etag : Option String)

/-- What a client asks while it uploads. -/
inductive UploadStep where
  | init (body : UploadBody)
  | start (body : UploadBody)
  | partUrl (uploadId : String) (part : ℕ)
  | put (url : String) (data : List UInt8) (contentType : Option String)
  | confirm (fileId : String)
  | complete (uploadId : String) (parts : List UploadedPart)
  | getFile (fileId : String)
  | abort (uploadId : String)

/-- What it is answered; a call of the backend gives what the client's HTTP layer makes of it. -/
def UploadStep.Answer : UploadStep → Type
  | init _ => Except SdkFailure (String × String)
  | start _ => Except SdkFailure String
  | partUrl _ _ => Except SdkFailure String
  | put _ _ _ => PutAnswer
  | confirm _ => Except SdkFailure Unit
  | complete _ _ => Except SdkFailure String
  | getFile _ => Except SdkFailure Json
  | abort _ => Except SdkFailure Unit

/-- A client at work. -/
abbrev ClientUpload := Prog UploadStep.Answer SdkFailure

/-- The transcript of an upload. -/
abbrev UploadTranscript := Transcript UploadStep.Answer

/-- `POST /files/upload`, for the id of the file and the URL. -/
def initUpload (body : UploadBody) : ClientUpload (String × String) := .ask (.init body) Prog.lift

/-- `POST /files/upload/multipart/start`, for the id of the upload. -/
def startUpload (body : UploadBody) : ClientUpload String := .ask (.start body) Prog.lift

/-- `GET /files/upload/multipart/{uploadId}/part-url`. -/
def getPartUrl (uploadId : String) (part : ℕ) : ClientUpload String :=
  .ask (.partUrl uploadId part) Prog.lift

/-- `POST /files/{fileId}/confirm`. -/
def confirmUpload (fileId : String) : ClientUpload Unit := .ask (.confirm fileId) Prog.lift

/-- `POST /files/upload/multipart/{uploadId}/complete`, for the id of the file. -/
def completeUpload (uploadId : String) (parts : List UploadedPart) : ClientUpload String :=
  .ask (.complete uploadId parts) Prog.lift

/-- `GET /files/{fileId}`. -/
def fetchFile (fileId : String) : ClientUpload Json := .ask (.getFile fileId) Prog.lift

/-! ### Putting bytes -/

/-- `await fetch(url, { method: "PUT", body })` and the ETag of the response, whatever its
status. -/
def nodePut (url : String) (data : List UInt8) (contentType : Option String) :
    ClientUpload String :=
  .ask (.put url data contentType) fun
    | .unreachable => .fail (.untyped "TypeError")
    | .answered _ etag => .done (etag.getD "")

/-- `httpx.put(url, content=data)`, `raise_for_status()`, and the ETag of the response. -/
def pythonPut (url : String) (data : List UInt8) (contentType : Option String) :
    ClientUpload String :=
  .ask (.put url data contentType) fun
    | .unreachable => .fail (.untyped "TransportError")
    | .answered status etag =>
      if 200 ≤ status ∧ status ≤ 299 then .done (etag.getD "")
      else .fail (.untyped "HTTPStatusError")

/-- `uploadToStorage`: a PUT by `XMLHttpRequest` that rejects unless the status is 2xx. -/
def uploadToStorage (url : String) (data : List UInt8) (contentType : String) : ClientUpload Unit :=
  .ask (.put url data (some contentType)) fun
    | .unreachable => .fail (.error (.str "Network error during storage upload") 0)
    | .answered status _ =>
      if 200 ≤ status ∧ status < 300 then .done ()
      else .fail (.error (.str ("Storage upload failed: " ++ toString status)) status)

/-- `raw.replace(/^"|"$/g, "")`, on characters. -/
def unquoteChars (cs : List Char) : List Char :=
  let cs := if cs.head? = some '"' then cs.tail else cs
  if cs.getLast? = some '"' then cs.dropLast else cs

/-- `raw.replace(/^"|"$/g, "")`. -/
def unquote (s : String) : String := String.ofList (unquoteChars s.toList)

/-- `xhrPut` of the web console, and its check that there is an ETag. -/
def webPut (url : String) (data : List UInt8) (contentType : Option String) : ClientUpload String :=
  .ask (.put url data contentType) fun
    | .unreachable => .fail (.error (.str "Network error during S3 PUT") 0)
    | .answered status etag =>
      if 200 ≤ status ∧ status < 300 then
        if unquote (etag.getD "") = "" then .fail (.error (.str "ETag was missing") status)
        else .done (unquote (etag.getD ""))
      else .fail (.error (.str ("S3 PUT failed: " ++ toString status)) status)

/-! ### Parts -/

/-- `5 * 1024 * 1024`. -/
def chunkSize : ℕ := 5 * 1024 * 1024

variable (put : String → List UInt8 → Option String → ClientUpload String)

/-- One round of the loop. -/
def uploadPart (uploadId : String) (contentType : Option String) (i : ℕ) (chunk : List UInt8) :
    ClientUpload UploadedPart := do
  let url ← getPartUrl uploadId (i + 1)
  let etag ← put url chunk contentType
  pure { partNumber := i + 1, etag }

/-- The loop over the parts. -/
def uploadParts (uploadId : String) (contentType : Option String) (chunks : List (List UInt8)) :
    ClientUpload (List UploadedPart) :=
  Prog.each (uploadPart put uploadId contentType) 0 chunks

/-- The loop, the completion, and the record. -/
def uploadAndComplete (uploadId : String) (contentType : Option String)
    (chunks : List (List UInt8)) : ClientUpload Json := do
  let parts ← uploadParts put uploadId contentType chunks
  let fileId ← completeUpload uploadId parts
  fetchFile fileId

/-! ### The Node SDK -/

/-- The options of an upload; the size is that of the data. -/
structure UploadOptions where
  filename : String
  mimeType : Option String
  folderId : Option String
  metadata : Option Fields
  tags : Option (List String)

/-- The body of both requests that register a file. -/
def UploadOptions.nodeBody (options : UploadOptions) (data : List UInt8) : UploadBody where
  filename := options.filename
  contentType := options.mimeType.getD "application/octet-stream"
  sizeBytes := data.length
  folderId := options.folderId
  metadata := options.metadata.getD []
  tags := options.tags.getD []

namespace NodeUploads

/-- `Math.ceil(data.length / CHUNK_SIZE)`; the quotient of two doubles rounds to an integer only
if it is one, far beyond any size of a buffer. -/
def totalChunks (data : List UInt8) : ℕ := data.length ⌈/⌉ chunkSize

/-- `resume`. -/
def resume (uploadId : String) (data : List UInt8) : ClientUpload Json :=
  uploadAndComplete nodePut uploadId none (pieces chunkSize (totalChunks data) data)

end NodeUploads

namespace NodeFiles

/-- `_singleUpload`. -/
def singleUpload (options : UploadOptions) (data : List UInt8) : ClientUpload Json := do
  let (fileId, uploadUrl) ← initUpload (options.nodeBody data)
  let _ ← nodePut uploadUrl data (some (options.nodeBody data).contentType)
  confirmUpload fileId
  fetchFile fileId

/-- `_multipartUpload`. -/
def multipartUpload (options : UploadOptions) (data : List UInt8) : ClientUpload Json := do
  let uploadId ← startUpload (options.nodeBody data)
  uploadAndComplete nodePut uploadId none (pieces chunkSize (NodeUploads.totalChunks data) data)

/-- `upload`; `MULTIPART_THRESHOLD` is the size of a chunk. -/
def upload (options : UploadOptions) (data : List UInt8) : ClientUpload Json :=
  if chunkSize ≤ data.length then multipartUpload options data else singleUpload options data

end NodeFiles

/-! ### The Python SDK -/

/-- The body of `upload`, which leaves out what is not truthy. -/
def UploadOptions.pythonBody (options : UploadOptions) (data : List UInt8) : UploadBody where
  filename := options.filename
  contentType := options.mimeType.getD "application/octet-stream"
  sizeBytes := data.length
  folderId := options.folderId.filter (· ≠ "")
  metadata := options.metadata.getD []
  tags := options.tags.getD []

/-- `upload` of `FilesNamespace`. -/
def PythonFiles.upload (options : UploadOptions) (data : List UInt8) : ClientUpload Json := do
  let (fileId, uploadUrl) ← initUpload (options.pythonBody data)
  let _ ← pythonPut uploadUrl data (some (options.pythonBody data).contentType)
  confirmUpload fileId
  fetchFile fileId

namespace PythonUploads

/-- `max(1, -(-total // CHUNK_SIZE))`. -/
def totalChunks (data : List UInt8) : ℕ :=
  (max 1 (-(-(data.length : ℤ) / (chunkSize : ℤ)))).toNat

/-- `resume`. -/
def resume (uploadId : String) (data : List UInt8) : ClientUpload Json :=
  uploadAndComplete pythonPut uploadId none (pieces chunkSize (totalChunks data) data)

end PythonUploads

/-! ### The React SDK -/

/-- `value || default`, of a string. -/
def orDefault (value default : String) : String := if value = "" then default else value

/-- A `File` of the browser. -/
structure BrowserFile where
  name : String
  type : String
  data : List UInt8

/-- `upload`. -/
def ReactContext.upload (file : BrowserFile) (options : UploadOptions) : ClientUpload Json := do
  let contentType := orDefault file.type "application/octet-stream"
  let (fileId, uploadUrl) ← initUpload
    { filename := file.name, contentType, sizeBytes := file.data.length,
      folderId := options.folderId, metadata := options.metadata.getD [],
      tags := options.tags.getD [] }
  uploadToStorage uploadUrl file.data contentType
  confirmUpload fileId
  fetchFile fileId

/-! ### The web console -/

namespace WebConsole

/-- The chunks, each cut at the end of the file. -/
def chunks (data : List UInt8) : List (List UInt8) :=
  (List.range (data.length ⌈/⌉ chunkSize)).map fun i =>
    slice data (i * chunkSize) (min (i * chunkSize + chunkSize) data.length)

/-- `uploadMultipart`; an error aborts the session and is shown with the item. -/
def uploadMultipart (file : BrowserFile) (options : UploadOptions) : ClientUpload Unit := do
  let contentType := orDefault file.type "application/octet-stream"
  let uploadId ← startUpload
    { filename := file.name, contentType, sizeBytes := file.data.length,
      folderId := options.folderId.filter (· ≠ ""), metadata := options.metadata.getD [],
      tags := options.tags.getD [] }
  let upload : ClientUpload Unit := do
    let parts ← uploadParts webPut uploadId (some contentType) (chunks file.data)
    let _ ← completeUpload uploadId parts
    pure ()
  upload.rescue fun e => .ask (.abort uploadId) fun _ => .fail e

end WebConsole

end FileNest
