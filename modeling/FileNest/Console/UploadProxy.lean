import FileNest.Lib.Exchange
import FileNest.Sdk.Uploads

/-!
# The upload proxy of the web console

`POST /api/upload` registers the file of a form with the backend, puts its bytes to the store and
confirms the upload.

## Main definitions

* `ProxyForm` — the form, as `request.formData()` gives it.
* `UploadProxy.post` — the route.

## Main results

* `UploadProxy.post_delivers` — **a response that is ok has put the bytes and confirmed them.**
-/

namespace FileNest

open Exchange

/-- The fields of the form; `tags` and `metadata` as `JSON.parse` reads them, or their defaults. -/
structure ProxyForm where
  file : Option BrowserFile
  projectId : Option String
  folderId : Option String
  tags : Option (List String)
  metadata : Option Fields

/-- The response of a `fetch` to the backend: what its body is read for where it is ok, and its
`message` where it is not. -/
inductive FetchAnswer (α : Type) where
  | rejected
  | answered (status : ℕ) (json : Option α) (message : Option String)

/-- What the route asks. -/
inductive ProxyStep where
  | getServerSession
  | getAuthToken
  | initiate (projectId token : String) (body : UploadBody)
  | put (url : String) (data : List UInt8) (contentType : String)
  | confirm (projectId token fileId : String)

/-- What it is answered: a file and its URL, and then the file and its status. -/
def ProxyStep.Answer : ProxyStep → Type
  | getServerSession => Bool
  | getAuthToken => String
  | initiate _ _ _ => FetchAnswer (String × String)
  | put _ _ _ => PutAnswer
  | confirm _ _ _ => FetchAnswer (String × String)

/-- The response of the route. -/
structure ProxyResponse where
  status : ℕ
  error : Option String := none
  file : Option (String × String) := none

/-- `Response.ok`. -/
def IsOk (status : ℕ) : Prop := 200 ≤ status ∧ status ≤ 299

instance (status : ℕ) : Decidable (IsOk status) := inferInstanceAs (Decidable (_ ∧ _))

/-- A route at work; an exception makes the server answer by itself. -/
abbrev ProxyJob := Prog ProxyStep.Answer Unit

namespace UploadProxy

/-- The body of the request that registers the file. -/
def body (file : BrowserFile) (folderId : Option String) (tags : List String) (metadata : Fields) :
    UploadBody where
  filename := file.name
  contentType := orDefault file.type "application/octet-stream"
  sizeBytes := file.data.length
  folderId := folderId.filter (· ≠ "")
  metadata := metadata
  tags := tags

/-- The third step. -/
def confirm (projectId token fileId : String) : ProxyJob ProxyResponse :=
  .ask (.confirm projectId token fileId) fun
    | .rejected => .fail ()
    | .answered status json message =>
      if ¬IsOk status then
        .done { status, error := some (message.getD "Failed to confirm upload") }
      else match json with
        | none => .fail ()
        | some file => .done { status := 200, file := some file }

/-- The second step. -/
def put (projectId token fileId uploadUrl : String) (file : BrowserFile) : ProxyJob ProxyResponse :=
  .ask (.put uploadUrl file.data (orDefault file.type "application/octet-stream")) fun
    | .unreachable => .fail ()
    | .answered status _ =>
      if ¬IsOk status then
        .done { status := 502, error := some ("Storage PUT failed: " ++ toString status) }
      else confirm projectId token fileId

/-- The first step. -/
def initiate (projectId token : String) (file : BrowserFile) (folderId : Option String)
    (tags : List String) (metadata : Fields) : ProxyJob ProxyResponse :=
  .ask (.initiate projectId token (body file folderId tags metadata)) fun
    | .rejected => .fail ()
    | .answered status json message =>
      if ¬IsOk status then
        .done { status, error := some (message.getD "Failed to initiate upload") }
      else match json with
        | none => .fail ()
        | some (fileId, uploadUrl) => put projectId token fileId uploadUrl file

/-- `POST`; no form where `request.formData()` fails. -/
def post (form : Option ProxyForm) : ProxyJob ProxyResponse :=
  .ask .getServerSession fun
    | false => .done { status := 401, error := some "Unauthorized" }
    | true => match form with
      | none => .done { status := 400, error := some "Invalid form data" }
      | some form =>
        match form.file, form.projectId.filter (· ≠ "") with
        | some file, some projectId =>
          match form.tags, form.metadata with
          | some tags, some metadata =>
            .ask .getAuthToken fun token =>
              initiate projectId token file form.folderId tags metadata
          | _, _ => .done { status := 400, error := some "Invalid tags or metadata JSON" }
        | _, _ => .done { status := 400, error := some "file and projectId are required" }

/-! ### What the route does -/

/-- What is read of an ok response. -/
def data? {α : Type} : FetchAnswer α → Except SdkFailure α
  | .rejected => .error (.untyped "TypeError")
  | .answered status json _ =>
    if IsOk status then (match json with
      | none => .error (.untyped "SyntaxError")
      | some data => .ok data)
    else .error (.untyped "Error")

/-- What an event of the route is to the backend and the store. -/
def onWire : (Σ r, ProxyStep.Answer r) → Option (Σ r, UploadStep.Answer r)
  | ⟨.getServerSession, _⟩ | ⟨.getAuthToken, _⟩ => none
  | ⟨.initiate _ _ body, answer⟩ => some ⟨.init body, data? answer⟩
  | ⟨.put url body contentType, answer⟩ => some ⟨.put url body (some contentType), answer⟩
  | ⟨.confirm _ _ fileId, answer⟩ => some ⟨.confirm fileId, (data? answer).map fun _ => ()⟩

end UploadProxy

/-- The file is registered, its bytes are put with an answer of 2xx, and it is confirmed. -/
def DeliversWhole (file : BrowserFile) (t : UploadTranscript) : Prop :=
  ∃ body fileId url contentType status etag, IsOk status ∧
    t = [⟨.init body, .ok (fileId, url)⟩,
      ⟨.put url file.data (some contentType), .answered status etag⟩, ⟨.confirm fileId, .ok ()⟩]

namespace UploadProxy

variable {projectId token fileId uploadUrl : String} {file : BrowserFile}

theorem confirm_confirms : Ensures (confirm projectId token fileId)
    (fun t response => IsOk response.status →
      t.filterMap onWire = [⟨.confirm fileId, .ok ()⟩]) (fun _ _ => True) := by
  refine .ask fun answer => ?_
  cases answer with
  | rejected => exact .fail trivial
  | answered status json message =>
    by_cases hok : IsOk status
    · simp only [hok, not_true_eq_false, if_false]
      cases json with
      | none => exact .fail trivial
      | some named =>
        refine .done fun _ => ?_
        simp [onWire, data?, hok, Except.map]
    · simp only [hok, not_false_eq_true, if_true]
      exact .done fun h => absurd h hok

theorem put_puts : Ensures (put projectId token fileId uploadUrl file)
    (fun t response => IsOk response.status → ∃ contentType status etag, IsOk status ∧
      t.filterMap onWire = [⟨.put uploadUrl file.data (some contentType), .answered status etag⟩,
        ⟨.confirm fileId, .ok ()⟩]) (fun _ _ => True) := by
  refine .ask fun answer => ?_
  cases answer with
  | unreachable => exact .fail trivial
  | answered status etag =>
    by_cases hok : IsOk status
    · simp only [hok, not_true_eq_false, if_false]
      refine confirm_confirms.mono (fun t response h hresponse => ?_) fun _ _ h => h
      exact ⟨_, status, etag, hok, congrArg (List.cons _) (h hresponse)⟩
    · simp only [hok, not_false_eq_true, if_true]
      exact .done fun h => absurd h (show ¬IsOk 502 by decide)

theorem initiate_delivers (folderId : Option String) (tags : List String) (metadata : Fields) :
    Ensures (initiate projectId token file folderId tags metadata)
      (fun t response => IsOk response.status → DeliversWhole file (t.filterMap onWire))
      (fun _ _ => True) := by
  refine .ask fun answer => ?_
  cases answer with
  | rejected => exact .fail trivial
  | answered status json message =>
    by_cases hok : IsOk status
    · simp only [hok, not_true_eq_false, if_false]
      cases json with
      | none => exact .fail trivial
      | some ids =>
        obtain ⟨fileId, uploadUrl⟩ := ids
        refine put_puts.mono (fun t response h hresponse => ?_) fun _ _ h => h
        obtain ⟨contentType, status', etag, hok', ht⟩ := h hresponse
        refine ⟨body file folderId tags metadata, fileId, uploadUrl, contentType, status', etag,
          hok', ?_⟩
        rw [List.filterMap_cons, ht]
        simp only [onWire, data?, if_pos hok]
    · simp only [hok, not_false_eq_true, if_true]
      exact .done fun h => absurd h hok

/-- **A response that is ok has delivered the file of the form.** -/
theorem post_delivers (form : Option ProxyForm) : Ensures (post form)
    (fun t response => IsOk response.status → ∃ fields file, form = some fields ∧
      fields.file = some file ∧ DeliversWhole file (t.filterMap onWire)) (fun _ _ => True) := by
  refine .ask fun session => ?_
  cases session with
  | false => exact .done fun h => absurd h (show ¬IsOk 401 by decide)
  | true =>
    cases form with
    | none => exact .done fun h => absurd h (show ¬IsOk 400 by decide)
    | some fields =>
      dsimp only
      split
      · next file projectId hfile hproject =>
        split
        · refine .ask fun token => ?_
          refine (initiate_delivers _ _ _).mono (fun t response h hok => ?_) fun _ _ h => h
          exact ⟨fields, file, rfl, hfile, h hok⟩
        · exact .done fun h => absurd h (show ¬IsOk 400 by decide)
      · exact .done fun h => absurd h (show ¬IsOk 400 by decide)

end UploadProxy

end FileNest
