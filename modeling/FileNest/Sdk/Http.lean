import FileNest.Sdk.Naming

/-!
# The SDKs' HTTP clients

The core client of the TypeScript SDKs and the client of the Python SDK send a request
through a retry loop, and make of the last answer a value or an exception.  What the
network does is the sequence of answers to the attempts.

## Main definitions

* `HttpResponse`, `Attempt` — what one attempt of a request may come to.
* `SdkError`, `SdkFailure` — the exceptions of the SDKs, and any exception.
* `lastAnswer` — the answer a retry loop stops at.
* `CoreHttp.mapResponseError`, `CoreHttp.request` — the TypeScript client.
* `PythonHttp.mapError`, `PythonHttp.request` — the Python client.
-/

namespace FileNest

/-! ### Answers -/

/-- The content of a response. -/
inductive Body where
  | empty
  | json (value : Json)
  /-- Content that is not JSON. -/
  | other
  deriving DecidableEq

/-- A response. -/
structure HttpResponse where
  status : ℕ
  /-- The reason phrase of the status line. -/
  statusText : String
  /-- The `content-length` header. -/
  contentLength : Option String
  body : Body
  deriving DecidableEq

/-- `response.ok`, and `response.is_success`. -/
def HttpResponse.ok (r : HttpResponse) : Bool := decide (200 ≤ r.status ∧ r.status ≤ 299)

/-- What one attempt comes to; the text is what the exception says. -/
inductive Attempt where
  | response (r : HttpResponse)
  | timeout (text : String)
  | failure (text : String)
  deriving DecidableEq

/-- The answer at which a loop of at most `retries` further attempts stops. -/
def lastAnswer (again : Attempt → Bool) : ℕ → (ℕ → Attempt) → Attempt
  | 0, attempts => attempts 0
  | retries + 1, attempts =>
    if again (attempts 0) then lastAnswer again retries fun i => attempts (i + 1) else attempts 0

@[simp] theorem lastAnswer_const (again : Attempt → Bool) (retries : ℕ) (a : Attempt) :
    lastAnswer again retries (fun _ => a) = a := by
  induction retries with
  | zero => rfl
  | succ n ih => rw [lastAnswer, ih, ite_self]

/-! ### Exceptions -/

/-- The exception classes that both SDKs declare. -/
inductive ErrorClass where
  | fileNestError | authenticationError | authorizationError | notFoundError | conflictError
  | wormViolationError | legalHoldError | validationError | metadataValidationError
  | rateLimitError | networkError
  deriving DecidableEq

/-- The status a class stands for, if it is one. -/
def ErrorClass.status? : ErrorClass → Option ℕ
  | fileNestError => none
  | authenticationError => some 401
  | authorizationError => some 403
  | notFoundError => some 404
  | conflictError | wormViolationError | legalHoldError => some 409
  | validationError | metadataValidationError => some 422
  | rateLimitError => some 429
  | networkError => some 0

/-- A `FileNestError` of an SDK. -/
structure SdkError where
  errorClass : ErrorClass
  message : Json
  code : Json
  statusCode : ℕ
  requiredScope : Option Json := none
  validationErrors : Json := .arr []
  retryAfter : Option Json := none
  deriving DecidableEq

namespace SdkError

def authenticationError (message : Json) : SdkError :=
  { errorClass := .authenticationError, message, code := .str "authentication_required",
    statusCode := 401 }

def authorizationError (message : Json) (requiredScope : Option Json) : SdkError :=
  { errorClass := .authorizationError, message, code := .str "insufficient_scope",
    statusCode := 403, requiredScope }

def notFoundError (message : Json) : SdkError :=
  { errorClass := .notFoundError, message, code := .str "not_found", statusCode := 404 }

def conflictError (message : Json) : SdkError :=
  { errorClass := .conflictError, message, code := .str "conflict", statusCode := 409 }

def wormViolationError (message : Json) : SdkError :=
  { errorClass := .wormViolationError, message, code := .str "worm_violation", statusCode := 409 }

def legalHoldError (message : Json) : SdkError :=
  { errorClass := .legalHoldError, message, code := .str "legal_hold_active", statusCode := 409 }

def validationError (message validationErrors : Json) : SdkError :=
  { errorClass := .validationError, message, code := .str "validation_error", statusCode := 422,
    validationErrors }

def metadataValidationError (validationErrors : Json) : SdkError :=
  { errorClass := .metadataValidationError, message := .str "Metadata validation failed",
    code := .str "metadata_validation_error", statusCode := 422, validationErrors }

def rateLimitError (message : Json) (retryAfter : Option Json) : SdkError :=
  { errorClass := .rateLimitError, message, code := .str "rate_limited", statusCode := 429,
    retryAfter }

def networkError (message : String) : SdkError :=
  { errorClass := .networkError, message := .str message, code := .str "network_error",
    statusCode := 0 }

def fileNestError (message code : Json) (statusCode : ℕ) : SdkError :=
  { errorClass := .fileNestError, message, code, statusCode }

end SdkError

/-- How a call of an SDK fails. -/
inductive SdkFailure where
  | typed (e : SdkError)
  /-- An exception of the language, under its class name. -/
  | untyped (exception : String)
  /-- A plain `Error` with a `status`. -/
  | error (message : Json) (status : ℕ)
  deriving DecidableEq

/-- The methods of the clients. -/
inductive HttpMethod where
  | get | post | patch | delete
  deriving DecidableEq

/-! ### The TypeScript client -/

namespace CoreHttp

/-- The client's configuration, its defaults filled in. -/
structure Config where
  timeout : ℕ
  maxRetries : ℕ

/-- `value.key` of a value other than `null`: only objects have properties of these names. -/
def property (value : Json) (key : String) : Option Json :=
  match value with
  | .obj fields => Fields.get? fields key
  | _ => none

/-- `value ?? default`. -/
def nullish : Option Json → Json → Json
  | none, default | some .null, default => default
  | some value, _ => value

/-- `mapResponseError`. -/
def mapResponseError (status : ℕ) (response : HttpResponse) : SdkFailure :=
  let body := match response.body with
    | .json value => value
    | .empty | .other => .obj []
  if body = .null then .untyped "TypeError" else
  let err := nullish (property body "error") (.obj [])
  let message := nullish (property err "message") (.str response.statusText)
  let code := property err "code"
  let validationErrors := nullish (property err "validation_errors") (.arr [])
  match status with
  | 401 => .typed (.authenticationError message)
  | 403 => .typed (.authorizationError message (property err "required_scope"))
  | 404 => .typed (.notFoundError message)
  | 409 =>
    if code = some (.str "worm_violation") then .typed (.wormViolationError message)
    else if code = some (.str "legal_hold_active") then .typed (.legalHoldError message)
    else .typed (.conflictError message)
  | 422 =>
    if code = some (.str "metadata_validation_error") then
      .typed (.metadataValidationError validationErrors)
    else .typed (.validationError message validationErrors)
  | 429 => .typed (.rateLimitError message (property err "retry_after"))
  | status => .typed (.fileNestError message (nullish code (.str "server_error")) status)

/-- The loop goes on after a 5xx and after a failure other than its own timeout. -/
def again : Attempt → Bool
  | .response r => decide (500 ≤ r.status)
  | .timeout _ => false
  | .failure _ => true

variable (config : Config) (attempts : ℕ → Attempt)

/-- `fetchWithRetry`. -/
def fetchWithRetry : Except SdkFailure HttpResponse :=
  match lastAnswer again config.maxRetries attempts with
  | .response r => .ok r
  | .timeout _ =>
    .error (.typed (.networkError ("Request timed out after " ++ toString config.timeout ++ "ms")))
  | .failure _ => .error (.typed (.networkError "Network request failed"))

/-- `rawFetch`, and what every method does first. -/
def rawFetch : Except SdkFailure HttpResponse := do
  let res ← fetchWithRetry config attempts
  if res.ok then pure res else throw (mapResponseError res.status res)

/-- `camelizeKeys(await res.json())`. -/
def decode (res : HttpResponse) : Except SdkFailure Json :=
  match res.body with
  | .json value => .ok (camelizeKeys value)
  | .empty | .other => .error (.untyped "SyntaxError")

/-- `get` and `patch`. -/
def fetchJson : Except SdkFailure (Option Json) := do
  let res ← rawFetch config attempts
  let value ← decode res
  pure (some value)

/-- `post` and `delete`, which give `undefined` for an empty response. -/
def fetchJsonOrNothing : Except SdkFailure (Option Json) := do
  let res ← rawFetch config attempts
  if res.status = 204 ∨ res.contentLength = some "0" then pure none else
  let value ← decode res
  pure (some value)

/-- The methods. -/
def request : HttpMethod → Except SdkFailure (Option Json)
  | .get | .patch => fetchJson config attempts
  | .post | .delete => fetchJsonOrNothing config attempts

end CoreHttp

/-! ### The Python client -/

namespace PythonHttp

/-- `_map_error`. -/
def mapError (status : ℕ) (body : Json) : SdkFailure :=
  let err : Json := match body with
    | .obj fields => (Fields.get? fields "error").getD (.obj [])
    | _ => .obj []
  match err with
  | .obj err =>
    let message := (Fields.get? err "message").getD (.str ("HTTP " ++ toString status))
    let code := (Fields.get? err "code").getD (.str "server_error")
    -- `validation_errors or []`, in the constructor
    let errors := (Fields.get? err "validation_errors").getD (.arr [])
    let validationErrors := if errors.truthy then errors else .arr []
    match status with
    | 401 => .typed (.authenticationError message)
    | 403 => .typed (.authorizationError message (Fields.get? err "required_scope"))
    | 404 => .typed (.notFoundError message)
    | 409 =>
      if code = .str "worm_violation" then .typed (.wormViolationError message)
      else if code = .str "legal_hold_active" then .typed (.legalHoldError message)
      else .typed (.conflictError message)
    | 422 =>
      if code = .str "metadata_validation_error" then
        .typed (.metadataValidationError validationErrors)
      else .typed (.validationError message validationErrors)
    | 429 => .typed (.rateLimitError message (Fields.get? err "retry_after"))
    | status => .typed (.fileNestError message code status)
  -- what is not a `dict` has no `get`
  | _ => .untyped "AttributeError"

/-- The loop goes on after a 5xx and after any `TransportError`, timeouts among them. -/
def again : Attempt → Bool
  | .response r => decide (500 ≤ r.status)
  | .timeout _ | .failure _ => true

/-- `_request`, which every method calls. -/
def request (maxRetries : ℕ) (attempts : ℕ → Attempt) (_method : HttpMethod) :
    Except SdkFailure (Option Json) :=
  match lastAnswer again maxRetries attempts with
  | .timeout text | .failure text => .error (.typed (.networkError text))
  | .response response =>
    if !response.ok then
      let body := match response.body with
        | .json value => value
        | .empty | .other => .obj []
      .error (mapError response.status body)
    else if response.status = 204 then .ok none
    else match response.body with
      | .empty => .ok none
      | .json value => .ok (some value)
      | .other => .error (.untyped "JSONDecodeError")

end PythonHttp

end FileNest
