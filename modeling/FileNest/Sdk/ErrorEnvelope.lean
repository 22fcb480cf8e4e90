import FileNest.Errors
import FileNest.Sdk.Http

/-!
# The error envelope

The backend renders every error as `{"error": "<CODE>", "message": …, "detail": …}`, with the
code a string.  Both SDK clients read the message and the validation detail from fields of
`body.error`, as if that were an object.  A string has no such fields: in Python the lookup
itself raises, in TypeScript it finds nothing and the reason phrase of the status line takes
the place of the message.

## Main definitions

* `HandledError` — an exception that a registered handler answers.
* `HandledError.content` — the envelope.
* `Carries` — a call raises the exception of the status, with the backend's message and
  validation detail.

## Main results

* `PythonHttp.request_of_handled` — the Python client raises `AttributeError` on each of them.
* `CoreHttp.carries_iff` — the TypeScript client carries an error exactly if its message is
  the reason phrase and it has no validation detail.
* `not_carried` — **no error reaches the callers of both clients.**
-/

namespace FileNest

/-! ### What the backend renders -/

/-- One entry of `exc.errors()`: the location, and the message. -/
structure RequestIssue where
  loc : List (String ⊕ ℕ)
  msg : String

/-- `{"field": ".".join(str(loc) for loc in e["loc"]), "message": e["msg"]}`. -/
def RequestIssue.render (e : RequestIssue) : Json :=
  .obj [("field", .str (".".intercalate (e.loc.map (Sum.elim id toString)))),
    ("message", .str e.msg)]

/-- An exception that a registered handler answers. -/
inductive HandledError where
  /-- `filenest_error_handler`. -/
  | filenest (kind : ErrorKind) (message : String) (detail : Fields)
  /-- `integrity_error_handler`. -/
  | integrity
  /-- `validation_exception_handler`. -/
  | requestValidation (errors : List RequestIssue)
  /-- `unhandled_exception_handler`. -/
  | unhandled

namespace HandledError

def statusCode : HandledError → ℕ
  | filenest kind _ _ => kind.statusCode
  | integrity => 409
  | requestValidation _ => 422
  | unhandled => 500

def code : HandledError → String
  | filenest kind _ _ => kind.code
  | integrity => "CONFLICT"
  | requestValidation _ => "VALIDATION_ERROR"
  | unhandled => "INTERNAL_ERROR"

def message : HandledError → String
  | filenest _ message _ => message
  | integrity => "A conflict occurred. Please try again."
  | requestValidation _ => "Request body validation failed"
  | unhandled => "An unexpected error occurred."

def detail : HandledError → Fields
  | filenest _ _ detail => detail
  | requestValidation errors => [("errors", .arr (errors.map RequestIssue.render))]
  | integrity | unhandled => []

/-- `content`. -/
def content (e : HandledError) : Json :=
  .obj [("error", .str e.code), ("message", .str e.message), ("detail", .obj e.detail)]

/-- `JSONResponse(status_code, content)`, as it arrives. -/
def response (e : HandledError) (statusText : String) (contentLength : Option String) :
    HttpResponse :=
  { status := e.statusCode, statusText, contentLength, body := .json e.content }

/-- The list of field errors in the detail. -/
def validationDetail (e : HandledError) : Json := (e.detail.get? "errors").getD (.arr [])

theorem statusCode_ne_zero (e : HandledError) : e.statusCode ≠ 0 := by
  cases e with
  | filenest kind _ _ => cases kind <;> exact Nat.succ_ne_zero _
  | integrity | requestValidation _ | unhandled => exact Nat.succ_ne_zero _

theorem not_ok (e : HandledError) (statusText : String) (contentLength : Option String) :
    (e.response statusText contentLength).ok = false := by
  cases e with
  | filenest kind _ _ => cases kind <;> rfl
  | integrity => rfl
  | requestValidation _ => rfl
  | unhandled => rfl

end HandledError

/-! ### What a caller is to see -/

/-- The class is the one declared for the status, the base class if there is none. -/
def ErrorClass.IsFor (c : ErrorClass) (status : ℕ) : Prop :=
  c.status? = some status ∨ c = .fileNestError ∧ ∀ d : ErrorClass, d.status? ≠ some status

/-- The call raises the exception of the status, with the backend's message and, for a
validation error, its detail. -/
def Carries (e : HandledError) (outcome : Except SdkFailure (Option Json)) : Prop :=
  ∃ x : SdkError, outcome = .error (.typed x) ∧ x.errorClass.IsFor e.statusCode ∧
    x.statusCode = e.statusCode ∧ x.message = .str e.message ∧
    (e.statusCode = 422 → x.validationErrors = e.validationDetail)

variable {e : HandledError} {statusText : String} {contentLength : Option String}
  {attempts : ℕ → Attempt}

/-! ### The Python client -/

namespace PythonHttp

/-- The code of the envelope is a string, and a string has no `get`. -/
theorem mapError_content (e : HandledError) (status : ℕ) :
    mapError status e.content = .untyped "AttributeError" := rfl

/-- **The Python client fails on every envelope while it decodes it.** -/
theorem request_of_handled {maxRetries : ℕ}
    (h : lastAnswer again maxRetries attempts = .response (e.response statusText contentLength))
    (method : HttpMethod) :
    request maxRetries attempts method = .error (.untyped "AttributeError") := by
  unfold request
  rw [h]
  simp only [e.not_ok, Bool.not_false, if_true]
  exact congrArg Except.error (mapError_content e e.statusCode)

end PythonHttp

/-! ### The TypeScript client -/

namespace CoreHttp

/-- What the TypeScript client makes of a status alone. -/
def errorOfStatus (status : ℕ) (message : Json) : SdkError :=
  match status with
  | 401 => .authenticationError message
  | 403 => .authorizationError message none
  | 404 => .notFoundError message
  | 409 => .conflictError message
  | 422 => .validationError message (.arr [])
  | 429 => .rateLimitError message none
  | status => .fileNestError message (.str "server_error") status

/-- The client finds nothing in the envelope. -/
theorem mapResponseError_response (e : HandledError) :
    mapResponseError e.statusCode (e.response statusText contentLength)
      = .typed (errorOfStatus e.statusCode (.str statusText)) := by
  cases e with
  | filenest kind _ _ => cases kind <;> rfl
  | integrity => rfl
  | requestValidation _ => rfl
  | unhandled => rfl

/-- Every status gets its class. -/
theorem errorOfStatus_isFor {status : ℕ} (h : status ≠ 0) (message : Json) :
    (errorOfStatus status message).errorClass.IsFor status := by
  unfold errorOfStatus
  split
  case h_7 h401 h403 h404 h409 h422 h429 =>
    refine .inr ⟨rfl, ?_⟩
    intro d hd
    cases d with
    | fileNestError => cases hd
    | authenticationError => exact h401 (Option.some.inj hd).symm
    | authorizationError => exact h403 (Option.some.inj hd).symm
    | notFoundError => exact h404 (Option.some.inj hd).symm
    | conflictError | wormViolationError | legalHoldError => exact h409 (Option.some.inj hd).symm
    | validationError | metadataValidationError => exact h422 (Option.some.inj hd).symm
    | rateLimitError => exact h429 (Option.some.inj hd).symm
    | networkError => exact h (Option.some.inj hd).symm
  all_goals exact .inl rfl

theorem errorOfStatus_eq (status : ℕ) (message : Json) :
    (errorOfStatus status message).statusCode = status ∧
      (errorOfStatus status message).message = message ∧
      (errorOfStatus status message).validationErrors = .arr [] := by
  unfold errorOfStatus
  split <;> exact ⟨rfl, rfl, rfl⟩

theorem rawFetch_of_handled {config : Config}
    (h : lastAnswer again config.maxRetries attempts
      = .response (e.response statusText contentLength)) :
    rawFetch config attempts = .error (.typed (errorOfStatus e.statusCode (.str statusText))) := by
  have hfetch : fetchWithRetry config attempts = .ok (e.response statusText contentLength) := by
    unfold fetchWithRetry
    rw [h]
  have hmap : mapResponseError e.statusCode (e.response statusText contentLength)
      = .typed (errorOfStatus e.statusCode (.str statusText)) := mapResponseError_response e
  unfold rawFetch
  rw [hfetch]
  show (if (e.response statusText contentLength).ok = true then _ else _) = _
  rw [e.not_ok, if_neg Bool.false_ne_true]
  exact congrArg Except.error hmap

/-- The TypeScript client raises the exception of the status, with the reason phrase as its
message and without detail. -/
theorem request_of_handled {config : Config}
    (h : lastAnswer again config.maxRetries attempts
      = .response (e.response statusText contentLength)) (method : HttpMethod) :
    request config attempts method
      = .error (.typed (errorOfStatus e.statusCode (.str statusText))) := by
  have hraw := rawFetch_of_handled h
  cases method <;> simp only [request, fetchJson, fetchJsonOrNothing, hraw] <;> rfl

/-- **What the TypeScript client carries**: an error whose message is the reason phrase, if it
has no validation detail. -/
theorem carries_iff {config : Config}
    (h : lastAnswer again config.maxRetries attempts
      = .response (e.response statusText contentLength)) (method : HttpMethod) :
    Carries e (request config attempts method) ↔
      statusText = e.message ∧ (e.statusCode = 422 → e.validationDetail = .arr []) := by
  obtain ⟨hstatus, hmessage, hdetail⟩ := errorOfStatus_eq e.statusCode (.str statusText)
  rw [request_of_handled h]
  constructor
  · rintro ⟨x, hx, -, -, hx', hx''⟩
    obtain rfl : errorOfStatus e.statusCode (.str statusText) = x := by simpa using hx
    rw [hmessage] at hx'
    exact ⟨Json.str.inj hx', fun h422 => (hx'' h422).symm.trans hdetail⟩
  · rintro ⟨rfl, h422⟩
    exact ⟨_, rfl, errorOfStatus_isFor e.statusCode_ne_zero _, hstatus, hmessage,
      fun h => hdetail.trans (h422 h).symm⟩

end CoreHttp

/-! ### Both clients -/

/-- **No error of the backend is carried to the callers of both clients**: the Python client
does not even keep what the TypeScript client may. -/
theorem not_carried {config : CoreHttp.Config} {maxRetries : ℕ} {attempts' : ℕ → Attempt}
    (h : lastAnswer PythonHttp.again maxRetries attempts'
      = .response (e.response statusText contentLength)) (method : HttpMethod) :
    ¬(Carries e (CoreHttp.request config attempts method) ∧
      Carries e (PythonHttp.request maxRetries attempts' method)) := by
  rintro ⟨-, x, hx, -⟩
  rw [PythonHttp.request_of_handled h] at hx
  cases hx

/-- What `NotFoundError` comes to, asked for again and again. -/
theorem not_carried_notFound :
    ¬(Carries (.filenest .notFound "File not found" [])
        (CoreHttp.request ⟨30000, 3⟩ (fun _ => .response (HandledError.response
          (.filenest .notFound "File not found" []) "Not Found" none)) .get) ∧
      Carries (.filenest .notFound "File not found" [])
        (PythonHttp.request 3 (fun _ => .response (HandledError.response
          (.filenest .notFound "File not found" []) "Not Found" none)) .get)) :=
  not_carried (lastAnswer_const _ _ _) .get

/-- A request without its filename: one client raises an error that no caller expects, the
other a `ValidationError` that says neither what the backend said nor which field it is. -/
theorem invalid_request_lost :
    let e : HandledError := .requestValidation [⟨[.inl "body", .inl "filename"], "Field required"⟩]
    let attempts : ℕ → Attempt := fun _ => .response (e.response "Unprocessable Entity" none)
    PythonHttp.request 3 attempts .post = .error (.untyped "AttributeError") ∧
    CoreHttp.request ⟨30000, 3⟩ attempts .post
      = .error (.typed (.validationError (.str "Unprocessable Entity") (.arr []))) ∧
    ¬(Carries e (CoreHttp.request ⟨30000, 3⟩ attempts .post) ∧
      Carries e (PythonHttp.request 3 attempts .post)) := by
  refine ⟨rfl, rfl, ?_⟩
  rintro ⟨-, x, hx, -⟩
  cases hx

end FileNest
