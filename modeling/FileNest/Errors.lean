import FileNest.Json
import FileNest.Lib.Sql

/-!
# Errors

The domain exceptions of the backend with their HTTP status and code, FastAPI's own
`HTTPException`, and any other exception, which the last-resort handler answers.

## Main definitions

* `ErrorKind` — the `FileNestError` subclasses.
* `ApiError` — an exception that ends a request.
-/

namespace FileNest

/-- The `FileNestError` subclasses. -/
inductive ErrorKind where
  | notFound | permissionDenied | validation | conflict | storage | fileTooLarge
  | quotaExceeded | virusScan | processing | outbox
  deriving DecidableEq

/-- `status_code`. -/
def ErrorKind.statusCode : ErrorKind → ℕ
  | notFound => 404
  | permissionDenied => 403
  | validation => 422
  | conflict => 409
  | storage => 502
  | fileTooLarge => 413
  | quotaExceeded => 429
  | virusScan => 422
  | processing => 500
  | outbox => 500

/-- `code`. -/
def ErrorKind.code : ErrorKind → String
  | notFound => "NOT_FOUND"
  | permissionDenied => "PERMISSION_DENIED"
  | validation => "VALIDATION_ERROR"
  | conflict => "CONFLICT"
  | storage => "STORAGE_ERROR"
  | fileTooLarge => "FILE_TOO_LARGE"
  | quotaExceeded => "QUOTA_EXCEEDED"
  | virusScan => "VIRUS_DETECTED"
  | processing => "PROCESSING_ERROR"
  | outbox => "OUTBOX_ERROR"

/-- An exception that ends a request. -/
inductive ApiError where
  /-- A `FileNestError`. -/
  | filenest (kind : ErrorKind) (message : String) (detail : Fields)
  /-- FastAPI's `HTTPException`, with a dict as its detail. -/
  | http (status : ℕ) (detail : Fields)
  /-- Anything else; the text is what `str(exc)` gives. -/
  | unhandled (text : String)
  deriving DecidableEq

/-- The HTTP status of the response. -/
def ApiError.statusCode : ApiError → ℕ
  | filenest kind _ _ => kind.statusCode
  | http status _ => status
  | unhandled _ => 500

/-- `str(exc)`. -/
def ApiError.text : ApiError → String
  | filenest _ message _ => message
  | http status _ => toString status
  | unhandled text => text

/-- `NotFoundError(message)`. -/
def notFoundError (message : String) : ApiError := .filenest .notFound message []

/-- `PermissionDeniedError(message)`. -/
def permissionDeniedError (message : String) : ApiError := .filenest .permissionDenied message []

/-- `ValidationError(message, detail=detail)`. -/
def validationError (message : String) (detail : Fields) : ApiError :=
  .filenest .validation message detail

/-- `ConflictError(message, detail=detail)`. -/
def conflictError (message : String) (detail : Fields) : ApiError :=
  .filenest .conflict message detail

/-- `StorageError(message, detail=detail)`. -/
def storageError (message : String) (detail : Fields) : ApiError :=
  .filenest .storage message detail

/-- `FileTooLargeError(message, detail=detail)`. -/
def fileTooLargeError (message : String) (detail : Fields) : ApiError :=
  .filenest .fileTooLarge message detail

/-- `result.scalar_one_or_none()`, which raises `MultipleResultsFound`. -/
def scalarOneOrNone {α : Type} (rows : List α) : Except ApiError (Option α) :=
  match Sql.oneOrNone rows with
  | some r => .ok r
  | none => .error (.unhandled "Multiple rows were found when one or none was required")

/-- A row that must be there. -/
def oneOr {α : Type} (e : ApiError) (rows : List α) : Except ApiError α := do
  match ← scalarOneOrNone rows with
  | some r => pure r
  | none => throw e

/-! ### Running `do` blocks backwards -/

theorem bind_eq_ok {ε α β : Type} {x : Except ε α} {f : α → Except ε β} {b : β} :
    (x >>= f) = .ok b ↔ ∃ a, x = .ok a ∧ f a = .ok b := by
  cases x <;> simp [bind, Except.bind]

theorem bind_eq_error {ε α β : Type} {x : Except ε α} {f : α → Except ε β} {e : ε} :
    (x >>= f) = .error e ↔ x = .error e ∨ ∃ a, x = .ok a ∧ f a = .error e := by
  cases x <;> simp [bind, Except.bind]

@[simp] theorem pure_eq_ok {ε α : Type} {a b : α} :
    (pure a : Except ε α) = .ok b ↔ a = b := by
  simp [pure, Except.pure]

@[simp] theorem throw_ne_ok {ε α : Type} {e : ε} {b : α} :
    (throw e : Except ε α) = .ok b ↔ False := by
  simp [throw, throwThe, MonadExceptOf.throw]

theorem scalarOneOrNone_eq_some {α : Type} {rows : List α} {r : α} :
    scalarOneOrNone rows = .ok (some r) ↔ rows = [r] := by
  match rows with
  | [] => simp [scalarOneOrNone]
  | [_] => simp [scalarOneOrNone]
  | _ :: _ :: _ => simp [scalarOneOrNone, Sql.oneOrNone]

theorem mem_of_scalarOneOrNone {α : Type} {rows : List α} {r : α}
    (h : scalarOneOrNone rows = .ok (some r)) : r ∈ rows := by
  rw [scalarOneOrNone_eq_some.mp h]
  exact List.mem_singleton_self r

theorem oneOr_eq_ok {α : Type} {e : ApiError} {rows : List α} {r : α} :
    oneOr e rows = .ok r ↔ rows = [r] := by
  match rows with
  | [] => exact ⟨nofun, nofun⟩
  | [r'] => exact ⟨fun h => congrArg (fun r => [r]) (Except.ok.inj h), fun h => by rw [h]; rfl⟩
  | _ :: _ :: _ => exact ⟨nofun, nofun⟩

theorem mem_of_oneOr {α : Type} {e : ApiError} {rows : List α} {r : α}
    (h : oneOr e rows = .ok r) : r ∈ rows := by
  simp only [oneOr, bind_eq_ok] at h
  obtain ⟨o, ho, h⟩ := h
  cases o with
  | none => simp at h
  | some r' =>
    obtain rfl : r' = r := by simpa using h
    exact mem_of_scalarOneOrNone ho

/-- A query that finds one row finds the only one. -/
theorem eq_of_oneOr {α : Type} {e : ApiError} {rows : List α} {r r' : α} (h : oneOr e rows = .ok r)
    (hr' : r' ∈ rows) : r' = r := by
  match rows, hr' with
  | [x], hr' =>
    obtain rfl := List.mem_singleton.mp hr'
    exact Except.ok.inj h
  | _ :: _ :: _, _ => cases h

/-- A query by a unique key finds the row. -/
theorem oneOr_filter_eq_ok {α β : Type} {e : ApiError} {rows : List α} {r : α} {p : α → Bool}
    {key : α → β} (hkey : (rows.map key).Nodup) (hr : r ∈ rows) (hp : p r = true)
    (hunique : ∀ r', p r' = true → key r' = key r) : oneOr e (rows.filter p) = .ok r := by
  have hmem : r ∈ rows.filter p := List.mem_filter.mpr ⟨hr, hp⟩
  have hall : ∀ r' ∈ rows.filter p, r' = r := by
    intro r' hr'
    obtain ⟨hmem', hp'⟩ := List.mem_filter.mp hr'
    exact List.inj_on_of_nodup_map hkey hmem' hr (hunique r' hp')
  have hone : (rows.filter p).length ≤ 1 := by
    refine Sql.length_le_one ((List.Nodup.of_map key hkey).filter _) fun r₁ h₁ r₂ h₂ => ?_
    rw [hall r₁ h₁, hall r₂ h₂]
  match hrows : rows.filter p, hmem, hall, hone with
  | [r'], _, hall, _ =>
    rw [hall r' List.mem_cons_self]
    rfl

end FileNest
