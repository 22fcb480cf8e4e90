import FileNest.Uploads.Settlement
import FileNest.Versioning

/-!
# Upload sessions

A session is marked completed or aborted, and has a time at which it expires.  The three
operations on it look at neither.  A call that comes too late is turned away only if it
lacks something that any call would need: this module says exactly what.

## Main definitions

* `Operation.uploadId` — the session an operation is about.
* `ServiceCall.TooLate` — the session is over, or past its time.
* `Served` — a call on a session finds all it needs.
* `SessionsFinal`, `LateCallsUnserved` — late calls of a run fail, or lack something.

## Main results

* `ServiceCall.fails_iff` — one call.
* `sessions_final_iff` — **sessions are final exactly if late calls lack something else.**
* `completed_then_aborted` — a file that is ready, failed by a late abort.
-/

namespace FileNest

open RowStore ReadCommitted

/-- The session an operation is about. -/
def Operation.uploadId : Operation → Option String
  | multipartPartUrl uploadId _ _ | multipartComplete uploadId _ | multipartAbort uploadId =>
      some uploadId
  | _ => none

/-- The session has been completed or aborted. -/
def UploadSession.Terminal (s : UploadSession) : Prop :=
  s.status = "completed" ∨ s.status = "aborted"

instance (s : UploadSession) : Decidable s.Terminal :=
  inferInstanceAs (Decidable (s.status = "completed" ∨ s.status = "aborted"))

/-- The operation goes on with a session: it is no abort. -/
def Operation.goesOn : Operation → Bool
  | multipartAbort _ => false
  | _ => true

/-- The call is about a session that is over, or it goes on with one past its time. -/
def ServiceCall.TooLate (c : ServiceCall) (db : Database) (s : UploadSession) : Prop :=
  s ∈ db .uploadSessions ∧ c.op.uploadId = some s.id
    ∧ (s.Terminal ∨ c.op.goesOn = true ∧ s.expiresAt < c.env.now)

/-- The call fails, and changes nothing. -/
def ServiceCall.Fails (c : ServiceCall) (db : Database) : Prop :=
  (∃ e, c.result db = .error e) ∧ (commit db (c.result db)).2 = db

section Served

variable (ctx : TenantContext) (env : Env) (db : Database) (projectId : String)

/-- The session is of the caller's organisation, and its file is in the project. -/
structure SessionFile (s : UploadSession) (record : File) : Prop where
  session_organizationId : s.organizationId = ctx.organizationId
  mem : record ∈ db .files
  id_eq : record.id = s.fileId
  organizationId_eq : record.organizationId = ctx.organizationId
  projectId_eq : record.projectId = projectId
  live : record.deletedAt = none

/-- What a call on a session needs: its file, a provider, an answer from storage, and, to go
on with the upload, the configuration of the project. -/
inductive Served (s : UploadSession) : Operation → Prop
  | partUrl {uploadId url : String} {part ttl : ℕ} {record : File} {config : ProjectConfig}
      {provider : StorageProvider} (hfile : SessionFile ctx db projectId s record)
      (hconfig : ProjectConfigRepository.getForProject db projectId ctx.organizationId = .ok config)
      (hprovider : getProvider ctx env db projectId = .ok provider)
      (hurl : env.storage.generatePresignedPartUrl provider record.storageKey s.s3UploadId part
        (resolveTtl config (some ttl)) = .ok url) : Served s (.multipartPartUrl uploadId part ttl)
  | complete {uploadId : String} {req : MultipartCompleteRequest} {record : File}
      {config : ProjectConfig} {provider : StorageProvider}
      (hfile : SessionFile ctx db projectId s record)
      (hconfig : ProjectConfigRepository.getForProject db projectId ctx.organizationId = .ok config)
      (hprovider : getProvider ctx env db projectId = .ok provider)
      (hcomplete : env.storage.completeMultipartUpload provider record.storageKey s.s3UploadId
        req.parts = .ok ())
      (hkey : config.versioningEnabled = true → record.storageKey ≠ none) :
      Served s (.multipartComplete uploadId req)
  | abort {uploadId : String} {record : File} {provider : StorageProvider}
      (hfile : SessionFile ctx db projectId s record)
      (hprovider : getProvider ctx env db projectId = .ok provider)
      (habort : env.storage.abortMultipartUpload provider record.storageKey s.s3UploadId = .ok ()) :
      Served s (.multipartAbort uploadId)

end Served

/-! ### One call -/

theorem FileRepository.get_of_mem {db : Database} (hdb : db.Good) {f : File} (hf : f ∈ db .files)
    (hlive : f.deletedAt = none) : get db f.id f.organizationId f.projectId = .ok f := by
  refine oneOr_filter_eq_ok (hdb.uniquePk .files) hf (by simp [hlive]) fun g hg => ?_
  simp only [Bool.and_eq_true, beq_iff_eq] at hg
  exact hg.1.1.1

theorem UploadSessionRepository.get_of_mem {db : Database} (hdb : db.Good) {s : UploadSession}
    (hs : s ∈ db .uploadSessions) : get db s.id s.organizationId = .ok s := by
  refine oneOr_filter_eq_ok (hdb.uniquePk .uploadSessions) hs (by simp) fun t ht => ?_
  simp only [Bool.and_eq_true, beq_iff_eq] at ht
  exact ht.1

section OneCall

variable {ctx : TenantContext} {env : Env} {db : Database} {projectId : String} {s : UploadSession}

/-- The queries every call on a session makes first. -/
theorem sessionFile_iff (hdb : db.Good) (hs : s ∈ db .uploadSessions) {session : UploadSession}
    {record : File} :
    (UploadSessionRepository.get db s.id ctx.organizationId = .ok session
        ∧ FileRepository.get db session.fileId ctx.organizationId projectId = .ok record)
      ↔ session = s ∧ SessionFile ctx db projectId s record := by
  constructor
  · rintro ⟨hsession, hrecord⟩
    obtain ⟨hmem, hid, horganization⟩ := UploadSessionRepository.of_get hsession
    obtain rfl : session = s := hdb.uniquePk.eq_of_pk (t := .uploadSessions) hmem hs hid
    obtain ⟨hfile, hfid, ho, hp, hlive⟩ := FileRepository.of_get hrecord
    exact ⟨rfl, horganization, hfile, hfid, ho, hp, hlive⟩
  · rintro ⟨rfl, hfile⟩
    constructor
    · rw [← hfile.session_organizationId]
      exact UploadSessionRepository.get_of_mem hdb hs
    · rw [← hfile.id_eq, ← hfile.organizationId_eq, ← hfile.projectId_eq]
      exact FileRepository.get_of_mem hdb hfile.mem hfile.live

theorem partUrl_served_iff (hdb : db.Good) (hs : s ∈ db .uploadSessions) (part ttl : ℕ) :
    (∃ x, MultipartUploadService.partUrl ctx env db projectId s.id part (some ttl) = .ok x)
      ↔ Served ctx env db projectId s (.multipartPartUrl s.id part ttl) := by
  constructor
  · rintro ⟨x, h⟩
    simp only [MultipartUploadService.partUrl, bind_eq_ok] at h
    obtain ⟨session, hsession, record, hrecord, config, hconfig, provider, hprovider, url, hurl,
      -⟩ := h
    obtain ⟨rfl, hfile⟩ := (sessionFile_iff hdb hs).mp ⟨hsession, hrecord⟩
    exact .partUrl hfile hconfig hprovider hurl
  · intro h
    cases h with
    | partUrl hfile hconfig hprovider hurl =>
      obtain ⟨hsession, hrecord⟩ := (sessionFile_iff hdb hs).mpr ⟨rfl, hfile⟩
      simp only [MultipartUploadService.partUrl, bind_eq_ok]
      exact ⟨_, _, hsession, _, hrecord, _, hconfig, _, hprovider, _, hurl, rfl⟩

theorem complete_served_iff (hdb : db.Good) (hs : s ∈ db .uploadSessions)
    (req : MultipartCompleteRequest) :
    (∃ x, MultipartUploadService.complete ctx env db projectId s.id req = .ok x)
      ↔ Served ctx env db projectId s (.multipartComplete s.id req) := by
  constructor
  · rintro ⟨⟨r, ws⟩, h⟩
    obtain ⟨session, record, config, provider, hsession, hrecord, hconfig, hprovider,
      hcomplete, hkey,
      -, -⟩ := MultipartUploadService.complete_eq_ok.mp h
    obtain ⟨rfl, hfile⟩ := (sessionFile_iff hdb hs).mp ⟨hsession, hrecord⟩
    exact .complete hfile hconfig hprovider hcomplete hkey
  · intro h
    cases h with
    | complete hfile hconfig hprovider hcomplete hkey =>
      obtain ⟨hsession, hrecord⟩ := (sessionFile_iff hdb hs).mpr ⟨rfl, hfile⟩
      exact ⟨_, MultipartUploadService.complete_eq_ok.mpr ⟨s, _, _, _, hsession, hrecord, hconfig,
        hprovider, hcomplete, hkey, rfl, rfl⟩⟩

theorem abort_served_iff (hdb : db.Good) (hs : s ∈ db .uploadSessions) :
    (∃ x, MultipartUploadService.abort ctx env db projectId s.id = .ok x)
      ↔ Served ctx env db projectId s (.multipartAbort s.id) := by
  constructor
  · rintro ⟨x, h⟩
    simp only [MultipartUploadService.abort, bind_eq_ok] at h
    obtain ⟨session, hsession, record, hrecord, provider, hprovider, _, habort, -⟩ := h
    obtain ⟨rfl, hfile⟩ := (sessionFile_iff hdb hs).mp ⟨hsession, hrecord⟩
    exact .abort hfile hprovider habort
  · intro h
    cases h with
    | abort hfile hprovider habort =>
      obtain ⟨hsession, hrecord⟩ := (sessionFile_iff hdb hs).mpr ⟨rfl, hfile⟩
      simp only [MultipartUploadService.abort, bind_eq_ok]
      exact ⟨_, _, hsession, _, hrecord, _, hprovider, _, habort, rfl⟩

/-- **A call on a session answers exactly if it finds what it needs.** -/
theorem run_served_iff (hdb : db.Good) (hs : s ∈ db .uploadSessions) {op : Operation}
    (hop : op.uploadId = some s.id) :
    (∃ x, op.run ctx env db projectId = .ok x) ↔ Served ctx env db projectId s op := by
  cases op with
  | multipartPartUrl uploadId part ttl =>
    obtain rfl := Option.some.inj hop
    exact partUrl_served_iff hdb hs part ttl
  | multipartComplete uploadId req =>
    obtain rfl := Option.some.inj hop
    exact complete_served_iff hdb hs req
  | multipartAbort uploadId =>
    obtain rfl := Option.some.inj hop
    exact abort_served_iff hdb hs
  | _ => cases hop

end OneCall

/-- **A call on a session fails exactly if it lacks something it needs.** -/
theorem ServiceCall.fails_iff {c : ServiceCall} {db : Database} {s : UploadSession} (hdb : db.Good)
    (hs : s ∈ db .uploadSessions) (hop : c.op.uploadId = some s.id) :
    c.Fails db ↔ ¬Served c.ctx c.env db c.projectId s c.op := by
  rw [← run_served_iff hdb hs hop, Fails]
  show ((∃ e, c.op.run c.ctx c.env db c.projectId = .error e)
    ∧ (commit db (c.op.run c.ctx c.env db c.projectId)).2 = db) ↔ _
  cases c.op.run c.ctx c.env db c.projectId with
  | error e =>
    constructor
    · rintro - ⟨x, hx⟩
      cases hx
    · exact fun _ => ⟨⟨e, rfl⟩, rfl⟩
  | ok x =>
    constructor
    · rintro ⟨⟨e, he⟩, -⟩
      cases he
    · exact fun h => absurd ⟨x, rfl⟩ h

/-! ### Runs -/

/-- Calls that come too late fail and change nothing. -/
def SessionsFinal : Guard Table.Row ServiceCall := fun db c _ =>
  ∀ s, c.TooLate db s → c.Fails db

/-- Calls that come too late lack something else they need. -/
def LateCallsUnserved : Guard Table.Row ServiceCall := fun db c _ =>
  ∀ s, c.TooLate db s → ¬Served c.ctx c.env db c.projectId s c.op

/-- Conditions that agree on reachable databases agree along runs. -/
theorem AllowedRun.congr {commits commits' : Guard Table.Row ServiceCall} (h : ∀ db c, Reached db →
    (commits db c db ↔ commits' db c db)) {calls : List ServiceCall} {db : Database}
    (hdb : Reached db) : AllowedRun commits calls db ↔ AllowedRun commits' calls db := by
  induction calls generalizing db with
  | nil => exact Iff.rfl
  | cons c calls ih =>
    exact and_congr (h db c hdb) (ih (hdb.call c.ctx c.env c.projectId c.op))

/-- **Sessions are final exactly if late calls lack something else**: from every reachable
database, in every sequence of calls, each call on a session that is completed or aborted
— and each that goes on with one past its time — fails and changes nothing, if and only if
each such call lacks something any call on the session would need. -/
theorem sessions_final_iff {db : Database} (h : Reached db) (calls : List ServiceCall) :
    AllowedRun SessionsFinal calls db ↔ AllowedRun LateCallsUnserved calls db := by
  refine AllowedRun.congr (fun db c hdb => ?_) h
  refine forall_congr' fun s => forall_congr' fun hlate => ?_
  exact ServiceCall.fails_iff hdb.good hlate.1 hlate.2.1

/-- A project and a multipart upload in it, completed. -/
def completedUpload : List ServiceCall :=
  [⟨orgContext "acme", devEnv "p" 1, "", .createProject devProject⟩,
   ⟨orgContext "acme", devEnv "m" 2, "p0", .multipartStart
     { filename := "a.mp4", contentType := "video/mp4", totalSizeBytes := 1 }⟩,
   ⟨orgContext "acme", devEnv "d" 3, "p0", .multipartComplete "m1" { parts := [(1, "etag")] }⟩]

/-- The upload aborted after it was completed. -/
def lateAbort : ServiceCall := ⟨orgContext "acme", devEnv "x" 4, "p0", .multipartAbort "m1"⟩

/-- From another organisation, the late abort is turned away. -/
theorem sessions_final_other_organization :
    AllowedRun SessionsFinal (completedUpload ++ [{ lateAbort with ctx := orgContext "umbrella" }])
      Database.empty := by
  refine (sessions_final_iff .empty _).mpr ⟨fun s hs => ?_, fun s hs => ?_, fun s hs => ?_,
    fun s hs => ?_, trivial⟩
  · cases hs.2.1
  · cases hs.2.1
  · -- in time
    have hopen : ∀ s ∈ runAll (completedUpload.take 2) Database.empty .uploadSessions,
        ¬UploadSession.Terminal s ∧ ¬UploadSession.expiresAt s < 3 := by decide
    obtain ⟨hmem, -, hterminal | ⟨-, hexpired⟩⟩ := hs
    · exact absurd hterminal (hopen s hmem).1
    · exact absurd hexpired (hopen s hmem).2
  · have horganization : ∀ s ∈ runAll completedUpload Database.empty .uploadSessions,
        UploadSession.organizationId s = "acme" := by decide
    have hacme := horganization s hs.1
    intro hserved
    cases hserved with
    | abort hfile hprovider habort =>
      have humbrella : s.organizationId = "umbrella" := hfile.session_organizationId
      rw [hacme] at humbrella
      exact absurd humbrella (by decide)

/-- A file that is ready, failed by a late abort. -/
theorem completed_then_aborted :
    ¬∀ db calls, Reached db → AllowedRun SessionsFinal calls db := by
  intro h
  obtain ⟨-, -, -, hfinal, -⟩ := h Database.empty (completedUpload ++ [lateAbort]) .empty
  have hcompleted : ∃ s ∈ runAll completedUpload Database.empty .uploadSessions,
      lateAbort.op.uploadId = some (UploadSession.id s) ∧ UploadSession.Terminal s := by decide
  obtain ⟨s, hs, hid, hterminal⟩ := hcompleted
  obtain ⟨⟨e, he⟩, -⟩ := hfinal s ⟨hs, hid, Or.inl hterminal⟩
  -- the abort answered
  cases he

end FileNest
