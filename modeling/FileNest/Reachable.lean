import FileNest.Confinement

/-!
# Reachable databases

The database starts empty.  Requests and service calls of any caller, and the commits
of the background workers, run as transactions under READ COMMITTED.  Whatever the
interleaving, primary keys stay unique and every row names rows on record, in its own
organisation and project.

## Main definitions

* `ServiceCall`, `Call`, `Call.run` — the transactions of the system.
* `Reached` — the databases its runs can reach.

## Main results

* `Reached.good` — **every reachable database is good.**
* `Reached.call` — a service call that runs alone reaches a database.
* `ServiceCall.invariant` — the induction over a run of service calls.
-/

namespace FileNest

open RowStore ReadCommitted

/-- A service call. -/
structure ServiceCall where
  ctx : TenantContext
  env : Env
  projectId : String
  op : Operation

/-- What the operation of a call gives. -/
def ServiceCall.result (c : ServiceCall) (db : Database) : ServiceResult :=
  c.op.run c.ctx c.env db c.projectId

/-- What the workers commit: updates of rows they found, events, delivery records. -/
inductive BackgroundWrite : DbWrite → Prop
  | update (t : Table) (i : String) (f : Patch Table.Row t) : BackgroundWrite (.update t i f)
  | event (row : OutboxMessage) : BackgroundWrite (.insert .outboxMessages row)
  | delivery (row : WebhookDelivery) : BackgroundWrite (.insert .webhookDeliveries row)

/-- A transaction of the system. -/
inductive Call where
  /-- A service operation of a caller. -/
  | service (ctx : TenantContext) (env : Env) (projectId : String) (op : Operation)
  /-- A commit of a worker. -/
  | background (writes : List DbWrite) (h : ∀ w ∈ writes, BackgroundWrite w)

/-- The writes of a service result. -/
def ServiceResult.writes : ServiceResult → Option (List DbWrite)
  | .ok (_, writes) => some writes
  | .error _ => none

/-- What a service call writes, given the database it reads. -/
def ServiceCall.writes : Program Table.Row ServiceCall := fun c db => (c.result db).writes

/-- What a transaction writes, given the database it reads. -/
def Call.run : Program Table.Row Call
  | .service ctx env projectId op, db => ServiceResult.writes (op.run ctx env db projectId)
  | .background writes _, _ => some writes

/-- A database some run of the system reaches, from the empty one. -/
def Reached (db : Database) : Prop :=
  ∃ w : World Table.Row Call, Reachable Call.run .always (· = Database.empty) w ∧ w.store = db

theorem ServiceResult.writes_eq_some {x : ServiceResult} {ws : List DbWrite} :
    x.writes = some ws ↔ ∃ r, x = .ok (r, ws) := by
  rcases x with e | ⟨r, ws'⟩ <;> simp [writes]

theorem ServiceCall.resolved {c : ServiceCall} {db : Database} {ws : List DbWrite}
    (hdb : db.Good) (h : c.writes db = some ws) : Resolved refs ws db := by
  obtain ⟨r, hr⟩ := ServiceResult.writes_eq_some.mp h
  exact (Operation.sound hdb hr).resolved

theorem Database.good_empty : Database.empty.Good :=
  ⟨fun t => List.nodup_nil, fun t r hr => by simp [Database.empty] at hr⟩

/-- What the workers commit names nothing. -/
theorem BackgroundWrite.resolved {w : DbWrite} (h : BackgroundWrite w) (db : Database) :
    w.Resolved refs db := by
  cases h with
  | update t i f => trivial
  | event row => exact fun k hk => by cases hk
  | delivery row => exact fun k hk => by cases hk

/-- What a transaction computes from a good database is resolved there. -/
theorem Call.run_resolved {c : Call} {db : Database} {ws : List DbWrite} (hdb : db.Good)
    (h : c.run db = some ws) : Resolved refs ws db := by
  cases c with
  | service ctx env projectId op =>
    obtain ⟨r, hr⟩ := ServiceResult.writes_eq_some.mp h
    exact (Operation.sound hdb hr).resolved
  | background writes hwrites =>
    obtain rfl : writes = ws := by simpa [run] using h
    exact .of_forall fun w hw => (hwrites w hw).resolved db

/-- **Every reachable database is good.** -/
theorem Reached.good {db : Database} (h : Reached db) : db.Good := by
  obtain ⟨w, hw, rfl⟩ := h
  refine (hw.good (fun s hs => ?_) fun c s ws hs hws => c.run_resolved hs hws).1
  rw [hs]
  exact Database.good_empty

theorem Reached.empty : Reached Database.empty := ⟨_, .init rfl, rfl⟩

/-- A transaction that runs alone. -/
theorem Reached.run {db : Database} (h : Reached db) (c : Call) {ws : List DbWrite}
    (hc : c.run db = some ws) (hadm : Admissible ws db) : Reached (applyAll ws db) := by
  obtain ⟨⟨s, inflight⟩, hw, rfl⟩ := h
  have hread := hw.step (.read c)
  exact ⟨_, hread.step (.commit [] inflight hc hadm trivial), rfl⟩

/-- A service call that runs alone, committed or rolled back. -/
theorem Reached.call {db : Database} (h : Reached db) (ctx : TenantContext) (env : Env)
    (projectId : String) (op : Operation) :
    Reached (commit db (op.run ctx env db projectId)).2 := by
  rcases hr : op.run ctx env db projectId with e | ⟨r, ws⟩
  · exact h
  · simp only [commit]
    split
    · rename_i hadm
      exact h.run (.service ctx env projectId op)
        (ServiceResult.writes_eq_some.mpr ⟨r, hr⟩) hadm
    · exact h

/-- **The induction over a run of service calls.**  `P` is kept by what a call commits, and `R`
relates the database it read to the present one. -/
theorem ServiceCall.invariant_inflight {commits : Guard Table.Row ServiceCall}
    {P : Database → Prop} {R : Database → Database → Prop} (hempty : P Database.empty)
    (hnow : ∀ db, R db db)
    (hcommit : ∀ (db snapshot : Database) (c : ServiceCall) (r : Response) (ws : List DbWrite),
      db.Good → snapshot.Good → KeepsReferenced refs snapshot db → R snapshot db → P db →
      c.result snapshot = .ok (r, ws) → Admissible ws db → commits db c snapshot →
      P (applyAll ws db) ∧ ∀ snap, R snap db → R snap (applyAll ws db))
    {w : World Table.Row ServiceCall}
    (hw : Reachable ServiceCall.writes commits (· = Database.empty) w) :
    (Database.Good w.store ∧ P w.store)
      ∧ ∀ x ∈ w.inflight, Database.Good x.2 ∧ KeepsReferenced refs x.2 w.store ∧ R x.2 w.store := by
  refine hw.invariant (P := fun db => Database.Good db ∧ P db) (Q := fun _ snapshot db =>
    Database.Good snapshot ∧ KeepsReferenced refs snapshot db ∧ R snapshot db) ?_ ?_ ?_
  · rintro _ rfl
    exact ⟨Database.good_empty, hempty⟩
  · exact fun c db hdb => ⟨hdb.1, .refl db, hnow db⟩
  · rintro db c snapshot ws ⟨hdb, hP⟩ ⟨hsnap, hread, hR⟩ hws hadm hallowed
    obtain ⟨r, hr⟩ := ServiceResult.writes_eq_some.mp hws
    obtain ⟨hgood, hkeeps⟩ := hdb.commit hread (c.resolved hsnap hws) hadm
    obtain ⟨hP', hR'⟩ := hcommit db snapshot c r ws hdb hsnap hread hR hP hr hadm hallowed
    exact ⟨⟨hgood, hP'⟩, fun d snap hd => ⟨hd.1, hd.2.1.trans hkeeps, hR' snap hd.2.2⟩⟩

/-- The same of the database alone. -/
theorem ServiceCall.invariant {commits : Guard Table.Row ServiceCall} {P : Database → Prop}
    {R : Database → Database → Prop} (hempty : P Database.empty) (hnow : ∀ db, R db db)
    (hcommit : ∀ (db snapshot : Database) (c : ServiceCall) (r : Response) (ws : List DbWrite),
      db.Good → snapshot.Good → KeepsReferenced refs snapshot db → R snapshot db → P db →
      c.result snapshot = .ok (r, ws) → Admissible ws db → commits db c snapshot →
      P (applyAll ws db) ∧ ∀ snap, R snap db → R snap (applyAll ws db))
    {w : World Table.Row ServiceCall}
    (hw : Reachable ServiceCall.writes commits (· = Database.empty) w) :
    Database.Good w.store ∧ P w.store :=
  (ServiceCall.invariant_inflight hempty hnow hcommit hw).1

/-! ### Values to compute with -/

/-- A caller of an organisation with the scopes that manage projects. -/
def orgContext (organizationId : String) : TenantContext where
  organizationId := organizationId
  projectId := none
  actorId := "user_1"
  scopes := ["projects:read", "projects:update", "upload_tokens:create", "files:upload",
    "files:read"]

/-- Storage that always answers. -/
def devStorage : StorageClient where
  generatePresignedUploadUrl _ key _ _ _ := pure ("http://localhost:9000/" ++ key)
  generatePresignedDownloadUrl _ key _ _ := pure ("http://localhost:9000/" ++ key.getD "")
  createMultipartUpload _ key _ := pure ("upload-" ++ key)
  generatePresignedPartUrl _ _ uploadId _ _ := pure ("http://localhost:9000/" ++ uploadId)
  completeMultipartUpload _ _ _ _ := pure ()
  abortMultipartUpload _ _ _ := pure ()
  upload _ _ _ _ := pure ()
  deleteObject _ _ := pure ()
  createBucket _ _ := pure ()
  setBucketCors _ _ := pure ()

/-- An environment that draws the ids `tag0`, `tag1`, …. -/
def devEnv (tag : String) (now : ℕ) : Env where
  now := now
  uuid4 n := tag ++ toString n
  tokenHex := tag ++ "secret"
  latencyMs := 1
  settings := {}
  crypto := { encrypt := fun _ => .ok "blob", decrypt := fun _ => .ok [] }
  storage := devStorage
  validateSchema _ _ := .ok ()
  ip := { ipAddress := fun _ => none, ipNetwork := fun _ => none }
  request := {}

/-- A project on the platform's storage. -/
def devProject : CreateProjectRequest where
  name := "Docs"
  slug := "docs"

theorem hour_mem : 60 ≤ 3600 ∧ 3600 ≤ 86400 := by decide

/-- A token with the defaults, valid for an hour. -/
def devTokenRequest : CreateUploadTokenRequest where
  expiresIn := 3600
  expiresIn_mem := hour_mem

/-- Upload restrictions to start from. -/
def devUploadConfig : UpdateUploadConfigRequest := {}

/-- Network settings to start from. -/
def devSecurityConfig : UpdateSecurityConfigRequest := {}

/-- Credentials for a bucket. -/
def devBucket : StorageConfigUpdateRequest where
  bucketName := "acme-files"
  accessKeyId := some "key"
  secretAccessKey := some "secret"

end FileNest
