import FileNest.Isolation
import FileNest.Uploads.Admission

/-!
# Uploads in flight

A project may limit the number of uploads that are in flight.  Both ways to begin one
count the files that are pending or uploading, and insert one more if there is room.
Nothing is locked between the count and the insert, so requests that count side by side
all find the same room.

## Main definitions

* `UploadCall`, `beginUploads` — upload requests of any callers, and their runs.
* `RoomAtCommit` — what a request counted still holds when it commits, or holds well enough.
* `LimitedProject` — a project with a limit, and within it.

## Main results

* `UploadCall.result_ok` — what a request counts, and what it inserts.
* `LimitedProject.step_iff`, `LimitedProject.run` — one step, and a run.
* `in_flight_kept_iff` — **the limit is kept exactly where there is room at every commit.**
* `in_flight_exceeded` — two uploads, counted side by side, in a project for one.
-/

namespace FileNest

open RowStore ReadCommitted FileRepository

/-- A request that begins an upload. -/
structure UploadCall where
  ctx : TenantContext
  env : Env
  projectId : String
  request : UploadRequest

def UploadCall.result (c : UploadCall) (db : Database) : ServiceResult :=
  c.request.op.run c.ctx c.env db c.projectId

/-- Requests that begin uploads. -/
def beginUploads : Program Table.Row UploadCall := fun c db => (c.result db).writes

/-- **The condition** on the commit of an upload of the project: no more uploads are in flight than
the request counted, or there is still room for one. -/
def RoomAtCommit (o p : String) (m : ℤ) : Guard Table.Row UploadCall := fun db c snapshot =>
  c.ctx.organizationId = o → c.projectId = p →
    countInFlight db o p ≤ countInFlight snapshot o p ∨ (countInFlight db o p : ℤ) < m

/-- The project has a limit, and no more uploads in flight. -/
structure LimitedProject (db : Database) (o p : String) (m : ℤ) : Prop where
  limit : ∃ config, ProjectConfigRepository.getForProject db p o = .ok config
    ∧ config.maxFilesPerRequest = some m
  /-- The schema of the setting asks for this. -/
  positive : 1 ≤ m
  within : (countInFlight db o p : ℤ) ≤ m

/-! ### One upload -/

section Upload

variable {c : UploadCall} {snapshot : Database} {r : Response} {ws : List DbWrite}

/-- **What a request counts, and what it inserts.** -/
theorem UploadCall.result_ok (h : c.result snapshot = .ok (r, ws)) :
    ∃ config f w, ProjectConfigRepository.getForProject snapshot c.projectId c.ctx.organizationId
        = .ok config
      ∧ checkInFlight config (countInFlight snapshot c.ctx.organizationId c.projectId) = .ok ()
      ∧ ws = [.insert .files f, w] ∧ w.table ≠ .files ∧ w.table ≠ .projectConfigs
      ∧ f.organizationId = c.ctx.organizationId ∧ f.projectId = c.projectId
      ∧ f.status = .pending ∧ f.deletedAt = none := by
  obtain ⟨ctx, env, projectId, request⟩ := c
  cases request with
  | init req =>
    obtain ⟨config, provider, url, hadmits, -, -, -, rfl⟩ := FileService.initUpload_eq_ok.mp h
    refine ⟨config, _, _, hadmits.config_eq, hadmits.inFlight, rfl, ?_, ?_, rfl, rfl, rfl, rfl⟩ <;>
      simp [publish, TransactionalOutboxPublisher.publish]
  | start req =>
    obtain ⟨config, provider, uploadId, hadmits, -, -, rfl⟩ :=
      MultipartUploadService.start_eq_ok.mp h
    refine ⟨config, _, _, hadmits.config_eq, hadmits.inFlight, rfl, ?_, ?_, rfl, rfl, rfl, rfl⟩ <;>
      simp

/-- One more file that is pending. -/
theorem countInFlight_insert {f : File} {w : DbWrite} (hw : w.table ≠ .files)
    (hstatus : f.status = .pending) (hdeleted : f.deletedAt = none) (db : Database)
    (o p : String) : countInFlight (applyAll [.insert .files f, w] db) o p
      = countInFlight db o p + if f.organizationId = o ∧ f.projectId = p then 1 else 0 := by
  have hfiles : applyAll [.insert .files f, w] db .files = db .files ++ [f] := by
    rw [applyAll_cons, applyAll_cons, applyAll_nil, apply_of_table_ne hw, apply_insert_self]
  rw [countInFlight, hfiles, List.filter_append, List.length_append, countInFlight]
  by_cases hproject : f.organizationId = o ∧ f.projectId = p
  · rw [if_pos hproject, List.filter_cons_of_pos (by simp [hproject, hstatus, hdeleted])]
    rfl
  · rw [if_neg hproject, List.filter_cons_of_neg (by simpa [hstatus, hdeleted] using hproject)]
    rfl

/-- There is room where the check passes. -/
theorem lt_of_checkInFlight {config : ProjectConfig} {n : ℕ} {m : ℤ}
    (hmax : config.maxFilesPerRequest = some m) (hm : 1 ≤ m)
    (h : checkInFlight config n = .ok ()) : (n : ℤ) < m := by
  simp only [checkInFlight, hmax] at h
  split at h
  · simp only [throw_ne_ok] at h
  · omega

/-- Uploads leave the configurations alone. -/
theorem UploadCall.configs_eq (h : c.result snapshot = .ok (r, ws)) (db : Database) :
    applyAll ws db .projectConfigs = db .projectConfigs := by
  obtain ⟨config, f, w, -, -, rfl, -, hw, -⟩ := UploadCall.result_ok h
  refine applyAll_of_table_ne (fun v hv => ?_) db
  rcases List.mem_cons.mp hv with rfl | hv
  · exact Table.noConfusion
  · rw [List.mem_singleton.mp hv]
    exact hw

/-- **A commit keeps the limit exactly if there is room.** -/
theorem UploadCall.within_iff {start db : Database} {o p : String} {m : ℤ}
    (hstart : LimitedProject start o p m)
    (hconfigs : snapshot .projectConfigs = start .projectConfigs)
    (h : c.result snapshot = .ok (r, ws)) (hwithin : (countInFlight db o p : ℤ) ≤ m) :
    (countInFlight (applyAll ws db) o p : ℤ) ≤ m ↔ RoomAtCommit o p m db c snapshot := by
  obtain ⟨config, f, w, hconfig, hcheck, rfl, hw, -, ho, hp, hstatus, hdeleted⟩ :=
    UploadCall.result_ok h
  rw [countInFlight_insert hw hstatus hdeleted, ho, hp]
  by_cases hproject : c.ctx.organizationId = o ∧ c.projectId = p
  · obtain ⟨rfl, rfl⟩ := hproject
    obtain ⟨config', hconfig', hmax⟩ := hstart.limit
    have hsame : config = config' := by
      rw [ProjectConfigRepository.getForProject, hconfigs] at hconfig
      exact Except.ok.inj (hconfig.symm.trans hconfig')
    have hroom := lt_of_checkInFlight (hsame ▸ hmax) hstart.positive hcheck
    rw [if_pos ⟨rfl, rfl⟩]
    constructor
    · exact fun hle _ _ => .inr (by omega)
    · intro hcommit
      rcases hcommit rfl rfl with hle | hlt
      · omega
      · omega
  · rw [if_neg hproject]
    exact ⟨fun _ ho hp => absurd ⟨ho, hp⟩ hproject, fun _ => hwithin⟩

end Upload

/-! ### Runs -/

section Run

variable {start : Database} {o p : String} {m : ℤ} {w w' : World Table.Row UploadCall}

/-- All requests of a run read the configurations it began with. -/
theorem beginUploads_configs {commits : Guard Table.Row UploadCall}
    (hw : Reachable beginUploads commits (· = start) w) :
    w.store .projectConfigs = start .projectConfigs
      ∧ ∀ x ∈ w.inflight, x.2 .projectConfigs = start .projectConfigs := by
  refine hw.invariant (P := fun db => db .projectConfigs = start .projectConfigs)
    (Q := fun _ snapshot _ => snapshot .projectConfigs = start .projectConfigs) ?_ ?_ ?_
  · exact fun db hdb => hdb ▸ rfl
  · exact fun c db hdb => hdb
  · intro db c snapshot ws hdb hsnapshot hws _ _
    obtain ⟨r, hr⟩ := ServiceResult.writes_eq_some.mp hws
    exact ⟨(UploadCall.configs_eq hr db).trans hdb, fun _ _ hsnap => hsnap⟩

/-- **A step keeps the limit exactly if it commits where there is room.** -/
theorem LimitedProject.step_iff (h : LimitedProject start o p m)
    {commits : Guard Table.Row UploadCall} (hw : Reachable beginUploads commits (· = start) w)
    (hwithin : (countInFlight w.store o p : ℤ) ≤ m) (hs : Step beginUploads .always w w') :
    (countInFlight w'.store o p : ℤ) ≤ m ↔ Step beginUploads (RoomAtCommit o p m) w w' := by
  have hconfigs := (beginUploads_configs hw).2
  refine Step.iff_of_commit (P := fun db => (countInFlight db o p : ℤ) ≤ m) hwithin ?_ hs
  intro c snapshot ws hmem hws _
  obtain ⟨r, hr⟩ := ServiceResult.writes_eq_some.mp hws
  exact UploadCall.within_iff h (hconfigs _ hmem) hr hwithin

/-- **Where there is room at every commit the limit is kept.** -/
theorem LimitedProject.run (h : LimitedProject start o p m)
    (hw : Reachable beginUploads (RoomAtCommit o p m) (· = start) w) :
    (countInFlight w.store o p : ℤ) ≤ m := by
  induction hw with
  | init hdb => exact hdb ▸ h.within
  | step hw hs ih => exact (h.step_iff hw ih hs.always).mpr hs

/-- **The limit is kept exactly where there is room at every commit**: runs whose commits all have
it stay within the limit, and the first commit that does not goes beyond. -/
theorem in_flight_kept_iff (h : LimitedProject start o p m) :
    (∀ w, Reachable beginUploads (RoomAtCommit o p m) (· = start) w →
        (countInFlight w.store o p : ℤ) ≤ m)
      ∧ ∀ w w', Reachable beginUploads .always (· = start) w → (countInFlight w.store o p : ℤ) ≤ m →
        Step beginUploads .always w w' →
          ((countInFlight w'.store o p : ℤ) ≤ m ↔ Step beginUploads (RoomAtCommit o p m) w w') :=
  ⟨fun _ hw => h.run hw, fun _ _ hw hwithin hs => h.step_iff hw hwithin hs⟩

end Run

/-- A project for one upload at a time. -/
def singleUploadProject : List ServiceCall :=
  [⟨orgContext "acme", devEnv "p" 1, "", .createProject devProject⟩,
   ⟨orgContext "acme", devEnv "u" 2, "p0", .updateUploadConfig
     { devUploadConfig with maxFilesPerRequest := some 1, maxFilesPerRequest_pos := by decide }⟩]

/-- The database with that project. -/
def singleUploadDb : Database := runAll singleUploadProject Database.empty

theorem limitedProject_singleUploadDb : LimitedProject singleUploadDb "acme" "p0" 1 where
  limit := ⟨_, rfl, rfl⟩
  positive := by decide
  within := by decide

/-- An upload to that project. -/
def singleUpload (tag : String) : UploadCall :=
  ⟨orgContext "acme", devEnv tag 3, "p0",
    .init { filename := "a.txt", contentType := "text/plain", sizeBytes := 1 }⟩

/-- One upload, within the limit. -/
theorem in_flight_kept_singleUpload :
    ∃ w, Reachable beginUploads (RoomAtCommit "acme" "p0" 1) (· = singleUploadDb) w
      ∧ countInFlight w.store "acme" "p0" = 1 ∧ (countInFlight w.store "acme" "p0" : ℤ) ≤ 1 := by
  have hstart : Reachable beginUploads (RoomAtCommit "acme" "p0" 1) (· = singleUploadDb)
    ⟨singleUploadDb, []⟩ := .init rfl
  have hone := (hstart.step (.read (singleUpload "x"))).step
    (.commit [] [] rfl (by decide) fun _ _ => .inl (le_refl _))
  exact ⟨_, hone, by decide, (in_flight_kept_iff limitedProject_singleUploadDb).1 _ hone⟩

/-- Two uploads, counted side by side, in a project for one. -/
theorem in_flight_exceeded : ¬∀ start o p m, Reached start → LimitedProject start o p m →
    ∀ w, Reachable beginUploads .always (· = start) w → (countInFlight w.store o p : ℤ) ≤ m := by
  intro h
  have hstart : Reachable beginUploads .always (· = singleUploadDb) ⟨singleUploadDb, []⟩ :=
    .init rfl
  have hread := (hstart.step (.read (singleUpload "x"))).step (.read (singleUpload "y"))
  have hfirst := hread.step (.commit [] [_] rfl (by decide) trivial)
  have hsecond := hfirst.step (.commit [] [] rfl (by decide) trivial)
  exact absurd (h singleUploadDb "acme" "p0" 1 (reached_runAll .empty singleUploadProject)
    limitedProject_singleUploadDb _ hsecond) (by decide)

end FileNest
