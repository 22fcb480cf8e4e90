import FileNest.Processing.World

/-!
# What gets past the virus scan

While a project scans, a confirmed upload is `processing` and only a run whose scan passed
makes it `ready`.  Two ways lead around that: a restore sets `ready` without asking, and
a confirmation that read `processing` leaves the status alone if a run has set `ready`
meanwhile.  When neither happens, and runs that overlap a confirmation or a quarantine
do not commit, every ready file has passed a scan since.

## Main definitions

* `ScanOn` — the project has the virus scan on.
* `Commit.confirms`, `Commit.quarantines`, `Commit.passes` — what a commit says of a file.
* `Scanned` — a scan passed in a run that started after all confirmations and quarantines.
* `ScanGated` — the condition.

## Main results

* `Gated.step` — every step that meets the condition keeps the invariant.
* `ready_scanned` — **every ready file has passed a scan.**
* `ready_unscanned` — without the condition a file may be ready that was never scanned.
-/

namespace FileNest

open RowStore

namespace Processing

/-- The project has the virus scan on. -/
def ScanOn (p : String) (db : Database) : Prop :=
  ∀ c ∈ db .projectConfigs, ProjectConfig.projectId c = p → c.virusScanEnabled = true

/-- The commit confirms or completes an upload of the file. -/
def Commit.confirms (i : String) : Commit → Prop
  | .request call snapshot _ => call.op.confirmed snapshot call.ctx.organizationId = some i
  | _ => False

/-- The commit quarantines the file. -/
def Commit.quarantines (i : String) : Commit → Prop
  | .outcome _ target _ o => target.fileId = i ∧ o.status = .quarantined
  | _ => False

/-- The commit is that of a run whose virus scan of the file passed. -/
def Commit.passes (i : String) : Commit → Prop
  | .outcome env target snapshot _ => target.fileId = i ∧ ScanPassed env snapshot target
  | _ => False

/-- Every confirmation and quarantine of the file was committed by then. -/
def SettledBy (w : World) (i : String) (n : ℕ) : Prop :=
  ∀ e ∈ w.log, e.what.confirms i ∨ e.what.quarantines i → e.committedAt ≤ n

/-- The scan of the file passed in a run that started after its last confirmation and its
last quarantine. -/
def Scanned (w : World) (i : String) : Prop :=
  ∃ e ∈ w.log, e.what.passes i ∧ SettledBy w i e.readAt

/-- **The condition** on commits in a project: a version is restored only onto a ready file,
a confirmation that read the file as `processing` does not find it ready, and a run
commits only if its file has been neither confirmed nor quarantined since it started. -/
def ScanGated (p : String) (w : World) : Label → Prop
  | .commit ⟨.request call snapshot _, _, _⟩ => call.projectId = p →
      (∀ i v, call.op = .restoreVersion i v →
          ∀ f ∈ w.db .files, File.id f = i → f.status = .ready)
        ∧ ∀ i, call.op.confirmed snapshot call.ctx.organizationId = some i →
          ∀ record ∈ snapshot .files, File.id record = i → record.status = .processing →
            ∀ f ∈ w.db .files, File.id f = i → f.status ≠ .ready
  | .commit ⟨.outcome _ target _ _, n, _⟩ => target.projectId = p → SettledBy w target.fileId n
  | _ => True

/-- What holds in every world of a run. -/
structure Gated (p : String) (w : World) : Prop where
  consistent : Consistent w
  requests : ∀ r ∈ w.requests, ScanOn p r.snapshot
  handlers : ∀ x ∈ w.handlers, ∀ snapshot n, x.phase.read = some (snapshot, n) →
    ScanOn p snapshot
  ready : ∀ f ∈ w.db .files, File.projectId f = p → f.status = .ready → Scanned w f.id

section Invariant

variable {p : String} {w w' : World}

/-- A commit that neither confirms nor quarantines the file. -/
theorem Scanned.later {i : String} {e : Entry} (h : Scanned w i) (hlog : w'.log = e :: w.log)
    (hconf : ¬e.what.confirms i) (hquar : ¬e.what.quarantines i) : Scanned w' i := by
  obtain ⟨e₀, he₀, hpass, hby⟩ := h
  refine ⟨e₀, by rw [hlog]; exact List.mem_cons_of_mem _ he₀, hpass, fun e' he' hce => ?_⟩
  rw [hlog] at he'
  rcases List.mem_cons.mp he' with rfl | he'
  · exact (hce.elim hconf hquar).elim
  · exact hby e' he' hce

/-- Steps that commit nothing. -/
theorem Gated.silently (h : Gated p w) (hon : ScanOn p w.db) (hcons : Consistent w')
    (hq : Silently w w') : Gated p w' := by
  refine ⟨hcons, fun r hr => ?_, fun x hx snapshot n hread => ?_, fun f hf hp hready => ?_⟩
  · rcases hq.requests r hr with hr | hr
    · exact h.requests r hr
    · rwa [hr.1]
  · rcases hq.handlers x hx with hx | hx
    · exact h.handlers x hx snapshot n hread
    · rwa [(hx snapshot n hread).1]
  · rw [hq.files] at hf
    have hscanned := h.ready f hf hp hready
    simpa only [Scanned, SettledBy, hq.log] using hscanned

/-- The commit of a request: a file that is ready afterwards was so before. -/
theorem Gated.request (h : Gated p w) {r : InFlight} {ws : List DbWrite} {m : ℕ}
    (hr : r ∈ w.requests) (hws : r.call.writes r.snapshot = some ws)
    (hcond : ScanGated p w (.commit ⟨.request r.call r.snapshot ws, r.readAt, m⟩)) {f' : File}
    (hf' : f' ∈ applyAll ws w.db .files) (hp : f'.projectId = p) (hready : f'.status = .ready) :
    Scanned w f'.id ∧ ¬(Commit.request r.call r.snapshot ws).confirms f'.id := by
  have hread := h.consistent.requests r hr
  obtain ⟨_, hres⟩ := ServiceResult.writes_eq_some.mp hws
  cases (Operation.fileEffect hread.good hres).rowEffect hf' with
  | old hf hop => exact ⟨h.ready f' hf hp hready, hop⟩
  | created hstatus =>
    rw [hstatus] at hready
    cases hready
  | changed hf hid hrecord hflush hchange =>
    rename_i f record new
    subst hflush
    obtain ⟨hmem, -, -, hproj, -⟩ := FileRepository.of_get hrecord
    have hstatus : flushColumn record.status new.status f.status = .ready := hready
    have hfp : f.projectId = p := hp
    -- the request is about the project, like the file
    have hcall : r.call.projectId = p := by
      rw [← hproj, ← (hread.owner_eq h.consistent.good hmem hf hid).2, hfp]
    have hscanned : f.status = .ready → Scanned w f.id := fun hr => h.ready f hf hfp hr
    cases hchange with
    | modify hop hnew =>
      refine ⟨hscanned ?_, by simp [Commit.confirms, hop]⟩
      rcases hnew with hnew | hnew
      · rwa [hnew, flushColumn_self] at hstatus
      · exact (flushColumn_ne hstatus (by simp [hnew])).1
    | settle hop hconfig hsettle hevent =>
      obtain ⟨hcmem, hcproj, -⟩ := ProjectConfigRepository.of_getForProject hconfig
      obtain ⟨_, _, -, -, hcase⟩ := settleUpload_cases hsettle
      have hscan := h.requests r hr _ hcmem (hcproj.trans hcall)
      obtain ⟨-, hprocessing, -⟩ | ⟨hoff, -, -⟩ := hcase
      · have hsame := flushColumn_ne hstatus (by simp [hprocessing])
        exact absurd hsame.1 ((hcond hcall).2 _ hop record hmem rfl
          (hsame.2 ▸ hprocessing) f hf hid)
      · rw [hscan] at hoff
        cases hoff
    | restore hop hnew =>
      refine ⟨hscanned ((hcond hcall).1 _ _ hop f hf hid), ?_⟩
      simp [Commit.confirms, hop, Operation.confirmed]

/-- The commit of a run: what it makes ready has passed its scan. -/
theorem Gated.outcome (h : Gated p w) {env : PipelineEnv} {seq n m : ℕ} {target : Target}
    {snapshot : Database} {o : Outcome} {e : Entry}
    (he : e = ⟨.outcome env target snapshot o, n, m⟩)
    (hx : ⟨seq, target, .executing snapshot n⟩ ∈ w.handlers)
    (ho : PipelineExecutor.execute env snapshot target = .ok (some o))
    (hcond : ScanGated p w (.commit e)) (hlog : w'.log = e :: w.log) {f' : File}
    (hf' : f' ∈ applyAll (o.writes env target) w.db .files) (hp : f'.projectId = p)
    (hready : f'.status = .ready) : Scanned w' f'.id := by
  obtain ⟨hterminal, hprocessing, config, hconfig, hpassed⟩ :=
    PipelineExecutor.execute_eq_some ho
  obtain ⟨hmem, hrid, -, hproj, -⟩ := FileRepository.of_get hterminal.get_eq
  rw [o.applyAll_files] at hf'
  obtain ⟨f, hf, rfl⟩ := List.mem_map.mp hf'
  by_cases hid : f.id = o.record.id
  · rw [if_pos hid] at hp hready ⊢
    have hstatus : flushColumn o.record.status o.status f.status = .ready := hready
    have hfp : f.projectId = p := hp
    have htarget : target.projectId = p := by
      have hread := h.consistent.handlers _ hx _ _ rfl
      rw [← hproj, ← (hread.owner_eq h.consistent.good hmem hf hid).2, hfp]
    have hoready : o.status = .ready := by
      by_contra hne
      have hevent := hterminal.event_eq
      rw [(flushColumn_ne hstatus hne).2, hprocessing] at hevent
      cases hevent
    obtain ⟨hcmem, hcproj, -⟩ := ProjectConfigRepository.of_getForProject hconfig
    have hscan := h.handlers _ hx _ _ rfl _ hcmem (hcproj.trans htarget)
    have hfile : target.fileId = f.id := hrid.symm.trans hid.symm
    subst he
    refine ⟨⟨.outcome env target snapshot o, n, m⟩, by rw [hlog]; exact List.mem_cons_self,
      ⟨hfile, hpassed hscan hoready⟩, fun e' he' hce => ?_⟩
    rw [hlog] at he'
    rcases List.mem_cons.mp he' with rfl | he'
    · rcases hce with hconf | ⟨-, hquar⟩
      · exact hconf.elim
      · rw [hoready] at hquar
        cases hquar
    · refine hcond htarget e' he' ?_
      rw [hfile]
      exact hce
  · rw [if_neg hid] at hp hready ⊢
    subst he
    refine (h.ready f hf hp hready).later hlog (fun hconf => hconf) fun hquar => hid ?_
    exact hquar.1.symm.trans hrid.symm

/-- The commit of a failure handler makes nothing ready. -/
theorem Gated.failure (h : Gated p w) {env : PipelineEnv} {n m : ℕ} {target : Target}
    {snapshot : Database} {o : Outcome} {e : Entry} {reason : String}
    (he : e = ⟨.failure env target snapshot o, n, m⟩)
    (ho : PipelineExecutor.markFailed snapshot target reason = .ok o)
    (hlog : w'.log = e :: w.log) {f' : File}
    (hf' : f' ∈ applyAll (o.writes env target) w.db .files) (hp : f'.projectId = p)
    (hready : f'.status = .ready) : Scanned w' f'.id := by
  have hlater : ∀ i, Scanned w i → Scanned w' i := fun i hscanned =>
    hscanned.later hlog (by subst he; exact fun hc => hc) (by subst he; exact fun hq => hq)
  rcases Outcome.ready_cases hf' hready with ⟨hoready, -⟩ | ⟨f, hf, hfready, hid, hproj⟩
  · rw [(PipelineExecutor.markFailed_eq_ok ho).2] at hoready
    cases hoready
  · rw [← hid]
    exact hlater f.id (h.ready f hf (hproj.trans hp) hfready)

/-- **Every step that meets the condition keeps the invariant.** -/
theorem Gated.step (h : Gated p w) (hon : ScanOn p w.db) {l : Label} (hstep : Step w l w')
    (hcond : ScanGated p w l) : Gated p w' := by
  have hcons := h.consistent.step hstep
  cases l with
  | silent => exact h.silently hon hcons (hstep.silently fun _ he => by cases he)
  | swallow target => exact h.silently hon hcons (hstep.silently fun _ he => by cases he)
  | commit e =>
    have hc := hstep.commits
    refine ⟨hcons, fun r hr => h.requests r (hc.requests r hr), fun x hx snapshot n hread => ?_,
      fun f hf hp hready => ?_⟩
    · rcases hc.handlers x hx with hx | hx
      · exact h.handlers x hx snapshot n hread
      · rw [hx] at hread
        cases hread
    · obtain ⟨hsource, -, -, hdb, hlog, -, -⟩ := hc
      rw [hdb] at hf
      obtain ⟨what, readAt, committedAt⟩ := e
      cases hsource with
      | request hr hws =>
        obtain ⟨hscanned, hconf⟩ := h.request hr hws hcond hf hp hready
        exact hscanned.later hlog hconf fun hquar => hquar
      | outcome hx ho => exact h.outcome rfl hx ho hcond hlog hf hp hready
      | failure hx ho => exact h.failure rfl ho hlog hf hp hready

end Invariant

/-! ### Runs -/

/-- Nothing in flight, and no file of the project ready. -/
structure Unready (p : String) (w : World) : Prop where
  good : w.db.Good
  files : ∀ f ∈ w.db .files, File.projectId f = p → f.status ≠ .ready
  requests : w.requests = []
  handlers : w.handlers = []

theorem Unready.gated {p : String} {w : World} (h : Unready p w) : Gated p w :=
  ⟨⟨h.good, by simp [h.requests], by simp [h.handlers]⟩, by simp [h.requests],
    by simp [h.handlers], fun f hf hp hready => absurd hready (h.files f hf hp)⟩

/-- **No file becomes ready unscanned.**  In every run of a project that scans throughout, if
the commits meet the condition, every ready file of the project has passed a scan in a run
that started after its last confirmation and its last quarantine. -/
theorem ready_scanned {p : String} {w₀ w : World} (hstart : Unready p w₀)
    (h : Run (fun w l => ScanOn p w.db ∧ ScanGated p w l) w₀ w) :
    ∀ f ∈ w.db .files, File.projectId f = p → f.status = .ready → Scanned w f.id := by
  have hgated : Gated p w := by
    induction h with
    | refl => exact hstart.gated
    | tail _ hs ih =>
      obtain ⟨l, hs, hon, hcond⟩ := hs
      exact ih.step hon hs hcond
  exact hgated.ready

theorem scanOn_scannedDb : ScanOn "p0" scannedDb := by
  unfold ScanOn
  decide

theorem unready_scannedWorld : Unready "p0" scannedWorld where
  good := (reached_runAll .empty scannedUpload).good
  files := by decide
  requests := rfl
  handlers := rfl

/-- A file that a run has made ready. -/
theorem ready_scanned_settled :
    (∃ f ∈ settledWorld.db .files, File.status f = .ready)
      ∧ ∀ f ∈ settledWorld.db .files, File.projectId f = "p0" → f.status = .ready →
        Scanned settledWorld f.id := by
  refine ⟨by decide, ?_⟩
  have hrun := run_settledWorld (fun w l => ScanOn "p0" w.db ∧ ScanGated "p0" w l)
    (fun w hw => ⟨hw ▸ scanOn_scannedDb, trivial⟩)
    fun w hw hlog => ⟨hw ▸ scanOn_scannedDb, fun _ e he => by simp [hlog] at he⟩
  exact ready_scanned unready_scannedWorld hrun

/-- A version of a file that was never scanned is restored, and the file is ready. -/
theorem ready_unscanned :
    ¬∀ (p : String) (w₀ w : World), Unready p w₀ → Run (fun w _ => ScanOn p w.db) w₀ w →
      ∀ f ∈ w.db .files, File.projectId f = p → f.status = .ready → Scanned w f.id := by
  intro h
  have hread : Run (fun w _ => ScanOn "p0" w.db) scannedWorld _ := Run.step .refl
    (.read ⟨orgContext "acme", devEnv "r" 5, "p0", .restoreVersion "f0" "u0"⟩) scanOn_scannedDb
  have hcommit := hread.step (.commit [] [] rfl rfl rfl (by decide))
    scanOn_scannedDb
  obtain ⟨e, he, hpass, -⟩ := h "p0" _ _ unready_scannedWorld hcommit
    { scannedFile with status := .ready, versionCount := 2, updatedAt := 5 } (by decide) rfl rfl
  obtain rfl := List.mem_singleton.mp he
  exact hpass

end Processing

end FileNest
