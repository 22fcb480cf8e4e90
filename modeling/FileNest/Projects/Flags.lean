import FileNest.Isolation
import FileNest.Lib.Trace

/-!
# The feature flags of a project

Versioning and text recognition are switched in two places: the row of the project, which is
what a client is shown, and its configuration, which is what a confirmed upload goes by.  Each
has an update of its own.

## Main definitions

* `Mirrors`, `FlagsMirrored` — both rows have the same flags.
* `ServiceCall.serve` — one call, committed or rolled back.
* `KeepsFlags` — what an update must say.

## Main results

* `FlagsMirrored.shown` — what is shown is what uploads go by.
* `flags_mirrored_iff` — **the flags mirror each other throughout a run exactly if every update
  gives them the values they have in the other row.**
-/

namespace FileNest

open RowStore ReadCommitted Trace

/-- The configuration has the flags of the project. -/
structure Mirrors (p : Project) (c : ProjectConfig) : Prop where
  versioning : c.versioningEnabled = p.versioningEnabled
  ocr : c.ocrEnabled = p.ocrEnabled

/-- Every configuration has the flags of its project. -/
def FlagsMirrored (db : Database) : Prop :=
  ∀ p ∈ (db .projects : List Project), ∀ c ∈ (db .projectConfigs : List ProjectConfig),
    c.projectId = p.id → Mirrors p c

/-- A call that runs alone, committed or rolled back. -/
def ServiceCall.serve (db : Database) (c : ServiceCall) : Database := (commit db (c.result db)).2

/-- Flags that are given are these. -/
structure Restates (versioningEnabled ocrEnabled : Option Bool) (versioning ocr : Bool) : Prop where
  versioning : ∀ b ∈ versioningEnabled, b = versioning
  ocr : ∀ b ∈ ocrEnabled, b = ocr

/-- What an update must say: what the other row says. -/
def KeepsFlags (db : Database) (c : ServiceCall) : Prop :=
  (∀ req, c.op = .updateProject req → ∀ p,
    ProjectRepository.get db c.projectId c.ctx.organizationId = .ok p →
      ∀ config ∈ (db .projectConfigs : List ProjectConfig), config.projectId = p.id →
        Restates req.versioningEnabled req.ocrEnabled config.versioningEnabled config.ocrEnabled) ∧
  ∀ req, c.op = .updateProcessingConfig req → ∀ config,
    ProjectConfigRepository.getForProject db c.projectId c.ctx.organizationId = .ok config →
      ∀ p ∈ (db .projects : List Project), config.projectId = p.id →
        Restates req.versioningEnabled req.ocrEnabled p.versioningEnabled p.ocrEnabled

/-! ### Saving one of the rows -/

section Save

variable {db : Database}

theorem getD_eq_iff {o : Option Bool} {a b : Bool} (h : b = a) :
    b = o.getD a ↔ ∀ x ∈ o, x = b := by
  cases o with
  | none => simp [h]
  | some x => simp [eq_comm]

/-- The project is saved with some flags. -/
theorem FlagsMirrored.saveProject_iff (hdb : db.Good) (h : FlagsMirrored db) {loaded : Project}
    (hloaded : loaded ∈ (db .projects : List Project)) (saved : Project)
    (versioning ocr : Option Bool)
    (hversioning : saved.versioningEnabled = versioning.getD loaded.versioningEnabled)
    (hocr : saved.ocrEnabled = ocr.getD loaded.ocrEnabled) :
    FlagsMirrored (applyAll [loaded.save saved] db) ↔
      ∀ config ∈ (db .projectConfigs : List ProjectConfig), config.projectId = loaded.id →
        Restates versioning ocr config.versioningEnabled config.ocrEnabled := by
  have hconfigs : applyAll [loaded.save saved] db .projectConfigs = db .projectConfigs :=
    applyAll_of_table_ne (by simp [Project.save]) db
  have hprojects : applyAll [loaded.save saved] db .projects = (db .projects).map
      fun (p : Project) => if p.id = loaded.id then (loaded.flush saved).toFun p else p := by
    rw [applyAll_cons, applyAll_nil, Project.save, apply_update_self]
    rfl
  have hflushed : ∀ config ∈ (db .projectConfigs : List ProjectConfig),
      config.projectId = loaded.id → (Mirrors ((loaded.flush saved).toFun loaded) config ↔
        Restates versioning ocr config.versioningEnabled config.ocrEnabled) := by
    intro config hconfig hid
    obtain ⟨hv, ho⟩ := h loaded hloaded config hconfig hid
    have hnew : Mirrors ((loaded.flush saved).toFun loaded) config ↔
        config.versioningEnabled = saved.versioningEnabled
          ∧ config.ocrEnabled = saved.ocrEnabled := by
      simp only [Project.flush]
      constructor
      · rintro ⟨h1, h2⟩
        exact ⟨by simpa using h1, by simpa using h2⟩
      · rintro ⟨h1, h2⟩
        exact ⟨by simpa using h1, by simpa using h2⟩
    rw [hnew, hversioning, hocr, getD_eq_iff hv, getD_eq_iff ho]
    exact ⟨fun ⟨h1, h2⟩ => ⟨h1, h2⟩, fun ⟨h1, h2⟩ => ⟨h1, h2⟩⟩
  unfold FlagsMirrored
  rw [hconfigs, hprojects]
  constructor
  · intro hmirrored config hconfig hid
    refine (hflushed config hconfig hid).mp (hmirrored _ ?_ config hconfig hid)
    refine List.mem_map.mpr ⟨loaded, hloaded, ?_⟩
    rw [if_pos rfl]
  · intro hrestates p' hp' config hconfig hid
    obtain ⟨p, hp, rfl⟩ := List.mem_map.mp hp'
    split at hid
    · rename_i heq
      obtain rfl : p = loaded := hdb.uniquePk.eq_of_pk (t := .projects) hp hloaded heq
      rw [if_pos rfl]
      exact (hflushed config hconfig hid).mpr (hrestates config hconfig hid)
    · rename_i hne
      rw [if_neg hne]
      exact h p hp config hconfig hid

/-- The configuration is saved with some flags. -/
theorem FlagsMirrored.saveConfig_iff (hdb : db.Good) (h : FlagsMirrored db)
    {loaded : ProjectConfig} (hloaded : loaded ∈ (db .projectConfigs : List ProjectConfig))
    (saved : ProjectConfig) (versioning ocr : Option Bool)
    (hversioning : saved.versioningEnabled = versioning.getD loaded.versioningEnabled)
    (hocr : saved.ocrEnabled = ocr.getD loaded.ocrEnabled) :
    FlagsMirrored (applyAll [loaded.save saved] db) ↔
      ∀ p ∈ (db .projects : List Project), loaded.projectId = p.id →
        Restates versioning ocr p.versioningEnabled p.ocrEnabled := by
  have hprojects : applyAll [loaded.save saved] db .projects = db .projects :=
    applyAll_of_table_ne (by simp [ProjectConfig.save]) db
  have hconfigs : applyAll [loaded.save saved] db .projectConfigs = (db .projectConfigs).map
      fun (c : ProjectConfig) => if c.id = loaded.id then (loaded.flush saved).toFun c else c := by
    rw [applyAll_cons, applyAll_nil, ProjectConfig.save, apply_update_self]
    rfl
  have hflushed : ∀ p ∈ (db .projects : List Project), loaded.projectId = p.id →
      (Mirrors p ((loaded.flush saved).toFun loaded) ↔
        Restates versioning ocr p.versioningEnabled p.ocrEnabled) := by
    intro p hp hid
    obtain ⟨hv, ho⟩ := h p hp loaded hloaded hid
    have hnew : Mirrors p ((loaded.flush saved).toFun loaded) ↔
        p.versioningEnabled = saved.versioningEnabled ∧ p.ocrEnabled = saved.ocrEnabled := by
      simp only [ProjectConfig.flush]
      constructor
      · rintro ⟨h1, h2⟩
        exact ⟨by simpa using h1.symm, by simpa using h2.symm⟩
      · rintro ⟨h1, h2⟩
        exact ⟨by simpa using h1.symm, by simpa using h2.symm⟩
    rw [hnew, hversioning, hocr, getD_eq_iff hv.symm, getD_eq_iff ho.symm]
    exact ⟨fun ⟨h1, h2⟩ => ⟨h1, h2⟩, fun ⟨h1, h2⟩ => ⟨h1, h2⟩⟩
  unfold FlagsMirrored
  rw [hconfigs, hprojects]
  constructor
  · intro hmirrored p hp hid
    refine (hflushed p hp hid).mp (hmirrored p hp _ ?_ hid)
    refine List.mem_map.mpr ⟨loaded, hloaded, ?_⟩
    rw [if_pos rfl]
  · intro hrestates p hp c' hc' hid
    obtain ⟨c, hc, rfl⟩ := List.mem_map.mp hc'
    split at hid
    · rename_i heq
      obtain rfl : c = loaded := hdb.uniquePk.eq_of_pk (t := .projectConfigs) hc hloaded heq
      rw [if_pos rfl]
      exact (hflushed p hp hid).mpr (hrestates p hp hid)
    · rename_i hne
      rw [if_neg hne]
      exact h p hp c hc hid

end Save

/-! ### One call -/

section OneCall

variable {db : Database} {c : ServiceCall} {r : Response} {ws : List DbWrite}

/-- Nothing is given. -/
theorem Restates.nothing (versioning ocr : Bool) : Restates none none versioning ocr where
  versioning b hb := by cases hb
  ocr b hb := by cases hb

/-- Neither table is written. -/
theorem FlagsMirrored.of_tables (h : FlagsMirrored db)
    (hprojects : ∀ w ∈ ws, w.table ≠ .projects) (hconfigs : ∀ w ∈ ws, w.table ≠ .projectConfigs) :
    FlagsMirrored (applyAll ws db) := by
  unfold FlagsMirrored
  rw [applyAll_of_table_ne hprojects, applyAll_of_table_ne hconfigs]
  exact h

/-- A configuration update that leaves the flags alone. -/
theorem FlagsMirrored.updateWith (hdb : db.Good) (h : FlagsMirrored db) {ctx : TenantContext}
    {env : Env} {projectId : String} {change : ProjectConfig → ProjectConfig}
    (hr : ProjectConfigService.updateWith ctx env db projectId change = .ok (r, ws))
    (hversioning : ∀ c, (change c).versioningEnabled = c.versioningEnabled)
    (hocr : ∀ c, (change c).ocrEnabled = c.ocrEnabled) : FlagsMirrored (applyAll ws db) := by
  simp only [ProjectConfigService.updateWith, bind_eq_ok, pure_eq_ok, Prod.mk.injEq] at hr
  obtain ⟨loaded, hloaded, -, rfl⟩ := hr
  exact (h.saveConfig_iff hdb (ProjectConfigRepository.of_getForProject hloaded).1
    { change loaded with updatedAt := env.now } none none (hversioning loaded) (hocr loaded)).mpr
    fun p _ _ => .nothing _ _

/-- A new project and its configuration have the defaults. -/
theorem FlagsMirrored.createProject (hdb : db.Good) (h : FlagsMirrored db) {ctx : TenantContext}
    {env : Env} {req : CreateProjectRequest}
    (hr : ProjectService.createProject ctx env db req = .ok (r, ws)) (hadm : Admissible ws db) :
    FlagsMirrored (applyAll ws db) := by
  simp only [ProjectService.createProject, bind_eq_ok, pure_eq_ok, Prod.mk.injEq] at hr
  obtain ⟨-, -, ⟨bucketName, status, lastVerifiedAt⟩, -, -, rfl⟩ := hr
  have hfresh : ∀ p ∈ (db .projects : List Project), p.id ≠ env.uuid4 0 := hadm.1
  unfold FlagsMirrored
  simp only [applyAll_cons, applyAll_nil]
  rw [apply_of_table_ne (by simp), apply_of_table_ne (by simp), apply_insert_self,
    apply_insert_self, apply_of_table_ne (by simp), apply_of_table_ne (by simp)]
  intro p hp config hconfig hid
  obtain hp | hp := List.mem_append.mp hp <;> obtain hconfig | hconfig := List.mem_append.mp hconfig
  · exact h p hp config hconfig hid
  · obtain rfl := List.mem_singleton.mp hconfig
    exact absurd hid.symm (hfresh p hp)
  · -- the configuration names a project on record
    obtain rfl := List.mem_singleton.mp hp
    obtain ⟨p, hp, hpid, -⟩ := exists_of_mem_keys (hdb.project_of_config hconfig)
    exact absurd (hpid.trans hid) (hfresh p hp)
  · obtain rfl := List.mem_singleton.mp hp
    obtain rfl := List.mem_singleton.mp hconfig
    exact ⟨rfl, rfl⟩

/-- What is committed keeps the database good. -/
theorem Database.Good.commitResult (hdb : db.Good) {x : ServiceResult}
    (hx : ∀ r ws, x = .ok (r, ws) → Resolved refs ws db) : Database.Good (commit db x).2 := by
  rcases x with e | ⟨r, ws⟩
  · exact hdb
  · simp only [commit]
    split
    · rename_i hadm
      exact (hdb.commit (.refl db) (hx r ws rfl) hadm).1
    · exact hdb

theorem Database.Good.serve (hdb : db.Good) (c : ServiceCall) : (c.serve db).Good :=
  hdb.commitResult fun r _ hr => c.resolved hdb (ServiceResult.writes_eq_some.mpr ⟨r, hr⟩)

/-- The other operations leave the flags alone. -/
theorem FlagsMirrored.of_other (hdb : db.Good) (h : FlagsMirrored db)
    (hproject : ∀ req, c.op ≠ .updateProject req)
    (hprocessing : ∀ req, c.op ≠ .updateProcessingConfig req) (hr : c.result db = .ok (r, ws))
    (hadm : Admissible ws db) : FlagsMirrored (applyAll ws db) := by
  obtain ⟨ctx, env, projectId, op⟩ := c
  have htables : ∀ w ∈ ws, w.table ∈ op.tables := (Operation.sound hdb hr).tables
  have hother : Table.projects ∉ op.tables → Table.projectConfigs ∉ op.tables →
      FlagsMirrored (applyAll ws db) := by
    intro hp hc
    exact h.of_tables (fun w hw heq => hp (heq ▸ htables w hw))
      fun w hw heq => hc (heq ▸ htables w hw)
  cases op with
  | updateProject req => exact absurd rfl (hproject req)
  | updateProcessingConfig req => exact absurd rfl (hprocessing req)
  | createProject req => exact h.createProject hdb hr hadm
  | deleteProject =>
    simp only [ServiceCall.result, Operation.run, ProjectService.deleteProject, bind_eq_ok,
      pure_eq_ok, Prod.mk.injEq] at hr
    obtain ⟨loaded, hloaded, -, rfl⟩ := hr
    exact (h.saveProject_iff hdb (ProjectRepository.of_get hloaded).1
      (ProjectRepository.softDelete loaded env.now) none none rfl rfl).mpr
      fun config _ _ => .nothing _ _
  | updateUploadConfig req => exact h.updateWith hdb hr (fun _ => rfl) fun _ => rfl
  | updateSecurityConfig req => exact h.updateWith hdb hr (fun _ => rfl) fun _ => rfl
  | updateComplianceConfig req => exact h.updateWith hdb hr (fun _ => rfl) fun _ => rfl
  | _ => exact hother (by simp [Operation.tables]) (by simp [Operation.tables])

theorem FlagsMirrored.updateProject_iff (hdb : db.Good) (h : FlagsMirrored db)
    (ctx : TenantContext) (env : Env) (projectId : String) (req : UpdateProjectRequest) :
    FlagsMirrored (ServiceCall.serve db ⟨ctx, env, projectId, .updateProject req⟩)
      ↔ KeepsFlags db ⟨ctx, env, projectId, .updateProject req⟩ := by
  have hkeeps : KeepsFlags db ⟨ctx, env, projectId, .updateProject req⟩ ↔
      ∀ p, ProjectRepository.get db projectId ctx.organizationId = .ok p →
        ∀ config ∈ (db .projectConfigs : List ProjectConfig), config.projectId = p.id →
          Restates req.versioningEnabled req.ocrEnabled config.versioningEnabled
            config.ocrEnabled := by
    refine ⟨fun hk => hk.1 req rfl, fun hk => ⟨?_, fun _ hop => by cases hop⟩⟩
    rintro _ ⟨⟩
    exact hk
  rw [hkeeps]
  unfold ServiceCall.serve
  simp only [ServiceCall.result, Operation.run, ProjectService.updateProject]
  cases hget : ProjectRepository.get db projectId ctx.organizationId with
  | error e => exact iff_of_true h fun p hp => by cases hp
  | ok p =>
    refine (h.saveProject_iff hdb (ProjectRepository.of_get hget).1 _ req.versioningEnabled
      req.ocrEnabled rfl rfl).trans ⟨fun hk q hq => ?_, fun hk => hk p rfl⟩
    obtain rfl : p = q := Except.ok.inj hq
    exact hk

theorem FlagsMirrored.updateProcessingConfig_iff (hdb : db.Good) (h : FlagsMirrored db)
    (ctx : TenantContext) (env : Env) (projectId : String) (req : UpdateProcessingConfigRequest) :
    FlagsMirrored (ServiceCall.serve db ⟨ctx, env, projectId, .updateProcessingConfig req⟩)
      ↔ KeepsFlags db ⟨ctx, env, projectId, .updateProcessingConfig req⟩ := by
  have hkeeps : KeepsFlags db ⟨ctx, env, projectId, .updateProcessingConfig req⟩ ↔
      ∀ config, ProjectConfigRepository.getForProject db projectId ctx.organizationId
          = .ok config → ∀ p ∈ (db .projects : List Project), config.projectId = p.id →
        Restates req.versioningEnabled req.ocrEnabled p.versioningEnabled p.ocrEnabled := by
    refine ⟨fun hk => hk.2 req rfl, fun hk => ⟨fun _ hop => (by cases hop), ?_⟩⟩
    rintro _ ⟨⟩
    exact hk
  rw [hkeeps]
  unfold ServiceCall.serve
  simp only [ServiceCall.result, Operation.run, ProjectConfigService.updateProcessingConfig,
    ProjectConfigService.updateWith]
  cases hget : ProjectConfigRepository.getForProject db projectId ctx.organizationId with
  | error e => exact iff_of_true h fun config hconfig => by cases hconfig
  | ok config =>
    refine (h.saveConfig_iff hdb (ProjectConfigRepository.of_getForProject hget).1 _
      req.versioningEnabled req.ocrEnabled rfl rfl).trans ⟨fun hk q hq => ?_, fun hk => ?_⟩
    · obtain rfl : config = q := Except.ok.inj hq
      exact hk
    · exact hk config rfl

/-- **A call keeps the flags mirrored exactly if it says what the other row says.** -/
theorem FlagsMirrored.serve_iff (hdb : db.Good) (h : FlagsMirrored db) (c : ServiceCall) :
    FlagsMirrored (c.serve db) ↔ KeepsFlags db c := by
  by_cases hproject : ∃ req, c.op = .updateProject req
  · obtain ⟨ctx, env, projectId, op⟩ := c
    obtain ⟨req, rfl⟩ : ∃ req, op = .updateProject req := hproject
    exact h.updateProject_iff hdb ctx env projectId req
  by_cases hprocessing : ∃ req, c.op = .updateProcessingConfig req
  · obtain ⟨ctx, env, projectId, op⟩ := c
    obtain ⟨req, rfl⟩ : ∃ req, op = .updateProcessingConfig req := hprocessing
    exact h.updateProcessingConfig_iff hdb ctx env projectId req
  refine iff_of_true ?_ ⟨fun req hop => absurd ⟨req, hop⟩ hproject,
    fun req hop => absurd ⟨req, hop⟩ hprocessing⟩
  unfold ServiceCall.serve
  rcases hr : c.result db with e | ⟨r, ws⟩
  · exact h
  · simp only [commit]
    split
    · rename_i hadm
      exact h.of_other hdb (fun req hop => hproject ⟨req, hop⟩)
        (fun req hop => hprocessing ⟨req, hop⟩) hr hadm
    · exact h

/-- What a client is shown is what a confirmed upload goes by. -/
theorem FlagsMirrored.shown (h : FlagsMirrored db) {ctx : TenantContext} {projectId : String}
    {p : Project} (hp : ProjectRepository.get db projectId ctx.organizationId = .ok p)
    {config : ProjectConfig}
    (hconfig : ProjectConfigRepository.getForProject db projectId ctx.organizationId
      = .ok config) :
    (ProjectResponse.ofRecord p).versioningEnabled = config.versioningEnabled ∧
      (ProjectResponse.ofRecord p).ocrEnabled = config.ocrEnabled := by
  obtain ⟨hmem, rfl, -⟩ := ProjectRepository.of_get hp
  obtain ⟨hcmem, hid, -⟩ := ProjectConfigRepository.of_getForProject hconfig
  obtain ⟨hv, ho⟩ := h p hmem config hcmem hid
  exact ⟨hv.symm, ho.symm⟩

/-! ### Runs -/

/-- **The flags mirror each other throughout a run exactly if every update gives them the values
they have in the other row.** -/
theorem flags_mirrored_iff (calls : List ServiceCall) :
    Throughout ServiceCall.serve FlagsMirrored Database.empty calls
      ↔ EachStep ServiceCall.serve KeepsFlags Database.empty calls :=
  throughout_iff_eachStep (fun _ c hdb => hdb.serve c) (fun _ c hdb h => h.serve_iff hdb c)
    Database.good_empty fun p hp => by cases hp

end OneCall

/-- A project is created, and a user switches versioning on. -/
def versioningOn : List ServiceCall :=
  [⟨orgContext "acme", devEnv "p" 1, "", .createProject devProject⟩,
    ⟨orgContext "acme", devEnv "q" 2, "p0", .updateProject { versioningEnabled := some true }⟩]

/-- Only the project says so. -/
theorem versioning_shown_only :
    (∃ p ∈ (versioningOn.foldl ServiceCall.serve Database.empty .projects : List Project),
      ∃ config ∈ (versioningOn.foldl ServiceCall.serve Database.empty .projectConfigs :
        List ProjectConfig), config.projectId = p.id ∧ p.versioningEnabled = true ∧
          config.versioningEnabled = false) ∧
      ¬Throughout ServiceCall.serve FlagsMirrored Database.empty versioningOn := by
  have hshown : ∃ p ∈ (versioningOn.foldl ServiceCall.serve Database.empty .projects :
      List Project),
      ∃ config ∈ (versioningOn.foldl ServiceCall.serve Database.empty .projectConfigs :
        List ProjectConfig), config.projectId = p.id ∧ p.versioningEnabled = true ∧
          config.versioningEnabled = false := by decide
  refine ⟨hshown, fun h => ?_⟩
  obtain ⟨p, hp, config, hconfig, hid, hon, hoff⟩ := hshown
  have hsame := (h.last p hp config hconfig hid).versioning
  rw [hon, hoff] at hsame
  cases hsame

end FileNest
