import FileNest.Lib.Lease
import FileNest.Storage.Buckets

/-!
# What a project comes with

A project is created with its configuration and its storage configuration, in one transaction, and
the rows of the three tables stay together from then on.  The mode and the provider of its storage,
which the project repeats, stay those of the storage configuration.

## Main definitions

* `Provisioned` — the three tables list the same projects.

## Main results

* `Provisioned.commit` — every operation keeps the tables together.
* `provisioned` — **every project has one configuration and one storage configuration.**
-/

namespace FileNest

open RowStore ReadCommitted

/-- What a project tells of itself: organisation, id, and the mode and provider of its storage. -/
def Project.provision (p : Project) : String × String × String × String :=
  (p.organizationId, p.id, p.storageMode, p.storageProvider)

/-- What a storage configuration tells of its project. -/
def StorageConfig.provision (s : StorageConfig) : String × String × String × String :=
  (s.organizationId, s.projectId, s.storageMode, s.provider)

/-- The three tables list the same projects, in the same order. -/
structure Provisioned (db : Database) : Prop where
  configs : (db .projectConfigs).map (fun (c : ProjectConfig) => (c.organizationId, c.projectId))
    = (db .projects).map fun (p : Project) => (p.organizationId, p.id)
  storage : (db .storageConfigs).map StorageConfig.provision
    = (db .projects).map Project.provision
  production : ∀ s ∈ db .storageConfigs, StorageConfig.environment s = "production"

section Writes

variable {db : Database} {t : Table} {i : String}

/-- An update keeps what its patch keeps. -/
theorem map_apply_update {β : Type} (f : Patch Table.Row t) (g : t.Row → β)
    (hg : ∀ r, g (f.toFun r) = g r) :
    ((Write.update t i f : DbWrite).apply db t).map g = (db t).map g := by
  rw [apply_update_self, List.map_map]
  refine List.map_congr_left fun r _ => ?_
  simp only [Function.comp]
  split
  · exact hg r
  · rfl

theorem Provisioned.of_tables (h : Provisioned db) {ws : List DbWrite}
    (hws : ∀ w ∈ ws, w.table ≠ .projects ∧ w.table ≠ .projectConfigs ∧ w.table ≠ .storageConfigs) :
    Provisioned (applyAll ws db) where
  configs := by
    rw [applyAll_of_table_ne fun w hw => (hws w hw).1, applyAll_of_table_ne fun w hw =>
      (hws w hw).2.1]
    exact h.configs
  storage := by
    rw [applyAll_of_table_ne fun w hw => (hws w hw).1, applyAll_of_table_ne fun w hw =>
      (hws w hw).2.2]
    exact h.storage
  production := by
    rw [applyAll_of_table_ne fun w hw => (hws w hw).2.2]
    exact h.production

/-- The update of a project. -/
theorem Provisioned.saveProject (h : Provisioned db) (loaded new : Project) :
    Provisioned ((loaded.save new).apply db) := by
  have hprojects {β : Type} (g : Project → β)
      (hg : ∀ p : Project, g ((loaded.flush new).toFun p) = g p) :
      ((loaded.save new).apply db .projects).map g = (db .projects).map g :=
    map_apply_update (loaded.flush new) g hg
  have hconfigs : (loaded.save new).apply db .projectConfigs = db .projectConfigs :=
    apply_of_table_ne (by simp [Project.save]) db
  have hstorage : (loaded.save new).apply db .storageConfigs = db .storageConfigs :=
    apply_of_table_ne (by simp [Project.save]) db
  refine ⟨?_, ?_, ?_⟩
  · rw [hconfigs, hprojects _ fun _ => rfl]
    exact h.configs
  · rw [hstorage, hprojects _ fun _ => rfl]
    exact h.storage
  · rw [hstorage]
    exact h.production

/-- The update of a configuration. -/
theorem Provisioned.saveConfig (h : Provisioned db) (loaded new : ProjectConfig) :
    Provisioned ((loaded.save new).apply db) := by
  have hconfigs : ((loaded.save new).apply db .projectConfigs).map
      (fun (c : ProjectConfig) => (c.organizationId, c.projectId)) = _ :=
    map_apply_update (loaded.flush new) _ fun _ => rfl
  have hprojects : (loaded.save new).apply db .projects = db .projects :=
    apply_of_table_ne (by simp [ProjectConfig.save]) db
  have hstorage : (loaded.save new).apply db .storageConfigs = db .storageConfigs :=
    apply_of_table_ne (by simp [ProjectConfig.save]) db
  refine ⟨?_, ?_, ?_⟩
  · rw [hconfigs, hprojects]
    exact h.configs
  · rw [hstorage, hprojects]
    exact h.storage
  · rw [hstorage]
    exact h.production

/-- The update of a storage configuration. -/
theorem Provisioned.saveStorage (h : Provisioned db) (loaded new : StorageConfig) (now : ℕ) :
    Provisioned ((loaded.save new now).apply db) := by
  have hstorage {β : Type} (g : StorageConfig → β)
      (hg : ∀ s : StorageConfig, g ((loaded.flush new now).toFun s) = g s) :
      ((loaded.save new now).apply db .storageConfigs).map g = (db .storageConfigs).map g :=
    map_apply_update (loaded.flush new now) g hg
  have hprojects : (loaded.save new now).apply db .projects = db .projects :=
    apply_of_table_ne (by simp [StorageConfig.save]) db
  have hconfigs : (loaded.save new now).apply db .projectConfigs = db .projectConfigs :=
    apply_of_table_ne (by simp [StorageConfig.save]) db
  refine ⟨?_, ?_, fun s hs => ?_⟩
  · rw [hconfigs, hprojects]
    exact h.configs
  · rw [hstorage _ fun _ => rfl, hprojects]
    exact h.storage
  · have hmem := List.mem_map_of_mem (f := StorageConfig.environment) hs
    rw [hstorage _ fun _ => rfl] at hmem
    obtain ⟨r, hr, henv⟩ := List.mem_map.mp hmem
    exact henv.symm.trans (h.production r hr)

/-- A new project comes with both. -/
theorem Provisioned.create (h : Provisioned db) {record : Project} {storage : StorageConfig}
    {config : ProjectConfig}
    (hconfig : (config.organizationId, config.projectId) = (record.organizationId, record.id))
    (hstorage : storage.provision = record.provision) (henv : storage.environment = "production") :
    Provisioned (applyAll [.insert .projects record, .insert .storageConfigs storage,
      .insert .projectConfigs config] db) := by
  have hprojects : applyAll [.insert .projects record, .insert .storageConfigs storage,
      .insert .projectConfigs config] db .projects = db .projects ++ [record] := rfl
  have hconfigs : applyAll [.insert .projects record, .insert .storageConfigs storage,
      .insert .projectConfigs config] db .projectConfigs = db .projectConfigs ++ [config] := rfl
  have hstorages : applyAll [.insert .projects record, .insert .storageConfigs storage,
      .insert .projectConfigs config] db .storageConfigs = db .storageConfigs ++ [storage] := rfl
  refine ⟨?_, ?_, ?_⟩
  · rw [hprojects, hconfigs, List.map_append, List.map_append, h.configs]
    exact congrArg (fun k => _ ++ [k]) hconfig
  · rw [hprojects, hstorages, List.map_append, List.map_append, h.storage]
    exact congrArg (fun k => _ ++ [k]) hstorage
  · rw [hstorages]
    intro s hs
    rcases List.mem_append.mp hs with hs | hs
    · exact h.production s hs
    · obtain rfl := List.mem_singleton.mp hs
      exact henv

end Writes

/-! ### The operations -/

/-- **Every operation keeps the tables together**, whatever it read. -/
theorem Provisioned.commit {db snapshot : Database} (hsnapshot : snapshot.Good)
    (h : Provisioned db) {c : ServiceCall} {r : Response} {ws : List DbWrite}
    (hr : c.result snapshot = .ok (r, ws)) : Provisioned (applyAll ws db) := by
  obtain ⟨ctx, env, projectId, op⟩ := c
  have hsound := Operation.sound hsnapshot hr
  have hother : (∀ t ∈ op.tables, t ≠ Table.projects ∧ t ≠ .projectConfigs ∧ t ≠ .storageConfigs) →
      Provisioned (applyAll ws db) := fun ht => h.of_tables fun w hw => ht _ (hsound.tables w hw)
  have hstorage : op.tables = [.storageConfigs] → Provisioned (applyAll ws db) := by
    intro htables
    cases Operation.storageEffect hsnapshot hr with
    | none hws =>
      refine h.of_tables fun w hw => absurd ?_ (hws w hw).1
      simpa [htables] using hsound.tables w hw
    | project => exact h.saveProject _ _
    | save hloaded hchange => exact h.saveStorage _ _ _
    | create hid hproject horg henv hbucket => cases htables
  have hconfig : ∀ {change : ProjectConfig → ProjectConfig},
      ProjectConfigService.updateWith ctx env snapshot projectId change = .ok (r, ws) →
        Provisioned (applyAll ws db) := by
    intro change hr
    simp only [ProjectConfigService.updateWith, bind_eq_ok, pure_eq_ok, Prod.mk.injEq] at hr
    obtain ⟨loaded, -, -, rfl⟩ := hr
    exact h.saveConfig loaded _
  cases op with
  | createProject req =>
    simp only [ServiceCall.result, Operation.run, ProjectService.createProject, bind_eq_ok,
      pure_eq_ok, Prod.mk.injEq] at hr
    obtain ⟨-, -, ⟨bucketName, status, lastVerifiedAt⟩, -, -, rfl⟩ := hr
    exact h.create rfl rfl rfl
  | updateProject req =>
    simp only [ServiceCall.result, Operation.run, ProjectService.updateProject, bind_eq_ok,
      pure_eq_ok, Prod.mk.injEq] at hr
    obtain ⟨loaded, -, -, rfl⟩ := hr
    exact h.saveProject loaded _
  | deleteProject =>
    simp only [ServiceCall.result, Operation.run, ProjectService.deleteProject, bind_eq_ok,
      pure_eq_ok, Prod.mk.injEq] at hr
    obtain ⟨loaded, -, -, rfl⟩ := hr
    exact h.saveProject loaded _
  | updateUploadConfig req => exact hconfig hr
  | updateSecurityConfig req => exact hconfig hr
  | updateProcessingConfig req => exact hconfig hr
  | updateComplianceConfig req => exact hconfig hr
  | updateStorageConfig req => exact hstorage rfl
  | verifyStorage => exact hstorage rfl
  | updateStorageSse sseEnabled => exact hstorage rfl
  | _ => exact hother (by simp [Operation.tables])

section Rows

variable {db : Database} {p : Project}

theorem Provisioned.projectIds_nodup (hdb : db.Good) (h : Provisioned db) :
    ((db .projectConfigs).map ProjectConfig.projectId).Nodup
      ∧ ((db .storageConfigs).map StorageConfig.projectId).Nodup := by
  have hids : ((db .projects).map Project.id).Nodup := hdb.uniquePk .projects
  have hconfigs : (db .projectConfigs).map ProjectConfig.projectId
      = (db .projects).map Project.id := by
    simpa [List.map_map, Function.comp_def] using congrArg (List.map Prod.snd) h.configs
  have hstorage : (db .storageConfigs).map StorageConfig.projectId
      = (db .projects).map Project.id := by
    simpa [List.map_map, Function.comp_def, StorageConfig.provision, Project.provision] using
      congrArg (List.map fun k => k.2.1) h.storage
  exact ⟨hconfigs ▸ hids, hstorage ▸ hids⟩

/-- The configuration of a project is found. -/
theorem Provisioned.config (hdb : db.Good) (h : Provisioned db) (hp : p ∈ db .projects) :
    ∃ c, (db .projectConfigs).filter (fun (c : ProjectConfig) => c.projectId = p.id) = [c] ∧
      ProjectConfigRepository.getForProject db p.id p.organizationId = .ok c := by
  have hmem := List.mem_map_of_mem (f := fun (p : Project) => (p.organizationId, p.id)) hp
  rw [← h.configs] at hmem
  obtain ⟨c, hc, hkey⟩ := List.mem_map.mp hmem
  obtain ⟨horg, hid⟩ := Prod.mk.inj hkey
  have hnodup := (h.projectIds_nodup hdb).1
  refine ⟨c, ?_, ?_⟩
  · refine Lease.filter_eq_singleton hnodup hc (decide_eq_true hid) fun x hx => ?_
    exact (of_decide_eq_true hx).trans hid.symm
  · unfold ProjectConfigRepository.getForProject
    rw [Lease.filter_eq_singleton hnodup hc]
    · rfl
    · simp [hid, horg]
    · intro x hx
      simp only [Bool.and_eq_true, beq_iff_eq] at hx
      exact hx.1.trans hid.symm

/-- So is its storage configuration. -/
theorem Provisioned.storageConfig (hdb : db.Good) (h : Provisioned db) (hp : p ∈ db .projects) :
    ∃ s, (db .storageConfigs).filter (fun (s : StorageConfig) => s.projectId = p.id) = [s] ∧
      StorageConfigRepository.getForProject db p.id p.organizationId = .ok s ∧
      p.storageMode = s.storageMode ∧ p.storageProvider = s.provider := by
  have hmem := List.mem_map_of_mem (f := Project.provision) hp
  rw [← h.storage] at hmem
  obtain ⟨s, hs, hkey⟩ := List.mem_map.mp hmem
  obtain ⟨horg, hid, hmode, hprovider⟩ : s.organizationId = p.organizationId ∧
      s.projectId = p.id ∧ s.storageMode = p.storageMode ∧ s.provider = p.storageProvider := by
    simpa [StorageConfig.provision, Project.provision] using hkey
  have hnodup := (h.projectIds_nodup hdb).2
  refine ⟨s, ?_, ?_, hmode.symm, hprovider.symm⟩
  · refine Lease.filter_eq_singleton hnodup hs (decide_eq_true hid) fun x hx => ?_
    exact (of_decide_eq_true hx).trans hid.symm
  · unfold StorageConfigRepository.getForProject
    rw [Lease.filter_eq_singleton hnodup hs]
    · rfl
    · simp [hid, horg, h.production s hs]
    · intro x hx
      simp only [Bool.and_eq_true, beq_iff_eq] at hx
      exact hx.1.1.trans hid.symm

end Rows

/-- **Every project has one configuration and one storage configuration**, in every database that
the operations reach, however they interleave: looking them up finds them, and the project repeats
the mode and the provider of its storage. -/
theorem provisioned {w : World Table.Row ServiceCall}
    (hw : Reachable ServiceCall.writes .always (· = Database.empty) w) {p : Project}
    (hp : p ∈ w.store .projects) :
    (∃ c, (w.store .projectConfigs).filter (fun (c : ProjectConfig) => c.projectId = p.id) = [c] ∧
      ProjectConfigRepository.getForProject w.store p.id p.organizationId = .ok c) ∧
    ∃ s, (w.store .storageConfigs).filter (fun (s : StorageConfig) => s.projectId = p.id) = [s] ∧
      StorageConfigRepository.getForProject w.store p.id p.organizationId = .ok s ∧
      p.storageMode = s.storageMode ∧ p.storageProvider = s.provider := by
  obtain ⟨hgood, hprovisioned⟩ := ServiceCall.invariant (P := Provisioned) (R := fun _ _ => True)
    ⟨rfl, rfl, fun s hs => by cases hs⟩ (fun _ => trivial)
    (fun db snapshot c r ws _ hsnapshot _ _ h hr _ _ =>
      ⟨h.commit hsnapshot hr, fun _ _ => trivial⟩) hw
  exact ⟨hprovisioned.config hgood hp, hprovisioned.storageConfig hgood hp⟩

/-- Two projects; the storage of one was updated. -/
theorem provisioned_two :
    let db := runAll (twoProjects ++ [bucketUpdate "fn-q0"]) Database.empty
    (db .projects).length = 2 ∧ ∀ p ∈ db .projects,
      (∃ c, (db .projectConfigs).filter (fun (c : ProjectConfig) => c.projectId = p.id) = [c] ∧
        ProjectConfigRepository.getForProject db p.id p.organizationId = .ok c) ∧
      ∃ s, (db .storageConfigs).filter (fun (s : StorageConfig) => s.projectId = p.id) = [s] ∧
        StorageConfigRepository.getForProject db p.id p.organizationId = .ok s ∧
        p.storageMode = s.storageMode ∧ p.storageProvider = s.provider := by
  have hrun := reachable_runAll .always (fun _ _ => trivial)
    (twoProjects ++ [bucketUpdate "fn-q0"]) (.init rfl)
  exact ⟨by decide, fun p hp => provisioned hrun hp⟩

end FileNest
