import FileNest.Routers
import FileNest.Lib.ReadCommitted

/-!
# What the queries find

Two facts for each query.  A row it returns is in the table and within the tenant
scope of the query; and it only looks at rows of its organisation, so databases that
agree on those give the same answer.

## Main definitions

* `orgRegion`, `tenantRegion` — the rows of an organisation, or of one of its projects.
* `refs` — which rows name which.

## Main results

* `FileRepository.of_get`, … — what a returned row is.
* `FileRepository.get_agree`, … — **queries are local to their organisation.**
-/

namespace FileNest

open RowStore ReadCommitted

/-- The rows of an organisation. -/
def orgRegion (organizationId : String) : Region Table Owner := fun _ o =>
  o.organizationId == organizationId

/-- The rows of some tables in one project of an organisation. -/
def tenantRegion (organizationId projectId : String) (tables : List Table) :
    Region Table Owner := fun t o =>
  decide (t ∈ tables) && o.organizationId == organizationId && o.projectId == projectId

@[simp] theorem orgRegion_iff {organizationId : String} {t : Table} {o : Owner} :
    orgRegion organizationId t o = true ↔ o.organizationId = organizationId := by
  simp [orgRegion]

@[simp] theorem tenantRegion_iff {organizationId projectId : String} {tables : List Table}
    {t : Table} {o : Owner} : tenantRegion organizationId projectId tables t o = true ↔
      t ∈ tables ∧ o.organizationId = organizationId ∧ o.projectId = projectId := by
  simp [tenantRegion, and_assoc]

/-- Configurations, storage and files name their project; versions and upload sessions
name their file. -/
def refs : References Table String Owner
  | .projectConfigs, o | .storageConfigs, o | .files, o =>
      some (.projects, o.projectId, ⟨o.organizationId, o.projectId, ""⟩)
  | .fileVersions, o | .uploadSessions, o =>
      some (.files, o.parentId, ⟨o.organizationId, o.projectId, ""⟩)
  | _, _ => none

/-- A database whose keys are unique and whose rows name rows on record. -/
abbrev Database.Good (db : Database) : Prop := ReadCommitted.Good refs db

/-- A file on record keeps its owner. -/
theorem file_owner_eq {snapshot db : Database} (hkeeps : KeepsReferenced refs snapshot db)
    (hunique : db.UniquePk) {record f : File} (hrecord : record ∈ snapshot .files)
    (hf : f ∈ db .files) (hid : f.id = record.id) :
    f.organizationId = record.organizationId ∧ f.projectId = record.projectId := by
  have hmem := mem_keys_of_mem (s := snapshot) (t := Table.files) hrecord
  have hkey := hkeeps .fileVersions ⟨record.organizationId, record.projectId, record.id⟩ _ rfl hmem
  obtain ⟨g, hg, hpk, howner⟩ := exists_of_mem_keys (s := db) (t := Table.files) hkey
  obtain rfl : f = g := hunique.eq_of_pk (t := .files) hf hg (hid.trans hpk.symm)
  simp only [owner_eq_rowOwner, rowOwner, Owner.mk.injEq] at howner
  exact ⟨howner.1, howner.2.1⟩

/-! ### Rows that are found -/

theorem ProjectConfigRepository.of_getForProject {db : Database} {p o : String}
    {r : ProjectConfig} (h : getForProject db p o = .ok r) :
    r ∈ db .projectConfigs ∧ r.projectId = p ∧ r.organizationId = o := by
  have := mem_of_oneOr h
  simpa using List.mem_filter.mp this

theorem StorageConfigRepository.of_getForProject {db : Database} {p o : String}
    {r : StorageConfig} (h : getForProject db p o = .ok r) :
    r ∈ db .storageConfigs ∧ r.projectId = p ∧ r.organizationId = o := by
  have := List.mem_filter.mp (mem_of_oneOr h)
  simp only [Bool.and_eq_true, beq_iff_eq] at this
  exact ⟨this.1, this.2.1⟩

theorem FileRepository.of_get {db : Database} {f o p : String} {r : File}
    (h : get db f o p = .ok r) :
    r ∈ db .files ∧ r.id = f ∧ r.organizationId = o ∧ r.projectId = p ∧ r.deletedAt = none := by
  have := List.mem_filter.mp (mem_of_oneOr h)
  simpa [and_assoc] using this

theorem FileVersionRepository.of_get {db : Database} {v f o : String} {r : FileVersion}
    (h : get db v f o = .ok r) :
    r ∈ db .fileVersions ∧ r.id = v ∧ r.fileId = f ∧ r.organizationId = o := by
  have := List.mem_filter.mp (mem_of_oneOr h)
  simpa [and_assoc] using this

theorem UploadSessionRepository.of_get {db : Database} {s o : String} {r : UploadSession}
    (h : get db s o = .ok r) : r ∈ db .uploadSessions ∧ r.id = s ∧ r.organizationId = o := by
  have := List.mem_filter.mp (mem_of_oneOr h)
  simpa [and_assoc] using this

theorem FolderRepository.of_get {db : Database} {f o p : String} {r : Folder}
    (h : get db f o p = .ok r) :
    r ∈ db .folders ∧ r.id = f ∧ r.organizationId = o ∧ r.projectId = p ∧ r.deletedAt = none := by
  have := List.mem_filter.mp (mem_of_oneOr h)
  simpa [and_assoc] using this

theorem WebhookRepository.of_get {db : Database} {w o p : String} {r : Webhook}
    (h : get db w o p = .ok r) :
    r ∈ db .webhooks ∧ r.id = w ∧ r.organizationId = o ∧ r.projectId = p := by
  have := List.mem_filter.mp (mem_of_oneOr h)
  simpa [and_assoc] using this

theorem ProjectRepository.of_get {db : Database} {p o : String} {r : Project}
    (h : get db p o = .ok r) : r ∈ db .projects ∧ r.id = p ∧ r.organizationId = o := by
  have := List.mem_filter.mp (mem_of_oneOr h)
  simp only [Bool.and_eq_true, beq_iff_eq] at this
  exact ⟨this.1, this.2.1⟩

/-! ### References, row by row -/

namespace Database.Good

variable {db : Database} (hdb : db.Good)
include hdb

/-- The file of an upload session is in the session's organisation and project. -/
theorem session_file {s : UploadSession} (hs : s ∈ db .uploadSessions) {f : File}
    (hf : f ∈ db .files) (hid : f.id = s.fileId) :
    f.organizationId = s.organizationId ∧ f.projectId = s.projectId := by
  obtain ⟨f', hf', hid', ho'⟩ := exists_of_mem_keys (hdb.referential .uploadSessions s hs _ rfl)
  have : f' = f := hdb.uniquePk.eq_of_pk hf' hf (hid'.trans hid.symm)
  subst this
  simpa using ho'

/-- A file's project exists, in the file's organisation. -/
theorem file_project {f : File} (hf : f ∈ db .files) :
    ∃ p ∈ db .projects, (p : Project).id = f.projectId ∧ p.organizationId = f.organizationId := by
  obtain ⟨p, hp, hid, ho⟩ := exists_of_mem_keys (hdb.referential .files f hf _ rfl)
  refine ⟨p, hp, hid, ?_⟩
  simpa using congrArg Owner.organizationId ho

/-- The project a file names has the file's organisation. -/
theorem organizationId_of_project {f : File} (hf : f ∈ db .files) {p : Project}
    (hp : p ∈ db .projects) (hid : f.projectId = p.id) :
    f.organizationId = p.organizationId := by
  obtain ⟨p', hp', hid', ho'⟩ := hdb.file_project hf
  have : p' = p := hdb.uniquePk.eq_of_pk hp' hp (hid'.trans hid)
  rw [← ho', this]

/-- A configured project is on record. -/
theorem project_of_config {c : ProjectConfig} (hc : c ∈ db .projectConfigs) :
    (c.projectId, ⟨c.organizationId, c.projectId, ""⟩) ∈ Store.keys db .projects :=
  hdb.referential .projectConfigs c hc _ rfl

end Database.Good

/-! ### Queries are local to their organisation -/

section Agree

variable {db db' : Database} {o : String} (h : Agree (orgRegion o) db db')
include h

theorem ProjectConfigRepository.getForProject_agree (p : String) :
    getForProject db p o = getForProject db' p o := by
  simp only [getForProject]
  rw [filter_of_agree h (t := .projectConfigs) fun r hr => by simp_all]

theorem StorageConfigRepository.getForProject_agree (p : String) :
    getForProject db p o = getForProject db' p o := by
  simp only [getForProject]
  rw [filter_of_agree h (t := .storageConfigs) fun r hr => by simp_all]

theorem FileRepository.get_agree (f p : String) : get db f o p = get db' f o p := by
  simp only [get]
  rw [filter_of_agree h (t := .files) fun r hr => by simp_all]

theorem FileRepository.matching_agree (p : String) (f : Filters) :
    matching db o p f = matching db' o p f := by
  simp only [matching]
  rw [filter_of_agree h (t := .files) fun r hr => by simp_all]

theorem FileRepository.count_agree (p : String) (f : Filters) :
    count db o p f = count db' o p f := by
  simp only [count, matching_agree h]

theorem FileRepository.list_agree (p : String) (f : Filters) (limit offset : ℕ)
    (cursor : Option String) :
    list db o p f limit offset cursor = list db' o p f limit offset cursor := by
  simp only [list, matching_agree h]

theorem FileRepository.countInFlight_agree (p : String) :
    countInFlight db o p = countInFlight db' o p := by
  simp only [countInFlight]
  rw [filter_of_agree h (t := .files) fun r hr => by simp_all]

theorem FileVersionRepository.list_agree (f p : String) : list db f o p = list db' f o p := by
  simp only [list]
  rw [filter_of_agree h (t := .fileVersions) fun r hr => by simp_all]

theorem FileVersionRepository.get_agree (v f : String) : get db v f o = get db' v f o := by
  simp only [get]
  rw [filter_of_agree h (t := .fileVersions) fun r hr => by simp_all]

theorem UploadSessionRepository.get_agree (s : String) : get db s o = get db' s o := by
  simp only [get]
  rw [filter_of_agree h (t := .uploadSessions) fun r hr => by simp_all]

theorem FolderRepository.get_agree (f p : String) : get db f o p = get db' f o p := by
  simp only [get]
  rw [filter_of_agree h (t := .folders) fun r hr => by simp_all]

theorem FolderRepository.list_agree (p : String) (name : Option String) :
    list db o p name = list db' o p name := by
  simp only [list]
  rw [filter_of_agree h (t := .folders) fun r hr => by simp_all]

theorem FolderRepository.getByPath_agree (path p : String) :
    getByPath db path o p = getByPath db' path o p := by
  simp only [getByPath]
  rw [filter_of_agree h (t := .folders) fun r hr => by simp_all]

theorem FolderRepository.hasSubfolders_agree (f p : String) :
    hasSubfolders db f o p = hasSubfolders db' f o p := by
  simp only [hasSubfolders]
  rw [any_of_agree h (t := .folders) fun r hr => by simp_all]

theorem FolderRepository.hasFiles_agree (f p : String) :
    hasFiles db f o p = hasFiles db' f o p := by
  simp only [hasFiles]
  rw [any_of_agree h (t := .files) fun r hr => by simp_all]

theorem MetadataSchemaRepository.list_agree (p : String) : list db p o = list db' p o := by
  simp only [list]
  rw [filter_of_agree h (t := .metadataSchemas) fun r hr => by simp_all]

theorem MetadataSchemaRepository.activeRows_agree (p : String) :
    activeRows db p o = activeRows db' p o := by
  simp only [activeRows]
  rw [filter_of_agree h (t := .metadataSchemas) fun r hr => by simp_all]

theorem WebhookRepository.get_agree (w p : String) : get db w o p = get db' w o p := by
  simp only [get]
  rw [filter_of_agree h (t := .webhooks) fun r hr => by simp_all]

theorem WebhookRepository.list_agree (p : String) : list db o p = list db' o p := by
  simp only [list]
  rw [filter_of_agree h (t := .webhooks) fun r hr => by simp_all]

theorem WebhookRepository.listDeliveries_agree (w : String) (limit : ℕ) :
    listDeliveries db w o limit = listDeliveries db' w o limit := by
  simp only [listDeliveries]
  rw [filter_of_agree h (t := .webhookDeliveries) fun r hr => by simp_all]

theorem ProjectRepository.get_agree (p : String) : get db p o = get db' p o := by
  simp only [get]
  rw [filter_of_agree h (t := .projects) fun r hr => by simp_all]

theorem ProjectRepository.getBySlug_agree (slug : String) :
    getBySlug db slug o = getBySlug db' slug o := by
  simp only [getBySlug]
  rw [filter_of_agree h (t := .projects) fun r hr => by simp_all]

theorem ProjectRepository.list_agree (params : ProjectListParams) :
    list db o params = list db' o params := by
  simp only [list]
  rw [filter_of_agree h (t := .projects) fun r hr => by simp_all]

theorem UsageRepository.liveFiles_agree : liveFiles db o = liveFiles db' o := by
  simp only [liveFiles]
  rw [filter_of_agree h (t := .files) fun r hr => by simp_all]

theorem UsageRepository.liveProjects_agree : liveProjects db o = liveProjects db' o := by
  simp only [liveProjects]
  rw [filter_of_agree h (t := .projects) fun r hr => by simp_all]

/-- The files of a project of the organisation are the organisation's: the join on the
project alone is as good as one that names the organisation. -/
theorem UsageRepository.joinedFiles_agree (hdb : db.Good) (hdb' : db'.Good) {p : Project}
    (hp : p ∈ db .projects) (ho : p.organizationId = o) :
    joinedFiles db p.id = joinedFiles db' p.id := by
  have hp' : p ∈ db' .projects := (h.mem_iff (t := .projects) (by simpa using ho)).mp hp
  have key : ∀ d : Database, d.Good → p ∈ d .projects → joinedFiles d p.id =
      (d .files).filter fun (r : File) =>
        r.projectId == p.id && r.deletedAt.isNone && r.organizationId == o := by
    intro d hd hpd
    refine List.filter_congr fun (r : File) hr => ?_
    by_cases hrp : r.projectId = p.id
    · simp [hd.organizationId_of_project hr hpd hrp, ho]
    · simp [hrp]
  rw [key db hdb hp, key db' hdb' hp', filter_of_agree h (t := .files) fun r hr => by simp_all]

theorem UsageRepository.getProjectBreakdown_agree (hdb : db.Good) (hdb' : db'.Good) :
    getProjectBreakdown db o = getProjectBreakdown db' o := by
  simp only [getProjectBreakdown]
  rw [← liveProjects_agree h]
  congr 1
  refine List.map_congr_left fun p hp => ?_
  have hp := List.mem_filter.mp hp
  simp only [Bool.and_eq_true, beq_iff_eq] at hp
  rw [joinedFiles_agree h hdb hdb' hp.1 hp.2.1]

/-- The project joined to a file of the organisation is the organisation's. -/
theorem DashboardRepository.getRecentFiles_agree (hdb : db.Good) (hdb' : db'.Good) (limit : ℕ) :
    getRecentFiles db o limit = getRecentFiles db' o limit := by
  have key : ∀ d : Database, d.Good → ∀ f : File, f ∈ d .files → f.organizationId = o →
      (d .projects).filter (fun (p : Project) => p.id == f.projectId)
        = (d .projects).filter fun (p : Project) =>
            p.id == f.projectId && p.organizationId == o := by
    intro d hd f hf hfo
    refine List.filter_congr fun (p : Project) hp => ?_
    by_cases hpf : p.id = f.projectId
    · simp [← hd.organizationId_of_project hf hp hpf.symm, hfo]
    · simp [hpf]
  simp only [getRecentFiles]
  rw [← UsageRepository.liveFiles_agree h]
  congr 3
  refine List.flatMap_congr fun f hf => ?_
  have hf := List.mem_filter.mp hf
  simp only [Bool.and_eq_true, beq_iff_eq] at hf
  have hfo : f.organizationId = o := hf.2.1
  have hf' : f ∈ db' .files := (h.mem_iff (t := .files) (by simpa using hfo)).mp hf.1
  rw [key db hdb f hf.1 hfo, key db' hdb' f hf' hfo,
    filter_of_agree h (t := .projects) fun r hr => by simp_all]

end Agree

end FileNest
