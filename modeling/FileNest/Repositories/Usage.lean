import FileNest.Repositories.Projects

/-!
# Usage and dashboard aggregations

## Main definitions

* `UsageRepository.getStats`, `UsageRepository.getProjectBreakdown` — the usage page.
* `DashboardRepository` — the dashboard's time series and lists.
-/

namespace FileNest

open RowStore

/-- Headline counters of an organisation. -/
structure UsageStats where
  totalFiles : ℕ
  totalStorageBytes : ℤ
  activeProjects : ℕ
  filesUploaded30d : ℕ

/-- Storage and file count of one project. -/
structure ProjectUsageItem where
  projectId : String
  name : String
  storageBytes : ℤ
  fileCount : ℕ

/-- The total size of some files. -/
def totalSize (files : List File) : ℤ := (files.map File.sizeBytes).foldr (· + ·) 0

namespace UsageRepository

variable (db : Database)

/-- The files of an organisation that are not deleted. -/
def liveFiles (organizationId : String) : List File :=
  (db .files).filter fun (r : File) => r.organizationId == organizationId && r.deletedAt.isNone

/-- The projects of an organisation that are not deleted. -/
def liveProjects (organizationId : String) : List Project :=
  (db .projects).filter fun (r : Project) =>
    r.organizationId == organizationId && r.deletedAt.isNone

/-- `get_stats`. -/
def getStats (now : ℕ) (organizationId : String) : UsageStats where
  totalFiles := (liveFiles db organizationId).length
  totalStorageBytes := totalSize (liveFiles db organizationId)
  activeProjects := (liveProjects db organizationId).length
  filesUploaded30d :=
    ((liveFiles db organizationId).filter fun r => decide (now - 30 * day ≤ r.createdAt)).length

/-- The files the breakdown joins to a project: on the project alone. -/
def joinedFiles (projectId : String) : List File :=
  (db .files).filter fun (r : File) => r.projectId == projectId && r.deletedAt.isNone

/-- `get_project_breakdown`: largest first. -/
def getProjectBreakdown (organizationId : String) : List ProjectUsageItem :=
  Sql.orderByDesc ProjectUsageItem.storageBytes
    ((liveProjects db organizationId).map fun p =>
      { projectId := p.id
        name := p.name
        storageBytes := totalSize (joinedFiles db p.id)
        fileCount := (joinedFiles db p.id).length })

end UsageRepository

/-- Compact file representation of the recent-activity list. -/
structure RecentFile where
  id : String
  filename : String
  projectId : String
  projectName : String
  status : FileStatus
  sizeBytes : ℤ
  createdAt : ℕ

namespace DashboardRepository

variable (db : Database)

/-- `func.date`: the day of a timestamp. -/
def dateOf (t : ℕ) : ℕ := t / day

/-- The files of the last 30 days, by day. -/
def filesByDay (now : ℕ) (organizationId : String) : List (ℕ × List File) :=
  Sql.orderBy Prod.fst (Sql.groupBy (fun r => dateOf r.createdAt)
    ((UsageRepository.liveFiles db organizationId).filter fun r =>
      decide (now - 30 * day ≤ r.createdAt)))

/-- `get_uploads_by_day`. -/
def getUploadsByDay (now : ℕ) (organizationId : String) : List (ℕ × ℕ) :=
  (filesByDay db now organizationId).map fun g => (g.1, g.2.length)

/-- Running totals. -/
def cumulative (total : ℤ) : List (ℕ × ℤ) → List (ℕ × ℤ)
  | [] => []
  | (d, n) :: rows => (d, total + n) :: cumulative (total + n) rows

/-- `get_storage_by_day`. -/
def getStorageByDay (now : ℕ) (organizationId : String) : List (ℕ × ℤ) :=
  cumulative 0 ((filesByDay db now organizationId).map fun g => (g.1, totalSize g.2))

/-- `get_status_distribution`: the most frequent first. -/
def getStatusDistribution (organizationId : String) : List (FileStatus × ℕ) :=
  Sql.orderByDesc Prod.snd
    ((Sql.groupBy File.status (UsageRepository.liveFiles db organizationId)).map fun g =>
      (g.1, g.2.length))

/-- `get_recent_files`: joined to their projects, newest first. -/
def getRecentFiles (organizationId : String) (limit : ℕ) : List RecentFile :=
  ((Sql.orderByDesc (fun row : File × Project => row.1.createdAt)
    ((UsageRepository.liveFiles db organizationId).flatMap fun (f : File) =>
      (((db .projects).filter fun (p : Project) => p.id == f.projectId).map fun p =>
        (f, p)))).take limit).map fun (f, p) =>
    { id := f.id, filename := f.filename, projectId := f.projectId, projectName := p.name
      status := f.status, sizeBytes := f.sizeBytes, createdAt := f.createdAt }

end DashboardRepository

end FileNest
