import FileNest.Storage
import FileNest.Models
import Mathlib.Data.List.Dedup
import Mathlib.Data.String.Basic

/-!
# Files, versions, upload sessions and folders: queries and writes

Queries are filters of a table followed by SQL's result operators.  A write is what a
transaction's commit does to the row: `flush` sets the columns whose value the
transaction changed and leaves the others as they are in the table, whatever the
transaction had read there.

## Main definitions

* `File.flush`, `File.save` — the `UPDATE` of a loaded file.
* `FileRepository.get`, `FileRepository.list`, … — the queries.
* `TransactionalOutboxPublisher.publish` — an event enqueued in the transaction.
-/

namespace FileNest

open RowStore

/-- `list(dict.fromkeys(xs))`: first occurrences, in order. -/
def dictFromKeys (xs : List String) : List String := xs.reverse.dedup.reverse

theorem mem_dictFromKeys {x : String} {xs : List String} : x ∈ dictFromKeys xs ↔ x ∈ xs := by
  rw [dictFromKeys, List.mem_reverse, List.mem_dedup, List.mem_reverse]

/-- Keys that are there already add nothing. -/
theorem dictFromKeys_append_eq_iff {xs ys : List String} :
    dictFromKeys (xs ++ ys) = dictFromKeys xs ↔ ∀ y ∈ ys, y ∈ xs := by
  constructor
  · intro h y hy
    rw [← mem_dictFromKeys, ← h, mem_dictFromKeys]
    exact List.mem_append_right _ hy
  · intro h
    rw [dictFromKeys, dictFromKeys, List.reverse_append, List.dedup_append]
    rw [List.Subset.union_eq_right]
    intro y hy
    rw [List.mem_dedup, List.mem_reverse]
    exact h y (List.mem_reverse.mp hy)

theorem dictFromKeys_dictFromKeys (xs : List String) :
    dictFromKeys (dictFromKeys xs) = dictFromKeys xs := by
  rw [dictFromKeys, dictFromKeys, List.reverse_reverse, List.dedup_idem]

/-- The value a column has after a flush: the new one if the transaction changed it. -/
def flushColumn {α : Type} [DecidableEq α] (loaded new current : α) : α :=
  if new = loaded then current else new

@[simp] theorem flushColumn_self {α : Type} [DecidableEq α] (a b : α) : flushColumn a a b = b := by
  simp [flushColumn]

@[simp] theorem flushColumn_current {α : Type} [DecidableEq α] (a b : α) :
    flushColumn a b a = b := by
  simp only [flushColumn]
  split <;> simp_all

/-- Writing what is there. -/
@[simp] theorem flushColumn_same {α : Type} [DecidableEq α] (a b : α) : flushColumn a b b = b := by
  rw [flushColumn, ite_self]

/-- A value that is not what was written is what was there, and was read so. -/
theorem flushColumn_ne {α : Type} [DecidableEq α] {a b c d : α} (h : flushColumn a b c = d)
    (hb : b ≠ d) : c = d ∧ b = a := by
  rw [flushColumn] at h
  split at h
  · exact ⟨h, ‹_›⟩
  · exact absurd h hb

/-- A value that was not there is what was written, and differs from what was read. -/
theorem flushColumn_written {α : Type} [DecidableEq α] {a b c d : α} (h : flushColumn a b c = d)
    (hc : c ≠ d) : b = d ∧ b ≠ a := by
  rw [flushColumn] at h
  split at h
  · exact absurd h hc
  · exact ⟨h, ‹_›⟩

/-! ### Files -/

/-- The `UPDATE` of a file: columns that differ from what was loaded. -/
def File.flush (loaded new : File) : Patch Table.Row .files where
  toFun := fun (r : File) => ({ r with
    filename := flushColumn loaded.filename new.filename r.filename
    contentType := flushColumn loaded.contentType new.contentType r.contentType
    sizeBytes := flushColumn loaded.sizeBytes new.sizeBytes r.sizeBytes
    status := flushColumn loaded.status new.status r.status
    storageKey := flushColumn loaded.storageKey new.storageKey r.storageKey
    folderId := flushColumn loaded.folderId new.folderId r.folderId
    category := flushColumn loaded.category new.category r.category
    versionCount := flushColumn loaded.versionCount new.versionCount r.versionCount
    metadata := flushColumn loaded.metadata new.metadata r.metadata
    tags := flushColumn loaded.tags new.tags r.tags
    deletedAt := flushColumn loaded.deletedAt new.deletedAt r.deletedAt
    updatedAt := flushColumn loaded.updatedAt new.updatedAt r.updatedAt } : File)
  pk_toFun := fun _ => rfl
  owner_toFun := fun _ => rfl

/-- The write that saves a loaded file. -/
def File.save (loaded new : File) : DbWrite := .update .files loaded.id (loaded.flush new)

namespace FileRepository

variable (db : Database)

/-- `FileRepository.get`. -/
def get (fileId organizationId projectId : String) : Except ApiError File :=
  oneOr (notFoundError ("File " ++ fileId ++ " not found")) ((db .files).filter fun (r : File) =>
    r.id == fileId && r.organizationId == organizationId && r.projectId == projectId
      && r.deletedAt.isNone)

/-- The filters shared by `list` and `count`. -/
structure Filters where
  folderId : Option String := none
  q : Option String := none
  tags : List String := []
  category : Option String := none
  status : Option String := none
  dateFrom : Option ℕ := none
  dateTo : Option ℕ := none
  sizeMin : Option ℤ := none
  sizeMax : Option ℤ := none
  metadataFilter : Fields := []

/-- `_apply_filters`, without the tenant scope: filters that are absent or empty do not
restrict.  The filter for metadata is bound as the JSONB value of its text, a string, which no
object contains. -/
def Filters.matches (f : Filters) (r : File) : Bool :=
  (f.folderId.all fun id => r.folderId == some id)
    && ((orNone f.q).all fun q => Sql.ilike r.filename ("%" ++ q ++ "%"))
    && (f.tags.all fun tag => r.tags.contains tag)
    && ((orNone f.category).all fun c => r.category == some c)
    && ((orNone f.status).all fun s => r.status.value == s)
    && (f.dateFrom.all fun d => decide (d ≤ r.createdAt))
    && (f.dateTo.all fun d => decide (r.createdAt ≤ d))
    && (f.sizeMin.all fun n => decide (n ≤ r.sizeBytes))
    && (f.sizeMax.all fun n => decide (r.sizeBytes ≤ n))
    && f.metadataFilter.isEmpty

/-- The rows of a project that pass the filters. -/
def matching (organizationId projectId : String) (f : Filters) : List File :=
  (db .files).filter fun (r : File) =>
    r.organizationId == organizationId && r.projectId == projectId && r.deletedAt.isNone
      && f.matches r

/-- `count`. -/
def count (organizationId projectId : String) (f : Filters) : ℕ :=
  (matching db organizationId projectId f).length

/-- `count_in_flight`. -/
def countInFlight (organizationId projectId : String) : ℕ :=
  ((db .files).filter fun (r : File) =>
    r.organizationId == organizationId && r.projectId == projectId
      && (r.status == .pending || r.status == .uploading) && r.deletedAt.isNone).length

/-- `list`: newest first; a cursor takes priority over the offset. -/
def list (organizationId projectId : String) (f : Filters) (limit offset : ℕ)
    (cursor : Option String) : List File :=
  match orNone cursor with
  | some c => (Sql.orderByDesc File.createdAt
      ((matching db organizationId projectId f).filter fun r => decide (c < r.id))).take limit
  | none => Sql.page offset limit
      (Sql.orderByDesc File.createdAt (matching db organizationId projectId f))

/-- `update_status`, on the record the session holds. -/
def updateStatus (record : File) (status : FileStatus) (now : ℕ) : File :=
  { record with status := status, updatedAt := now }

/-- `update_category`. -/
def updateCategory (record : File) (category : String) (now : ℕ) : File :=
  { record with category := some category, updatedAt := now }

/-- `soft_delete`. -/
def softDelete (record : File) (now : ℕ) : File :=
  { record with deletedAt := some now, updatedAt := now }

/-- `set_tags`: duplicates are removed, first occurrences stay. -/
def setTags (record : File) (tags : List String) (now : ℕ) : File :=
  { record with tags := dictFromKeys tags, updatedAt := now }

/-- `add_tags`: tags already there are not appended, duplicates among the new ones are. -/
def addTags (record : File) (tags : List String) (now : ℕ) : File :=
  { record with
    tags := record.tags ++ tags.filter fun t => !record.tags.contains t
    updatedAt := now }

/-- `update_metadata`. -/
def updateMetadata (record : File) (metadata : Fields) (now : ℕ) : File :=
  { record with metadata := metadata, updatedAt := now }

/-- `merge_metadata`. -/
def mergeMetadata (record : File) (updates : Fields) (now : ℕ) : File :=
  { record with metadata := record.metadata.update updates, updatedAt := now }

/-- `move_file`. -/
def moveFile (record : File) (folderId : Option String) (now : ℕ) : File :=
  { record with folderId := folderId, updatedAt := now }

/-- `rename_file`. -/
def renameFile (record : File) (filename : String) (now : ℕ) : File :=
  { record with filename := filename, updatedAt := now }

end FileRepository

/-! ### Versions and upload sessions -/

namespace FileVersionRepository

variable (db : Database)

/-- `list`: newest first. -/
def list (fileId organizationId projectId : String) : List FileVersion :=
  Sql.orderByDesc FileVersion.versionNumber ((db .fileVersions).filter fun (r : FileVersion) =>
    r.fileId == fileId && r.organizationId == organizationId && r.projectId == projectId)

/-- `get`. -/
def get (versionId fileId organizationId : String) : Except ApiError FileVersion :=
  oneOr (notFoundError ("Version " ++ versionId ++ " not found for file " ++ fileId))
    ((db .fileVersions).filter fun (r : FileVersion) =>
      r.id == versionId && r.fileId == fileId && r.organizationId == organizationId)

end FileVersionRepository

namespace UploadSessionRepository

variable (db : Database)

/-- `get`: by id and organisation. -/
def get (sessionId organizationId : String) : Except ApiError UploadSession :=
  oneOr (notFoundError ("Upload session " ++ sessionId ++ " not found"))
    ((db .uploadSessions).filter fun (r : UploadSession) =>
      r.id == sessionId && r.organizationId == organizationId)

/-- `mark_completed`. -/
def markCompleted (record : UploadSession) (partCount : ℕ) : UploadSession :=
  { record with status := "completed", partCount := some partCount }

/-- `mark_aborted`. -/
def markAborted (record : UploadSession) : UploadSession :=
  { record with status := "aborted" }

end UploadSessionRepository

/-- The `UPDATE` of an upload session. -/
def UploadSession.flush (loaded new : UploadSession) : Patch Table.Row .uploadSessions where
  toFun := fun (r : UploadSession) => ({ r with
    status := flushColumn loaded.status new.status r.status
    partCount := flushColumn loaded.partCount new.partCount r.partCount } : UploadSession)
  pk_toFun := fun _ => rfl
  owner_toFun := fun _ => rfl

/-- The write that saves a loaded upload session. -/
def UploadSession.save (loaded new : UploadSession) : DbWrite :=
  .update .uploadSessions loaded.id (loaded.flush new)

/-! ### Folders -/

namespace FolderRepository

variable (db : Database)

/-- `get`: active folders only. -/
def get (folderId organizationId projectId : String) : Except ApiError Folder :=
  oneOr (notFoundError ("Folder " ++ folderId ++ " not found"))
    ((db .folders).filter fun (r : Folder) =>
      r.id == folderId && r.organizationId == organizationId && r.projectId == projectId
        && r.deletedAt.isNone)

/-- `list`: ordered by path, optionally of one name. -/
def list (organizationId projectId : String) (name : Option String) : List Folder :=
  Sql.orderBy Folder.path ((db .folders).filter fun (r : Folder) =>
    r.organizationId == organizationId && r.projectId == projectId && r.deletedAt.isNone
      && name.all fun n => r.name == n)

/-- `get_by_path`. -/
def getByPath (path organizationId projectId : String) : Except ApiError (Option Folder) :=
  scalarOneOrNone ((db .folders).filter fun (r : Folder) =>
    r.path == path && r.organizationId == organizationId && r.projectId == projectId
      && r.deletedAt.isNone)

/-- `has_subfolders`. -/
def hasSubfolders (folderId organizationId projectId : String) : Bool :=
  (db .folders).any fun (r : Folder) =>
    r.parentFolderId == some folderId && r.organizationId == organizationId
      && r.projectId == projectId && r.deletedAt.isNone

/-- `has_files`. -/
def hasFiles (folderId organizationId projectId : String) : Bool :=
  (db .files).any fun (r : File) =>
    r.folderId == some folderId && r.organizationId == organizationId
      && r.projectId == projectId && r.deletedAt.isNone

/-- `soft_delete`. -/
def softDelete (record : Folder) (now : ℕ) : Folder := { record with deletedAt := some now }

end FolderRepository

/-- The `UPDATE` of a folder: only `deleted_at` ever changes. -/
def Folder.flush (loaded new : Folder) : Patch Table.Row .folders where
  toFun := fun (r : Folder) => ({ r with
    deletedAt := flushColumn loaded.deletedAt new.deletedAt r.deletedAt } : Folder)
  pk_toFun := fun _ => rfl
  owner_toFun := fun _ => rfl

/-- The write that saves a loaded folder. -/
def Folder.save (loaded new : Folder) : DbWrite :=
  .update .folders loaded.id (loaded.flush new)

/-! ### The outbox -/

/-- `filenest.{organization_id}.{project_id}.{event}`. -/
def eventSubject (organizationId projectId event : String) : String :=
  "filenest." ++ organizationId ++ "." ++ projectId ++ "." ++ event

/-- `TransactionalOutboxPublisher.publish`: the event row, inserted with the transaction. -/
def TransactionalOutboxPublisher.publish (id : String) (now : ℕ)
    (organizationId projectId event : String) (payload : Fields) : DbWrite :=
  .insert .outboxMessages
    ({ id := id, subject := eventSubject organizationId projectId event, payload := .obj payload
       createdAt := now, organizationId := organizationId, projectId := projectId } :
      OutboxMessage)

end FileNest
