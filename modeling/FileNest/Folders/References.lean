import FileNest.Folders.Effects
import FileNest.Uploads.Admission
import FileNest.Versioning

/-!
# Folder references

Files name their folder and folders their parent, with no constraint in the database.
`create_folder` looks its parent up and `delete_folder` looks for contents, but both
commit later; `init_upload`, a multipart start and `move_file` take a folder id as given,
and so does an upload token.  References stay good as long as every folder a transaction
refers to is active when it commits, and every folder it deletes is still empty.

## Main definitions

* `FoldersIntact` — live files and folders name active folders of their project.
* `Operation.folderIds`, `Operation.deletedFolder` — what an operation refers to.
* `FoldersStand` — what it refers to is there in the database it commits to.
* `FilePlacement` — what a write means for the folders of files.

## Main results

* `folder_references` — **commits to standing folders keep references good.**
* `folder_unresolved` — an upload into a folder that is not there.
-/

namespace FileNest

open RowStore ReadCommitted

/-- An active folder of the project has the id. -/
def ActiveFolder (db : Database) (o p id : String) : Prop :=
  ∃ d ∈ db .folders, Folder.id d = id ∧ Folder.ActiveIn o p d

instance (db : Database) (o p id : String) : Decidable (ActiveFolder db o p id) :=
  inferInstanceAs (Decidable (∃ d ∈ db .folders, Folder.id d = id ∧ Folder.ActiveIn o p d))

/-- Files and folders that are not deleted name active folders of their organisation and
project. -/
structure FoldersIntact (db : Database) : Prop where
  files : ∀ f ∈ db .files, File.deletedAt f = none → ∀ id, File.folderId f = some id →
    ActiveFolder db (File.organizationId f) (File.projectId f) id
  folders : ∀ g ∈ db .folders, Folder.deletedAt g = none → ∀ id, Folder.parentFolderId g = some id →
    ActiveFolder db (Folder.organizationId g) (Folder.projectId g) id

/-- The folder an operation puts a file in. -/
def Operation.folderIds (ctx : TenantContext) : Operation → List String
  | initUpload req => (ctx.uploadFolder req.folderId).toList
  | multipartStart req => req.folderId.toList
  | moveFile _ folderId => folderId.toList
  | _ => []

/-- The folder an operation deletes. -/
def Operation.deletedFolder : Operation → List String
  | deleteFolder folderId => [folderId]
  | _ => []

/-- In the database a call commits to, the folders it refers to are active and the folder
it deletes is empty. -/
def FoldersStand : Guard Table.Row ServiceCall := fun db c snapshot =>
  (∀ id ∈ c.op.folderIds c.ctx, ActiveFolder db c.ctx.organizationId c.projectId id)
    ∧ (∀ a ∈ c.op.anchors c.ctx snapshot c.projectId,
        ActiveFolder db c.ctx.organizationId c.projectId a.id)
    ∧ ∀ id ∈ c.op.deletedFolder,
        FolderRepository.hasSubfolders db id c.ctx.organizationId c.projectId = false
          ∧ FolderRepository.hasFiles db id c.ctx.organizationId c.projectId = false

instance (db : Database) (c : ServiceCall) (snapshot : Database) :
    Decidable (FoldersStand db c snapshot) :=
  inferInstanceAs (Decidable (_ ∧ _ ∧ _))

/-! ### What operations write about the folders of files -/

/-- What a write means for the folders of files. -/
inductive FilePlacement (ctx : TenantContext) (db : Database) (projectId : String)
    (ids : List String) : DbWrite → Prop
  | other {w : DbWrite} (h : w.table ≠ .files) : FilePlacement ctx db projectId ids w
  | insert {row : File} (ho : row.organizationId = ctx.organizationId)
      (hp : row.projectId = projectId) (hfolder : ∀ id, row.folderId = some id → id ∈ ids) :
      FilePlacement ctx db projectId ids (.insert .files row)
  | save {fileId : String} {record new : File}
      (hget : FileRepository.get db fileId ctx.organizationId projectId = .ok record)
      (hfolder : new.folderId = record.folderId ∨ ∀ id, new.folderId = some id → id ∈ ids) :
      FilePlacement ctx db projectId ids (record.save new)

section Placement

variable {ctx : TenantContext} {env : Env} {db : Database} {projectId : String}
  {ids : List String} {r : Response} {ws : List DbWrite}

theorem filePlacement_publish {draw : ℕ} {event : String} {payload : Fields} :
    FilePlacement ctx db projectId ids (publish ctx env projectId draw event payload) :=
  .other (by simp [publish, TransactionalOutboxPublisher.publish])

theorem filePlacement_versionRow {draw versionNumber : ℕ} {fileId key contentType : String}
    {sizeBytes : ℤ} : FilePlacement ctx db projectId ids
      (versionRow ctx env projectId draw fileId versionNumber key sizeBytes contentType) :=
  .other (by simp [versionRow])

theorem filePlacement_session {loaded new : UploadSession} :
    FilePlacement ctx db projectId ids (loaded.save new) :=
  .other (by simp [UploadSession.save])

theorem filePlacement_forall_cons {w : DbWrite} (hw : FilePlacement ctx db projectId ids w)
    (hws : ∀ v ∈ ws, FilePlacement ctx db projectId ids v) :
    ∀ v ∈ w :: ws, FilePlacement ctx db projectId ids v :=
  List.forall_mem_cons.mpr ⟨hw, hws⟩

theorem FileService.initUpload_filePlacement {req : UploadInitRequest}
    (h : initUpload ctx env db projectId req = .ok (r, ws)) :
    ∀ w ∈ ws, FilePlacement ctx db projectId (ctx.uploadFolder req.folderId).toList w := by
  obtain ⟨config, provider, url, -, -, -, -, rfl⟩ := initUpload_eq_ok.mp h
  refine filePlacement_forall_cons (.insert rfl rfl fun id hid => ?_)
    (List.forall_mem_singleton.mpr filePlacement_publish)
  exact Option.mem_toList.mpr hid

theorem MultipartUploadService.start_filePlacement {req : MultipartStartRequest}
    (h : start ctx env db projectId req = .ok (r, ws)) :
    ∀ w ∈ ws, FilePlacement ctx db projectId req.folderId.toList w := by
  obtain ⟨config, provider, providerUploadId, -, -, -, rfl⟩ := start_eq_ok.mp h
  refine filePlacement_forall_cons (.insert rfl rfl fun id hid => ?_)
    (List.forall_mem_singleton.mpr (.other (by simp)))
  exact Option.mem_toList.mpr hid

theorem FileService.modifyFile_filePlacement {fileId : String} {change : File → File}
    {respond : File → Response}
    (h : modifyFile ctx db projectId fileId change respond = .ok (r, ws))
    (hchange : ∀ f, (change f).folderId = f.folderId
      ∨ ∀ id, (change f).folderId = some id → id ∈ ids) :
    ∀ w ∈ ws, FilePlacement ctx db projectId ids w := by
  simp only [modifyFile, bind_eq_ok, pure_eq_ok, Prod.mk.injEq] at h
  obtain ⟨record, hrecord, -, rfl⟩ := h
  exact List.forall_mem_singleton.mpr (.save hrecord (hchange record))

theorem settleUpload_filePlacement {config : ProjectConfig} {record : File} :
    FilePlacement ctx db projectId ids
      (FileService.settleUpload ctx env projectId config record).2 := by
  rw [FileService.settleUpload]
  split <;> exact filePlacement_publish

theorem FileService.confirmUpload_filePlacement {fileId : String}
    (h : confirmUpload ctx env db projectId fileId = .ok (r, ws)) :
    ∀ w ∈ ws, FilePlacement ctx db projectId ids w := by
  simp only [confirmUpload, bind_eq_ok] at h
  obtain ⟨record, hrecord, config, hconfig, h⟩ := h
  have hevent : ∀ w ∈ [(settleUpload ctx env projectId config record).2],
      FilePlacement ctx db projectId ids w :=
    List.forall_mem_singleton.mpr settleUpload_filePlacement
  split at h <;> simp only [pure_eq_ok, Prod.mk.injEq] at h <;> obtain ⟨-, rfl⟩ := h
  · refine filePlacement_forall_cons filePlacement_versionRow ?_
    exact filePlacement_forall_cons (.save hrecord (Or.inl rfl)) hevent
  · exact filePlacement_forall_cons (.save hrecord (Or.inl rfl)) hevent

theorem MultipartUploadService.complete_filePlacement {uploadId : String}
    {req : MultipartCompleteRequest}
    (h : complete ctx env db projectId uploadId req = .ok (r, ws)) :
    ∀ w ∈ ws, FilePlacement ctx db projectId ids w := by
  simp only [complete, bind_eq_ok] at h
  obtain ⟨session, -, record, hrecord, config, -, _, -, -, -, h⟩ := h
  have hevent : ∀ w ∈ [(FileService.settleUpload ctx env projectId config record).2],
      FilePlacement ctx db projectId ids w :=
    List.forall_mem_singleton.mpr settleUpload_filePlacement
  split at h
  · split at h
    · simp only [pure_eq_ok, Prod.mk.injEq] at h
      obtain ⟨-, rfl⟩ := h
      refine filePlacement_forall_cons filePlacement_session ?_
      refine filePlacement_forall_cons filePlacement_versionRow ?_
      exact filePlacement_forall_cons (.save hrecord (Or.inl rfl)) hevent
    · simp at h
  · simp only [pure_eq_ok, Prod.mk.injEq] at h
    obtain ⟨-, rfl⟩ := h
    refine filePlacement_forall_cons filePlacement_session ?_
    exact filePlacement_forall_cons (.save hrecord (Or.inl rfl)) hevent

/-- **What operations mean for the folders of files.** -/
theorem Operation.filePlacement {op : Operation} (hdb : db.Good)
    (h : op.run ctx env db projectId = .ok (r, ws)) :
    ∀ w ∈ ws, FilePlacement ctx db projectId (op.folderIds ctx) w := by
  have htables := (Operation.sound hdb h).tables
  cases op with
  | initUpload req => exact FileService.initUpload_filePlacement h
  | confirmUpload fileId => exact FileService.confirmUpload_filePlacement h
  | multipartStart req => exact MultipartUploadService.start_filePlacement h
  | multipartComplete uploadId req => exact MultipartUploadService.complete_filePlacement h
  | moveFile fileId folderId =>
    simp only [run, FileService.moveFile] at h
    refine FileService.modifyFile_filePlacement h fun f => Or.inr fun id hid => ?_
    exact Option.mem_toList.mpr hid
  | setTags fileId tags =>
    simp only [run, FileService.setTags] at h
    exact FileService.modifyFile_filePlacement h fun f => Or.inl rfl
  | addTags fileId tags =>
    simp only [run, FileService.addTags] at h
    exact FileService.modifyFile_filePlacement h fun f => Or.inl rfl
  | renameFile fileId req =>
    simp only [run, FileService.renameFile] at h
    exact FileService.modifyFile_filePlacement h fun f => Or.inl rfl
  | updateMetadata fileId metadata =>
    simp only [run, MetadataService.updateMetadata, bind_eq_ok] at h
    obtain ⟨_, -, h⟩ := h
    exact FileService.modifyFile_filePlacement h fun f => Or.inl rfl
  | mergeMetadata fileId metadata =>
    simp only [run, MetadataService.mergeMetadata, bind_eq_ok] at h
    obtain ⟨_, -, _, -, h⟩ := h
    exact FileService.modifyFile_filePlacement h fun f => Or.inl rfl
  | deleteFile fileId =>
    simp only [run, FileService.deleteFile, bind_eq_ok, pure_eq_ok, Prod.mk.injEq] at h
    obtain ⟨record, hrecord, -, rfl⟩ := h
    exact filePlacement_forall_cons (.save hrecord (Or.inl rfl))
      (List.forall_mem_singleton.mpr filePlacement_publish)
  | restoreVersion fileId versionId =>
    simp only [run, FileService.restoreVersion, bind_eq_ok, pure_eq_ok, Prod.mk.injEq] at h
    obtain ⟨record, hrecord, version, -, -, rfl⟩ := h
    refine filePlacement_forall_cons filePlacement_versionRow ?_
    exact filePlacement_forall_cons (.save hrecord (Or.inl rfl))
      (List.forall_mem_singleton.mpr filePlacement_publish)
  | multipartAbort uploadId =>
    simp only [run, MultipartUploadService.abort, bind_eq_ok, pure_eq_ok, Prod.mk.injEq] at h
    obtain ⟨session, -, record, hrecord, _, -, -, -, -, rfl⟩ := h
    exact filePlacement_forall_cons filePlacement_session
      (List.forall_mem_singleton.mpr (.save hrecord (Or.inl rfl)))
  -- the rest writes no file
  | _ => exact fun w hw => .other fun ht => absurd (ht ▸ htables w hw) (by simp [tables])

end Placement

/-! ### Commits -/

/-- A file of the project that is not deleted is in the folder. -/
def FiledIn (db : Database) (o p id : String) : Prop :=
  ∃ f ∈ db .files, File.deletedAt f = none ∧ File.organizationId f = o ∧ File.projectId f = p
    ∧ File.folderId f = some id

section Commits

variable {ctx : TenantContext} {env : Env} {snapshot db : Database} {projectId : String}
  {ids : List String} {ws : List DbWrite} {o p id : String}

/-- What one write puts in a folder. -/
theorem FilePlacement.filedIn {w : DbWrite} (h : FilePlacement ctx snapshot projectId ids w)
    (hkeeps : KeepsReferenced refs snapshot db) (hunique : db.UniquePk)
    (hfiled : FiledIn (w.apply db) o p id) :
    FiledIn db o p id ∨ o = ctx.organizationId ∧ p = projectId ∧ id ∈ ids := by
  obtain ⟨f', hf', hdeleted, rfl, rfl, hfolder⟩ := hfiled
  cases h with
  | other htable =>
    rw [apply_of_table_ne htable] at hf'
    exact Or.inl ⟨f', hf', hdeleted, rfl, rfl, hfolder⟩
  | insert ho hp hids =>
    rw [apply_insert_self, List.mem_append, List.mem_singleton] at hf'
    rcases hf' with hf' | rfl
    · exact Or.inl ⟨f', hf', hdeleted, rfl, rfl, hfolder⟩
    · exact Or.inr ⟨ho, hp, hids id hfolder⟩
  | @save fileId record new hget hids =>
    obtain ⟨hmem, -, ho, hp, hlive⟩ := FileRepository.of_get hget
    rw [File.save, apply_update_self] at hf'
    obtain ⟨f, hf, rfl⟩ := List.mem_map.mp hf'
    by_cases hid : pk f = record.id
    · -- the saved row: it was live before, and its folder is the old one or a new one
      obtain ⟨hfo, hfp⟩ := file_owner_eq hkeeps hunique hmem hf hid
      rw [if_pos hid] at hdeleted hfolder ⊢
      have hdeleted' : flushColumn record.deletedAt new.deletedAt (File.deletedAt f) = none :=
        hdeleted
      have hfolder' : flushColumn record.folderId new.folderId (File.folderId f) = some id :=
        hfolder
      have hlive' : File.deletedAt f = none := by
        rw [flushColumn] at hdeleted'
        split at hdeleted'
        · exact hdeleted'
        · rename_i hne
          exact absurd (hdeleted'.trans hlive.symm) hne
      rw [flushColumn] at hfolder'
      split at hfolder'
      · exact Or.inl ⟨f, hf, hlive', rfl, rfl, hfolder'⟩
      · rename_i hne
        rcases hids with hsame | hids
        · exact absurd hsame hne
        · exact Or.inr ⟨hfo.trans ho, hfp.trans hp, hids id hfolder'⟩
    · rw [if_neg hid] at hdeleted hfolder ⊢
      exact Or.inl ⟨f, hf, hdeleted, rfl, rfl, hfolder⟩

/-- What a commit puts in a folder. -/
theorem filedIn_applyAll (hws : ∀ w ∈ ws, FilePlacement ctx snapshot projectId ids w)
    (hkeeps : KeepsReferenced refs snapshot db) (hunique : db.UniquePk) (hres : Resolved refs ws db)
    (hadm : Admissible ws db) (hfiled : FiledIn (applyAll ws db) o p id) :
    FiledIn db o p id ∨ o = ctx.organizationId ∧ p = projectId ∧ id ∈ ids := by
  induction ws generalizing db with
  | nil => exact Or.inl hfiled
  | cons w ws ih =>
    have hkeeps' : KeepsReferenced refs snapshot (w.apply db) :=
      hkeeps.trans fun t o k hk hs => hs.apply hres.1 hk
    rcases ih (fun v hv => hws v (List.mem_cons_of_mem _ hv)) hkeeps'
      (uniquePk_apply hunique hadm.1) hres.2 hadm.2 hfiled with hbefore | hnew
    · exact (hws w List.mem_cons_self).filedIn hkeeps hunique hbefore
    · exact Or.inr hnew

theorem FoldersIntact.filed (h : FoldersIntact db) (hfiled : FiledIn db o p id) :
    ActiveFolder db o p id := by
  obtain ⟨f, hf, hdeleted, rfl, rfl, hfolder⟩ := hfiled
  exact h.files f hf hdeleted id hfolder

/-- An active folder stays active unless it is the one deleted. -/
theorem ActiveFolder.delete {record : Folder} {now : ℕ} (h : ActiveFolder db o p id)
    (hid : id ≠ record.id) :
    ActiveFolder (applyAll [record.save (FolderRepository.softDelete record now)] db) o p id := by
  obtain ⟨d, hd, rfl, hactive⟩ := h
  refine ⟨d, ?_, rfl, hactive⟩
  rw [applyAll_save_folder]
  exact List.mem_map.mpr ⟨d, hd, if_neg hid⟩

/-- A folder on record keeps its owner. -/
theorem ActiveFolder.owner_eq (h : ActiveFolder db o p id) (hkeeps : KeepsFolders snapshot db)
    (hunique : db.UniquePk) {record : Folder} (hrecord : record ∈ snapshot .folders)
    (hid : id = record.id) : o = record.organizationId ∧ p = record.projectId := by
  obtain ⟨d, hd, hdid, hactive⟩ := h
  obtain ⟨d', hd', hsame⟩ := hkeeps record hrecord
  obtain rfl : d = d' := hunique.eq_of_pk (t := .folders) hd hd'
    (hdid.trans (hid.trans hsame.id_eq.symm))
  rw [← hactive.organizationId_eq, ← hactive.projectId_eq]
  exact ⟨hsame.organizationId_eq, hsame.projectId_eq⟩

/-- **One commit to standing folders keeps references good.** -/
theorem FoldersIntact.commit {op : Operation} {r : Response} (h : FoldersIntact db) (hdb : db.Good)
    (hsnap : snapshot.Good) (hkeeps : KeepsReferenced refs snapshot db)
    (hfolders : KeepsFolders snapshot db) (hr : op.run ctx env snapshot projectId = .ok (r, ws))
    (hadm : Admissible ws db) (hstand : FoldersStand db ⟨ctx, env, projectId, op⟩ snapshot) :
    FoldersIntact (applyAll ws db) := by
  have hplacement := Operation.filePlacement hsnap hr
  have hres := (Operation.sound hsnap hr).resolved.mono hkeeps
  obtain ⟨hfiled, hanchors, hempty⟩ := hstand
  -- the folder of a live file was active when the call committed
  have hfile : ∀ f ∈ applyAll ws db .files, File.deletedAt f = none → ∀ id,
      File.folderId f = some id →
      ActiveFolder db (File.organizationId f) (File.projectId f) id := by
    intro f hf hlive id hid
    rcases filedIn_applyAll hplacement hkeeps hdb.uniquePk hres hadm ⟨f, hf, hlive, rfl, rfl, hid⟩
      with hbefore | ⟨ho, hp, hmem⟩
    · exact h.filed hbefore
    · rw [ho, hp]
      exact hfiled id hmem
  cases Operation.folderEffect hsnap hr with
  | none hop hne =>
    have htable : applyAll ws db .folders = db .folders := applyAll_of_table_ne hne db
    have hactive : ∀ {o p id}, ActiveFolder db o p id → ActiveFolder (applyAll ws db) o p id := by
      rintro o p id ⟨d, hd, hdid⟩
      exact ⟨d, htable ▸ hd, hdid⟩
    refine ⟨fun f hf hlive id hid => hactive (hfile f hf hlive id hid), ?_⟩
    intro g hg hlive id hid
    rw [htable] at hg
    exact hactive (h.folders g hg hlive id hid)
  | @create _ rows rest hgrows hpaths hrest =>
    have htable := applyAll_insert_folders rows hrest db
    have hactive : ∀ {o p id}, ActiveFolder db o p id → ActiveFolder
        (applyAll (rows.map (Write.insert Table.folders) ++ rest) db) o p id := by
      rintro o p id ⟨d, hd, hdid⟩
      exact ⟨d, htable ▸ List.mem_append_left _ hd, hdid⟩
    refine ⟨fun f hf hlive id hid => hactive (hfile f hf hlive id hid), ?_⟩
    intro g hg hlive id hid
    rw [htable] at hg
    rcases List.mem_append.mp hg with hg | hg
    · exact hactive (h.folders g hg hlive id hid)
    · -- a new folder: its parent is one it was built on, or new as well
      have hplaced := hgrows.placed g hg
      rcases hplaced.place with hroot | ⟨parent, hparent, hunder⟩
      · rw [hroot.parentFolderId_eq] at hid
        cases hid
      · obtain rfl := Option.some.inj (hunder.parentFolderId_eq.symm.trans hid)
        rw [hplaced.active.organizationId_eq, hplaced.active.projectId_eq]
        rcases List.mem_append.mp hparent with hanchor | hnew
        · exact hactive (hanchors parent hanchor)
        · exact ⟨parent, htable ▸ List.mem_append_right _ hnew, rfl,
            (hgrows.placed parent hnew).active⟩
  | @delete folderId record hget hsubfolders hfiles =>
    obtain ⟨hrecord, hrid, ho, hp, -⟩ := FolderRepository.of_get hget
    obtain ⟨hnosub, hnofile⟩ := hempty folderId List.mem_cons_self
    have htable : applyAll [record.save (FolderRepository.softDelete record env.now)] db .files
        = db .files := applyAll_of_table_ne (by simp [Folder.save]) db
    constructor
    · intro f hf hlive id hid
      have hbefore := hfile f hf hlive id hid
      refine hbefore.delete fun heq => ?_
      -- a file in the deleted folder would have been seen
      obtain ⟨hfo, hfp⟩ := hbefore.owner_eq hfolders hdb.uniquePk hrecord heq
      rw [htable] at hf
      have hseen := List.any_eq_false.mp hnofile f hf
      simp [hid, heq, hrid, hfo, hfp, ho, hp, hlive] at hseen
    · intro g hg hlive id hid
      obtain ⟨hg, -⟩ := active_of_delete hget hg ⟨rfl, rfl, hlive⟩
      have hbefore := h.folders g hg hlive id hid
      refine hbefore.delete fun heq => ?_
      obtain ⟨hgo, hgp⟩ := hbefore.owner_eq hfolders hdb.uniquePk hrecord heq
      have hseen := List.any_eq_false.mp hnosub g hg
      simp [hid, heq, hrid, hgo, hgp, ho, hp, hlive] at hseen

end Commits

/-- **Commits to standing folders keep references good**: in every run in which the folders
a transaction refers to are active when it commits, and the folder it deletes is still
empty then, every file and folder that is not deleted names an active folder of its
project. -/
theorem folder_references {w : World Table.Row ServiceCall}
    (hw : Reachable ServiceCall.writes FoldersStand (· = Database.empty) w) :
    FoldersIntact w.store := by
  refine (ServiceCall.invariant (P := FoldersIntact) ?_ KeepsFolders.refl ?_ hw).2
  · exact ⟨fun f hf => by simp [Database.empty] at hf, fun g hg => by simp [Database.empty] at hg⟩
  · intro db snapshot c r ws hdb hsnap hread hfolders hintact hr hadm hstand
    have heffect := Operation.folderEffect hsnap hr
    exact ⟨hintact.commit hdb hsnap hread hfolders hr hadm hstand, fun snap hsnapfolders =>
      hsnapfolders.trans (heffect.keepsFolders db)⟩

/-- A project, a folder with another one in it, and an upload there. -/
def filedCalls : List ServiceCall :=
  [⟨orgContext "acme", devEnv "p" 1, "", .createProject devProject⟩,
   ⟨orgContext "acme", devEnv "e" 2, "p0", .ensureFolderPath devPath⟩,
   ⟨orgContext "acme", devEnv "f" 3, "p0", .initUpload
     { filename := "a.txt", contentType := "text/plain", sizeBytes := 1, folderId := some "e1" }⟩]

/-- An upload into a folder that exists. -/
theorem folder_references_filed :
    let db := runAll filedCalls Database.empty
    (∃ f ∈ db .files, File.folderId f = some "e1") ∧ FoldersIntact db := by
  refine ⟨by decide, ?_⟩
  have hcalls : AllowedRun FoldersStand filedCalls Database.empty := by decide
  exact folder_references (hcalls.reachable (.init rfl))

/-- A project and an upload into a folder that does not exist. -/
def strayCalls : List ServiceCall :=
  [⟨orgContext "acme", devEnv "p" 1, "", .createProject devProject⟩,
   ⟨orgContext "acme", devEnv "f" 2, "p0", .initUpload
     { filename := "a.txt", contentType := "text/plain", sizeBytes := 1, folderId := some "nope" }⟩]

/-- An upload into a folder that does not exist goes through. -/
theorem folder_unresolved :
    ¬∀ w : World Table.Row ServiceCall,
      Reachable ServiceCall.writes .always (· = Database.empty) w → FoldersIntact w.store := by
  intro h
  have hrun := reachable_runAll .always (fun _ _ => trivial) strayCalls (.init rfl)
  have hstray : ∃ f ∈ runAll strayCalls Database.empty .files, File.deletedAt f = none
      ∧ File.folderId f = some "nope" := by decide
  obtain ⟨f, hf, hlive, hid⟩ := hstray
  obtain ⟨d, hd, -⟩ := (h _ hrun).files f hf hlive "nope" hid
  have hnone : runAll strayCalls Database.empty .folders = [] := by decide
  have hmem : d ∈ runAll strayCalls Database.empty .folders := hd
  rw [hnone] at hmem
  cases hmem

end FileNest
