import FileNest.Reachable

/-!
# What the operations do to folders

Folders are created in two ways — one under a given parent, or the missing segments of a
path, one below the other — and one at a time is soft-deleted.  Nothing else about a
folder ever changes.  What the walk of a path finds and what it misses is said here in
terms of the database it reads.

## Main definitions

* `Folder.AtRoot`, `Folder.Under` — where a folder stands.
* `Placed`, `Grows` — new folders, each at the root or under a known one.
* `anchors`, `missingPaths` — the folders a walk builds on, and the paths it creates.
* `FolderEffect` — the shapes.

## Main results

* `resolvePath_spec` — **what a walk creates.**
* `Operation.folderEffect` — **every operation has one of the shapes.**
-/

namespace FileNest

open RowStore ReadCommitted

/-! ### Where folders stand -/

/-- A folder at the root of its project. -/
structure Folder.AtRoot (row : Folder) : Prop where
  parentFolderId_eq : row.parentFolderId = none
  path_eq : row.path = "/" ++ row.name

/-- A folder under another one of its project. -/
structure Folder.Under (row parent : Folder) : Prop where
  parentFolderId_eq : row.parentFolderId = some parent.id
  organizationId_eq : row.organizationId = parent.organizationId
  projectId_eq : row.projectId = parent.projectId
  path_eq : row.path = parent.path ++ "/" ++ row.name

/-- The same folder, whether it has been deleted or not. -/
structure Folder.Same (row row' : Folder) : Prop where
  id_eq : row.id = row'.id
  organizationId_eq : row.organizationId = row'.organizationId
  projectId_eq : row.projectId = row'.projectId
  parentFolderId_eq : row.parentFolderId = row'.parentFolderId
  name_eq : row.name = row'.name
  path_eq : row.path = row'.path

/-- An active folder of a project. -/
structure Folder.ActiveIn (o p : String) (row : Folder) : Prop where
  organizationId_eq : row.organizationId = o
  projectId_eq : row.projectId = p
  deletedAt_eq : row.deletedAt = none

instance (o p : String) (row : Folder) : Decidable (row.ActiveIn o p) :=
  decidable_of_iff (row.organizationId = o ∧ row.projectId = p ∧ row.deletedAt = none)
    ⟨fun ⟨ho, hp, hd⟩ => ⟨ho, hp, hd⟩, fun ⟨ho, hp, hd⟩ => ⟨ho, hp, hd⟩⟩

theorem Folder.Same.refl (row : Folder) : row.Same row := ⟨rfl, rfl, rfl, rfl, rfl, rfl⟩

theorem Folder.Same.trans {row row' row'' : Folder} (h : row.Same row') (h' : row'.Same row'') :
    row.Same row'' :=
  ⟨h.id_eq.trans h'.id_eq, h.organizationId_eq.trans h'.organizationId_eq,
    h.projectId_eq.trans h'.projectId_eq, h.parentFolderId_eq.trans h'.parentFolderId_eq,
    h.name_eq.trans h'.name_eq, h.path_eq.trans h'.path_eq⟩

theorem Folder.AtRoot.congr {row row' : Folder} (h : row.AtRoot) (hrow : row'.Same row) :
    row'.AtRoot := by
  constructor
  · rw [hrow.parentFolderId_eq, h.parentFolderId_eq]
  · rw [hrow.path_eq, hrow.name_eq, h.path_eq]

theorem Folder.Under.congr {row row' parent parent' : Folder} (h : row.Under parent)
    (hrow : row'.Same row) (hparent : parent'.Same parent) : row'.Under parent' := by
  constructor
  · rw [hrow.parentFolderId_eq, hparent.id_eq, h.parentFolderId_eq]
  · rw [hrow.organizationId_eq, hparent.organizationId_eq, h.organizationId_eq]
  · rw [hrow.projectId_eq, hparent.projectId_eq, h.projectId_eq]
  · rw [hrow.path_eq, hrow.name_eq, hparent.path_eq, h.path_eq]

/-- A new folder of a project, at the root or under a known one. -/
structure Placed (o p : String) (known : List Folder) (row : Folder) : Prop where
  active : row.ActiveIn o p
  name_no_slash : '/' ∉ row.name.toList
  place : row.AtRoot ∨ ∃ parent ∈ known, row.Under parent

/-- New folders, one after the other. -/
inductive Grows (o p : String) : List Folder → List Folder → Prop
  | nil {known : List Folder} : Grows o p known []
  | cons {known rows : List Folder} {row : Folder} (hrow : Placed o p known row)
      (hrows : Grows o p (known ++ [row]) rows) : Grows o p known (row :: rows)

theorem Placed.mono {o p : String} {known known' : List Folder} {row : Folder}
    (h : Placed o p known row) (hsub : ∀ f ∈ known, f ∈ known') : Placed o p known' row :=
  ⟨h.active, h.name_no_slash, h.place.imp_right fun ⟨parent, hmem, hunder⟩ =>
    ⟨parent, hsub parent hmem, hunder⟩⟩

/-- Every new folder is placed among the known and the new ones. -/
theorem Grows.placed {o p : String} {known rows : List Folder} (h : Grows o p known rows) :
    ∀ row ∈ rows, Placed o p (known ++ rows) row := by
  induction h with
  | nil => intro row hrow; simp at hrow
  | @cons known rows row hrow _ ih =>
    intro row' hrow'
    rcases List.mem_cons.mp hrow' with rfl | hrow'
    · exact hrow.mono fun f hf => List.mem_append_left _ hf
    · refine (ih row' hrow').mono fun f hf => ?_
      rw [List.append_assoc] at hf
      exact hf

/-! ### Walking a path -/

section Walk

variable (db : Database) (o p : String)

/-- The folders a walk finds right above a missing segment; `above` is the one it has just
found, if any. -/
def anchors : List String → String → Option Folder → List Folder
  | [], _, _ => []
  | segment :: segments, path, above =>
      match FolderRepository.getByPath db (path ++ "/" ++ segment) o p with
      | .ok (some existing) => anchors segments (path ++ "/" ++ segment) (some existing)
      | _ => above.toList ++ anchors segments (path ++ "/" ++ segment) none

/-- The paths a walk finds missing. -/
def missingPaths : List String → String → List String
  | [], _ => []
  | segment :: segments, path =>
      match FolderRepository.getByPath db (path ++ "/" ++ segment) o p with
      | .ok (some _) => missingPaths segments (path ++ "/" ++ segment)
      | _ => (path ++ "/" ++ segment) :: missingPaths segments (path ++ "/" ++ segment)

end Walk

theorem FolderRepository.of_getByPath {db : Database} {path o p : String} {r : Folder}
    (h : getByPath db path o p = .ok (some r)) :
    r ∈ db .folders ∧ r.path = path ∧ r.ActiveIn o p := by
  have := List.mem_filter.mp (mem_of_scalarOneOrNone h)
  simp only [Bool.and_eq_true, beq_iff_eq, Option.isNone_iff_eq_none] at this
  exact ⟨this.1, this.2.1.1.1, this.2.1.1.2, this.2.1.2, this.2.2⟩

section Walk

variable {ctx : TenantContext} {env : Env} {db : Database} {projectId : String}

/-- Walks build on active folders of the project. -/
theorem mem_anchors {o p : String} {segments : List String} {path : String}
    {above : Option Folder} {a : Folder} (h : a ∈ anchors db o p segments path above) :
    above = some a ∨ a ∈ db .folders ∧ a.ActiveIn o p := by
  induction segments generalizing path above with
  | nil => simp [anchors] at h
  | cons segment segments ih =>
    rw [anchors] at h
    split at h
    · rename_i existing hfound
      obtain ⟨hmem, -, hactive⟩ := FolderRepository.of_getByPath hfound
      rcases ih h with heq | hdb
      · obtain rfl := Option.some.inj heq
        exact Or.inr ⟨hmem, hactive⟩
      · exact Or.inr hdb
    · rcases List.mem_append.mp h with h | h
      · exact Or.inl (Option.mem_toList.mp h)
      · rcases ih h with heq | hdb
        · cases heq
        · exact Or.inr hdb

/-- Every path of a walk is longer than where it starts. -/
theorem length_lt_of_mem_missingPaths {o p : String} {segments : List String} {path q : String}
    (h : q ∈ missingPaths db o p segments path) : path.length < q.length := by
  induction segments generalizing path with
  | nil => simp [missingPaths] at h
  | cons segment segments ih =>
    have hlonger : path.length < (path ++ "/" ++ segment).length := by
      simp only [String.length_append]
      have : "/".length = 1 := rfl
      omega
    rw [missingPaths] at h
    split at h
    · exact hlonger.trans (ih h)
    · rcases List.mem_cons.mp h with rfl | h
      · exact hlonger
      · exact hlonger.trans (ih h)

/-- A walk misses no path twice. -/
theorem nodup_missingPaths {o p : String} (segments : List String) (path : String) :
    (missingPaths db o p segments path).Nodup := by
  induction segments generalizing path with
  | nil => exact List.nodup_nil
  | cons segment segments ih =>
    rw [missingPaths]
    split
    · exact ih _
    · refine List.nodup_cons.mpr ⟨fun h => ?_, ih _⟩
      exact lt_irrefl _ (length_lt_of_mem_missingPaths h)

/-- **What a walk creates**: folders with the paths it misses, placed one after the other
among the folders it builds on. -/
theorem resolvePath_spec {segments : List String} {draw : ℕ} {path : String}
    {last leaf : Option Folder} {writes : List DbWrite} (above : Option Folder)
    (known : List Folder)
    (h : resolvePath ctx env db projectId segments draw path last = .ok (leaf, writes))
    (hsegments : ∀ segment ∈ segments, '/' ∉ segment.toList)
    (hroot : last = none → path = "")
    (hlast : ∀ f, last = some f → f.path = path ∧ f.ActiveIn ctx.organizationId projectId
      ∧ (above = some f ∨ f ∈ known))
    (hknown : ∀ a ∈ anchors db ctx.organizationId projectId segments path above, a ∈ known) :
    ∃ rows : List Folder, writes = rows.map (Write.insert Table.folders)
      ∧ rows.map Folder.path = missingPaths db ctx.organizationId projectId segments path
      ∧ Grows ctx.organizationId projectId known rows := by
  induction segments generalizing draw path last leaf writes above known with
  | nil =>
    simp only [resolvePath, pure_eq_ok, Prod.mk.injEq] at h
    obtain ⟨-, rfl⟩ := h
    exact ⟨[], rfl, rfl, .nil⟩
  | cons segment segments ih =>
    have hrest : ∀ s ∈ segments, '/' ∉ s.toList := fun s hs =>
      hsegments s (List.mem_cons_of_mem _ hs)
    simp only [resolvePath, bind_eq_ok] at h
    obtain ⟨existing, hfound, h⟩ := h
    cases existing with
    | some existing =>
      -- the segment is there: nothing is created, and the walk goes on from it
      obtain ⟨-, hpath, hactive⟩ := FolderRepository.of_getByPath hfound
      simp only [anchors, hfound] at hknown
      simp only [missingPaths, hfound]
      refine ih (some existing) known h hrest (by simp) (fun f hf => ?_) hknown
      obtain rfl := Option.some.inj hf
      exact ⟨hpath, hactive, Or.inl rfl⟩
    | none =>
      -- the segment is missing: its folder goes under the last one
      simp only [bind_eq_ok, pure_eq_ok, Prod.mk.injEq] at h
      obtain ⟨⟨leaf', writes'⟩, hrec, -, rfl⟩ := h
      simp only [anchors, hfound] at hknown
      set row := folderRow ctx env projectId draw segment (path ++ "/" ++ segment)
        (last.map Folder.id) with hrow
      have hplaced : Placed ctx.organizationId projectId known row := by
        refine ⟨⟨rfl, rfl, rfl⟩, hsegments segment List.mem_cons_self, ?_⟩
        cases hl : last with
        | none =>
          refine Or.inl ⟨by simp [hrow, folderRow, hl], ?_⟩
          simp only [hrow, folderRow, hroot hl, String.empty_append]
        | some f =>
          obtain ⟨hpath, hactive, hmem⟩ := hlast f hl
          have hf : f ∈ known := by
            rcases hmem with habove | hmem
            · exact hknown f (List.mem_append_left _ (by simp [habove]))
            · exact hmem
          refine Or.inr ⟨f, hf, ?_, ?_, ?_, ?_⟩
          · simp [hrow, folderRow, hl]
          · exact hactive.organizationId_eq.symm
          · exact hactive.projectId_eq.symm
          · simp only [hrow, folderRow, hpath]
      -- the new folder is known from here on
      obtain ⟨rows, rfl, hpaths, hgrows⟩ := ih none (known ++ [row]) hrec hrest
        (by simp)
        (fun f hf => by
          obtain rfl := Option.some.inj hf
          exact ⟨rfl, ⟨rfl, rfl, rfl⟩, Or.inr (List.mem_append_right _ List.mem_cons_self)⟩)
        (fun a ha => List.mem_append_left _ (hknown a (List.mem_append_right _ ha)))
      refine ⟨row :: rows, rfl, ?_, .cons hplaced hgrows⟩
      simp only [missingPaths, hfound, List.map_cons, hpaths]
      rfl

end Walk

/-! ### Operations -/

/-- The segments `ensure_path` walks. -/
def pathSegments (path : String) : List String := Text.split '/' (Text.stripChar '/' path)

/-- The path an operation walks. -/
def Operation.folderPath : Operation → Option String
  | ensureFolderPath req => some req.path
  | createUploadToken req => req.folderPath
  | _ => none

section Operations

variable (ctx : TenantContext) (env : Env) (db : Database) (projectId : String)

/-- The active folders an operation puts new ones under: the parent of `create_folder`, and
what the walk of a path builds on. -/
def Operation.anchors (op : Operation) : List Folder :=
  match op, op.folderPath with
  | createFolder req, _ =>
      match req.parentFolderId.map fun parentId =>
        FolderRepository.get db parentId ctx.organizationId projectId with
      | some (.ok parent) => [parent]
      | _ => []
  | _, some path =>
      FileNest.anchors db ctx.organizationId projectId (pathSegments path) "" none
  | _, none => []

/-- The paths of the folders an operation is about to create. -/
def Operation.newPaths (op : Operation) : List String :=
  match op, op.folderPath with
  | createFolder req, _ => (FolderService.newFolderPath ctx db projectId req).toOption.toList
  | _, some path => missingPaths db ctx.organizationId projectId (pathSegments path) ""
  | _, none => []

/-- The ways an operation touches folders, given the database it read. -/
inductive FolderEffect : Operation → List DbWrite → Prop
  /-- No folder is touched. -/
  | none {op : Operation} {ws : List DbWrite} (hop : op.newPaths ctx db projectId = [])
      (hws : ∀ w ∈ ws, w.table ≠ .folders) : FolderEffect op ws
  /-- Folders are created, one after the other. -/
  | create {op : Operation} {rows : List Folder} {rest : List DbWrite}
      (hgrows : Grows ctx.organizationId projectId (op.anchors ctx db projectId) rows)
      (hpaths : rows.map Folder.path = op.newPaths ctx db projectId)
      (hrest : ∀ w ∈ rest, w.table ≠ .folders) :
      FolderEffect op (rows.map (Write.insert Table.folders) ++ rest)
  /-- An empty folder is deleted. -/
  | delete {folderId : String} {record : Folder}
      (hget : FolderRepository.get db folderId ctx.organizationId projectId = .ok record)
      (hsubfolders : FolderRepository.hasSubfolders db folderId ctx.organizationId projectId
        = false)
      (hfiles : FolderRepository.hasFiles db folderId ctx.organizationId projectId = false) :
      FolderEffect (.deleteFolder folderId)
        [record.save (FolderRepository.softDelete record env.now)]

end Operations

section Operations

variable {ctx : TenantContext} {env : Env} {db : Database} {projectId : String}
  {op : Operation} {r : Response} {ws : List DbWrite}

/-- What an operation builds on are active folders of its project. -/
theorem Operation.anchors_found {a : Folder} (h : a ∈ op.anchors ctx db projectId) :
    a ∈ db .folders ∧ a.ActiveIn ctx.organizationId projectId := by
  simp only [anchors] at h
  split at h
  · split at h
    · rename_i req _ parent hget
      obtain ⟨parentId, -, hget⟩ := Option.map_eq_some_iff.mp hget
      obtain ⟨hmem, -, ho, hp, hactive⟩ := FolderRepository.of_get hget
      rw [List.mem_singleton.mp h]
      exact ⟨hmem, ho, hp, hactive⟩
    · cases h
  · rcases mem_anchors h with heq | hfound
    · cases heq
    · exact hfound
  · cases h

/-- An operation creates no path twice. -/
theorem Operation.nodup_newPaths : (op.newPaths ctx db projectId).Nodup := by
  simp only [newPaths]
  split
  · cases (FolderService.newFolderPath ctx db projectId _).toOption with
    | none => exact List.nodup_nil
    | some path => exact List.nodup_singleton path
  · exact nodup_missingPaths _ _
  · exact List.nodup_nil

/-- An operation that leaves the table of folders alone. -/
theorem Sound.folderEffect {o p : String} {ts : List Table} (h : Sound o p ts db ws)
    (hop : op.newPaths ctx db projectId = []) (hts : Table.folders ∉ ts) :
    FolderEffect ctx env db projectId op ws :=
  .none hop fun w hw htable => hts (htable ▸ h.tables w hw)

theorem FolderService.createFolder_folderEffect {req : FolderCreateRequest}
    (h : createFolder ctx env db projectId req = .ok (r, ws)) :
    FolderEffect ctx env db projectId (.createFolder req) ws := by
  simp only [createFolder, bind_eq_ok, pure_eq_ok, Prod.mk.injEq] at h
  obtain ⟨path, hpath, -, rfl⟩ := h
  have hnew : (Operation.createFolder req).newPaths ctx db projectId = [path] := by
    simp only [Operation.newPaths, hpath]
    rfl
  refine @FolderEffect.create ctx env db projectId _ [_] [] (.cons ?_ .nil) hnew.symm (by simp)
  refine ⟨⟨rfl, rfl, rfl⟩, req.name_no_slash, ?_⟩
  simp only [newFolderPath] at hpath
  split at hpath
  · rename_i parentId hparent
    simp only [bind_eq_ok, pure_eq_ok] at hpath
    obtain ⟨parent, hget, rfl⟩ := hpath
    obtain ⟨-, hid, ho, hp, -⟩ := FolderRepository.of_get hget
    refine Or.inr ⟨parent, ?_, ?_, ho.symm, hp.symm, rfl⟩
    · simp [Operation.anchors, hparent, hget]
    · simp only [folderRow, hparent, hid]
  · rename_i hparent
    obtain rfl := pure_eq_ok.mp hpath
    exact Or.inl ⟨by simp only [folderRow, hparent], rfl⟩

/-- The walk of an operation. -/
theorem resolvePath_folderEffect {path : String} {draw : ℕ} {leaf : Option Folder}
    {writes rest : List DbWrite} (hpath : op.folderPath = some path)
    (h : resolvePath ctx env db projectId (pathSegments path) draw "" none = .ok (leaf, writes))
    (hrest : ∀ w ∈ rest, w.table ≠ .folders) :
    FolderEffect ctx env db projectId op (writes ++ rest) := by
  have hop : op.anchors ctx db projectId
      = FileNest.anchors db ctx.organizationId projectId (pathSegments path) "" none
      ∧ op.newPaths ctx db projectId
      = missingPaths db ctx.organizationId projectId (pathSegments path) "" := by
    cases op with
    | ensureFolderPath req =>
      obtain rfl := Option.some.inj hpath
      exact ⟨rfl, rfl⟩
    | createUploadToken req =>
      have hreq : req.folderPath = some path := hpath
      simp only [Operation.anchors, Operation.newPaths, Operation.folderPath, hreq, and_self]
    | _ => cases hpath
  obtain ⟨rows, rfl, hpaths, hgrows⟩ := resolvePath_spec none
    (op.anchors ctx db projectId) h
    (fun s hs => Text.notMem_of_mem_split hs) (fun _ => rfl) (by simp) (by simp [hop.1])
  exact .create hgrows (hpaths.trans hop.2.symm) hrest

theorem FolderService.ensurePath_folderEffect {req : EnsurePathRequest}
    (h : ensurePath ctx env db projectId req = .ok (r, ws)) :
    FolderEffect ctx env db projectId (.ensureFolderPath req) ws := by
  simp only [ensurePath, bind_eq_ok] at h
  obtain ⟨⟨leaf, writes⟩, hwalk, h⟩ := h
  cases leaf with
  | none => simp at h
  | some record =>
    simp only [pure_eq_ok, Prod.mk.injEq] at h
    obtain ⟨-, rfl⟩ := h
    rw [← List.append_nil writes]
    exact resolvePath_folderEffect rfl hwalk (by simp)

theorem UploadTokenService.create_folderEffect {req : CreateUploadTokenRequest}
    (h : create ctx env db projectId req = .ok (r, ws)) :
    FolderEffect ctx env db projectId (.createUploadToken req) ws := by
  simp only [create, bind_eq_ok, pure_eq_ok, Prod.mk.injEq] at h
  obtain ⟨config, -, -, -, ⟨folderId, folderWrites⟩, hfolder, -, rfl⟩ := h
  have hrest : ∀ (token : UploadToken), ∀ w ∈ [Write.insert .uploadTokens token,
      UploadTokenRepository.deleteExpired ctx.organizationId projectId env.pruneNow],
      w.table ≠ .folders := by
    intro token w hw
    simp only [List.mem_cons, List.not_mem_nil, or_false] at hw
    rcases hw with rfl | rfl <;> simp [UploadTokenRepository.deleteExpired]
  -- the folder path of a token is walked as `ensure_path` walks one
  simp only [resolveTokenFolder] at hfolder
  split at hfolder
  · rename_i path hpath
    simp only [bind_eq_ok, pure_eq_ok, Prod.mk.injEq] at hfolder
    obtain ⟨⟨leaf, writes⟩, hwalk, -, rfl⟩ := hfolder
    exact resolvePath_folderEffect hpath hwalk (hrest _)
  · rename_i hpath
    simp only [pure_eq_ok, Prod.mk.injEq] at hfolder
    obtain ⟨-, rfl⟩ := hfolder
    have hop : (Operation.createUploadToken req).newPaths ctx db projectId = [] := by
      simp only [Operation.newPaths, Operation.folderPath, hpath]
    rw [List.nil_append]
    exact .none hop (hrest _)

theorem FolderService.deleteFolder_folderEffect {folderId : String}
    (h : deleteFolder ctx env db projectId folderId = .ok (r, ws)) :
    FolderEffect ctx env db projectId (.deleteFolder folderId) ws := by
  simp only [deleteFolder] at h
  split at h
  · simp at h
  · rename_i hsubfolders
    split at h
    · simp at h
    · rename_i hfiles
      simp only [bind_eq_ok, pure_eq_ok, Prod.mk.injEq] at h
      obtain ⟨record, hget, -, rfl⟩ := h
      exact .delete hget (by simpa using hsubfolders) (by simpa using hfiles)

/-- **Every operation has one of the shapes.** -/
theorem Operation.folderEffect (hdb : db.Good)
    (h : op.run ctx env db projectId = .ok (r, ws)) :
    FolderEffect ctx env db projectId op ws := by
  have hsound := Operation.sound hdb h
  cases op with
  | createFolder req => exact FolderService.createFolder_folderEffect h
  | ensureFolderPath req => exact FolderService.ensurePath_folderEffect h
  | createUploadToken req => exact UploadTokenService.create_folderEffect h
  | deleteFolder folderId => exact FolderService.deleteFolder_folderEffect h
  -- the rest writes no folder
  | _ => exact hsound.folderEffect rfl (by simp [tables])

end Operations

/-! ### The table after a commit -/

theorem applyAll_insert_folders (rows : List Folder) {rest : List DbWrite}
    (hrest : ∀ w ∈ rest, w.table ≠ .folders) (db : Database) :
    applyAll (rows.map (Write.insert Table.folders) ++ rest) db .folders
      = db .folders ++ rows := by
  induction rows generalizing db with
  | nil =>
    rw [List.map_nil, List.nil_append, applyAll_of_table_ne hrest, List.append_nil]
  | cons row rows ih =>
    rw [List.map_cons, List.cons_append, applyAll_cons, ih, apply_insert_self, List.append_assoc]
    rfl

theorem applyAll_save_folder (record new : Folder) (db : Database) :
    applyAll [record.save new] db .folders = (db .folders).map fun (f : Folder) =>
      if f.id = record.id then (record.flush new).toFun f else f := by
  rw [applyAll_cons, applyAll_nil, Folder.save, apply_update_self]
  rfl

/-- Saving a folder leaves it the same folder. -/
theorem same_flush (record new f : Folder) : Folder.Same ((record.flush new).toFun f) f :=
  ⟨rfl, rfl, rfl, rfl, rfl, rfl⟩

/-- The folders that are active after one has been deleted. -/
theorem active_of_delete {ctx : TenantContext} {snapshot db : Database}
    {projectId folderId : String}
    {record f : Folder} {now : ℕ} {o p : String}
    (hget : FolderRepository.get snapshot folderId ctx.organizationId projectId = .ok record)
    (hf : f ∈ applyAll [record.save (FolderRepository.softDelete record now)] db .folders)
    (hactive : f.ActiveIn o p) : f ∈ db .folders ∧ f.id ≠ record.id := by
  obtain ⟨-, -, -, -, hread⟩ := FolderRepository.of_get hget
  rw [applyAll_save_folder] at hf
  obtain ⟨g, hg, rfl⟩ := List.mem_map.mp hf
  split at hactive
  · -- the row has been deleted
    have hdeleted := hactive.deletedAt_eq
    simp [Folder.flush, FolderRepository.softDelete, flushColumn, hread] at hdeleted
  · rename_i hid
    rw [if_neg hid]
    exact ⟨hg, hid⟩

/-- Every folder of one database is in the other. -/
def KeepsFolders (db db' : Database) : Prop :=
  ∀ f ∈ db .folders, ∃ f' ∈ db' .folders, Folder.Same f' f

theorem KeepsFolders.refl (db : Database) : KeepsFolders db db :=
  fun f hf => ⟨f, hf, .refl f⟩

theorem KeepsFolders.trans {db db' db'' : Database} (h : KeepsFolders db db')
    (h' : KeepsFolders db' db'') : KeepsFolders db db'' := by
  intro f hf
  obtain ⟨f', hf', hsame⟩ := h f hf
  obtain ⟨f'', hf'', hsame'⟩ := h' f' hf'
  exact ⟨f'', hf'', hsame'.trans hsame⟩

/-- No commit loses a folder. -/
theorem FolderEffect.keepsFolders {ctx : TenantContext} {env : Env} {snapshot : Database}
    {projectId : String} {op : Operation} {ws : List DbWrite}
    (h : FolderEffect ctx env snapshot projectId op ws) (db : Database) :
    KeepsFolders db (applyAll ws db) := by
  intro f hf
  cases h with
  | none hop hws =>
    rw [applyAll_of_table_ne hws]
    exact ⟨f, hf, .refl f⟩
  | create hgrows hpaths hrest =>
    rw [applyAll_insert_folders _ hrest]
    exact ⟨f, List.mem_append_left _ hf, .refl f⟩
  | delete hget hsubfolders hfiles =>
    rename_i folderId record
    rw [applyAll_save_folder]
    refine ⟨_, List.mem_map_of_mem hf, ?_⟩
    split
    · exact same_flush record _ f
    · exact .refl f

/-! ### Values to compute with -/

theorem devPath_segments : ∀ segment ∈ Text.split '/' "a/b", Text.strip segment ≠ "" := by decide

/-- A path of two folders. -/
def devPath : EnsurePathRequest := ⟨"a/b", devPath_segments⟩

end FileNest
