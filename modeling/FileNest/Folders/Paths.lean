import FileNest.Folders.Effects
import FileNest.Versioning

/-!
# Unique folder paths

Lookups by path expect at most one active folder.  Nothing in the database says so, and
`create_folder` does not look; `ensure_path` and the upload tokens look, but what they
found missing may be there when they commit.  Paths stay unique exactly as long as every
path a transaction creates is free when it commits.

## Main definitions

* `UniquePaths` — no two active folders of a project have the same path.
* `NeverMultiple` — no lookup by path meets more than one folder.
* `PathsFree` — the paths a call creates are free in the database it commits to.

## Main results

* `uniquePaths_commit_iff` — what one commit does.
* `folder_paths_unique` — **commits to free paths keep paths unique.**
* `folder_path_taken` — a folder created twice.
-/

namespace FileNest

open RowStore ReadCommitted

/-- No two active folders of a project have the same path. -/
def UniquePaths (db : Database) : Prop :=
  ∀ f ∈ db .folders, ∀ g ∈ db .folders, ∀ o p, Folder.ActiveIn o p f → Folder.ActiveIn o p g →
    Folder.path f = Folder.path g → f = g

/-- What `scalar_one_or_none` raises on more than one row. -/
def multipleResultsFound : ApiError :=
  .unhandled "Multiple rows were found when one or none was required"

/-- Neither `get_by_path` nor `ensure_path` meets more than one folder. -/
def NeverMultiple (db : Database) : Prop :=
  ∀ ctx projectId,
    (∀ path, FolderService.getByPath ctx db projectId path ≠ .error multipleResultsFound)
      ∧ ∀ env req, FolderService.ensurePath ctx env db projectId req ≠ .error multipleResultsFound

/-- An active folder of the project has the path. -/
def PathTaken (db : Database) (o p path : String) : Prop :=
  ∃ f ∈ db .folders, Folder.ActiveIn o p f ∧ Folder.path f = path

instance (db : Database) (o p path : String) : Decidable (PathTaken db o p path) :=
  inferInstanceAs (Decidable (∃ f ∈ db .folders, Folder.ActiveIn o p f ∧ Folder.path f = path))

/-- The paths a call creates are free in the database it commits to. -/
def PathsFree : Guard Table.Row ServiceCall := fun db c snapshot =>
  ∀ path ∈ c.op.newPaths c.ctx snapshot c.projectId,
    ¬PathTaken db c.ctx.organizationId c.projectId path

instance (db : Database) (c : ServiceCall) (snapshot : Database) :
    Decidable (PathsFree db c snapshot) :=
  inferInstanceAs (Decidable (∀ path ∈ c.op.newPaths c.ctx snapshot c.projectId,
    ¬PathTaken db c.ctx.organizationId c.projectId path))

/-! ### Lookups -/

section Lookups

variable {db : Database}

theorem scalarOneOrNone_ok {α : Type} {rows : List α} (h : rows.length ≤ 1) :
    ∃ r, scalarOneOrNone rows = .ok r := by
  match rows, h with
  | [], _ => exact ⟨none, rfl⟩
  | [r], _ => exact ⟨some r, rfl⟩

/-- Where paths are unique, every lookup answers. -/
theorem UniquePaths.getByPath_ok (hdb : db.Good) (h : UniquePaths db) (path o p : String) :
    ∃ r, FolderRepository.getByPath db path o p = .ok r := by
  have hrow : ∀ f ∈ (db .folders).filter fun (r : Folder) => r.path == path
      && r.organizationId == o && r.projectId == p && r.deletedAt.isNone,
      f ∈ db .folders ∧ f.path = path ∧ f.ActiveIn o p := by
    intro f hf
    have := List.mem_filter.mp hf
    simp only [Bool.and_eq_true, beq_iff_eq, Option.isNone_iff_eq_none] at this
    exact ⟨this.1, this.2.1.1.1, this.2.1.1.2, this.2.1.2, this.2.2⟩
  refine scalarOneOrNone_ok (Sql.length_le_one ?_ fun f hf g hg => ?_)
  · exact (List.Nodup.of_map pk (hdb.uniquePk .folders)).filter _
  · -- two rows of one path are one row
    obtain ⟨hfmem, hfp, hfa⟩ := hrow f hf
    obtain ⟨hgmem, hgp, hga⟩ := hrow g hg
    exact h f hfmem g hgmem o p hfa hga (hfp.trans hgp.symm)

/-- Then a walk comes to its end. -/
theorem UniquePaths.resolvePath_ok (hdb : db.Good) (h : UniquePaths db) (ctx : TenantContext)
    (env : Env) (projectId : String) (segments : List String) (draw : ℕ) (path : String)
    (last : Option Folder) :
    ∃ x, resolvePath ctx env db projectId segments draw path last = .ok x := by
  induction segments generalizing draw path last with
  | nil => exact ⟨_, rfl⟩
  | cons segment segments ih =>
    obtain ⟨existing, hfound⟩ :=
      h.getByPath_ok hdb (path ++ "/" ++ segment) ctx.organizationId projectId
    cases existing with
    | some existing =>
      obtain ⟨x, hrec⟩ := ih draw (path ++ "/" ++ segment) (some existing)
      exact ⟨x, bind_eq_ok.mpr ⟨_, hfound, hrec⟩⟩
    | none =>
      obtain ⟨⟨leaf, writes⟩, hrec⟩ := ih (draw + 1) (path ++ "/" ++ segment)
        (some (folderRow ctx env projectId draw segment (path ++ "/" ++ segment)
          (last.map Folder.id)))
      exact ⟨_, bind_eq_ok.mpr ⟨_, hfound, bind_eq_ok.mpr ⟨_, hrec, rfl⟩⟩⟩

theorem UniquePaths.neverMultiple (hdb : db.Good) (h : UniquePaths db) : NeverMultiple db := by
  intro ctx projectId
  constructor
  · intro path herror
    obtain ⟨found, hfound⟩ := h.getByPath_ok hdb ("/" ++ Text.stripChar '/' path)
      ctx.organizationId projectId
    simp only [FolderService.getByPath, hfound] at herror
    cases found with
    | none => cases herror
    | some record => cases herror
  · intro env req herror
    obtain ⟨⟨leaf, writes⟩, hwalk⟩ := h.resolvePath_ok hdb ctx env projectId
      (Text.split '/' (Text.stripChar '/' req.path)) 0 "" none
    simp only [FolderService.ensurePath, hwalk] at herror
    cases leaf with
    -- a walk of no segments fails, though not for too many rows
    | none =>
      have hne : ApiError.unhandled "'NoneType' object has no attribute 'id'"
          ≠ multipleResultsFound := by decide
      exact hne (Except.error.inj herror)
    | some record => cases herror

end Lookups

/-! ### Commits -/

section Commits

variable {ctx : TenantContext} {env : Env} {snapshot db : Database} {projectId : String}
  {op : Operation} {ws : List DbWrite}

/-- **One commit keeps paths unique exactly if the paths it creates are free.** -/
theorem uniquePaths_commit_iff (hdb : db.Good) (h : UniquePaths db) (hadm : Admissible ws db)
    (heffect : FolderEffect ctx env snapshot projectId op ws) :
    UniquePaths (applyAll ws db) ↔ ∀ path ∈ op.newPaths ctx snapshot projectId,
      ¬PathTaken db ctx.organizationId projectId path := by
  have hunique := uniquePk_applyAll hdb.uniquePk hadm .folders
  cases heffect with
  | none hop hws =>
    rw [hop, UniquePaths, applyAll_of_table_ne hws]
    exact ⟨fun _ path hpath => absurd hpath List.not_mem_nil, fun _ => h⟩
  | create hgrows hpaths hrest =>
    rename_i rows rest
    rw [applyAll_insert_folders rows hrest, List.map_append] at hunique
    rw [UniquePaths, applyAll_insert_folders rows hrest, ← hpaths]
    have hactive : ∀ row ∈ rows, Folder.ActiveIn ctx.organizationId projectId row := fun row hrow =>
      (hgrows.placed row hrow).active
    have hnodup : (rows.map Folder.path).Nodup := hpaths ▸ Operation.nodup_newPaths
    constructor
    · rintro hnew path hpath ⟨f, hf, hfa, rfl⟩
      obtain ⟨row, hrow, heq⟩ := List.mem_map.mp hpath
      have hsame := hnew f (List.mem_append_left _ hf) row (List.mem_append_right _ hrow) _ _ hfa
        (hactive row hrow) heq.symm
      -- the new row would be the old one, though its key was free
      exact (List.nodup_append.mp hunique).2.2 _ (List.mem_map_of_mem hf) _
        (List.mem_map_of_mem hrow) (congrArg pk hsame)
    · intro hfree
      have hclash : ∀ f ∈ db .folders, ∀ row ∈ rows, ∀ o p, Folder.ActiveIn o p f →
          Folder.ActiveIn o p row → Folder.path f ≠ row.path := by
        intro f hf row hrow o p hfa hra heq
        have hr := hactive row hrow
        rw [← hra.organizationId_eq, hr.organizationId_eq, ← hra.projectId_eq,
          hr.projectId_eq] at hfa
        exact hfree row.path (List.mem_map_of_mem hrow) ⟨f, hf, hfa, heq⟩
      intro f hf g hg o p hfa hga heq
      rcases List.mem_append.mp hf with hf | hf <;> rcases List.mem_append.mp hg with hg | hg
      · exact h f hf g hg o p hfa hga heq
      · exact absurd heq (hclash f hf g hg o p hfa hga)
      · exact absurd heq.symm (hclash g hg f hf o p hga hfa)
      · exact List.inj_on_of_nodup_map hnodup hf hg heq
  | delete hget hsubfolders hfiles =>
    refine ⟨fun _ path hpath => absurd hpath List.not_mem_nil, fun _ => ?_⟩
    intro f hf g hg o p hfa hga heq
    exact h f (active_of_delete hget hf hfa).1 g (active_of_delete hget hg hga).1 o p hfa hga heq

end Commits

/-- **Commits to free paths keep paths unique**: in every run in which the paths a
transaction creates are free when it commits, no two active folders of a project ever have
the same path, and no lookup meets more than one folder. -/
theorem folder_paths_unique {w : World Table.Row ServiceCall}
    (hw : Reachable ServiceCall.writes PathsFree (· = Database.empty) w) :
    UniquePaths w.store ∧ NeverMultiple w.store := by
  have hinv : Database.Good w.store ∧ UniquePaths w.store := by
    refine ServiceCall.invariant (R := fun _ _ => True) ?_ (fun _ => trivial) ?_ hw
    · exact fun f hf => by simp [Database.empty] at hf
    · intro db snapshot c r ws hdb hsnap _ _ hunique hr hadm hfree
      have heffect := Operation.folderEffect hsnap hr
      exact ⟨(uniquePaths_commit_iff hdb hunique hadm heffect).mpr hfree, fun _ _ => trivial⟩
  exact ⟨hinv.2, hinv.2.neverMultiple hinv.1⟩

/-- A project, and the folders of a path in it. -/
def pathCalls : List ServiceCall :=
  [⟨orgContext "acme", devEnv "p" 1, "", .createProject devProject⟩,
   ⟨orgContext "acme", devEnv "e" 2, "p0", .ensureFolderPath devPath⟩]

/-- The creation of its first folder. -/
def createAgain : ServiceCall :=
  ⟨orgContext "acme", devEnv "d" 3, "p0", .createFolder { name := "a" }⟩

/-- The paths of a project, created one after the other. -/
theorem folder_paths_unique_created :
    let db := runAll pathCalls Database.empty
    (∃ f ∈ db .folders, Folder.path f = "/a/b") ∧ UniquePaths db ∧ NeverMultiple db := by
  refine ⟨by decide, ?_⟩
  have hcalls : AllowedRun PathsFree pathCalls Database.empty := by decide
  exact folder_paths_unique (hcalls.reachable (.init rfl))

/-- A folder created at a path that is taken: no lookup of the path answers any more. -/
theorem folder_path_taken :
    ¬∀ w : World Table.Row ServiceCall,
      Reachable ServiceCall.writes .always (· = Database.empty) w →
        UniquePaths w.store ∧ NeverMultiple w.store := by
  intro h
  have hrun := reachable_runAll .always (fun _ _ => trivial) (pathCalls ++ [createAgain])
    (.init rfl)
  have hlookup := ((h _ hrun).2 (orgContext "acme") "p0").1 "a"
  exact hlookup rfl

end FileNest
