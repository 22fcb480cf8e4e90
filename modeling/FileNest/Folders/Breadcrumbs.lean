import FileNest.Folders.Effects
import FileNest.Lib.Forest
import FileNest.Versioning

/-!
# Breadcrumbs

The path of a folder is stored with it.  `create_folder` builds it from the parent,
`ensure_path` and the upload tokens from the prefix they have walked; all three leave the
folder at the root or under a folder on record, with a name that has no slash.  Since
paths grow along the links, the links form a forest and the path spells out the names
from the root down.

## Main definitions

* `Breadcrumbs` — the folders from a root down to a folder.
* `WellPlaced` — every folder is at the root or under a folder on record.
* `Spelled` — what a folder's path says about its breadcrumbs.

## Main results

* `breadcrumbs_spelled` — **the path of every folder is its breadcrumbs.**
-/

namespace FileNest

open RowStore ReadCommitted Forest

/-- The folders from a root down to a folder, along `parent_folder_id`. -/
abbrev Breadcrumbs (db : Database) : Folder → List Folder → Prop :=
  Chain Folder.id Folder.parentFolderId (db .folders)

/-- A slash and the name of each folder, one after the other. -/
def breadcrumbPath (chain : List Folder) : String :=
  chain.foldl (fun path (f : Folder) => path ++ "/" ++ f.name) ""

/-- Every folder is at the root or under a folder on record, with a name without slashes. -/
def WellPlaced (db : Database) : Prop :=
  ∀ f ∈ db .folders, '/' ∉ (Folder.name f).toList ∧
    (Folder.AtRoot f ∨ ∃ parent ∈ db .folders, Folder.Under f parent)

section Invariant

variable {ctx : TenantContext} {env : Env} {snapshot db : Database} {projectId : String}
  {op : Operation} {ws : List DbWrite}

/-- A folder that stays the same stays well placed while no folder is lost. -/
theorem WellPlaced.of_same {db' : Database} (h : WellPlaced db) (hkeeps : KeepsFolders db db')
    {f f' : Folder} (hf : f ∈ db .folders) (hsame : Folder.Same f' f) :
    '/' ∉ f'.name.toList ∧ (f'.AtRoot ∨ ∃ parent ∈ db' .folders, f'.Under parent) := by
  obtain ⟨hname, hplace⟩ := h f hf
  refine ⟨by rwa [hsame.name_eq], ?_⟩
  rcases hplace with hroot | ⟨parent, hparent, hunder⟩
  · exact Or.inl (hroot.congr hsame)
  · obtain ⟨parent', hparent', hsame'⟩ := hkeeps parent hparent
    exact Or.inr ⟨parent', hparent', hunder.congr hsame hsame'⟩

/-- A commit keeps folders well placed, whatever has been committed since it read. -/
theorem WellPlaced.commit (h : WellPlaced db) (hkeeps : KeepsFolders snapshot db)
    (heffect : FolderEffect ctx env snapshot projectId op ws) : WellPlaced (applyAll ws db) := by
  have hlater := heffect.keepsFolders db
  intro f hf
  cases heffect with
  | none hop hws =>
    rw [applyAll_of_table_ne hws] at hf
    exact h.of_same hlater hf (.refl f)
  | create hgrows hpaths hrest =>
    rename_i rows rest
    rw [applyAll_insert_folders rows hrest] at hf ⊢
    rcases List.mem_append.mp hf with hold | hnew
    · rw [← applyAll_insert_folders rows hrest]
      exact h.of_same hlater hold (.refl f)
    · have hplaced := hgrows.placed f hnew
      refine ⟨hplaced.name_no_slash, ?_⟩
      rcases hplaced.place with hroot | ⟨parent, hparent, hunder⟩
      · exact Or.inl hroot
      · rcases List.mem_append.mp hparent with hanchor | hrow
        · -- the parent was read, and is still on record
          obtain ⟨parent', hparent', hsame⟩ := hkeeps parent (Operation.anchors_found hanchor).1
          exact Or.inr ⟨parent', List.mem_append_left _ hparent', hunder.congr (.refl f) hsame⟩
        · exact Or.inr ⟨parent, List.mem_append_right _ hrow, hunder⟩
  | delete hget hsubfolders hfiles =>
    rename_i folderId record
    rw [applyAll_save_folder] at hf
    obtain ⟨g, hg, rfl⟩ := List.mem_map.mp hf
    refine h.of_same hlater hg ?_
    split
    · exact same_flush record _ g
    · exact .refl g

/-- What every reachable database has in common as far as folders go. -/
theorem wellPlaced_reachable {w : World Table.Row ServiceCall}
    (hw : Reachable ServiceCall.writes .always (· = Database.empty) w) :
    Database.Good w.store ∧ WellPlaced w.store := by
  refine ServiceCall.invariant ?_ KeepsFolders.refl ?_ hw
  · exact fun f hf => by simp [Database.empty] at hf
  · intro db snapshot c r ws _ hsnap _ hfolders hplaced hr _ _
    have heffect := Operation.folderEffect hsnap hr
    exact ⟨hplaced.commit hfolders heffect, fun snap hsnapfolders =>
      hsnapfolders.trans (heffect.keepsFolders db)⟩

end Invariant

section Paths

variable {db : Database} {f : Folder} {chain : List Folder}

/-- Paths grow along the links. -/
theorem WellPlaced.linked (h : WellPlaced db) :
    Linked Folder.id Folder.parentFolderId (db .folders) fun f => f.path.length := by
  intro f hf i hi
  rcases (h f hf).2 with hroot | ⟨parent, hparent, hunder⟩
  · rw [hroot.parentFolderId_eq] at hi
    cases hi
  · rw [hunder.parentFolderId_eq, Option.some.injEq] at hi
    -- a path is longer than its parent's, so no links go round
    refine ⟨parent, hparent, hi, ?_⟩
    have hslash : "/".length = 1 := rfl
    show parent.path.length < f.path.length
    rw [hunder.path_eq, String.length_append, String.length_append]
    omega

theorem keys_nodup (hdb : db.Good) : ((db .folders).map Folder.id).Nodup :=
  hdb.uniquePk .folders

/-- A folder is under the one before it in its breadcrumbs. -/
theorem WellPlaced.under (hdb : db.Good) (h : WellPlaced db) {parent : Folder}
    (hf : f ∈ db .folders) (hparent : parent ∈ db .folders)
    (hlink : f.parentFolderId = some parent.id) : f.Under parent := by
  rcases (h f hf).2 with hroot | ⟨parent', hparent', hunder⟩
  · rw [hroot.parentFolderId_eq] at hlink
    cases hlink
  · have hid : parent'.id = parent.id := by
      rw [hunder.parentFolderId_eq] at hlink
      exact Option.some.inj hlink
    rwa [List.inj_on_of_nodup_map (keys_nodup hdb) hparent' hparent hid] at hunder

/-- Breadcrumbs stay within an organisation and a project. -/
theorem Breadcrumbs.tenant (hdb : db.Good) (h : WellPlaced db) (hchain : Breadcrumbs db f chain) :
    ∀ g ∈ chain, g.organizationId = f.organizationId ∧ g.projectId = f.projectId := by
  induction hchain with
  | root _ _ =>
    intro g hg
    rw [List.mem_singleton.mp hg]
    exact ⟨rfl, rfl⟩
  | child hf hlink hchain ih =>
    have hunder := h.under hdb hf hchain.mem_nodes hlink
    intro g hg
    rcases List.mem_append.mp hg with hg | hg
    · exact ⟨(ih g hg).1.trans hunder.organizationId_eq.symm,
        (ih g hg).2.trans hunder.projectId_eq.symm⟩
    · rw [List.mem_singleton.mp hg]
      exact ⟨rfl, rfl⟩

/-- The path spells out the breadcrumbs. -/
theorem Breadcrumbs.path_eq (hdb : db.Good) (h : WellPlaced db) (hchain : Breadcrumbs db f chain) :
    f.path = breadcrumbPath chain := by
  induction hchain with
  | root hf hlink =>
    rcases (h _ hf).2 with hroot | ⟨parent, -, hunder⟩
    · rw [hroot.path_eq]
      simp only [breadcrumbPath, List.foldl_cons, List.foldl_nil, String.empty_append]
    · rw [hunder.parentFolderId_eq] at hlink
      cases hlink
  | child hf hlink hchain ih =>
    rw [(h.under hdb hf hchain.mem_nodes hlink).path_eq, ih]
    simp only [breadcrumbPath, List.foldl_append, List.foldl_cons, List.foldl_nil]

/-- Names without slashes can be read off a path again. -/
theorem split_foldl (hnames : ∀ g ∈ chain, '/' ∉ (Folder.name g).toList) (path : String) :
    Text.split '/' (chain.foldl (fun path (f : Folder) => path ++ "/" ++ f.name) path)
      = Text.split '/' path ++ chain.map Folder.name := by
  induction chain generalizing path with
  | nil => rw [List.foldl_nil, List.map_nil, List.append_nil]
  | cons g chain ih =>
    -- the name begins at the last slash
    have hchars : (path ++ "/" ++ g.name).toList = path.toList ++ '/' :: g.name.toList := by simp
    rw [List.foldl_cons, ih fun f hf => hnames f (List.mem_cons_of_mem _ hf),
      Text.split_append_sep hchars (hnames g List.mem_cons_self), List.append_assoc,
      List.map_cons, List.singleton_append]

/-- The breadcrumbs of a folder meet no folder twice and stay within its organisation and
project; its path is made of them, and splitting it gives back their names. -/
structure Spelled (db : Database) (f : Folder) (chain : List Folder) : Prop where
  acyclic : (chain.map Folder.id).Nodup
  tenant : ∀ g ∈ chain, g.organizationId = f.organizationId ∧ g.projectId = f.projectId
  path_eq : f.path = breadcrumbPath chain
  split_eq : Text.split '/' f.path = "" :: chain.map Folder.name

/-- **The path of every folder is its breadcrumbs**: in every reachable state, for every
folder row, the parent links lead to a root, and what they lead through is spelled out in
the path. -/
theorem breadcrumbs_spelled {w : World Table.Row ServiceCall}
    (hw : Reachable ServiceCall.writes .always (· = Database.empty) w) :
    ∀ f ∈ w.store .folders, (∃ chain, Breadcrumbs w.store f chain)
      ∧ ∀ chain, Breadcrumbs w.store f chain → Spelled w.store f chain := by
  obtain ⟨hdb, hplaced⟩ := wellPlaced_reachable hw
  intro f hf
  refine ⟨exists_chain hplaced.linked hf, fun chain hchain => ?_⟩
  have hpath := hchain.path_eq hdb hplaced
  refine ⟨hchain.nodup_keys (keys_nodup hdb) hplaced.linked, hchain.tenant hdb hplaced, hpath, ?_⟩
  rw [hpath]
  exact split_foldl (fun g hg => (hplaced g (hchain.subset_nodes g hg)).1) ""

end Paths

/-- A project with the folders of a path, and one more below them. -/
def folderCalls : List ServiceCall :=
  [⟨orgContext "acme", devEnv "p" 1, "", .createProject devProject⟩,
   ⟨orgContext "acme", devEnv "e" 2, "p0", .ensureFolderPath devPath⟩,
   ⟨orgContext "acme", devEnv "d" 3, "p0",
     .createFolder { name := "c", parentFolderId := some "e1" }⟩]

/-- The breadcrumbs of the last one. -/
theorem breadcrumbs_spelled_created :
    let db := runAll folderCalls Database.empty
    (∃ f ∈ db .folders, Folder.path f = "/a/b/c")
      ∧ ∀ f ∈ db .folders, (∃ chain, Breadcrumbs db f chain)
        ∧ ∀ chain, Breadcrumbs db f chain → Spelled db f chain :=
  ⟨by decide, breadcrumbs_spelled (reachable_runAll .always (fun _ _ => trivial) folderCalls
    (.init rfl))⟩

end FileNest
