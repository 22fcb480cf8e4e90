import FileNest.Folders.Paths
import FileNest.Uploads.TokenConstraints

/-!
# Paths that are resolved

A path of folders is resolved by `ensure_path`, and for an upload token that names one.  Both
walk the segments between the slashes, but only the first looks at the segments, and it strips
blanks around the path that `get_by_path` leaves.  Neither strips the names it creates.

## Main definitions

* `EnsurePathRequest.validatePath` — what `ensure_path` accepts.
* `PathEntry`, `Resolves` — the two ways, and what resolving a path answers and writes.
* `PathLaws` — what is expected of a path that has been resolved.
* `walkSteps` — the segments of a walk, each with its path.
* `TidyPath` — the paths for which it comes true.

## Main results

* `resolvePath_walked`, `resolvePath_settled` — what a walk finds and creates, and leaves.
* `Settled.resolves_iff` — **resolving is idempotent.**
* `path_laws_iff` — **the leaf is found and names are tidy exactly for tidy paths.**
* `untrimmed_folder` — a folder with a blank at the end of its name.
-/

namespace FileNest

open RowStore ReadCommitted

/-- `EnsurePathRequest.validate_path` -/
def EnsurePathRequest.validatePath (v : String) : Except String EnsurePathRequest :=
  let path := Text.stripChar '/' (Text.strip v)
  if path = "" then .error "path must not be empty"
  -- what is stripped of a segment is for the check only
  else if h : ∀ seg ∈ Text.split '/' path, Text.strip seg ≠ "" then .ok ⟨path, h⟩
  else .error "path segments must not be empty"

/-- The ways a path is resolved. -/
inductive PathEntry where
  | ensurePath
  | folderPath

/-- The path that is walked, if `v` is accepted. -/
def PathEntry.path : PathEntry → String → Option String
  | .ensurePath, v => (EnsurePathRequest.validatePath v).toOption.map EnsurePathRequest.path
  | .folderPath, v => some v

/-- The ids that are drawn first: a token has its own. -/
def PathEntry.draw : PathEntry → ℕ
  | .ensurePath => 0
  | .folderPath => 1

/-- There are no blanks around the path that `ensure_path` strips; the other way strips none. -/
def PathEntry.Bare : PathEntry → String → Prop
  | .ensurePath, v => Text.stripChar '/' (Text.strip v) = Text.stripChar '/' v
  | .folderPath, _ => True

/-- Resolving a path answers the id of the leaf, and writes. -/
inductive Resolves (ctx : TenantContext) (env : Env) (db : Database) (projectId : String) :
    PathEntry → String → String → List DbWrite → Prop
  | ensurePath {v : String} {req : EnsurePathRequest} {r : FolderResponse} {ws : List DbWrite}
      (hreq : EnsurePathRequest.validatePath v = .ok req)
      (h : FolderService.ensurePath ctx env db projectId req = .ok (.folder r, ws)) :
      Resolves ctx env db projectId .ensurePath v r.id ws
  | folderPath {v id : String} {req : CreateUploadTokenRequest} {ws : List DbWrite}
      (hpath : req.folderPath = some v)
      (h : resolveTokenFolder ctx env db projectId req = .ok (some id, ws)) :
      Resolves ctx env db projectId .folderPath v id ws

/-- The segments of a walk, each with its path. -/
def walkSteps : List String → String → List (String × String)
  | [], _ => []
  | segment :: segments, path =>
      (segment, path ++ "/" ++ segment) :: walkSteps segments (path ++ "/" ++ segment)

/-- The path at the end of a walk. -/
def walkEnd (segments : List String) (path : String) : String :=
  segments.foldl (fun current segment => current ++ "/" ++ segment) path

/-- A name that is not empty, trimmed and free of slashes. -/
structure TidyName (name : String) : Prop where
  ne_empty : name ≠ ""
  trimmed : Text.strip name = name
  no_slash : '/' ∉ name.toList

section Laws

variable (ctx : TenantContext) (db : Database) (projectId : String) (entry : PathEntry)
  (v : String)

/-- What is expected `after` a path has been resolved to a folder with some writes. -/
structure PathLaws (after : Database) (id : String) (ws : List DbWrite) : Prop where
  /-- Resolved again it gives the same folder, and nothing is written. -/
  again : ∀ env id' ws', Resolves ctx env after projectId entry v id' ws' ↔ id' = id ∧ ws' = []
  /-- `get_by_path` finds the folder. -/
  byPath : ∃ r, FolderService.getByPath ctx after projectId v = .ok (.folder r, []) ∧ r.id = id
  /-- No folder is created that was there, and what is created is below what was. -/
  reused : ∀ f : Folder, .insert .folders f ∈ ws →
    ¬PathTaken db ctx.organizationId projectId f.path ∧
      (f.AtRoot ∨ ∃ parent ∈ after .folders,
        Folder.ActiveIn ctx.organizationId projectId parent ∧ f.Under parent)
  names : ∀ f : Folder, .insert .folders f ∈ ws → TidyName f.name

/-- There are no blanks around the path that `ensure_path` alone strips, and the segments that
are missing are trimmed and not empty. -/
structure TidyPath : Prop where
  bare : entry.Bare v
  missing : ∀ path, entry.path v = some path → ∀ s ∈ walkSteps (pathSegments path) "",
    ¬PathTaken db ctx.organizationId projectId s.2 → s.1 ≠ "" ∧ Text.strip s.1 = s.1

end Laws

/-! ### The path at the end -/

theorem toList_walkEnd (segments : List String) (path : String) :
    (walkEnd segments path).toList
      = path.toList ++ (segments.map String.toList).flatMap fun w => '/' :: w := by
  induction segments generalizing path with
  | nil => exact (List.append_nil _).symm
  | cons segment segments ih =>
    have hstep : (path ++ "/" ++ segment).toList = path.toList ++ '/' :: segment.toList := by
      rw [String.toList_append, String.toList_append, List.append_assoc]
      rfl
    show (walkEnd segments (path ++ "/" ++ segment)).toList = _
    rw [ih, hstep, List.map_cons, List.flatMap_cons, List.append_assoc]

/-- A walk of all pieces ends where they came from. -/
theorem flatMap_splitChars (cs : List Char) :
    ((Text.splitChars '/' cs).flatMap fun w => '/' :: w) = '/' :: cs := by
  induction cs with
  | nil => rfl
  | cons c cs ih =>
    rw [Text.splitChars]
    split
    · rename_i hc
      rw [List.flatMap_cons, ih, hc]
      rfl
    · cases hsplit : Text.splitChars '/' cs with
      | nil => exact absurd hsplit (Text.splitChars_ne_nil '/' cs)
      | cons w ws =>
        rw [hsplit, List.flatMap_cons, List.cons_append] at ih
        rw [List.flatMap_cons, List.cons_append, List.cons_append, (List.cons.inj ih).2]

theorem walkEnd_split (v : String) : walkEnd (Text.split '/' v) "" = "/" ++ v := by
  apply String.toList_injective
  have hpieces : (Text.split '/' v).map String.toList = Text.splitChars '/' v.toList := by
    rw [Text.split, List.map_map]
    exact (List.map_congr_left fun w _ => String.toList_ofList).trans (List.map_id' _)
  rw [toList_walkEnd, hpieces, flatMap_splitChars, String.toList_append]
  rfl

/-! ### What a walk finds and creates -/

section Walk

variable {ctx : TenantContext} {env : Env} {db : Database} {projectId : String}

/-- A lookup that finds nothing. -/
theorem getByPath_none_iff {path o p : String} :
    FolderRepository.getByPath db path o p = .ok none ↔ ¬PathTaken db o p path := by
  have hnone : ∀ rows : List Folder, scalarOneOrNone rows = .ok none ↔ rows = [] := by
    intro rows
    cases rows with
    | nil => exact iff_of_true rfl rfl
    | cons r rows =>
      refine iff_of_false (fun h => ?_) (List.cons_ne_nil r rows)
      cases rows <;> cases h
  rw [FolderRepository.getByPath, hnone, List.filter_eq_nil_iff]
  simp only [Bool.and_eq_true, beq_iff_eq, Option.isNone_iff_eq_none, not_and]
  constructor
  · rintro h ⟨f, hf, hactive, hpath⟩
    exact h f hf ⟨⟨hpath, hactive.organizationId_eq⟩, hactive.projectId_eq⟩ hactive.deletedAt_eq
  · rintro h f hf ⟨⟨hpath, ho⟩, hp⟩ hdeleted
    exact h ⟨f, hf, ⟨ho, hp, hdeleted⟩, hpath⟩

/-- What a walk finds and creates. -/
structure Walked (ctx : TenantContext) (db : Database) (projectId : String)
    (segments : List String) (path : String) (leaf : Option Folder) (ws : List DbWrite) : Prop where
  created : ∀ f : Folder, .insert .folders f ∈ ws →
    (f.name, f.path) ∈ walkSteps segments path ∧
      Folder.ActiveIn ctx.organizationId projectId f ∧
        ¬PathTaken db ctx.organizationId projectId f.path
  missing : ∀ s ∈ walkSteps segments path, ¬PathTaken db ctx.organizationId projectId s.2 →
    ∃ f : Folder, .insert .folders f ∈ ws ∧ f.name = s.1 ∧ f.path = s.2
  leaf_eq : segments ≠ [] → ∃ f, leaf = some f ∧ f.path = walkEnd segments path ∧
    Folder.ActiveIn ctx.organizationId projectId f ∧
      (f ∈ db .folders ∨ .insert .folders f ∈ ws)

/-- A segment that is there: nothing is created for it. -/
theorem Walked.found {segment : String} {segments : List String} {path : String} {existing : Folder}
    {leaf : Option Folder} {ws : List DbWrite} (hmem : existing ∈ db .folders)
    (hpath : existing.path = path ++ "/" ++ segment)
    (hactive : existing.ActiveIn ctx.organizationId projectId)
    (hleaf : segments = [] → leaf = some existing)
    (h : Walked ctx db projectId segments (path ++ "/" ++ segment) leaf ws) :
    Walked ctx db projectId (segment :: segments) path leaf ws where
  created := by
    intro f hf
    obtain ⟨hstep, hplace⟩ := h.created f hf
    exact ⟨List.mem_cons_of_mem _ hstep, hplace⟩
  missing := by
    intro s hs hfree
    rcases List.mem_cons.mp hs with rfl | hs
    · exact absurd ⟨existing, hmem, hactive, hpath⟩ hfree
    · exact h.missing s hs hfree
  leaf_eq := by
    intro _
    cases segments with
    | nil => exact ⟨existing, hleaf rfl, hpath, hactive, .inl hmem⟩
    | cons next segments => exact h.leaf_eq (List.cons_ne_nil _ _)

/-- A segment that is missing: its folder is created. -/
theorem Walked.create {segment : String} {segments : List String} {path : String} {row : Folder}
    {leaf : Option Folder} {ws : List DbWrite} (hname : row.name = segment)
    (hpath : row.path = path ++ "/" ++ segment)
    (hactive : row.ActiveIn ctx.organizationId projectId)
    (hfree : ¬PathTaken db ctx.organizationId projectId (path ++ "/" ++ segment))
    (hleaf : segments = [] → leaf = some row)
    (h : Walked ctx db projectId segments (path ++ "/" ++ segment) leaf ws) :
    Walked ctx db projectId (segment :: segments) path leaf (.insert .folders row :: ws) where
  created := by
    intro f hf
    rcases List.mem_cons.mp hf with heq | hf
    · obtain rfl : f = row := by
        cases heq
        rfl
      rw [hname, hpath]
      exact ⟨List.mem_cons_self, hactive, hfree⟩
    · obtain ⟨hstep, hplace⟩ := h.created f hf
      exact ⟨List.mem_cons_of_mem _ hstep, hplace⟩
  missing := by
    intro s hs hmissing
    rcases List.mem_cons.mp hs with rfl | hs
    · exact ⟨row, List.mem_cons_self, hname, hpath⟩
    · obtain ⟨f, hf, hstep⟩ := h.missing s hs hmissing
      exact ⟨f, List.mem_cons_of_mem _ hf, hstep⟩
  leaf_eq := by
    intro _
    cases segments with
    | nil => exact ⟨row, hleaf rfl, hpath, hactive, .inr List.mem_cons_self⟩
    | cons next segments =>
      obtain ⟨f, heq, hend, hplace, hrow⟩ := h.leaf_eq (List.cons_ne_nil _ _)
      exact ⟨f, heq, hend, hplace, hrow.imp_right (List.mem_cons_of_mem _)⟩

/-- A walk without segments ends where it begins. -/
theorem resolvePath_nil_leaf {segments : List String} {draw : ℕ} {path : String}
    {last leaf : Option Folder} {ws : List DbWrite}
    (h : resolvePath ctx env db projectId segments draw path last = .ok (leaf, ws))
    (hnil : segments = []) : leaf = last := by
  subst hnil
  exact (Prod.mk.inj (Except.ok.inj h)).1.symm

theorem resolvePath_walked {segments : List String} {draw : ℕ} {path : String}
    {last leaf : Option Folder} {ws : List DbWrite}
    (h : resolvePath ctx env db projectId segments draw path last = .ok (leaf, ws)) :
    Walked ctx db projectId segments path leaf ws := by
  induction segments generalizing draw path last leaf ws with
  | nil =>
    simp only [resolvePath, pure_eq_ok, Prod.mk.injEq] at h
    obtain ⟨-, rfl⟩ := h
    refine ⟨fun f hf => ?_, fun s hs => ?_, fun hne => absurd rfl hne⟩
    · cases hf
    · cases hs
  | cons segment segments ih =>
    simp only [resolvePath, bind_eq_ok] at h
    obtain ⟨existing, hfound, h⟩ := h
    cases existing with
    | some existing =>
      obtain ⟨hmem, hpath, hactive⟩ := FolderRepository.of_getByPath hfound
      exact .found hmem hpath hactive (resolvePath_nil_leaf h) (ih h)
    | none =>
      simp only [bind_eq_ok, pure_eq_ok, Prod.mk.injEq] at h
      obtain ⟨⟨leaf', ws'⟩, hwalk, rfl, rfl⟩ := h
      exact .create rfl rfl ⟨rfl, rfl, rfl⟩ (getByPath_none_iff.mp hfound)
        (resolvePath_nil_leaf hwalk) (ih hwalk)

/-- A walk that finds all its paths creates nothing, and ends where the last one is. -/
theorem resolvePath_found {segments : List String} {path : String}
    (h : ∀ s ∈ walkSteps segments path, PathTaken db ctx.organizationId projectId s.2)
    (hok : ∀ q, ∃ r, FolderRepository.getByPath db q ctx.organizationId projectId = .ok r)
    (env : Env) (draw : ℕ) (last : Option Folder) :
    ∃ leaf, resolvePath ctx env db projectId segments draw path last = .ok (leaf, []) := by
  induction segments generalizing path last with
  | nil => exact ⟨last, rfl⟩
  | cons segment segments ih =>
    obtain ⟨found, hfound⟩ := hok (path ++ "/" ++ segment)
    cases found with
    | none => exact absurd (h _ List.mem_cons_self) (getByPath_none_iff.mp hfound)
    | some existing =>
      obtain ⟨leaf, hwalk⟩ := ih (fun s hs => h s (List.mem_cons_of_mem _ hs)) (some existing)
      exact ⟨leaf, bind_eq_ok.mpr ⟨_, hfound, hwalk⟩⟩

/-- A lookup is a matter of the folders. -/
theorem getByPath_congr {after : Database} (h : after .folders = db .folders) (path o p : String) :
    FolderRepository.getByPath after path o p = FolderRepository.getByPath db path o p := by
  rw [FolderRepository.getByPath, h, ← FolderRepository.getByPath]

theorem resolvePath_congr_folders {after : Database} (h : after .folders = db .folders)
    (segments : List String) (draw : ℕ) (path : String) (last : Option Folder) :
    resolvePath ctx env after projectId segments draw path last
      = resolvePath ctx env db projectId segments draw path last := by
  induction segments generalizing draw path last with
  | nil => rfl
  | cons segment segments ih =>
    simp only [resolvePath, getByPath_congr h, ih]

theorem pathSegments_ne_nil (path : String) : pathSegments path ≠ [] := by
  simp [pathSegments, Text.split, Text.splitChars_ne_nil]

theorem PathEntry.path_ensurePath_iff {v path : String} :
    PathEntry.ensurePath.path v = some path
      ↔ ∃ req, EnsurePathRequest.validatePath v = .ok req ∧ req.path = path := by
  rw [PathEntry.path]
  cases EnsurePathRequest.validatePath v with
  | ok req => simp [Except.toOption]
  | error e => simp [Except.toOption]

theorem ensurePath_eq_ok_iff {req : EnsurePathRequest} {r : Response} {ws : List DbWrite} :
    FolderService.ensurePath ctx env db projectId req = .ok (r, ws) ↔ ∃ leaf,
      resolvePath ctx env db projectId (pathSegments req.path) 0 "" none = .ok (some leaf, ws) ∧
        r = .folder (.ofRecord leaf) := by
  unfold FolderService.ensurePath pathSegments
  rw [bind_eq_ok]
  constructor
  · rintro ⟨⟨leaf, writes⟩, hwalk, h⟩
    cases leaf with
    | none => cases h
    | some leaf =>
      simp only [pure_eq_ok, Prod.mk.injEq] at h
      exact ⟨leaf, h.2 ▸ hwalk, h.1.symm⟩
  · rintro ⟨leaf, hwalk, rfl⟩
    exact ⟨_, hwalk, rfl⟩

theorem resolveTokenFolder_eq_ok_iff {req : CreateUploadTokenRequest} {path id : String}
    {ws : List DbWrite} (hpath : req.folderPath = some path) :
    resolveTokenFolder ctx env db projectId req = .ok (some id, ws) ↔ ∃ leaf,
      resolvePath ctx env db projectId (pathSegments path) 1 "" none = .ok (some leaf, ws) ∧
        leaf.id = id := by
  unfold resolveTokenFolder pathSegments
  rw [hpath]
  dsimp only
  rw [bind_eq_ok]
  constructor
  · rintro ⟨⟨leaf, writes⟩, hwalk, h⟩
    simp only [pure_eq_ok, Prod.mk.injEq, Option.map_eq_some_iff] at h
    obtain ⟨⟨leaf, rfl, hid⟩, rfl⟩ := h
    exact ⟨leaf, hwalk, hid⟩
  · rintro ⟨leaf, hwalk, rfl⟩
    exact ⟨_, hwalk, rfl⟩

/-- Both ways walk the segments. -/
theorem resolves_iff {entry : PathEntry} {v id : String} {ws : List DbWrite} :
    Resolves ctx env db projectId entry v id ws ↔ ∃ path leaf, entry.path v = some path ∧
      resolvePath ctx env db projectId (pathSegments path) entry.draw "" none
        = .ok (some leaf, ws) ∧ leaf.id = id := by
  constructor
  · rintro (⟨hreq, h⟩ | ⟨hpath, h⟩)
    · obtain ⟨leaf, hwalk, hr⟩ := ensurePath_eq_ok_iff.mp h
      obtain rfl := Response.folder.inj hr
      exact ⟨_, leaf, PathEntry.path_ensurePath_iff.mpr ⟨_, hreq, rfl⟩, hwalk, rfl⟩
    · obtain ⟨leaf, hwalk, hid⟩ := (resolveTokenFolder_eq_ok_iff hpath).mp h
      exact ⟨v, leaf, rfl, hwalk, hid⟩
  · rintro ⟨path, leaf, hpath, hwalk, rfl⟩
    cases entry with
    | ensurePath =>
      obtain ⟨req, hreq, rfl⟩ := PathEntry.path_ensurePath_iff.mp hpath
      exact .ensurePath (r := .ofRecord leaf) hreq (ensurePath_eq_ok_iff.mpr ⟨leaf, hwalk, rfl⟩)
    | folderPath =>
      obtain rfl := Option.some.inj hpath
      have hreq : { devTokenRequest with folderPath := some v }.folderPath = some v := rfl
      exact .folderPath hreq ((resolveTokenFolder_eq_ok_iff hreq).mpr ⟨leaf, hwalk, rfl⟩)

/-- What a walk leaves when it is committed. -/
structure Settled (ctx : TenantContext) (db : Database) (projectId : String)
    (ws : List DbWrite) : Prop where
  good : Database.Good (applyAll ws db)
  unique : UniquePaths (applyAll ws db)
  mem_iff : ∀ f : Folder, f ∈ applyAll ws db .folders ↔ f ∈ db .folders ∨ .insert .folders f ∈ ws
  placed : ∀ f : Folder, .insert .folders f ∈ ws → '/' ∉ f.name.toList ∧
    (f.AtRoot ∨ ∃ parent ∈ applyAll ws db .folders,
      Folder.ActiveIn ctx.organizationId projectId parent ∧ f.Under parent)

theorem resolvePath_settled (hdb : db.Good) (hunique : UniquePaths db) {path : String} {draw : ℕ}
    {leaf : Option Folder} {ws : List DbWrite}
    (h : resolvePath ctx env db projectId (pathSegments path) draw "" none = .ok (leaf, ws))
    (hadm : Admissible ws db) : Settled ctx db projectId ws := by
  obtain ⟨rows, rfl, hpaths, hgrows⟩ := resolvePath_spec none _ h
    (fun segment hs => Text.notMem_of_mem_split hs) (fun _ => rfl) (fun f hf => by cases hf)
    (fun a ha => ha)
  have hinsert : ∀ f : Folder, (.insert .folders f : DbWrite)
      ∈ rows.map (Write.insert Table.folders) ↔ f ∈ rows := by
    intro f
    simp only [List.mem_map, Write.insert.injEq, heq_eq_eq, true_and, exists_eq_right]
  have hnone : ∀ w ∈ ([] : List DbWrite), w.table ≠ .folders := fun w hw => by cases hw
  have hrows : applyAll (rows.map (Write.insert Table.folders)) db .folders
      = db .folders ++ rows := by
    have := applyAll_insert_folders rows hnone db
    rwa [List.append_nil] at this
  have hmem : ∀ f : Folder, f ∈ applyAll (rows.map (Write.insert Table.folders)) db .folders ↔
      f ∈ db .folders ∨ (.insert .folders f : DbWrite) ∈ rows.map (Write.insert Table.folders) := by
    intro f
    rw [hrows, List.mem_append, hinsert]
  have hwalked := resolvePath_walked h
  have hsound : ∀ w ∈ rows.map (Write.insert Table.folders),
      SoundWrite ctx.organizationId projectId [.folders] db w :=
    resolvePath_sound List.mem_cons_self h
  refine ⟨?_, ?_, hmem, fun f hf => ?_⟩
  · exact (Good.commit hdb (.refl db) (Sound.of_forall hsound).resolved hadm).1
  · have hop : Operation.folderPath
        (.createUploadToken { devTokenRequest with folderPath := some path }) = some path := rfl
    have heffect := resolvePath_folderEffect hop h hnone
    rw [List.append_nil] at heffect
    refine (uniquePaths_commit_iff hdb hunique hadm heffect).mpr fun q hq => ?_
    have hq : q ∈ missingPaths db ctx.organizationId projectId (pathSegments path) "" := hq
    rw [← hpaths] at hq
    obtain ⟨row, hrow, rfl⟩ := List.mem_map.mp hq
    exact (hwalked.created row ((hinsert row).mpr hrow)).2.2
  · have hplaced := hgrows.placed f ((hinsert f).mp hf)
    refine ⟨hplaced.name_no_slash, hplaced.place.imp_right ?_⟩
    rintro ⟨parent, hparent, hunder⟩
    rcases List.mem_append.mp hparent with hanchor | hrow
    · obtain heq | ⟨hdbmem, hactive⟩ := mem_anchors hanchor
      · cases heq
      · exact ⟨parent, (hmem parent).mpr (.inl hdbmem), hactive, hunder⟩
    · have hins := (hinsert parent).mpr hrow
      exact ⟨parent, (hmem parent).mpr (.inr hins), (hwalked.created parent hins).2.1, hunder⟩

/-- The leaf is where `get_by_path` would look for it. -/
theorem Settled.leaf {path : String} {leaf : Folder} {ws : List DbWrite}
    (h : Settled ctx db projectId ws)
    (hwalked : Walked ctx db projectId (pathSegments path) "" (some leaf) ws) :
    leaf ∈ applyAll ws db .folders ∧ leaf.path = "/" ++ Text.stripChar '/' path ∧
      leaf.ActiveIn ctx.organizationId projectId := by
  obtain ⟨f, hleaf, hend, hactive, hplace⟩ := hwalked.leaf_eq (pathSegments_ne_nil path)
  obtain rfl := Option.some.inj hleaf
  exact ⟨(h.mem_iff leaf).mpr hplace, hend.trans (walkEnd_split _), hactive⟩

/-- The same walk again creates nothing and ends where it did. -/
theorem Settled.again {path : String} {leaf : Folder} {ws : List DbWrite}
    (h : Settled ctx db projectId ws)
    (hwalked : Walked ctx db projectId (pathSegments path) "" (some leaf) ws) (env : Env)
    (draw : ℕ) :
    resolvePath ctx env (applyAll ws db) projectId (pathSegments path) draw "" none
      = .ok (some leaf, []) := by
  have hfound : ∀ s ∈ walkSteps (pathSegments path) "",
      PathTaken (applyAll ws db) ctx.organizationId projectId s.2 := by
    intro s hs
    by_cases htaken : PathTaken db ctx.organizationId projectId s.2
    · obtain ⟨f, hf, hplace⟩ := htaken
      exact ⟨f, (h.mem_iff f).mpr (.inl hf), hplace⟩
    · obtain ⟨f, hf, -, hpath⟩ := hwalked.missing s hs htaken
      exact ⟨f, (h.mem_iff f).mpr (.inr hf), (hwalked.created f hf).2.1, hpath⟩
  obtain ⟨leaf', hagain⟩ := resolvePath_found hfound
    (fun q => h.unique.getByPath_ok h.good q _ _) env draw none
  obtain ⟨f, rfl, hend, hactive, hf | hf⟩ :=
    (resolvePath_walked hagain).leaf_eq (pathSegments_ne_nil path)
  · obtain ⟨hmem, hpath, hleaf⟩ := h.leaf hwalked
    rw [hagain, h.unique f hf leaf hmem _ _ hactive hleaf
      ((hend.trans (walkEnd_split _)).trans hpath.symm)]
  · cases hf

/-- Where paths are unique, a lookup finds whatever is there. -/
theorem UniquePaths.getByPath_iff (hdb : db.Good) (h : UniquePaths db) {path o p : String}
    {f : Folder} : FolderRepository.getByPath db path o p = .ok (some f) ↔
      f ∈ db .folders ∧ f.path = path ∧ f.ActiveIn o p := by
  refine ⟨FolderRepository.of_getByPath, fun ⟨hf, hpath, hactive⟩ => ?_⟩
  obtain ⟨found, hfound⟩ := h.getByPath_ok hdb path o p
  cases found with
  | none => exact absurd ⟨f, hf, hactive, hpath⟩ (getByPath_none_iff.mp hfound)
  | some g =>
    obtain ⟨hg, hgpath, hgactive⟩ := FolderRepository.of_getByPath hfound
    rw [hfound, h g hg f hf o p hgactive hactive (hgpath.trans hpath.symm)]

/-- `get_by_path` finds the leaf exactly if it looks for the path that was walked. -/
theorem Settled.byPath_iff {path v : String} {leaf : Folder} {ws : List DbWrite}
    (h : Settled ctx db projectId ws)
    (hwalked : Walked ctx db projectId (pathSegments path) "" (some leaf) ws) :
    (∃ r, FolderService.getByPath ctx (applyAll ws db) projectId v = .ok (.folder r, []) ∧
      r.id = leaf.id) ↔ Text.stripChar '/' path = Text.stripChar '/' v := by
  obtain ⟨hmem, hpath, hactive⟩ := h.leaf hwalked
  unfold FolderService.getByPath
  simp only [bind_eq_ok]
  constructor
  · rintro ⟨r, ⟨found, hfound, hr⟩, hid⟩
    cases found with
    | none => cases hr
    | some f =>
      obtain ⟨hf, hfpath, -⟩ := FolderRepository.of_getByPath hfound
      obtain rfl := Response.folder.inj (Prod.mk.inj (Except.ok.inj hr)).1
      -- one id, one folder, one path
      obtain rfl : f = leaf := h.good.uniquePk.eq_of_pk (t := .folders) hf hmem hid
      have hsame := congrArg String.toList (hpath.symm.trans hfpath)
      rw [String.toList_append, String.toList_append] at hsame
      exact String.toList_injective (List.append_cancel_left hsame)
  · intro hsame
    rw [hsame] at hpath
    have hfound := (h.unique.getByPath_iff h.good).mpr ⟨hmem, hpath, hactive⟩
    exact ⟨.ofRecord leaf, ⟨some leaf, hfound, rfl⟩, rfl⟩

end Walk

/-! ### What comes true of a path -/

section Laws

variable {ctx : TenantContext} {env : Env} {db after : Database} {projectId : String}
  {entry : PathEntry} {v path id : String} {ws : List DbWrite}

theorem EnsurePathRequest.path_of_validatePath {req : EnsurePathRequest}
    (h : validatePath v = .ok req) : req.path = Text.stripChar '/' (Text.strip v) := by
  unfold validatePath at h
  dsimp only at h
  split at h
  · cases h
  · split at h
    · rw [← Except.ok.inj h]
    · cases h

/-- The slashes around the path that is walked are those around the path that was given. -/
theorem PathEntry.bare_iff (hpath : entry.path v = some path) :
    Text.stripChar '/' path = Text.stripChar '/' v ↔ entry.Bare v := by
  cases entry with
  | ensurePath =>
    obtain ⟨req, hreq, rfl⟩ := PathEntry.path_ensurePath_iff.mp hpath
    rw [EnsurePathRequest.path_of_validatePath hreq, Bare, Text.stripChar, Text.stripChar,
      Text.stripBy_stripBy]
  | folderPath =>
    obtain rfl := Option.some.inj hpath
    exact iff_of_true rfl trivial

/-- What is created for a path is tidy exactly if what is missing of it is. -/
theorem names_iff {leaf : Option Folder} (hsettled : Settled ctx db projectId ws)
    (hwalked : Walked ctx db projectId (pathSegments path) "" leaf ws) :
    (∀ f : Folder, .insert .folders f ∈ ws → TidyName f.name) ↔
      ∀ s ∈ walkSteps (pathSegments path) "",
        ¬PathTaken db ctx.organizationId projectId s.2 → s.1 ≠ "" ∧ Text.strip s.1 = s.1 := by
  constructor
  · intro h s hs hfree
    obtain ⟨f, hf, hname, -⟩ := hwalked.missing s hs hfree
    exact ⟨hname ▸ (h f hf).ne_empty, hname ▸ (h f hf).trimmed⟩
  · intro h f hf
    obtain ⟨hstep, -, hfree⟩ := hwalked.created f hf
    obtain ⟨hne, htrimmed⟩ := h _ hstep hfree
    exact ⟨hne, htrimmed, (hsettled.placed f hf).1⟩

/-- A path that is accepted is resolved. -/
theorem resolves_of_accepted (hdb : db.Good) (hunique : UniquePaths db)
    (hpath : entry.path v = some path) (ctx : TenantContext) (env : Env) (projectId : String) :
    ∃ id ws, Resolves ctx env db projectId entry v id ws := by
  obtain ⟨⟨leaf, ws⟩, hwalk⟩ :=
    hunique.resolvePath_ok hdb ctx env projectId (pathSegments path) entry.draw "" none
  obtain ⟨f, rfl, -⟩ := (resolvePath_walked hwalk).leaf_eq (pathSegments_ne_nil path)
  exact ⟨f.id, ws, resolves_iff.mpr ⟨path, f, hpath, hwalk, rfl⟩⟩

/-- **Resolving is idempotent**, for every path that is accepted. -/
theorem Settled.resolves_iff {leaf : Folder} (hsettled : Settled ctx db projectId ws)
    (hwalked : Walked ctx db projectId (pathSegments path) "" (some leaf) ws)
    (haccepts : entry.path v = some path) (hafter : after .folders = applyAll ws db .folders)
    (env : Env) (id' : String) (ws' : List DbWrite) :
    Resolves ctx env after projectId entry v id' ws' ↔ id' = leaf.id ∧ ws' = [] := by
  rw [FileNest.resolves_iff]
  simp only [resolvePath_congr_folders hafter]
  constructor
  · rintro ⟨q, leaf', hq, hagain, rfl⟩
    obtain rfl : path = q := Option.some.inj (haccepts.symm.trans hq)
    rw [hsettled.again hwalked] at hagain
    obtain ⟨hleaf, rfl⟩ := Prod.mk.inj (Except.ok.inj hagain)
    exact ⟨congrArg Folder.id (Option.some.inj hleaf).symm, rfl⟩
  · rintro ⟨rfl, rfl⟩
    exact ⟨path, leaf, haccepts, hsettled.again hwalked env entry.draw, rfl⟩

/-- **`get_by_path` finds the leaf and the names are tidy exactly for tidy paths.**  The rest
holds for every path that is accepted. -/
theorem path_laws_iff (hdb : db.Good) (hunique : UniquePaths db)
    (haccepts : entry.path v = some path) (ctx : TenantContext) (env : Env) (projectId : String) :
    (∃ id ws, Resolves ctx env db projectId entry v id ws) ∧
      ∀ id ws, Resolves ctx env db projectId entry v id ws → Admissible ws db →
        ∀ after : Database, after .folders = applyAll ws db .folders →
          (PathLaws ctx db projectId entry v after id ws ↔ TidyPath ctx db projectId entry v) := by
  refine ⟨resolves_of_accepted hdb hunique haccepts ctx env projectId, ?_⟩
  intro id ws hresolves hadm after hafter
  obtain ⟨walked, leaf, hwalkedPath, hwalk, rfl⟩ := resolves_iff.mp hresolves
  obtain rfl : path = walked := Option.some.inj (haccepts.symm.trans hwalkedPath)
  have hwalked := resolvePath_walked hwalk
  have hsettled := resolvePath_settled hdb hunique hwalk hadm
  -- lookups see the folders alone
  have hbyPath : (∃ r, FolderService.getByPath ctx after projectId v = .ok (.folder r, []) ∧
      r.id = leaf.id) ↔ entry.Bare v := by
    rw [← PathEntry.bare_iff haccepts, ← hsettled.byPath_iff hwalked]
    unfold FolderService.getByPath
    simp only [getByPath_congr hafter]
  constructor
  · intro h
    refine ⟨hbyPath.mp h.byPath, fun q hq => ?_⟩
    obtain rfl : path = q := Option.some.inj (haccepts.symm.trans hq)
    exact (names_iff hsettled hwalked).mp h.names
  · intro h
    refine ⟨hsettled.resolves_iff hwalked haccepts hafter, hbyPath.mpr h.bare, fun f hf => ?_,
      (names_iff hsettled hwalked).mpr (h.missing path haccepts)⟩
    rw [hafter]
    exact ⟨(hwalked.created f hf).2.2, (hsettled.placed f hf).2⟩

end Laws

theorem reached_oneProject : Reached oneProject := reached_runAll .empty _

theorem uniquePaths_oneProject : UniquePaths oneProject := by
  have hnone : oneProject .folders = [] := rfl
  intro f hf
  rw [hnone] at hf
  cases hf

/-- What `ensure_path` writes for a path of two names. -/
def ensuredFolders (first second : String) : List DbWrite :=
  let row := folderRow (orgContext "acme") (devEnv "e" 2) "p0"
  [.insert .folders (row 0 first ("/" ++ first) none),
    .insert .folders (row 1 second ("/" ++ first ++ "/" ++ second) (some "e0"))]

/-- A path of two names, with slashes around it. -/
theorem path_laws_two_names :
    Resolves (orgContext "acme") (devEnv "e" 2) oneProject "p0" .ensurePath "/a/b/" "e1"
      (ensuredFolders "a" "b") ∧
    PathLaws (orgContext "acme") oneProject "p0" .ensurePath "/a/b/"
      (applyAll (ensuredFolders "a" "b") oneProject) "e1" (ensuredFolders "a" "b") := by
  have haccepts : PathEntry.ensurePath.path "/a/b/" = some "a/b" := by decide
  have hresolves : Resolves (orgContext "acme") (devEnv "e" 2) oneProject "p0" .ensurePath
      "/a/b/" "e1" (ensuredFolders "a" "b") :=
    resolves_iff.mpr ⟨"a/b", _, haccepts, rfl, rfl⟩
  refine ⟨hresolves, ((path_laws_iff reached_oneProject.good uniquePaths_oneProject haccepts _ _
    _).2 _ _ hresolves (by decide) _ rfl).mpr ⟨?_, fun path hpath s hs _ => ?_⟩⟩
  · show Text.stripChar '/' (Text.strip "/a/b/") = Text.stripChar '/' "/a/b/"
    decide
  · obtain rfl := Option.some.inj (haccepts.symm.trans hpath)
    have htidy : ∀ s ∈ walkSteps (pathSegments "a/b") "", s.1 ≠ "" ∧ Text.strip s.1 = s.1 := by
      decide
    exact htidy s hs

/-- A folder with a blank at the end of its name. -/
theorem untrimmed_folder :
    ¬∀ ctx env db projectId entry v id ws, Reached db → UniquePaths db →
      Resolves ctx env db projectId entry v id ws → Admissible ws db →
        PathLaws ctx db projectId entry v (applyAll ws db) id ws := by
  intro h
  have hresolves : Resolves (orgContext "acme") (devEnv "e" 2) oneProject "p0" .ensurePath "a / b"
      "e1" (ensuredFolders "a " " b") :=
    resolves_iff.mpr ⟨"a / b", _, by decide, rfl, rfl⟩
  have hlaws := h _ _ _ _ _ _ _ _ reached_oneProject uniquePaths_oneProject hresolves (by decide)
  exact absurd (hlaws.names _ List.mem_cons_self).trimmed (by decide)

end FileNest
