import FileNest.Lib.Paging
import FileNest.Reachable

/-!
# Offset and cursor pages of a file listing

`list_files` and `list_folder_files` answer with the same page.  A client counts through
the pages by offset, or follows `next_cursor` while `has_more` is true.  The offset
pages are the files newest first.  The cursor is the id of the last file of a page and
the next page starts with the greater ids, still newest first: the two agree only where
ids and creation times are aligned at the end of every page.

## Main definitions

* `FileService.filePage` — the page, for any limit.
* `cursorPage`, `offsetPage` — what the two kinds of client see.
* `EachOnceNewestFirst`, `PagesAgree`, `IdsAligned` — the property, and when it holds.

## Main results

* `cursor_pagination_iff` — **cursor and offset pages agree exactly if ids are aligned.**
-/

namespace FileNest

open RowStore Paging

/-! ### The page -/

section Page

variable (ctx : TenantContext) (db : Database) (projectId : String)
  (filters : FileRepository.Filters) (limit : ℕ)

/-- The page of a listing, for any limit. -/
def FileService.filePage (offset : ℕ) (cursor : Option String) : FileListResponse :=
  let total := FileRepository.count db ctx.organizationId projectId filters
  let items := (FileRepository.list db ctx.organizationId projectId filters limit offset
    cursor).map FileResponse.ofRecord
  let hasMore := match orNone cursor with
    | none => items.length == limit && decide (offset + limit < total)
    | some _ => items.length == limit
  { items := items, total := total, limit := limit
    offset := if (orNone cursor).isNone then offset else 0
    hasMore := hasMore
    nextCursor := bif hasMore then items.getLast?.map FileResponse.id else none }

/-- `list_files` answers with it. -/
theorem FileService.listFiles_eq (params : FileListParams) :
    listFiles ctx db projectId params = readOnly (.fileList (filePage ctx db projectId
      params.filters params.limit params.offset params.cursor)) := rfl

/-- So does `list_folder_files`, for a folder that exists. -/
theorem FolderService.listFolderFiles_eq {folderId : String} {folder : Folder}
    (hfolder : FolderRepository.get db folderId ctx.organizationId projectId = .ok folder)
    (params : FileListParams) :
    listFolderFiles ctx db projectId folderId params = readOnly (.fileList
      (FileService.filePage ctx db projectId { params.filters with folderId := some folderId }
        params.limit params.offset params.cursor)) := by
  simp only [listFolderFiles, hfolder]
  rfl

/-- What a client sees that follows `next_cursor` while `has_more` is true. -/
def cursorPage (cursor : Option String) : Page FileResponse String :=
  let page := FileService.filePage ctx db projectId filters limit 0 cursor
  { items := page.items, next := if page.hasMore then page.nextCursor else none }

/-- What a client sees that counts while `has_more` is true. -/
def offsetPage (offset : Option ℕ) : Page FileResponse ℕ :=
  let page := FileService.filePage ctx db projectId filters limit (offset.getD 0) none
  { items := page.items, next := if page.hasMore then some (offset.getD 0 + limit) else none }

/-- The files that match, newest first. -/
def newestFirst : List FileResponse :=
  (Sql.orderByDesc File.createdAt
    (FileRepository.matching db ctx.organizationId projectId filters)).map FileResponse.ofRecord

/-- Every file that matches, exactly once and newest first. -/
structure EachOnceNewestFirst (visited : List FileResponse) : Prop where
  perm : visited.Perm ((FileRepository.matching db ctx.organizationId projectId filters).map
    FileResponse.ofRecord)
  newest : visited.Pairwise fun a b => b.createdAt < a.createdAt

/-- Following the cursors ends, gives every file that matches once, newest first, in the
order of the offset pages, and as many as every page reports. -/
def PagesAgree : Prop :=
  ∃ visited, Visits (cursorPage ctx db projectId filters limit) none visited
    ∧ Visits (offsetPage ctx db projectId filters limit) none visited
    ∧ EachOnceNewestFirst ctx db projectId filters visited
    ∧ ∀ offset cursor, (FileService.filePage ctx db projectId filters limit offset cursor).total
        = visited.length

/-- At the end of every page after which another one is asked for, the files that are
left are those with an id greater than the last file's, whose id is not empty. -/
def IdsAligned : Prop :=
  let files := newestFirst ctx db projectId filters
  ∀ m, Boundary limit files.length m → ∀ a, files[m - 1]? = some a →
    a.id ≠ "" ∧ ∀ i b, files[i]? = some b → (a.id < b.id ↔ m ≤ i)

end Page

section Pagination

variable {ctx : TenantContext} {db : Database} {projectId : String}
  {filters : FileRepository.Filters} {limit : ℕ}

theorem length_newestFirst : (newestFirst ctx db projectId filters).length
    = FileRepository.count db ctx.organizationId projectId filters := by
  rw [newestFirst, List.length_map, Sql.length_orderByDesc, FileRepository.count]

/-- The creation times of the files that match are distinct if all are. -/
theorem nodup_matching (hcreated : ((db .files).map File.createdAt).Nodup) :
    ((FileRepository.matching db ctx.organizationId projectId filters).map
      File.createdAt).Nodup :=
  hcreated.sublist (List.filter_sublist.map _)

theorem eachOnceNewestFirst (hcreated : ((db .files).map File.createdAt).Nodup) :
    EachOnceNewestFirst ctx db projectId filters (newestFirst ctx db projectId filters) where
  perm := (Sql.perm_orderByDesc _ _).map _
  newest := by
    rw [newestFirst, List.pairwise_map]
    exact Sql.pairwise_orderByDesc (nodup_matching hcreated)

theorem nodup_newestFirst (hcreated : ((db .files).map File.createdAt).Nodup) :
    (newestFirst ctx db projectId filters).Nodup := by
  refine (eachOnceNewestFirst hcreated).newest.imp fun hlt heq => ?_
  rw [heq] at hlt
  exact lt_irrefl _ hlt

/-- The files of a page with an offset. -/
theorem items_of_offset (offset : ℕ) {cursor : Option String} (hcursor : orNone cursor = none) :
    (FileService.filePage ctx db projectId filters limit offset cursor).items
      = Sql.page offset limit (newestFirst ctx db projectId filters) := by
  simp only [FileService.filePage, FileRepository.list, hcursor, Sql.page, newestFirst,
    List.map_take, List.map_drop]

/-- The files of a page behind a cursor. -/
theorem items_of_cursor (hcreated : ((db .files).map File.createdAt).Nodup) (offset : ℕ)
    {cursor : Option String} {c : String} (hcursor : orNone cursor = some c) :
    (FileService.filePage ctx db projectId filters limit offset cursor).items
      = ((newestFirst ctx db projectId filters).filter fun r => decide (c < r.id)).take limit := by
  simp only [FileService.filePage, FileRepository.list, hcursor, newestFirst]
  rw [Sql.orderByDesc_filter (nodup_matching hcreated), List.map_take, List.filter_map]
  rfl

/-- Offset pages are the pages of the files newest first. -/
theorem offsetPage_eq : offsetPage ctx db projectId filters limit
    = Paging.offsetPage limit (newestFirst ctx db projectId filters) := by
  funext offset
  have hitems : (FileService.filePage ctx db projectId filters limit (offset.getD 0) none).items
      = Sql.page (offset.getD 0) limit (newestFirst ctx db projectId filters) :=
    items_of_offset _ rfl
  have hmore : (FileService.filePage ctx db projectId filters limit (offset.getD 0) none).hasMore
      = decide (offset.getD 0 + limit < (newestFirst ctx db projectId filters).length) := by
    have hdef : (FileService.filePage ctx db projectId filters limit (offset.getD 0) none).hasMore
        = ((FileService.filePage ctx db projectId filters limit (offset.getD 0) none).items.length
            == limit && decide (offset.getD 0 + limit
              < FileRepository.count db ctx.organizationId projectId filters)) := rfl
    rw [hdef, hitems, ← length_newestFirst, Sql.page, List.length_take, List.length_drop]
    -- where files are left the page is full
    by_cases h : offset.getD 0 + limit < (newestFirst ctx db projectId filters).length
    · rw [Nat.min_eq_left (by omega)]
      simp [h]
    · simp [h]
  simp only [offsetPage, Paging.offsetPage, hitems, hmore, decide_eq_true_eq]

/-- Cursor pages are those of a server that cannot read the empty cursor. -/
theorem cursorPage_eq (hcreated : ((db .files).map File.createdAt).Nodup) :
    cursorPage ctx db projectId filters limit
      = keysetPage FileResponse.id (fun c => orNone (some c)) limit
          (newestFirst ctx db projectId filters) := by
  funext cursor
  have hread : (cursor.bind fun c => orNone (some c)) = orNone cursor := by
    cases cursor <;> rfl
  simp only [cursorPage, keysetPage, hread]
  cases hcursor : orNone cursor with
  -- no cursor, or one that is not read: the first page
  | none =>
    have hitems : (FileService.filePage ctx db projectId filters limit 0 cursor).items
        = Sql.page 0 limit (newestFirst ctx db projectId filters) := items_of_offset 0 hcursor
    simp only [FileService.filePage, hcursor, behind] at hitems ⊢
    rw [hitems, ← length_newestFirst, Sql.page, List.drop_zero, Nat.zero_add]
    cases hmore : (List.take limit (newestFirst ctx db projectId filters)).length == limit
      && decide (limit < (newestFirst ctx db projectId filters).length) <;> rfl
  | some c =>
    have hitems : (FileService.filePage ctx db projectId filters limit 0 cursor).items
        = ((newestFirst ctx db projectId filters).filter fun r => decide (c < r.id)).take limit :=
      items_of_cursor hcreated 0 hcursor
    simp only [FileService.filePage, hcursor, behind] at hitems ⊢
    rw [hitems]
    cases hmore : (List.take limit ((newestFirst ctx db projectId filters).filter
      fun (r : FileResponse) => decide (c < r.id))).length == limit <;> rfl

/-- The only cursor the server cannot read is the least. -/
theorem orNone_some (c : String) :
    orNone (some c) = some c ∨ orNone (some c) = none ∧ ∀ d : String, c ≤ d := by
  by_cases hc : c = ""
  · subst hc
    refine Or.inr ⟨rfl, fun d => not_lt.mp fun hlt => ?_⟩
    rw [String.lt_iff_toList_lt] at hlt
    exact List.not_lt_nil _ hlt
  · refine Or.inl ?_
    simp [orNone, hc]

/-- The same alignment, in the terms of the service. -/
theorem aligned_iff_idsAligned : Aligned FileResponse.id (fun c => orNone (some c)) limit
    (newestFirst ctx db projectId filters) ↔ IdsAligned ctx db projectId filters limit := by
  have hread : ∀ c : String, orNone (some c) = some c ↔ c ≠ "" := by
    intro c
    by_cases hc : c = ""
    · subst hc
      simp [orNone]
    · simp [orNone, hc]
  simp only [Aligned, IdsAligned, hread]

/-- **Cursor and offset pages agree exactly if ids are aligned** with creation times at
the end of every page. -/
theorem cursor_pagination_iff (hcreated : ((db .files).map File.createdAt).Nodup)
    (hlimit : 1 ≤ limit) :
    PagesAgree ctx db projectId filters limit ↔ IdsAligned ctx db projectId filters limit := by
  have hoffset : Visits (offsetPage ctx db projectId filters limit) none
      (newestFirst ctx db projectId filters) := by
    rw [offsetPage_eq]
    exact visits_offsetPage hlimit _ none
  rw [← aligned_iff_idsAligned, ← visits_keysetPage_iff (nodup_newestFirst hcreated) hlimit
    orNone_some, ← cursorPage_eq hcreated]
  constructor
  · rintro ⟨visited, hcursor, hvisited, -, -⟩
    rwa [hoffset.unique hvisited]
  · intro hcursor
    exact ⟨_, hcursor, hoffset, eachOnceNewestFirst hcreated, fun _ _ => length_newestFirst.symm⟩

end Pagination

/-! ### Two files, one a page -/

/-- A file of a listing. -/
def listedFile (id : String) (createdAt : ℕ) : File where
  id := id
  organizationId := "acme"
  projectId := "p0"
  filename := "a.txt"
  contentType := "text/plain"
  sizeBytes := 1
  storageKey := none
  folderId := none
  metadata := []
  tags := []
  createdAt := createdAt
  updatedAt := createdAt

/-- A database that holds files only. -/
def fileTable (files : List File) : Database
  | .files => files
  | _ => []

/-- Ids that ascend as creation times descend. -/
theorem cursor_pagination_agrees :
    PagesAgree (orgContext "acme") (fileTable [listedFile "a" 2, listedFile "b" 1]) "p0" {} 1 := by
  refine (cursor_pagination_iff (by decide) (by decide)).mpr ?_
  rintro m ⟨hpos, -, hle, -⟩ a ha
  have hm : m = 1 ∨ m = 2 := by
    have : m ≤ 2 := hle
    omega
  rcases hm with rfl | rfl
  all_goals
    obtain rfl := Option.some.inj ha
    refine ⟨by decide, fun i b hb => ?_⟩
    match i, hb with
    | 0, hb =>
      obtain rfl := Option.some.inj hb
      decide
    | 1, hb =>
      obtain rfl := Option.some.inj hb
      decide

/-- Ids that ascend with creation times: behind the newest file there is nothing. -/
theorem cursor_pagination_drops :
    ¬∀ (ctx : TenantContext) (db : Database) (projectId : String)
      (filters : FileRepository.Filters) (limit : ℕ), ((db .files).map File.createdAt).Nodup →
        1 ≤ limit → PagesAgree ctx db projectId filters limit := by
  intro h
  obtain ⟨visited, hcursor, -, -, htotal⟩ := h (orgContext "acme")
    (fileTable [listedFile "a" 1, listedFile "b" 2]) "p0" {} 1 (by decide) (by decide)
  have hvisits : Visits (cursorPage (orgContext "acme")
      (fileTable [listedFile "a" 1, listedFile "b" 2]) "p0" {} 1) none
        [.ofRecord (listedFile "b" 2)] := ⟨2, rfl⟩
  rw [hcursor.unique hvisits] at htotal
  exact absurd (htotal 0 none) (by decide)

end FileNest
