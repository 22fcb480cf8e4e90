import FileNest.Lib.Like
import FileNest.Versioning

/-!
# Searching names

The listings of files and of projects put the text that is searched for into a pattern of `ILIKE`,
as it is.  What a pattern is made of is then no text: `%` and `_` find other letters, and a `\`
takes the next character with it.

## Main definitions

* `listedProjects` — the rows of a project list, before they are sorted and paged.
* `FileSearchExact`, `ProjectSearchExact` — a listing is narrowed to what contains the text.

## Main results

* `fileSearchExact_iff`, `projectSearchExact_iff` — **it is exactly for plain text.**
* `textSearch_iff` — both.
* `underscore_search` — a file without an underscore is found by one.
-/

namespace FileNest

open RowStore Sql

/-- The rows of a project list. -/
def listedProjects (db : Database) (organizationId : String) (params : ProjectListParams) :
    List Project :=
  (db .projects).filter fun (r : Project) =>
    r.organizationId == organizationId && r.isActive && r.deletedAt.isNone && params.matches r

/-- A listing of files with a text to search for is that without it, narrowed to the files whose
name contains the text. -/
def FileSearchExact (q : String) : Prop :=
  ∀ (db : Database) (organizationId projectId : String) (f : FileRepository.Filters),
    FileRepository.matching db organizationId projectId { f with q := some q }
      = (FileRepository.matching db organizationId projectId { f with q := none }).filter fun r =>
        decide (Contains r.filename q)

/-- The same of projects, whose names and slugs are searched. -/
def ProjectSearchExact (q : String) : Prop :=
  ∀ (db : Database) (organizationId : String) (params : ProjectListParams),
    listedProjects db organizationId { params with search := some q }
      = (listedProjects db organizationId { params with search := none }).filter fun r =>
        decide (Contains r.name q ∨ Contains r.slug q)

section Exact

variable {q : String}

/-- The list pages these rows, and counts them. -/
theorem ProjectRepository.list_eq (db : Database) (organizationId : String)
    (params : ProjectListParams) : list db organizationId params
      = (page ((params.page - 1) * params.pageSize) params.pageSize
          (params.sort (listedProjects db organizationId params)),
        (listedProjects db organizationId params).length) := rfl

/-- Empty text does not narrow, and is found everywhere. -/
theorem all_orNone {f : String → Bool} (h : f "" = true) (q : String) :
    (orNone (some q)).all f = f q := by
  by_cases hq : q = ""
  · subst hq
    exact h.symm
  · rw [orNone_of_ne hq]
    rfl

theorem ilike_empty (s : String) : ilike s ("%" ++ "" ++ "%") = true :=
  (ilike_of_plain (by decide)).mpr List.nil_infix

/-- The filter on names stands beside the others. -/
theorem FileRepository.Filters.matches_q (f : FileRepository.Filters) (q : String) (r : File) :
    ({ f with q := some q } : FileRepository.Filters).matches r
      = (ilike r.filename ("%" ++ q ++ "%")
        && ({ f with q := none } : FileRepository.Filters).matches r) := by
  have hq := all_orNone (f := fun q => ilike r.filename ("%" ++ q ++ "%"))
    (ilike_empty r.filename) q
  have hnone : (orNone none).all (fun q => ilike r.filename ("%" ++ q ++ "%")) = true := rfl
  simp only [FileRepository.Filters.matches, hq, hnone, Bool.and_true, Bool.and_assoc]
  exact Bool.and_left_comm _ _ _

theorem ProjectListParams.matches_search (params : ProjectListParams) (q : String) (r : Project) :
    ({ params with search := some q } : ProjectListParams).matches r
      = ((ilike r.name ("%" ++ q ++ "%") || ilike r.slug ("%" ++ q ++ "%"))
        && ({ params with search := none } : ProjectListParams).matches r) := by
  have hq := all_orNone
    (f := fun q => ilike r.name ("%" ++ q ++ "%") || ilike r.slug ("%" ++ q ++ "%"))
    (by rw [ilike_empty]; rfl) q
  have hnone : (orNone none).all (fun q => ilike r.name ("%" ++ q ++ "%")
    || ilike r.slug ("%" ++ q ++ "%")) = true := rfl
  simp only [ProjectListParams.matches, hq, hnone, Bool.true_and]
  exact Bool.and_assoc _ _ _

theorem ilike_eq_decide (h : Plain q.toList) (s : String) :
    ilike s ("%" ++ q ++ "%") = decide (Contains s q) := by
  rw [Bool.eq_iff_iff, ilike_of_plain h, decide_eq_true_iff]

/-- A file with a name. -/
def namedFile (filename : String) : File where
  id := "f0"
  organizationId := "acme"
  projectId := "p0"
  filename := filename
  contentType := "text/plain"
  sizeBytes := 1
  storageKey := none
  folderId := none
  metadata := []
  tags := []
  createdAt := 1
  updatedAt := 1

/-- A project with a name. -/
def namedProject (name : String) : Project where
  id := "p0"
  organizationId := "acme"
  name := name
  slug := "docs"
  description := none
  storageMode := "managed"
  storageProvider := "s3"
  createdAt := 1
  updatedAt := 1

/-- A list of projects with the defaults. -/
def firstPage : ProjectListParams := {}

/-- **A search of files is exact exactly for plain text.** -/
theorem fileSearchExact_iff : FileSearchExact q ↔ Plain q.toList := by
  constructor
  · intro h
    by_contra hplain
    obtain ⟨s, hfinds, hnot⟩ := exists_ilike_of_not_plain hplain
    have hsearch := h (Function.update Database.empty .files [namedFile s]) "acme" "p0" {}
    have hmatches : ({ q := some q } : FileRepository.Filters).matches (namedFile s) = true := by
      rw [FileRepository.Filters.matches_q {} q, show (namedFile s).filename = s from rfl, hfinds]
      rfl
    have hfound : namedFile s ∈ FileRepository.matching
        (Function.update Database.empty .files [namedFile s]) "acme" "p0" { q := some q } := by
      refine List.mem_filter.mpr ⟨List.mem_singleton_self _, ?_⟩
      rw [hmatches]
      rfl
    rw [hsearch] at hfound
    exact hnot (of_decide_eq_true (List.mem_filter.mp hfound).2)
  · intro h db organizationId projectId f
    simp only [FileRepository.matching, FileRepository.Filters.matches_q, ilike_eq_decide h,
      List.filter_filter]
    exact List.filter_congr fun r _ => Bool.and_left_comm _ _ _

/-- **So is a search of projects.** -/
theorem projectSearchExact_iff : ProjectSearchExact q ↔ Plain q.toList := by
  constructor
  · intro h
    by_contra hplain
    obtain ⟨s, hfinds, hnot⟩ := exists_ilike_of_not_plain hplain
    have hsearch := h (Function.update Database.empty .projects [namedProject s]) "acme" firstPage
    have hmatches : ({ firstPage with search := some q } : ProjectListParams).matches
        (namedProject s) = true := by
      rw [ProjectListParams.matches_search, show (namedProject s).name = s from rfl, hfinds]
      rfl
    have hfound : namedProject s ∈ listedProjects
        (Function.update Database.empty .projects [namedProject s]) "acme"
        { firstPage with search := some q } := by
      refine List.mem_filter.mpr ⟨List.mem_singleton_self _, ?_⟩
      rw [hmatches]
      rfl
    rw [hsearch] at hfound
    refine (of_decide_eq_true (List.mem_filter.mp hfound).2).elim hnot fun hslug => hplain ?_
    -- the slug has no character of a pattern
    have hmem : ∀ c ∈ (lower q).toList, c ∈ (lower "docs").toList :=
      fun c hc => hslug.subset hc
    refine plain_lower_iff.mp ⟨fun hc => ?_, fun hc => ?_, fun hc => ?_⟩
    · exact absurd (hmem _ hc) (by decide)
    · exact absurd (hmem _ hc) (by decide)
    · exact absurd (hmem _ hc) (by decide)
  · intro h db organizationId params
    simp only [listedProjects, ProjectListParams.matches_search, ilike_eq_decide h,
      List.filter_filter, ← Bool.decide_or]
    exact List.filter_congr fun r _ => Bool.and_left_comm _ _ _

end Exact

/-- **Searches of names are exact exactly for plain text.** -/
theorem textSearch_iff (q : String) : (FileSearchExact q ↔ Plain q.toList)
    ∧ (ProjectSearchExact q ↔ Plain q.toList) :=
  ⟨fileSearchExact_iff, projectSearchExact_iff⟩

/-- A project with a file in it. -/
def searchedCalls : List ServiceCall :=
  [⟨orgContext "acme", devEnv "p" 1, "", .createProject devProject⟩,
   ⟨orgContext "acme", devEnv "f" 2, "p0", .initUpload
     { filename := "a.txt", contentType := "text/plain", sizeBytes := 1 }⟩]

/-- An underscore finds a file that has none in its name. -/
theorem underscore_search : ¬∀ (db : Database), Reached db →
    ∀ (organizationId projectId q : String) (f : FileRepository.Filters)
      (params : ProjectListParams),
      FileRepository.matching db organizationId projectId { f with q := some q }
          = (FileRepository.matching db organizationId projectId { f with q := none }).filter
            (fun r => decide (Contains r.filename q))
        ∧ listedProjects db organizationId { params with search := some q }
          = (listedProjects db organizationId { params with search := none }).filter
            fun r => decide (Contains r.name q ∨ Contains r.slug q) := by
  intro h
  have hsearch := (h (runAll searchedCalls Database.empty) (reached_runAll .empty _) "acme" "p0" "_"
    {} firstPage).1
  exact absurd hsearch (by decide)

end FileNest
