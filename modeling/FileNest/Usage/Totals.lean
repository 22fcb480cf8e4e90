import FileNest.Lib.Aggregates
import FileNest.Reachable
import FileNest.Versioning
import Mathlib.Algebra.GroupWithZero.Nat
import Mathlib.Algebra.Ring.Int.Defs

/-!
# Totals and breakdown of usage

The usage page shows the totals of an organisation beside a row for each of its projects.  The
totals count all files that are not deleted; the rows are those of active projects.  Files of a
deleted project are retained, so they count and have no row.

## Main definitions

* `retainedFiles` — the files of deleted projects.

## Main results

* `sum_breakdown` — what the rows add up to, in any weight.
* `usage_totals` — **the totals are the sums of the rows and the retained files.**
* `retained_upload` — a file of a deleted project.
-/

namespace FileNest

open RowStore Sql UsageRepository

/-- The files of an organisation that are not deleted while their project is. -/
def retainedFiles (db : Database) (organizationId : String) : List File :=
  (liveFiles db organizationId).filter fun f =>
    (db .projects).any fun (p : Project) => p.id == f.projectId && p.deletedAt.isSome

section Totals

variable {db : Database} {organizationId : String}

theorem mem_liveFiles {f : File} : f ∈ liveFiles db organizationId ↔
    f ∈ db .files ∧ f.organizationId = organizationId ∧ f.deletedAt = none := by
  rw [liveFiles, List.mem_filter, Bool.and_eq_true, beq_iff_eq, Option.isNone_iff_eq_none]

theorem mem_liveProjects {p : Project} : p ∈ liveProjects db organizationId ↔
    p ∈ db .projects ∧ p.organizationId = organizationId ∧ p.deletedAt = none := by
  rw [liveProjects, List.mem_filter, Bool.and_eq_true, beq_iff_eq, Option.isNone_iff_eq_none]

theorem nodup_liveProjects (hdb : db.Good) :
    ((liveProjects db organizationId).map Project.id).Nodup :=
  (hdb.uniquePk .projects).sublist (List.filter_sublist.map _)

/-- The project of a file, which is of the same organisation. -/
theorem File.project (hdb : db.Good) {f : File} (hf : f ∈ db .files) :
    ∃ p ∈ db .projects, Project.id p = f.projectId
      ∧ Project.organizationId p = f.organizationId := by
  have hkey := hdb.referential .files f hf _ rfl
  obtain ⟨p, hp, hid, howner⟩ := exists_of_mem_keys (s := db) (t := Table.projects) hkey
  simp only [owner_eq_rowOwner, rowOwner, Owner.mk.injEq] at howner
  exact ⟨p, hp, hid, howner.1⟩

/-- The breakdown joins on the project alone, which makes no difference. -/
theorem joinedFiles_eq (hdb : db.Good) {p : Project} (hp : p ∈ liveProjects db organizationId) :
    joinedFiles db p.id = (liveFiles db organizationId).filter fun f => f.projectId == p.id := by
  obtain ⟨hmem, ho, -⟩ := mem_liveProjects.mp hp
  rw [joinedFiles, liveFiles, List.filter_filter]
  refine List.filter_congr fun (f : File) hf => ?_
  cases hid : f.projectId == p.id with
  | false => rfl
  | true =>
    obtain ⟨q, hq, hqid, hqo⟩ := File.project hdb hf
    obtain rfl : q = p :=
      hdb.uniquePk.eq_of_pk (t := .projects) hq hmem (hqid.trans (beq_iff_eq.mp hid))
    rw [← hqo, ho, beq_self_eq_true, Bool.true_and, Bool.true_and]

/-- A file has a row exactly if it is not retained. -/
theorem retained_iff (hdb : db.Good) {f : File} (hf : f ∈ liveFiles db organizationId) :
    ((db .projects).any fun (p : Project) => p.id == f.projectId && p.deletedAt.isSome)
      = !decide (f.projectId ∈ (liveProjects db organizationId).map Project.id) := by
  obtain ⟨hmem, ho, -⟩ := mem_liveFiles.mp hf
  obtain ⟨p, hp, hid, hpo⟩ := File.project hdb hmem
  have hself : ∀ q ∈ (db .projects : List Project), q.id = f.projectId → q = p :=
    fun q hq hqid => hdb.uniquePk.eq_of_pk (t := .projects) hq hp (hqid.trans hid.symm)
  rw [Bool.eq_iff_iff, List.any_eq_true, Bool.not_eq_true', decide_eq_false_iff_not]
  simp only [Bool.and_eq_true, beq_iff_eq]
  constructor
  · rintro ⟨q, hq, hqid, hdeleted⟩ hlive
    obtain ⟨q', hq', hqid'⟩ := List.mem_map.mp hlive
    obtain ⟨hmem', -, hnone⟩ := mem_liveProjects.mp hq'
    rw [hself q hq hqid, ← hself q' hmem' hqid', hnone] at hdeleted
    cases hdeleted
  · intro hnot
    refine ⟨p, hp, hid, ?_⟩
    cases hdeleted : p.deletedAt with
    | some _ => rfl
    | none =>
      exact absurd (List.mem_map.mpr ⟨p, mem_liveProjects.mpr ⟨hp, hpo.trans ho, hdeleted⟩, hid⟩)
        hnot

/-- **What the rows add up to**, in any weight of files. -/
theorem sum_breakdown (hdb : db.Good) {M : Type} [AddCommMonoid M] (w : File → M) :
    ((liveProjects db organizationId).map fun p => sumBy w (joinedFiles db p.id)).sum
        + sumBy w (retainedFiles db organizationId)
      = sumBy w (liveFiles db organizationId) := by
  have hjoined : (liveProjects db organizationId).map (fun p => sumBy w (joinedFiles db p.id))
      = ((liveProjects db organizationId).map Project.id).map fun id =>
          sumBy w ((liveFiles db organizationId).filter fun f => f.projectId == id) := by
    rw [List.map_map]
    exact List.map_congr_left fun p hp => congrArg (sumBy w) (joinedFiles_eq hdb hp)
  have hretained : retainedFiles db organizationId = (liveFiles db organizationId).filter fun f =>
      !decide (f.projectId ∈ (liveProjects db organizationId).map Project.id) :=
    List.filter_congr fun f hf => retained_iff hdb hf
  rw [hjoined, sum_sumBy_key (nodup_liveProjects hdb) File.projectId, hretained]
  exact sumBy_filter_add _

/-- The order of the rows does not matter to a sum. -/
theorem sum_items {M : Type} [AddCommMonoid M] (column : ProjectUsageItem → M) :
    ((getProjectBreakdown db organizationId).map column).sum
      = ((liveProjects db organizationId).map fun p => column
          ⟨p.id, p.name, totalSize (joinedFiles db p.id), (joinedFiles db p.id).length⟩).sum := by
  rw [getProjectBreakdown, ((perm_orderByDesc _ _).map column).sum_eq, List.map_map]
  rfl

/-- **The totals are the sums of the rows and the retained files**, so they agree on the number of
files exactly if nothing is retained, and on storage if what is retained has no size. -/
theorem usage_totals (hdb : db.Good) (now : ℕ) (organizationId : String) :
    let stats := getStats db now organizationId
    let items := getProjectBreakdown db organizationId
    let retained := retainedFiles db organizationId
    (items.map ProjectUsageItem.fileCount).sum + retained.length = stats.totalFiles
      ∧ (items.map ProjectUsageItem.storageBytes).sum + totalSize retained
        = stats.totalStorageBytes
      ∧ ((items.map ProjectUsageItem.fileCount).sum = stats.totalFiles ↔ retained = [])
      ∧ ((items.map ProjectUsageItem.storageBytes).sum = stats.totalStorageBytes ↔
        totalSize retained = 0) := by
  intro stats items retained
  have hcount :
      (items.map ProjectUsageItem.fileCount).sum + retained.length = stats.totalFiles := by
    rw [sum_items, length_eq_sumBy retained]
    simp only [length_eq_sumBy (joinedFiles _ _)]
    rw [sum_breakdown hdb, ← length_eq_sumBy]
    rfl
  have hsize : (items.map ProjectUsageItem.storageBytes).sum + totalSize retained
      = stats.totalStorageBytes := by
    rw [sum_items]
    exact sum_breakdown hdb File.sizeBytes
  refine ⟨hcount, hsize, ?_, ?_⟩
  · rw [← hcount, left_eq_add, List.length_eq_zero_iff]
  · rw [← hsize, left_eq_add]

end Totals

/-- A project with a file in it, and its deletion. -/
def retainedCalls : List ServiceCall :=
  [⟨orgContext "acme", devEnv "p" 1, "", .createProject devProject⟩,
   ⟨orgContext "acme", devEnv "f" 2, "p0", .initUpload
     { filename := "a.txt", contentType := "text/plain", sizeBytes := 1 }⟩,
   ⟨orgContext "acme", devEnv "d" 3, "p0", .deleteProject⟩]

/-- Before the deletion the rows add up to the totals. -/
theorem usage_totals_active :
    let db := runAll (retainedCalls.take 2) Database.empty
    ((getProjectBreakdown db "acme").map ProjectUsageItem.fileCount).sum
        = (getStats db 4 "acme").totalFiles
      ∧ (getStats db 4 "acme").totalFiles = 1 := by
  have htotals := usage_totals (reached_runAll .empty (retainedCalls.take 2)).good 4 "acme"
  exact ⟨htotals.2.2.1.mpr rfl, rfl⟩

/-- Afterwards the file counts and has no row. -/
theorem retained_upload : ¬∀ db now organizationId, Reached db →
    ((getProjectBreakdown db organizationId).map ProjectUsageItem.storageBytes).sum
        = (getStats db now organizationId).totalStorageBytes
      ∧ ((getProjectBreakdown db organizationId).map ProjectUsageItem.fileCount).sum
        = (getStats db now organizationId).totalFiles := by
  intro h
  have hsums := h (runAll retainedCalls Database.empty) 4 "acme" (reached_runAll .empty _)
  exact absurd hsums.2 (by decide)

end FileNest
