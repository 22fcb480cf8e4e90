import FileNest.Lib.Lease
import FileNest.Usage.StorageByDay

/-!
# The dashboard

The groups of the dashboard count the same files in different ways: by status, by day, and one by
one.  The list of recent files joins every file to its project, deleted or not.

## Main definitions

* `DashboardAgrees` — what the groups have to do with each other, and with the files.

## Main results

* `map_fst_joinedProjects` — the join with the projects neither loses nor repeats a file.
* `dashboard_agrees` — **the groups agree**, on every database the operations reach.
-/

namespace FileNest

open RowStore Sql UsageRepository DashboardRepository

/-- The groups of a dashboard agree with each other and with the files. -/
structure DashboardAgrees (db : Database) (now : ℕ) (organizationId : String)
    (d : DashboardResponse) : Prop where
  statuses_nodup : (d.statusDistribution.map Prod.fst).Nodup
  statuses : ∀ status n, (status, n) ∈ d.statusDistribution ↔ 0 < n ∧
    n = ((liveFiles db organizationId).filter fun f => f.status == status).length
  statuses_descending : d.statusDistribution.Pairwise fun a b => b.2 ≤ a.2
  statuses_total : (d.statusDistribution.map Prod.snd).sum = d.stats.totalFiles
  days_ascending : d.uploadsByDay.Pairwise fun a b => a.1 < b.1
  days_recent : ∀ row ∈ d.uploadsByDay, dateOf (now - 30 * day) ≤ row.1 ∧ 0 < row.2
  days_total : (d.uploadsByDay.map Prod.snd).sum = d.stats.filesUploaded30d
  days_storage : d.storageByDay.map Prod.fst = d.uploadsByDay.map Prod.fst
  recent_length : d.recentFiles.length = min 10 d.stats.totalFiles
  recent_nodup : (d.recentFiles.map RecentFile.id).Nodup
  recent_descending : d.recentFiles.Pairwise fun a b => b.createdAt ≤ a.createdAt
  /-- Every row is of a file and its project. -/
  recent_rows : ∀ row ∈ d.recentFiles, ∃ f ∈ liveFiles db organizationId,
    ∃ p ∈ db .projects, Project.id p = f.projectId ∧ Project.organizationId p = organizationId ∧
      row = ⟨f.id, f.filename, f.projectId, Project.name p, f.status, f.sizeBytes, f.createdAt⟩
  /-- What is not listed is not newer. -/
  recent_newest : ∀ f ∈ liveFiles db organizationId, f.id ∉ d.recentFiles.map RecentFile.id →
    ∀ row ∈ d.recentFiles, f.createdAt ≤ row.createdAt

section Dashboard

variable {db : Database} {now : ℕ} {organizationId : String}

/-! ### Counts -/

theorem mem_statusDistribution_iff {status : FileStatus} {n : ℕ} :
    (status, n) ∈ getStatusDistribution db organizationId ↔ 0 < n ∧
      n = ((liveFiles db organizationId).filter fun f => f.status == status).length := by
  rw [getStatusDistribution, (perm_orderByDesc _ _).mem_iff, List.mem_map]
  constructor
  · rintro ⟨⟨status', files⟩, hg, heq⟩
    obtain ⟨⟨f, hf, hstatus⟩, hfiles⟩ := mem_groupBy_iff.mp hg
    obtain ⟨rfl, rfl⟩ := Prod.mk.inj heq
    refine ⟨List.length_pos_of_mem (a := f) ?_, congrArg List.length hfiles⟩
    rw [hfiles]
    exact List.mem_filter.mpr ⟨hf, beq_iff_eq.mpr hstatus⟩
  · rintro ⟨hpos, rfl⟩
    obtain ⟨f, hf⟩ := List.exists_mem_of_length_pos hpos
    obtain ⟨hf, hstatus⟩ := List.mem_filter.mp hf
    exact ⟨⟨status, _⟩, mem_groupBy_iff.mpr ⟨⟨f, hf, beq_iff_eq.mp hstatus⟩, rfl⟩, rfl⟩

theorem nodup_statusDistribution :
    ((getStatusDistribution db organizationId).map Prod.fst).Nodup := by
  rw [getStatusDistribution, ((perm_orderByDesc _ _).map _).nodup_iff, List.map_map]
  exact nodup_groupBy _ _

/-- The sizes of the groups add up to the number of rows. -/
theorem sum_length_groupBy {α κ : Type} [DecidableEq κ] (key : α → κ) (rows : List α) :
    ((groupBy key rows).map fun g => g.2.length).sum = rows.length := by
  simp only [length_eq_sumBy]
  exact sum_sumBy_groups key

theorem sum_statusDistribution : ((getStatusDistribution db organizationId).map Prod.snd).sum
    = (getStats db now organizationId).totalFiles := by
  rw [getStatusDistribution, ((perm_orderByDesc _ _).map _).sum_eq, List.map_map]
  exact sum_length_groupBy _ _

theorem sum_uploadsByDay : ((getUploadsByDay db now organizationId).map Prod.snd).sum
    = (getStats db now organizationId).filesUploaded30d := by
  rw [getUploadsByDay, List.map_map, filesByDay, ((perm_orderBy _ _).map _).sum_eq]
  exact sum_length_groupBy _ _

theorem uploadsByDay_recent : ∀ row ∈ getUploadsByDay db now organizationId,
    dateOf (now - 30 * day) ≤ row.1 ∧ 0 < row.2 := by
  intro row hrow
  obtain ⟨g, hg, rfl⟩ := List.mem_map.mp hrow
  obtain ⟨⟨f, hf, hday⟩, hfiles⟩ := mem_filesByDay_iff.mp hg
  have hwindow : now - 30 * day ≤ f.createdAt := of_decide_eq_true (List.mem_filter.mp hf).2
  refine ⟨hday ▸ Nat.div_le_div_right hwindow, List.length_pos_of_mem (a := f) ?_⟩
  rw [hfiles]
  exact List.mem_filter.mpr ⟨hf, beq_iff_eq.mpr hday⟩

theorem storageByDay_days : (getStorageByDay db now organizationId).map Prod.fst
    = (getUploadsByDay db now organizationId).map Prod.fst := by
  have hcumulative : ∀ (rows : List (ℕ × ℤ)) (total : ℤ),
      (cumulative total rows).map Prod.fst = rows.map Prod.fst := by
    intro rows
    induction rows with
    | nil => exact fun _ => rfl
    | cons row rows ih => exact fun total => congrArg (row.1 :: ·) (ih _)
  rw [getStorageByDay, hcumulative, getUploadsByDay, List.map_map, List.map_map]
  rfl

/-! ### Recent files -/

/-- A file has one project. -/
theorem filter_projects (hdb : db.Good) {f : File} (hf : f ∈ liveFiles db organizationId) :
    ∃ p ∈ db .projects, Project.id p = f.projectId ∧ Project.organizationId p = organizationId ∧
      (db .projects).filter (fun (q : Project) => q.id == f.projectId) = [p] := by
  obtain ⟨hmem, ho, -⟩ := mem_liveFiles.mp hf
  obtain ⟨p, hp, hid, hpo⟩ := File.project hdb hmem
  exact ⟨p, hp, hid, hpo.trans ho, Lease.filter_eq_singleton (hdb.uniquePk .projects) hp
    (beq_iff_eq.mpr hid) fun q hq => (beq_iff_eq.mp hq).trans hid.symm⟩

/-- The rows of the join. -/
def joinedProjects (db : Database) (organizationId : String) : List (File × Project) :=
  (liveFiles db organizationId).flatMap fun (f : File) =>
    ((db .projects).filter fun (p : Project) => p.id == f.projectId).map fun p => (f, p)

/-- **The join neither loses nor repeats a file.** -/
theorem map_fst_joinedProjects (hdb : db.Good) :
    (joinedProjects db organizationId).map Prod.fst = liveFiles db organizationId := by
  rw [joinedProjects, List.map_flatMap]
  refine (List.flatMap_congr fun f hf => ?_).trans (List.flatMap_singleton' _)
  obtain ⟨p, -, -, -, hone⟩ := filter_projects hdb hf
  rw [hone]
  rfl

theorem getRecentFiles_eq (limit : ℕ) : getRecentFiles db organizationId limit
    = ((orderByDesc (fun row : File × Project => row.1.createdAt)
        (joinedProjects db organizationId)).take limit).map fun row =>
      ⟨row.1.id, row.1.filename, row.1.projectId, row.2.name, row.1.status, row.1.sizeBytes,
        row.1.createdAt⟩ := rfl

/-- **The recent files are the newest**, whatever their projects are. -/
theorem recentFiles_map (hdb : db.Good) (limit : ℕ) {β : Type} {column : RecentFile → β}
    {column' : File → β} (h : ∀ (f : File) (name : String), column
      ⟨f.id, f.filename, f.projectId, name, f.status, f.sizeBytes, f.createdAt⟩ = column' f) :
    (getRecentFiles db organizationId limit).map column
      = ((orderByDesc File.createdAt (liveFiles db organizationId)).take limit).map column' := by
  rw [← map_fst_joinedProjects hdb, ← map_orderByDesc, getRecentFiles_eq, List.map_map,
    ← List.map_take, List.map_map]
  exact List.map_congr_left fun row _ => h row.1 row.2.name

theorem recentFiles_ids (hdb : db.Good) (limit : ℕ) :
    (getRecentFiles db organizationId limit).map RecentFile.id
      = ((orderByDesc File.createdAt (liveFiles db organizationId)).take limit).map File.id :=
  recentFiles_map hdb limit fun _ _ => rfl

theorem recentFiles_rows (hdb : db.Good) (limit : ℕ) :
    ∀ row ∈ getRecentFiles db organizationId limit, ∃ f ∈ liveFiles db organizationId,
      ∃ p ∈ db .projects, Project.id p = f.projectId ∧ Project.organizationId p = organizationId ∧
        row = ⟨f.id, f.filename, f.projectId, Project.name p, f.status, f.sizeBytes,
          f.createdAt⟩ := by
  intro row hrow
  rw [getRecentFiles_eq] at hrow
  obtain ⟨⟨f, p⟩, hjoined, rfl⟩ := List.mem_map.mp hrow
  have hmem := (perm_orderByDesc _ _).mem_iff.mp (List.mem_of_mem_take hjoined)
  obtain ⟨f', hf, hp⟩ := List.mem_flatMap.mp hmem
  obtain ⟨p', hp', heq⟩ := List.mem_map.mp hp
  obtain ⟨rfl, rfl⟩ := Prod.mk.inj heq
  obtain ⟨q, hq, hid, ho, hone⟩ := filter_projects hdb hf
  rw [hone] at hp'
  obtain rfl := List.mem_singleton.mp hp'
  exact ⟨f', hf, p', hq, hid, ho, rfl⟩

theorem recentFiles_descending (limit : ℕ) : (getRecentFiles db organizationId limit).Pairwise
    fun a b => b.createdAt ≤ a.createdAt := by
  rw [getRecentFiles_eq, List.pairwise_map]
  exact (sorted_orderByDesc _ _).sublist (List.take_sublist _ _)

theorem recentFiles_length (hdb : db.Good) (limit : ℕ) :
    (getRecentFiles db organizationId limit).length
      = min limit (getStats db now organizationId).totalFiles := by
  have hlength : ((getRecentFiles db organizationId limit).map RecentFile.id).length = _ :=
    congrArg List.length (recentFiles_ids hdb limit)
  rwa [List.length_map, List.length_map, List.length_take, length_orderByDesc] at hlength

theorem recentFiles_nodup (hdb : db.Good) (limit : ℕ) :
    ((getRecentFiles db organizationId limit).map RecentFile.id).Nodup := by
  rw [recentFiles_ids hdb, List.map_take]
  refine List.Nodup.sublist (List.take_sublist _ _) ?_
  rw [((perm_orderByDesc _ _).map _).nodup_iff]
  exact (hdb.uniquePk .files).sublist (List.filter_sublist.map _)

/-- What comes later in the order is not newer. -/
theorem recentFiles_newest (hdb : db.Good) (limit : ℕ) :
    ∀ f ∈ liveFiles db organizationId,
      f.id ∉ (getRecentFiles db organizationId limit).map RecentFile.id →
      ∀ row ∈ getRecentFiles db organizationId limit, f.createdAt ≤ row.createdAt := by
  intro f hf hnot row hrow
  have hrow' := List.mem_map_of_mem (f := RecentFile.createdAt) hrow
  rw [recentFiles_map hdb limit fun _ _ => rfl] at hrow'
  obtain ⟨f', hf', hcreated⟩ := List.mem_map.mp hrow'
  have hsorted := sorted_orderByDesc File.createdAt (liveFiles db organizationId)
  rw [← List.take_append_drop limit (orderByDesc _ _), List.pairwise_append] at hsorted
  have hmem := (perm_orderByDesc File.createdAt _).mem_iff.mpr hf
  rw [← List.take_append_drop limit (orderByDesc _ _)] at hmem
  rcases List.mem_append.mp hmem with hlisted | hmore
  · rw [recentFiles_ids hdb] at hnot
    exact absurd (List.mem_map_of_mem hlisted) hnot
  · exact hcreated ▸ hsorted.2.2 f' hf' f hmore

/-- **The groups agree**, on every database whose rows refer to each other. -/
theorem dashboard_agrees (hdb : db.Good) (ctx : TenantContext) (env : Env) :
    ∃ d, DashboardService.getDashboard ctx env db = readOnly (.dashboard d) ∧
      DashboardAgrees db env.now ctx.organizationId d :=
  ⟨_, rfl, {
    statuses_nodup := nodup_statusDistribution
    statuses := fun _ _ => mem_statusDistribution_iff
    statuses_descending := sorted_orderByDesc _ _
    statuses_total := sum_statusDistribution
    days_ascending := List.pairwise_map.mpr (pairwise_orderBy_groupBy _ _)
    days_recent := uploadsByDay_recent
    days_total := sum_uploadsByDay
    days_storage := storageByDay_days
    recent_length := recentFiles_length hdb 10
    recent_nodup := recentFiles_nodup hdb 10
    recent_descending := recentFiles_descending 10
    recent_rows := recentFiles_rows hdb 10
    recent_newest := recentFiles_newest hdb 10 }⟩

end Dashboard

/-- A file of a deleted project is still counted and listed, under the project's name. -/
theorem dashboard_agrees_retained :
    let db := runAll retainedCalls Database.empty
    ∃ d, DashboardService.getDashboard (orgContext "acme") (devEnv "d" 4) db
        = readOnly (.dashboard d) ∧
      DashboardAgrees db 4 "acme" d ∧ d.recentFiles.length = 1 := by
  intro db
  obtain ⟨d, hd, hagrees⟩ := dashboard_agrees (reached_runAll .empty retainedCalls).good
    (orgContext "acme") (devEnv "d" 4)
  have hstats : d.stats = getStats db 4 "acme" :=
    congrArg DashboardResponse.stats
      (Response.dashboard.inj (Prod.mk.inj (Except.ok.inj hd)).1).symm
  refine ⟨d, hd, hagrees, hagrees.recent_length.trans ?_⟩
  rw [hstats]
  exact show min 10 (getStats db 4 "acme").totalFiles = 1 by decide

end FileNest
