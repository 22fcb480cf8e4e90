import FileNest.Usage.Totals

/-!
# Storage by day

The dashboard shows storage as a running total of the days of the last month on which files were
created.  The totals start from nothing, so what is older than a month is left out of all of them.

## Main definitions

* `windowFiles`, `olderFiles` — the files of the last 30 days, and those before.
* `SeriesRuns` — each point is the storage up to its day, and the last one all of it.
* `SeriesStarts` — what the files must be for that.

## Main results

* `mem_getStorageByDay_iff` — what the points of the series are.
* `seriesRuns_iff` — **they are the running total exactly if what is older has no size.**
* `older_left_out` — a file from before.
-/

namespace FileNest

open RowStore Sql UsageRepository DashboardRepository

section StorageByDay

variable (db : Database) (now : ℕ) (organizationId : String)

/-- The files of the last 30 days. -/
def windowFiles : List File :=
  (liveFiles db organizationId).filter fun f => decide (now - 30 * day ≤ f.createdAt)

/-- The files from before. -/
def olderFiles : List File :=
  (liveFiles db organizationId).filter fun f => !decide (now - 30 * day ≤ f.createdAt)

/-- The newest file is one of the last 30 days. -/
def NewestInWindow : Prop :=
  ∃ f ∈ liveFiles db organizationId, now - 30 * day ≤ f.createdAt
    ∧ ∀ g ∈ liveFiles db organizationId, g.createdAt ≤ f.createdAt

/-- Each point is the storage of all files created up to its day; so the points do not decrease,
and the last is the total if the newest file is in the window. -/
structure SeriesRuns : Prop where
  points : ∀ d n, (d, n) ∈ getStorageByDay db now organizationId →
    n = totalSize ((liveFiles db organizationId).filter fun f => decide (dateOf f.createdAt ≤ d))
  nondecreasing : (getStorageByDay db now organizationId).Pairwise fun a b => a.2 ≤ b.2
  last : NewestInWindow db now organizationId →
    (getStorageByDay db now organizationId).getLast?.map Prod.snd
      = some (getStats db now organizationId).totalStorageBytes

/-- What is older has no size, if there are any points; and no day after the first has a negative
one. -/
structure SeriesStarts : Prop where
  older : windowFiles db now organizationId ≠ [] → totalSize (olderFiles db now organizationId) = 0
  nonneg : ∀ f ∈ windowFiles db now organizationId,
    (∃ g ∈ windowFiles db now organizationId, dateOf g.createdAt < dateOf f.createdAt) →
    0 ≤ totalSize ((windowFiles db now organizationId).filter fun g =>
      dateOf g.createdAt == dateOf f.createdAt)

end StorageByDay

/-! ### The points -/

section Points

variable {db : Database} {now : ℕ} {organizationId : String}

theorem cumulative_eq (total : ℤ) (rows : List (ℕ × ℤ)) :
    cumulative total rows = runningTotals total rows := by
  induction rows generalizing total with
  | nil => rfl
  | cons row rows ih => exact congrArg ((row.1, total + row.2) :: ·) (ih _)

/-- The sizes of the files of each day. -/
theorem getStorageByDay_eq : getStorageByDay db now organizationId
    = runningTotals 0 ((filesByDay db now organizationId).map fun g => (g.1, totalSize g.2)) :=
  cumulative_eq 0 _

theorem pairwise_filesByDay : ((filesByDay db now organizationId).map
    fun g => (g.1, totalSize g.2)).Pairwise fun a b => a.1 < b.1 :=
  List.pairwise_map.mpr (pairwise_orderBy_groupBy _ _)

theorem mem_filesByDay_iff {g : ℕ × List File} : g ∈ filesByDay db now organizationId ↔
    (∃ f ∈ windowFiles db now organizationId, dateOf f.createdAt = g.1) ∧
      g.2 = (windowFiles db now organizationId).filter fun f => dateOf f.createdAt == g.1 := by
  rw [filesByDay, mem_orderBy]
  exact mem_groupBy_iff

/-- The day of a file has a group. -/
theorem mem_filesByDay {f : File} (hf : f ∈ windowFiles db now organizationId) :
    (dateOf f.createdAt, (windowFiles db now organizationId).filter fun g =>
      dateOf g.createdAt == dateOf f.createdAt) ∈ filesByDay db now organizationId :=
  mem_filesByDay_iff.mpr ⟨⟨f, hf, rfl⟩, rfl⟩

/-- The files of the days that pass a filter. -/
theorem sum_filesByDay (p : ℕ → Bool) :
    sumBy Prod.snd (((filesByDay db now organizationId).map fun g => (g.1, totalSize g.2)).filter
      fun row => p row.1)
      = totalSize ((windowFiles db now organizationId).filter fun f => p (dateOf f.createdAt)) := by
  rw [List.filter_map, filesByDay, sumBy_perm (((perm_orderBy _ _).filter _).map _), sumBy,
    List.map_map]
  exact sum_sumBy_groupBy (fun f : File => dateOf f.createdAt) p

/-- **What the points of the series are**: a day of the window, and the files of the window up to
that day. -/
theorem mem_getStorageByDay_iff {d : ℕ} {n : ℤ} : (d, n) ∈ getStorageByDay db now organizationId ↔
    (∃ f ∈ windowFiles db now organizationId, dateOf f.createdAt = d) ∧
      n = totalSize ((windowFiles db now organizationId).filter fun f =>
        decide (dateOf f.createdAt ≤ d)) := by
  rw [getStorageByDay_eq, mem_runningTotals_iff pairwise_filesByDay, zero_add,
    sum_filesByDay fun day => decide (day ≤ d)]
  refine and_congr_left fun _ => ?_
  rw [List.map_map, List.mem_map]
  constructor
  · rintro ⟨g, hg, rfl⟩
    exact (mem_filesByDay_iff.mp hg).1
  · rintro ⟨f, hf, rfl⟩
    exact ⟨_, mem_filesByDay hf, rfl⟩

/-- What is older is from an earlier day than any file of the window, or the same. -/
theorem dateOf_le_of_older {f g : File} (hf : f ∈ windowFiles db now organizationId)
    (hg : g ∈ olderFiles db now organizationId) : dateOf g.createdAt ≤ dateOf f.createdAt := by
  have hwindow := of_decide_eq_true (List.mem_filter.mp hf).2
  have holder := (List.mem_filter.mp hg).2
  rw [Bool.not_eq_true', decide_eq_false_iff_not, not_le] at holder
  exact Nat.div_le_div_right (holder.le.trans hwindow)

/-- All files up to a day of the window: those of the window, and all that is older. -/
theorem totalSize_upTo {f : File} (hf : f ∈ windowFiles db now organizationId) :
    totalSize ((liveFiles db organizationId).filter fun g =>
        decide (dateOf g.createdAt ≤ dateOf f.createdAt))
      = totalSize ((windowFiles db now organizationId).filter fun g =>
        decide (dateOf g.createdAt ≤ dateOf f.createdAt))
        + totalSize (olderFiles db now organizationId) := by
  have hwindow : ((liveFiles db organizationId).filter fun g =>
      decide (dateOf g.createdAt ≤ dateOf f.createdAt)).filter
        (fun g => decide (now - 30 * day ≤ g.createdAt))
      = (windowFiles db now organizationId).filter fun g =>
        decide (dateOf g.createdAt ≤ dateOf f.createdAt) := List.filter_comm _ _ _
  have holder : ((liveFiles db organizationId).filter fun g =>
      decide (dateOf g.createdAt ≤ dateOf f.createdAt)).filter
        (fun g => !decide (now - 30 * day ≤ g.createdAt))
      = olderFiles db now organizationId := by
    refine (List.filter_comm _ _ _).trans (List.filter_eq_self.mpr fun g hg => ?_)
    exact decide_eq_true (dateOf_le_of_older hf hg)
  rw [← hwindow, ← holder]
  exact (sumBy_filter_add _).symm

theorem totalSize_window_add_older :
    totalSize (windowFiles db now organizationId) + totalSize (olderFiles db now organizationId)
      = (getStats db now organizationId).totalStorageBytes :=
  sumBy_filter_add _

/-- The last point is the storage of the window. -/
theorem getLast?_getStorageByDay (h : windowFiles db now organizationId ≠ []) :
    (getStorageByDay db now organizationId).getLast?.map Prod.snd
      = some (totalSize (windowFiles db now organizationId)) := by
  obtain ⟨f, hf⟩ := List.exists_mem_of_ne_nil _ h
  have hrow := List.mem_map_of_mem (f := fun g : ℕ × List File => (g.1, totalSize g.2))
    (mem_filesByDay hf)
  have hall := @sum_filesByDay db now organizationId fun _ => true
  rw [List.filter_true, List.filter_true] at hall
  rw [getStorageByDay_eq, getLast?_runningTotals (List.ne_nil_of_mem hrow), zero_add, hall]

/-- Rows behind the first of a sorted series. -/
theorem mem_tail_iff {rows : List (ℕ × ℤ)} (h : rows.Pairwise fun a b => a.1 < b.1) {row : ℕ × ℤ} :
    row ∈ rows.tail ↔ row ∈ rows ∧ ∃ row' ∈ rows, row'.1 < row.1 := by
  cases rows with
  | nil => exact iff_of_false List.not_mem_nil fun hrow => List.not_mem_nil hrow.1
  | cons first rows =>
    obtain ⟨hfirst, -⟩ := List.pairwise_cons.mp h
    rw [List.tail_cons]
    constructor
    · exact fun hrow => ⟨List.mem_cons_of_mem _ hrow, first, List.mem_cons_self, hfirst row hrow⟩
    · rintro ⟨hrow, row', hrow', hlt⟩
      refine (List.mem_cons.mp hrow).resolve_left ?_
      rintro rfl
      rcases List.mem_cons.mp hrow' with rfl | hrow'
      · exact lt_irrefl _ hlt
      · exact lt_asymm hlt (hfirst row' hrow')

/-- When the points do not decrease. -/
theorem nondecreasing_iff :
    ((getStorageByDay db now organizationId).Pairwise fun a b => a.2 ≤ b.2) ↔
      ∀ f ∈ windowFiles db now organizationId,
        (∃ g ∈ windowFiles db now organizationId, dateOf g.createdAt < dateOf f.createdAt) →
        0 ≤ totalSize ((windowFiles db now organizationId).filter fun g =>
          dateOf g.createdAt == dateOf f.createdAt) := by
  rw [getStorageByDay_eq, pairwise_runningTotals_iff]
  simp only [mem_tail_iff pairwise_filesByDay, List.mem_map, exists_exists_and_eq_and]
  constructor
  · rintro h f hf ⟨g, hg, hlt⟩
    exact h _ ⟨⟨_, mem_filesByDay hf, rfl⟩, _, mem_filesByDay hg, hlt⟩
  · rintro h _ ⟨⟨group, hgroup, rfl⟩, earlier, hearlier, hlt⟩
    obtain ⟨⟨f, hf, hday⟩, hfiles⟩ := mem_filesByDay_iff.mp hgroup
    obtain ⟨⟨g, hg, hday'⟩, -⟩ := mem_filesByDay_iff.mp hearlier
    have hnonneg := h f hf ⟨g, hg, by rwa [hday, hday']⟩
    rw [hday, ← hfiles] at hnonneg
    exact hnonneg

/-- A running total counts what is older. -/
theorem SeriesRuns.starts (h : SeriesRuns db now organizationId) :
    SeriesStarts db now organizationId := by
  refine ⟨fun hne => ?_, nondecreasing_iff.mp h.nondecreasing⟩
  -- any day of the window has a point
  obtain ⟨f, hf⟩ := List.exists_mem_of_ne_nil _ hne
  have hpoint := h.points _ _ (mem_getStorageByDay_iff.mpr ⟨⟨f, hf, rfl⟩, rfl⟩)
  rw [totalSize_upTo hf] at hpoint
  exact left_eq_add.mp hpoint

end Points

/-- **The series is the running total exactly if what is older has no size** and no later day has
a negative one. -/
theorem seriesRuns_iff (db : Database) (now : ℕ) (organizationId : String) :
    SeriesRuns db now organizationId ↔ SeriesStarts db now organizationId := by
  constructor
  · exact SeriesRuns.starts
  · intro h
    refine ⟨fun d n hpoint => ?_, nondecreasing_iff.mpr h.nonneg, ?_⟩
    · obtain ⟨⟨f, hf, rfl⟩, rfl⟩ := mem_getStorageByDay_iff.mp hpoint
      rw [totalSize_upTo hf, h.older (List.ne_nil_of_mem hf), add_zero]
    · rintro ⟨f, hf, hwindow, -⟩
      have hne : windowFiles db now organizationId ≠ [] :=
        List.ne_nil_of_mem (List.mem_filter.mpr ⟨hf, decide_eq_true hwindow⟩)
      rw [getLast?_getStorageByDay hne, ← totalSize_window_add_older, h.older hne, add_zero]

/-- A file, and another one forty days later. -/
def olderUpload : List ServiceCall :=
  [⟨orgContext "acme", devEnv "p" 1, "", .createProject devProject⟩,
   ⟨orgContext "acme", devEnv "f" 2, "p0", .initUpload
     { filename := "a.txt", contentType := "text/plain", sizeBytes := 1 }⟩,
   ⟨orgContext "acme", devEnv "g" (40 * day), "p0", .initUpload
     { filename := "b.txt", contentType := "text/plain", sizeBytes := 1 }⟩]

/-- The first file is left out of the series. -/
theorem older_left_out : ¬∀ db now organizationId, Reached db →
    SeriesRuns db now organizationId := by
  intro h
  have hruns := h (runAll olderUpload Database.empty) (40 * day) "acme" (reached_runAll .empty _)
  exact absurd (hruns.starts.older (by decide)) (by decide)

end FileNest
