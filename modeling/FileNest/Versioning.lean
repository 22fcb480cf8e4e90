import FileNest.FileEffects
import FileNest.Isolation

/-!
# Version numbers

A confirmed upload, a completed multipart upload and a restore read a file's
`version_count`, add a version row with the next number and write the number back.  Two
of them that overlap take the same number.  When none of them commits on the file
between another's read and its commit, the numbers are `1, …, version_count`.

## Main definitions

* `versionNumbers`, `counts` — the version numbers of a file, the counts of all files.
* `ServiceCall.appendsVersion` — the files a call appends a version to.
* `VersionsInTurn` — no append between the read and the commit of an append.
* `Numbering` — what an operation does to counts and versions.

## Main results

* `version_numbering` — **appends that take turns number versions without gaps.**
* `version_numbering_overlap` — two confirmations that overlap do not.
-/

namespace FileNest

open RowStore ReadCommitted

/-- The version numbers of a file's rows, in table order. -/
def versionNumbers (db : Database) (fileId : String) : List ℕ :=
  ((db .fileVersions).filter fun (v : FileVersion) => v.fileId == fileId).map
    FileVersion.versionNumber

/-- The version count of every file. -/
def counts (db : Database) : List (String × ℕ) :=
  (db .files).map fun (f : File) => (f.id, f.versionCount)

/-- `SELECT version_count FROM files WHERE id = …`. -/
def versionCounts (db : Database) (fileId : String) : List ℕ :=
  ((db .files).filter fun (f : File) => f.id == fileId).map File.versionCount

/-- The call, on the database it read, appends a version to the file. -/
def ServiceCall.appendsVersion (c : ServiceCall) (snapshot : Database) (fileId : String) : Prop :=
  ∃ ws v, c.writes snapshot = some ws ∧ .insert .fileVersions v ∈ ws ∧ v.fileId = fileId

/-- A call that appends a version commits while the file's count is what it read: no other
append committed in between. -/
def VersionsInTurn : Guard Table.Row ServiceCall := fun db c snapshot =>
  ∀ i, c.appendsVersion snapshot i → versionCounts db i = versionCounts snapshot i

/-- What an operation does to version counts and versions, given the database it read. -/
inductive Numbering (snapshot : Database) (ws : List DbWrite) : Prop
  | keep (hcounts : ∀ db, counts (applyAll ws db) = counts db)
      (hversions : ∀ db, applyAll ws db .fileVersions = db .fileVersions)
  | create (fileId : String)
      (hfresh : ∀ db, Admissible ws db → ∀ f ∈ db .files, f.id ≠ fileId)
      (hcounts : ∀ db, counts (applyAll ws db) = counts db ++ [(fileId, 0)])
      (hversions : ∀ db, applyAll ws db .fileVersions = db .fileVersions)
  | append (record : File) (hrecord : record ∈ snapshot .files) (v : FileVersion)
      (hinsert : .insert .fileVersions v ∈ ws) (hfile : v.fileId = record.id)
      (hnumber : v.versionNumber = record.versionCount + 1)
      (hcounts : ∀ db, counts (applyAll ws db) = (counts db).map fun k =>
        if k.1 = record.id then (k.1, record.versionCount + 1) else k)
      (hversions : ∀ db, applyAll ws db .fileVersions = db .fileVersions ++ [v])

/-- Saving a file sets its count to the new one, where that differs. -/
theorem counts_save {record new : File} {pre post : List DbWrite}
    (hpre : ∀ w ∈ pre, w.table ≠ .files) (hpost : ∀ w ∈ post, w.table ≠ .files) (db : Database) :
    counts (applyAll (pre ++ record.save new :: post) db) = (counts db).map fun k =>
      if k.1 = record.id then (k.1, flushColumn record.versionCount new.versionCount k.2)
      else k := by
  rw [counts, applyAll_save pre hpre hpost, counts, List.map_map, List.map_map]
  refine List.map_congr_left fun (f : File) _ => ?_
  simp only [Function.comp]
  split <;> rfl

theorem counts_save_of_eq {record new : File} (hcount : new.versionCount = record.versionCount)
    {pre post : List DbWrite} (hpre : ∀ w ∈ pre, w.table ≠ .files)
    (hpost : ∀ w ∈ post, w.table ≠ .files) (db : Database) :
    counts (applyAll (pre ++ record.save new :: post) db) = counts db := by
  rw [counts_save hpre hpost, hcount]
  refine (List.map_congr_left fun k _ => ?_).trans (List.map_id' _)
  simp only [flushColumn_self]
  split <;> rfl

theorem counts_save_of_succ {record new : File} (pre : List DbWrite) {post : List DbWrite}
    (hcount : new.versionCount = record.versionCount + 1)
    (hpre : ∀ w ∈ pre, w.table ≠ .files) (hpost : ∀ w ∈ post, w.table ≠ .files) (db : Database) :
    counts (applyAll (pre ++ record.save new :: post) db) = (counts db).map fun k =>
      if k.1 = record.id then (k.1, record.versionCount + 1) else k := by
  rw [counts_save hpre hpost, hcount]
  refine List.map_congr_left fun k _ => ?_
  simp [flushColumn]

section Effects

variable {ctx : TenantContext} {env : Env} {snapshot : Database} {projectId : String}
  {op : Operation} {ws : List DbWrite}

/-- What the shape of an operation means for numbers. -/
theorem FileEffect.numbering (h : FileEffect ctx env snapshot projectId op ws) :
    Numbering snapshot ws := by
  cases h with
  | none hop hws =>
    refine .keep (fun db => ?_) fun db =>
      applyAll_of_table_ne (fun w hw => (hws w hw).fileVersions) db
    rw [counts, applyAll_of_table_ne fun w hw => (hws w hw).files, counts]
  | create hop hstatus hcount hrest =>
    rename_i record rest
    refine .create record.id (fun db hadm => hadm.1) (fun db => ?_) fun db => ?_
    · rw [counts, applyAll_cons, applyAll_of_table_ne fun w hw => (hrest w hw).files,
        apply_insert_self, List.map_append, counts, List.map_singleton, hcount]
    · rw [applyAll_cons, applyAll_of_table_ne fun w hw => (hrest w hw).fileVersions,
        apply_of_table_ne (by simp)]
  | modify pre hop hrecord hstatus hcount hpre hpost =>
    rename_i fileId record new post
    refine .keep (counts_save_of_eq hcount (fun w hw => (hpre w hw).files)
      fun w hw => (hpost w hw).files) fun db => applyAll_of_table_ne (fun w hw => ?_) db
    simp only [List.mem_append, List.mem_cons] at hw
    rcases hw with hw | rfl | hw
    · exact (hpre w hw).fileVersions
    · simp [File.save]
    · exact (hpost w hw).fileVersions
  | settle version hop hrecord hconfig hsettle hpre =>
    rename_i fileId record config status event pre
    have hevent := settleUpload_table hsettle
    have hmem := (FileRepository.of_get hrecord).1
    cases version with
    | none =>
      simp only [settleVersions, Option.map_none, Option.toList_none, List.append_nil]
      have hcount : (record.settled Option.none status env.now).versionCount
        = record.versionCount := rfl
      refine .keep (counts_save_of_eq hcount (fun w hw => (hpre w hw).files)
        (by simp [hevent])) fun db => applyAll_of_table_ne (fun w hw => ?_) db
      simp only [List.mem_append, List.mem_cons, List.not_mem_nil, or_false] at hw
      rcases hw with hw | rfl | rfl
      · exact (hpre w hw).fileVersions
      · simp [File.save]
      · simp [hevent]
    | some key =>
      simp only [settleVersions, Option.map_some, Option.toList_some]
      refine .append record hmem _ (List.mem_append_left _ (List.mem_append_right _
        (List.mem_singleton.mpr rfl))) rfl rfl (counts_save_of_succ _ rfl (fun w hw => ?_)
          (by simp [hevent])) fun db => ?_
      · rcases List.mem_append.mp hw with hw | hw
        · exact (hpre w hw).files
        · obtain rfl := List.mem_singleton.mp hw
          simp [versionRow]
      · rw [List.append_assoc]
        exact applyAll_versionRow pre (fun w hw => (hpre w hw).fileVersions)
          (by simp [hevent, File.save]) db
  | restore hrecord hevent =>
    rename_i fileId versionId record version event
    have hmem := (FileRepository.of_get hrecord).1
    refine .append record hmem _ List.mem_cons_self rfl rfl
      (counts_save_of_succ [_] rfl (by simp [versionRow])
        (by simpa using hevent.files)) fun db => ?_
    exact applyAll_versionRow [] (by simp) (by simp [File.save, hevent.fileVersions]) db

end Effects

/-! ### Runs -/

/-- Every file's versions are numbered `1, …, version_count`, in table order. -/
def NumberedInOrder (db : Database) : Prop :=
  ∀ k ∈ counts db, versionNumbers db k.1 = List.range' 1 k.2

theorem ServiceCall.numbering {c : ServiceCall} {snapshot : Database} {ws : List DbWrite}
    (hsnap : snapshot.Good) (h : c.writes snapshot = some ws) : Numbering snapshot ws := by
  obtain ⟨r, hr⟩ := ServiceResult.writes_eq_some.mp h
  exact (Operation.fileEffect hsnap hr).numbering

/-- A file that is not on record has no versions. -/
theorem versionNumbers_of_fresh {db : Database} (hdb : db.Good) {fileId : String}
    (hfresh : ∀ f ∈ db .files, File.id f ≠ fileId) : versionNumbers db fileId = [] := by
  rw [versionNumbers, List.map_eq_nil_iff, List.filter_eq_nil_iff]
  intro (v : FileVersion) hv hfile
  have hkey := hdb.referential .fileVersions v hv _ rfl
  obtain ⟨f, hf, hpk, -⟩ := exists_of_mem_keys (s := db) (t := Table.files) hkey
  exact hfresh f hf (hpk.trans (by simpa using hfile))

theorem mem_versionCounts {db : Database} {k : String × ℕ} (h : k ∈ counts db) :
    k.2 ∈ versionCounts db k.1 := by
  obtain ⟨f, hf, rfl⟩ := List.mem_map.mp h
  exact List.mem_map_of_mem (List.mem_filter.mpr ⟨hf, by simp⟩)

/-- The count a transaction reads is the file's. -/
theorem eq_of_mem_versionCounts {db : Database} (hdb : db.Good) {record : File}
    (hrecord : record ∈ db .files) {n : ℕ} (h : n ∈ versionCounts db record.id) :
    n = record.versionCount := by
  obtain ⟨f, hf, rfl⟩ := List.mem_map.mp h
  obtain ⟨hf, hid⟩ := List.mem_filter.mp hf
  rw [hdb.uniquePk.eq_of_pk (t := .files) hf hrecord (by simpa [pk, rowId] using hid)]

/-- A commit keeps the numbering. -/
theorem NumberedInOrder.commit {db snapshot : Database} {c : ServiceCall} {ws : List DbWrite}
    (h : NumberedInOrder db) (hdb : db.Good) (hsnap : snapshot.Good)
    (hws : c.writes snapshot = some ws) (hadm : Admissible ws db)
    (hturn : VersionsInTurn db c snapshot) : NumberedInOrder (applyAll ws db) := by
  intro k hk
  cases c.numbering hsnap hws with
  | keep hcounts hversions =>
    rw [hcounts] at hk
    rw [versionNumbers, hversions]
    exact h k hk
  | create fileId hfresh hcounts hversions =>
    rw [hcounts, List.mem_append, List.mem_singleton] at hk
    rw [versionNumbers, hversions]
    rcases hk with hk | rfl
    · exact h k hk
    · exact versionNumbers_of_fresh hdb (hfresh db hadm)
  | append record hrecord v hinsert hfile hnumber hcounts hversions =>
    rw [hcounts] at hk
    obtain ⟨k', hk', rfl⟩ := List.mem_map.mp hk
    have happend : ∀ i, versionNumbers (applyAll ws db) i = versionNumbers db i ++
        if i = record.id then [record.versionCount + 1] else [] := by
      intro i
      simp only [versionNumbers, hversions, List.filter_append, List.map_append]
      by_cases hi : i = record.id
      · simp [hi, hfile, hnumber]
      · simp [hi, hfile, Ne.symm hi]
    by_cases hi : k'.1 = record.id
    · -- the file's count is still what the transaction read
      have hread := mem_versionCounts hk'
      rw [hi, hturn record.id ⟨ws, v, hws, hinsert, hfile⟩] at hread
      have hcount := eq_of_mem_versionCounts hsnap hrecord hread
      rw [if_pos hi, happend, h k' hk', if_pos hi, hcount]
      rw [List.range'_1_concat, Nat.add_comm]
    · rw [if_neg hi, happend, if_neg hi, List.append_nil]
      exact h k' hk'

/-- **Appends that take turns number versions without gaps**: if no version of a file is
appended between the read and the commit of a call that appends one, the version numbers
of every file are `1, …, version_count`, each once, in every reachable state. -/
theorem version_numbering {w : World Table.Row ServiceCall}
    (hw : Reachable ServiceCall.writes VersionsInTurn (· = Database.empty) w) :
    ∀ f ∈ w.store .files,
      (versionNumbers w.store (File.id f)).Perm (List.range' 1 (File.versionCount f)) := by
  have hinv : Database.Good w.store ∧ NumberedInOrder w.store := by
    refine ServiceCall.invariant (R := fun _ _ => True) ?_ (fun _ => trivial) ?_ hw
    · exact fun k hk => by simp [counts, Database.empty] at hk
    · intro db snapshot c r ws hdb hsnap _ _ hnumbered hr hadm hturn
      have hws : c.writes snapshot = some ws := ServiceResult.writes_eq_some.mpr ⟨r, hr⟩
      exact ⟨hnumbered.commit hdb hsnap hws hadm hturn, fun _ _ => trivial⟩
  intro f hf
  exact List.Perm.of_eq (hinv.2 _ (List.mem_map_of_mem (f := fun f : File =>
    (f.id, f.versionCount)) hf))

/-- Every call of a list may commit when it runs alone, in turn. -/
def AllowedRun (commits : Guard Table.Row ServiceCall) : List ServiceCall → Database → Prop
  | [], _ => True
  | c :: calls, db => commits db c db ∧ AllowedRun commits calls (commit db (c.result db)).2

instance decidableAllowedRun (commits : Guard Table.Row ServiceCall)
    [∀ s c snapshot, Decidable (commits s c snapshot)] :
    (calls : List ServiceCall) → (db : Database) → Decidable (AllowedRun commits calls db)
  | [], _ => inferInstanceAs (Decidable True)
  | c :: calls, db =>
      have := decidableAllowedRun commits calls (commit db (c.result db)).2
      inferInstanceAs (Decidable (commits db c db ∧ AllowedRun commits calls _))

/-- Calls that may run one after the other reach where they lead. -/
theorem AllowedRun.reachable {commits : Guard Table.Row ServiceCall} {calls : List ServiceCall}
    {db : Database} (hcalls : AllowedRun commits calls db)
    (h : Reachable ServiceCall.writes commits (· = Database.empty) ⟨db, []⟩) :
    Reachable ServiceCall.writes commits (· = Database.empty) ⟨runAll calls db, []⟩ := by
  induction calls generalizing db with
  | nil => exact h
  | cons c calls ih =>
    refine ih hcalls.2 ?_
    rcases hr : c.result db with e | ⟨r, ws⟩
    · exact h
    · simp only [commit]
      split
      · rename_i hadm
        have hws : c.writes db = some ws := ServiceResult.writes_eq_some.mpr ⟨r, hr⟩
        exact (h.step (.read c)).step (.commit [] [] hws hadm hcalls.1)
      · exact h

/-- Calls that run one after the other take turns. -/
theorem reachable_runAll (commits : Guard Table.Row ServiceCall)
    (hself : ∀ db c, commits db c db) (calls : List ServiceCall) {db : Database}
    (h : Reachable ServiceCall.writes commits (· = Database.empty) ⟨db, []⟩) :
    Reachable ServiceCall.writes commits (· = Database.empty) ⟨runAll calls db, []⟩ := by
  suffices hcalls : AllowedRun commits calls db from hcalls.reachable h
  clear h
  induction calls generalizing db with
  | nil => trivial
  | cons c calls ih => exact ⟨hself db c, ih⟩

/-- A project with versioning and a file in it, initiated. -/
def versionedUpload : List ServiceCall :=
  [⟨orgContext "acme", devEnv "p" 1, "", .createProject devProject⟩,
   ⟨orgContext "acme", devEnv "c" 2, "p0",
     .updateProcessingConfig { versioningEnabled := some true }⟩,
   ⟨orgContext "acme", devEnv "f" 3, "p0", .initUpload
     { filename := "a.txt", contentType := "text/plain", sizeBytes := 1 }⟩]

/-- A confirmation of that file. -/
def confirmation (tag : String) (now : ℕ) : ServiceCall :=
  ⟨orgContext "acme", devEnv tag now, "p0", .confirmUpload "f0"⟩

/-- The file confirmed twice, one after the other. -/
theorem version_numbering_in_turn :
    let db := runAll (versionedUpload ++ [confirmation "x" 4, confirmation "y" 5]) Database.empty
    (∃ f ∈ db .files, File.id f = "f0" ∧ File.versionCount f = 2)
      ∧ ∀ f ∈ db .files,
        (versionNumbers db (File.id f)).Perm (List.range' 1 (File.versionCount f)) := by
  refine ⟨by decide, ?_⟩
  have hrun := reachable_runAll VersionsInTurn (fun _ _ _ _ => rfl)
    (versionedUpload ++ [confirmation "x" 4, confirmation "y" 5]) (.init rfl)
  exact version_numbering hrun

/-- Two confirmations that overlap both take number one. -/
theorem version_numbering_overlap :
    ¬∀ w : World Table.Row ServiceCall,
      Reachable ServiceCall.writes .always (· = Database.empty) w → ∀ f ∈ w.store .files,
        (versionNumbers w.store (File.id f)).Perm (List.range' 1 (File.versionCount f)) := by
  intro h
  have hstart := reachable_runAll .always (fun _ _ => trivial) versionedUpload
    (.init rfl)
  have hread := (hstart.step (.read (confirmation "x" 4))).step (.read (confirmation "y" 5))
  have hfirst := hread.step (.commit [] [_] rfl (by decide) trivial)
  have hsecond := hfirst.step (.commit [] [] rfl (by decide) trivial)
  exact absurd (h _ hsecond) (by decide)

end FileNest
