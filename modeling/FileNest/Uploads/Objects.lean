import FileNest.Lib.Trace
import FileNest.Uploads.Admission
import FileNest.Versioning

/-!
# Versions and their bytes

The object store is a map from keys to bytes, and a `PUT` overwrites.  The key of a file is
made of the ids of its organisation, its project and the file itself: every version of a file
names the same object, and whoever holds an upload URL that has not expired can replace the
bytes of all of them.  Versions keep their bytes as long as nobody does.

## Main definitions

* `Objects`, `UploadUrl` — the object store, and the right to put an object there.
* `ByteWorld`, `Event`, `ByteWorld.step` — requests under READ COMMITTED, and clients.
* `VersionKept` — a version has the bytes it was created with, for whoever asks.
* `PutKeepsVersions` — a `PUT` does not change the bytes of a version.

## Main results

* `versionKept_iff` — downloads and restores give what is in the store.
* `versions_kept_iff` — **versions keep their bytes exactly if no `PUT` changes them.**
* `version_overwritten` — a second `PUT` through the same URL.
-/

namespace FileNest

open RowStore ReadCommitted Trace

/-- The bytes of an object. -/
abbrev Bytes := List UInt8

/-- The object store. -/
abbrev Objects := String → Option Bytes

/-- A `PUT` overwrites. -/
def Objects.put (objects : Objects) (key : String) (bytes : Bytes) : Objects :=
  Function.update objects key (some bytes)

/-- A presigned `PUT` URL: the key it is for, and the time it expires at. -/
structure UploadUrl where
  key : String
  expiresAt : ℕ
  deriving DecidableEq

/-- The upload URL a call hands out with its response. -/
def ServiceCall.issued (c : ServiceCall) (r : Response) : List UploadUrl :=
  match c.op, r with
  | .initUpload _, .uploadInit fileId _ expiresAt =>
      [⟨storageKey c.ctx.organizationId c.projectId fileId, expiresAt⟩]
  | _, _ => []

/-- The operation deletes the object of no file: an abort may, since on Azure it deletes the blob
at the key. -/
def Operation.keepsObjects : Operation → Bool
  | multipartAbort _ => false
  | _ => true

/-- The operation leaves the object store alone: a multipart completion assembles an object, an
abort may delete one, and the probes of a storage configuration write one and delete it. -/
def Operation.leavesObjects : Operation → Bool
  | multipartComplete _ _ | multipartAbort _ | createProject _ | verifyStorage => false
  | _ => true

/-- Database, requests in flight, upload URLs handed out, the object store, and the bytes each
version was created with, by its id. -/
structure ByteWorld where
  now : ℕ
  db : Database
  inflight : List (ServiceCall × Database) := []
  urls : List UploadUrl := []
  objects : Objects
  created : String → Option Bytes

/-- What happens: a request reads, one in flight commits, a client puts an object. -/
inductive Event where
  | read (c : ServiceCall)
  | commit (n : ℕ)
  | put (url : UploadUrl) (bytes : Bytes) (time : ℕ)

/-- The bytes versions were created with, after a commit: new ones take what is in the store. -/
def recordBytes (before after : Database) (objects : Objects) (created : String → Option Bytes)
    (id : String) : Option Bytes :=
  match (before .fileVersions).find? fun (v : FileVersion) => v.id == id with
  | some _ => created id
  | none => ((after .fileVersions).find? fun (v : FileVersion) => v.id == id).bind
      fun (v : FileVersion) => objects v.storageKey

namespace ByteWorld

/-- A request that read `snapshot` commits, or is rolled back. -/
def commit (w : ByteWorld) (c : ServiceCall) (snapshot : Database) : ByteWorld :=
  match c.result snapshot with
  | .error _ => w
  | .ok (r, ws) =>
      if Admissible ws w.db then
        { w with
          db := applyAll ws w.db
          urls := c.issued r ++ w.urls
          created := recordBytes w.db (applyAll ws w.db) w.objects w.created }
      else w

/-- A client may put an object through the URL. -/
def Accepts (w : ByteWorld) (url : UploadUrl) (time : ℕ) : Prop :=
  url ∈ w.urls ∧ w.now ≤ time ∧ time ≤ url.expiresAt

instance (w : ByteWorld) (url : UploadUrl) (time : ℕ) : Decidable (w.Accepts url time) :=
  inferInstanceAs (Decidable (url ∈ w.urls ∧ w.now ≤ time ∧ time ≤ url.expiresAt))

/-- One event; what cannot happen does nothing. -/
def step (w : ByteWorld) : Event → ByteWorld
  | .read c =>
      -- time does not go back
      if w.now ≤ c.env.now ∧ c.op.leavesObjects = true then
        { w with now := c.env.now, inflight := (c, w.db) :: w.inflight }
      else w
  | .commit n =>
      match w.inflight[n]? with
      | none => w
      | some (c, snapshot) => { w.commit c snapshot with inflight := w.inflight.eraseIdx n }
  | .put url bytes time =>
      if w.Accepts url time then
        { w with now := time, objects := w.objects.put url.key bytes }
      else w

/-- Where a run begins: the versions on record have the bytes found there. -/
def start (now : ℕ) (db : Database) (objects : Objects) (urls : List UploadUrl) : ByteWorld where
  now := now
  db := db
  urls := urls
  objects := objects
  created := recordBytes Database.empty db objects fun _ => none

end ByteWorld

/-- Presigned `GET` URLs serve the object at their key. -/
def Serves (storage : StorageClient) (serve : Objects → String → Option Bytes) : Prop :=
  ∀ provider key filename ttl url,
    storage.generatePresignedDownloadUrl provider (some key) filename ttl = .ok url →
    ∀ objects, serve objects url = objects key

/-- A version has the bytes it was created with: in the store, downloaded as a version, and
downloaded as the file after it has been restored. -/
structure VersionKept (serve : Objects → String → Option Bytes) (w : ByteWorld) (v : FileVersion) :
    Prop where
  stored : w.objects v.storageKey = w.created v.id
  downloaded : ∀ (c : ServiceCall) (fileId url : String) (ttl expiresAt : ℕ) (ws : List DbWrite),
    Serves c.env.storage serve → c.op = .getVersionDownloadUrl fileId v.id ttl →
    c.result w.db = .ok (.downloadUrl url expiresAt, ws) → serve w.objects url = w.created v.id
  restored : ∀ (c d : ServiceCall) (fileId url : String) (ttl expiresAt : ℕ) (inline' : Bool)
    (r : Response) (db' : Database) (ws : List DbWrite),
    c.op = .restoreVersion fileId v.id → commit w.db (c.result w.db) = (.ok r, db') →
    Serves d.env.storage serve → d.op = .getDownloadUrl fileId ttl inline' →
    d.result db' = .ok (.downloadUrl url expiresAt, ws) → serve w.objects url = w.created v.id

/-- Every version has the bytes it was created with. -/
def VersionsKept (serve : Objects → String → Option Bytes) (w : ByteWorld) : Prop :=
  ∀ v ∈ w.db .fileVersions, VersionKept serve w v

/-- **The condition**: a `PUT` through a URL that is good does not go to the key of a version,
unless it puts there what is there. -/
def PutKeepsVersions (w : ByteWorld) : Event → Prop
  | .put url bytes time => w.Accepts url time → ∀ v ∈ w.db .fileVersions,
      FileVersion.storageKey v = url.key → w.objects url.key = some bytes
  | _ => True

/-- The URL handed out is presigned for the file's key, and expires when it says. -/
theorem ServiceCall.mem_issued {c : ServiceCall} {db : Database} {r : Response} {ws : List DbWrite}
    (h : c.result db = .ok (r, ws)) {u : UploadUrl} (hu : u ∈ c.issued r) :
    ∃ provider contentType sizeBytes ttl url,
      c.env.storage.generatePresignedUploadUrl provider u.key contentType sizeBytes ttl = .ok url
      ∧ u.expiresAt = c.env.now + ttl * second := by
  obtain ⟨ctx, env, projectId, op⟩ := c
  cases op with
  | initUpload req =>
    obtain ⟨config, provider, url, -, -, hurl, rfl, -⟩ := FileService.initUpload_eq_ok.mp h
    obtain rfl := List.mem_singleton.mp hu
    exact ⟨provider, _, _, _, url, hurl, rfl⟩
  | _ => cases hu

/-! ### Downloads and restores -/

section Downloads

variable {ctx : TenantContext} {env : Env} {db : Database} {projectId : String}

/-- The URL of a version is presigned for its key. -/
theorem FileService.getVersionDownloadUrl_presigned (hdb : db.Good) {v : FileVersion}
    (hv : v ∈ db .fileVersions) {fileId : String} {ttl : Option ℕ} {url : String} {expiresAt : ℕ}
    {ws : List DbWrite}
    (h : getVersionDownloadUrl ctx env db projectId fileId v.id ttl
      = .ok (.downloadUrl url expiresAt, ws)) :
    ∃ provider ttl, env.storage.generatePresignedDownloadUrl provider (some v.storageKey) none ttl
      = .ok url := by
  simp only [getVersionDownloadUrl, readOnly, bind_eq_ok, pure_eq_ok, Prod.mk.injEq,
    Response.downloadUrl.injEq] at h
  obtain ⟨_, -, version, hversion, config, -, provider, -, _, hurl, ⟨rfl, -⟩, -⟩ := h
  obtain ⟨hmem, hid, -⟩ := FileVersionRepository.of_get hversion
  obtain rfl : version = v := hdb.uniquePk.eq_of_pk (t := .fileVersions) hmem hv hid
  exact ⟨provider, _, hurl⟩

/-- The URL of a file is presigned for the key in its row. -/
theorem FileService.getDownloadUrl_presigned {fileId : String} {ttl : Option ℕ} {inline' : Bool}
    {url : String} {expiresAt : ℕ} {ws : List DbWrite}
    (h : getDownloadUrl ctx env db projectId fileId ttl inline'
      = .ok (.downloadUrl url expiresAt, ws)) :
    ∃ record ∈ db .files, File.id record = fileId ∧ ∃ provider filename ttl,
      env.storage.generatePresignedDownloadUrl provider record.storageKey filename ttl
        = .ok url := by
  simp only [getDownloadUrl, readOnly, bind_eq_ok, pure_eq_ok, Prod.mk.injEq,
    Response.downloadUrl.injEq] at h
  obtain ⟨record, hrecord, config, -, provider, -, _, hurl, ⟨rfl, -⟩, -⟩ := h
  obtain ⟨hmem, hid, -⟩ := FileRepository.of_get hrecord
  exact ⟨record, hmem, hid, provider, _, _, hurl⟩

/-- After a restore the row of the file has the key of the version. -/
theorem FileService.restoreVersion_storageKey (hdb : db.Good) {v : FileVersion}
    (hv : v ∈ db .fileVersions) {fileId : String} {r : Response} {ws : List DbWrite}
    (h : restoreVersion ctx env db projectId fileId v.id = .ok (r, ws)) {f : File}
    (hf : f ∈ applyAll ws db .files) (hid : f.id = fileId) : f.storageKey = some v.storageKey := by
  simp only [restoreVersion, bind_eq_ok, pure_eq_ok, Prod.mk.injEq] at h
  obtain ⟨record, hrecord, version, hversion, -, rfl⟩ := h
  obtain ⟨hmem, hrid, -⟩ := FileRepository.of_get hrecord
  obtain ⟨hvmem, hvid, -⟩ := FileVersionRepository.of_get hversion
  obtain rfl : version = v := hdb.uniquePk.eq_of_pk (t := .fileVersions) hvmem hv hvid
  rw [← List.singleton_append, applyAll_save _ (by simp [versionRow])
    (by simp [publish, TransactionalOutboxPublisher.publish])] at hf
  obtain ⟨g, hg, rfl⟩ := List.mem_map.mp hf
  by_cases hgid : g.id = record.id
  · -- the row is the one the restore loaded
    obtain rfl : g = record := hdb.uniquePk.eq_of_pk (t := .files) hg hmem hgid
    rw [if_pos rfl]
    exact flushColumn_current _ _
  · rw [if_neg hgid] at hid
    exact absurd (hid.trans hrid.symm) hgid

end Downloads

/-- **Downloads and restores give what is in the store.** -/
theorem versionKept_iff {serve : Objects → String → Option Bytes} {w : ByteWorld} (hdb : w.db.Good)
    {v : FileVersion} (hv : v ∈ w.db .fileVersions) :
    VersionKept serve w v ↔ w.objects v.storageKey = w.created v.id := by
  constructor
  · exact VersionKept.stored
  · intro hstored
    refine ⟨hstored, ?_, ?_⟩
    · intro c fileId url ttl expiresAt ws hserves hop hresult
      rw [ServiceCall.result, hop] at hresult
      obtain ⟨provider, _, hurl⟩ := FileService.getVersionDownloadUrl_presigned hdb hv hresult
      rw [hserves _ _ _ _ _ hurl, hstored]
    · intro c d fileId url ttl expiresAt inline' r db' ws hop hcommit hserves hdop hresult
      rw [ServiceCall.result, hop] at hcommit
      rw [ServiceCall.result, hdop] at hresult
      -- the download is of a row of the file after the restore
      obtain ⟨record, hmem, hid, provider, _, _, hurl⟩ :=
        FileService.getDownloadUrl_presigned hresult
      rcases hrestore : Operation.run c.ctx c.env w.db c.projectId (.restoreVersion fileId v.id)
        with e | ⟨r', ws'⟩
      · rw [hrestore] at hcommit
        cases hcommit
      · rw [hrestore, FileNest.commit] at hcommit
        split at hcommit
        · cases hcommit
          -- which has the key of the version
          rw [FileService.restoreVersion_storageKey hdb hv hrestore hmem hid] at hurl
          rw [hserves _ _ _ _ _ hurl, hstored]
        · cases hcommit

/-! ### One event -/

/-- A version that was on record keeps its bytes, one that was not takes what is in the store. -/
theorem recordBytes_eq {before after : Database} {objects : Objects}
    (created : String → Option Bytes) (hunique : after.UniquePk)
    (hkept : ∀ u ∈ before .fileVersions, u ∈ after .fileVersions) {v : FileVersion}
    (hv : v ∈ after .fileVersions) :
    (v ∈ before .fileVersions ∧ recordBytes before after objects created v.id = created v.id)
      ∨ recordBytes before after objects created v.id = objects v.storageKey := by
  have hfound : ∀ u ∈ after .fileVersions, FileVersion.id u = v.id → u = v := fun u hu hid =>
    hunique.eq_of_pk (t := .fileVersions) hu hv hid
  rw [recordBytes]
  rcases hbefore : (before .fileVersions).find? fun (u : FileVersion) => u.id == v.id with _ | u
  · refine Or.inr ?_
    rcases hafter : (after .fileVersions).find? fun (u : FileVersion) => u.id == v.id with _ | u
    · have hnone := List.find?_eq_none.mp hafter v hv
      exact absurd (beq_self_eq_true _) hnone
    · obtain rfl := hfound u (List.mem_of_find?_eq_some hafter)
        (by simpa using List.find?_some hafter)
      rfl
  · have hu := List.mem_of_find?_eq_some hbefore
    obtain rfl := hfound u (hkept u hu) (by simpa using List.find?_some hbefore)
    exact Or.inl ⟨hu, rfl⟩

/-- Versions are never taken away. -/
theorem Numbering.mem_fileVersions {snapshot db : Database} {ws : List DbWrite}
    (h : Numbering snapshot ws) {v : FileVersion} (hv : v ∈ db .fileVersions) :
    v ∈ applyAll ws db .fileVersions := by
  cases h with
  | keep hcounts hversions => rwa [hversions]
  | create fileId hfresh hcounts hversions => rwa [hversions]
  | append record hrecord u hinsert hfile hnumber hcounts hversions =>
    rw [hversions]
    exact List.mem_append_left _ hv

/-- Good databases wherever a request reads or has read. -/
structure ByteWorld.Consistent (w : ByteWorld) : Prop where
  good : w.db.Good
  inflight : ∀ x ∈ w.inflight, x.2.Good ∧ KeepsReferenced refs x.2 w.db

section Step

variable {w : ByteWorld} {serve : Objects → String → Option Bytes}

/-- What the commit of a request in flight does to the database. -/
theorem ByteWorld.Consistent.commit (h : w.Consistent) {c : ServiceCall} {snapshot : Database}
    (hx : (c, snapshot) ∈ w.inflight) :
    (w.commit c snapshot).db.Good ∧ KeepsReferenced refs w.db (w.commit c snapshot).db := by
  rw [ByteWorld.commit]
  split
  · exact ⟨h.good, .refl _⟩
  · rename_i r ws hresult
    split
    · rename_i hadm
      obtain ⟨hsnap, hkeeps⟩ := h.inflight _ hx
      have hws : c.writes snapshot = some ws := ServiceResult.writes_eq_some.mpr ⟨r, hresult⟩
      exact h.good.commit hkeeps (c.resolved hsnap hws) hadm
    · exact ⟨h.good, .refl _⟩

theorem ByteWorld.Consistent.step (h : w.Consistent) (e : Event) : (w.step e).Consistent := by
  cases e with
  | read c =>
    rw [ByteWorld.step]
    split
    · refine ⟨h.good, fun x hx => ?_⟩
      rcases List.mem_cons.mp hx with rfl | hx
      · exact ⟨h.good, .refl _⟩
      · exact h.inflight x hx
    · exact h
  | commit n =>
    rw [ByteWorld.step]
    split
    · exact h
    · rename_i c snapshot hn
      obtain ⟨hgood, hkeeps⟩ := h.commit (List.mem_of_getElem? hn)
      refine ⟨hgood, fun x hx => ?_⟩
      obtain ⟨hsnap, hread⟩ := h.inflight x (List.mem_of_mem_eraseIdx hx)
      exact ⟨hsnap, hread.trans hkeeps⟩
  | put url bytes time =>
    rw [ByteWorld.step]
    split
    · exact ⟨h.good, h.inflight⟩
    · exact h

/-- The store has the bytes every version was created with. -/
def ByteWorld.Stored (w : ByteWorld) : Prop :=
  ∀ v ∈ w.db .fileVersions, w.objects (FileVersion.storageKey v) = w.created v.id

/-- A commit changes the bytes of no version. -/
theorem ByteWorld.Stored.commit (h : w.Stored) (hw : w.Consistent) {c : ServiceCall}
    {snapshot : Database} (hx : (c, snapshot) ∈ w.inflight) : (w.commit c snapshot).Stored := by
  have hgood := (hw.commit hx).1
  rw [ByteWorld.commit] at hgood ⊢
  split
  · exact h
  · rename_i r ws hresult
    simp only [hresult] at hgood
    by_cases hadm : Admissible ws w.db
    · rw [if_pos hadm] at hgood
      rw [if_pos hadm]
      -- versions on record stay there, and new ones take what is stored
      have hnumbering := c.numbering (hw.inflight _ hx).1
        (ServiceResult.writes_eq_some.mpr ⟨r, hresult⟩)
      intro v hv
      rcases recordBytes_eq w.created hgood.uniquePk
        (fun u hu => hnumbering.mem_fileVersions hu) hv with ⟨hold, hsame⟩ | hnew
      · exact (h v hold).trans hsame.symm
      · exact hnew.symm
    · rw [if_neg hadm]
      exact h

/-- **One event keeps the bytes of the versions exactly if it meets the condition.** -/
theorem ByteWorld.stored_step_iff (hw : w.Consistent) (h : w.Stored) (e : Event) :
    (w.step e).Stored ↔ PutKeepsVersions w e := by
  cases e with
  | read c =>
    refine iff_of_true ?_ trivial
    rw [ByteWorld.step]
    split <;> exact h
  | commit n =>
    refine iff_of_true ?_ trivial
    rw [ByteWorld.step]
    split
    · exact h
    · rename_i c snapshot hn
      exact h.commit hw (List.mem_of_getElem? hn)
  | put url bytes time =>
    rw [ByteWorld.step]
    by_cases haccepts : w.Accepts url time
    · rw [if_pos haccepts]
      constructor
      · intro hafter _ v hv hkey
        have hbytes : w.objects.put url.key bytes v.storageKey = w.created v.id := hafter v hv
        rw [hkey, Objects.put, Function.update_self, ← h v hv, hkey] at hbytes
        exact hbytes.symm
      · intro hcond v hv
        show w.objects.put url.key bytes v.storageKey = w.created v.id
        by_cases hkey : v.storageKey = url.key
        · -- the bytes put there are those that were there
          rw [hkey, Objects.put, Function.update_self, ← hcond haccepts v hv hkey, ← hkey]
          exact h v hv
        · rw [Objects.put, Function.update_of_ne hkey]
          exact h v hv
    · rw [if_neg haccepts]
      exact iff_of_true h fun hgood => absurd hgood haccepts

theorem ByteWorld.versionsKept_iff (hw : w.Consistent) : VersionsKept serve w ↔ w.Stored :=
  forall₂_congr fun _ hv => versionKept_iff hw.good hv

end Step

/-! ### Runs -/

theorem ByteWorld.start_consistent {db : Database} (h : Reached db) (now : ℕ) (objects : Objects)
    (urls : List UploadUrl) : (start now db objects urls).Consistent :=
  ⟨h.good, fun x hx => by cases hx⟩

theorem ByteWorld.start_stored {db : Database} (h : Reached db) (now : ℕ) (objects : Objects)
    (urls : List UploadUrl) : (start now db objects urls).Stored := by
  intro v hv
  have hnone : ∀ u ∈ Database.empty .fileVersions, u ∈ db .fileVersions := by
    intro u hu
    cases hu
  rcases recordBytes_eq (fun _ => none) h.good.uniquePk hnone hv with ⟨hold, -⟩ | hnew
  · cases hold
  · exact hnew.symm

/-- **Versions keep their bytes exactly if no `PUT` changes them**: from every reachable
database, whatever objects are stored and whatever upload URLs are out, and along every run
of requests and `PUT`s, the bytes of every version — in the store, downloaded, or restored and
downloaded — are those it was created with, if and only if no `PUT` through a URL that has not
expired goes to the key of a version with other bytes than are there. -/
theorem versions_kept_iff (serve : Objects → String → Option Bytes) {db : Database}
    (h : Reached db) (now : ℕ) (objects : Objects) (urls : List UploadUrl) (events : List Event) :
    Throughout ByteWorld.step (VersionsKept serve) (.start now db objects urls) events
      ↔ EachStep ByteWorld.step PutKeepsVersions (.start now db objects urls) events := by
  refine throughout_iff_eachStep (fun w e hw => hw.step e) (fun w e hw hkept => ?_)
    (ByteWorld.start_consistent h now objects urls) ?_
  · rw [ByteWorld.versionsKept_iff (hw.step e)]
    exact ByteWorld.stored_step_iff hw ((ByteWorld.versionsKept_iff hw).mp hkept) e
  · rw [ByteWorld.versionsKept_iff (ByteWorld.start_consistent h now objects urls)]
    exact ByteWorld.start_stored h now objects urls

/-- Objects as the development storage serves them: the key comes after the host. -/
def devServe (objects : Objects) (url : String) : Option Bytes :=
  objects (String.ofList (url.toList.drop "http://localhost:9000/".length))

theorem serves_devStorage : Serves devStorage devServe := by
  intro provider key filename ttl url hurl objects
  cases hurl
  simp only [devServe, Option.getD_some]
  congr 1
  rw [String.toList_append]
  exact (congrArg String.ofList (List.drop_left' rfl)).trans String.ofList_toList

/-- A project with versioning. -/
def versionedProject : Database := runAll (versionedUpload.take 2) Database.empty

/-- An upload to it, put and confirmed. -/
def confirmedPut : List Event :=
  [.read ⟨orgContext "acme", devEnv "f" 3, "p0", .initUpload
     { filename := "a.txt", contentType := "text/plain", sizeBytes := 1 }⟩, .commit 0,
   .put ⟨"acme/p0/f0", 3 + 3600 * second⟩ [97] 4, .read (confirmation "c" 5), .commit 0]

/-- The version is restored: it is still what was put. -/
theorem versions_kept_restored :
    let events := confirmedPut ++
      [.read ⟨orgContext "acme", devEnv "r" 6, "p0", .restoreVersion "f0" "c0"⟩, .commit 0]
    let w := events.foldl ByteWorld.step (.start 2 versionedProject (fun _ => none) [])
    Serves devStorage devServe
      ∧ (∃ v ∈ w.db .fileVersions, FileVersion.id v = "r0" ∧ w.created v.id = some [97])
      ∧ Throughout ByteWorld.step (VersionsKept devServe)
        (.start 2 versionedProject (fun _ => none) []) events := by
  refine ⟨serves_devStorage, by decide, ?_⟩
  have hreached : Reached versionedProject := reached_runAll .empty _
  refine (versions_kept_iff devServe hreached 2 (fun _ => none) [] _).mpr ?_
  have hnone : ∀ v ∈ ((confirmedPut.take 2).foldl ByteWorld.step
      (.start 2 versionedProject (fun _ => none) [])).db .fileVersions,
      FileVersion.storageKey v ≠ "acme/p0/f0" := by decide
  exact ⟨trivial, trivial, fun _ v hv hkey => absurd hkey (hnone v hv), trivial, trivial, trivial,
    trivial, trivial⟩

/-- The same, and another `PUT` through the URL. -/
def secondPut : List Event := confirmedPut ++ [.put ⟨"acme/p0/f0", 3 + 3600 * second⟩ [98] 6]

/-- The second `PUT` takes the bytes of the version away. -/
theorem version_overwritten :
    ¬∀ db, Reached db → db .files = [] → ∀ events,
      Throughout ByteWorld.step (VersionsKept devServe)
        (.start 2 db (fun _ => none) []) events := by
  intro h
  have hreached : Reached versionedProject := reached_runAll .empty _
  have hkept := (h versionedProject hreached rfl secondPut).last
  have hchanged : ∃ v ∈ (secondPut.foldl ByteWorld.step
      (.start 2 versionedProject (fun _ => none) [])).db .fileVersions,
      (secondPut.foldl ByteWorld.step (.start 2 versionedProject (fun _ => none) [])).objects
          (FileVersion.storageKey v)
        ≠ (secondPut.foldl ByteWorld.step (.start 2 versionedProject (fun _ => none) [])).created
          (FileVersion.id v) := by decide
  obtain ⟨v, hv, hne⟩ := hchanged
  exact hne (hkept v hv).stored

end FileNest
