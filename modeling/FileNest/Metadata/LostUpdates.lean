import FileNest.Lib.Serial
import FileNest.FileEffects
import FileNest.Isolation

/-!
# Lost updates of tags and metadata

Adding tags to a file and merging metadata into it read the whole value, change it and
write the whole value back, if it has changed.  Nothing is locked in between, so of two
requests that overlap the later commit undoes the other.  If every request commits while
the value is still what it read, or adds nothing to what it read, nothing is lost.

## Main definitions

* `Edit`, `EditCall`, `edits` — requests that add tags or merge metadata, and their runs.
* `Contents`, `contents` — the tags and metadata of a file.
* `EditsInTurn` — the condition.

## Main results

* `contents_of_serial` — requests that run one after the other.
* `edits_serializable` — **requests that take turns have the effect of a serial order.**
* `edits_lost` — two additions of tags, read side by side.
-/

namespace FileNest

open RowStore ReadCommitted

/-- What is added to a file. -/
inductive Edit where
  | addTags (tags : List String)
  | mergeMetadata (updates : Fields)

/-- A request that adds to a file. -/
structure EditCall where
  ctx : TenantContext
  env : Env
  projectId : String
  edit : Edit

def Edit.op (fileId : String) : Edit → Operation
  | addTags tags => .addTags fileId tags
  | mergeMetadata updates => .mergeMetadata fileId updates

def EditCall.result (c : EditCall) (fileId : String) (db : Database) : ServiceResult :=
  (c.edit.op fileId).run c.ctx c.env db c.projectId

/-- Requests that add to a file. -/
def edits (fileId : String) : Program Table.Row EditCall := fun c db => (c.result fileId db).writes

/-- The tags and the metadata of a file. -/
structure Contents where
  tags : List String
  metadata : Fields
  deriving DecidableEq

def File.contents (f : File) : Contents := ⟨f.tags, f.metadata⟩

/-- `SELECT tags, metadata_json FROM files WHERE id = …`. -/
def contents (db : Database) (fileId : String) : List Contents :=
  ((db .files).filter fun (f : File) => f.id == fileId).map File.contents

/-- What an edit makes of the contents of a file. -/
def Edit.apply : Edit → Contents → Contents
  | addTags tags, c => { c with tags := c.tags ++ tags.filter fun t => !c.tags.contains t }
  | mergeMetadata updates, c => { c with metadata := c.metadata.update updates }

/-- The file has what the edit adds to it. -/
def Edit.Contained : Edit → Contents → Prop
  | addTags tags, c => ∀ t ∈ tags, t ∈ c.tags
  | mergeMetadata updates, c =>
      ∀ k v, Fields.get? updates.reverse k = some v → c.metadata.get? k = some v

/-- What the edit changes is the same. -/
def Edit.Unchanged : Edit → Contents → Contents → Prop
  | addTags _, c, c' => c'.tags = c.tags
  | mergeMetadata _, c, c' => c'.metadata = c.metadata

instance : (e : Edit) → (c c' : Contents) → Decidable (e.Unchanged c c')
  | .addTags _, c, c' => inferInstanceAs (Decidable (c'.tags = c.tags))
  | .mergeMetadata _, c, c' => inferInstanceAs (Decidable (c'.metadata = c.metadata))

/-- **The condition** on a commit: what it changes is still as it was read, or what it adds was
there already. -/
def EditsInTurn (fileId : String) : Guard Table.Row EditCall := fun db c snapshot =>
  ∀ before ∈ contents snapshot fileId, ∀ now ∈ contents db fileId,
    c.edit.Unchanged before now ∨ c.edit.Contained before

/-! ### One request -/

/-- The file an edit saves. -/
def Edit.change (e : Edit) (record : File) (now : ℕ) : File :=
  match e with
  | addTags tags => FileRepository.addTags record tags now
  | mergeMetadata updates => FileRepository.mergeMetadata record updates now

/-- The validation of a merge. -/
def EditCall.Validates (c : EditCall) (db : Database) (metadata : Fields) : Prop :=
  match c.edit with
  | .addTags _ => True
  | .mergeMetadata updates => MetadataService.validateIfRequired c.ctx c.env db c.projectId
      (metadata.update updates) = .ok ()

section Request

variable {c : EditCall} {fileId : String} {db db' snapshot : Database} {ws : List DbWrite}

theorem Edit.contents_change (e : Edit) (record : File) (now : ℕ) :
    (e.change record now).contents = e.apply record.contents := by
  cases e <;> rfl

/-- **When a request succeeds, and what it writes.** -/
theorem edits_eq_some : edits fileId c db = some ws ↔ ∃ record,
    FileRepository.get db fileId c.ctx.organizationId c.projectId = .ok record
      ∧ c.Validates db record.metadata ∧ ws = [record.save (c.edit.change record c.env.now)] := by
  obtain ⟨ctx, env, projectId, edit⟩ := c
  simp only [edits, EditCall.result, ServiceResult.writes_eq_some]
  cases edit with
  | addTags tags =>
    simp only [Edit.op, Operation.run, FileService.addTags, FileService.modifyFile, bind_eq_ok,
      pure_eq_ok, Prod.mk.injEq]
    constructor
    · rintro ⟨r, record, hrecord, -, rfl⟩
      exact ⟨record, hrecord, trivial, rfl⟩
    · rintro ⟨record, hrecord, -, rfl⟩
      exact ⟨_, record, hrecord, rfl, rfl⟩
  | mergeMetadata updates =>
    simp only [Edit.op, Operation.run, MetadataService.mergeMetadata, FileService.modifyFile,
      bind_eq_ok, pure_eq_ok, Prod.mk.injEq]
    constructor
    · rintro ⟨r, loaded, hloaded, _, hvalid, record, hrecord, -, rfl⟩
      obtain rfl : loaded = record := Except.ok.inj (hloaded.symm.trans hrecord)
      exact ⟨loaded, hloaded, hvalid, rfl⟩
    · rintro ⟨record, hrecord, hvalid, rfl⟩
      exact ⟨_, record, hrecord, _, hvalid, record, hrecord, rfl, rfl⟩

/-- The validation reads the configuration and the schemas. -/
theorem EditCall.validates_congr (hconfigs : db .projectConfigs = db' .projectConfigs)
    (hschemas : db .metadataSchemas = db' .metadataSchemas) (metadata : Fields) :
    c.Validates db metadata ↔ c.Validates db' metadata := by
  simp only [EditCall.Validates, MetadataService.validateIfRequired,
    ProjectConfigRepository.getForProject, MetadataSchemaRepository.getActive,
    MetadataSchemaRepository.activeRows, hconfigs, hschemas]

/-! ### What a commit leaves -/

/-- A file but for the time of its last change. -/
def File.untimed (f : File) : File := { f with updatedAt := 0 }

/-- What no edit changes of a file. -/
def File.core (f : File) : File := { f with tags := [], metadata := [], updatedAt := 0 }

/-- A file with other contents. -/
def File.withContents (f : File) (c : Contents) : File :=
  { f with tags := c.tags, metadata := c.metadata, updatedAt := 0 }

/-- What saving an edited file leaves of a row: other contents, column by column. -/
theorem Edit.untimed_flush (e : Edit) (record f : File) (now : ℕ) :
    ((record.flush (e.change record now)).toFun f).untimed = f.withContents
      ⟨flushColumn record.tags (e.apply record.contents).tags f.tags,
        flushColumn record.metadata (e.apply record.contents).metadata f.metadata⟩ := by
  cases e <;> simp only [File.untimed, File.flush, Edit.change, FileRepository.addTags,
    FileRepository.mergeMetadata, flushColumn_self, File.withContents, Edit.apply, File.contents]

/-- As if the row had been read just now. -/
theorem Edit.untimed_flush_of_unchanged {e : Edit} {record f : File}
    (h : e.Unchanged record.contents f.contents) (now : ℕ) :
    ((record.flush (e.change record now)).toFun f).untimed
      = f.withContents (e.apply f.contents) := by
  rw [untimed_flush]
  cases e with
  | addTags tags =>
    have htags : f.tags = record.tags := h
    simp only [Edit.apply, File.contents, htags, flushColumn_current, flushColumn_self]
  | mergeMetadata updates =>
    have hmetadata : f.metadata = record.metadata := h
    simp only [Edit.apply, File.contents, hmetadata, flushColumn_current, flushColumn_self]

/-- An edit adds nothing exactly to what has it. -/
theorem Edit.apply_of_contained {e : Edit} {c : Contents} (h : e.Contained c) : e.apply c = c := by
  cases e with
  | addTags tags =>
    have hnone : (tags.filter fun t => !c.tags.contains t) = [] := by
      refine List.filter_eq_nil_iff.mpr fun t ht => ?_
      simpa using h t ht
    rw [Edit.apply, hnone, List.append_nil]
  | mergeMetadata updates => rw [Edit.apply, Fields.update_eq_self_iff.mpr h]

/-- Nothing is written. -/
theorem Edit.untimed_flush_of_contained {e : Edit} {record : File} (h : e.Contained record.contents)
    (f : File) (now : ℕ) : ((record.flush (e.change record now)).toFun f).untimed = f.untimed := by
  rw [untimed_flush, apply_of_contained h]
  simp only [File.contents, flushColumn_self, File.withContents, File.untimed]

end Request

/-! ### Databases that edits lead to -/

/-- A database that edits lead to: files differ in what edits change, and in nothing else. -/
structure EditedFrom (start db : Database) : Prop where
  others : ∀ t, t ≠ .files → db t = start t
  cores : (db .files).map File.core = (start .files).map File.core
  ids : ((db .files).map File.id).Nodup

/-- Databases that are the same, apart from the times of changes. -/
structure SameContents (db db' : Database) : Prop where
  others : ∀ t, t ≠ .files → db t = db' t
  files : (db .files).map File.untimed = (db' .files).map File.untimed

section Databases

variable {start db db' snapshot : Database} {fileId o p : String} {record : File} {e : Edit}
  {now : ℕ}
  {c : EditCall} {ws : List DbWrite}

theorem EditedFrom.refl (h : start.Good) : EditedFrom start start where
  others := fun _ _ => rfl
  cores := rfl
  ids := h.uniquePk .files

theorem EditedFrom.eq_of_id (h : EditedFrom start db) {f g : File} (hf : f ∈ db .files)
    (hg : g ∈ db .files) (hid : f.id = g.id) : f = g :=
  List.inj_on_of_nodup_map h.ids hf hg hid

/-- A file is found in all of them, or in none. -/
theorem EditedFrom.get (h : EditedFrom start db) (h' : EditedFrom start db')
    (hget : FileRepository.get db fileId o p = .ok record) :
    ∃ f, FileRepository.get db' fileId o p = .ok f ∧ f ∈ db' .files ∧ f.id = fileId := by
  obtain ⟨hmem, hid, ho, hp, hdeleted⟩ := FileRepository.of_get hget
  have hcore : record.core ∈ (db' .files).map File.core := by
    rw [h'.cores, ← h.cores]
    exact List.mem_map_of_mem hmem
  obtain ⟨f, hf, hcore⟩ := List.mem_map.mp hcore
  have hfid : f.id = fileId := (congrArg File.id hcore).trans hid
  refine ⟨f, oneOr_filter_eq_ok h'.ids hf ?_ fun g hg => ?_, hf, hfid⟩
  · have hfo : f.organizationId = o := (congrArg File.organizationId hcore).trans ho
    have hfp : f.projectId = p := (congrArg File.projectId hcore).trans hp
    have hfd : f.deletedAt = none := (congrArg File.deletedAt hcore).trans hdeleted
    simp [hfid, hfo, hfp, hfd]
  · simp only [Bool.and_eq_true, beq_iff_eq] at hg
    exact hg.1.1.1.trans hfid.symm

/-- What saving an edited file leaves of the table. -/
theorem untimed_save (record : File) (e : Edit) (now : ℕ) (db : Database) :
    (applyAll [record.save (e.change record now)] db .files).map File.untimed
      = (db .files).map fun (f : File) => if f.id = record.id
        then ((record.flush (e.change record now)).toFun f).untimed else f.untimed := by
  rw [files_save, List.map_map]
  refine List.map_congr_left fun (f : File) _ => ?_
  simp only [Function.comp]
  split <;> rfl

/-- What an edit makes of a file, if it is the one. -/
def Edit.onFile (e : Edit) (fileId : String) (f : File) : File :=
  if f.id = fileId then f.withContents (e.apply f.contents) else f

theorem untimed_save_of_unchanged (hid : record.id = fileId)
    (h : ∀ f ∈ db .files, File.id f = fileId → e.Unchanged record.contents f.contents) :
    (applyAll [record.save (e.change record now)] db .files).map File.untimed
      = ((db .files).map File.untimed).map (e.onFile fileId) := by
  rw [untimed_save, hid, List.map_map]
  refine List.map_congr_left fun (f : File) hf => ?_
  simp only [Function.comp, Edit.onFile]
  by_cases hfid : f.id = fileId
  · have hfid' : f.untimed.id = fileId := hfid
    rw [if_pos hfid, Edit.untimed_flush_of_unchanged (h f hf hfid), if_pos hfid']
    rfl
  · have hfid' : f.untimed.id ≠ fileId := hfid
    rw [if_neg hfid, if_neg hfid']

theorem untimed_save_of_contained (h : e.Contained record.contents) :
    (applyAll [record.save (e.change record now)] db .files).map File.untimed
      = (db .files).map File.untimed := by
  rw [untimed_save]
  refine List.map_congr_left fun (f : File) _ => ?_
  rw [Edit.untimed_flush_of_contained h, ite_self]

theorem others_save (new : File) (db : Database) {t : Table} (ht : t ≠ .files) :
    applyAll [record.save new] db t = db t :=
  applyAll_of_table_ne (List.forall_mem_singleton.mpr (Ne.symm ht)) db

theorem admissible_save (new : File) (db : Database) : Admissible [record.save new] db :=
  ⟨trivial, trivial⟩

theorem Edit.unchanged_self (e : Edit) (c : Contents) : e.Unchanged c c := by
  cases e <;> rfl

/-- Saving an edited file changes what edits change. -/
theorem EditedFrom.save (h : EditedFrom start db) :
    EditedFrom start (applyAll [record.save (e.change record now)] db) := by
  have hcore : ((applyAll [record.save (e.change record now)] db .files)).map File.core
      = (db .files).map File.core := by
    have huntimed := congrArg (List.map File.core) (untimed_save record e now db)
    rw [List.map_map, List.map_map] at huntimed
    refine huntimed.trans (List.map_congr_left fun (f : File) _ => ?_)
    simp only [Function.comp, Edit.untimed_flush]
    split <;> rfl
  refine ⟨fun t ht => (others_save _ db ht).trans (h.others t ht), hcore.trans h.cores, ?_⟩
  have hids := congrArg (List.map File.id) hcore
  rw [List.map_map, List.map_map] at hids
  exact hids ▸ h.ids

theorem EditedFrom.edits (h : EditedFrom start db) (hws : edits fileId c snapshot = some ws) :
    EditedFrom start (applyAll ws db) := by
  obtain ⟨record, -, -, rfl⟩ := edits_eq_some.mp hws
  exact h.save

/-- The validation of a merge is the same, of the same metadata. -/
theorem EditedFrom.validates_iff (h : EditedFrom start db) (h' : EditedFrom start db')
    (metadata : Fields) : c.Validates db metadata ↔ c.Validates db' metadata := by
  refine EditCall.validates_congr ?_ ?_ metadata
  · rw [h.others _ (by decide), h'.others _ (by decide)]
  · rw [h.others _ (by decide), h'.others _ (by decide)]

/-- Requests cannot tell times of changes apart. -/
theorem indistinguishable_edits (start : Database) (fileId : String) :
    Indistinguishable (edits fileId) (EditedFrom start) SameContents where
  refl _ := ⟨fun _ _ => rfl, rfl⟩
  symm h := ⟨fun t ht => (h.others t ht).symm, h.files.symm⟩
  trans h h' := ⟨fun t ht => (h.others t ht).trans (h'.others t ht), h.files.trans h'.files⟩
  run := by
    intro c db db' ws hdb hdb' hsame hws hadm
    obtain ⟨record, hget, hvalid, rfl⟩ := edits_eq_some.mp hws
    obtain ⟨hmem, hid, -⟩ := FileRepository.of_get hget
    obtain ⟨f, hget', hf, hfid⟩ := hdb.get hdb' hget
    -- it is the same file, apart from its time
    have huntimed : record.untimed ∈ (db' .files).map File.untimed :=
      hsame.files ▸ List.mem_map_of_mem hmem
    obtain ⟨g, hg, huntimed⟩ := List.mem_map.mp huntimed
    obtain rfl : g = f :=
      hdb'.eq_of_id hg hf ((congrArg File.id huntimed).trans (hid.trans hfid.symm))
    have hmetadata : g.untimed.metadata = record.untimed.metadata := congrArg File.metadata huntimed
    change g.metadata = record.metadata at hmetadata
    refine ⟨_, edits_eq_some.mpr ⟨g, hget', ?_, rfl⟩, admissible_save _ _, fun t ht => ?_, ?_⟩
    · rw [hmetadata]
      exact (hdb.validates_iff hdb' _).mp hvalid
    · rw [others_save _ db ht, others_save _ db' ht, hsame.others t ht]
    · rw [untimed_save_of_unchanged hid fun f' hf' hid' => ?_,
        untimed_save_of_unchanged hfid fun f' hf' hid' => ?_, hsame.files]
      · rw [hdb'.eq_of_id hf' hf (hid'.trans hfid.symm)]
        exact Edit.unchanged_self _ _
      · rw [hdb.eq_of_id hf' hmem (hid'.trans hid.symm)]
        exact Edit.unchanged_self _ _

/-- A file on record has contents. -/
theorem mem_contents {f : File} (hf : f ∈ db .files) (hid : f.id = fileId) :
    f.contents ∈ contents db fileId :=
  List.mem_map_of_mem (List.mem_filter.mpr ⟨hf, by simpa using hid⟩)

/-- **A commit that takes its turn is timely.** -/
theorem EditsInTurn.timely (hturn : EditsInTurn fileId db c snapshot)
    (hsnap : EditedFrom start snapshot) (hdb : EditedFrom start db)
    (hws : edits fileId c snapshot = some ws) :
    Timely (edits fileId) SameContents c snapshot db ws := by
  obtain ⟨record, hget, hvalid, rfl⟩ := edits_eq_some.mp hws
  obtain ⟨hmem, hid, -⟩ := FileRepository.of_get hget
  obtain ⟨f, hget', hf, hfid⟩ := hsnap.get hdb hget
  rcases hturn _ (mem_contents hmem hid) _ (mem_contents hf hfid) with hunchanged | hcontained
  · refine .present (edits_eq_some.mpr ⟨f, hget', ?_, rfl⟩) (admissible_save _ _)
      ⟨fun t ht => ?_, ?_⟩
    · refine (hsnap.validates_iff hdb _).mp ?_
      obtain ⟨ctx, env, projectId, edit⟩ := c
      cases edit with
      | addTags tags => trivial
      | mergeMetadata updates =>
        have hmetadata : f.metadata = record.metadata := hunchanged
        rw [hmetadata]
        exact hvalid
    · rw [others_save _ db ht, others_save _ db ht]
    · rw [untimed_save_of_unchanged hfid fun f' hf' hid' => ?_,
        untimed_save_of_unchanged hid fun f' hf' hid' => ?_]
      · rw [hdb.eq_of_id hf' hf (hid'.trans hfid.symm)]
        exact hunchanged
      · rw [hdb.eq_of_id hf' hf (hid'.trans hfid.symm)]
        exact Edit.unchanged_self _ _
  · exact .idle (admissible_save _ _)
      ⟨fun t ht => others_save _ _ ht, untimed_save_of_contained hcontained⟩
      ⟨fun t ht => others_save _ _ ht, untimed_save_of_contained hcontained⟩

end Databases

/-! ### Requests one after the other -/

section SerialRuns

variable {start db db' : Database} {fileId : String} {c : EditCall} {order : List EditCall}
  {ws : List DbWrite}

/-- What a request makes of the contents of the file. -/
theorem contents_edits (hdb : EditedFrom start db) (hws : edits fileId c db = some ws) :
    contents (applyAll ws db) fileId = (contents db fileId).map c.edit.apply := by
  obtain ⟨record, hget, -, rfl⟩ := edits_eq_some.mp hws
  obtain ⟨hmem, hid, -⟩ := FileRepository.of_get hget
  have hcontents : ∀ db : Database, contents db fileId = (((db .files).map File.untimed).filter
      fun f => f.id == fileId).map File.contents := by
    intro db
    rw [contents, List.filter_map, List.map_map]
    rfl
  have hsame : ∀ f ∈ db .files, File.id f = fileId →
      c.edit.Unchanged record.contents f.contents := by
    intro f hf hfid
    rw [hdb.eq_of_id hf hmem (hfid.trans hid.symm)]
    exact Edit.unchanged_self c.edit record.contents
  have hfiles : (applyAll [record.save (c.edit.change record c.env.now)] db .files).map
      File.untimed = ((db .files).map File.untimed).map (c.edit.onFile fileId) :=
    untimed_save_of_unchanged hid hsame
  rw [hcontents, hcontents, hfiles, List.filter_map, List.map_map, List.map_map]
  have hids : ((fun f : File => f.id == fileId) ∘ c.edit.onFile fileId)
      = fun f : File => f.id == fileId := by
    funext f
    simp only [Function.comp, Edit.onFile]
    split <;> rfl
  rw [hids]
  refine List.map_congr_left fun f hf => ?_
  have hfid : f.id = fileId := by simpa using (List.mem_filter.mp hf).2
  simp only [Function.comp, Edit.onFile, if_pos hfid]
  rfl

/-- **Requests that run one after the other** edit the contents one after the other. -/
theorem contents_of_serial (h : Serial (edits fileId) order db db') (hdb : EditedFrom start db) :
    contents db' fileId
      = (contents db fileId).map fun c => order.foldl (fun c call => call.edit.apply c) c := by
  induction h with
  | nil => exact (List.map_id _).symm
  | cons hrun hadm _ ih =>
    rw [ih (hdb.edits hrun), contents_edits hdb hrun, List.map_map]
    rfl

/-- Edits take no tag away, … -/
theorem Edit.mem_tags (e : Edit) {t : String} {c : Contents} (ht : t ∈ c.tags) :
    t ∈ (e.apply c).tags := by
  cases e with
  | addTags tags => exact List.mem_append_left _ ht
  | mergeMetadata updates => exact ht

/-- … and what is added is there. -/
theorem Edit.mem_tags_addTags {tags : List String} {t : String} (ht : t ∈ tags) (c : Contents) :
    t ∈ ((Edit.addTags tags).apply c).tags := by
  by_cases hc : t ∈ c.tags
  · exact List.mem_append_left _ hc
  · exact List.mem_append_right _ (List.mem_filter.mpr ⟨ht, by simpa using hc⟩)

/-- The edit sets the key to the value. -/
def Edit.Sets (e : Edit) (k : String) (v : Json) : Prop :=
  ∃ updates, e = .mergeMetadata updates ∧ Fields.get? updates.reverse k = some v

theorem Edit.Sets.get? {e : Edit} {k : String} {v : Json} (h : e.Sets k v) (c : Contents) :
    (e.apply c).metadata.get? k = some v := by
  obtain ⟨updates, rfl, hk⟩ := h
  rw [Edit.apply, Fields.get?_update, hk, Option.some_or]

/-- A key stays if it is set to nothing else. -/
theorem Edit.get?_apply {e : Edit} {k : String} {v : Json} {c : Contents}
    (hv : c.metadata.get? k = some v) (hothers : ∀ v', e.Sets k v' → v' = v) :
    (e.apply c).metadata.get? k = some v := by
  cases e with
  | addTags tags => exact hv
  | mergeMetadata updates =>
    rw [Edit.apply, Fields.get?_update]
    cases hk : Fields.get? updates.reverse k with
    | none => exact hv
    | some v' => rw [hothers v' ⟨updates, rfl, hk⟩, Option.some_or]

theorem mem_tags_foldl {t : String} {c : Contents} (ht : t ∈ c.tags) :
    t ∈ (order.foldl (fun c call => call.edit.apply c) c).tags := by
  induction order generalizing c with
  | nil => exact ht
  | cons call order ih => exact ih (call.edit.mem_tags ht)

/-- Tags that are added stay. -/
theorem mem_tags_of_added {call : EditCall} (hcall : call ∈ order) {tags : List String}
    (hedit : call.edit = .addTags tags) {t : String} (ht : t ∈ tags) (c : Contents) :
    t ∈ (order.foldl (fun c call => call.edit.apply c) c).tags := by
  induction order generalizing c with
  | nil => cases hcall
  | cons first order ih =>
    rcases List.mem_cons.mp hcall with rfl | hcall
    · have hadded := Edit.mem_tags_addTags ht c
      rw [← hedit] at hadded
      rw [List.foldl_cons]
      exact mem_tags_foldl hadded
    · exact ih hcall _

theorem get?_foldl {k : String} {v : Json} {c : Contents} (hv : c.metadata.get? k = some v)
    (hothers : ∀ call ∈ order, ∀ v', call.edit.Sets k v' → v' = v) :
    (order.foldl (fun c call => call.edit.apply c) c).metadata.get? k = some v := by
  induction order generalizing c with
  | nil => exact hv
  | cons call order ih =>
    exact ih (Edit.get?_apply hv (hothers call List.mem_cons_self))
      fun call' hcall' => hothers call' (List.mem_cons_of_mem _ hcall')

/-- Keys that are set stay, if they are set to nothing else. -/
theorem get?_of_set {call : EditCall} (hcall : call ∈ order) {k : String} {v : Json}
    (hset : call.edit.Sets k v) (hothers : ∀ call ∈ order, ∀ v', call.edit.Sets k v' → v' = v)
    (c : Contents) : (order.foldl (fun c call => call.edit.apply c) c).metadata.get? k
      = some v := by
  induction order generalizing c with
  | nil => cases hcall
  | cons first order ih =>
    have hrest : ∀ call ∈ order, ∀ v', call.edit.Sets k v' → v' = v :=
      fun call' hcall' => hothers call' (List.mem_cons_of_mem _ hcall')
    rcases List.mem_cons.mp hcall with rfl | hcall
    · rw [List.foldl_cons]
      exact get?_foldl (hset.get? c) hrest
    · exact ih hcall hrest _

end SerialRuns

/-! ### Runs -/

/-- The file's contents are those that some serial order of the requests leads to, with every tag
that was added and every key that was set to one value only. -/
structure NothingLost (fileId : String) (start : Database) (log : Ledger Table.Row EditCall)
    (db : Database) : Prop where
  serial : ∃ order s, order.Perm (log.map Prod.fst) ∧ Serial (edits fileId) order start s
    ∧ contents s fileId = contents db fileId
  tags : ∀ x ∈ log, ∀ tags, x.1.edit = .addTags tags → ∀ t ∈ tags,
    ∀ c ∈ contents db fileId, t ∈ c.tags
  metadata : ∀ x ∈ log, ∀ k v, x.1.edit.Sets k v → (∀ y ∈ log, ∀ v', y.1.edit.Sets k v' → v' = v) →
    ∀ c ∈ contents db fileId, c.metadata.get? k = some v

/-- **Requests that take turns have the effect of a serial order**: if every request commits while
what it changes is as it was read, or adds what was there already, nothing is lost. -/
theorem edits_serializable {start : Database} (hstart : start.Good) {fileId : String}
    {log : Ledger Table.Row EditCall} {w : World Table.Row EditCall}
    (hw : Logged (edits fileId) (EditsInTurn fileId) (· = start) log w) :
    NothingLost fileId start log w.store := by
  obtain ⟨order, s, hperm, hserial, hsame⟩ := hw.serializable (indistinguishable_edits start fileId)
    (.refl hstart) (fun c snapshot db ws _ hdb hws _ => hdb.edits hws)
    (fun c snapshot db ws hsnap hdb hws _ hturn => hturn.timely hsnap hdb hws)
  have hcontents : contents s fileId = contents w.store fileId := by
    have hfiles := congrArg (fun files => (files.filter fun f => f.id == fileId).map File.contents)
      hsame.files
    simp only [List.filter_map, List.map_map] at hfiles
    exact hfiles
  have hfold := contents_of_serial hserial (.refl hstart)
  have hmem : ∀ x ∈ log, x.1 ∈ order := fun x hx => hperm.mem_iff.mpr (List.mem_map_of_mem hx)
  refine ⟨⟨order, s, hperm, hserial, hcontents⟩, fun x hx tags hedit t ht c hc => ?_,
    fun x hx k v hset hothers c hc => ?_⟩
  · rw [← hcontents, hfold] at hc
    obtain ⟨c₀, -, rfl⟩ := List.mem_map.mp hc
    exact mem_tags_of_added (hmem x hx) hedit ht c₀
  · rw [← hcontents, hfold] at hc
    obtain ⟨c₀, -, rfl⟩ := List.mem_map.mp hc
    refine get?_of_set (hmem x hx) hset (fun call hcall v' hset' => ?_) c₀
    obtain ⟨y, hy, rfl⟩ := List.mem_map.mp (hperm.mem_iff.mp hcall)
    exact hothers y hy v' hset'

/-- A project with a file, initiated. -/
def taggedUpload : List ServiceCall :=
  [⟨orgContext "acme", devEnv "p" 1, "", .createProject devProject⟩,
   ⟨orgContext "acme", devEnv "f" 2, "p0", .initUpload
     { filename := "a.txt", contentType := "text/plain", sizeBytes := 1 }⟩]

/-- The database with that file. -/
def taggedDb : Database := runAll taggedUpload Database.empty

/-- A tag for it. -/
def addTag (tag : String) (now : ℕ) : EditCall :=
  ⟨orgContext "acme", devEnv tag now, "p0", .addTags [tag]⟩

/-- Some metadata for it. -/
def mergeKey (key : String) (now : ℕ) : EditCall :=
  ⟨orgContext "acme", devEnv key now, "p0", .mergeMetadata [(key, .int 1)]⟩

/-- Where what a request changes is as it was read. -/
theorem EditsInTurn.of_unchanged {fileId : String} {db snapshot : Database} {c : EditCall}
    (h : ∀ before ∈ contents snapshot fileId, ∀ now ∈ contents db fileId,
      c.edit.Unchanged before now) : EditsInTurn fileId db c snapshot :=
  fun before hbefore now hnow => .inl (h before hbefore now hnow)

/-- A tag and a key, read side by side, then another tag. -/
theorem edits_serializable_in_turn : ∃ log w,
    Logged (edits "f0") (EditsInTurn "f0") (· = taggedDb) log w
      ∧ contents w.store "f0" = [⟨["x", "y"], [("k", .int 1)]⟩]
      ∧ NothingLost "f0" taggedDb log w.store := by
  have hstart : Logged (edits "f0") (EditsInTurn "f0") (· = taggedDb) [] ⟨taggedDb, []⟩ := .init rfl
  have hread := (hstart.step (.read (addTag "x" 3))).step (.read (mergeKey "k" 4))
  have hmerge := hread.step (.commit [] [_] rfl (by decide) (.of_unchanged (by decide)))
  have htag := hmerge.step (.commit [] [] rfl (by decide) (.of_unchanged (by decide)))
  have hlast := (htag.step (.read (addTag "y" 5))).step
    (.commit [] [] rfl (by decide) (.of_unchanged (by decide)))
  exact ⟨_, _, hlast, by decide, edits_serializable (reached_runAll .empty taggedUpload).good hlast⟩

/-- Two additions of tags, read side by side: the second commit undoes the first. -/
theorem edits_lost : ¬∀ start fileId, Reached start → ∀ log w,
    Logged (edits fileId) .always (· = start) log w → NothingLost fileId start log w.store := by
  intro h
  have hstart : Logged (edits "f0") .always (· = taggedDb) [] ⟨taggedDb, []⟩ := .init rfl
  have hread := (hstart.step (.read (addTag "x" 3))).step (.read (addTag "y" 4))
  have hfirst := hread.step (.commit [] [_] rfl (by decide) trivial)
  have hsecond := hfirst.step (.commit [] [] rfl (by decide) trivial)
  have hlost := (h taggedDb "f0" (reached_runAll .empty taggedUpload) _ _ hsecond).tags _
    List.mem_cons_self _ rfl _ List.mem_cons_self _ List.mem_cons_self
  exact absurd hlost (by decide)

end FileNest
