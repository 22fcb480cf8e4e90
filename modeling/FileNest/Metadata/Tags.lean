import FileNest.Metadata.LostUpdates
import FileNest.Uploads.Admission
import FileNest.Uploads.Settlement
import FileNest.Versioning

/-!
# Tags

A file's tags are meant to be a set.  `init_upload`, a multipart start and `set_tags` drop
duplicates; `add_tags` drops what the file has, but not what its own list repeats.  So tags
stay a set as long as no call of `add_tags` repeats a tag that is new to the file, and the
set is the union of what was there and what was added in any case.

## Main definitions

* `TagsAreSets` — no file has a tag twice.
* `AddsOnce` — the condition on a call.
* `TagUnions` — what calls of `add_tags` one after the other leave.

## Main results

* `nodup_addTags_iff` — what one call of `add_tags` leaves.
* `TagWrite` — what a write means for the tags of files.
* `tags_are_sets` — **tags stay sets if every call adds a tag once.**
* `tag_repeated` — a call that does not.
-/

namespace FileNest

open RowStore ReadCommitted

/-- No file has a tag twice. -/
def TagsAreSets (db : Database) : Prop := ∀ f ∈ db .files, (File.tags f).Nodup

/-- The tags an operation appends to a file. -/
def Operation.appendedTags (record : File) : Operation → List String
  | addTags fileId tags =>
      if record.id = fileId then tags.filter fun t => !record.tags.contains t else []
  | _ => []

/-- **The condition** on a call: the tags it appends are given once. -/
def AddsOnce : Guard Table.Row ServiceCall := fun _ c snapshot =>
  ∀ f ∈ snapshot .files, (c.op.appendedTags f).Nodup

instance (db : Database) (c : ServiceCall) (snapshot : Database) :
    Decidable (AddsOnce db c snapshot) :=
  inferInstanceAs (Decidable (∀ f ∈ snapshot .files, (c.op.appendedTags f).Nodup))

/-! ### Lists of tags -/

theorem nodup_dictFromKeys (xs : List String) : (dictFromKeys xs).Nodup :=
  List.nodup_reverse.mpr (List.nodup_dedup _)

/-- What is appended is not there yet. -/
theorem disjoint_fresh (old tags : List String) :
    old.Disjoint (tags.filter fun t => !old.contains t) := by
  intro t hold hfresh
  have hnot := (List.mem_filter.mp hfresh).2
  rw [Bool.not_eq_true', List.contains_eq_mem, decide_eq_false_iff_not] at hnot
  exact hnot hold

/-- **What one call of `add_tags` leaves** is a set exactly if what it appends is. -/
theorem nodup_addTags_iff {record : File} {tags : List String} {now : ℕ} :
    (FileRepository.addTags record tags now).tags.Nodup ↔
      record.tags.Nodup ∧ (tags.filter fun t => !record.tags.contains t).Nodup := by
  rw [FileRepository.addTags, List.nodup_append', and_congr_right_iff]
  exact fun _ => and_iff_left (disjoint_fresh record.tags tags)

theorem Edit.mem_addTags_iff {tags : List String} {t : String} {c : Contents} :
    t ∈ ((Edit.addTags tags).apply c).tags ↔ t ∈ c.tags ∨ t ∈ tags := by
  constructor
  · intro ht
    rcases List.mem_append.mp ht with hold | hnew
    · exact .inl hold
    · exact .inr (List.mem_filter.mp hnew).1
  · rintro (hold | hnew)
    · exact (Edit.addTags tags).mem_tags hold
    · exact Edit.mem_tags_addTags hnew c

/-- Adding the same tags again changes nothing. -/
theorem Edit.addTags_addTags (tags : List String) (c : Contents) :
    (Edit.addTags tags).apply ((Edit.addTags tags).apply c) = (Edit.addTags tags).apply c := by
  have hcontained : (Edit.addTags tags).Contained ((Edit.addTags tags).apply c) := fun t ht =>
    Edit.mem_tags_addTags ht c
  exact Edit.apply_of_contained hcontained

/-! ### What operations write about the tags of files -/

/-- What a write means for the tags of files. -/
inductive TagWrite (ctx : TenantContext) (db : Database) (projectId : String) (op : Operation) :
    DbWrite → Prop
  | other {w : DbWrite} (h : w.table ≠ .files) : TagWrite ctx db projectId op w
  | insert {row : File} (htags : row.tags.Nodup) : TagWrite ctx db projectId op (.insert .files row)
  | save {fileId : String} {record new : File}
      (hget : FileRepository.get db fileId ctx.organizationId projectId = .ok record)
      (htags : new.tags = record.tags ∨ new.tags.Nodup
        ∨ new.tags = record.tags ++ op.appendedTags record) :
      TagWrite ctx db projectId op (record.save new)

section TagWrite

variable {ctx : TenantContext} {env : Env} {db : Database} {projectId : String}
  {op : Operation} {r : Response} {ws : List DbWrite}

theorem tagWrite_cons {w : DbWrite} (hw : TagWrite ctx db projectId op w)
    (hws : ∀ v ∈ ws, TagWrite ctx db projectId op v) :
    ∀ v ∈ w :: ws, TagWrite ctx db projectId op v :=
  List.forall_mem_cons.mpr ⟨hw, hws⟩

theorem tagWrite_publish {draw : ℕ} {event : String} {payload : Fields} :
    TagWrite ctx db projectId op (publish ctx env projectId draw event payload) :=
  .other (by simp [publish, TransactionalOutboxPublisher.publish])

theorem tagWrite_settleWrites {fileId : String} {config : ProjectConfig} {record : File}
    (version : Option String)
    (hget : FileRepository.get db fileId ctx.organizationId projectId = .ok record) :
    ∀ w ∈ settleWrites ctx env projectId config record version,
      TagWrite ctx db projectId op w := by
  intro w hw
  rcases List.mem_append.mp hw with hversions | hrest
  · refine .other ?_
    rw [mem_settleVersions_table ctx env projectId record version hversions]
    decide
  · refine tagWrite_cons (.save hget (.inl ?_)) (List.forall_mem_singleton.mpr (.other ?_)) w hrest
    · cases version <;> rfl
    · simp

theorem FileService.modifyFile_tagWrite {fileId : String} {change : File → File}
    {respond : File → Response}
    (h : modifyFile ctx db projectId fileId change respond = .ok (r, ws))
    (hchange : ∀ f, f.id = fileId → (change f).tags = f.tags ∨ (change f).tags.Nodup
      ∨ (change f).tags = f.tags ++ op.appendedTags f) :
    ∀ w ∈ ws, TagWrite ctx db projectId op w := by
  simp only [modifyFile, bind_eq_ok, pure_eq_ok, Prod.mk.injEq] at h
  obtain ⟨record, hget, -, rfl⟩ := h
  exact List.forall_mem_singleton.mpr
    (.save hget (hchange record (FileRepository.of_get hget).2.1))

/-- **What operations mean for the tags of files.** -/
theorem Operation.tagWrite (hdb : db.Good) (h : op.run ctx env db projectId = .ok (r, ws)) :
    ∀ w ∈ ws, TagWrite ctx db projectId op w := by
  have htables := (Operation.sound hdb h).tables
  cases op with
  | initUpload req =>
    obtain ⟨config, provider, url, -, -, -, -, rfl⟩ := FileService.initUpload_eq_ok.mp h
    exact tagWrite_cons (.insert (nodup_dictFromKeys _))
      (List.forall_mem_singleton.mpr tagWrite_publish)
  | multipartStart req =>
    obtain ⟨config, provider, id, -, -, -, rfl⟩ := MultipartUploadService.start_eq_ok.mp h
    exact tagWrite_cons (.insert (nodup_dictFromKeys _))
      (List.forall_mem_singleton.mpr (.other (by simp)))
  | setTags fileId tags =>
    simp only [run, FileService.setTags] at h
    exact FileService.modifyFile_tagWrite h fun f _ => .inr (.inl (nodup_dictFromKeys tags))
  | addTags fileId tags =>
    simp only [run, FileService.addTags] at h
    refine FileService.modifyFile_tagWrite h fun f hid => .inr (.inr ?_)
    rw [appendedTags, if_pos hid]
    rfl
  | confirmUpload fileId =>
    obtain ⟨record, config, hget, -, -, rfl⟩ := FileService.confirmUpload_eq_ok.mp h
    exact tagWrite_settleWrites _ hget
  | multipartComplete uploadId req =>
    obtain ⟨session, record, config, provider, -, hget, -, -, -, -, -, rfl⟩ :=
      MultipartUploadService.complete_eq_ok.mp h
    exact tagWrite_cons (.other (by simp [UploadSession.save])) (tagWrite_settleWrites _ hget)
  | moveFile fileId folderId =>
    simp only [run, FileService.moveFile] at h
    exact FileService.modifyFile_tagWrite h fun f _ => .inl rfl
  | renameFile fileId req =>
    simp only [run, FileService.renameFile] at h
    exact FileService.modifyFile_tagWrite h fun f _ => .inl rfl
  | updateMetadata fileId metadata =>
    simp only [run, MetadataService.updateMetadata, bind_eq_ok] at h
    obtain ⟨_, -, h⟩ := h
    exact FileService.modifyFile_tagWrite h fun f _ => .inl rfl
  | mergeMetadata fileId metadata =>
    simp only [run, MetadataService.mergeMetadata, bind_eq_ok] at h
    obtain ⟨_, -, _, -, h⟩ := h
    exact FileService.modifyFile_tagWrite h fun f _ => .inl rfl
  | deleteFile fileId =>
    simp only [run, FileService.deleteFile, bind_eq_ok, pure_eq_ok, Prod.mk.injEq] at h
    obtain ⟨record, hget, -, rfl⟩ := h
    exact tagWrite_cons (.save hget (.inl rfl)) (List.forall_mem_singleton.mpr tagWrite_publish)
  | restoreVersion fileId versionId =>
    simp only [run, FileService.restoreVersion, bind_eq_ok, pure_eq_ok, Prod.mk.injEq] at h
    obtain ⟨record, hget, version, -, -, rfl⟩ := h
    refine tagWrite_cons (.other (by simp [versionRow])) (tagWrite_cons (.save hget (.inl rfl)) ?_)
    exact List.forall_mem_singleton.mpr tagWrite_publish
  | multipartAbort uploadId =>
    simp only [run, MultipartUploadService.abort, bind_eq_ok, pure_eq_ok, Prod.mk.injEq] at h
    obtain ⟨session, -, record, hget, _, -, -, -, -, rfl⟩ := h
    exact tagWrite_cons (.other (by simp [UploadSession.save]))
      (List.forall_mem_singleton.mpr (.save hget (.inl rfl)))
  -- the rest writes no file
  | _ => exact fun w hw => .other fun ht => absurd (ht ▸ htables w hw) (by simp [tables])

end TagWrite

/-! ### Commits -/

section Commits

variable {ctx : TenantContext} {snapshot db : Database} {projectId : String} {op : Operation}
  {ws : List DbWrite}

/-- One write keeps tags sets, if the tags of what was read are. -/
theorem TagWrite.tagsAreSets {w : DbWrite} (h : TagWrite ctx snapshot projectId op w)
    (hsnap : TagsAreSets snapshot) (honce : ∀ f ∈ snapshot .files, (op.appendedTags f).Nodup)
    (hdb : TagsAreSets db) : TagsAreSets (w.apply db) := by
  cases h with
  | other htable =>
    rw [TagsAreSets, apply_of_table_ne htable]
    exact hdb
  | insert htags =>
    intro f hf
    rw [apply_insert_self, List.mem_append, List.mem_singleton] at hf
    rcases hf with hf | rfl
    · exact hdb f hf
    · exact htags
  | @save fileId record new hget htags =>
    have hmem := (FileRepository.of_get hget).1
    have hnew : new.tags.Nodup := by
      rcases htags with hsame | hnodup | happended
      · rw [hsame]
        exact hsnap record hmem
      · exact hnodup
      · -- what is appended was not there before
        rw [happended]
        refine List.nodup_append'.mpr ⟨hsnap record hmem, honce record hmem, ?_⟩
        cases op with
        | addTags fileId tags =>
          rw [Operation.appendedTags]
          split
          · exact disjoint_fresh record.tags tags
          · exact List.disjoint_nil_right _
        | _ => exact List.disjoint_nil_right _
    intro f' hf'
    rw [File.save, apply_update_self] at hf'
    obtain ⟨f, hf, rfl⟩ := List.mem_map.mp hf'
    split
    · -- the saved row has the new tags, or kept those it had
      show (flushColumn record.tags new.tags (File.tags f)).Nodup
      rw [flushColumn]
      split
      · exact hdb f hf
      · exact hnew
    · exact hdb f hf

/-- So does a commit. -/
theorem tagsAreSets_applyAll (hws : ∀ w ∈ ws, TagWrite ctx snapshot projectId op w)
    (hsnap : TagsAreSets snapshot) (honce : ∀ f ∈ snapshot .files, (op.appendedTags f).Nodup)
    (hdb : TagsAreSets db) : TagsAreSets (applyAll ws db) := by
  induction ws generalizing db with
  | nil => exact hdb
  | cons w ws ih =>
    exact ih (fun v hv => hws v (List.mem_cons_of_mem _ hv))
      ((hws w List.mem_cons_self).tagsAreSets hsnap honce hdb)

/-- **Tags stay sets** in a run whose calls add a tag once. -/
theorem tagsAreSets_of_addsOnce {w : World Table.Row ServiceCall}
    (hw : Reachable ServiceCall.writes AddsOnce (· = Database.empty) w) : TagsAreSets w.store := by
  refine (ServiceCall.invariant (P := TagsAreSets) (R := fun snapshot db => TagsAreSets db →
    TagsAreSets snapshot) ?_ (fun _ => id) ?_ hw).2
  · intro f hf
    cases hf
  · intro db snapshot c r ws hdb hsnap _ hread htags hr _ honce
    have hcommit := tagsAreSets_applyAll (Operation.tagWrite hsnap hr) (hread htags) honce htags
    exact ⟨hcommit, fun snap hsnap' _ => hsnap' htags⟩

end Commits

/-! ### Additions one after the other -/

/-- The tags a request adds. -/
def EditCall.added (c : EditCall) : List String :=
  match c.edit with
  | .addTags tags => tags
  | .mergeMetadata _ => []

/-- What requests that run one after the other leave of the tags of a file: the union of what was
there and what they add, in whatever order, and nothing more when one is repeated. -/
structure TagUnions (fileId : String) (db : Database) : Prop where
  union : ∀ order db', Serial (edits fileId) order db db' →
    ∀ f' ∈ db' .files, File.id f' = fileId → ∃ f ∈ db .files, File.id f = fileId
      ∧ ∀ t, t ∈ File.tags f' ↔ t ∈ File.tags f ∨ ∃ call ∈ order, t ∈ call.added
  order : ∀ order order' db' db'', order.Perm order' → Serial (edits fileId) order db db' →
    Serial (edits fileId) order' db db'' → ∀ f' ∈ db' .files, File.id f' = fileId →
    ∀ f'' ∈ db'' .files, File.id f'' = fileId → ∀ t, t ∈ File.tags f' ↔ t ∈ File.tags f''
  idempotent : ∀ call call' tags db' db'', call.edit = .addTags tags → call'.edit = .addTags tags →
    Serial (edits fileId) [call] db db' → Serial (edits fileId) [call'] db' db'' →
    contents db'' fileId = contents db' fileId

section Additions

variable {db db' : Database} {fileId : String} {order : List EditCall} {t : String}

theorem EditCall.mem_tags_iff {call : EditCall} {c : Contents} :
    t ∈ (call.edit.apply c).tags ↔ t ∈ c.tags ∨ t ∈ call.added := by
  obtain ⟨ctx, env, projectId, edit⟩ := call
  cases edit with
  | addTags tags => exact Edit.mem_addTags_iff
  | mergeMetadata updates => exact (or_iff_left List.not_mem_nil).symm

theorem mem_tags_foldl_iff {c : Contents} :
    t ∈ (order.foldl (fun c call => call.edit.apply c) c).tags
      ↔ t ∈ c.tags ∨ ∃ call ∈ order, t ∈ call.added := by
  induction order generalizing c with
  | nil => simp only [List.foldl_nil, List.not_mem_nil, false_and, exists_false, or_false]
  | cons call order ih =>
    rw [List.foldl_cons, ih, EditCall.mem_tags_iff, or_assoc]
    simp only [List.mem_cons, exists_eq_or_imp]

theorem exists_of_mem_contents {c : Contents} (h : c ∈ contents db fileId) :
    ∃ f ∈ db .files, File.id f = fileId ∧ f.contents = c := by
  obtain ⟨f, hf, rfl⟩ := List.mem_map.mp h
  obtain ⟨hmem, hid⟩ := List.mem_filter.mp hf
  exact ⟨f, hmem, beq_iff_eq.mp hid, rfl⟩

/-- Requests lead to databases that edits lead to. -/
theorem editedFrom_of_serial (h : Serial (edits fileId) order db db') (hdb : EditedFrom db db) :
    EditedFrom db db' := by
  suffices ∀ start, EditedFrom start db → EditedFrom start db' from this db hdb
  intro start hstart
  clear hdb
  induction h with
  | nil => exact hstart
  | cons hrun _ _ ih => exact ih (hstart.edits hrun)

/-- **The tags are the union.** -/
theorem tags_of_serial (hdb : db.Good) (h : Serial (edits fileId) order db db') {f' : File}
    (hf' : f' ∈ db' .files) (hid : f'.id = fileId) : ∃ f ∈ db .files, File.id f = fileId
      ∧ ∀ t, t ∈ f'.tags ↔ t ∈ File.tags f ∨ ∃ call ∈ order, t ∈ call.added := by
  have hmem := mem_contents hf' hid
  rw [contents_of_serial h (.refl hdb)] at hmem
  obtain ⟨c, hc, hfold⟩ := List.mem_map.mp hmem
  obtain ⟨f, hf, hfid, rfl⟩ := exists_of_mem_contents hc
  refine ⟨f, hf, hfid, fun t => ?_⟩
  rw [← show (order.foldl (fun c call => call.edit.apply c) f.contents).tags = f'.tags from
    congrArg Contents.tags hfold]
  exact mem_tags_foldl_iff

theorem tagUnions (hdb : db.Good) (fileId : String) : TagUnions fileId db where
  union _ _ h _ hf' hid := tags_of_serial hdb h hf' hid
  order := by
    intro order order' db' db'' hperm h h' f' hf' hid f'' hf'' hid'' t
    obtain ⟨f, hf, hfid, hunion⟩ := tags_of_serial hdb h hf' hid
    obtain ⟨g, hg, hgid, hunion'⟩ := tags_of_serial hdb h' hf'' hid''
    obtain rfl : f = g := (EditedFrom.refl hdb).eq_of_id hf hg (hfid.trans hgid.symm)
    rw [hunion, hunion']
    exact or_congr_right (exists_congr fun call => and_congr_left fun _ => hperm.mem_iff)
  idempotent := by
    intro call call' tags db' db'' hcall hcall' h h'
    rw [contents_of_serial h' (editedFrom_of_serial h (.refl hdb)),
      contents_of_serial h (.refl hdb), List.map_map]
    refine List.map_congr_left fun c _ => ?_
    simp only [Function.comp, List.foldl_cons, List.foldl_nil, hcall, hcall']
    exact Edit.addTags_addTags tags c

end Additions

/-- **Tags are sets.**  They stay so in every run whose calls add a tag once, and what one call
leaves is a set exactly if it does; calls that run one after the other leave the union, in any
order, and a repeated one nothing more. -/
theorem tags_are_sets (w : World Table.Row ServiceCall) {db : Database} (hdb : db.Good)
    (fileId : String) :
    (Reachable ServiceCall.writes AddsOnce (· = Database.empty) w → TagsAreSets w.store)
    ∧ (∀ (record : File) (tags : List String) (now : ℕ),
      (FileRepository.addTags record tags now).tags.Nodup ↔
        record.tags.Nodup ∧ (tags.filter fun t => !record.tags.contains t).Nodup)
    ∧ TagUnions fileId db :=
  ⟨tagsAreSets_of_addsOnce, fun _ _ _ => nodup_addTags_iff, tagUnions hdb fileId⟩

/-- A project, a file with tags, and more of them for it. -/
def taggedCalls (tags : List String) : List ServiceCall :=
  [⟨orgContext "acme", devEnv "p" 1, "", .createProject devProject⟩,
   ⟨orgContext "acme", devEnv "f" 2, "p0", .initUpload
     { filename := "a.txt", contentType := "text/plain", sizeBytes := 1, tags := ["x", "x"] }⟩,
   ⟨orgContext "acme", devEnv "t" 3, "p0", .addTags "f0" tags⟩]

/-- Tags that are there may be repeated, … -/
theorem tags_are_sets_once :
    let db := runAll (taggedCalls ["x", "y", "x"]) Database.empty
    (db .files).map File.tags = [["x", "y"]] ∧ TagsAreSets db ∧ TagUnions "f0" db := by
  have hcalls : AllowedRun AddsOnce (taggedCalls ["x", "y", "x"]) Database.empty := by decide
  obtain ⟨hsets, -, hunions⟩ := tags_are_sets _
    (reached_runAll .empty (taggedCalls ["x", "y", "x"])).good "f0"
  exact ⟨by decide, hsets (hcalls.reachable (.init rfl)), hunions⟩

/-- … and new ones may not. -/
theorem tag_repeated : ¬∀ w : World Table.Row ServiceCall,
    Reachable ServiceCall.writes .always (· = Database.empty) w → TagsAreSets w.store := by
  intro h
  have hrun := reachable_runAll .always (fun _ _ => trivial) (taggedCalls ["y", "y"]) (.init rfl)
  have hrepeated : ∃ f ∈ runAll (taggedCalls ["y", "y"]) Database.empty .files,
      ¬(File.tags f).Nodup := by decide
  obtain ⟨f, hf, hnot⟩ := hrepeated
  exact hnot (h _ hrun f hf)

end FileNest
