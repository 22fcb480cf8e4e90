import FileNest.Uploads.TokenConstraints
import Mathlib.Data.List.Induction

/-!
# What a token sets, and what it leaves to the browser

Two browsers that hold one upload token may send different folders, metadata and tags.  What the
token sets is the same in both rows; what it does not set is what each browser sent; and tags
are united, those of the browser first.

## Main definitions

* `FirstOccurrences` — a list without what it repeats.
* `TenantContext.tokenValue` — the value a token sets for a metadata key.
* `AgreeWhereSet`, `RestFromBrowser` — the two rows, and each row.

## Main results

* `firstOccurrences_dictFromKeys` — what `dict.fromkeys` keeps.
* `server_set_precedence` — **the rows agree on what the token sets, and have the browser's
elsewhere.**
-/

namespace FileNest

/-- The list has each element of `l` once, in the order in which they first occur in `l`. -/
structure FirstOccurrences (l tags : List String) : Prop where
  nodup : tags.Nodup
  mem_iff : ∀ t, t ∈ tags ↔ t ∈ l
  ordered : tags.Pairwise fun a b => l.idxOf a < l.idxOf b

/-- The value the token sets for a metadata key; of two, the last counts. -/
def TenantContext.tokenValue (ctx : TenantContext) (k : String) : Option Json :=
  Fields.get? (ctx.uploadTokenDefaultMetadata.getD []).reverse k

/-- The rows agree on what the token sets: they have the token's folder, metadata and owner. -/
structure AgreeWhereSet (ctx : TenantContext) (f f' : File) : Prop where
  folderId : ∀ id, ctx.uploadTokenFolderId = some id → f.folderId = some id ∧ f'.folderId = some id
  metadata : ∀ k v, ctx.tokenValue k = some v →
    f.metadata.get? k = some v ∧ f'.metadata.get? k = some v
  ownerUserId : f.ownerUserId = ctx.ownerUserId ∧ f'.ownerUserId = ctx.ownerUserId
  ownerOrgId : f.ownerOrgId = ctx.ownerOrgId ∧ f'.ownerOrgId = ctx.ownerOrgId

/-- Where the token sets nothing, the row has what the browser sent, and its tags are those of
both. -/
structure RestFromBrowser (ctx : TenantContext) (req : UploadInitRequest) (f : File) : Prop where
  folderId : ctx.uploadTokenFolderId = none → f.folderId = req.folderId
  metadata : ∀ k, ctx.tokenValue k = none → f.metadata.get? k = req.metadata.get? k
  tags : FirstOccurrences (req.tags ++ ctx.uploadTokenDefaultTags.getD []) f.tags

/-! ### Tags -/

theorem dictFromKeys_concat (l : List String) (t : String) :
    dictFromKeys (l ++ [t]) = if t ∈ l then dictFromKeys l else dictFromKeys l ++ [t] := by
  unfold dictFromKeys
  rw [List.reverse_append, List.reverse_singleton, List.singleton_append]
  split
  · rename_i ht
    rw [List.dedup_cons_of_mem (List.mem_reverse.mpr ht)]
  · rename_i ht
    rw [List.dedup_cons_of_notMem fun h => ht (List.mem_reverse.mp h), List.reverse_cons]

/-- What `dict.fromkeys` keeps. -/
theorem firstOccurrences_dictFromKeys (l : List String) : FirstOccurrences l (dictFromKeys l) where
  nodup := List.nodup_reverse.mpr (List.nodup_dedup _)
  mem_iff := fun t => mem_dictFromKeys
  ordered := by
    -- induction from the end, where a tag is new or not
    induction l using List.reverseRecOn with
    | nil => exact List.Pairwise.nil
    | append_singleton l t ih =>
      have hold : (dictFromKeys l).Pairwise fun a b => (l ++ [t]).idxOf a < (l ++ [t]).idxOf b := by
        refine ih.imp_of_mem fun {a b} ha hb hlt => ?_
        rwa [List.idxOf_append_of_mem (mem_dictFromKeys.mp ha),
          List.idxOf_append_of_mem (mem_dictFromKeys.mp hb)]
      rw [dictFromKeys_concat]
      split
      · exact hold
      · rename_i ht
        refine List.pairwise_append.mpr ⟨hold, List.pairwise_singleton _ _, fun a ha b hb => ?_⟩
        have hal := mem_dictFromKeys.mp ha
        rw [List.mem_singleton.mp hb, List.idxOf_append_of_mem hal, List.idxOf_append_of_notMem ht]
        exact Nat.lt_add_right _ (List.idxOf_lt_length_of_mem hal)

section Precedence

variable {ctx : TenantContext} {env env' : Env} {db db' : Database}
  {projectId projectId' : String} {req req' : UploadInitRequest}

/-! ### One row -/

/-- The tags of a row are those of the request and of the token. -/
theorem initRecord_tags (htoken : ctx.isUploadToken = true) :
    (FileService.initRecord ctx env projectId req).tags
      = dictFromKeys (req.tags ++ ctx.uploadTokenDefaultTags.getD []) := by
  show dictFromKeys (ctx.uploadTags req.tags) = _
  rw [TenantContext.uploadTags, htoken, cond_true]
  split
  · rename_i hdefaults
    rw [dictFromKeys_dictFromKeys, hdefaults, Option.getD_some]
  · rename_i hdefaults
    cases htags : ctx.uploadTokenDefaultTags with
    | none => rw [Option.getD_none, List.append_nil]
    | some tags =>
      cases tags with
      | nil => rw [Option.getD_some, List.append_nil]
      | cons t ts => exact absurd htags (hdefaults t ts)

theorem get?_uploadMetadata (htoken : ctx.isUploadToken = true) (metadata : Fields) (k : String) :
    (ctx.uploadMetadata metadata).get? k = (ctx.tokenValue k).or (metadata.get? k) := by
  rw [TenantContext.uploadMetadata, htoken, cond_true, Fields.get?_update]
  rfl

theorem uploadFolder_eq (htoken : ctx.isUploadToken = true) (folderId : Option String) :
    ctx.uploadFolder folderId = ctx.uploadTokenFolderId.or folderId := by
  rw [TenantContext.uploadFolder, htoken, cond_true]
  cases ctx.uploadTokenFolderId <;> rfl

theorem restFromBrowser_initRecord (htoken : ctx.isUploadToken = true) :
    RestFromBrowser ctx req (FileService.initRecord ctx env projectId req) where
  folderId := by
    intro hnone
    show ctx.uploadFolder req.folderId = _
    rw [uploadFolder_eq htoken, hnone, Option.none_or]
  metadata := by
    intro k hnone
    show (ctx.uploadMetadata req.metadata).get? k = _
    rw [get?_uploadMetadata htoken, hnone, Option.none_or]
  tags := by
    rw [initRecord_tags htoken]
    exact firstOccurrences_dictFromKeys _

/-- What the token sets does not depend on the request. -/
theorem agreeWhereSet_initRecord (htoken : ctx.isUploadToken = true) :
    AgreeWhereSet ctx (FileService.initRecord ctx env projectId req)
      (FileService.initRecord ctx env' projectId' req') where
  folderId := by
    have hfolder : ∀ id, ctx.uploadTokenFolderId = some id →
        ∀ folderId, ctx.uploadFolder folderId = some id := by
      intro id hid folderId
      rw [uploadFolder_eq htoken, hid, Option.some_or]
    exact fun id hid => ⟨hfolder id hid req.folderId, hfolder id hid req'.folderId⟩
  metadata := by
    have hmetadata : ∀ k v, ctx.tokenValue k = some v →
        ∀ metadata, (ctx.uploadMetadata metadata).get? k = some v := by
      intro k v hv metadata
      rw [get?_uploadMetadata htoken, hv, Option.some_or]
    exact fun k v hv => ⟨hmetadata k v hv req.metadata, hmetadata k v hv req'.metadata⟩
  ownerUserId := ⟨rfl, rfl⟩
  ownerOrgId := ⟨rfl, rfl⟩

/-- **What the token sets is the same in both rows, and what it does not set is the browser's**,
for any two requests that are accepted, whenever they are made and whatever they send as folder,
metadata and tags. -/
theorem server_set_precedence (htoken : ctx.isUploadToken = true) (env env' : Env)
    (db db' : Database) (projectId projectId' : String) {r r' : Response} {ws ws' : List DbWrite}
    (h : FileService.initUpload ctx env db projectId req = .ok (r, ws))
    (h' : FileService.initUpload ctx env' db' projectId' req' = .ok (r', ws')) {f f' : File}
    (hf : .insert .files f ∈ ws) (hf' : .insert .files f' ∈ ws') :
    AgreeWhereSet ctx f f' ∧ RestFromBrowser ctx req f ∧ RestFromBrowser ctx req' f' := by
  rw [FileService.initUpload_file h hf, FileService.initUpload_file h' hf']
  exact ⟨agreeWhereSet_initRecord htoken, restFromBrowser_initRecord htoken,
    restFromBrowser_initRecord htoken⟩

end Precedence

/-- A token that sets a folder, metadata, tags and an owner. -/
def stampingToken : UploadToken :=
  { limitedToken with
    folderId := some "f0"
    defaultMetadata := some [("team", .str "red")]
    defaultTags := some ["avatar", "new"]
    ownerUserId := some "u7" }

/-- An upload that sends a folder, a value for the token's key and one of its tags. -/
def stampedUpload : UploadInitRequest :=
  { filename := "a.png", contentType := "image/png", sizeBytes := 10, folderId := some "f1"
    tags := ["new", "mine", "new"], metadata := [("team", .str "blue"), ("page", .int 1)] }

/-- The same upload with nothing sent. -/
def plainUpload : UploadInitRequest :=
  { filename := "a.png", contentType := "image/png", sizeBytes := 10 }

example : (FileService.initRecord (uploadTokenContext stampingToken) (devEnv "u" 2) "p0"
    stampedUpload).tags = ["new", "mine", "avatar"] := by
  decide

theorem server_set_precedence_stamped :
    let ctx := uploadTokenContext stampingToken
    let f := FileService.initRecord ctx (devEnv "u" 2) "p0" stampedUpload
    let f' := FileService.initRecord ctx (devEnv "v" 3) "p0" plainUpload
    AgreeWhereSet ctx f f' ∧ RestFromBrowser ctx stampedUpload f ∧
      RestFromBrowser ctx plainUpload f' :=
  server_set_precedence (by decide) (devEnv "u" 2) (devEnv "v" 3) oneProject oneProject "p0" "p0"
    rfl rfl List.mem_cons_self List.mem_cons_self

end FileNest
