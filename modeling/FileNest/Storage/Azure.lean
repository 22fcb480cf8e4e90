import FileNest.Lib.Base64
import FileNest.Sdk.ListFilters
import FileNest.Storage.Gcs

/-!
# Multipart uploads on Azure Blob Storage

There a part is a block of the blob, which the client puts under an id that is in the query of its
URL, and completing the upload commits a list of ids.  The ids of the URLs and those of the list
both come from the numbers, and both are Base64.  But the library of Azure that commits the list
writes the ids that it is given in Base64 itself, so the ids that reach Azure are those of no part.

## Main definitions

* `BlockStore` — what Azure and its library do to a container.
* `AzureBlobStorageProvider.blockId`, `partQuery`, `completeMultipartUpload` — the provider.
* `BlockStore.Lawful` — a block is put under its id; a list is committed if there is a block under
  each of its ids, written in Base64.
* `BlockRun` — the requests that succeed, of any uploads and in any order.

## Main results

* `blockIdOf_partQuery` — a block is put under the id of its part.
* `blockId_injective` — ids tell parts apart.
* `b64encode_ne_blockId` — **written in Base64 again, the id of a part is that of none.**
* `BlockRun.ofParts` — a run keeps that every block is of a part.
* `azure_completion_refused` — **no list of parts is ever committed.**
-/

namespace FileNest

open Assembly UrlEncoded

/-- What azure-storage-blob raises. -/
inductive AzureError where
  | notFound
  | other (text : String)

/-- What Azure and its library do to a container. -/
structure BlockStore (σ : Type) where
  putBlock (key blockId : String) (data : Bytes) (container : σ) : Except AzureError σ
  commitBlockList (key : String) (blockIds : List String) (container : σ) : Except AzureError σ

/-- `urllib.parse.quote` -/
def quote : Writer where
  keeps b := isAlphanumeric b || [0x2D, 0x2E, 0x2F, 0x5F, 0x7E].contains b
  plusForSpace := false
  keeps_plain := by decide +kernel

/-- `base64.b64encode(text.encode()).decode()` -/
def b64encode (text : String) : String := String.ofList (Base64.encode (utf8 text))

namespace AzureBlobStorageProvider

/-- `_block_id` -/
def blockId (partNumber : ℕ) : String := b64encode (Text.zeroPad 8 partNumber)

/-- The query of `generate_presigned_part_url`; the id of the upload is a SAS token. -/
def partQuery (uploadId : String) (partNumber : ℕ) : List UInt8 :=
  utf8 "comp=block&blockid=" ++ quote.encode (blockId partNumber) ++ amp :: utf8 uploadId

/-- `complete_multipart_upload`, for parts with number and ETag. -/
def completeMultipartUpload {σ : Type} (client : BlockStore σ) (key : String)
    (parts : List (ℕ × String)) (container : σ) : Except ApiError σ :=
  let sortedParts := Sql.orderBy Prod.fst parts
  match client.commitBlockList key (sortedParts.map fun part => blockId part.1) container with
  | .ok container => .ok container
  | .error _ => .error (storageError ("Failed to complete multipart upload for '" ++ key ++ "'") [])

end AzureBlobStorageProvider

open AzureBlobStorageProvider

/-- The block id in a query. -/
def blockIdOf (query : List UInt8) : Option String :=
  (parse query).bind fun params => params.lookup "blockid"

/-- A client puts a block, with the query of its URL. -/
def BlockStore.put {σ : Type} (client : BlockStore σ) (key : String) (query : List UInt8)
    (data : Bytes) (container : σ) : Except AzureError σ :=
  match blockIdOf query with
  | some id => client.putBlock key id data container
  | none => .error (.other "MissingRequiredQueryParameter")

/-- A block that is put is found under its id, in place of one that was.  The library writes the
ids of a list in Base64; the list is committed as the blob only if there are blocks under all of
these, and other blocks of the blob are dropped.  Other blobs are left alone. -/
structure BlockStore.Lawful {σ : Type} (client : BlockStore σ) (objects : σ → Objects)
    (blocks : σ → String → String → Option Bytes) : Prop where
  put : ∀ {key id data container container'},
    client.putBlock key id data container = .ok container' →
      objects container' = objects container ∧
        (∀ k ≠ key, blocks container' k = blocks container k) ∧
        blocks container' key = Function.update (blocks container key) id (some data)
  commit : ∀ {key ids container container'},
    client.commitBlockList key ids container = .ok container' →
      (∀ id ∈ ids, blocks container key (b64encode id) ≠ none) ∧
        objects container' key
          = some (ids.flatMap fun id => (blocks container key (b64encode id)).getD []) ∧
        blocks container' key = fun id =>
          if id ∈ ids.map b64encode then blocks container key id else none
  frame : ∀ {key ids container container'},
    client.commitBlockList key ids container = .ok container' → ∀ k ≠ key,
      objects container' k = objects container k ∧ blocks container' k = blocks container k

/-! ### The ids -/

/-- **Ids tell parts apart.** -/
theorem blockId_injective : Function.Injective blockId := by
  intro m n h
  have hbytes := Base64.encode_injective (String.ofList_injective h)
  exact Text.zeroPad_injective 8 (utf8_injective hbytes)

/-- A number is padded to eight digits, or more. -/
theorem zeroPad_eight (n : ℕ) : ∃ a b c digits, Text.zeroPad 8 n
    = String.ofList (a :: b :: c :: digits) ∧ a.isDigit ∧ b.isDigit ∧ c.isDigit := by
  have hdigit : ∀ c ∈ (Text.zeroPad 8 n).toList, c.isDigit := by
    intro c hc
    rw [Text.zeroPad, String.toList_ofList, Nat.toString_eq_repr, Nat.toList_repr] at hc
    rcases List.mem_append.mp hc with hc | hc
    · rw [(List.mem_replicate.mp hc).2]
      decide
    · exact Nat.isDigit_of_mem_toDigits (by decide) (by decide) hc
  have hlength : 8 ≤ (Text.zeroPad 8 n).toList.length := by
    rw [Text.zeroPad, String.toList_ofList, List.length_append, List.length_replicate]
    omega
  obtain ⟨a, b, c, digits, hchars⟩ : ∃ a b c digits,
      (Text.zeroPad 8 n).toList = a :: b :: c :: digits := by
    rcases hchars : (Text.zeroPad 8 n).toList with _ | ⟨a, _ | ⟨b, _ | ⟨c, digits⟩⟩⟩
    all_goals rw [hchars] at hlength
    · exact absurd hlength (by decide)
    · exact absurd hlength (by simp)
    · exact absurd hlength (by simp)
    · exact ⟨a, b, c, digits, rfl⟩
  rw [hchars] at hdigit
  refine ⟨a, b, c, digits, ?_, hdigit a (by simp), hdigit b (by simp), hdigit c (by simp)⟩
  rw [← hchars, String.ofList_toList]

/-- Characters of numbers such as those of a digit are letters. -/
theorem not_isDigit_digit : ∀ n < 15, 12 ≤ n → (Base64.digit n).isDigit = false := by decide

/-- **Written in Base64 again, the id of a part is that of none**: an id begins with a letter, and
the number in it with a digit. -/
theorem b64encode_ne_blockId (m n : ℕ) : b64encode (blockId m) ≠ blockId n := by
  intro h
  have hid : blockId m = Text.zeroPad 8 n :=
    utf8_injective (Base64.encode_injective (String.ofList_injective h))
  obtain ⟨a, b, c, digits, hm, ha, hb, hc⟩ := zeroPad_eight m
  obtain ⟨a', b', c', digits', hn, ha', -, -⟩ := zeroPad_eight n
  obtain ⟨x, hx, hlow, hhigh⟩ := utf8EncodeChar_of_isDigit ha
  obtain ⟨y, hy, -⟩ := utf8EncodeChar_of_isDigit hb
  obtain ⟨z, hz, -⟩ := utf8EncodeChar_of_isDigit hc
  have hbytes : utf8 (Text.zeroPad 8 m) = x :: y :: z :: digits.flatMap String.utf8EncodeChar := by
    rw [hm, utf8_ofList, List.flatMap_cons, List.flatMap_cons, List.flatMap_cons, hx, hy, hz]
    rfl
  rw [blockId, b64encode, hbytes, hn, Base64.encode] at hid
  have hfirst : Base64.digit (x.toNat / 4) = a' := (List.cons.inj (String.ofList_injective hid)).1
  have hletter := not_isDigit_digit (x.toNat / 4) (by omega) (by omega)
  rw [hfirst, ha'] at hletter
  cases hletter

/-- A block is put under the id of its part, if the token of the URL can be read. -/
theorem blockIdOf_partQuery {uploadId : String} (h : (parse (utf8 uploadId)).isSome) (n : ℕ) :
    blockIdOf (partQuery uploadId n) = some (blockId n) := by
  have hcomp : utf8 "comp=block&blockid="
      = quote.pair ("comp", "block") ++ amp :: (quote.encode "blockid" ++ [equals]) := by
    decide +kernel
  have hquery : partQuery uploadId n = quote.serialize [("comp", "block"), ("blockid", blockId n)]
      ++ amp :: utf8 uploadId := by
    simp only [partQuery, hcomp, Writer.serialize, List.map_cons, List.map_nil]
    simp [List.intercalate, Writer.pair]
  obtain ⟨params, hparams⟩ := Option.isSome_iff_exists.mp h
  rw [blockIdOf, hquery, parse_serialize_append, hparams]
  rfl

/-! ### Runs -/

/-- A request that has succeeded. -/
inductive BlockEvent where
  | put (key : String) (partNumber : ℕ) (data : Bytes)
  | complete (key : String) (parts : List (ℕ × String))

/-- The requests that succeed, of any uploads: clients put blocks with the URLs of their parts, and
uploads are completed. -/
inductive BlockRun {σ : Type} (client : BlockStore σ) : σ → List BlockEvent → σ → Prop
  | nil (container : σ) : BlockRun client container [] container
  | put {container next last : σ} {key uploadId : String} {n : ℕ} {data : Bytes}
      {events : List BlockEvent} (htoken : (parse (utf8 uploadId)).isSome)
      (hput : client.put key (partQuery uploadId n) data container = .ok next)
      (hrun : BlockRun client next events last) :
      BlockRun client container (.put key n data :: events) last
  | complete {container next last : σ} {key : String} {parts : List (ℕ × String)}
      {events : List BlockEvent}
      (hcomplete : completeMultipartUpload client key parts container = .ok next)
      (hrun : BlockRun client next events last) :
      BlockRun client container (.complete key parts :: events) last

/-- The bytes of a part, after a request. -/
def BlockEvent.latest (key : String) (n : ℕ) (bytes : Option Bytes) : BlockEvent → Option Bytes
  | .put k m data => if k = key ∧ m = n then some data else bytes
  | .complete k _ => if k = key then none else bytes

/-- Every block was put under the id of a part. -/
def OfParts (blocks : String → String → Option Bytes) : Prop :=
  ∀ key id, blocks key id ≠ none → ∃ n, id = blockId n

section Runs

variable {σ : Type} {client : BlockStore σ} {objects : σ → Objects}
  {blocks : σ → String → String → Option Bytes} {container container' : σ} {key : String}
  {events : List BlockEvent} {parts : List (ℕ × String)}

theorem commitBlockList_of_complete
    (h : completeMultipartUpload client key parts container = .ok container') :
    client.commitBlockList key ((Sql.orderBy Prod.fst parts).map fun part => blockId part.1)
      container = .ok container' := by
  unfold completeMultipartUpload at h
  simp only at h
  split at h
  · rename_i hcommit
    exact hcommit.trans (congrArg Except.ok (Except.ok.inj h))
  · cases h

/-- Only an upload of no parts is completed: a block of a part is not under the id that is asked
for. -/
theorem OfParts.eq_nil_of_complete (hparts : OfParts (blocks container))
    (hclient : client.Lawful objects blocks)
    (h : completeMultipartUpload client key parts container = .ok container') : parts = [] := by
  by_contra hne
  obtain ⟨part, hpart⟩ := List.exists_mem_of_ne_nil _ hne
  have hmem : blockId part.1 ∈ (Sql.orderBy Prod.fst parts).map fun part => blockId part.1 :=
    List.mem_map_of_mem ((Sql.perm_orderBy Prod.fst parts).mem_iff.mpr hpart)
  have hfound := (hclient.commit (commitBlockList_of_complete h)).1 _ hmem
  obtain ⟨n, hn⟩ := hparts key _ hfound
  exact b64encode_ne_blockId part.1 n hn

/-- What completing an upload does, then. -/
theorem OfParts.of_complete (hparts : OfParts (blocks container))
    (hclient : client.Lawful objects blocks)
    (h : completeMultipartUpload client key parts container = .ok container') :
    objects container' key = some [] ∧ blocks container' key = fun _ => none := by
  obtain rfl := hparts.eq_nil_of_complete hclient h
  obtain ⟨-, hobject, hblocks⟩ := hclient.commit (commitBlockList_of_complete h)
  exact ⟨hobject, hblocks.trans (funext fun id => if_neg List.not_mem_nil)⟩

/-- A block that is put is of a part. -/
theorem OfParts.put (hparts : OfParts (blocks container)) (hclient : client.Lawful objects blocks)
    {uploadId : String} {n : ℕ} {data : Bytes} (htoken : (parse (utf8 uploadId)).isSome)
    (h : client.put key (partQuery uploadId n) data container = .ok container') :
    OfParts (blocks container') := by
  rw [BlockStore.put, blockIdOf_partQuery htoken] at h
  obtain ⟨-, haway, hself⟩ := hclient.put h
  intro k id hid
  by_cases hk : k = key
  · subst hk
    rw [hself] at hid
    by_cases hsame : id = blockId n
    · exact ⟨n, hsame⟩
    · rw [Function.update_of_ne hsame] at hid
      exact hparts k id hid
  · rw [haway k hk] at hid
    exact hparts k id hid

/-- Completing an upload leaves no others. -/
theorem OfParts.complete (hparts : OfParts (blocks container))
    (hclient : client.Lawful objects blocks)
    (h : completeMultipartUpload client key parts container = .ok container') :
    OfParts (blocks container') := by
  intro k id hid
  by_cases hk : k = key
  · subst hk
    rw [(hparts.of_complete hclient h).2] at hid
    exact absurd rfl hid
  · rw [(hclient.frame (commitBlockList_of_complete h) k hk).2] at hid
    exact hparts k id hid

/-- **A run keeps that every block is of a part.** -/
theorem BlockRun.ofParts (hclient : client.Lawful objects blocks)
    (h : BlockRun client container events container') (hparts : OfParts (blocks container)) :
    OfParts (blocks container') := by
  induction h with
  | nil container => exact hparts
  | put htoken hput hrun ih => exact ih (hparts.put hclient htoken hput)
  | complete hcomplete hrun ih => exact ih (hparts.complete hclient hcomplete)

/-- The block of a part is the one put last. -/
theorem BlockRun.block_eq (hclient : client.Lawful objects blocks)
    (h : BlockRun client container events container') (hparts : OfParts (blocks container))
    (n : ℕ) : blocks container' key (blockId n)
      = events.foldl (BlockEvent.latest key n) (blocks container key (blockId n)) := by
  induction h with
  | nil container => rfl
  | @put container next last k uploadId m data events htoken hput hrun ih =>
    rw [ih (hparts.put hclient htoken hput), List.foldl_cons]
    refine congrArg (fun bytes => events.foldl _ bytes) ?_
    rw [BlockStore.put, blockIdOf_partQuery htoken] at hput
    obtain ⟨-, haway, hself⟩ := hclient.put hput
    show _ = if k = key ∧ m = n then _ else _
    by_cases hk : k = key
    · subst hk
      rw [hself]
      by_cases hm : m = n
      · rw [hm, Function.update_self, if_pos ⟨rfl, rfl⟩]
      · rw [Function.update_of_ne fun heq => hm (blockId_injective heq).symm,
          if_neg fun hboth => hm hboth.2]
    · rw [haway key (Ne.symm hk), if_neg fun hboth => hk hboth.1]
  | @complete container next last k parts events hcomplete hrun ih =>
    rw [ih (hparts.complete hclient hcomplete), List.foldl_cons]
    refine congrArg (fun bytes => events.foldl _ bytes) ?_
    show _ = if k = key then _ else _
    by_cases hk : k = key
    · subst hk
      rw [(hparts.of_complete hclient hcomplete).2, if_pos rfl]
    · rw [(hclient.frame (commitBlockList_of_complete hcomplete) key (Ne.symm hk)).2, if_neg hk]

/-- No byte of a part gets into a blob. -/
theorem BlockRun.blob_eq (hclient : client.Lawful objects blocks)
    (h : BlockRun client container events container') (hparts : OfParts (blocks container)) :
    objects container' key = objects container key ∨ objects container' key = some [] := by
  induction h with
  | nil container => exact .inl rfl
  | @put container next last k uploadId m data events htoken hput hrun ih =>
    have hnext := ih (hparts.put hclient htoken hput)
    rw [BlockStore.put, blockIdOf_partQuery htoken] at hput
    rwa [(hclient.put hput).1] at hnext
  | @complete container next last k parts events hcomplete hrun ih =>
    have hnext := ih (hparts.complete hclient hcomplete)
    by_cases hk : k = key
    · subst hk
      rw [(hparts.of_complete hclient hcomplete).1, or_self] at hnext
      exact .inr hnext
    · rwa [(hclient.frame (commitBlockList_of_complete hcomplete) key (Ne.symm hk)).1] at hnext

/-- The uploads a run completes have no parts. -/
theorem BlockRun.eq_nil (hclient : client.Lawful objects blocks)
    (h : BlockRun client container events container') (hparts : OfParts (blocks container))
    (hmem : .complete key parts ∈ events) : parts = [] := by
  induction h with
  | nil container => cases hmem
  | put htoken hput hrun ih =>
    rcases List.mem_cons.mp hmem with hsame | hmem
    · cases hsame
    · exact ih (hparts.put hclient htoken hput) hmem
  | complete hcomplete hrun ih =>
    rcases List.mem_cons.mp hmem with hsame | hmem
    · cases hsame
      exact hparts.eq_nil_of_complete hclient hcomplete
    · exact ih (hparts.complete hclient hcomplete) hmem

/-- **No list of parts is ever committed**, though each part that was put is there with the bytes
of its last request: the ids that the library writes are those of no block.  Blobs stay as they
are, or are emptied by an upload of no parts. -/
theorem azure_completion_refused (hclient : client.Lawful objects blocks)
    (hparts : OfParts (blocks container)) (hrun : BlockRun client container events container')
    (key : String) :
    (∀ parts, parts ≠ [] → completeMultipartUpload client key parts container'
      = .error (storageError ("Failed to complete multipart upload for '" ++ key ++ "'") [])) ∧
    (∀ parts, .complete key parts ∈ events → parts = []) ∧
    (∀ n, blocks container' key (blockId n)
      = events.foldl (BlockEvent.latest key n) (blocks container key (blockId n))) ∧
    (objects container' key = objects container key ∨ objects container' key = some []) := by
  refine ⟨fun parts hne => ?_, fun parts => hrun.eq_nil hclient hparts,
    hrun.block_eq hclient hparts, hrun.blob_eq hclient hparts⟩
  have hlater := hrun.ofParts hclient hparts
  rcases hcomplete : completeMultipartUpload client key parts container' with e | after
  · unfold completeMultipartUpload at hcomplete
    simp only at hcomplete
    split at hcomplete
    · cases hcomplete
    · exact hcomplete.symm
  · exact absurd (hlater.eq_nil_of_complete hclient hcomplete) hne

end Runs

/-! #### A container in memory -/

/-- Objects, and the blocks of their blobs. -/
structure MemoryContainer where
  objects : Objects := fun _ => none
  blocks : String → String → Option Bytes := fun _ _ => none

/-- A store that keeps them. -/
def memoryBlocks : BlockStore MemoryContainer where
  putBlock key id data container := .ok { container with
    blocks := Function.update container.blocks key
      (Function.update (container.blocks key) id (some data)) }
  commitBlockList key ids container :=
    if ids.all fun id => (container.blocks key (b64encode id)).isSome then .ok
      { objects := container.objects.put key
          (ids.flatMap fun id => (container.blocks key (b64encode id)).getD [])
        blocks := Function.update container.blocks key fun id =>
          if id ∈ ids.map b64encode then container.blocks key id else none }
    else .error (.other "InvalidBlockList")

theorem memoryBlocks_lawful :
    memoryBlocks.Lawful MemoryContainer.objects MemoryContainer.blocks where
  put h := by
    cases h
    exact ⟨rfl, fun k hk => Function.update_of_ne hk _ _, Function.update_self _ _ _⟩
  commit h := by
    unfold memoryBlocks at h
    simp only at h
    split at h
    · rename_i hall
      cases h
      refine ⟨fun id hid => ?_, Function.update_self _ _ _, Function.update_self _ _ _⟩
      exact Option.isSome_iff_ne_none.mp (List.all_eq_true.mp hall id hid)
    · cases h
  frame h := by
    unfold memoryBlocks at h
    simp only at h
    split at h
    · cases h
      exact fun k hk => ⟨Function.update_of_ne hk _ _, Function.update_of_ne hk _ _⟩
    · cases h

/-- The second part first, and the first one twice: both are there, and cannot be committed. -/
theorem azure_completion_refused_two : ∃ container : MemoryContainer,
    BlockRun memoryBlocks {} [.put "k" 2 [3], .put "k" 1 [9], .put "k" 1 [1, 2]] container ∧
      container.blocks "k" (blockId 1) = some [1, 2] ∧
      container.blocks "k" (blockId 2) = some [3] ∧
      completeMultipartUpload memoryBlocks "k" [(2, ""), (1, "")] container
        = .error (storageError "Failed to complete multipart upload for 'k'" []) := by
  have hput : ∀ (n : ℕ) (data : Bytes) (container : MemoryContainer), memoryBlocks.put "k"
      (partQuery "sig=1" n) data container
        = memoryBlocks.putBlock "k" (blockId n) data container := by
    intro n data container
    rw [BlockStore.put, blockIdOf_partQuery (by decide +kernel)]
  have hrun : BlockRun memoryBlocks {} [.put "k" 2 [3], .put "k" 1 [9], .put "k" 1 [1, 2]] _ :=
    .put (by decide +kernel) (hput 2 [3] _) (.put (by decide +kernel) (hput 1 [9] _)
      (.put (by decide +kernel) (hput 1 [1, 2] _) (.nil _)))
  obtain ⟨hrefused, -, hblocks, -⟩ := azure_completion_refused memoryBlocks_lawful
    (fun key id hid => absurd rfl hid) hrun "k"
  exact ⟨_, hrun, hblocks 1, hblocks 2, hrefused _ (List.cons_ne_nil _ _)⟩

end FileNest
