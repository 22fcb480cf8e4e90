import FileNest.Lib.Assembly
import FileNest.Lib.Sql
import FileNest.Uploads.Objects

/-!
# Multipart uploads on Google Cloud Storage

There a multipart upload is an object for each part, and completing it composes them.  No more
than 32 objects are composed at once, so the first 31 are composed into an intermediate object in
front of the rest as long as there are more.

## Main definitions

* `GcsBucket` — what google-cloud-storage does to a bucket.
* `GCSStorageProvider.completeRequests` — what `complete_multipart_upload` asks of it.
* `GcsBucket.Composes` — composing concatenates, and what is there can be deleted.
* `PartsRequested`, `PartsAssembled` — what is asked, and what becomes of the objects.

## Main results

* `collapse_folds` — the loop folds the part objects.
* `parts_assembled` — **the parts are put together in the order of their numbers.**
-/

namespace FileNest

open Assembly

/-- A request to the bucket. -/
abbrev BucketRequest := Assembly.Request String

/-- What google-cloud-storage raises. -/
inductive GcsError where
  | notFound
  | other (text : String)

/-- What google-cloud-storage does to a bucket. -/
structure GcsBucket (σ : Type) where
  compose (sources : List String) (dest : String) (bucket : σ) : Except GcsError σ
  delete (key : String) (bucket : σ) : Except GcsError σ

/-- A request of the provider: it deletes what is not there without complaint. -/
def GcsBucket.perform {σ : Type} (client : GcsBucket σ) (bucket : σ) :
    BucketRequest → Except GcsError σ
  | .compose sources dest => client.compose sources dest bucket
  | .delete key =>
      match client.delete key bucket with
      | .error .notFound => .ok bucket
      | result => result

namespace GCSStorageProvider

/-- `_part_key` -/
def partKey (key uploadId : String) (partNumber : ℕ) : String :=
  key ++ "/_mpparts/" ++ uploadId ++ "/" ++ Text.zeroPad 6 partNumber

/-- The key of an intermediate object, when so many have been made. -/
def tempKey (key uploadId : String) (made : ℕ) : String :=
  key ++ "/_mptemp/" ++ uploadId ++ "/" ++ Text.zeroPad 4 made

/-- Where the loop ends, and what it has asked for. -/
structure Collapsed where
  requests : List BucketRequest
  partKeys : List String
  tempKeys : List String

/-- The loop of `complete_multipart_upload`: batches of 31 are collapsed until at most 32 sources
are left. -/
def collapse (key uploadId : String) (partKeys tempKeys : List String) : Collapsed :=
  if _ : 32 < partKeys.length then
    let batch := partKeys.take 31
    let temp := tempKey key uploadId tempKeys.length
    let collapsed := collapse key uploadId (temp :: partKeys.drop 31) (tempKeys ++ [temp])
    { collapsed with requests := .compose batch temp :: collapsed.requests }
  else { requests := [], partKeys := partKeys, tempKeys := tempKeys }
termination_by partKeys.length
decreasing_by
  rw [List.length_cons, List.length_drop]
  omega

/-- What `complete_multipart_upload` asks of the bucket, for parts with number and ETag. -/
def completeRequests (key uploadId : String) (parts : List (ℕ × String)) :
    List BucketRequest :=
  let sortedParts := Sql.orderBy Prod.fst parts
  let allParts := sortedParts.map fun part => partKey key uploadId part.1
  let collapsed := collapse key uploadId allParts []
  collapsed.requests ++ .compose collapsed.partKeys key ::
    (allParts ++ collapsed.tempKeys).map .delete

/-- `complete_multipart_upload` -/
def completeMultipartUpload {σ : Type} (client : GcsBucket σ) (key uploadId : String)
    (parts : List (ℕ × String)) (bucket : σ) : Except ApiError σ :=
  match (completeRequests key uploadId parts).foldlM client.perform bucket with
  | .ok bucket => .ok bucket
  | .error _ => .error (storageError ("Failed to complete multipart upload for '" ++ key ++ "'") [])

end GCSStorageProvider

/-- Composing objects concatenates them, if there are at most 32, and what is there can be
deleted. -/
structure GcsBucket.Composes {σ : Type} (client : GcsBucket σ) (objects : σ → Objects) : Prop where
  compose : ∀ bucket sources dest,
    (.compose sources dest : BucketRequest).Accepted 32 (objects bucket) →
      ∃ bucket', client.compose sources dest bucket = .ok bucket' ∧
        objects bucket' = (objects bucket).put dest (joined (objects bucket) sources)
  delete : ∀ bucket key, (objects bucket key).isSome →
      ∃ bucket', client.delete key bucket = .ok bucket' ∧
        objects bucket' = Function.update (objects bucket) key none

open GCSStorageProvider

/-- What is asked to complete an upload: never more than 32 sources, with intermediate objects at
keys of their own, and the object is left. -/
structure PartsRequested (key uploadId : String) (parts : List (ℕ × String))
    (temps : List String) (requests : List BucketRequest) : Prop where
  limit : ∀ sources dest, .compose sources dest ∈ requests → sources ≠ [] ∧ sources.length ≤ 32
  dests : requests.filterMap Assembly.Request.dest = temps ++ [key]
  temps_length : 30 * temps.length ≤ parts.length
  nodup : (temps ++ [key]).Nodup
  temps_ne : ∀ temp ∈ temps, ∀ n, temp ≠ partKey key uploadId n
  kept : .delete key ∉ requests

/-- The parts are one object, and nothing else is left of them. -/
structure PartsAssembled (key uploadId : String) (parts : List (ℕ × String)) (temps : List String)
    (bytes : ℕ → Bytes) (before after : Objects) : Prop where
  assembled : ∃ numbers : List ℕ, numbers.Pairwise (· < ·) ∧ numbers.Perm (parts.map Prod.fst) ∧
    after key = some (numbers.flatMap bytes)
  parts_deleted : ∀ part ∈ parts, after (partKey key uploadId part.1) = none
  temps_deleted : ∀ temp ∈ temps, after temp = none
  frame : ∀ k, k ≠ key → (∀ part ∈ parts, k ≠ partKey key uploadId part.1) → k ∉ temps →
    after k = before k

/-! ### The keys -/

section Keys

variable {key uploadId : String}

theorem partKey_injective : Function.Injective (partKey key uploadId) := by
  intro m n h
  unfold partKey at h
  exact Text.zeroPad_injective 6 ((String.append_right_inj _).mp h)

theorem tempKey_injective : Function.Injective (tempKey key uploadId) := by
  intro m n h
  unfold tempKey at h
  exact Text.zeroPad_injective 4 ((String.append_right_inj _).mp h)

/-- Parts and intermediate objects are in different folders. -/
theorem tempKey_ne_partKey (i n : ℕ) : tempKey key uploadId i ≠ partKey key uploadId n := by
  intro h
  have hchars := congrArg String.toList h
  simp only [tempKey, partKey, String.toList_append, List.append_assoc] at hchars
  have hfolders := List.append_cancel_left hchars
  simp at hfolders

theorem ne_append_of_ne {suffix : String} (h : suffix ≠ "") : key ≠ key ++ suffix := by
  intro heq
  have hchars := congrArg String.toList heq
  rw [String.toList_append, List.self_eq_append_right] at hchars
  exact h (String.toList_injective hchars)

theorem key_ne_partKey (n : ℕ) : key ≠ partKey key uploadId n := by
  unfold partKey
  rw [String.append_assoc, String.append_assoc, String.append_assoc]
  refine ne_append_of_ne fun h => ?_
  have hchars := congrArg String.toList h
  simp [String.toList_append] at hchars

theorem key_ne_tempKey (i : ℕ) : key ≠ tempKey key uploadId i := by
  unfold tempKey
  rw [String.append_assoc, String.append_assoc, String.append_assoc]
  refine ne_append_of_ne fun h => ?_
  have hchars := congrArg String.toList h
  simp [String.toList_append] at hchars

end Keys

/-! ### The loop -/

section Loop

variable {key uploadId : String}

/-- The loop folds what it has, 30 fewer each time while there are more than 32, with intermediate
objects that are new. -/
theorem collapse_folds {partKeys tempKeys : List String}
    (hknown : ∀ k ∈ partKeys, (∃ n, k = partKey key uploadId n) ∨
      ∃ i < tempKeys.length, k = tempKey key uploadId i) (hne : partKeys ≠ []) :
    ∃ made, (collapse key uploadId partKeys tempKeys).tempKeys = tempKeys ++
        (List.range' tempKeys.length made).map (tempKey key uploadId) ∧
      made = (partKeys.length - 3) / 30 ∧
      (collapse key uploadId partKeys tempKeys).partKeys ≠ [] ∧
      (collapse key uploadId partKeys tempKeys).partKeys.length ≤ 32 ∧
      Folds 32 partKeys (collapse key uploadId partKeys tempKeys).requests
        ((List.range' tempKeys.length made).map (tempKey key uploadId))
        (collapse key uploadId partKeys tempKeys).partKeys := by
  fun_induction collapse key uploadId partKeys tempKeys with
  | case1 partKeys tempKeys hlong batch temp collapsed ih =>
    have hrest : ∀ k ∈ temp :: partKeys.drop 31, (∃ n, k = partKey key uploadId n) ∨
        ∃ i < (tempKeys ++ [temp]).length, k = tempKey key uploadId i := by
      intro k hk
      rw [List.length_append, List.length_singleton]
      rcases List.mem_cons.mp hk with rfl | hk
      · exact .inr ⟨tempKeys.length, Nat.lt_succ_self _, rfl⟩
      · refine (hknown k (List.mem_of_mem_drop hk)).imp_right ?_
        rintro ⟨i, hi, heq⟩
        exact ⟨i, by omega, heq⟩
    obtain ⟨made, htemps, hmade, hleft, hlength, hfolds⟩ := ih hrest (List.cons_ne_nil _ _)
    rw [List.length_append, List.length_singleton] at htemps hfolds
    rw [List.length_cons, List.length_drop] at hmade
    have hrange : (List.range' tempKeys.length (made + 1)).map (tempKey key uploadId)
        = temp :: (List.range' (tempKeys.length + 1) made).map (tempKey key uploadId) := by
      rw [List.range'_succ, List.map_cons]
    refine ⟨made + 1, ?_, by omega, hleft, hlength, ?_⟩
    · rw [hrange]
      exact htemps.trans (List.append_assoc _ _ _)
    · -- the intermediate object is none of the sources behind it
      have hfresh : temp ∉ partKeys.drop 31 := by
        intro hk
        rcases hknown temp (List.mem_of_mem_drop hk) with ⟨n, heq⟩ | ⟨i, hi, heq⟩
        · exact tempKey_ne_partKey _ _ heq
        · exact absurd (tempKey_injective heq) (Nat.ne_of_gt hi)
      have hbatch : batch.length = 31 := by
        rw [List.length_take]
        omega
      have hbatchNe : batch ≠ [] := List.ne_nil_of_length_pos (by omega)
      have hfold := Folds.fold hbatchNe (by omega) hfresh hfolds
      rw [List.take_append_drop] at hfold
      rw [hrange]
      exact hfold
  | case2 partKeys tempKeys hshort =>
    exact ⟨0, (List.append_nil _).symm, by omega, hne, Nat.le_of_not_lt hshort, .done⟩

end Loop

/-! ### The bucket -/

section Bucket

variable {σ : Type} {client : GcsBucket σ} {objects : σ → Objects}

theorem GcsBucket.Composes.perform (h : client.Composes objects) {bucket : σ} {r : BucketRequest}
    (hr : r.Accepted 32 (objects bucket)) : ∃ bucket', client.perform bucket r = .ok bucket' ∧
      objects bucket' = r.apply (objects bucket) := by
  cases r with
  | compose sources dest => exact h.compose bucket sources dest hr
  | delete key =>
    obtain ⟨bucket', hdelete, hobjects⟩ := h.delete bucket key hr
    refine ⟨bucket', ?_, hobjects⟩
    simp only [GcsBucket.perform, hdelete]

/-- A bucket that accepts all requests does what is asked. -/
theorem GcsBucket.Composes.foldlM (h : client.Composes objects) {requests : List BucketRequest}
    {bucket : σ} (hrequests : Accepted 32 requests (objects bucket)) :
    ∃ bucket', requests.foldlM client.perform bucket = .ok bucket' ∧
      objects bucket' = run requests (objects bucket) := by
  induction requests generalizing bucket with
  | nil => exact ⟨bucket, rfl, rfl⟩
  | cons r requests ih =>
    obtain ⟨hr, hrequests⟩ := hrequests
    obtain ⟨next, hperform, hobjects⟩ := h.perform hr
    rw [← hobjects] at hrequests
    obtain ⟨bucket', hrest, hafter⟩ := ih hrequests
    refine ⟨bucket', ?_, ?_⟩
    · rw [List.foldlM_cons, hperform]
      exact hrest
    · rw [hafter, hobjects, run_cons]

end Bucket

/-! ### Completing -/

section Complete

variable {key uploadId : String} {parts : List (ℕ × String)}

/-- The numbers of the parts, in order. -/
def sortedNumbers (parts : List (ℕ × String)) : List ℕ := (Sql.orderBy Prod.fst parts).map Prod.fst

theorem perm_sortedNumbers : (sortedNumbers parts).Perm (parts.map Prod.fst) :=
  (Sql.perm_orderBy Prod.fst parts).map Prod.fst

theorem sorted_sortedNumbers (hdistinct : (parts.map Prod.fst).Nodup) :
    (sortedNumbers parts).Pairwise (· < ·) := by
  have hle : (sortedNumbers parts).Pairwise (· ≤ ·) :=
    List.pairwise_map.mpr (Sql.sorted_orderBy Prod.fst parts)
  have hne : (sortedNumbers parts).Nodup := perm_sortedNumbers.nodup_iff.mpr hdistinct
  exact hle.imp₂ (fun m n hle hne => lt_of_le_of_ne hle hne) hne

theorem joined_partKeys {objects : Objects} {bytes : ℕ → Bytes} {numbers : List ℕ}
    (h : ∀ n ∈ numbers, objects (partKey key uploadId n) = some (bytes n)) :
    joined objects (numbers.map (partKey key uploadId)) = numbers.flatMap bytes := by
  induction numbers with
  | nil => rfl
  | cons n numbers ih =>
    rw [List.map_cons, joined_cons, h n List.mem_cons_self,
      ih fun n hn => h n (List.mem_cons_of_mem _ hn), List.flatMap_cons]
    rfl

/-- What is asked is an assembly of the part objects. -/
theorem completeRequests_folds (key uploadId : String) (hne : parts ≠ []) :
    ∃ made left requests, made = (parts.length - 3) / 30 ∧ left ≠ [] ∧ left.length ≤ 32 ∧
      Folds 32 ((sortedNumbers parts).map (partKey key uploadId)) requests
        ((List.range' 0 made).map (tempKey key uploadId)) left ∧
      completeRequests key uploadId parts
        = assembly requests left key ((sortedNumbers parts).map (partKey key uploadId))
            ((List.range' 0 made).map (tempKey key uploadId)) := by
  have hkeys : (Sql.orderBy Prod.fst parts).map (fun part => partKey key uploadId part.1)
      = (sortedNumbers parts).map (partKey key uploadId) := by
    rw [sortedNumbers, List.map_map]
    rfl
  have hlength : (sortedNumbers parts).length = parts.length := by
    rw [perm_sortedNumbers.length_eq, List.length_map]
  have hsources : (sortedNumbers parts).map (partKey key uploadId) ≠ [] := by
    intro h
    rw [List.map_eq_nil_iff, ← List.length_eq_zero_iff, hlength, List.length_eq_zero_iff] at h
    exact hne h
  have hknown : ∀ k ∈ (sortedNumbers parts).map (partKey key uploadId),
      (∃ n, k = partKey key uploadId n) ∨
        ∃ i < ([] : List String).length, k = tempKey key uploadId i := by
    intro k hk
    obtain ⟨n, -, rfl⟩ := List.mem_map.mp hk
    exact .inl ⟨n, rfl⟩
  obtain ⟨made, htemps, hmade, hleft, hlimit, hfolds⟩ := collapse_folds hknown hsources
  rw [List.length_map, hlength] at hmade
  refine ⟨made, _, _, hmade, hleft, hlimit, hfolds, ?_⟩
  simp only [completeRequests, assembly, hkeys, htemps, List.nil_append, List.length_nil]

theorem nodup_sources_temps (key uploadId : String) (hdistinct : (parts.map Prod.fst).Nodup)
    (made : ℕ) :
    ((sortedNumbers parts).map (partKey key uploadId)
      ++ (List.range' 0 made).map (tempKey key uploadId)).Nodup := by
  refine List.nodup_append'.mpr ⟨?_, ?_, ?_⟩
  · exact (perm_sortedNumbers.nodup_iff.mpr hdistinct).map partKey_injective
  · exact (List.nodup_range' 1).map tempKey_injective
  · intro k hpart htemp
    obtain ⟨n, -, rfl⟩ := List.mem_map.mp hpart
    obtain ⟨i, -, heq⟩ := List.mem_map.mp htemp
    exact tempKey_ne_partKey i n heq

theorem key_notMem_sources_temps (key uploadId : String) (numbers : List ℕ) (made : ℕ) :
    key ∉ numbers.map (partKey key uploadId)
      ++ (List.range' 0 made).map (tempKey key uploadId) := by
  intro h
  rcases List.mem_append.mp h with h | h
  · obtain ⟨n, -, heq⟩ := List.mem_map.mp h
    exact key_ne_partKey n heq.symm
  · obtain ⟨i, -, heq⟩ := List.mem_map.mp h
    exact key_ne_tempKey i heq.symm

/-- What is asked keeps to the limit and to keys of its own. -/
theorem partsRequested_assembly {made : ℕ} {left : List String} {requests : List BucketRequest}
    (hdistinct : (parts.map Prod.fst).Nodup) (hmade : 30 * made ≤ parts.length) (hleft : left ≠ [])
    (hlimit : left.length ≤ 32)
    (hfolds : Folds 32 ((sortedNumbers parts).map (partKey key uploadId)) requests
      ((List.range' 0 made).map (tempKey key uploadId)) left) :
    PartsRequested key uploadId parts ((List.range' 0 made).map (tempKey key uploadId))
      (assembly requests left key ((sortedNumbers parts).map (partKey key uploadId))
        ((List.range' 0 made).map (tempKey key uploadId))) where
  limit := fun _ _ hr => hfolds.limit_assembly hleft hlimit hr
  dests := hfolds.filterMap_dest_assembly key
  temps_length := by
    rw [List.length_map, List.length_range']
    exact hmade
  nodup := by
    have htemps := (List.nodup_append'.mp (nodup_sources_temps key uploadId hdistinct made)).2.1
    refine List.nodup_append'.mpr ⟨htemps, List.nodup_singleton key, ?_⟩
    rw [List.disjoint_singleton]
    intro h
    exact key_notMem_sources_temps key uploadId (sortedNumbers parts) made
      (List.mem_append_right _ h)
  temps_ne := by
    intro temp htemp n
    obtain ⟨i, -, rfl⟩ := List.mem_map.mp htemp
    exact tempKey_ne_partKey i n
  kept := by
    intro h
    exact key_notMem_sources_temps key uploadId (sortedNumbers parts) made
      (hfolds.delete_assembly h)

/-- What is left of the parts. -/
theorem partsAssembled_of_run {temps : List String} {bytes : ℕ → Bytes} {before after : Objects}
    (hdistinct : (parts.map Prod.fst).Nodup)
    (hkey : key ∉ (sortedNumbers parts).map (partKey key uploadId) ++ temps)
    (hafter : ∀ k, after k = if k = key then some ((sortedNumbers parts).flatMap bytes)
      else if k ∈ (sortedNumbers parts).map (partKey key uploadId) ++ temps then none
      else before k) :
    PartsAssembled key uploadId parts temps bytes before after where
  assembled := by
    refine ⟨sortedNumbers parts, sorted_sortedNumbers hdistinct, perm_sortedNumbers, ?_⟩
    rw [hafter, if_pos rfl]
  parts_deleted := by
    intro part hpart
    have hnumber := perm_sortedNumbers.mem_iff.mpr (List.mem_map_of_mem hpart)
    rw [hafter, if_neg (key_ne_partKey _).symm,
      if_pos (List.mem_append_left _ (List.mem_map_of_mem hnumber))]
  temps_deleted := by
    intro temp htemp
    have hne : temp ≠ key := fun h => hkey (List.mem_append_right _ (h ▸ htemp))
    rw [hafter, if_neg hne, if_pos (List.mem_append_right _ htemp)]
  frame := by
    intro k hk hparts htemps
    rw [hafter, if_neg hk, if_neg]
    intro h
    rcases List.mem_append.mp h with h | h
    · obtain ⟨n, hn, rfl⟩ := List.mem_map.mp h
      obtain ⟨part, hp, rfl⟩ := List.mem_map.mp (perm_sortedNumbers.mem_iff.mp hn)
      exact hparts part hp rfl
    · exact htemps h

/-- **The parts are put together in the order of their numbers**, each once, however many there
are; nothing else is left of them, and nothing else is touched. -/
theorem parts_assembled {σ : Type} {client : GcsBucket σ} {objects : σ → Objects}
    (hclient : client.Composes objects) {bucket : σ} {bytes : ℕ → Bytes} (hne : parts ≠ [])
    (hdistinct : (parts.map Prod.fst).Nodup)
    (hstored : ∀ part ∈ parts,
      objects bucket (partKey key uploadId part.1) = some (bytes part.1)) :
    ∃ temps, PartsRequested key uploadId parts temps (completeRequests key uploadId parts) ∧
      ∃ bucket', completeMultipartUpload client key uploadId parts bucket = .ok bucket' ∧
        PartsAssembled key uploadId parts temps bytes (objects bucket) (objects bucket') := by
  obtain ⟨made, left, requests, hmade, hleft, hlimit, hfolds, hrequests⟩ :=
    completeRequests_folds key uploadId hne
  have hnumbers : ∀ n ∈ sortedNumbers parts,
      objects bucket (partKey key uploadId n) = some (bytes n) := by
    intro n hn
    obtain ⟨part, hpart, rfl⟩ := List.mem_map.mp (perm_sortedNumbers.mem_iff.mp hn)
    exact hstored part hpart
  have hthere : ∀ k ∈ (sortedNumbers parts).map (partKey key uploadId),
      (objects bucket k).isSome := by
    intro k hk
    obtain ⟨n, hn, rfl⟩ := List.mem_map.mp hk
    rw [hnumbers n hn]
    rfl
  have hkey := key_notMem_sources_temps key uploadId (sortedNumbers parts) made
  have haccepted := hfolds.accepted_assembly hthere hleft hlimit
    (nodup_sources_temps key uploadId hdistinct made) key
  obtain ⟨bucket', hperform, hafter⟩ := hclient.foldlM haccepted
  refine ⟨(List.range' 0 made).map (tempKey key uploadId), ?_, bucket', ?_, ?_⟩
  · rw [hrequests]
    exact partsRequested_assembly hdistinct (by omega) hleft hlimit hfolds
  · rw [completeMultipartUpload, hrequests, hperform]
  · refine partsAssembled_of_run hdistinct hkey fun k => ?_
    rw [hafter, hfolds.run_assembly hkey, joined_partKeys hnumbers]

end Complete

/-- A bucket in memory. -/
def memoryBucket : GcsBucket Objects where
  compose sources dest objects :=
    if sources = [] ∨ 32 < sources.length then .error (.other "invalid number of sources")
    else if sources.all fun k => (objects k).isSome then
      .ok (objects.put dest (joined objects sources))
    else .error .notFound
  delete key objects :=
    if (objects key).isSome then .ok (Function.update objects key none) else .error .notFound

theorem memoryBucket_composes : memoryBucket.Composes id := by
  refine ⟨fun objects sources dest h => ?_, fun objects key h => ?_⟩
  · obtain ⟨hne, hlimit, hthere⟩ := h
    have hall : (sources.all fun k => (objects k).isSome) = true := List.all_eq_true.mpr hthere
    refine ⟨_, ?_, rfl⟩
    show (if sources = [] ∨ 32 < sources.length then _ else _) = _
    rw [if_neg (not_or.mpr ⟨hne, Nat.not_lt.mpr hlimit⟩), if_pos hall]
    rfl
  · exact ⟨_, if_pos h, rfl⟩

/-- Every object holds its name. -/
def namedObjects : Objects := fun key => some (key.toList.map fun c => c.toNat.toUInt8)

/-- Forty parts, the last one first. -/
def fortyParts : List (ℕ × String) := (List.range 40).map fun n => (40 - n, "etag")

theorem parts_assembled_forty :
    ∃ temps, PartsRequested "f" "u" fortyParts temps (completeRequests "f" "u" fortyParts) ∧
      ∃ after, completeMultipartUpload memoryBucket "f" "u" fortyParts namedObjects = .ok after ∧
        PartsAssembled "f" "u" fortyParts temps
          (fun n => (partKey "f" "u" n).toList.map fun c => c.toNat.toUInt8) namedObjects after :=
  parts_assembled memoryBucket_composes (by decide) (by decide) fun _ _ => rfl

end FileNest
