import FileNest.Lib.Trace
import FileNest.Storage.GcsCompletion

/-!
# Aborting an upload on Google Cloud Storage

An abort deletes what is in the folder of the parts.  The intermediate objects of a completion
are in another one.

## Main definitions

* `PartEvent`, `partStep` — parts that are put, and completions with a fault.
* `AbortsClean` — an abort leaves nothing behind.
* `PartEvent.Clean` — a completion that leaves no intermediate object.

## Main results

* `abort_spec` — **an abort deletes the parts, and no intermediate object.**
* `abortsClean_throughout` — **no intermediate object is left by a completion that fails.**
* `abort_leaves_intermediate` — the second compose of 33 parts raises.
-/

namespace FileNest

open Assembly GCSStorageProvider Trace

/-- What happens to an upload: a part is put through its URL, or a completion is tried. -/
inductive PartEvent where
  | partUploaded (partNumber : ℕ) (bytes : Bytes)
  | completed (parts : List (ℕ × String)) (fault : Fault)

section Statements

variable {σ : Type} (client : GcsClient σ) (objects : σ → Objects) (key uploadId : String)

/-- An abort succeeds, and leaves no part and no intermediate object. -/
def AbortsClean (bucket : σ) : Prop :=
  (client.abortMultipartUpload key uploadId bucket).1 = .ok () ∧
    (∀ n, objects (client.abortMultipartUpload key uploadId bucket).2 (partKey key uploadId n)
      = none) ∧
    ∀ i, objects (client.abortMultipartUpload key uploadId bucket).2 (tempKey key uploadId i) = none

/-- The bucket after an event. -/
def partStep (bucket : σ) : PartEvent → σ
  | .partUploaded partNumber bytes => client.put (partKey key uploadId partNumber) bytes bucket
  | .completed parts fault =>
      ((client.raising fault).completeMultipartUpload key uploadId parts (bucket, 0)).2.1

/-- The completion raises. -/
def PartEvent.Fails (bucket : σ) : PartEvent → Prop
  | .partUploaded _ _ => True
  | .completed parts fault =>
      ((client.raising fault).completeMultipartUpload key uploadId parts (bucket, 0)).1 ≠ .ok ()

/-- No intermediate object is needed, or the first one is not made; or they are all deleted, and
it is the answer that is lost. -/
def PartEvent.Clean (bucket : σ) : PartEvent → Prop
  | .partUploaded _ _ => True
  | .completed parts fault => parts.length ≤ 32 ∨ (fault.call = 0 ∧ fault.landed = false) ∨
      (∃ k ∈ (orderedPartKeys key uploadId parts).take 31, objects bucket k = none) ∨
      ((∀ part ∈ parts, (objects bucket (partKey key uploadId part.1)).isSome) ∧
        fault.landed = true ∧
        fault.call + 1 = compositions parts.length + parts.length + (compositions parts.length - 1))

end Statements

section Abort

variable {σ : Type} {client : GcsClient σ} {objects : σ → Objects} {bucket : σ} {fault : Fault}
  {key uploadId : String} {parts : List (ℕ × String)}

theorem startsWith_partKey (n : ℕ) :
    Text.startsWith (partKey key uploadId n) (partsFolder key uploadId) = true := by
  rw [Text.startsWith, List.isPrefixOf_iff_prefix]
  show (partsFolder key uploadId).toList <+: (partsFolder key uploadId ++ Text.zeroPad 6 n).toList
  rw [String.toList_append]
  exact List.prefix_append _ _

/-- Intermediate objects are in another folder. -/
theorem not_startsWith_tempKey (i : ℕ) :
    ¬ Text.startsWith (tempKey key uploadId i) (partsFolder key uploadId) = true := by
  rw [Text.startsWith, List.isPrefixOf_iff_prefix]
  rintro ⟨rest, h⟩
  simp only [tempKey, partsFolder, String.toList_append, List.append_assoc] at h
  have hfolders := List.append_cancel_left h
  simp at hfolders

/-- **An abort deletes what is in the folder of the parts**, and no intermediate object. -/
theorem abort_spec (hclient : client.Faithful objects) (key uploadId : String) (bucket : σ) :
    (client.abortMultipartUpload key uploadId bucket).1 = .ok () ∧
      (∀ n, objects (client.abortMultipartUpload key uploadId bucket).2 (partKey key uploadId n)
        = none) ∧
      ∀ i, objects (client.abortMultipartUpload key uploadId bucket).2 (tempKey key uploadId i)
        = objects bucket (tempKey key uploadId i) := by
  obtain ⟨blobs, hlist, hblobs⟩ := hclient.listed bucket (partsFolder key uploadId)
  have hallowed : Allowed 32 (blobs.map .delete) (objects bucket) := allowed_delete blobs
  obtain ⟨hok, hobjects⟩ := hclient.attempt hallowed
  have habort : (client.abortMultipartUpload key uploadId bucket).1 = .ok () ∧
      (client.abortMultipartUpload key uploadId bucket).2
        = (client.attempt (blobs.map .delete) bucket).2 := by
    simp only [GcsClient.abortMultipartUpload, hlist]
    rcases hattempt : client.attempt (blobs.map .delete) bucket with ⟨_ | _, bucket'⟩
    · rw [hattempt] at hok
      cases hok
    · exact ⟨rfl, rfl⟩
  have hafter (k : String) : objects (client.abortMultipartUpload key uploadId bucket).2 k
      = if k ∈ blobs then none else objects bucket k := by
    rw [habort.2, hobjects, run_delete]
  refine ⟨habort.1, fun n => ?_, fun i => ?_⟩
  · rw [hafter]
    by_cases hn : partKey key uploadId n ∈ blobs
    · rw [if_pos hn]
    · rw [if_neg hn, ← Option.not_isSome_iff_eq_none]
      exact fun hsome => hn ((hblobs _).mpr ⟨startsWith_partKey n, hsome⟩)
  · rw [hafter, if_neg]
    intro h
    exact not_startsWith_tempKey i ((hblobs _).mp h).1

theorem abortsClean_iff (hclient : client.Faithful objects) :
    AbortsClean client objects key uploadId bucket ↔
      ∀ i, objects bucket (tempKey key uploadId i) = none := by
  obtain ⟨hok, hparts, htemps⟩ := abort_spec hclient key uploadId bucket
  constructor
  · rintro ⟨-, -, h⟩ i
    rw [← htemps]
    exact h i
  · intro h
    exact ⟨hok, hparts, fun i => (htemps i).trans (h i)⟩

/-- Without intermediate objects a completion touches the object and its parts. -/
theorem touches_completeRequests_ne (hshort : parts.length ≤ 32) (i : ℕ) :
    ∀ r ∈ completeRequests key uploadId parts, r.touches ≠ tempKey key uploadId i := by
  by_cases hne : parts = []
  · subst hne
    rw [completeRequests_nil, List.forall_mem_singleton]
    exact key_ne_tempKey i
  · obtain ⟨composes, hplan⟩ := exists_completionPlan key uploadId hne
    have hnone : temporaryKeys key uploadId parts = [] := by
      rw [← List.length_eq_zero_iff, length_temporaryKeys, compositions]
      omega
    rw [hplan.requests, hnone, List.append_nil, List.forall_mem_append]
    constructor
    · intro r hr
      obtain ⟨sources, dest, rfl, hdest⟩ := hplan.makes r hr
      rw [hnone] at hdest
      rw [show dest = key from hdest.resolve_right List.not_mem_nil]
      exact key_ne_tempKey i
    · refine touches_delete_ne fun h => ?_
      obtain ⟨n, -, heq⟩ := List.mem_map.mp h
      exact tempKey_ne_partKey i n heq.symm

/-- What is not composed leaves nothing behind. -/
theorem attempt_compose_refused (hclient : client.Faithful objects) {sources : List String}
    {dest : String} {requests : List BucketRequest} {n : ℕ}
    (h : (fault.call = n ∧ fault.landed = false) ∨ ∃ k ∈ sources, objects bucket k = none) :
    objects ((client.raising fault).attempt (.compose sources dest :: requests) (bucket, n)).2.1
      = objects bucket := by
  have hmissing (hk : ∃ k ∈ sources, objects bucket k = none) :
      ¬ (.compose sources dest : BucketRequest).Allowed 32 (objects bucket) := by
    rintro ⟨-, -, hall⟩
    obtain ⟨k, hk, hnone⟩ := hk
    have hsome := hall k hk
    rw [hnone] at hsome
    cases hsome
  by_cases hcall : fault.call = n
  · subst hcall
    have hself := raising_request_self client fault (.compose sources dest) bucket
    rw [attempt_cons_error (e := fault.error) (by rw [hself]; rfl), hself]
    show objects (if fault.landed then _ else _) = _
    cases hlanded : fault.landed with
    | false => rfl
    | true =>
      rcases h with ⟨-, hfalse⟩ | hk
      · rw [hfalse] at hlanded
        cases hlanded
      · exact (hclient.request_refused (hmissing hk)).2
  · rcases h with ⟨hself, -⟩ | hk
    · exact absurd hself hcall
    · obtain ⟨⟨e, hanswer⟩, hobjects⟩ := hclient.request_refused (hmissing hk)
      have hother := raising_request_of_ne client (.compose sources dest) bucket (Ne.symm hcall)
      rw [attempt_cons_error (e := e) (by rw [hother]; exact hanswer), hother]
      exact hobjects

/-- The last delete may raise when it is done. -/
theorem tempKey_eq_none_of_last (hclient : client.Faithful objects) (hne : parts ≠ [])
    (hfresh : ∀ i, objects bucket (tempKey key uploadId i) = none)
    (hstored : ∀ k ∈ orderedPartKeys key uploadId parts, (objects bucket k).isSome)
    (herror : fault.error ≠ .notFound) (hlanded : fault.landed = true)
    (hlast : fault.call + 1
      = compositions parts.length + parts.length + (compositions parts.length - 1)) (i : ℕ) :
    objects ((client.raising fault).attempt (completeRequests key uploadId parts)
      (bucket, 0)).2.1 (tempKey key uploadId i) = none := by
  obtain ⟨composes, hplan⟩ := exists_completionPlan key uploadId hne
  have hpos := List.length_pos_of_ne_nil hne
  have hlength := length_deleted key uploadId parts
  have hcall : compositions parts.length ≤ fault.call := by omega
  obtain ⟨bucket', hframe, -, hattempt⟩ := complete_raising_of_le hclient hplan hstored hcall
  obtain ⟨-, hobjects⟩ := @attempt_deletes_raises _ _ _ bucket' _ _ hclient
    (orderedPartKeys key uploadId parts ++ temporaryKeys key uploadId parts) hcall (by omega) herror
  rw [hattempt, hobjects, hlanded, List.take_of_length_le (by
    rw [hlength]
    show _ ≤ _ + 1
    omega), run_delete]
  by_cases htemp : tempKey key uploadId i ∈ temporaryKeys key uploadId parts
  · exact if_pos (List.mem_append_right _ htemp)
  · have hkept : objects bucket' (tempKey key uploadId i) = none := by
      rw [hframe, hfresh]
      intro r hr
      obtain ⟨sources, dest, rfl, hdest⟩ := hplan.makes r hr
      rintro heq
      rcases hdest with hdest | hdest
      · exact key_ne_tempKey i (hdest.symm.trans heq)
      · exact htemp (heq ▸ hdest)
    rw [hkept, ite_self]

/-- A completion that is clean makes no intermediate object, or deletes them all. -/
theorem tempKey_eq_none_of_clean (hclient : client.Faithful objects) {e : PartEvent}
    (hfresh : ∀ i, objects bucket (tempKey key uploadId i) = none)
    (hfails : e.Fails client key uploadId bucket) (hclean : e.Clean objects key uploadId bucket) :
    ∀ i, objects (partStep client key uploadId bucket e) (tempKey key uploadId i) = none := by
  intro i
  cases e with
  | partUploaded partNumber bytes =>
    show objects (client.put _ bytes bucket) _ = none
    rw [hclient.put, Objects.put, Function.update_of_ne (tempKey_ne_partKey i partNumber), hfresh]
  | completed parts fault =>
    show objects ((client.raising fault).completeMultipartUpload key uploadId parts (bucket, 0)).2.1
      _ = none
    rw [completeMultipartUpload_bucket]
    by_cases hshort : parts.length ≤ 32
    · rw [attempt_frame hclient (touches_completeRequests_ne hshort i), hfresh]
    · rw [Nat.not_le] at hshort
      rcases hclean with hle | hfirst | hmissing | ⟨hstored, hlanded, hlast⟩
      · exact absurd hle (Nat.not_le.mpr hshort)
      · obtain ⟨requests, hrequests⟩ := completeRequests_of_lt key uploadId hshort
        rw [hrequests, attempt_compose_refused hclient (.inl hfirst), hfresh]
      · obtain ⟨requests, hrequests⟩ := completeRequests_of_lt key uploadId hshort
        rw [hrequests, attempt_compose_refused hclient (.inr hmissing), hfresh]
      · have hne : parts ≠ [] := List.ne_nil_of_length_pos (Nat.zero_lt_of_lt hshort)
        have hkeys := forall_stored_iff.mp hstored
        refine tempKey_eq_none_of_last hclient hne hfresh hkeys ?_ hlanded hlast i
        -- a delete that finds nothing does not fail the completion
        intro herror
        obtain ⟨composes, hplan⟩ := exists_completionPlan key uploadId hne
        have hlt : compositions parts.length ≤ fault.call := by
          omega
        exact hfails (assembles_raising hclient hplan hkeys hlt (.inr herror)).1

/-- **No intermediate object is left by a completion that fails**, if each one that does needs
none, or does not get to make one, or deletes them all. -/
theorem abortsClean_throughout (hclient : client.Faithful objects)
    (hfresh : ∀ i, objects bucket (tempKey key uploadId i) = none) {events : List PartEvent}
    (hrun : EachStep (partStep client key uploadId) (fun bucket e =>
      e.Fails client key uploadId bucket ∧ e.Clean objects key uploadId bucket) bucket events) :
    Throughout (partStep client key uploadId) (AbortsClean client objects key uploadId) bucket
      events := by
  have hthroughout := hrun.throughout
    (fun s e hs he => tempKey_eq_none_of_clean hclient hs he.1 he.2) hfresh
  exact hthroughout.imp fun s hs => (abortsClean_iff hclient).mpr hs

/-- A completion with a fault in a compose fails. -/
theorem fails_of_lt (hclient : client.Faithful objects) (hne : parts ≠ [])
    (hstored : ∀ part ∈ parts, (objects bucket (partKey key uploadId part.1)).isSome)
    (hcall : fault.call < compositions parts.length) :
    PartEvent.Fails client key uploadId bucket (.completed parts fault) := by
  obtain ⟨composes, hplan⟩ := exists_completionPlan key uploadId hne
  have hraises := attempt_composes_raises hclient hplan (forall_stored_iff.mp hstored) hcall
  intro hok
  rw [completeMultipartUpload_eq_ok, hplan.requests, attempt_append_of_error hraises, hraises]
    at hok
  cases hok

/-- The first intermediate object is there when the second compose raises. -/
theorem tempKey_isSome_of_second (hclient : client.Faithful objects) (hlong : 32 < parts.length)
    (hstored : ∀ part ∈ parts, (objects bucket (partKey key uploadId part.1)).isSome)
    (hcall : fault.call = 1) (hlanded : fault.landed = false) :
    (objects (partStep client key uploadId bucket (.completed parts fault))
      (tempKey key uploadId 0)).isSome := by
  obtain ⟨composes, hplan⟩ := exists_completionPlan key uploadId
    (List.ne_nil_of_length_pos (Nat.zero_lt_of_lt hlong))
  obtain ⟨requests, hfirst⟩ := completeRequests_of_lt key uploadId hlong
  have hallowed := (hplan.allowed (objects bucket)).mpr (forall_stored_iff.mp hstored)
  have hlength : 2 ≤ composes.length := by
    rw [hplan.length, compositions]
    omega
  obtain ⟨r, r', rest, rfl⟩ : ∃ r r' rest, composes = r :: r' :: rest := by
    obtain _ | ⟨r, _ | ⟨r', rest⟩⟩ := composes
    · simp at hlength
    · simp at hlength
    · exact ⟨r, r', rest, rfl⟩
  obtain ⟨sources, dest, rfl, -⟩ := hplan.makes r' (List.mem_cons_of_mem _ List.mem_cons_self)
  have hplanned := hplan.requests
  rw [hfirst, List.cons_append] at hplanned
  obtain ⟨rfl, -⟩ := List.cons.inj hplanned
  show (objects ((client.raising fault).completeMultipartUpload key uploadId parts
    (bucket, 0)).2.1 _).isSome
  have hone : Allowed 32 [.compose ((orderedPartKeys key uploadId parts).take 31)
      (tempKey key uploadId 0)] (objects bucket) := ⟨hallowed.1, trivial⟩
  obtain ⟨bucket', hobjects, hattempt⟩ := attempt_away (.compose sources dest :: (rest ++
    (orderedPartKeys key uploadId parts ++ temporaryKeys key uploadId parts).map .delete))
    hclient hone (.inl (show 0 + 1 ≤ fault.call by omega))
  rw [List.singleton_append, List.length_singleton, Nat.zero_add] at hattempt
  rw [completeMultipartUpload_bucket, hplan.requests, List.cons_append, List.cons_append, hattempt,
    attempt_compose_refused hclient (.inl ⟨hcall, hlanded⟩), hobjects]
  exact isSome_compose (.inl rfl)

end Abort

namespace ListedBucket

theorem objects_partUploaded (key uploadId : String) (bucket : ListedBucket) (n : ℕ)
    (bytes : Bytes) :
    (partStep client key uploadId bucket (.partUploaded n bytes)).objects
      = bucket.objects.put (partKey key uploadId n) bytes := rfl

/-- Parts with such numbers are there. -/
theorem isSome_foldl_partUploaded {key uploadId : String} (numbers : List ℕ)
    (bucket : ListedBucket) {n : ℕ}
    (h : n ∈ numbers ∨ (bucket.objects (partKey key uploadId n)).isSome) :
    (((numbers.map fun n => PartEvent.partUploaded n []).foldl (partStep client key uploadId)
      bucket).objects (partKey key uploadId n)).isSome := by
  induction numbers generalizing bucket with
  | nil => exact h.resolve_left List.not_mem_nil
  | cons m numbers ih =>
    rw [List.map_cons, List.foldl_cons]
    apply ih
    rw [objects_partUploaded, Objects.put]
    by_cases hm : n = m
    · subst hm
      rw [Function.update_self]
      exact .inr rfl
    · rw [Function.update_of_ne fun heq => hm (partKey_injective heq)]
      exact h.imp_left fun hmem => (List.mem_cons.mp hmem).resolve_left hm

end ListedBucket

/-- Two parts, and a completion that fails before it has composed them. -/
def failedRun : List PartEvent :=
  [.partUploaded 1 [1], .partUploaded 2 [2],
    .completed twoParts ⟨0, .other "503 Service Unavailable", false⟩]

theorem abortsClean_throughout_two :
    Throughout (partStep ListedBucket.client "f" "u")
      (AbortsClean ListedBucket.client ListedBucket.objects "f" "u") ListedBucket.empty
        failedRun := by
  refine abortsClean_throughout ListedBucket.client_faithful (fun _ => rfl)
    ⟨⟨trivial, trivial⟩, ⟨trivial, trivial⟩, ⟨?_, .inl (by decide)⟩, trivial⟩
  exact fails_of_lt ListedBucket.client_faithful (List.cons_ne_nil _ _) twoPartsBucket_stored
    (by decide)

/-- Thirty-three parts, and a completion that fails when it has composed the first 31. -/
def orphanParts : List (ℕ × String) := (List.range 33).map fun n => (n, "etag")

def orphanFault : Fault := ⟨1, .other "503 Service Unavailable", false⟩

/-- The bucket when the parts are there. -/
def orphanBucket : ListedBucket :=
  ((List.range 33).map fun n => PartEvent.partUploaded n []).foldl
    (partStep ListedBucket.client "f" "u") ListedBucket.empty

def orphanRun : List PartEvent :=
  (List.range 33).map (fun n => .partUploaded n []) ++ [.completed orphanParts orphanFault]

theorem orphanBucket_stored : ∀ part ∈ orphanParts,
    (orphanBucket.objects (partKey "f" "u" part.1)).isSome := by
  intro part hpart
  obtain ⟨n, hn, rfl⟩ := List.mem_map.mp hpart
  exact ListedBucket.isSome_foldl_partUploaded _ _ (.inl hn)

/-- The parts come first. -/
theorem foldl_orphanRun :
    orphanRun.foldl (partStep ListedBucket.client "f" "u") ListedBucket.empty
      = partStep ListedBucket.client "f" "u" orphanBucket (.completed orphanParts orphanFault) := by
  rw [orphanRun, List.foldl_append, List.foldl_cons, List.foldl_nil, orphanBucket]

/-- The intermediate object survives the abort. -/
theorem abort_leaves_intermediate :
    EachStep (partStep ListedBucket.client "f" "u")
        (fun bucket e => e.Fails ListedBucket.client "f" "u" bucket) ListedBucket.empty orphanRun ∧
      (ListedBucket.client.abortMultipartUpload "f" "u" (orphanRun.foldl
        (partStep ListedBucket.client "f" "u") ListedBucket.empty)).1 = .ok () ∧
      ((ListedBucket.client.abortMultipartUpload "f" "u" (orphanRun.foldl
        (partStep ListedBucket.client "f" "u") ListedBucket.empty)).2.objects
          (tempKey "f" "u" 0)).isSome := by
  have hfails : PartEvent.Fails ListedBucket.client "f" "u" orphanBucket
      (.completed orphanParts orphanFault) :=
    fails_of_lt ListedBucket.client_faithful (by decide) orphanBucket_stored (by decide)
  have hleft := tempKey_isSome_of_second ListedBucket.client_faithful
    (show 32 < orphanParts.length by decide) orphanBucket_stored
    (show orphanFault.call = 1 from rfl) rfl
  obtain ⟨hok, -, htemps⟩ := abort_spec ListedBucket.client_faithful "f" "u" (orphanRun.foldl
    (partStep ListedBucket.client "f" "u") ListedBucket.empty)
  refine ⟨?_, hok, ?_⟩
  · refine (eachStep_of_forall fun e he s => ?_).append ⟨hfails, trivial⟩
    obtain ⟨n, -, rfl⟩ := List.mem_map.mp he
    exact trivial
  · rw [htemps, foldl_orphanRun]
    exact hleft

end FileNest
