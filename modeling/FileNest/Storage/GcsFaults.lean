import FileNest.Storage.Gcs

/-!
# Calls to Google Cloud Storage that raise

A call that raises may have had its effect all the same, so a client says what became of the
bucket even then.

## Main definitions

* `GcsClient` — what google-cloud-storage does to a bucket, and what it answers.
* `Fault`, `GcsClient.raising` — a client with one call that raises.
* `GcsClient.completeMultipartUpload`, `GcsClient.abortMultipartUpload` — the provider's methods.
* `GcsClient.Faithful` — what the calls do to the objects.
* `CompletionPlan` — composes, and then deletes.

## Main results

* `completeMultipartUpload_committed` — without its bucket, the answer is the provider's.
* `attempt_away`, `attempt_raises`, `attempt_deletes_raises` — how far an attempt gets.
* `exists_completionPlan` — **what a completion asks for, with so many composes first.**
-/

namespace FileNest

open Assembly GCSStorageProvider

/-- What google-cloud-storage does to a bucket, and what it answers.  A `PUT` goes to a signed
URL. -/
structure GcsClient (σ : Type) where
  compose (sources : List String) (dest : String) (bucket : σ) : Except GcsError Unit × σ
  delete (key : String) (bucket : σ) : Except GcsError Unit × σ
  listBlobs (folder : String) (bucket : σ) : Except GcsError (List String)
  put (key : String) (bytes : Bytes) (bucket : σ) : σ

/-- One call of the client raises; it may have `landed` before. -/
structure Fault where
  call : ℕ
  error : GcsError
  landed : Bool

/-- A call, counted. -/
def Fault.strike {σ : Type} (fault : Fault) (operation : σ → Except GcsError Unit × σ)
    (state : σ × ℕ) : Except GcsError Unit × (σ × ℕ) :=
  let (answer, bucket) := operation state.1
  if state.2 = fault.call then
    (.error fault.error, (if fault.landed then bucket else state.1, state.2 + 1))
  else (answer, (bucket, state.2 + 1))

/-- What the provider makes of an answer: it deletes what is not there without complaint. -/
def settled : BucketRequest → Except GcsError Unit → Except GcsError Unit
  | .delete _, .error .notFound => .ok ()
  | _, answer => answer

/-- `_part_key`, up to the number. -/
def partsFolder (key uploadId : String) : String := key ++ "/_mpparts/" ++ uploadId ++ "/"

namespace GcsClient

variable {σ : Type} (client : GcsClient σ)

/-- A request to the bucket. -/
def request : BucketRequest → σ → Except GcsError Unit × σ
  | .compose sources dest => client.compose sources dest
  | .delete key => client.delete key

/-- Requests, one after the other, up to the first that fails. -/
def attempt : List BucketRequest → σ → Except GcsError Unit × σ
  | [], bucket => (.ok (), bucket)
  | r :: requests, bucket =>
      let (answer, bucket) := client.request r bucket
      match settled r answer with
      | .ok _ => attempt requests bucket
      | .error e => (.error e, bucket)

/-- The client with one call that raises. -/
def raising (fault : Fault) : GcsClient (σ × ℕ) where
  compose sources dest := fault.strike (client.compose sources dest)
  delete key := fault.strike (client.delete key)
  listBlobs folder state := client.listBlobs folder state.1
  put key bytes state := (client.put key bytes state.1, state.2)

/-- `complete_multipart_upload` -/
def completeMultipartUpload (key uploadId : String) (parts : List (ℕ × String)) (bucket : σ) :
    Except ApiError Unit × σ :=
  match client.attempt (completeRequests key uploadId parts) bucket with
  | (.ok _, bucket) => (.ok (), bucket)
  | (.error _, bucket) =>
      (.error (storageError ("Failed to complete multipart upload for '" ++ key ++ "'") []), bucket)

/-- `abort_multipart_upload` -/
def abortMultipartUpload (key uploadId : String) (bucket : σ) : Except ApiError Unit × σ :=
  let failed := storageError ("Failed to abort multipart upload for '" ++ key ++ "'") []
  match client.listBlobs (partsFolder key uploadId) bucket with
  | .error _ => (.error failed, bucket)
  | .ok blobs =>
      match client.attempt (blobs.map .delete) bucket with
      | (.ok _, bucket) => (.ok (), bucket)
      | (.error _, bucket) => (.error failed, bucket)

/-- The client of which a call that raises says nothing of the bucket. -/
def committed : GcsBucket σ where
  compose sources dest bucket :=
    match client.compose sources dest bucket with
    | (.ok _, bucket) => .ok bucket
    | (.error e, _) => .error e
  delete key bucket :=
    match client.delete key bucket with
    | (.ok _, bucket) => .ok bucket
    | (.error e, _) => .error e

end GcsClient

/-- What the calls do to the objects.  Nothing is composed of what is not there, nor of too many;
what is not there is not deleted; and every object is listed. -/
structure GcsClient.Faithful {σ : Type} (client : GcsClient σ) (objects : σ → Objects) : Prop where
  compose : ∀ bucket sources dest,
    (.compose sources dest : BucketRequest).Accepted 32 (objects bucket) →
      (client.compose sources dest bucket).1 = .ok () ∧
        objects (client.compose sources dest bucket).2
          = (objects bucket).put dest (joined (objects bucket) sources)
  refuse : ∀ bucket sources dest,
    ¬ (.compose sources dest : BucketRequest).Accepted 32 (objects bucket) →
      (∃ e, (client.compose sources dest bucket).1 = .error e) ∧
        objects (client.compose sources dest bucket).2 = objects bucket
  delete : ∀ bucket key, (objects bucket key).isSome →
    (client.delete key bucket).1 = .ok () ∧
      objects (client.delete key bucket).2 = Function.update (objects bucket) key none
  missing : ∀ bucket key, objects bucket key = none →
    (client.delete key bucket).1 = .error .notFound ∧
      objects (client.delete key bucket).2 = objects bucket
  listed : ∀ bucket folder, ∃ blobs, client.listBlobs folder bucket = .ok blobs ∧
    ∀ k, k ∈ blobs ↔ Text.startsWith k folder = true ∧ (objects bucket k).isSome
  put : ∀ bucket key bytes, objects (client.put key bytes bucket) = (objects bucket).put key bytes

/-- The keys of the parts, in the order of their numbers. -/
def orderedPartKeys (key uploadId : String) (parts : List (ℕ × String)) : List String :=
  (sortedNumbers parts).map (partKey key uploadId)

/-- How many objects are composed for so many parts: 31 parts make an intermediate one as long as
there are more than 32. -/
def compositions (parts : ℕ) : ℕ := (parts - 3) / 30 + 1

/-- The keys of the intermediate objects. -/
def temporaryKeys (key uploadId : String) (parts : List (ℕ × String)) : List String :=
  (List.range' 0 (compositions parts.length - 1)).map (tempKey key uploadId)

/-! ### Answers -/

section Answers

variable {σ : Type} {client : GcsClient σ} {objects : σ → Objects} {bucket : σ}
  {r : BucketRequest} {requests : List BucketRequest} {key uploadId : String}
  {parts : List (ℕ × String)}

theorem attempt_cons_ok (h : settled r (client.request r bucket).1 = .ok ()) :
    client.attempt (r :: requests) bucket
      = client.attempt requests (client.request r bucket).2 := by
  rw [GcsClient.attempt]
  simp only [h]

theorem attempt_cons_error {e : GcsError} (h : settled r (client.request r bucket).1 = .error e) :
    client.attempt (r :: requests) bucket = (.error e, (client.request r bucket).2) := by
  rw [GcsClient.attempt]
  simp only [h]

theorem completeMultipartUpload_eq_ok : (client.completeMultipartUpload key uploadId parts bucket).1
    = .ok () ↔ (client.attempt (completeRequests key uploadId parts) bucket).1 = .ok () := by
  unfold GcsClient.completeMultipartUpload
  rcases client.attempt (completeRequests key uploadId parts) bucket with ⟨_ | _, _⟩
  · exact ⟨nofun, nofun⟩
  · exact ⟨fun _ => rfl, fun _ => rfl⟩

theorem completeMultipartUpload_bucket :
    (client.completeMultipartUpload key uploadId parts bucket).2
      = (client.attempt (completeRequests key uploadId parts) bucket).2 := by
  unfold GcsClient.completeMultipartUpload
  rcases client.attempt (completeRequests key uploadId parts) bucket with ⟨_ | _, _⟩
  · rfl
  · rfl

/-- What is not there is not deleted, and nothing else happens. -/
def GcsClient.KeepsOnMissing {σ : Type} (client : GcsClient σ) : Prop :=
  ∀ bucket key, (client.delete key bucket).1 = .error .notFound →
    (client.delete key bucket).2 = bucket

theorem perform_committed (hmissing : client.KeepsOnMissing) (r : BucketRequest) (bucket : σ) :
    client.committed.perform bucket r
      = (settled r (client.request r bucket).1).map fun _ => (client.request r bucket).2 := by
  cases r with
  | compose sources dest =>
    simp only [GcsBucket.perform, GcsClient.committed, GcsClient.request]
    rcases client.compose sources dest bucket with ⟨_ | _, _⟩
    · rfl
    · rfl
  | delete key =>
    have hkept := hmissing bucket key
    simp only [GcsBucket.perform, GcsClient.committed, GcsClient.request]
    rcases hdelete : client.delete key bucket with ⟨(_ | _) | _, bucket'⟩
    all_goals rw [hdelete] at hkept
    · exact congrArg Except.ok (hkept rfl).symm
    · rfl
    · rfl

/-- The bucket is what an exception loses. -/
theorem foldlM_committed (hmissing : client.KeepsOnMissing) (requests : List BucketRequest)
    (bucket : σ) : requests.foldlM client.committed.perform bucket
      = (client.attempt requests bucket).1.map fun _ => (client.attempt requests bucket).2 := by
  induction requests generalizing bucket with
  | nil => rfl
  | cons r requests ih =>
    rw [List.foldlM_cons, perform_committed hmissing]
    cases h : settled r (client.request r bucket).1 with
    | error e =>
      rw [attempt_cons_error h]
      rfl
    | ok u =>
      rw [attempt_cons_ok h]
      exact ih _

/-- **Without its bucket, the answer is the provider's.** -/
theorem completeMultipartUpload_committed (hmissing : client.KeepsOnMissing) :
    GCSStorageProvider.completeMultipartUpload client.committed key uploadId parts bucket
      = (client.completeMultipartUpload key uploadId parts bucket).1.map fun _ =>
          (client.completeMultipartUpload key uploadId parts bucket).2 := by
  rw [GCSStorageProvider.completeMultipartUpload, foldlM_committed hmissing,
    GcsClient.completeMultipartUpload]
  rcases client.attempt (completeRequests key uploadId parts) bucket with ⟨_ | _, _⟩
  · rfl
  · rfl

end Answers

/-! ### What the calls do -/

section Calls

variable {σ : Type} {client : GcsClient σ} {objects : σ → Objects} {bucket : σ} {fault : Fault}
  {r : BucketRequest} {requests : List BucketRequest} {n : ℕ}

namespace GcsClient.Faithful

/-- A request that is allowed does what is asked. -/
theorem request_allowed (hclient : client.Faithful objects) (hr : r.Allowed 32 (objects bucket)) :
    settled r (client.request r bucket).1 = .ok () ∧
      objects (client.request r bucket).2 = r.apply (objects bucket) := by
  cases r with
  | compose sources dest => exact hclient.compose bucket sources dest hr
  | delete key =>
    cases hkey : objects bucket key with
    | some bytes =>
      obtain ⟨hanswer, hobjects⟩ := hclient.delete bucket key (by rw [hkey]; rfl)
      refine ⟨?_, hobjects⟩
      show settled _ (client.delete key bucket).1 = _
      rw [hanswer]
      rfl
    | none =>
      obtain ⟨hanswer, hobjects⟩ := hclient.missing bucket key hkey
      refine ⟨?_, hobjects.trans (apply_delete_of_none hkey).symm⟩
      show settled _ (client.delete key bucket).1 = _
      rw [hanswer]
      rfl

/-- One that is not does nothing. -/
theorem request_refused (hclient : client.Faithful objects)
    (hr : ¬ r.Allowed 32 (objects bucket)) :
    (∃ e, settled r (client.request r bucket).1 = .error e) ∧
      objects (client.request r bucket).2 = objects bucket := by
  cases r with
  | compose sources dest => exact hclient.refuse bucket sources dest hr
  | delete key => exact absurd trivial hr

/-- A request leaves the other objects alone. -/
theorem request_frame (hclient : client.Faithful objects) {k : String} (hk : r.touches ≠ k) :
    objects (client.request r bucket).2 k = objects bucket k := by
  by_cases hr : r.Allowed 32 (objects bucket)
  · rw [(hclient.request_allowed hr).2, apply_of_ne hk]
  · rw [(hclient.request_refused hr).2]

/-- Requests that are allowed all succeed, … -/
theorem attempt (hclient : client.Faithful objects) (h : Allowed 32 requests (objects bucket)) :
    (client.attempt requests bucket).1 = .ok () ∧
      objects (client.attempt requests bucket).2 = run requests (objects bucket) := by
  induction requests generalizing bucket with
  | nil => exact ⟨rfl, rfl⟩
  | cons r requests ih =>
    obtain ⟨hanswer, hobjects⟩ := hclient.request_allowed h.1
    rw [attempt_cons_ok hanswer, run_cons, ← hobjects]
    refine ih ?_
    rw [hobjects]
    exact h.2

/-- … and requests that all succeed were allowed. -/
theorem allowed_of_attempt (hclient : client.Faithful objects)
    (h : (client.attempt requests bucket).1 = .ok ()) : Allowed 32 requests (objects bucket) := by
  induction requests generalizing bucket with
  | nil => exact trivial
  | cons r requests ih =>
    by_cases hr : r.Allowed 32 (objects bucket)
    · obtain ⟨hanswer, hobjects⟩ := hclient.request_allowed hr
      rw [attempt_cons_ok hanswer] at h
      refine ⟨hr, ?_⟩
      rw [← hobjects]
      exact ih h
    · obtain ⟨⟨e, hanswer⟩, -⟩ := hclient.request_refused hr
      rw [attempt_cons_error hanswer] at h
      cases h

end GcsClient.Faithful

/-! ### The call that raises -/

theorem raising_request (r : BucketRequest) (state : σ × ℕ) :
    (client.raising fault).request r state = fault.strike (client.request r) state := by
  cases r with
  | compose sources dest => rfl
  | delete key => rfl

/-- Another call answers as it does. -/
theorem raising_request_of_ne (client : GcsClient σ) (r : BucketRequest) (bucket : σ)
    (hn : n ≠ fault.call) : (client.raising fault).request r (bucket, n)
      = ((client.request r bucket).1, ((client.request r bucket).2, n + 1)) := by
  rw [raising_request]
  exact if_neg hn

/-- This one raises. -/
theorem raising_request_self (client : GcsClient σ) (fault : Fault) (r : BucketRequest)
    (bucket : σ) : (client.raising fault).request r (bucket, fault.call)
    = (.error fault.error,
        (if fault.landed then (client.request r bucket).2 else bucket, fault.call + 1)) := by
  rw [raising_request]
  exact if_pos rfl

/-- Before the fault, or after it, requests that are allowed succeed. -/
theorem attempt_away (rest : List BucketRequest) (hclient : client.Faithful objects)
    (h : Allowed 32 requests (objects bucket))
    (hn : n + requests.length ≤ fault.call ∨ fault.call < n) :
    ∃ bucket', objects bucket' = run requests (objects bucket) ∧
      (client.raising fault).attempt (requests ++ rest) (bucket, n)
        = (client.raising fault).attempt rest (bucket', n + requests.length) := by
  induction requests generalizing bucket n with
  | nil => exact ⟨bucket, rfl, rfl⟩
  | cons r requests ih =>
    rw [List.length_cons] at hn
    obtain ⟨hanswer, hobjects⟩ := hclient.request_allowed h.1
    have hcall := raising_request_of_ne client r bucket (show n ≠ fault.call by omega)
    have hrequests : Allowed 32 requests (objects (client.request r bucket).2) := by
      rw [hobjects]
      exact h.2
    obtain ⟨bucket', hrun, hrest⟩ := ih (n := n + 1) hrequests (by omega)
    refine ⟨bucket', ?_, ?_⟩
    · rw [hrun, hobjects, run_cons]
    · rw [List.cons_append, attempt_cons_ok (by rw [hcall]; exact hanswer), hcall, hrest,
        List.length_cons, Nat.add_assoc, Nat.add_comm 1]

/-- At the fault the request may have had its effect. -/
theorem raising_request_allowed (hclient : client.Faithful objects)
    (hr : r.Allowed 32 (objects bucket)) :
    objects ((client.raising fault).request r (bucket, fault.call)).2.1
      = if fault.landed then r.apply (objects bucket) else objects bucket := by
  rw [raising_request_self]
  by_cases hlanded : fault.landed
  · simp only [hlanded, if_true]
    exact (hclient.request_allowed hr).2
  · simp only [hlanded]
    rfl

/-- Whatever is raised, other objects are left alone. -/
theorem attempt_frame (hclient : client.Faithful objects) {k : String}
    (hk : ∀ r ∈ requests, r.touches ≠ k) :
    objects ((client.raising fault).attempt requests (bucket, n)).2.1 k = objects bucket k := by
  induction requests generalizing bucket n with
  | nil => rfl
  | cons r requests ih =>
    obtain ⟨hr, hrequests⟩ := List.forall_mem_cons.mp hk
    have hframe : ∃ bucket' n', ((client.raising fault).request r (bucket, n)).2 = (bucket', n') ∧
        objects bucket' k = objects bucket k := by
      by_cases hn : n = fault.call
      · subst hn
        rw [raising_request_self]
        refine ⟨_, _, rfl, ?_⟩
        by_cases hlanded : fault.landed
        · rw [if_pos hlanded, hclient.request_frame hr]
        · rw [if_neg hlanded]
      · rw [raising_request_of_ne client r bucket hn]
        exact ⟨_, _, rfl, hclient.request_frame hr⟩
    obtain ⟨bucket', n', hstate, hobjects⟩ := hframe
    cases hanswer : settled r ((client.raising fault).request r (bucket, n)).1 with
    | error e =>
      rw [attempt_cons_error hanswer, hstate]
      exact hobjects
    | ok u =>
      rw [attempt_cons_ok hanswer, hstate, ih hrequests]
      exact hobjects

/-- What has failed goes no further. -/
theorem attempt_append_of_error {rest : List BucketRequest} {e : GcsError}
    (h : (client.attempt requests bucket).1 = .error e) :
    client.attempt (requests ++ rest) bucket = client.attempt requests bucket := by
  induction requests generalizing bucket with
  | nil => cases h
  | cons r requests ih =>
    cases hanswer : settled r (client.request r bucket).1 with
    | error e' => rw [List.cons_append, attempt_cons_error hanswer, attempt_cons_error hanswer]
    | ok u =>
      rw [attempt_cons_ok hanswer] at h
      rw [List.cons_append, attempt_cons_ok hanswer, attempt_cons_ok hanswer, ih h]

/-- A fault on the way fails the attempt. -/
theorem attempt_raises (hclient : client.Faithful objects)
    (h : Allowed 32 requests (objects bucket)) (hn : n ≤ fault.call)
    (hcall : fault.call < n + requests.length)
    (hraises : ∀ r ∈ requests, settled r (.error fault.error) = .error fault.error) :
    ((client.raising fault).attempt requests (bucket, n)).1 = .error fault.error := by
  induction requests generalizing bucket n with
  | nil => exact absurd hcall (Nat.not_lt.mpr hn)
  | cons r requests ih =>
    obtain ⟨hr, hrequests⟩ := List.forall_mem_cons.mp hraises
    by_cases hself : n = fault.call
    · subst hself
      rw [attempt_cons_error (e := fault.error)]
      rw [raising_request_self]
      exact hr
    · obtain ⟨hanswer, hobjects⟩ := hclient.request_allowed h.1
      have hother := raising_request_of_ne client r bucket hself
      rw [attempt_cons_ok (by rw [hother]; exact hanswer), hother]
      rw [List.length_cons] at hcall
      refine ih ?_ (by omega) (by omega) hrequests
      rw [hobjects]
      exact h.2

/-- Of deletes, those before the fault are done, and perhaps the one that raises. -/
theorem attempt_deletes_raises (hclient : client.Faithful objects) (keys : List String)
    (hn : n ≤ fault.call) (hcall : fault.call < n + keys.length)
    (herror : fault.error ≠ .notFound) :
    ((client.raising fault).attempt (keys.map .delete) (bucket, n)).1 = .error fault.error ∧
      objects ((client.raising fault).attempt (keys.map .delete) (bucket, n)).2.1
        = run ((keys.take (fault.call - n + fault.landed.toNat)).map .delete) (objects bucket) := by
  have hraises (k : String) : settled (.delete k) (.error fault.error) = .error fault.error := by
    unfold settled
    split
    · next heq => exact absurd (Except.error.inj heq) herror
    · rfl
  induction keys generalizing bucket n with
  | nil => exact absurd hcall (Nat.not_lt.mpr hn)
  | cons k keys ih =>
    have hallowed : (.delete k : BucketRequest).Allowed 32 (objects bucket) := trivial
    by_cases hself : n = fault.call
    · subst hself
      have hanswer : settled (.delete k)
          ((client.raising fault).request (.delete k) (bucket, fault.call)).1
            = .error fault.error := by
        rw [raising_request_self]
        exact hraises k
      rw [List.map_cons, attempt_cons_error hanswer, raising_request_allowed hclient hallowed,
        Nat.sub_self, Nat.zero_add]
      refine ⟨rfl, ?_⟩
      cases fault.landed with
      | true => rfl
      | false => rfl
    · obtain ⟨hanswer, hobjects⟩ := hclient.request_allowed hallowed
      have hother := raising_request_of_ne client (.delete k) bucket hself
      rw [List.length_cons] at hcall
      have hrest := @ih (client.request (.delete k) bucket).2 (n + 1) (by omega) (by omega)
      obtain ⟨hfails, hrun⟩ := hrest
      have htake : fault.call - n + fault.landed.toNat
          = fault.call - (n + 1) + fault.landed.toNat + 1 := by omega
      rw [List.map_cons, attempt_cons_ok (by rw [hother]; exact hanswer), hother]
      refine ⟨hfails, ?_⟩
      rw [hrun, hobjects, htake, List.take_succ_cons, List.map_cons, run_cons]

/-- A delete that finds nothing is no failure. -/
theorem attempt_deletes_notFound (hclient : client.Faithful objects) (keys : List String)
    (herror : fault.error = .notFound) :
    ((client.raising fault).attempt (keys.map .delete) (bucket, n)).1 = .ok () := by
  induction keys generalizing bucket n with
  | nil => rfl
  | cons k keys ih =>
    have hanswer : settled (.delete k)
        ((client.raising fault).request (.delete k) (bucket, n)).1 = .ok () := by
      by_cases hself : n = fault.call
      · subst hself
        rw [raising_request_self, herror]
        rfl
      · rw [raising_request_of_ne client (.delete k) bucket hself]
        have hallowed : (.delete k : BucketRequest).Allowed 32 (objects bucket) := trivial
        exact (hclient.request_allowed hallowed).1
    rw [List.map_cons, attempt_cons_ok hanswer]
    exact ih

end Calls

/-! ### A bucket that is listed -/

/-- A bucket in memory, and keys among which its objects are. -/
structure ListedBucket where
  objects : Objects
  keys : List String
  listed : ∀ k, (objects k).isSome → k ∈ keys

namespace ListedBucket

/-- The object at a key is replaced. -/
def store (bucket : ListedBucket) (key : String) (bytes : Bytes) : ListedBucket where
  objects := bucket.objects.put key bytes
  keys := key :: bucket.keys
  listed := by
    intro k hk
    by_cases h : k = key
    · exact h ▸ List.mem_cons_self
    · rw [Objects.put, Function.update_of_ne h] at hk
      exact List.mem_cons_of_mem _ (bucket.listed k hk)

/-- The object at a key is deleted. -/
def remove (bucket : ListedBucket) (key : String) : ListedBucket where
  objects := Function.update bucket.objects key none
  keys := bucket.keys
  listed := by
    intro k hk
    by_cases h : k = key
    · subst h
      rw [Function.update_self] at hk
      cases hk
    · rw [Function.update_of_ne h] at hk
      exact bucket.listed k hk

/-- Nothing in it. -/
def empty : ListedBucket := ⟨fun _ => none, [], nofun⟩

/-- The client of such a bucket. -/
def client : GcsClient ListedBucket where
  compose sources dest bucket :=
    if sources ≠ [] ∧ sources.length ≤ 32 ∧ ∀ k ∈ sources, (bucket.objects k).isSome then
      (.ok (), bucket.store dest (joined bucket.objects sources))
    else (.error (.other "400 Bad Request"), bucket)
  delete key bucket :=
    if (bucket.objects key).isSome then (.ok (), bucket.remove key) else (.error .notFound, bucket)
  listBlobs folder bucket :=
    .ok (bucket.keys.filter fun k => Text.startsWith k folder && (bucket.objects k).isSome)
  put key bytes bucket := bucket.store key bytes

theorem client_faithful : client.Faithful objects where
  compose := by
    intro bucket sources dest h
    have heq : client.compose sources dest bucket
        = (.ok (), bucket.store dest (joined bucket.objects sources)) := if_pos h
    rw [heq]
    exact ⟨rfl, rfl⟩
  refuse := by
    intro bucket sources dest h
    have heq : client.compose sources dest bucket
        = (.error (.other "400 Bad Request"), bucket) := if_neg h
    rw [heq]
    exact ⟨⟨_, rfl⟩, rfl⟩
  delete := by
    intro bucket key h
    have heq : client.delete key bucket = (.ok (), bucket.remove key) := if_pos h
    rw [heq]
    exact ⟨rfl, rfl⟩
  missing := by
    intro bucket key h
    have heq : client.delete key bucket = (.error .notFound, bucket) := by
      refine if_neg ?_
      rw [h]
      exact Bool.false_ne_true
    rw [heq]
    exact ⟨rfl, rfl⟩
  listed := by
    intro bucket folder
    refine ⟨_, rfl, fun k => ?_⟩
    rw [List.mem_filter, Bool.and_eq_true]
    exact ⟨And.right, fun h => ⟨bucket.listed k h.2, h⟩⟩
  put := fun _ _ _ => rfl

end ListedBucket

/-! ### What a completion asks for -/

section Plan

variable {key uploadId : String} {parts : List (ℕ × String)}

/-- First `composes` that need the parts and leave them alone, then a delete for each part and
each intermediate object. -/
structure CompletionPlan (key uploadId : String) (parts : List (ℕ × String))
    (composes : List BucketRequest) : Prop where
  requests : completeRequests key uploadId parts = composes ++
    (orderedPartKeys key uploadId parts ++ temporaryKeys key uploadId parts).map .delete
  length : composes.length = compositions parts.length
  makes : ∀ r ∈ composes, ∃ sources dest, r = .compose sources dest ∧
    (dest = key ∨ dest ∈ temporaryKeys key uploadId parts)
  allowed : ∀ s : Objects, Allowed 32 composes s ↔
    ∀ k ∈ orderedPartKeys key uploadId parts, (s k).isSome
  assembled : ∀ s : Objects,
    run composes s key = some (joined s (orderedPartKeys key uploadId parts))

theorem partKey_notMem_temporaryKeys {k : String} (hk : k ∈ orderedPartKeys key uploadId parts) :
    k ∉ temporaryKeys key uploadId parts := by
  intro htemp
  obtain ⟨n, -, rfl⟩ := List.mem_map.mp hk
  obtain ⟨i, -, heq⟩ := List.mem_map.mp htemp
  exact tempKey_ne_partKey i n heq

theorem length_orderedPartKeys : (orderedPartKeys key uploadId parts).length = parts.length := by
  rw [orderedPartKeys, List.length_map, perm_sortedNumbers.length_eq, List.length_map]

theorem length_temporaryKeys :
    (temporaryKeys key uploadId parts).length = compositions parts.length - 1 := by
  rw [temporaryKeys, List.length_map, List.length_range']

theorem forall_stored_iff {objects : Objects} :
    (∀ part ∈ parts, (objects (partKey key uploadId part.1)).isSome) ↔
      ∀ k ∈ orderedPartKeys key uploadId parts, (objects k).isSome := by
  unfold orderedPartKeys
  rw [List.forall_mem_map]
  constructor
  · intro h n hn
    obtain ⟨part, hpart, rfl⟩ := List.mem_map.mp (perm_sortedNumbers.mem_iff.mp hn)
    exact h part hpart
  · intro h part hpart
    exact h _ (perm_sortedNumbers.mem_iff.mpr (List.mem_map_of_mem hpart))

theorem length_deleted (key uploadId : String) (parts : List (ℕ × String)) :
    (orderedPartKeys key uploadId parts ++ temporaryKeys key uploadId parts).length
      = parts.length + (compositions parts.length - 1) := by
  rw [List.length_append, length_orderedPartKeys, length_temporaryKeys]

/-- Nothing but the object is asked for without parts. -/
theorem completeRequests_nil (key uploadId : String) :
    completeRequests key uploadId [] = [.compose [] key] := by
  have hshort : ¬ 32 < ((Sql.orderBy Prod.fst ([] : List (ℕ × String))).map
      fun part => partKey key uploadId part.1).length := Nat.not_lt.mpr (Nat.zero_le 32)
  rw [completeRequests, collapse, dif_neg hshort]
  rfl

/-- What is asked for first, when there are too many parts. -/
theorem completeRequests_of_lt (key uploadId : String) (hlong : 32 < parts.length) :
    ∃ requests, completeRequests key uploadId parts
      = .compose ((orderedPartKeys key uploadId parts).take 31) (tempKey key uploadId 0)
        :: requests := by
  have hkeys : (Sql.orderBy Prod.fst parts).map (fun part => partKey key uploadId part.1)
      = orderedPartKeys key uploadId parts := by
    rw [orderedPartKeys, sortedNumbers, List.map_map]
    rfl
  have hlength : 32 < (orderedPartKeys key uploadId parts).length := by
    rw [length_orderedPartKeys]
    exact hlong
  unfold completeRequests
  simp only [hkeys]
  rw [collapse, dif_pos hlength]
  exact ⟨_, rfl⟩

/-- Something is composed for every list of parts. -/
theorem exists_completionPlan (key uploadId : String) (hne : parts ≠ []) :
    ∃ composes, CompletionPlan key uploadId parts composes := by
  obtain ⟨made, left, requests, hmade, hleft, hlimit, hfolds, hrequests⟩ :=
    completeRequests_folds key uploadId hne
  have htemps : (List.range' 0 made).map (tempKey key uploadId)
      = temporaryKeys key uploadId parts := by
    rw [temporaryKeys, compositions, Nat.add_sub_cancel, hmade]
  rw [htemps] at hfolds hrequests
  refine ⟨requests ++ [.compose left key], ?_, ?_, ?_, ?_, ?_⟩
  · rw [hrequests, assembly, List.append_assoc]
    rfl
  · rw [List.length_append, hfolds.length_requests, length_temporaryKeys]
    exact Nat.sub_add_cancel (Nat.succ_pos _)
  · intro r hr
    rcases List.mem_append.mp hr with hr | hr
    · obtain ⟨sources, dest, rfl, -⟩ := hfolds.compose hr
      refine ⟨sources, dest, rfl, .inr ?_⟩
      rw [← hfolds.filterMap_dest]
      exact List.mem_filterMap.mpr ⟨_, hr, rfl⟩
    · exact ⟨left, key, List.mem_singleton.mp hr, .inl rfl⟩
  · intro s
    have hall := hfolds.allowed_assembly_iff (s := s) hleft hlimit
      (fun k hk => partKey_notMem_temporaryKeys hk) key
    rw [assembly, List.append_cons, allowed_append] at hall
    rw [orderedPartKeys, ← hall]
    have hdeletes (s' : Objects) (keys : List String) :
        Allowed 32 (keys.map Assembly.Request.delete) s' := allowed_delete keys
    exact (and_iff_left (hdeletes _ _)).symm
  · intro s
    rw [run_append, run_cons, run_nil]
    show Function.update _ key _ key = _
    rw [Function.update_self, hfolds.joined_left]
    rfl

theorem key_notMem_orderedPartKeys_temporaryKeys :
    key ∉ orderedPartKeys key uploadId parts ++ temporaryKeys key uploadId parts :=
  key_notMem_sources_temps key uploadId _ _

/-- No part is composed over. -/
theorem CompletionPlan.touches_ne {composes : List BucketRequest}
    (h : CompletionPlan key uploadId parts composes) {k : String}
    (hk : k ∈ orderedPartKeys key uploadId parts) : ∀ r ∈ composes, r.touches ≠ k := by
  intro r hr
  obtain ⟨sources, dest, rfl, hdest⟩ := h.makes r hr
  rintro rfl
  rcases hdest with hdest | hdest
  · obtain ⟨n, -, heq⟩ := List.mem_map.mp hk
    exact key_ne_partKey n (hdest.symm.trans heq.symm)
  · exact partKey_notMem_temporaryKeys hk hdest

end Plan

end FileNest
