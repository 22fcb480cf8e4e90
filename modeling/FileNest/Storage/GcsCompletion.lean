import FileNest.Storage.GcsFaults

/-!
# Completing an upload again on Google Cloud Storage

A completed upload is composed and then cleaned up in one `try`, so that a delete that raises
fails the completion though the object is there.  The client tries again, and composes parts that
are gone.

## Main definitions

* `RetrySafe` — a completion that fails can be made again.
* `Fault.Harmless` — a fault before anything is deleted, or one that fails nothing.

## Main results

* `retrySafe_iff` — **the fault is in none of the deletes, or nothing has been deleted yet.**
* `completion_not_retrySafe` — the second of two parts cannot be deleted.
-/

namespace FileNest

open Assembly GCSStorageProvider

/-- The fault is in a compose or beyond the last delete; or it is a delete that finds nothing, or
the first one, before it has landed. -/
def Fault.Harmless (fault : Fault) (parts : ℕ) : Prop :=
  fault.call < compositions parts ∨
    compositions parts + parts + (compositions parts - 1) ≤ fault.call ∨
    fault.error = .notFound ∨ (fault.call = compositions parts ∧ fault.landed = false)

section Statements

variable {σ : Type} (client : GcsClient σ) (objects : σ → Objects) (key uploadId : String)

/-- The completion succeeds, and the object holds what the parts held `before`. -/
def Assembles (parts : List (ℕ × String)) (before : Objects) (bucket : σ) : Prop :=
  (client.completeMultipartUpload key uploadId parts bucket).1 = .ok () ∧
    objects (client.completeMultipartUpload key uploadId parts bucket).2 key
      = some (joined before (orderedPartKeys key uploadId parts))

/-- With the fault the completion succeeds, or it can be made again if it could be made at all. -/
def RetrySafe (fault : Fault) (parts : List (ℕ × String)) (bucket : σ) : Prop :=
  Assembles (client.raising fault) (fun state => objects state.1) key uploadId parts
      (objects bucket) (bucket, 0) ∨
    (Assembles client objects key uploadId parts (objects bucket) bucket →
      Assembles client objects key uploadId parts (objects bucket)
        ((client.raising fault).completeMultipartUpload key uploadId parts (bucket, 0)).2.1)

end Statements

section Retry

variable {σ : Type} {client : GcsClient σ} {objects : σ → Objects} {bucket : σ} {fault : Fault}
  {key uploadId : String} {parts : List (ℕ × String)} {composes : List BucketRequest}

/-- The object is left alone by the deletes. -/
theorem touches_delete_ne {keys : List String} (h : key ∉ keys) :
    ∀ r ∈ keys.map Assembly.Request.delete, r.touches ≠ key := by
  intro r hr
  obtain ⟨k, hk, rfl⟩ := List.mem_map.mp hr
  rintro rfl
  exact h hk

/-- With the parts there, a completion assembles them. -/
theorem assembles_of_stored (hclient : client.Faithful objects) (hne : parts ≠ [])
    (hstored : ∀ k ∈ orderedPartKeys key uploadId parts, (objects bucket k).isSome)
    {before : Objects}
    (hbefore : ∀ k ∈ orderedPartKeys key uploadId parts, objects bucket k = before k) :
    Assembles client objects key uploadId parts before bucket := by
  obtain ⟨composes, hplan⟩ := exists_completionPlan key uploadId hne
  have hallowed : Allowed 32 (completeRequests key uploadId parts) (objects bucket) := by
    rw [hplan.requests, allowed_append]
    exact ⟨(hplan.allowed _).mpr hstored, allowed_delete _⟩
  obtain ⟨hok, hobjects⟩ := hclient.attempt hallowed
  refine ⟨completeMultipartUpload_eq_ok.mpr hok, ?_⟩
  rw [completeMultipartUpload_bucket, hobjects, hplan.requests, run_append, run_delete,
    if_neg key_notMem_orderedPartKeys_temporaryKeys, hplan.assembled, joined_congr hbefore]

/-- A completion that succeeds has found the parts. -/
theorem stored_of_assembles (hclient : client.Faithful objects) (hne : parts ≠ [])
    {before : Objects} (h : Assembles client objects key uploadId parts before bucket) :
    ∀ k ∈ orderedPartKeys key uploadId parts, (objects bucket k).isSome := by
  obtain ⟨composes, hplan⟩ := exists_completionPlan key uploadId hne
  have hallowed := hclient.allowed_of_attempt (completeMultipartUpload_eq_ok.mp h.1)
  rw [hplan.requests, allowed_append] at hallowed
  exact (hplan.allowed _).mp hallowed.1

/-- Nothing is made of nothing. -/
theorem not_assembles_nil (hclient : client.Faithful objects) (before : Objects) :
    ¬ Assembles client objects key uploadId [] before bucket := by
  intro h
  have hallowed := hclient.allowed_of_attempt (completeMultipartUpload_eq_ok.mp h.1)
  rw [completeRequests_nil] at hallowed
  exact hallowed.1.1 rfl

/-- A fault in the composes fails the completion there. -/
theorem attempt_composes_raises (hclient : client.Faithful objects)
    (hplan : CompletionPlan key uploadId parts composes)
    (hstored : ∀ k ∈ orderedPartKeys key uploadId parts, (objects bucket k).isSome)
    (hcall : fault.call < compositions parts.length) :
    ((client.raising fault).attempt composes (bucket, 0)).1 = .error fault.error := by
  refine attempt_raises hclient ((hplan.allowed _).mpr hstored) (Nat.zero_le _) ?_ fun r hr => ?_
  · rw [hplan.length, Nat.zero_add]
    exact hcall
  · obtain ⟨sources, dest, rfl, -⟩ := hplan.makes r hr
    rfl

/-- The composes leave the parts as they are. -/
theorem complete_raising_of_lt (hclient : client.Faithful objects)
    (hplan : CompletionPlan key uploadId parts composes)
    (hstored : ∀ k ∈ orderedPartKeys key uploadId parts, (objects bucket k).isSome)
    (hcall : fault.call < compositions parts.length) :
    ∀ k ∈ orderedPartKeys key uploadId parts,
      objects ((client.raising fault).completeMultipartUpload key uploadId parts (bucket, 0)).2.1 k
        = objects bucket k := by
  intro k hk
  have hraises := attempt_composes_raises hclient hplan hstored hcall
  rw [completeMultipartUpload_bucket, hplan.requests, attempt_append_of_error hraises]
  exact attempt_frame hclient (hplan.touches_ne hk)

/-- Past the composes, what is left to do is deleting, and the object is there. -/
theorem complete_raising_of_le (hclient : client.Faithful objects)
    (hplan : CompletionPlan key uploadId parts composes)
    (hstored : ∀ k ∈ orderedPartKeys key uploadId parts, (objects bucket k).isSome)
    (hcall : compositions parts.length ≤ fault.call) :
    ∃ bucket', (∀ k, (∀ r ∈ composes, r.touches ≠ k) → objects bucket' k = objects bucket k) ∧
      objects bucket' key = some (joined (objects bucket) (orderedPartKeys key uploadId parts)) ∧
      (client.raising fault).attempt (completeRequests key uploadId parts) (bucket, 0)
        = (client.raising fault).attempt ((orderedPartKeys key uploadId parts
            ++ temporaryKeys key uploadId parts).map .delete)
            (bucket', compositions parts.length) := by
  have hlength : 0 + composes.length ≤ fault.call := by
    rw [hplan.length, Nat.zero_add]
    exact hcall
  obtain ⟨bucket', hobjects, hattempt⟩ := attempt_away _ hclient ((hplan.allowed _).mpr hstored)
    (.inl hlength)
  refine ⟨bucket', fun k hk => ?_, ?_, ?_⟩
  · rw [hobjects]
    exact run_frame hk
  · rw [hobjects, hplan.assembled]
  · rw [hplan.requests, hattempt, hplan.length, Nat.zero_add]

/-- A completion that succeeds past the composes has assembled the object. -/
theorem assembles_raising (hclient : client.Faithful objects)
    (hplan : CompletionPlan key uploadId parts composes)
    (hstored : ∀ k ∈ orderedPartKeys key uploadId parts, (objects bucket k).isSome)
    (hcall : compositions parts.length ≤ fault.call)
    (hdeletes : compositions parts.length + parts.length + (compositions parts.length - 1)
      ≤ fault.call ∨ fault.error = .notFound) :
    Assembles (client.raising fault) (fun state => objects state.1) key uploadId parts
      (objects bucket) (bucket, 0) := by
  obtain ⟨bucket', -, hkey, hattempt⟩ := complete_raising_of_le hclient hplan hstored hcall
  refine ⟨completeMultipartUpload_eq_ok.mpr ?_, ?_⟩
  · rw [hattempt]
    rcases hdeletes with hbeyond | herror
    · have hallowed : Allowed 32 ((orderedPartKeys key uploadId parts
          ++ temporaryKeys key uploadId parts).map .delete) (objects bucket') := allowed_delete _
      have hlength : compositions parts.length + ((orderedPartKeys key uploadId parts
          ++ temporaryKeys key uploadId parts).map Assembly.Request.delete).length
          ≤ fault.call := by
        rw [List.length_map, length_deleted]
        omega
      obtain ⟨bucket'', -, hrest⟩ := attempt_away [] hclient hallowed (.inl hlength)
      rw [List.append_nil] at hrest
      rw [hrest]
      rfl
    · exact attempt_deletes_notFound hclient _ herror
  · rw [completeMultipartUpload_bucket, hattempt]
    show objects _ key = _
    rw [attempt_frame hclient (touches_delete_ne key_notMem_orderedPartKeys_temporaryKeys), hkey]

/-- A delete that raises has the first part deleted, unless it is the first itself. -/
theorem complete_raising_delete (hclient : client.Faithful objects)
    (hplan : CompletionPlan key uploadId parts composes)
    (hstored : ∀ k ∈ orderedPartKeys key uploadId parts, (objects bucket k).isSome)
    (hcall : compositions parts.length ≤ fault.call)
    (hdelete : fault.call
      < compositions parts.length + parts.length + (compositions parts.length - 1))
    (herror : fault.error ≠ .notFound) :
    ((client.raising fault).attempt (completeRequests key uploadId parts) (bucket, 0)).1
        = .error fault.error ∧
      ∀ k ∈ orderedPartKeys key uploadId parts,
        objects ((client.raising fault).attempt (completeRequests key uploadId parts)
            (bucket, 0)).2.1 k
          = if k ∈ (orderedPartKeys key uploadId parts ++ temporaryKeys key uploadId parts).take
                (fault.call - compositions parts.length + fault.landed.toNat)
            then none else objects bucket k := by
  obtain ⟨bucket', hparts, -, hattempt⟩ := complete_raising_of_le hclient hplan hstored hcall
  have hlength : fault.call < compositions parts.length
      + (orderedPartKeys key uploadId parts ++ temporaryKeys key uploadId parts).length := by
    rw [length_deleted]
    omega
  obtain ⟨hfails, hobjects⟩ := @attempt_deletes_raises _ _ _ bucket' _ _ hclient
    (orderedPartKeys key uploadId parts ++ temporaryKeys key uploadId parts) hcall hlength herror
  rw [hattempt]
  refine ⟨hfails, fun k hk => ?_⟩
  rw [hobjects, run_delete, hparts k (hplan.touches_ne hk)]

/-- A fault that is harmless leaves nothing to be done, or the parts. -/
theorem retrySafe_of_harmless (hclient : client.Faithful objects) (hne : parts ≠ [])
    (hstored : ∀ k ∈ orderedPartKeys key uploadId parts, (objects bucket k).isSome)
    (h : fault.Harmless parts.length) :
    RetrySafe client objects key uploadId fault parts bucket := by
  obtain ⟨composes, hplan⟩ := exists_completionPlan key uploadId hne
  -- with the parts as they were, the second call finds them
  have hagain (hkept : ∀ k ∈ orderedPartKeys key uploadId parts, objects ((client.raising
      fault).completeMultipartUpload key uploadId parts (bucket, 0)).2.1 k = objects bucket k) :
      RetrySafe client objects key uploadId fault parts bucket := by
    refine .inr fun _ => assembles_of_stored hclient hne (fun k hk => ?_) hkept
    rw [hkept k hk]
    exact hstored k hk
  by_cases hcall : fault.call < compositions parts.length
  · exact hagain (complete_raising_of_lt hclient hplan hstored hcall)
  · rw [Nat.not_lt] at hcall
    by_cases herror : fault.error = .notFound
    · exact .inl (assembles_raising hclient hplan hstored hcall (.inr herror))
    · rcases h with hlt | hbeyond | hfound | ⟨hfirst, hlanded⟩
      · exact absurd hlt (Nat.not_lt.mpr hcall)
      · exact .inl (assembles_raising hclient hplan hstored hcall (.inl hbeyond))
      · exact absurd hfound herror
      · have hpos := List.length_pos_of_ne_nil hne
        obtain ⟨-, hobjects⟩ :=
          complete_raising_delete hclient hplan hstored hcall (by omega) herror
        refine hagain fun k hk => ?_
        rw [completeMultipartUpload_bucket, hobjects k hk, hfirst, hlanded, Nat.sub_self]
        exact if_neg List.not_mem_nil

/-- A delete that raises when a part has been deleted fails the completion for good. -/
theorem not_retrySafe (hclient : client.Faithful objects) (hne : parts ≠ [])
    (hstored : ∀ k ∈ orderedPartKeys key uploadId parts, (objects bucket k).isSome)
    (h : ¬ fault.Harmless parts.length) :
    ¬ RetrySafe client objects key uploadId fault parts bucket := by
  obtain ⟨composes, hplan⟩ := exists_completionPlan key uploadId hne
  obtain ⟨hlt, hbeyond, herror, hfirst⟩ : ¬ fault.call < compositions parts.length ∧
      ¬ compositions parts.length + parts.length + (compositions parts.length - 1) ≤ fault.call ∧
      ¬ fault.error = .notFound ∧
      ¬ (fault.call = compositions parts.length ∧ fault.landed = false) := by
    simpa only [Fault.Harmless, not_or] using h
  obtain ⟨hfails, hobjects⟩ := complete_raising_delete hclient hplan hstored
    (Nat.not_lt.mp hlt) (Nat.not_le.mp hbeyond) herror
  rintro (⟨hok, -⟩ | hagain)
  · rw [completeMultipartUpload_eq_ok.mp hok] at hfails
    cases hfails
  · have hstill := stored_of_assembles hclient hne
      (hagain (assembles_of_stored hclient hne hstored fun _ _ => rfl))
    -- the first part is among what has been deleted
    cases hkeys : orderedPartKeys key uploadId parts with
    | nil =>
      have hlength := congrArg List.length hkeys
      rw [length_orderedPartKeys] at hlength
      exact hne (List.length_eq_zero_iff.mp hlength)
    | cons k keys =>
      have hk : k ∈ orderedPartKeys key uploadId parts := by
        rw [hkeys]
        exact List.mem_cons_self
      have hsome : 0 < fault.call - compositions parts.length + fault.landed.toNat := by
        by_cases hcall : fault.call = compositions parts.length
        · have hlanded : fault.landed = true := by
            rw [← Bool.not_eq_false]
            exact fun hfalse => hfirst ⟨hcall, hfalse⟩
          rw [hlanded]
          exact Nat.succ_pos _
        · omega
      have hgone := hobjects k hk
      rw [hkeys, List.cons_append, ← Nat.succ_pred_eq_of_pos hsome, List.take_succ_cons,
        if_pos List.mem_cons_self, ← completeMultipartUpload_bucket] at hgone
      have hthere := hstill k hk
      rw [hgone] at hthere
      cases hthere

/-- **The fault is in none of the deletes, or nothing has been deleted yet.** -/
theorem retrySafe_iff (hclient : client.Faithful objects) (key uploadId : String) (fault : Fault)
    (parts : List (ℕ × String)) (bucket : σ) :
    RetrySafe client objects key uploadId fault parts bucket ↔
      (parts ≠ [] → (∀ part ∈ parts, (objects bucket (partKey key uploadId part.1)).isSome) →
        fault.Harmless parts.length) := by
  rw [forall_stored_iff]
  constructor
  · intro hsafe hne hstored
    by_contra hharm
    exact not_retrySafe hclient hne hstored hharm hsafe
  · intro h
    by_cases hne : parts = []
    · subst hne
      exact .inr fun hmade => absurd hmade (not_assembles_nil hclient _)
    · by_cases hstored : ∀ k ∈ orderedPartKeys key uploadId parts, (objects bucket k).isSome
      · exact retrySafe_of_harmless hclient hne hstored (h hne hstored)
      · exact .inr fun hmade => absurd (stored_of_assembles hclient hne hmade) hstored

end Retry

/-- Two parts, and a bucket that has them. -/
def twoParts : List (ℕ × String) := [(1, "a"), (2, "b")]

def twoPartsBucket : ListedBucket :=
  ((ListedBucket.empty.store (partKey "f" "u" 1) [1]).store (partKey "f" "u" 2) [2])

theorem twoPartsBucket_stored : ∀ part ∈ twoParts,
    (twoPartsBucket.objects (partKey "f" "u" part.1)).isSome := by
  have hone : (twoPartsBucket.objects (partKey "f" "u" 1)).isSome := by decide
  have htwo : (twoPartsBucket.objects (partKey "f" "u" 2)).isSome := by decide
  exact List.forall_mem_cons.mpr ⟨hone, List.forall_mem_singleton.mpr htwo⟩

/-- The second delete fails: the first part is gone, and the completion can never be made. -/
theorem completion_not_retrySafe : ¬ RetrySafe ListedBucket.client ListedBucket.objects "f" "u"
    ⟨2, .other "503 Service Unavailable", false⟩ twoParts twoPartsBucket := by
  refine not_retrySafe ListedBucket.client_faithful (List.cons_ne_nil _ _)
    (forall_stored_iff.mp twoPartsBucket_stored) ?_
  simp [Fault.Harmless, compositions, twoParts]

theorem retrySafe_iff_two : RetrySafe ListedBucket.client ListedBucket.objects "f" "u"
      ⟨0, .other "503 Service Unavailable", true⟩ twoParts twoPartsBucket ↔
    (twoParts ≠ [] → (∀ part ∈ twoParts,
        (twoPartsBucket.objects (partKey "f" "u" part.1)).isSome) →
      Fault.Harmless ⟨0, .other "503 Service Unavailable", true⟩ 2) :=
  retrySafe_iff ListedBucket.client_faithful "f" "u" _ _ _

end FileNest
