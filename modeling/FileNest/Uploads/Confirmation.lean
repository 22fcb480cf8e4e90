import FileNest.Uploads.Settlement
import FileNest.Versioning

/-!
# Confirming again

Nothing tells a retried confirmation from one that follows a new upload to the same key:
`confirm_upload` does not look at the status of the file, and every call that answers is a
confirmed upload of its own.  What a number of them comes to is said here.

## Main definitions

* `confirmations`, `answered` — confirmations of a file, and how many of them answer.
* `File.confirmed` — a file after some confirmations.
* `Confirmed` — what a number of confirmations does to the database.

## Main results

* `Confirmed.trans` — confirmations add up.
* `confirmations_confirmed` — **what any sequence of confirmations does.**
* `confirmed_again` — a confirmation that is not without effect.
-/

namespace FileNest

open RowStore

/-- Confirmations of a file, whoever calls. -/
def confirmations (fileId : String) (callers : List (TenantContext × Env × String)) :
    List ServiceCall :=
  callers.map fun (ctx, env, projectId) => ⟨ctx, env, projectId, .confirmUpload fileId⟩

/-- How many of the calls answer, one run after the other. -/
def answered : List ServiceCall → Database → ℕ
  | [], _ => 0
  | c :: calls, db =>
      match commit db (c.result db) with
      | (.ok _, db') => answered calls db' + 1
      | (.error _, db') => answered calls db'

section Calls

variable {c : ServiceCall} {db db' : Database}

theorem answered_cons_ok {r : Response} (h : commit db (c.result db) = (.ok r, db'))
    (calls : List ServiceCall) : answered (c :: calls) db = answered calls db' + 1 := by
  rw [answered, h]

theorem answered_cons_error {e : ApiError} (h : commit db (c.result db) = (.error e, db'))
    (calls : List ServiceCall) : answered (c :: calls) db = answered calls db' := by
  rw [answered, h]

theorem runAll_cons {x : Except ApiError Response} (h : commit db (c.result db) = (x, db'))
    (calls : List ServiceCall) : runAll (c :: calls) db = runAll calls db' := by
  rw [runAll, h]

end Calls

/-- A file after some confirmations, the last of them at a time. -/
def File.confirmed (f : File) (config : ProjectConfig) (k now : ℕ) : File :=
  { f with
    status := settledStatus config
    versionCount := f.versionCount + bif (confirmVersion config f).isSome then k else 0
    updatedAt := now }

/-- What a number of confirmations does: the file takes the status the configuration asks
for, each confirmation adds an event and, with versioning on and a key to make a version of,
a version with the next number; nothing else changes. -/
structure Confirmed (config : ProjectConfig) (f : File) (k now : ℕ) (db db' : Database) : Prop where
  files : db' .files = (db .files).map fun (g : File) =>
    if g.id = f.id then f.confirmed config k now else g
  versions : ∃ vs : List FileVersion, db' .fileVersions = db .fileVersions ++ vs
    ∧ vs.map FileVersion.versionNumber = List.range' (f.versionCount + 1)
      (bif (confirmVersion config f).isSome then k else 0)
    ∧ ∀ v ∈ vs, v.fileId = f.id ∧ some v.storageKey = f.storageKey ∧ v.sizeBytes = f.sizeBytes
  events : ∃ es : List OutboxMessage, db' .outboxMessages = db .outboxMessages ++ es
    ∧ es.length = k
    ∧ ∀ e ∈ es, ∃ (ctx : TenantContext) (id : String) (now : ℕ),
      ctx.organizationId = f.organizationId ∧ e = settleEvent ctx f.projectId config f id now
  others : ∀ t, t ∉ [Table.fileVersions, .files, .outboxMessages] → db' t = db t

section Confirm

variable {config : ProjectConfig} {f : File} {db db₁ db₂ : Database}

theorem confirmed_confirmed (k n now later : ℕ) :
    (f.confirmed config k now).confirmed config n later = f.confirmed config (k + n) later := by
  have hcount : (f.versionCount + bif (confirmVersion config f).isSome then k else 0)
        + (bif (confirmVersion config f).isSome then n else 0)
      = f.versionCount + bif (confirmVersion config f).isSome then k + n else 0 := by
    cases (confirmVersion config f).isSome <;> simp [Nat.add_assoc]
  exact congrArg (fun count => ({ f with
    status := settledStatus config
    versionCount := count
    updatedAt := later } : File)) hcount

/-- What a confirmation saves. -/
theorem settled_eq_confirmed (now : ℕ) :
    f.settled (confirmVersion config f) (settledStatus config) now = f.confirmed config 1 now := by
  rw [File.confirmed]
  cases confirmVersion config f <;> rfl

/-- **Confirmations add up.** -/
theorem Confirmed.trans {k n now later : ℕ} (h : Confirmed config f k now db db₁)
    (hnext : Confirmed config (f.confirmed config k now) n later db₁ db₂) :
    Confirmed config f (k + n) later db db₂ := by
  have hversion : confirmVersion config (f.confirmed config k now) = confirmVersion config f := rfl
  obtain ⟨vs, hvs, hnumbers, hrows⟩ := h.versions
  obtain ⟨vs', hvs', hnumbers', hrows'⟩ := hnext.versions
  obtain ⟨es, hes, hcount, hevents⟩ := h.events
  obtain ⟨es', hes', hcount', hevents'⟩ := hnext.events
  rw [hversion] at hnumbers'
  constructor
  · rw [hnext.files, h.files, List.map_map]
    refine List.map_congr_left fun (g : File) _ => ?_
    simp only [Function.comp]
    by_cases hg : g.id = f.id
    · -- the row was confirmed before
      rw [if_pos hg, if_pos hg, confirmed_confirmed]
      exact if_pos rfl
    · rw [if_neg hg, if_neg hg]
      exact if_neg hg
  · refine ⟨vs ++ vs', by rw [hvs', hvs, List.append_assoc], ?_, ?_⟩
    · rw [List.map_append, hnumbers, hnumbers']
      simp only [File.confirmed]
      cases (confirmVersion config f).isSome with
      | false => rfl
      | true =>
        simp only [cond_true]
        -- the numbers go on where the first ones end
        rw [Nat.add_right_comm f.versionCount k 1, List.range'_append_1]
    · intro v hv
      rcases List.mem_append.mp hv with hv | hv
      · exact hrows v hv
      · exact hrows' v hv
  · refine ⟨es ++ es', by rw [hes', hes, List.append_assoc],
      by rw [List.length_append, hcount, hcount'], ?_⟩
    intro e he
    rcases List.mem_append.mp he with he | he
    · exact hevents e he
    · exact hevents' e he
  · exact fun t ht => (hnext.others t ht).trans (h.others t ht)

/-- What one confirmation does that answers. -/
theorem Confirmed.of_confirmUpload {ctx : TenantContext} {env : Env} {projectId : String}
    {r : Response} {ws : List DbWrite} (hdb : db.Good) (hf : f ∈ db .files)
    (h : FileService.confirmUpload ctx env db projectId f.id = .ok (r, ws)) :
    ∃ config, ProjectConfigRepository.getForProject db f.projectId f.organizationId = .ok config
      ∧ Confirmed config f 1 env.now db (applyAll ws db) := by
  obtain ⟨record, config, hrecord, hconfig, -, rfl⟩ := FileService.confirmUpload_eq_ok.mp h
  obtain ⟨hmem, hid, ho, hp, hlive⟩ := FileRepository.of_get hrecord
  -- the row the call loads is the file
  obtain rfl : record = f := hdb.uniquePk.eq_of_pk (t := .files) hmem hf hid
  subst hp
  rw [← ho] at hconfig
  refine ⟨config, hconfig, ?_⟩
  constructor
  · rw [applyAll_settleWrites_files]
    refine List.map_congr_left fun (g : File) hg => ?_
    by_cases hgid : g.id = record.id
    · obtain rfl : g = record := hdb.uniquePk.eq_of_pk (t := .files) hg hmem hgid
      rw [if_pos rfl, if_pos rfl, flush_settled, settled_eq_confirmed]
    · rw [if_neg hgid, if_neg hgid]
  · refine ⟨_, applyAll_settleWrites_fileVersions _ _ _ _ _ _ _, ?_, ?_⟩
    · cases confirmVersion config record <;> rfl
    · intro v hv
      obtain ⟨key, hkey, rfl⟩ := Option.map_eq_some_iff.mp (Option.mem_toList.mp hv)
      exact ⟨rfl, (confirmVersion_eq_some hkey).symm, rfl⟩
  · refine ⟨_, applyAll_settleWrites_outboxMessages _ _ _ _ _ _ _, rfl, ?_⟩
    intro e he
    rw [List.mem_singleton.mp he]
    exact ⟨ctx, _, _, ho.symm, rfl⟩
  · intro t ht
    refine applyAll_of_table_ne (fun w hw heq => ht ?_) db
    rw [← heq]
    exact mem_settleWrites_table _ _ _ _ _ _ hw

/-- A confirmation that runs alone answers and confirms the file once, or does nothing. -/
theorem confirmation_cases (ctx : TenantContext) (env : Env) (projectId : String) (hdb : db.Good)
    (hf : f ∈ db .files) :
    (∃ e, commit db (FileService.confirmUpload ctx env db projectId f.id) = (.error e, db))
      ∨ ∃ r db' config, commit db (FileService.confirmUpload ctx env db projectId f.id)
        = (.ok r, db')
        ∧ ProjectConfigRepository.getForProject db f.projectId f.organizationId = .ok config
        ∧ Confirmed config f 1 env.now db db' := by
  rcases hx : FileService.confirmUpload ctx env db projectId f.id with e | ⟨r, ws⟩
  · exact Or.inl ⟨e, rfl⟩
  · by_cases hadm : Admissible ws db
    · obtain ⟨config, hconfig, hconfirmed⟩ := Confirmed.of_confirmUpload hdb hf hx
      refine Or.inr ⟨r, applyAll ws db, config, ?_, hconfig, hconfirmed⟩
      rw [commit, if_pos hadm]
    -- the database turns the rows away
    · refine Or.inl ⟨integrityError, ?_⟩
      rw [commit, if_neg hadm]

end Confirm

/-- **What any sequence of confirmations does**: in every reachable database, for every file,
whatever its status, and every sequence of `confirm_upload` calls for it, calls that fail
change nothing, and those that answer confirm the file once each. -/
theorem confirmations_confirmed {db : Database} (h : Reached db) {f : File} (hf : f ∈ db .files)
    (callers : List (TenantContext × Env × String)) :
    answered (confirmations f.id callers) db = 0 ∧ runAll (confirmations f.id callers) db = db
      ∨ ∃ config now,
        ProjectConfigRepository.getForProject db f.projectId f.organizationId = .ok config
        ∧ 0 < answered (confirmations f.id callers) db
        ∧ Confirmed config f (answered (confirmations f.id callers) db) now db
          (runAll (confirmations f.id callers) db) := by
  induction callers generalizing db f with
  | nil => exact Or.inl ⟨rfl, rfl⟩
  | cons caller callers ih =>
    obtain ⟨ctx, env, projectId⟩ := caller
    set c : ServiceCall := ⟨ctx, env, projectId, .confirmUpload f.id⟩ with hc
    have hcons : confirmations f.id ((ctx, env, projectId) :: callers)
        = c :: confirmations f.id callers := rfl
    rw [hcons]
    rcases confirmation_cases ctx env projectId h.good hf with
      ⟨e, hcommit⟩ | ⟨r, db', config, hcommit, hconfig, hconfirmed⟩
    · -- a call that fails leaves the rest as it was
      rw [answered_cons_error (c := c) hcommit, runAll_cons (c := c) hcommit]
      exact ih h hf
    · rw [answered_cons_ok (c := c) hcommit, runAll_cons (c := c) hcommit]
      refine Or.inr ?_
      have hdb' : Reached db' := by
        have hafter := h.call ctx env projectId (.confirmUpload f.id)
        have hsnd : (commit db (FileService.confirmUpload ctx env db projectId f.id)).2 = db' :=
          congrArg Prod.snd hcommit
        exact hsnd ▸ hafter
      have hf' : f.confirmed config 1 env.now ∈ db' .files := by
        rw [hconfirmed.files]
        exact List.mem_map.mpr ⟨f, hf, if_pos rfl⟩
      rcases ih hdb' hf' with ⟨hnone, hsame⟩ | ⟨config', now, hconfig', hpos, hrest⟩
      · have hnone' : answered (confirmations f.id callers) db' = 0 := hnone
        have hsame' : runAll (confirmations f.id callers) db' = db' := hsame
        rw [hnone', hsame']
        exact ⟨config, env.now, hconfig, Nat.one_pos, hconfirmed⟩
      · -- the configuration is still the one found
        have hconfigs := hconfirmed.others .projectConfigs (by decide)
        have hsame : config' = config := by
          rw [ProjectConfigRepository.getForProject, hconfigs] at hconfig'
          exact Except.ok.inj (hconfig'.symm.trans hconfig)
        subst hsame
        refine ⟨config', now, hconfig, Nat.succ_pos _, ?_⟩
        rw [Nat.add_comm]
        exact hconfirmed.trans hrest

/-- A file confirmed once. -/
def confirmedOnce : Database := runAll (versionedUpload ++ [confirmation "x" 4]) Database.empty

/-- The file confirmed twice more. -/
theorem confirmations_confirmed_twice :
    ∃ f ∈ confirmedOnce .files, File.status f = .ready ∧ ∃ config now,
      Confirmed config f 2 now confirmedOnce (runAll (confirmations (File.id f)
        [(orgContext "acme", devEnv "y" 5, "p0"), (orgContext "acme", devEnv "z" 6, "p0")])
        confirmedOnce) := by
  have hreached : Reached confirmedOnce := reached_runAll .empty _
  have hfile : ∃ f ∈ confirmedOnce .files, File.status f = .ready
      ∧ answered (confirmations (File.id f)
        [(orgContext "acme", devEnv "y" 5, "p0"), (orgContext "acme", devEnv "z" 6, "p0")])
        confirmedOnce = 2 := by decide
  obtain ⟨f, hf, hready, hanswered⟩ := hfile
  refine ⟨f, hf, hready, ?_⟩
  rcases confirmations_confirmed hreached hf
    [(orgContext "acme", devEnv "y" 5, "p0"), (orgContext "acme", devEnv "z" 6, "p0")] with
    ⟨hnone, -⟩ | ⟨config, now, -, -, hconfirmed⟩
  · rw [hanswered] at hnone
    cases hnone
  · rw [hanswered] at hconfirmed
    exact ⟨config, now, hconfirmed⟩

/-- A file that is ready, confirmed again: another version and another event. -/
theorem confirmed_again :
    ¬∀ db, Reached db → ∀ f ∈ db .files, File.status f ≠ .pending → ∀ callers,
      let db' := runAll (confirmations (File.id f) callers) db
      (∀ f' ∈ db' .files, File.id f' = File.id f →
          File.status f' = File.status f ∧ File.versionCount f' = File.versionCount f)
        ∧ db' .fileVersions = db .fileVersions ∧ db' .outboxMessages = db .outboxMessages := by
  intro h
  have hreached : Reached confirmedOnce := reached_runAll .empty _
  have hfile : ∃ f ∈ confirmedOnce .files, File.status f ≠ .pending
      ∧ (runAll (confirmations (File.id f) [(orgContext "acme", devEnv "y" 5, "p0")])
        confirmedOnce .fileVersions).length ≠ (confirmedOnce .fileVersions).length := by decide
  obtain ⟨f, hf, hstatus, hmore⟩ := hfile
  obtain ⟨-, hversions, -⟩ := h confirmedOnce hreached f hf hstatus
    [(orgContext "acme", devEnv "y" 5, "p0")]
  exact hmore (congrArg List.length hversions)

end FileNest
