import FileNest.Storage.Buckets
import FileNest.Uploads.Admission
import FileNest.Uploads.Sessions
import Mathlib.Logic.Relation

/-!
# Storage that is not live

The status of a storage configuration says whether it is live: new credentials wait for
verification, and a failed probe takes it away again.  Nobody who builds a provider looks
at it.  An upload or a part URL is refused for a configuration that is not active exactly
if it lacks something that it would need of an active one.

## Main definitions

* `StorageInactive` — a project's configuration is not active.
* `ServiceCall.IssuesUrl` — a call answers with a URL to write to the bucket.
* `UrlServed` — such a call finds all it needs.
* `StorageGated`, `InactiveUnserved` — no URL for an inactive configuration; no call that
  finds all it needs.
* `ServiceCall.Verifies` — a verification that succeeds.

## Main results

* `ServiceCall.issuesUrl_iff` — one call.
* `StorageInactive.commit` — only a verification makes a configuration active.
* `storage_gated_iff` — **in every reachable state storage is gated exactly if calls for
  inactive storage lack something else; a change leaves it inactive until the next
  verification.**
* `unverified_upload` — an upload to storage whose credentials nobody has verified.
-/

namespace FileNest

open RowStore ReadCommitted

/-- The configuration of the project is on record and is not active. -/
def StorageInactive (db : Database) (projectId : String) : Prop :=
  ∃ s ∈ db .storageConfigs, StorageConfig.projectId s = projectId ∧ s.status ≠ "active"

instance (db : Database) (projectId : String) : Decidable (StorageInactive db projectId) :=
  inferInstanceAs (Decidable (∃ s ∈ db .storageConfigs,
    StorageConfig.projectId s = projectId ∧ StorageConfig.status s ≠ "active"))

/-- The routes that answer with a URL to write to the bucket. -/
def Operation.issuesUrl : Operation → Bool
  | initUpload _ | multipartPartUrl _ _ _ => true
  | _ => false

/-- A call that has read `snapshot` answers with a URL if it commits to `db`. -/
def ServiceCall.IssuesUrl (c : ServiceCall) (snapshot db : Database) : Prop :=
  c.op.issuesUrl = true ∧ ∃ r, (commit db (c.result snapshot)).1 = .ok r

/-- What a call for a URL needs of what it read, and of the database it commits to: the ids it
draws are free there. -/
inductive UrlServed (ctx : TenantContext) (env : Env) (snapshot db : Database)
    (projectId : String) : Operation → Prop
  | init {req : UploadInitRequest} {config : ProjectConfig} {provider : StorageProvider}
      {url : String} (hadmits : ProjectAdmits ctx env snapshot projectId req.filename
        req.contentType req.sizeBytes config provider)
      (htoken : ctx.isUploadToken = true → TokenAllows ctx req.sizeBytes req.contentType)
      (hurl : env.storage.generatePresignedUploadUrl provider
        (storageKey ctx.organizationId projectId (env.uuid4 0)) req.contentType req.sizeBytes
        (resolveTtl config none) = .ok url)
      (hfile : ∀ f ∈ db .files, File.id f ≠ env.uuid4 0)
      (hevent : ∀ m ∈ db .outboxMessages, OutboxMessage.id m ≠ env.uuid4 1) :
      UrlServed ctx env snapshot db projectId (.initUpload req)
  | partUrl {s : UploadSession} {part ttl : ℕ} (hs : s ∈ snapshot .uploadSessions)
      (hserved : Served ctx env snapshot projectId s (.multipartPartUrl s.id part ttl)) :
      UrlServed ctx env snapshot db projectId (.multipartPartUrl s.id part ttl)

/-! ### One call -/

theorem commit_eq_ok {db : Database} {x : ServiceResult} {r : Response} :
    (commit db x).1 = .ok r ↔ ∃ ws, x = .ok (r, ws) ∧ Admissible ws db := by
  rcases x with e | ⟨r', ws⟩
  · simp [commit]
  · simp only [commit]
    split
    · rename_i hadm
      simp [hadm]
    · rename_i hadm
      simp [hadm]

section OneCall

variable {ctx : TenantContext} {env : Env} {snapshot db : Database} {projectId : String}

theorem initUpload_answers_iff {req : UploadInitRequest} :
    (∃ r, (commit db (FileService.initUpload ctx env snapshot projectId req)).1 = .ok r)
      ↔ UrlServed ctx env snapshot db projectId (.initUpload req) := by
  constructor
  · rintro ⟨r, h⟩
    obtain ⟨ws, h, hadm⟩ := commit_eq_ok.mp h
    obtain ⟨config, provider, url, hadmits, htoken, hurl, -, rfl⟩ :=
      FileService.initUpload_eq_ok.mp h
    exact .init hadmits htoken hurl hadm.1 hadm.2.1
  · intro h
    cases h with
    | init hadmits htoken hurl hfile hevent =>
      refine ⟨_, commit_eq_ok.mpr ⟨_, FileService.initUpload_eq_ok.mpr
        ⟨_, _, _, hadmits, htoken, hurl, rfl, rfl⟩, hfile, hevent, trivial⟩⟩

theorem partUrl_answers_iff (hsnap : snapshot.Good) {uploadId : String} {part ttl : ℕ} :
    (∃ r, (commit db (MultipartUploadService.partUrl ctx env snapshot projectId uploadId part
        (some ttl))).1 = .ok r)
      ↔ UrlServed ctx env snapshot db projectId (.multipartPartUrl uploadId part ttl) := by
  constructor
  · rintro ⟨r, h⟩
    obtain ⟨ws, h, -⟩ := commit_eq_ok.mp h
    have hsession : ∃ session, UploadSessionRepository.get snapshot uploadId ctx.organizationId
        = .ok session := by
      obtain ⟨session, hsession, -⟩ := bind_eq_ok.mp h
      exact ⟨session, hsession⟩
    obtain ⟨session, hsession⟩ := hsession
    obtain ⟨hmem, rfl, -⟩ := UploadSessionRepository.of_get hsession
    exact .partUrl hmem ((partUrl_served_iff hsnap hmem part ttl).mp ⟨_, h⟩)
  · intro h
    cases h with
    | partUrl hs hserved =>
      obtain ⟨⟨r, ws⟩, h⟩ := (partUrl_served_iff hsnap hs part ttl).mpr hserved
      have hws : ws = [] := by
        simp only [MultipartUploadService.partUrl, readOnly, bind_eq_ok, pure_eq_ok,
          Prod.mk.injEq] at h
        obtain ⟨_, -, _, -, _, -, _, -, _, -, -, rfl⟩ := h
        rfl
      exact ⟨r, commit_eq_ok.mpr ⟨ws, h, by rw [hws]; trivial⟩⟩

/-- **A call answers with a URL exactly if it finds what it needs**, whatever the status. -/
theorem ServiceCall.issuesUrl_iff {c : ServiceCall} (hsnap : snapshot.Good) :
    c.IssuesUrl snapshot db ↔ UrlServed c.ctx c.env snapshot db c.projectId c.op := by
  obtain ⟨ctx, env, projectId, op⟩ := c
  cases op with
  | initUpload req => exact (and_iff_right rfl).trans initUpload_answers_iff
  | multipartPartUrl uploadId part ttl =>
    exact (and_iff_right rfl).trans (partUrl_answers_iff hsnap)
  | _ => exact ⟨fun h => (by cases h.1), fun h => (by cases h)⟩

end OneCall

/-! ### What makes a configuration active -/

/-- The call, on what it read, is a verification of the project that succeeds. -/
def ServiceCall.Verifies (c : ServiceCall) (snapshot : Database) (projectId : String) : Prop :=
  c.op = .verifyStorage ∧ c.projectId = projectId
    ∧ ∃ latencyMs ws, c.result snapshot = .ok (.storageVerify true latencyMs none, ws)

/-- No verification of the project succeeds. -/
def Unverified (projectId : String) : Guard Table.Row ServiceCall := fun _ c snapshot =>
  ¬c.Verifies snapshot projectId

/-- An update that read `pending_verification` commits to storage that is not active: no
verification has come between. -/
def ServiceCall.ReadsStatus (c : ServiceCall) (snapshot db : Database) : Prop :=
  ∀ loaded, StorageConfigRepository.getForProject snapshot c.projectId c.ctx.organizationId
    = .ok loaded → loaded.status = "pending_verification" → StorageInactive db c.projectId

section Status

variable {c : ServiceCall} {snapshot db : Database} {r : Response} {ws : List DbWrite}
  {projectId : String}

/-- The configuration a call loaded is the one with its id, in the same project. -/
theorem KeepsStorage.projectId_eq (hkeeps : KeepsStorage snapshot db) (hdb : db.Good)
    {loaded s : StorageConfig} (hloaded : loaded ∈ snapshot .storageConfigs)
    (hs : s ∈ db .storageConfigs) (hid : s.id = loaded.id) : s.projectId = loaded.projectId := by
  obtain ⟨s', hs', hid', hproject, -⟩ := hkeeps loaded hloaded
  obtain rfl : s = s' := hdb.uniquePk.eq_of_pk (t := .storageConfigs) hs hs' (hid.trans hid'.symm)
  exact hproject

theorem StorageConfigService.verify_answers {ctx : TenantContext} {env : Env}
    {loaded : StorageConfig} {provider : StorageProvider}
    (hloaded : StorageConfigRepository.getForProject snapshot projectId ctx.organizationId
      = .ok loaded) (hbuild : buildProvider env.settings env.crypto loaded = .ok provider)
    (hprobe : probe env provider (probeKey loaded.organizationId loaded.projectId) = .ok ()) :
    ∃ ws, verify ctx env snapshot projectId = .ok (.storageVerify true env.latencyMs none, ws) := by
  obtain ⟨-, hp, ho⟩ := StorageConfigRepository.of_getForProject hloaded
  rw [ho, hp] at hprobe
  refine ⟨[loaded.save (StorageConfigRepository.updateStatus loaded "active" (some env.now))
    env.now], ?_⟩
  simp only [verify, bind_eq_ok]
  refine ⟨loaded, hloaded, provider, hbuild, ?_⟩
  rw [hprobe]
  rfl

/-- **Only a verification makes a configuration active.** -/
theorem StorageInactive.commit (h : StorageInactive db projectId) (hdb : db.Good)
    (hsnap : snapshot.Good) (hkeeps : KeepsStorage snapshot db)
    (hr : c.result snapshot = .ok (r, ws)) (hnot : ¬c.Verifies snapshot projectId) :
    StorageInactive (applyAll ws db) projectId := by
  obtain ⟨s, hs, hproject, hstatus⟩ := h
  obtain ⟨ctx, env, target, op⟩ := c
  have heffect : StorageEffect ctx env snapshot target op ws := Operation.storageEffect hsnap hr
  cases heffect with
  | none hws =>
    refine ⟨s, ?_, hproject, hstatus⟩
    rwa [applyAll_of_table_ne fun w hw => (hws w hw).1]
  | project =>
    refine ⟨s, ?_, hproject, hstatus⟩
    rwa [applyAll_of_table_ne (by simp [Project.save])]
  | create hid hproject' horg henv hbucket =>
    refine ⟨s, ?_, hproject, hstatus⟩
    rw [applyAll_create_storageConfigs]
    exact List.mem_append_left _ hs
  | save hloaded hchange =>
    rename_i loaded new
    refine ⟨if s.id = loaded.id then (loaded.flush new env.now).toFun s else s, ?_, ?_, ?_⟩
    · rw [applyAll_saveStorage]
      exact List.mem_map_of_mem hs
    · split <;> exact hproject
    split
    swap
    · exact hstatus
    rename_i hid
    obtain ⟨hmem, hloadedProject, -⟩ := StorageConfigRepository.of_getForProject hloaded
    have hsame := hkeeps.projectId_eq hdb hmem hs hid
    rw [StorageConfig.flush_status]
    intro hactive
    -- the status is written
    obtain ⟨hnew, hwritten⟩ := flushColumn_written hactive hstatus
    cases hchange with
    | update req blob sse kms => exact absurd hnew (by simp [StorageConfigRepository.update])
    | verified provider hbuild hprobe =>
      obtain ⟨ws', hverify⟩ := StorageConfigService.verify_answers hloaded hbuild hprobe
      exact hnot ⟨rfl, (hloadedProject.symm.trans (hsame.symm.trans hproject)), _, ws', hverify⟩
    | unverified => exact absurd hnew (by simp [StorageConfigRepository.updateStatus])
    | sse sseEnabled => exact hwritten rfl

/-- **What an update leaves is inactive exactly if the status it read is current**, as far as
a verification goes. -/
theorem ServiceCall.update_inactive_iff (hkeeps : KeepsStorage snapshot db)
    {req : StorageConfigUpdateRequest} (hop : c.op = .updateStorageConfig req)
    (hr : c.result snapshot = .ok (r, ws)) :
    StorageInactive (applyAll ws db) c.projectId ↔ c.ReadsStatus snapshot db := by
  obtain ⟨ctx, env, projectId, op⟩ := c
  obtain rfl : op = .updateStorageConfig req := hop
  obtain ⟨loaded, blob, sse, kms, hloaded, rfl⟩ := StorageConfigService.updateConfig_writes hr
  obtain ⟨hmem, hproject, -⟩ := StorageConfigRepository.of_getForProject hloaded
  simp only [ReadsStatus, hloaded, Except.ok.injEq, forall_eq', StorageInactive,
    applyAll_saveStorage, List.mem_map]
  constructor
  · rintro ⟨_, ⟨s, hs, rfl⟩, hsproject, hstatus⟩ hpending
    refine ⟨s, hs, ?_, ?_⟩
    · split at hsproject <;> exact hsproject
    · split at hstatus
      · rw [StorageConfig.flush_status, hpending] at hstatus
        rwa [StorageConfigRepository.update, flushColumn_self] at hstatus
      · exact hstatus
  · intro h
    by_cases hpending : loaded.status = "pending_verification"
    · obtain ⟨s, hs, hsproject, hstatus⟩ := h hpending
      refine ⟨_, ⟨s, hs, rfl⟩, ?_, ?_⟩
      · split <;> exact hsproject
      · split
        · rw [StorageConfig.flush_status, hpending]
          rwa [StorageConfigRepository.update, flushColumn_self]
        · exact hstatus
    · -- the status is written
      obtain ⟨s, hs, hid, hsproject, -⟩ := hkeeps loaded hmem
      refine ⟨_, ⟨s, hs, rfl⟩, ?_, ?_⟩
      · rw [if_pos hid]
        exact hsproject.trans hproject
      · rw [if_pos hid]
        rw [StorageConfig.flush_status, flushColumn, StorageConfigRepository.update,
          if_neg (Ne.symm hpending)]
        show "pending_verification" ≠ "active"
        decide

/-- An update inserts nothing. -/
theorem ServiceCall.update_admissible {req : StorageConfigUpdateRequest}
    (hop : c.op = .updateStorageConfig req) (hr : c.result snapshot = .ok (r, ws)) :
    Admissible ws db := by
  obtain ⟨ctx, env, projectId, op⟩ := c
  obtain rfl : op = .updateStorageConfig req := hop
  obtain ⟨loaded, blob, sse, kms, -, rfl⟩ := StorageConfigService.updateConfig_writes hr
  exact ⟨trivial, trivial⟩

end Status

/-! ### Runs -/

/-- No call on the project that is in flight would answer with a URL now. -/
def NoUrl (w : World Table.Row ServiceCall) (projectId : String) : Prop :=
  ∀ x ∈ w.inflight, x.1.projectId = projectId → ¬x.1.IssuesUrl x.2 w.store

/-- No URL is issued for a configuration that is not active. -/
def StorageGated (w : World Table.Row ServiceCall) : Prop :=
  ∀ projectId, StorageInactive w.store projectId → NoUrl w projectId

/-- **The condition**: calls for inactive storage lack something else they need. -/
def InactiveUnserved (w : World Table.Row ServiceCall) : Prop :=
  ∀ x ∈ w.inflight, StorageInactive w.store x.1.projectId →
    ¬UrlServed x.1.ctx x.1.env x.2 w.store x.1.projectId x.1.op

/-- The commit of an update of the storage configuration. -/
inductive UpdatesStorage (c : ServiceCall) (snapshot : Database) :
    World Table.Row ServiceCall → World Table.Row ServiceCall → Prop
  | commit (db : Database) (pre post : List (ServiceCall × Database))
      {req : StorageConfigUpdateRequest} {ws : List DbWrite} (hop : c.op = .updateStorageConfig req)
      (hws : c.writes snapshot = some ws) :
      UpdatesStorage c snapshot ⟨db, pre ++ (c, snapshot) :: post⟩ ⟨applyAll ws db, pre ++ post⟩

/-- What holds of the database, and of what the transactions in flight have read. -/
structure ReadsStorage (w : World Table.Row ServiceCall) : Prop where
  good : Database.Good w.store
  snapshots : ∀ x ∈ w.inflight, Database.Good x.2 ∧ KeepsReferenced refs x.2 w.store
    ∧ KeepsStorage x.2 w.store

section Runs

variable {commits : Guard Table.Row ServiceCall} {w w' : World Table.Row ServiceCall}

theorem KeepsStorage.trans {a b c : Database} (hab : KeepsStorage a b) (hbc : KeepsStorage b c) :
    KeepsStorage a c := by
  intro s hs
  obtain ⟨s', hs', hid, hproject, hmode⟩ := hab s hs
  obtain ⟨s'', hs'', hid', hproject', hmode'⟩ := hbc s' hs'
  exact ⟨s'', hs'', hid'.trans hid, hproject'.trans hproject, hmode'.trans hmode⟩

theorem ReadsStorage.init {db : Database} (hdb : db.Good) : ReadsStorage ⟨db, []⟩ :=
  ⟨hdb, fun x hx => by cases hx⟩

theorem ReadsStorage.step (h : ReadsStorage w) (hs : Step ServiceCall.writes commits w w') :
    ReadsStorage w' := by
  cases hs with
  | read c =>
    refine ⟨h.good, fun x hx => ?_⟩
    rcases List.mem_cons.mp hx with rfl | hx
    · exact ⟨h.good, .refl _, fun s hs => ⟨s, hs, rfl, rfl, rfl⟩⟩
    · exact h.snapshots x hx
  | rollback pre post => exact ⟨h.good, fun x hx => h.snapshots x (mem_of_mem_erase hx)⟩
  | commit pre post hrun hadm hc =>
    obtain ⟨hsnap, hread, -⟩ := h.snapshots _ (List.mem_append_right _ List.mem_cons_self)
    obtain ⟨r, hr⟩ := ServiceResult.writes_eq_some.mp hrun
    obtain ⟨hgood, hkeeps⟩ := h.good.commit hread (ServiceCall.resolved hsnap hrun) hadm
    refine ⟨hgood, fun x hx => ?_⟩
    obtain ⟨hsnap', hread', hstorage⟩ := h.snapshots x (mem_of_mem_erase hx)
    exact ⟨hsnap', hread'.trans hkeeps,
      hstorage.trans ((Operation.storageEffect hsnap hr).keepsStorage _)⟩

theorem ReadsStorage.reachable
    (hw : Reachable ServiceCall.writes commits (· = Database.empty) w) : ReadsStorage w := by
  induction hw with
  | init h =>
    obtain rfl := h
    exact .init Database.good_empty
  | step _ hs ih => exact ih.step hs

/-- A step that verifies nothing leaves inactive storage inactive. -/
theorem StorageInactive.step {projectId : String} (hw : ReadsStorage w)
    (h : StorageInactive w.store projectId)
    (hs : Step ServiceCall.writes (Unverified projectId) w w') :
    StorageInactive w'.store projectId := by
  cases hs with
  | read c => exact h
  | rollback pre post => exact h
  | commit pre post hrun hadm hc =>
    obtain ⟨hsnap, -, hkeeps⟩ := hw.snapshots _ (List.mem_append_right _ List.mem_cons_self)
    obtain ⟨r, hr⟩ := ServiceResult.writes_eq_some.mp hrun
    exact h.commit hw.good hsnap hkeeps hr hc

/-- Storage stays inactive while nobody verifies it. -/
theorem StorageInactive.run {projectId : String} (hw : ReadsStorage w)
    (h : StorageInactive w.store projectId)
    (hrun : Relation.ReflTransGen (Step ServiceCall.writes (Unverified projectId)) w w') :
    ReadsStorage w' ∧ StorageInactive w'.store projectId := by
  induction hrun with
  | refl => exact ⟨hw, h⟩
  | tail _ hs ih => exact ⟨ih.1.step hs, ih.2.step ih.1 hs⟩

/-- In flight, calls answer with URLs exactly if they find what they need. -/
theorem ReadsStorage.gated_iff (hw : ReadsStorage w) : StorageGated w ↔ InactiveUnserved w := by
  constructor
  · intro h x hx hinactive hserved
    exact h _ hinactive x hx rfl ((ServiceCall.issuesUrl_iff (hw.snapshots x hx).1).mpr hserved)
  · rintro h _ hinactive x hx rfl hissues
    exact h x hx hinactive ((ServiceCall.issuesUrl_iff (hw.snapshots x hx).1).mp hissues)

/-- **Storage is gated exactly if calls for inactive storage lack something else**, in every
reachable state.  A change makes storage inactive exactly if the status it read is current,
and then no URL is issued before the next verification, in runs that meet the condition. -/
theorem storage_gated_iff
    (hw : Reachable ServiceCall.writes .always (· = Database.empty) w) :
    (StorageGated w ↔ InactiveUnserved w)
      ∧ ∀ c snapshot w₁, UpdatesStorage c snapshot w w₁ →
        (StorageInactive w₁.store c.projectId ↔ c.ReadsStatus snapshot w.store)
        ∧ (c.ReadsStatus snapshot w.store → ∀ w₂,
          Relation.ReflTransGen (Step ServiceCall.writes (Unverified c.projectId)) w₁ w₂ →
          StorageInactive w₂.store c.projectId
            ∧ (InactiveUnserved w₂ → NoUrl w₂ c.projectId)) := by
  have hreads := ReadsStorage.reachable hw
  refine ⟨hreads.gated_iff, fun c snapshot w₁ hupdate => ?_⟩
  cases hupdate with
  | commit db pre post hop hws =>
    obtain ⟨-, -, hkeeps⟩ := hreads.snapshots _ (List.mem_append_right _ List.mem_cons_self)
    obtain ⟨r, hr⟩ := ServiceResult.writes_eq_some.mp hws
    have hiff := ServiceCall.update_inactive_iff hkeeps hop hr
    refine ⟨hiff, fun hcurrent w₂ hrun => ?_⟩
    have hadm : Admissible _ db := ServiceCall.update_admissible hop hr
    have hstep : Step ServiceCall.writes .always _ ⟨applyAll _ db, pre ++ post⟩ :=
      .commit pre post hws hadm trivial
    obtain ⟨hreads₂, hinactive⟩ := (hiff.mpr hcurrent).run (hreads.step hstep) hrun
    exact ⟨hinactive, fun hcond => hreads₂.gated_iff.mpr hcond _ hinactive⟩

end Runs

/-- Storage with the customer's credentials. -/
def customerEnv (tag : String) (now : ℕ) : Env :=
  { devEnv tag now with
    crypto :=
      { encrypt := fun _ => .ok "blob"
        decrypt := fun _ =>
          .ok [("access_key_id", .str "key"), ("secret_access_key", .str "secret")] } }

/-- A project on a customer's storage. -/
def customerProject : List ServiceCall :=
  [⟨orgContext "acme", customerEnv "p" 1, "", .createProject
    { devProject with storageMode := "byob", storageMode_mem := by decide }⟩]

/-- Its credentials. -/
def customerUpdate : ServiceCall :=
  ⟨orgContext "acme", customerEnv "u" 2, "p0", .updateStorageConfig devBucket⟩

/-- The first upload. -/
def customerUpload : ServiceCall :=
  ⟨orgContext "acme", customerEnv "f" 3, "p0", .initUpload
    { filename := "a.txt", contentType := "text/plain", sizeBytes := 1 }⟩

/-- An upload that has read no credentials gets no URL; they are to be verified when they have been
saved. -/
theorem storage_gated_update :
    let db := runAll customerProject Database.empty
    StorageInactive db "p0" ∧ StorageGated ⟨db, [(customerUpload, db), (customerUpdate, db)]⟩
      ∧ StorageInactive (commit db (customerUpdate.result db)).2 "p0" := by
  have hrun := reachable_runAll .always (fun _ _ => trivial) customerProject (.init rfl)
  have hgated := storage_gated_iff ((hrun.step (.read customerUpdate)).step (.read customerUpload))
  refine ⟨by decide, hgated.1.mpr fun x hx _ hserved => ?_, ?_⟩
  · rcases List.mem_cons.mp hx with rfl | hx
    · cases hserved with
      | init hadmits htoken hurl hfile hevent => cases hadmits.provider_eq
    · obtain rfl := List.mem_singleton.mp hx
      cases hserved
  · have hupdate := hgated.2 customerUpdate _ _ (.commit _ [(customerUpload, _)] [] rfl rfl)
    exact hupdate.1.mpr fun _ _ _ => by decide

/-- They are not verified, and an upload goes ahead. -/
theorem unverified_upload :
    ¬∀ w : World Table.Row ServiceCall,
      Reachable ServiceCall.writes .always (· = Database.empty) w → StorageGated w := by
  intro h
  have hrun := reachable_runAll .always (fun _ _ => trivial) (customerProject ++ [customerUpdate])
    (.init rfl)
  have hgated := h _ (hrun.step (.read customerUpload)) "p0" (by decide)
  exact hgated (customerUpload, _) List.mem_cons_self rfl ⟨rfl, _, rfl⟩

end FileNest
