import FileNest.Projects.Flags

/-!
# Partial updates of a configuration

A client changes a project's configuration a group at a time.  In the body of such a request a
field is absent, null or a value; the schemas say that null, and the service that an empty list,
removes a limit.  The parsed body has the same default for a field that is absent and one that is
null, and both methods of the repository that store it leave such a field alone.

## Main definitions

* `BodyField` — a field of a body.
* `ConfigPatch`, `ConfigPatch.replaced` — the four requests, and what they ask for.
* `Limit`, `Limit.Unset` — the limits a configuration may have.
* `PatchApplied`, `Removable` — the request does what it asks for; some request removes a limit.

## Main results

* `limit_set_of_run` — no calls at all remove a limit that is not a list.
* `configPatch_iff` — **a request is applied iff every limit it sends as null is not set, and a
  limit can be removed iff it is a list or not set.**
-/

namespace FileNest

open RowStore

/-- A field in the body of a request. -/
inductive BodyField (α : Type) where
  | absent
  | null
  | value (a : α)
  deriving DecidableEq

namespace BodyField

variable {α : Type}

/-- The field of the parsed body: its default is `None`. -/
def parsed : BodyField α → Option α
  | absent | null => none
  | value a => some a

/-- A column that may be empty: null empties it. -/
def limit (old : Option α) : BodyField α → Option α
  | absent => old
  | null => none
  | value a => some a

/-- A list: null and the empty list empty the column. -/
def restriction (old : Option String) : BodyField (List String) → Option String
  | absent => old
  | null => none
  | value values => joinCsv values

/-- A column that is never empty. -/
def setting (old : α) : BodyField α → α
  | absent | null => old
  | value a => a

end BodyField

/-- A text the database takes. -/
def NulFree (s : String) : Prop := Char.ofNat 0 ∉ s.toList

instance (s : String) : Decidable (NulFree s) := inferInstanceAs (Decidable (_ ∉ _))

/-- Body of the update of the upload restrictions, within the schema and the columns. -/
structure UploadPatch where
  maxFileSizeBytes : BodyField ℤ := .absent
  allowedMimeTypes : BodyField (List String) := .absent
  allowedExtensions : BodyField (List String) := .absent
  maxFilesPerRequest : BodyField ℤ := .absent
  maxFileSizeBytes_mem : ∀ n ∈ maxFileSizeBytes.parsed, 1 ≤ n ∧ n ≤ 9223372036854775807 := by decide
  allowedMimeTypes_nulFree : ∀ l ∈ allowedMimeTypes.parsed, ∀ s ∈ l, NulFree s := by decide
  allowedExtensions_nulFree : ∀ l ∈ allowedExtensions.parsed, ∀ s ∈ l, NulFree s := by decide
  maxFilesPerRequest_mem : ∀ n ∈ maxFilesPerRequest.parsed, 1 ≤ n ∧ n ≤ 2147483647 := by decide

/-- Body of the update of the network security. -/
structure SecurityPatch where
  allowedIps : BodyField (List String) := .absent
  allowedOrigins : BodyField (List String) := .absent
  requireSignedUrls : BodyField Bool := .absent
  signedUrlTtlSeconds : BodyField ℕ := .absent
  allowedIps_nulFree : ∀ l ∈ allowedIps.parsed, ∀ s ∈ l, NulFree s := by decide
  allowedOrigins_nulFree : ∀ l ∈ allowedOrigins.parsed, ∀ s ∈ l, NulFree s := by decide
  signedUrlTtlSeconds_mem : ∀ n ∈ signedUrlTtlSeconds.parsed, 60 ≤ n ∧ n ≤ 86400 := by decide

/-- Body of the update of the processing flags. -/
structure ProcessingPatch where
  versioningEnabled : BodyField Bool := .absent
  ocrEnabled : BodyField Bool := .absent
  virusScanEnabled : BodyField Bool := .absent

/-- Body of the update of the compliance settings. -/
structure CompliancePatch where
  retentionDays : BodyField ℤ := .absent
  wormEnabled : BodyField Bool := .absent
  legalHoldEnabled : BodyField Bool := .absent
  dataResidency : BodyField String := .absent
  retentionDays_mem : ∀ n ∈ retentionDays.parsed, 1 ≤ n ∧ n ≤ 2147483647 := by decide
  dataResidency_fits : ∀ s ∈ dataResidency.parsed, s.length ≤ 50 ∧ NulFree s := by decide

/-- A partial update. -/
inductive ConfigPatch where
  | upload (body : UploadPatch)
  | security (body : SecurityPatch)
  | processing (body : ProcessingPatch)
  | compliance (body : CompliancePatch)

namespace ConfigPatch

/-- What the router hands on. -/
def op : ConfigPatch → Operation
  | upload body => .updateUploadConfig
      { maxFileSizeBytes := body.maxFileSizeBytes.parsed
        allowedMimeTypes := body.allowedMimeTypes.parsed
        allowedExtensions := body.allowedExtensions.parsed
        maxFilesPerRequest := body.maxFilesPerRequest.parsed
        maxFileSizeBytes_pos := fun n hn => (body.maxFileSizeBytes_mem n hn).1
        maxFilesPerRequest_pos := fun n hn => (body.maxFilesPerRequest_mem n hn).1 }
  | security body => .updateSecurityConfig
      { allowedIps := body.allowedIps.parsed
        allowedOrigins := body.allowedOrigins.parsed
        requireSignedUrls := body.requireSignedUrls.parsed
        signedUrlTtlSeconds := body.signedUrlTtlSeconds.parsed
        signedUrlTtlSeconds_mem := body.signedUrlTtlSeconds_mem }
  | processing body => .updateProcessingConfig
      { versioningEnabled := body.versioningEnabled.parsed
        ocrEnabled := body.ocrEnabled.parsed
        virusScanEnabled := body.virusScanEnabled.parsed }
  | compliance body => .updateComplianceConfig
      { retentionDays := body.retentionDays.parsed
        wormEnabled := body.wormEnabled.parsed
        legalHoldEnabled := body.legalHoldEnabled.parsed
        dataResidency := body.dataResidency.parsed
        retentionDays_pos := fun n hn => (body.retentionDays_mem n hn).1 }

/-- The configuration a request asks for: what it sends replaced, and nothing else. -/
def replaced (record : ProjectConfig) : ConfigPatch → ProjectConfig
  | upload body => { record with
      maxFileSizeBytes := body.maxFileSizeBytes.limit record.maxFileSizeBytes
      allowedMimeTypes := body.allowedMimeTypes.restriction record.allowedMimeTypes
      allowedExtensions := body.allowedExtensions.restriction record.allowedExtensions
      maxFilesPerRequest := body.maxFilesPerRequest.limit record.maxFilesPerRequest }
  | security body => { record with
      allowedIps := body.allowedIps.restriction record.allowedIps
      allowedOrigins := body.allowedOrigins.restriction record.allowedOrigins
      requireSignedUrls := body.requireSignedUrls.setting record.requireSignedUrls
      signedUrlTtlSeconds := body.signedUrlTtlSeconds.setting record.signedUrlTtlSeconds }
  | processing body => { record with
      versioningEnabled := body.versioningEnabled.setting record.versioningEnabled
      ocrEnabled := body.ocrEnabled.setting record.ocrEnabled
      virusScanEnabled := body.virusScanEnabled.setting record.virusScanEnabled }
  | compliance body => { record with
      retentionDays := body.retentionDays.limit record.retentionDays
      wormEnabled := body.wormEnabled.setting record.wormEnabled
      legalHoldEnabled := body.legalHoldEnabled.setting record.legalHoldEnabled
      dataResidency := body.dataResidency.limit record.dataResidency }

end ConfigPatch

/-- The limits a configuration may have. -/
inductive Limit where
  | fileSize | inFlight | retention | residency
  | mimeTypes | extensions | networks | origins
  deriving DecidableEq

/-- The limit is not set. -/
def Limit.Unset (record : ProjectConfig) : Limit → Prop
  | fileSize => record.maxFileSizeBytes = none
  | inFlight => record.maxFilesPerRequest = none
  | retention => record.retentionDays = none
  | residency => record.dataResidency = none
  | mimeTypes => record.allowedMimeTypes = none
  | extensions => record.allowedExtensions = none
  | networks => record.allowedIps = none
  | origins => record.allowedOrigins = none

/-- The limits that are lists. -/
def Limit.IsList : Limit → Prop
  | fileSize | inFlight | retention | residency => False
  | mimeTypes | extensions | networks | origins => True

/-- The body has the limit as null. -/
def ConfigPatch.SendsNull : ConfigPatch → Limit → Prop
  | upload body, .fileSize => body.maxFileSizeBytes = .null
  | upload body, .inFlight => body.maxFilesPerRequest = .null
  | upload body, .mimeTypes => body.allowedMimeTypes = .null
  | upload body, .extensions => body.allowedExtensions = .null
  | security body, .networks => body.allowedIps = .null
  | security body, .origins => body.allowedOrigins = .null
  | compliance body, .retention => body.retentionDays = .null
  | compliance body, .residency => body.dataResidency = .null
  | _, _ => False

section Requests

variable (ctx : TenantContext) (env : Env) (db : Database) (projectId : String)

/-- The configuration after a request. -/
def configAfter (patch : ConfigPatch) : Except ApiError ProjectConfig :=
  ProjectConfigRepository.getForProject (ServiceCall.serve db ⟨ctx, env, projectId, patch.op⟩)
    projectId ctx.organizationId

/-- The request is answered with, and leaves, the configuration it asks for. -/
def PatchApplied (record : ProjectConfig) (patch : ConfigPatch) : Prop :=
  let asked : ProjectConfig := { patch.replaced record with updatedAt := env.now }
  (commit db (patch.op.run ctx env db projectId)).1 = .ok (.projectConfig (.ofRecord asked))
    ∧ configAfter ctx env db projectId patch = .ok asked

/-- Some request removes the limit. -/
def Removable (limit : Limit) : Prop :=
  ∃ patch record, configAfter ctx env db projectId patch = .ok record ∧ limit.Unset record

end Requests

/-! ### One field -/

namespace BodyField

variable {α : Type}

/-- The service keeps a limit that is null. -/
theorem parsed_orElse_eq_limit {field : BodyField α} {old : Option α} :
    (field.parsed.orElse fun _ => old) = field.limit old ↔ (field = .null → old = none) := by
  cases field with
  | absent => simp [parsed, limit]
  | null => simp [parsed, limit]
  | value a => simp [parsed, limit]

/-- The service keeps a list that is null, and empties one that is empty. -/
theorem parsed_joinCsv_eq_restriction {field : BodyField (List String)} {old : Option String} :
    (field.parsed.map joinCsv).getD old = field.restriction old ↔ (field = .null → old = none) := by
  cases field with
  | absent => simp [parsed, restriction]
  | null => simp [parsed, restriction]
  | value values => simp [parsed, restriction]

@[simp] theorem parsed_getD_eq_setting (field : BodyField α) (old : α) :
    field.parsed.getD old = field.setting old := by
  cases field <;> rfl

end BodyField

theorem joinCsv_nil : joinCsv [] = none := rfl

/-! ### One request -/

section Request

variable {ctx : TenantContext} {env : Env} {db : Database} {projectId : String}
  {record : ProjectConfig}

/-- Each of the four stores a configuration that is the one asked for iff nothing that is set is
sent as null. -/
theorem ConfigPatch.run_eq (patch : ConfigPatch) : ∃ change : ProjectConfig → ProjectConfig,
    patch.op.run ctx env db projectId
        = ProjectConfigService.updateWith ctx env db projectId change ∧
      ∀ now, ∀ record : ProjectConfig,
        (record.flush { change record with updatedAt := now }).toFun record
            = { change record with updatedAt := now } ∧
          (({ change record with updatedAt := now } : ProjectConfig)
              = { patch.replaced record with updatedAt := now } ↔
            ∀ limit, patch.SendsNull limit → limit.Unset record) := by
  cases patch with
  | upload body =>
    refine ⟨_, rfl, fun now record => ⟨by simp [ProjectConfig.flush], ?_⟩⟩
    simp only [replaced, ProjectConfig.mk.injEq, true_and, and_true,
      BodyField.parsed_orElse_eq_limit, BodyField.parsed_joinCsv_eq_restriction]
    constructor
    · rintro ⟨hsize, htypes, hextensions, hfiles⟩ limit
      cases limit <;> first | assumption | exact False.elim
    · exact fun h => ⟨h .fileSize, h .mimeTypes, h .extensions, h .inFlight⟩
  | security body =>
    refine ⟨_, rfl, fun now record => ⟨by simp [ProjectConfig.flush], ?_⟩⟩
    simp only [replaced, ProjectConfig.mk.injEq, true_and, and_true,
      BodyField.parsed_joinCsv_eq_restriction, BodyField.parsed_getD_eq_setting]
    constructor
    · rintro ⟨hnetworks, horigins⟩ limit
      cases limit <;> first | assumption | exact False.elim
    · exact fun h => ⟨h .networks, h .origins⟩
  | processing body =>
    refine ⟨_, rfl, fun now record => ⟨by simp [ProjectConfig.flush], ?_⟩⟩
    simp only [replaced, BodyField.parsed_getD_eq_setting, true_iff]
    rintro limit ⟨⟩
  | compliance body =>
    refine ⟨_, rfl, fun now record => ⟨by simp [ProjectConfig.flush], ?_⟩⟩
    simp only [replaced, ProjectConfig.mk.injEq, true_and, and_true,
      BodyField.parsed_orElse_eq_limit, BodyField.parsed_getD_eq_setting]
    constructor
    · rintro ⟨hretention, hresidency⟩ limit
      cases limit <;> first | assumption | exact False.elim
    · exact fun h => ⟨h .retention, h .residency⟩

/-- The row after an update. -/
theorem getForProject_serve
    (h : ProjectConfigRepository.getForProject db projectId ctx.organizationId = .ok record)
    {op : Operation} {change : ProjectConfig → ProjectConfig}
    (hrun : op.run ctx env db projectId
      = ProjectConfigService.updateWith ctx env db projectId change) :
    commit db (op.run ctx env db projectId)
        = (.ok (.projectConfig (.ofRecord { change record with updatedAt := env.now })),
          applyAll [record.save { change record with updatedAt := env.now }] db) ∧
      ProjectConfigRepository.getForProject (ServiceCall.serve db ⟨ctx, env, projectId, op⟩)
          projectId ctx.organizationId
        = .ok ((record.flush { change record with updatedAt := env.now }).toFun record) := by
  have hcommit : commit db (op.run ctx env db projectId)
      = (.ok (.projectConfig (.ofRecord { change record with updatedAt := env.now })),
        applyAll [record.save { change record with updatedAt := env.now }] db) := by
    have hok : op.run ctx env db projectId
        = .ok (.projectConfig (.ofRecord { change record with updatedAt := env.now }),
          [record.save { change record with updatedAt := env.now }]) := by
      rw [hrun, ProjectConfigService.updateWith, h]
      rfl
    rw [hok, commit, if_pos ⟨trivial, trivial⟩]
  refine ⟨hcommit, ?_⟩
  have hserve : ServiceCall.serve db ⟨ctx, env, projectId, op⟩
      = applyAll [record.save { change record with updatedAt := env.now }] db :=
    congrArg Prod.snd hcommit
  rw [hserve]
  rw [ProjectConfigRepository.getForProject, oneOr_eq_ok] at h ⊢
  have hconfigs : applyAll [record.save { change record with updatedAt := env.now }] db
      .projectConfigs = (db .projectConfigs).map fun (c : ProjectConfig) =>
        if c.id = record.id
        then (record.flush { change record with updatedAt := env.now }).toFun c else c := by
    rw [applyAll_cons, applyAll_nil, ProjectConfig.save, apply_update_self]
    rfl
  rw [hconfigs, List.filter_map]
  have hkept : ((fun c : ProjectConfig => c.projectId == projectId
        && c.organizationId == ctx.organizationId) ∘ fun c : ProjectConfig =>
        if c.id = record.id
        then (record.flush { change record with updatedAt := env.now }).toFun c else c)
      = fun c : ProjectConfig => c.projectId == projectId
        && c.organizationId == ctx.organizationId := by
    funext c
    by_cases hc : c.id = record.id
    · simp only [Function.comp_apply, if_pos hc, ProjectConfig.flush]
    · simp only [Function.comp_apply, if_neg hc]
  rw [hkept, h, List.map_singleton, if_pos rfl]

theorem patchApplied_iff
    (h : ProjectConfigRepository.getForProject db projectId ctx.organizationId = .ok record)
    (patch : ConfigPatch) : PatchApplied ctx env db projectId record patch ↔
      ∀ limit, patch.SendsNull limit → limit.Unset record := by
  obtain ⟨change, hrun, hchange⟩ :=
    @ConfigPatch.run_eq ctx env db projectId patch
  obtain ⟨hcommit, hafter⟩ := getForProject_serve h hrun
  obtain ⟨hflush, hasked⟩ := hchange env.now record
  rw [hflush] at hafter
  rw [← hasked, PatchApplied, configAfter, hafter, hcommit]
  constructor
  · rintro ⟨-, hstored⟩
    exact Except.ok.inj hstored
  · rintro heq
    rw [heq]
    exact ⟨rfl, rfl⟩

end Request

/-! ### All requests -/

namespace Limit

variable {limit : Limit} {db : Database} {projectId organizationId : String}

/-- A configuration of the project has the limit. -/
def SetIn (limit : Limit) (projectId organizationId : String) (db : Database) : Prop :=
  ∃ row ∈ (db .projectConfigs : List ProjectConfig),
    row.projectId = projectId ∧ row.organizationId = organizationId ∧ ¬limit.Unset row

/-- A column stays set if whoever saves it does not empty it. -/
theorem flushColumn_ne_none {α : Type} [DecidableEq α] {loaded new current : Option α}
    (hnew : new = none → loaded = none) (hcurrent : current ≠ none) :
    flushColumn loaded new current ≠ none := by
  unfold flushColumn
  split
  · exact hcurrent
  · rename_i hne
    intro hnone
    exact hne (hnone.trans (hnew hnone).symm)

theorem not_unset_flush (hlist : ¬limit.IsList) {loaded new row : ProjectConfig}
    (hnew : limit.Unset new → limit.Unset loaded) (hrow : ¬limit.Unset row) :
    ¬limit.Unset ((loaded.flush new).toFun row) := by
  cases limit with
  | fileSize => exact flushColumn_ne_none hnew hrow
  | inFlight => exact flushColumn_ne_none hnew hrow
  | retention => exact flushColumn_ne_none hnew hrow
  | residency => exact flushColumn_ne_none hnew hrow
  | mimeTypes => exact absurd trivial hlist
  | extensions => exact absurd trivial hlist
  | networks => exact absurd trivial hlist
  | origins => exact absurd trivial hlist

theorem eq_none_of_orElse {α : Type} {o old : Option α} (h : (o.orElse fun _ => old) = none) :
    old = none := by
  cases o with
  | none => exact h
  | some a => cases h

/-- An update that does not empty the column. -/
theorem SetIn.updateWith (hlist : ¬limit.IsList) (h : limit.SetIn projectId organizationId db)
    {ctx : TenantContext} {env : Env} {p : String} {change : ProjectConfig → ProjectConfig}
    (hchange : ∀ record, limit.Unset (change record) → limit.Unset record) {r : Response}
    {ws : List DbWrite}
    (hr : ProjectConfigService.updateWith ctx env db p change = .ok (r, ws)) :
    limit.SetIn projectId organizationId (applyAll ws db) := by
  simp only [ProjectConfigService.updateWith, bind_eq_ok, pure_eq_ok, Prod.mk.injEq] at hr
  obtain ⟨loaded, -, -, rfl⟩ := hr
  obtain ⟨row, hrow, hp, ho, hset⟩ := h
  have hkeeps : limit.Unset { change loaded with updatedAt := env.now } → limit.Unset loaded := by
    intro hunset
    refine hchange loaded ?_
    cases limit <;> exact hunset
  simp only [applyAll_cons, applyAll_nil, ProjectConfig.save]
  refine ⟨if row.id = loaded.id
    then (loaded.flush { change loaded with updatedAt := env.now }).toFun row else row, ?_, ?_⟩
  · rw [apply_update_self]
    exact List.mem_map_of_mem hrow
  · split
    · exact ⟨hp, ho, not_unset_flush hlist hkeeps hset⟩
    · exact ⟨hp, ho, hset⟩

/-- No call empties the column. -/
theorem SetIn.call (hlist : ¬limit.IsList) (hdb : db.Good)
    (h : limit.SetIn projectId organizationId db) (c : ServiceCall) :
    limit.SetIn projectId organizationId (commit db (c.result db)).2 := by
  cases hr : c.result db with
  | error e => exact h
  | ok out =>
    obtain ⟨r, ws⟩ := out
    simp only [commit]
    split
    swap
    · exact h
    obtain ⟨ctx, env, p, op⟩ := c
    have htables : ∀ w ∈ ws, w.table ∈ op.tables := (Operation.sound hdb hr).tables
    have hother : Table.projectConfigs ∉ op.tables →
        limit.SetIn projectId organizationId (applyAll ws db) := by
      intro hne
      have hwrites : ∀ w ∈ ws, w.table ≠ .projectConfigs :=
        fun w hw heq => hne (heq ▸ htables w hw)
      have hsame : applyAll ws db .projectConfigs = db .projectConfigs :=
        applyAll_of_table_ne hwrites db
      unfold SetIn
      rw [hsame]
      exact h
    cases op with
    | updateUploadConfig req =>
      refine h.updateWith hlist (fun record hunset => ?_) hr
      cases limit with
      | fileSize | inFlight => exact eq_none_of_orElse hunset
      | retention | residency => exact hunset
      | mimeTypes | extensions | networks | origins => exact absurd trivial hlist
    | updateSecurityConfig req =>
      refine h.updateWith hlist (fun record hunset => ?_) hr
      cases limit with
      | fileSize | inFlight | retention | residency => exact hunset
      | mimeTypes | extensions | networks | origins => exact absurd trivial hlist
    | updateProcessingConfig req =>
      refine h.updateWith hlist (fun record hunset => ?_) hr
      cases limit <;> exact hunset
    | updateComplianceConfig req =>
      refine h.updateWith hlist (fun record hunset => ?_) hr
      cases limit with
      | fileSize | inFlight => exact hunset
      | retention | residency => exact eq_none_of_orElse hunset
      | mimeTypes | extensions | networks | origins => exact absurd trivial hlist
    | createProject req =>
      simp only [ServiceCall.result, Operation.run, ProjectService.createProject, bind_eq_ok,
        pure_eq_ok, Prod.mk.injEq] at hr
      obtain ⟨-, -, out, -, -, rfl⟩ := hr
      obtain ⟨row, hrow, hset⟩ := h
      refine ⟨row, ?_, hset⟩
      simp only [applyAll_cons, applyAll_nil]
      rw [apply_insert_self, apply_of_table_ne (by simp), apply_of_table_ne (by simp)]
      exact List.mem_append_left _ hrow
    | _ => exact hother (by simp [Operation.tables])

/-- No calls do. -/
theorem SetIn.runAll (hlist : ¬limit.IsList) (hdb : Reached db)
    (h : limit.SetIn projectId organizationId db) (calls : List ServiceCall) :
    limit.SetIn projectId organizationId (FileNest.runAll calls db) := by
  induction calls generalizing db with
  | nil => exact h
  | cons c calls ih => exact ih (hdb.call _ _ _ _) (h.call hlist hdb.good c)

/-- **A limit that is not a list stays set whatever requests follow.** -/
theorem limit_set_of_run (hlist : ¬limit.IsList) (hdb : Reached db) {record record' : ProjectConfig}
    (h : ProjectConfigRepository.getForProject db projectId organizationId = .ok record)
    (hset : ¬limit.Unset record) (calls : List ServiceCall)
    (h' : ProjectConfigRepository.getForProject (FileNest.runAll calls db) projectId organizationId
      = .ok record') : ¬limit.Unset record' := by
  obtain ⟨hmem, hp, ho⟩ := ProjectConfigRepository.of_getForProject h
  obtain ⟨row, hrow, hrp, hro, hrset⟩ :=
    SetIn.runAll hlist hdb ⟨record, hmem, hp, ho, hset⟩ calls
  obtain rfl : row = record' := by
    refine eq_of_oneOr h' (List.mem_filter.mpr ⟨hrow, ?_⟩)
    simp [hrp, hro]
  exact hrset

end Limit

/-! ### Removing a limit -/

section Removing

variable {ctx : TenantContext} {env : Env} {db : Database} {projectId : String}
  {record : ProjectConfig}

/-- The request with the list that is empty. -/
def Limit.cleared : Limit → ConfigPatch
  | mimeTypes => .upload { allowedMimeTypes := .value [] }
  | extensions => .upload { allowedExtensions := .value [] }
  | networks => .security { allowedIps := .value [] }
  | origins => .security { allowedOrigins := .value [] }
  | fileSize | inFlight | retention | residency => .processing {}

theorem Limit.unset_cleared {limit : Limit} (h : limit.IsList ∨ limit.Unset record) (now : ℕ) :
    limit.Unset { limit.cleared.replaced record with updatedAt := now } := by
  cases limit with
  | fileSize => exact h.resolve_left id
  | inFlight => exact h.resolve_left id
  | retention => exact h.resolve_left id
  | residency => exact h.resolve_left id
  | mimeTypes => exact joinCsv_nil
  | extensions => exact joinCsv_nil
  | networks => exact joinCsv_nil
  | origins => exact joinCsv_nil

theorem Limit.not_sendsNull_cleared (limit other : Limit) : ¬limit.cleared.SendsNull other := by
  cases limit <;> cases other <;> simp [cleared, ConfigPatch.SendsNull]

theorem removable_iff (hdb : Reached db)
    (h : ProjectConfigRepository.getForProject db projectId ctx.organizationId = .ok record)
    (limit : Limit) :
    Removable ctx env db projectId limit ↔ limit.IsList ∨ limit.Unset record := by
  constructor
  · rintro ⟨patch, record', hafter, hunset⟩
    by_contra hnot
    obtain ⟨hlist, hset⟩ := not_or.mp hnot
    exact Limit.limit_set_of_run hlist hdb h hset [⟨ctx, env, projectId, patch.op⟩] hafter hunset
  · intro hlimit
    have happlied : PatchApplied ctx env db projectId record limit.cleared :=
      (patchApplied_iff h limit.cleared).mpr fun other hnull =>
        absurd hnull (limit.not_sendsNull_cleared other)
    exact ⟨limit.cleared, _, happlied.2, Limit.unset_cleared hlimit env.now⟩

/-- **A request is applied iff every limit it sends as null is not set; a limit can be removed iff
it is a list or not set.** -/
theorem configPatch_iff (hdb : Reached db)
    (h : ProjectConfigRepository.getForProject db projectId ctx.organizationId = .ok record) :
    (∀ patch, PatchApplied ctx env db projectId record patch ↔
      ∀ limit, patch.SendsNull limit → limit.Unset record) ∧
    ∀ limit, Removable ctx env db projectId limit ↔ limit.IsList ∨ limit.Unset record :=
  ⟨patchApplied_iff h, removable_iff hdb h⟩

end Removing

/-- A project whose files may have 1000 bytes and whose uploads one type. -/
def cappedDb : Database :=
  runAll [⟨orgContext "acme", devEnv "p" 1, "", .createProject devProject⟩,
    ⟨orgContext "acme", devEnv "u" 2, "p0", .updateUploadConfig
      { devUploadConfig with
        maxFileSizeBytes := some 1000, allowedMimeTypes := some ["image/png"]
        maxFileSizeBytes_pos := by decide }⟩] Database.empty

/-- Its configuration. -/
def cappedConfig : ProjectConfig where
  id := "p2"
  organizationId := "acme"
  projectId := "p0"
  maxFileSizeBytes := some 1000
  allowedMimeTypes := some "image/png"
  createdAt := 1
  updatedAt := 2

theorem getForProject_cappedDb :
    ProjectConfigRepository.getForProject cappedDb "p0" (orgContext "acme").organizationId
      = .ok cappedConfig := by
  decide

theorem reached_cappedDb : Reached cappedDb := reached_runAll .empty _

/-- The types are removed, and a limit that is not set may be null. -/
theorem types_removed :
    PatchApplied (orgContext "acme") (devEnv "e" 3) cappedDb "p0" cappedConfig
        (.upload { allowedMimeTypes := .value [], maxFilesPerRequest := .null }) ∧
      Removable (orgContext "acme") (devEnv "e" 3) cappedDb "p0" .mimeTypes := by
  obtain ⟨happlied, hremovable⟩ :=
    @configPatch_iff (orgContext "acme") (devEnv "e" 3) _ _ _ reached_cappedDb
      getForProject_cappedDb
  refine ⟨(happlied _).mpr fun limit hnull => ?_, (hremovable .mimeTypes).mpr (.inl trivial)⟩
  cases limit with
  | inFlight => rfl
  | fileSize | mimeTypes | extensions | retention | residency | networks | origins =>
    cases hnull

/-- The largest size stays when it is sent as null, and every other request leaves it too. -/
theorem nullLimit_stays :
    Reached cappedDb ∧
    ProjectConfigRepository.getForProject cappedDb "p0" (orgContext "acme").organizationId
      = .ok cappedConfig ∧
    ¬PatchApplied (orgContext "acme") (devEnv "e" 3) cappedDb "p0" cappedConfig
      (.upload { maxFileSizeBytes := .null }) ∧
    ¬Removable (orgContext "acme") (devEnv "e" 3) cappedDb "p0" .fileSize := by
  refine ⟨reached_cappedDb, getForProject_cappedDb, fun happlied => ?_, fun hremovable => ?_⟩
  · cases (patchApplied_iff getForProject_cappedDb _).mp happlied .fileSize rfl
  · obtain hlist | hunset := (removable_iff reached_cappedDb getForProject_cappedDb _).mp hremovable
    · exact hlist
    · cases hunset

end FileNest
