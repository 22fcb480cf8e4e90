import FileNest.Versioning

/-!
# The IP allowlist of a project

Each dependency factory that consults the allowlist does so by hand, and those of webhooks,
upload tokens, configuration, storage and the project itself do not.  On the routes that
are left out a caller from outside is served like any other; the allowlist itself is
cleared on one of them.

## Main definitions

* `allowedNetworks` — the well-formed entries of a stored allowlist.
* `Outside` — a project with an allowlist, and a caller it leaves out.
* `Refused`, `AllowlistEnforced` — one request, and every request from outside.
* `HasEntry`, `FailClosed` — an allowlist permits its well-formed networks, and nobody else.

## Main results

* `checkIpAllowlist_refuses` — what the check does to a caller from outside.
* `allowlist_enforced_iff` — **a route turns callers from outside away exactly if its
  dependency factory checks the allowlist.**
* `allowlist_cleared` — an allowlist cleared from outside.
* `failClosed_iff` — **an allowlist of malformed entries permits everybody.**
-/

namespace FileNest

open RowStore

/-- The well-formed entries of a stored allowlist. -/
def allowedNetworks (ip : IpParsers) (csv : Option String) : List IpNetwork :=
  (((Text.split ',' (csv.getD "")).map Text.strip).filter (· != "")).filterMap ip.ipNetwork

/-- The project has an allowlist with a well-formed entry, and the caller's address is in none
of its networks. -/
def Outside (env : Env) (db : Database) (projectId : String) : Prop :=
  ∃ config ∈ db .projectConfigs, ProjectConfig.projectId config = projectId
    ∧ allowedNetworks env.ip config.allowedIps ≠ []
    ∧ ∀ network ∈ allowedNetworks env.ip config.allowedIps,
      ∀ a, env.ip.ipAddress env.request.callerIp = some a → network.contains a = false

/-- The request is turned away and leaves the database as it is. -/
def Refused (ctx : TenantContext) (env : Env) (projectId : String) (op : Operation)
    (db : Database) : Prop :=
  (∃ e, (commit db (handle ctx env ⟨projectId, op⟩ db)).1 = .error e)
    ∧ (commit db (handle ctx env ⟨projectId, op⟩ db)).2 = db

/-- Whoever calls from outside is refused. -/
def AllowlistEnforced (op : Operation) : Prop :=
  ∀ (ctx : TenantContext) (env : Env) (db : Database) (projectId : String), Reached db →
    Outside env db projectId → Refused ctx env projectId op db

/-! ### The check -/

/-- The check looks at the well-formed entries only. -/
theorem checkIpAllowlist_eq (ip : IpParsers) (request : ClientInfo) (csv : Option String) :
    checkIpAllowlist ip request csv
      = if (allowedNetworks ip csv).isEmpty then pure () else
        match ip.ipAddress request.callerIp with
        | none => throw (permissionDeniedError ("IP allowlist check failed: cannot parse caller " ++
            "address " ++ Text.quoted request.callerIp))
        | some callerIp =>
            if (allowedNetworks ip csv).any fun network => network.contains callerIp then pure ()
            else throw (permissionDeniedError "Caller IP is not in the project IP allowlist") := by
  have hempty : allowedNetworks ip (some "") = [] := rfl
  cases csv with
  | none =>
    rw [show allowedNetworks ip none = [] from hempty]
    rfl
  | some csv =>
    by_cases hcsv : csv = ""
    · rw [hcsv, hempty]
      rfl
    · rw [checkIpAllowlist]
      · rfl
      · exact hcsv

/-- **The check turns a caller from outside away.** -/
theorem checkIpAllowlist_refuses {ip : IpParsers} {request : ClientInfo} {csv : Option String}
    (hnetworks : allowedNetworks ip csv ≠ [])
    (hout : ∀ network ∈ allowedNetworks ip csv, ∀ a, ip.ipAddress request.callerIp = some a →
      network.contains a = false) : ∃ e, checkIpAllowlist ip request csv = .error e := by
  rw [checkIpAllowlist_eq, if_neg (by rwa [List.isEmpty_iff])]
  cases ha : ip.ipAddress request.callerIp with
  | none => exact ⟨_, rfl⟩
  | some a =>
    have hnone : (allowedNetworks ip csv).any (fun network => network.contains a) = false := by
      simp only [List.any_eq_false, Bool.not_eq_true]
      exact fun network hn => hout network hn a ha
    simp only [hnone, Bool.false_eq_true, if_false]
    exact ⟨_, rfl⟩

section Request

variable {ctx : TenantContext} {env : Env} {db : Database} {projectId : String} {op : Operation}

/-- A project has one configuration. -/
theorem ProjectConfigRepository.getForProject_eq (hdb : db.Good) {o : String}
    {config loaded : ProjectConfig} (hconfig : config ∈ db .projectConfigs)
    (hproject : config.projectId = projectId)
    (h : getForProject db projectId o = .ok loaded) : config = loaded := by
  obtain ⟨hmem, hloaded, horg⟩ := of_getForProject h
  have howner : config.organizationId = loaded.organizationId := by
    -- both name the project's row
    obtain ⟨p, hp, hid, hpo⟩ := exists_of_mem_keys (hdb.project_of_config hconfig)
    obtain ⟨q, hq, hid', hqo⟩ := exists_of_mem_keys (hdb.project_of_config hmem)
    obtain rfl : p = q := hdb.uniquePk.eq_of_pk (t := .projects) hp hq
      (hid.trans ((hproject.trans hloaded.symm).trans hid'.symm))
    exact congrArg Owner.organizationId (hpo.symm.trans hqo)
  refine eq_of_oneOr h (List.mem_filter.mpr ⟨hconfig, ?_⟩)
  simp only [hproject, howner, horg, beq_self_eq_true, Bool.and_self]

/-- The check of the dependency factory turns a caller from outside away. -/
theorem Outside.check (h : Outside env db projectId) (hdb : db.Good) :
    ∃ e, Dependency.check ctx env db projectId .projectAndAllowlist = .error e := by
  obtain ⟨config, hconfig, hproject, hnetworks, hout⟩ := h
  cases hcheck : Dependency.check ctx env db projectId .projectAndAllowlist with
  | error e => exact ⟨e, rfl⟩
  | ok u =>
    simp only [Dependency.check, bind_eq_ok] at hcheck
    obtain ⟨_, -, loaded, hloaded, hcheck⟩ := hcheck
    obtain rfl := ProjectConfigRepository.getForProject_eq hdb hconfig hproject hloaded
    obtain ⟨e, he⟩ := checkIpAllowlist_refuses hnetworks hout
    rw [he] at hcheck
    cases hcheck

/-- A request whose dependency factory raises is refused. -/
theorem refused_of_check {e : ApiError}
    (h : op.dependency.check ctx env db projectId = .error e) :
    Refused ctx env projectId op db := by
  have hhandle : handle ctx env ⟨projectId, op⟩ db = .error e := by
    simp only [handle, h]
    rfl
  rw [Refused, hhandle]
  exact ⟨⟨e, rfl⟩, rfl⟩

theorem allowlistEnforced_of_dependency (h : op.dependency = .projectAndAllowlist) :
    AllowlistEnforced op := by
  intro ctx env db projectId hdb hout
  obtain ⟨e, he⟩ : ∃ e, Dependency.check ctx env db projectId .projectAndAllowlist = .error e :=
    hout.check hdb.good
  exact refused_of_check (by rw [h, he])

end Request

/-! ### Routes that are left out -/

/-- Python's parsers, on the two addresses below. -/
def officeIp : IpParsers where
  ipAddress text := if text = "203.0.113.7" then some (.v4 3405803783) else none
  ipNetwork text := if text = "10.0.0.0/8" then some ⟨.v4 167772160, 8⟩ else none

/-- A caller from outside. -/
def outsideEnv (tag : String) (now : ℕ) : Env :=
  { devEnv tag now with ip := officeIp, request := { clientHost := some "203.0.113.7" } }

/-- A caller with every scope. -/
def adminContext : TenantContext :=
  { orgContext "acme" with
    scopes := ["projects:read", "projects:update", "upload_tokens:create", "files:upload",
      "files:read", "webhooks:read", "webhooks:write"] }

/-- A project with an allowlist and a webhook. -/
def officeProject : List ServiceCall :=
  [⟨adminContext, devEnv "p" 1, "", .createProject
     { devProject with storageProvider := "minio", storageProvider_mem := by decide }⟩,
   ⟨adminContext, devEnv "s" 2, "p0", .updateSecurityConfig
     { devSecurityConfig with allowedIps := some ["10.0.0.0/8"] }⟩,
   ⟨adminContext, devEnv "w" 3, "p0", .createWebhook { url := "https://acme.example/hook" }⟩]

def officeDb : Database := runAll officeProject Database.empty

theorem reached_officeDb : Reached officeDb := reached_runAll .empty officeProject

theorem outside_officeDb (tag : String) (now : ℕ) : Outside (outsideEnv tag now) officeDb "p0" := by
  obtain ⟨config, hconfig, hproject, hips⟩ : ∃ config ∈ officeDb .projectConfigs,
      ProjectConfig.projectId config = "p0" ∧ config.allowedIps = some "10.0.0.0/8" := by decide
  refine ⟨config, hconfig, hproject, ?_, ?_⟩
  · rw [hips]
    exact List.cons_ne_nil _ _
  · rw [hips]
    rintro network hn a ha
    obtain rfl := List.mem_singleton.mp (show network ∈ [⟨.v4 167772160, 8⟩] from hn)
    obtain rfl : IpAddress.v4 3405803783 = a := Option.some.inj ha
    rfl

/-- An operation that answers a caller from outside. -/
theorem not_allowlistEnforced {op : Operation} {r : Response}
    (h : (commit officeDb (handle adminContext (outsideEnv "x" 4) ⟨"p0", op⟩ officeDb)).1 = .ok r) :
    ¬AllowlistEnforced op := by
  intro henforced
  obtain ⟨⟨e, he⟩, -⟩ := henforced adminContext _ officeDb "p0" reached_officeDb
    (outside_officeDb "x" 4)
  rw [h] at he
  cases he

/-- Two operations of one route: the operations are numbered by their routes. -/
def Operation.SameRoute (op op' : Operation) : Prop := op.ctorIdx = op'.ctorIdx

/-- The routes that check the allowlist come first. -/
theorem dependency_iff (op : Operation) :
    op.dependency = .projectAndAllowlist ↔ op.ctorIdx < 28 := by
  cases op <;> simp [Operation.dependency, Operation.ctorIdx]

/-- **A route under a project turns callers from outside away exactly if its dependency factory
checks the allowlist.** -/
theorem allowlist_enforced_iff (op : Operation) (haddressed : op.projectAddressed = true) :
    (∀ op', op.SameRoute op' → AllowlistEnforced op') ↔ op.dependency = .projectAndAllowlist := by
  constructor
  · intro h
    cases op with
    | createWebhook _ =>
      exact absurd (h (.createWebhook { url := "https://acme.example/hook" }) rfl)
        (not_allowlistEnforced rfl)
    | listWebhooks => exact absurd (h _ rfl) (not_allowlistEnforced rfl)
    | updateWebhook _ _ => exact absurd (h (.updateWebhook "w0" {}) rfl) (not_allowlistEnforced rfl)
    | deleteWebhook _ => exact absurd (h (.deleteWebhook "w0") rfl) (not_allowlistEnforced rfl)
    | listDeliveries _ _ =>
      exact absurd (h (.listDeliveries "w0" 20) rfl) (not_allowlistEnforced rfl)
    | createUploadToken _ =>
      exact absurd (h (.createUploadToken {}) rfl) (not_allowlistEnforced rfl)
    | getProjectConfig => exact absurd (h _ rfl) (not_allowlistEnforced rfl)
    | updateUploadConfig _ =>
      exact absurd (h (.updateUploadConfig {}) rfl) (not_allowlistEnforced rfl)
    | updateSecurityConfig _ =>
      exact absurd (h (.updateSecurityConfig {}) rfl) (not_allowlistEnforced rfl)
    | updateProcessingConfig _ =>
      exact absurd (h (.updateProcessingConfig {}) rfl) (not_allowlistEnforced rfl)
    | updateComplianceConfig _ =>
      exact absurd (h (.updateComplianceConfig {}) rfl) (not_allowlistEnforced rfl)
    | updateStorageConfig _ =>
      exact absurd (h (.updateStorageConfig
        { bucketName := "fn-p0", accessKeyId := some "key", secretAccessKey := some "secret" }) rfl)
        (not_allowlistEnforced rfl)
    | getStorageConfig => exact absurd (h _ rfl) (not_allowlistEnforced rfl)
    | verifyStorage => exact absurd (h _ rfl) (not_allowlistEnforced rfl)
    | updateStorageSse _ =>
      exact absurd (h (.updateStorageSse true) rfl) (not_allowlistEnforced rfl)
    | getProject => exact absurd (h _ rfl) (not_allowlistEnforced rfl)
    | updateProject _ => exact absurd (h (.updateProject {}) rfl) (not_allowlistEnforced rfl)
    | deleteProject => exact absurd (h _ rfl) (not_allowlistEnforced rfl)
    | createProject _ | listProjects _ | getUsage | getDashboard => cases haddressed
    -- the others check it
    | _ => rfl
  · intro h op' hroute
    rw [dependency_iff, hroute, ← dependency_iff] at h
    exact allowlistEnforced_of_dependency h

/-- The deletion of a file, and the list of webhooks. -/
theorem allowlist_enforced_files :
    AllowlistEnforced (.deleteFile "f0")
      ∧ ¬∀ op', Operation.SameRoute .listWebhooks op' → AllowlistEnforced op' := by
  refine ⟨(allowlist_enforced_iff (.deleteFile "f0") rfl).mpr rfl _ rfl, fun h => ?_⟩
  cases (allowlist_enforced_iff .listWebhooks rfl).mp h

/-- A caller from outside clears the allowlist. -/
theorem allowlist_cleared :
    ¬∀ op : Operation, op.projectAddressed = true → AllowlistEnforced op := by
  intro h
  have hcleared : ¬AllowlistEnforced (.updateSecurityConfig { allowedIps := some [] }) :=
    not_allowlistEnforced rfl
  exact hcleared (h _ rfl)

/-! ### Malformed entries -/

/-- Some entry of the stored text is not blank. -/
def HasEntry (csv : Option String) : Prop :=
  ∃ cidr ∈ Text.split ',' (csv.getD ""), Text.strip cidr ≠ ""

/-- A text with an entry permits a caller whose address lies in one of its well-formed networks,
and nobody else. -/
def FailClosed (ip : IpParsers) (request : ClientInfo) (csv : Option String) : Prop :=
  HasEntry csv → (checkIpAllowlist ip request csv = .ok () ↔
    ∃ a, ip.ipAddress request.callerIp = some a ∧
      ∃ network ∈ allowedNetworks ip csv, network.contains a = true)

theorem checkIpAllowlist_of_empty {ip : IpParsers} {csv : Option String}
    (h : allowedNetworks ip csv = []) (request : ClientInfo) :
    checkIpAllowlist ip request csv = .ok () := by
  rw [checkIpAllowlist_eq, h]
  rfl

theorem checkIpAllowlist_eq_ok {ip : IpParsers} {csv : Option String}
    (h : allowedNetworks ip csv ≠ []) (request : ClientInfo) :
    checkIpAllowlist ip request csv = .ok () ↔ ∃ a, ip.ipAddress request.callerIp = some a ∧
      ∃ network ∈ allowedNetworks ip csv, network.contains a = true := by
  rw [checkIpAllowlist_eq, if_neg (by rwa [List.isEmpty_iff])]
  cases ip.ipAddress request.callerIp with
  | none => exact ⟨nofun, nofun⟩
  | some a =>
    simp only [Option.some.injEq, exists_eq_left']
    rw [← List.any_eq_true]
    by_cases hany : ((allowedNetworks ip csv).any fun network => network.contains a) = true
    · rw [if_pos hany]
      exact iff_of_true rfl hany
    · rw [if_neg hany]
      exact iff_of_false nofun hany

/-- **An allowlist permits its networks and nobody else exactly if one of its entries is
well-formed**: of malformed entries nothing is left, and then there is no restriction. -/
theorem failClosed_iff (ip : IpParsers) (request : ClientInfo) (csv : Option String) :
    FailClosed ip request csv ↔ (HasEntry csv → allowedNetworks ip csv ≠ []) := by
  refine forall_congr' fun _ => ?_
  by_cases hnetworks : allowedNetworks ip csv = []
  · refine iff_of_false (fun hiff => ?_) (not_not.mpr hnetworks)
    obtain ⟨_, -, network, hmem, -⟩ := hiff.mp (checkIpAllowlist_of_empty hnetworks request)
    rw [hnetworks] at hmem
    cases hmem
  · exact iff_of_true (checkIpAllowlist_eq_ok hnetworks request) hnetworks

/-- A project whose only network has a slip in it. -/
def slippedDb : Database :=
  runAll [⟨adminContext, devEnv "p" 1, "", .createProject devProject⟩,
    ⟨adminContext, devEnv "s" 2, "p0", .updateSecurityConfig
      { devSecurityConfig with allowedIps := some ["10.0.0.0/33"] }⟩] Database.empty

/-- The text is stored, and a caller from anywhere is permitted. -/
theorem malformed_permits_everybody : ∃ config ∈ slippedDb .projectConfigs,
    ProjectConfig.allowedIps config = some "10.0.0.0/33" ∧
      ¬ FailClosed officeIp { clientHost := some "203.0.113.7" } config.allowedIps := by
  obtain ⟨config, hconfig, hips⟩ : ∃ config ∈ slippedDb .projectConfigs,
      ProjectConfig.allowedIps config = some "10.0.0.0/33" := by decide
  refine ⟨config, hconfig, hips, fun hclosed => ?_⟩
  rw [hips] at hclosed
  obtain ⟨_, -, network, hmem, -⟩ := (hclosed ⟨"10.0.0.0/33", by decide, by decide⟩).mp rfl
  cases hmem

end FileNest
