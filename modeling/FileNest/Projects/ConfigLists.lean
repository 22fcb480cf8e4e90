import FileNest.Allowlist
import FileNest.Cors
import FileNest.Uploads.Sizes

/-!
# Lists in a project's configuration

Types, extensions, networks and origins are lists in the API and comma-separated text in the
table.  The text is taken apart again by the response and, each for itself, by the checks of an
upload, the middleware for origins, the allowlist of networks and the two places that hand origins
to a bucket.

## Main definitions

* `ListField`, `ListField.column`, `ListField.shown` — the four lists, stored and shown.
* `restoreProjectBucketCors` — what a bucket is given when the application starts.
* `ListEnforced` — the consumers of a text go by what is shown.
* `ListAgrees` — a list that is supplied is shown again, restricts, and is enforced.

## Main results

* `splitCsv_joinCsv` — without commas the text is the list.
* `update_eq_updateWith` — the four updates are one.
* `listAgrees_iff` — **no element has a comma, not all of them are blank, and not all networks are
  malformed.**
-/

namespace FileNest

open RowStore

/-- The lists of a configuration. -/
inductive ListField where
  | mimeTypes | extensions | networks | origins
  deriving DecidableEq

/-- The text that is stored. -/
def ListField.column (config : ProjectConfig) : ListField → Option String
  | mimeTypes => config.allowedMimeTypes
  | extensions => config.allowedExtensions
  | networks => config.allowedIps
  | origins => config.allowedOrigins

/-- A list that is supplied replaces the text. -/
def ListField.supply (values : List String) (record : ProjectConfig) : ListField → ProjectConfig
  | mimeTypes => { record with allowedMimeTypes := joinCsv values }
  | extensions => { record with allowedExtensions := joinCsv values }
  | networks => { record with allowedIps := joinCsv values }
  | origins => { record with allowedOrigins := joinCsv values }

/-- The update that supplies a list. -/
def ListField.update (ctx : TenantContext) (env : Env) (db : Database) (projectId : String)
    (values : List String) : ListField → ServiceResult
  | mimeTypes => ProjectConfigService.updateUploadConfig ctx env db projectId
      { devUploadConfig with allowedMimeTypes := some values }
  | extensions => ProjectConfigService.updateUploadConfig ctx env db projectId
      { devUploadConfig with allowedExtensions := some values }
  | networks => ProjectConfigService.updateSecurityConfig ctx env db projectId
      { devSecurityConfig with allowedIps := some values }
  | origins => ProjectConfigService.updateSecurityConfig ctx env db projectId
      { devSecurityConfig with allowedOrigins := some values }

/-- The list that is shown. -/
def ListField.shown (response : ProjectConfigResponse) : ListField → Option (List String)
  | mimeTypes => response.allowedMimeTypes
  | extensions => response.allowedExtensions
  | networks => response.allowedIps
  | origins => response.allowedOrigins

/-- `_restore_project_bucket_cors`: whose bucket gets which origins, unless no provider can be
built. -/
def restoreProjectBucketCors (settings : Settings) (crypto : Crypto) (storageCfg : StorageConfig)
    (projectCfg : Option ProjectConfig) : Option (StorageProvider × List String) :=
  let origins :=
    match orNone (projectCfg.bind ProjectConfig.allowedOrigins) with
    | none => ["*"]
    | some csv =>
        let parsed := ((Text.split ',' csv).filter fun o => Text.strip o != "").map Text.strip
        if parsed = [] then ["*"] else parsed
  (buildProvider settings crypto storageCfg).toOption.map fun provider => (provider, origins)

/-- The elements of a list that are not blank, trimmed. -/
def trimmed (values : List String) : List String := (values.map Text.strip).filter (· != "")

/-- The consumers of a column go by the list that is shown; where none is, there is no
restriction. -/
def ListEnforced (ip : IpParsers) (config : ProjectConfig) : ListField → Prop
  | .mimeTypes => ∀ filename contentType sizeBytes,
      validateUploadRequest config filename contentType sizeBytes = .ok () ↔
        validateUploadRequest { config with allowedMimeTypes := none } filename contentType
            sizeBytes = .ok () ∧
          ∀ types, ListField.mimeTypes.shown (.ofRecord config) = some types →
            Text.lower contentType ∈ types.map Text.lower
  | .extensions => ∀ filename contentType sizeBytes,
      validateUploadRequest config filename contentType sizeBytes = .ok () ↔
        validateUploadRequest { config with allowedExtensions := none } filename contentType
            sizeBytes = .ok () ∧
          ∀ extensions, ListField.extensions.shown (.ofRecord config) = some extensions →
            Text.lower (Text.pathSuffix filename) ∈ extensions.map Text.lower
  | .networks => ∀ request, checkIpAllowlist ip request config.allowedIps = .ok () ↔
      ∀ cidrs, ListField.networks.shown (.ofRecord config) = some cidrs →
        ∃ a, ip.ipAddress request.callerIp = some a ∧
          ∃ cidr ∈ cidrs, ∃ network, ip.ipNetwork cidr = some network ∧ network.contains a = true
  | .origins =>
      parseOrigins config.allowedOrigins = ListField.origins.shown (.ofRecord config) ∧
      (∀ ctx env db projectId p origins,
        ProjectConfigService.syncBucketCors ctx env db projectId config = some (p, origins) →
          origins = (ListField.origins.shown (.ofRecord config)).getD ["*"]) ∧
      ∀ settings crypto storageCfg p origins,
        restoreProjectBucketCors settings crypto storageCfg (some config) = some (p, origins) →
          origins = (ListField.origins.shown (.ofRecord config)).getD ["*"]

/-- A list that is supplied is shown again, without blanks; if it is not empty, it is stored; and
it is enforced as it is shown. -/
structure ListAgrees (ip : IpParsers) (field : ListField) (values : List String) : Prop where
  shown : ∀ config, field.column config = joinCsv values →
    (field.shown (.ofRecord config)).getD [] = trimmed values
  stored : values ≠ [] → joinCsv values ≠ none
  enforced : ∀ config, field.column config = joinCsv values → ListEnforced ip config field

/-- What an update must supply. -/
structure ListClean (ip : IpParsers) (field : ListField) (values : List String) : Prop where
  comma : ∀ v ∈ values, ',' ∉ v.toList
  blank : values ≠ [] → ∃ v ∈ values, Text.strip v ≠ ""
  network : field = .networks → values ≠ [] →
    ∃ v ∈ values, Text.strip v ≠ "" ∧ (ip.ipNetwork (Text.strip v)).isSome

/-! ### The text -/

section Text

variable {values : List String}

theorem shown_eq (field : ListField) (config : ProjectConfig) :
    field.shown (.ofRecord config) = splitCsv (field.column config) := by
  cases field with
  | mimeTypes => rfl
  | extensions => rfl
  | networks => rfl
  | origins => rfl

theorem mem_trimmed {w : String} :
    w ∈ trimmed values ↔ ∃ v ∈ values, Text.strip v = w ∧ w ≠ "" := by
  rw [trimmed, List.mem_filter, List.mem_map]
  constructor
  · rintro ⟨⟨v, hv, rfl⟩, hne⟩
    exact ⟨v, hv, rfl, by simpa using hne⟩
  · rintro ⟨v, hv, rfl, hne⟩
    exact ⟨⟨v, hv, rfl⟩, by simpa using hne⟩

theorem strip_of_mem_trimmed {w : String} (h : w ∈ trimmed values) : Text.strip w = w := by
  obtain ⟨v, -, rfl, -⟩ := mem_trimmed.mp h
  exact Text.stripBy_stripBy _ _

/-- Trimming what is trimmed. -/
theorem trimmed_trimmed : trimmed (trimmed values) = trimmed values := by
  have hmap : (trimmed values).map Text.strip = trimmed values :=
    (List.map_congr_left fun w hw => strip_of_mem_trimmed hw).trans (List.map_id _)
  rw [trimmed, hmap, List.filter_eq_self]
  intro w hw
  obtain ⟨-, -, -, hne⟩ := mem_trimmed.mp hw
  simpa using hne

theorem trimmed_eq_nil : trimmed values = [] ↔ ∀ v ∈ values, Text.strip v = "" := by
  rw [List.eq_nil_iff_forall_not_mem]
  constructor
  · intro h v hv
    by_contra hne
    exact h _ (mem_trimmed.mpr ⟨v, hv, rfl, hne⟩)
  · intro h w hw
    obtain ⟨v, hv, rfl, hne⟩ := mem_trimmed.mp hw
    exact hne (h v hv)

/-- A comma is not trimmed. -/
theorem comma_mem_strip {v : String} : ',' ∈ (Text.strip v).toList ↔ ',' ∈ v.toList :=
  Text.mem_stripBy rfl

theorem comma_notMem_trimmed (h : ∀ v ∈ values, ',' ∉ v.toList) :
    ∀ w ∈ trimmed values, ',' ∉ w.toList := by
  intro w hw
  obtain ⟨v, hv, rfl, -⟩ := mem_trimmed.mp hw
  rw [comma_mem_strip]
  exact h v hv

theorem joinWith_ne_empty {w : String} (hw : w ≠ "") (sep : String) (ws : List String) :
    Text.joinWith sep (w :: ws) ≠ "" := by
  cases ws with
  | nil => exact hw
  | cons w' ws =>
    intro h
    have hlength := congrArg String.toList h
    rw [Text.joinWith, String.toList_append, String.toList_append] at hlength
    · have hnil := (List.append_eq_nil_iff.mp (List.append_eq_nil_iff.mp hlength).1).1
      exact hw (String.toList_injective hnil)
    · intro hnil
      cases hnil

/-- What is stored of a list. -/
theorem joinCsv_cases (values : List String) : (trimmed values = [] ∧ joinCsv values = none) ∨
    (trimmed values ≠ [] ∧ Text.joinWith "," (trimmed values) ≠ "" ∧
      joinCsv values = some (Text.joinWith "," (trimmed values))) := by
  show (_ ∧ orNone (some (Text.joinWith "," (trimmed values))) = none) ∨
    (_ ∧ _ ∧ orNone (some (Text.joinWith "," (trimmed values))) = _)
  cases htrimmed : trimmed values with
  | nil => exact .inl ⟨rfl, rfl⟩
  | cons w ws =>
    obtain ⟨-, -, -, hw⟩ := mem_trimmed.mp (htrimmed ▸ List.mem_cons_self)
    have hne := joinWith_ne_empty hw "," ws
    exact .inr ⟨List.cons_ne_nil _ _, hne, orNone_of_ne hne⟩

theorem joinCsv_eq_none : joinCsv values = none ↔ trimmed values = [] := by
  rcases joinCsv_cases values with ⟨hnil, hnone⟩ | ⟨hne, -, hsome⟩
  · exact iff_of_true hnone hnil
  · rw [hsome]
    exact iff_of_false nofun hne

/-- Without commas the text is taken apart into the list. -/
theorem split_joinCsv (h : ∀ v ∈ values, ',' ∉ v.toList) {csv : String}
    (hcsv : joinCsv values = some csv) :
    csv ≠ "" ∧ trimmed values ≠ [] ∧ Text.split ',' csv = trimmed values := by
  rcases joinCsv_cases values with ⟨-, hnone⟩ | ⟨hne, hempty, hsome⟩
  · rw [hnone] at hcsv
    cases hcsv
  · obtain rfl := Option.some.inj (hsome.symm.trans hcsv)
    exact ⟨hempty, hne, Text.split_joinWith rfl (comma_notMem_trimmed h) hne⟩

theorem splitCsv_some {csv : String} (hcsv : csv ≠ "") :
    splitCsv (some csv) = some (trimmed (Text.split ',' csv)) := by
  rw [splitCsv, orNone_of_ne hcsv]
  rfl

/-- **Without commas the text is the list.** -/
theorem splitCsv_joinCsv (h : ∀ v ∈ values, ',' ∉ v.toList) :
    splitCsv (joinCsv values) = if trimmed values = [] then none else some (trimmed values) := by
  cases hcsv : joinCsv values with
  | none =>
    rw [if_pos (joinCsv_eq_none.mp hcsv)]
    rfl
  | some csv =>
    obtain ⟨hempty, hne, hsplit⟩ := split_joinCsv h hcsv
    rw [splitCsv_some hempty, hsplit, trimmed_trimmed, if_neg hne]

/-- What is shown has no comma. -/
theorem comma_of_shown (h : (splitCsv (joinCsv values)).getD [] = trimmed values) :
    ∀ v ∈ values, ',' ∉ v.toList := by
  intro v hv hcomma
  rw [← comma_mem_strip] at hcomma
  have hne : Text.strip v ≠ "" := by
    intro hblank
    rw [hblank] at hcomma
    cases hcomma
  have hmem : Text.strip v ∈ trimmed values := mem_trimmed.mpr ⟨v, hv, rfl, hne⟩
  rw [← h] at hmem
  rcases joinCsv_cases values with ⟨-, hnone⟩ | ⟨-, hempty, hsome⟩
  · rw [hnone] at hmem
    cases hmem
  · rw [hsome, splitCsv_some hempty] at hmem
    obtain ⟨piece, hpiece, hstrip, -⟩ := mem_trimmed.mp hmem
    rw [← hstrip, comma_mem_strip] at hcomma
    exact Text.notMem_of_mem_split hpiece hcomma

end Text

/-! ### The consumers -/

section Consumers

variable {ip : IpParsers} {config : ProjectConfig} {values : List String}

theorem mem_csvSet {csv x : String} :
    x ∈ csvSet csv ↔ x ∈ (Text.split ',' csv).map fun m => Text.lower (Text.strip m) :=
  mem_dictFromKeys

/-- The set of an upload's check is the list that is shown, in lower case. -/
theorem mem_csvSet_joinCsv (h : ∀ v ∈ values, ',' ∉ v.toList) {csv x : String}
    (hcsv : joinCsv values = some csv) :
    x ∈ csvSet csv ↔ x ∈ (trimmed values).map Text.lower := by
  obtain ⟨-, -, hsplit⟩ := split_joinCsv h hcsv
  rw [mem_csvSet, hsplit]
  have hmap : (trimmed values).map (fun m => Text.lower (Text.strip m))
      = (trimmed values).map Text.lower :=
    List.map_congr_left fun w hw => congrArg Text.lower (strip_of_mem_trimmed hw)
  rw [hmap]

/-- A list without commas is enforced as it is stored. -/
theorem checkContentType_joinCsv (h : ∀ v ∈ values, ',' ∉ v.toList)
    (hcolumn : config.allowedMimeTypes = joinCsv values) (contentType : String) :
    checkContentType config contentType = .ok () ↔
      ∀ types, splitCsv (joinCsv values) = some types →
        Text.lower contentType ∈ types.map Text.lower := by
  rw [checkContentType, hcolumn, splitCsv_joinCsv h]
  cases hcsv : joinCsv values with
  | none =>
    rw [if_pos (joinCsv_eq_none.mp hcsv)]
    refine iff_of_true rfl fun types htypes => ?_
    cases htypes
  | some csv =>
    obtain ⟨hempty, hne, -⟩ := split_joinCsv h hcsv
    rw [if_neg hne, orNone_of_ne hempty]
    simp only [Option.some.injEq, forall_eq']
    rw [← mem_csvSet_joinCsv h hcsv]
    by_cases hmem : Text.lower contentType ∈ csvSet csv
    · rw [if_pos hmem]
      exact iff_of_true rfl hmem
    · rw [if_neg hmem]
      refine iff_of_false (fun hok => ?_) hmem
      cases hok

theorem checkExtension_joinCsv (h : ∀ v ∈ values, ',' ∉ v.toList)
    (hcolumn : config.allowedExtensions = joinCsv values) (filename : String) :
    checkExtension config filename = .ok () ↔
      ∀ extensions, splitCsv (joinCsv values) = some extensions →
        Text.lower (Text.pathSuffix filename) ∈ extensions.map Text.lower := by
  rw [checkExtension, hcolumn, splitCsv_joinCsv h]
  cases hcsv : joinCsv values with
  | none =>
    rw [if_pos (joinCsv_eq_none.mp hcsv)]
    exact iff_of_true rfl nofun
  | some csv =>
    obtain ⟨hempty, hne, -⟩ := split_joinCsv h hcsv
    rw [if_neg hne, orNone_of_ne hempty]
    simp only [Option.some.injEq, forall_eq']
    rw [← mem_csvSet_joinCsv h hcsv]
    by_cases hext : Text.lower (Text.pathSuffix filename) = ""
    · -- no element of the list is blank
      have hblank : Text.lower (Text.pathSuffix filename) ∉ csvSet csv := by
        rw [mem_csvSet_joinCsv h hcsv, hext]
        intro hmem
        obtain ⟨w, hw, hlower⟩ := List.mem_map.mp hmem
        obtain ⟨-, -, -, hne⟩ := mem_trimmed.mp hw
        exact hne (Text.lower_eq_empty.mp hlower)
      rw [if_pos hext]
      exact iff_of_false nofun hblank
    · rw [if_neg hext]
      by_cases hmem : Text.lower (Text.pathSuffix filename) ∈ csvSet csv
      · rw [if_pos hmem]
        exact iff_of_true rfl hmem
      · rw [if_neg hmem]
        exact iff_of_false nofun hmem

theorem enforced_mimeTypes (h : ∀ v ∈ values, ',' ∉ v.toList)
    (hcolumn : config.allowedMimeTypes = joinCsv values) :
    ListEnforced ip config .mimeTypes := by
  intro filename contentType sizeBytes
  rw [shown_eq, ListField.column, hcolumn, ← checkContentType_joinCsv h hcolumn,
    validateUploadRequest_eq_ok, validateUploadRequest_eq_ok]
  constructor
  · rintro ⟨hsize, htype, hextension⟩
    exact ⟨⟨hsize, rfl, hextension⟩, htype⟩
  · rintro ⟨⟨hsize, -, hextension⟩, htype⟩
    exact ⟨hsize, htype, hextension⟩

theorem enforced_extensions (h : ∀ v ∈ values, ',' ∉ v.toList)
    (hcolumn : config.allowedExtensions = joinCsv values) :
    ListEnforced ip config .extensions := by
  intro filename contentType sizeBytes
  rw [shown_eq, ListField.column, hcolumn, ← checkExtension_joinCsv h hcolumn,
    validateUploadRequest_eq_ok, validateUploadRequest_eq_ok]
  constructor
  · rintro ⟨hsize, htype, hextension⟩
    exact ⟨⟨hsize, htype, rfl⟩, hextension⟩
  · rintro ⟨⟨hsize, htype, -⟩, hextension⟩
    exact ⟨hsize, htype, hextension⟩

/-- Filtering before trimming. -/
theorem filter_strip (pieces : List String) :
    (pieces.filter fun o => Text.strip o != "").map Text.strip = trimmed pieces := by
  rw [trimmed, List.filter_map]
  rfl

/-- The origins that `_sync_bucket_cors` hands to the bucket. -/
theorem syncBucketCors_origins {ctx : TenantContext} {env : Env} {db : Database}
    {projectId : String} {p : StorageProvider} {origins : List String}
    (hsync : ProjectConfigService.syncBucketCors ctx env db projectId config = some (p, origins)) :
    origins = match splitCsv config.allowedOrigins with
      | some (origin :: origins) => origin :: origins
      | _ => ["*"] := by
  unfold ProjectConfigService.syncBucketCors at hsync
  simp only at hsync
  split at hsync
  · exact (Prod.mk.inj (Option.some.inj hsync)).2.symm
  · obtain ⟨_, -, heq⟩ := Option.map_eq_some_iff.mp hsync
    exact (Prod.mk.inj heq).2.symm
  · cases hsync

/-- The origins that a bucket is given when the application starts. -/
theorem restoreProjectBucketCors_origins {settings : Settings} {crypto : Crypto}
    {storageCfg : StorageConfig} {p : StorageProvider} {origins : List String}
    (hrestore : restoreProjectBucketCors settings crypto storageCfg (some config)
      = some (p, origins)) :
    origins = match splitCsv config.allowedOrigins with
      | some (origin :: origins) => origin :: origins
      | _ => ["*"] := by
  obtain ⟨_, -, heq⟩ := Option.map_eq_some_iff.mp hrestore
  rw [← (Prod.mk.inj heq).2]
  show (match orNone config.allowedOrigins with | none => _ | some csv => _) = _
  cases hcsv : orNone config.allowedOrigins with
  | none =>
    rw [splitCsv, hcsv]
    rfl
  | some csv =>
    rw [splitCsv, hcsv]
    simp only [filter_strip]
    show _ = match some (trimmed (Text.split ',' csv)) with
      | some (origin :: origins) => origin :: origins
      | _ => ["*"]
    cases trimmed (Text.split ',' csv) with
    | nil => rfl
    | cons origin origins => rfl

theorem enforced_origins (h : ∀ v ∈ values, ',' ∉ v.toList)
    (hcolumn : config.allowedOrigins = joinCsv values) :
    ListEnforced ip config .origins := by
  have hgiven : (match splitCsv config.allowedOrigins with
      | some (origin :: origins) => origin :: origins
      | _ => ["*"]) = (splitCsv config.allowedOrigins).getD ["*"] := by
    rw [hcolumn, splitCsv_joinCsv h]
    cases trimmed values with
    | nil => rfl
    | cons origin origins => rfl
  simp only [ListEnforced]
  rw [shown_eq, ListField.column, ← hgiven]
  refine ⟨?_, fun _ _ _ _ _ _ hsync => syncBucketCors_origins hsync,
    fun _ _ _ _ _ hrestore => restoreProjectBucketCors_origins hrestore⟩
  rw [hcolumn, splitCsv_joinCsv h]
  cases hcsv : joinCsv values with
  | none =>
    rw [if_pos (joinCsv_eq_none.mp hcsv)]
    rfl
  | some csv =>
    obtain ⟨hempty, hne, hsplit⟩ := split_joinCsv h hcsv
    rw [if_neg hne, parseOrigins]
    simp only [hempty, if_false, hsplit, filter_strip, trimmed_trimmed, hne]

/-- The allowlist looks at the well-formed elements of the list. -/
theorem allowedNetworks_joinCsv (ip : IpParsers) (h : ∀ v ∈ values, ',' ∉ v.toList) :
    allowedNetworks ip (joinCsv values) = (trimmed values).filterMap ip.ipNetwork := by
  cases hcsv : joinCsv values with
  | none =>
    rw [joinCsv_eq_none.mp hcsv]
    rfl
  | some csv =>
    obtain ⟨-, -, hsplit⟩ := split_joinCsv h hcsv
    show (trimmed (Text.split ',' csv)).filterMap ip.ipNetwork = _
    rw [hsplit, trimmed_trimmed]

theorem enforced_networks_iff (h : ∀ v ∈ values, ',' ∉ v.toList)
    (hcolumn : config.allowedIps = joinCsv values) :
    ListEnforced ip config .networks ↔
      (trimmed values ≠ [] → (trimmed values).filterMap ip.ipNetwork ≠ []) := by
  simp only [ListEnforced]
  rw [shown_eq, ListField.column, hcolumn, splitCsv_joinCsv h]
  have hnetworks := allowedNetworks_joinCsv ip h
  by_cases hnil : trimmed values = []
  · rw [if_pos hnil]
    refine iff_of_true (fun request => iff_of_true ?_ nofun) (absurd hnil)
    exact checkIpAllowlist_of_empty (by rw [hnetworks, hnil]; rfl) request
  · rw [if_neg hnil]
    simp only [Option.some.injEq, forall_eq', ne_eq, hnil, not_false_iff, forall_const]
    rw [← ne_eq, ← hnetworks]
    constructor
    · intro henforced hempty
      -- nobody is in a network, and everybody is permitted
      obtain ⟨a, -, cidr, hcidr, network, hnetwork, -⟩ :=
        (henforced {}).mp (checkIpAllowlist_of_empty hempty _)
      rw [hnetworks] at hempty
      have hmem : network ∈ (trimmed values).filterMap ip.ipNetwork :=
        List.mem_filterMap.mpr ⟨cidr, hcidr, hnetwork⟩
      rw [hempty] at hmem
      cases hmem
    · intro hne request
      rw [checkIpAllowlist_eq_ok hne, hnetworks]
      simp only [List.mem_filterMap]
      refine exists_congr fun a => and_congr_right fun _ => ?_
      constructor
      · rintro ⟨network, ⟨cidr, hcidr, hnetwork⟩, hcontains⟩
        exact ⟨cidr, hcidr, network, hnetwork, hcontains⟩
      · rintro ⟨cidr, hcidr, network, hnetwork, hcontains⟩
        exact ⟨network, ⟨cidr, hcidr, hnetwork⟩, hcontains⟩

end Consumers

/-- The update that supplies the list and nothing else. -/
theorem update_eq_updateWith (ctx : TenantContext) (env : Env) (db : Database) (projectId : String)
    (field : ListField) (values : List String) : field.update ctx env db projectId values
      = ProjectConfigService.updateWith ctx env db projectId (field.supply values) := by
  cases field with
  | mimeTypes => rfl
  | extensions => rfl
  | networks => rfl
  | origins => rfl

theorem column_supply (field : ListField) (values : List String) (record : ProjectConfig) :
    field.column (field.supply values record) = joinCsv values := by
  cases field with
  | mimeTypes => rfl
  | extensions => rfl
  | networks => rfl
  | origins => rfl

/-- What is agreed on has no commas, and says something. -/
theorem ListAgrees.clean {ip : IpParsers} {field : ListField} {values : List String}
    (hagrees : ListAgrees ip field values) : ListClean ip field values := by
  have hconfig := column_supply field values
    { id := "", organizationId := "", projectId := "", createdAt := 0, updatedAt := 0 }
  have hshown := hagrees.shown _ hconfig
  rw [shown_eq, hconfig] at hshown
  have hcomma := comma_of_shown hshown
  refine ⟨hcomma, fun hne => ?_, ?_⟩
  · have hstored := hagrees.stored hne
    rw [Ne, joinCsv_eq_none, trimmed_eq_nil] at hstored
    simpa only [not_forall, exists_prop] using hstored
  · rintro rfl hne
    have hstored := hagrees.stored hne
    rw [Ne, joinCsv_eq_none] at hstored
    have hsome := (enforced_networks_iff hcomma hconfig).mp (hagrees.enforced _ hconfig) hstored
    obtain ⟨network, hnetwork⟩ := List.exists_mem_of_ne_nil _ hsome
    obtain ⟨w, hw, hparse⟩ := List.mem_filterMap.mp hnetwork
    obtain ⟨v, hv, rfl, hblank⟩ := mem_trimmed.mp hw
    exact ⟨v, hv, hblank, by rw [hparse]; rfl⟩

/-- Some network is well-formed. -/
theorem filterMap_trimmed_ne_nil {ip : IpParsers} {values : List String}
    (h : ∃ v ∈ values, Text.strip v ≠ "" ∧ (ip.ipNetwork (Text.strip v)).isSome) :
    (trimmed values).filterMap ip.ipNetwork ≠ [] := by
  obtain ⟨v, hv, hstrip, hparse⟩ := h
  obtain ⟨network, hparse⟩ := Option.isSome_iff_exists.mp hparse
  exact List.ne_nil_of_mem
    (List.mem_filterMap.mpr ⟨_, mem_trimmed.mpr ⟨v, hv, rfl, hstrip⟩, hparse⟩)

/-- What says something without commas is agreed on. -/
theorem ListClean.agrees {ip : IpParsers} {field : ListField} {values : List String}
    (hclean : ListClean ip field values) : ListAgrees ip field values := by
  obtain ⟨hcomma, hblank, hnetwork⟩ := hclean
  refine ⟨fun config hconfig => ?_, fun hne hnone => ?_, fun config hconfig => ?_⟩
  · rw [shown_eq, hconfig, splitCsv_joinCsv hcomma]
    by_cases hnil : trimmed values = []
    · rw [if_pos hnil, hnil]
      rfl
    · rw [if_neg hnil]
      rfl
  · obtain ⟨v, hv, hstrip⟩ := hblank hne
    exact hstrip (trimmed_eq_nil.mp (joinCsv_eq_none.mp hnone) v hv)
  · cases field with
    | mimeTypes => exact enforced_mimeTypes hcomma hconfig
    | extensions => exact enforced_extensions hcomma hconfig
    | origins => exact enforced_origins hcomma hconfig
    | networks =>
      refine (enforced_networks_iff hcomma hconfig).mpr fun hne => ?_
      have hvalues : values ≠ [] := by
        rintro rfl
        exact hne rfl
      exact filterMap_trimmed_ne_nil (hnetwork rfl hvalues)

/-- **A list is shown again, restricts and is enforced exactly if no element has a comma, not all
of them are blank**, and, of networks, not all are malformed. -/
theorem listAgrees_iff (ip : IpParsers) (field : ListField) (values : List String) :
    ListAgrees ip field values ↔ ListClean ip field values :=
  ⟨ListAgrees.clean, ListClean.agrees⟩

/-- A blank origin lifts the restriction, and two types in one element are shown as two. -/
theorem lists_disagree : ¬ ListAgrees officeIp .origins [" "] ∧
    splitCsv (joinCsv ["image/png,image/gif"]) = some ["image/png", "image/gif"] ∧
      ¬ ListAgrees officeIp .mimeTypes ["image/png,image/gif"] := by
  refine ⟨fun hagrees => hagrees.stored (List.cons_ne_nil _ _) (by decide), by decide,
    fun hagrees => ?_⟩
  have hshown := hagrees.shown _ (column_supply .mimeTypes ["image/png,image/gif"]
    { id := "", organizationId := "", projectId := "", createdAt := 0, updatedAt := 0 })
  rw [shown_eq, column_supply] at hshown
  exact comma_of_shown hshown "image/png,image/gif" List.mem_cons_self (by decide)

end FileNest
