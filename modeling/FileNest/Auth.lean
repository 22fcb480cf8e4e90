import FileNest.Errors
import FileNest.Lib.Text
import FileNest.Models

/-!
# The caller of a request

`TenantContext` is what every service sees of the bearer token.  A request handler
asserts a scope, the dependency factories assert that a project-scoped token names
the project in the URL, and most of them consult the project's IP allowlist.

## Main definitions

* `TenantContext` — the resolved caller.
* `verifyUploadToken` — the context an `upload_tokens` row yields.
* `requireScope`, `requireProject`, `checkIpAllowlist` — the three gates.
* `resolveTtl` — the lifetime of a presigned URL.
-/

namespace FileNest

/-- The resolved caller of a request. -/
structure TenantContext where
  organizationId : String
  projectId : Option String
  actorId : String
  scopes : List String
  isTestMode : Bool := false
  ownerUserId : Option String := none
  ownerOrgId : Option String := none
  uploadTokenFolderId : Option String := none
  uploadTokenDefaultMetadata : Option Fields := none
  uploadTokenDefaultTags : Option (List String) := none
  uploadTokenAllowedMimeTypes : Option (List String) := none
  uploadTokenMaxSize : Option ℤ := none
  uploadTokenMaxFiles : Option ℤ := none

/-- `x or None` on optional text: the empty string counts as absent. -/
def orNone : Option String → Option String
  | some "" => none
  | s => s

theorem orNone_of_ne {s : String} (h : s ≠ "") : orNone (some s) = some s := by
  unfold orNone
  split
  · next heq => exact absurd (Option.some.inj heq) h
  · rfl

/-- `UploadTokenRepository.get_by_token`: expired tokens are not found. -/
def UploadTokenRepository.getByToken (db : Database) (now : ℕ) (token : String) :
    Except ApiError (Option UploadToken) :=
  scalarOneOrNone ((db .uploadTokens).filter fun (r : UploadToken) =>
    r.token == token && decide (now < r.expiresAt))

/-- The context of an upload token: two scopes and the project it was issued for. -/
def uploadTokenContext (record : UploadToken) : TenantContext where
  organizationId := record.organizationId
  projectId := some record.projectId
  actorId := "upload_token:" ++ record.id
  scopes := ["files:upload", "files:read"]
  ownerUserId := record.ownerUserId
  ownerOrgId := orNone record.ownerOrgId
  uploadTokenFolderId := record.folderId
  uploadTokenDefaultMetadata := record.defaultMetadata
  uploadTokenDefaultTags := record.defaultTags
  uploadTokenAllowedMimeTypes := record.allowedMimeTypes
  uploadTokenMaxSize := record.maxSize
  uploadTokenMaxFiles := record.maxFiles

/-- `_verify_upload_token`. -/
def verifyUploadToken (db : Database) (now : ℕ) (token : String) :
    Except ApiError TenantContext := do
  match ← UploadTokenRepository.getByToken db now token with
  | none => throw (.http 401 [("code", .str "INVALID_UPLOAD_TOKEN")])
  | some record => pure (uploadTokenContext record)

/-- `require_scope`: every scope listed must be granted. -/
def requireScope (ctx : TenantContext) : List String → Except ApiError Unit
  | [] => pure ()
  | s :: ss =>
      if s ∈ ctx.scopes then requireScope ctx ss
      else throw (.http 403 [("code", .str "FORBIDDEN"), ("required_scope", .str s)])

/-- What a project-scoped token meets on another project's URL. -/
def projectMismatch : ApiError :=
  .http 403 [("code", .str "PROJECT_MISMATCH"),
    ("message", .str "Token is scoped to a different project.")]

/-- The check the dependency factories open with: a project-scoped token only works on
its own project. -/
def requireProject (ctx : TenantContext) (projectId : String) : Except ApiError Unit :=
  match ctx.projectId with
  | none => pure ()
  | some p => if p = projectId then pure () else throw projectMismatch

/-- An IPv4 or IPv6 address. -/
inductive IpAddress where
  | v4 (bits : BitVec 32)
  | v6 (bits : BitVec 128)
  deriving DecidableEq

/-- A network: an address in it and the number of leading bits its addresses share. -/
structure IpNetwork where
  address : IpAddress
  prefixLength : ℕ

/-- `address in network`: addresses of the other version never are. -/
def IpNetwork.contains (network : IpNetwork) : IpAddress → Bool
  | .v4 a => match network.address with
    | .v4 b => a >>> (32 - network.prefixLength) == b >>> (32 - network.prefixLength)
    | .v6 _ => false
  | .v6 a => match network.address with
    | .v4 _ => false
    | .v6 b => a >>> (128 - network.prefixLength) == b >>> (128 - network.prefixLength)

/-- The parsers of Python's `ipaddress` module. -/
structure IpParsers where
  /-- `ip_address(text)`. -/
  ipAddress : String → Option IpAddress
  /-- `ip_network(text, strict=False)`. -/
  ipNetwork : String → Option IpNetwork

/-- The headers and peer of a request that the program reads. -/
structure ClientInfo where
  /-- `X-Forwarded-For`, empty when absent. -/
  xForwardedFor : String := ""
  /-- `request.client.host`. -/
  clientHost : Option String := none

/-- The caller's address: the first forwarded one, else the peer's. -/
def ClientInfo.callerIp (request : ClientInfo) : String :=
  if request.xForwardedFor = "" then request.clientHost.getD "127.0.0.1"
  else Text.strip ((Text.split ',' request.xForwardedFor).headD "")

/-- `check_ip_allowlist`: entries that do not parse are skipped. -/
def checkIpAllowlist (ip : IpParsers) (request : ClientInfo) :
    Option String → Except ApiError Unit
  | none => pure ()
  | some "" => pure ()
  | some csv =>
      let cidrs := ((Text.split ',' csv).map Text.strip).filter (· != "")
      let allowedNetworks := cidrs.filterMap ip.ipNetwork
      if allowedNetworks.isEmpty then pure () else
      match ip.ipAddress request.callerIp with
      | none => throw (permissionDeniedError ("IP allowlist check failed: cannot parse caller " ++
          "address " ++ Text.quoted request.callerIp))
      | some callerIp =>
          if allowedNetworks.any fun network => network.contains callerIp then pure ()
          else throw (permissionDeniedError "Caller IP is not in the project IP allowlist")

/-- `resolve_ttl`. -/
def resolveTtl (config : ProjectConfig) (callerTtl : Option ℕ) : ℕ :=
  if config.requireSignedUrls then config.signedUrlTtlSeconds
  else callerTtl.getD config.signedUrlTtlSeconds

/-- Upload-token callers are told by their actor id. -/
def TenantContext.isUploadToken (ctx : TenantContext) : Bool :=
  Text.startsWith ctx.actorId "upload_token:"

/-! ### What the gates let through -/

theorem requireScope_ok_iff {ctx : TenantContext} {ss : List String} :
    requireScope ctx ss = .ok () ↔ ∀ s ∈ ss, s ∈ ctx.scopes := by
  induction ss with
  | nil => simp [requireScope]
  | cons s ss ih =>
    simp only [requireScope]
    split
    · rename_i hs
      simp [ih, hs]
    · rename_i hs
      simp [hs]

theorem requireProject_ok_iff {ctx : TenantContext} {projectId : String} :
    requireProject ctx projectId = .ok () ↔ ∀ p, ctx.projectId = some p → p = projectId := by
  simp only [requireProject]
  cases ctx.projectId with
  | none => simp
  | some p => by_cases hp : p = projectId <;> simp [hp]

end FileNest
