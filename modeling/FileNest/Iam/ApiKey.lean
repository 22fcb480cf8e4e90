import FileNest.Auth

/-!
# API keys, from creation to a request

A user creates a key for an organisation with metadata of their choice; the key plugin
checks the membership and stores the metadata.  When the key is presented, the backend
posts it to the IAM, and the IAM answers with what the metadata says.  The reference the
plugin checked is not consulted again.

## Main definitions

* `getUserPermissions` — the permissions of a member.
* `ApiKeyPlugin` — the key plugin, as far as the IAM uses it.
* `verifyApiKeyRoute` — the IAM's internal endpoint.
* `verifyApiKey` — the context the backend builds from its answer.
* `Authority` — the context is of the organisation, within the creator's permissions.
* `MetadataWithin` — what the metadata must say for that.

## Main results

* `presentKey_of_stored` — the context, read off the metadata.
* `apiKey_authority_iff` — **a key has no more authority than its creator exactly if its
  metadata claims none.**
-/

namespace FileNest

namespace Iam

/-! ### Members and permissions -/

/-- A membership; `role` is a comma-separated list. -/
structure Member where
  userId : String
  organizationId : String
  role : String

/-- A role of an organisation; `permission` is what its JSON text denotes, `none` if the
text does not parse. -/
structure OrganizationRole where
  organizationId : String
  role : String
  permission : Option (List (String × List String))

/-- The IAM's tables of members and roles. -/
structure State where
  members : List Member
  organizationRoles : List OrganizationRole

/-- `DEFAULT_ORG_ROLE_PERMISSIONS.owner`. -/
def ownerPermissions : List String :=
  ["files:upload", "files:download", "files:read", "files:delete", "files:metadata",
    "folders:read", "folders:write", "upload_tokens:create", "webhooks:read", "webhooks:write",
    "projects:read", "projects:update", "audit:read", "compliance:manage"]

/-- `orgPermissionJsonToKeys`. -/
def orgPermissionJsonToKeys : Option (List (String × List String)) → List String
  | none => []
  | some entries => entries.flatMap fun (resource, actions) =>
      actions.map fun action => resource ++ ":" ++ action

/-- `getUserPermissions`: owners fall back on the defaults while no role is on record. -/
def getUserPermissions (st : State) (userId organizationId : String) : List String :=
  match st.members.find? fun m => m.userId == userId && m.organizationId == organizationId with
  | none => []
  | some member =>
      let roles := ((Text.split ',' member.role).map Text.trim).filter (· != "")
      let orgRoles := st.organizationRoles.filter fun r =>
        r.organizationId == organizationId && roles.contains r.role
      if orgRoles.isEmpty then if roles.contains "owner" then ownerPermissions else []
      else orgRoles.flatMap fun r => orgPermissionJsonToKeys r.permission

/-! ### The key plugin -/

/-- Body of the key endpoint. -/
structure CreateApiKeyBody where
  organizationId : String
  metadata : Fields

/-- A key on record. -/
structure ApiKey where
  key : String
  referenceId : String
  userId : Option String
  metadata : Option Fields

/-- The key plugin, over the keys it keeps. -/
structure ApiKeyPlugin (Keys : Type) where
  /-- `api-key/create`, for a signed-in user. -/
  createApiKey : State → Keys → (userId : String) → CreateApiKeyBody → Option (ApiKey × Keys)
  /-- `auth.api.verifyApiKey`; `none` when it throws or finds the key invalid. -/
  verifyApiKey : Keys → (key : String) → Option ApiKey
  /-- The record is on file. -/
  Stored : Keys → ApiKey → Prop

/-- What the IAM relies on. -/
structure ApiKeyPlugin.Lawful {Keys : Type} (plugin : ApiKeyPlugin Keys) : Prop where
  /-- With `references: "organization"`, the creator is a member of the reference. -/
  checksMembership : ∀ {st ks userId body key ks'},
    plugin.createApiKey st ks userId body = some (key, ks') →
      ∃ m ∈ st.members, m.userId = userId ∧ m.organizationId = body.organizationId
  /-- With `enableMetadata`, the metadata is stored as given. -/
  storesMetadata : ∀ {st ks userId body key ks'},
    plugin.createApiKey st ks userId body = some (key, ks') →
      plugin.Stored ks' key ∧ key.referenceId = body.organizationId
        ∧ key.metadata = some body.metadata
  /-- A key starts with the default prefix; letters follow. -/
  startsWithPrefix : ∀ {st ks userId body key ks'},
    plugin.createApiKey st ks userId body = some (key, ks') →
      Text.startsWith key.key "fn_" = true ∧ Text.startsWith key.key "fn_upload_token_" = false
  /-- Verifying a key returns its record. -/
  returnsStored : ∀ {ks key}, plugin.Stored ks key → plugin.verifyApiKey ks key.key = some key

/-- The scopes of a key's metadata: an array's elements. -/
def metadataScopes (metadata : Fields) : List Json :=
  match metadata.get? "scopes" with
  | some (.arr scopes) => scopes
  | _ => []

/-- What the endpoint answers for a valid key; an `undefined` user is left out. -/
def keyPayload (key : String) (record : ApiKey) : Fields :=
  let metadata := record.metadata.getD []
  (record.userId.map fun u => ("userId", Json.str u)).toList ++
    [("organizationId", (metadata.get? "organizationId").getD .null),
     ("projectId", (metadata.get? "projectId").getD .null),
     ("scopes", .arr (metadataScopes metadata)),
     ("isTestMode", .bool (Text.startsWith key "fn_test_"))]

/-- `POST /api/internal/verify-api-key`: status and body of the answer. -/
def verifyApiKeyRoute (internalSecret : Option String) (verify : String → Option ApiKey)
    (secretHeader : Option String) (body : Fields) : ℕ × Fields :=
  if (orNone internalSecret).any fun secret => secretHeader != some secret then
    (401, [("error", .str "Unauthorized")])
  else match body.get? "key" with
    | some (.str key) =>
        if key = "" then (400, [("error", .str "Missing or invalid key")]) else
        match verify key with
        | none => (401, [("error", .str "INVALID_API_KEY")])
        | some record => (200, keyPayload key record)
    | _ => (400, [("error", .str "Missing or invalid key")])

end Iam

/-! ### The backend -/

/-- The kinds of bearer tokens `authenticate_request` tells apart. -/
inductive TokenKind where
  | uploadToken | apiKey | jwt
  deriving DecidableEq

/-- The dispatch of `authenticate_request`. -/
def tokenKind (token : String) : TokenKind :=
  if Text.startsWith token "fn_upload_token_" then .uploadToken
  else if Text.startsWith token "fn_" then .apiKey
  else .jwt

/-- Lists and dicts are not hashable. -/
def Json.hashable : Json → Bool
  | .arr _ | .obj _ => false
  | _ => true

/-- `data.get(key) or ""`. -/
def getOrEmpty (data : Fields) (key : String) : Json :=
  match data.get? key with
  | some v => if v.truthy then v else .str ""
  | none => .str ""

/-- `frozenset(xs)`, as a list. -/
def frozenset (xs : List Json) : Except ApiError (List Json) :=
  if xs.all Json.hashable then pure xs else throw (.unhandled "unhashable type")

/-- The `TenantContext` of an API key.  Its fields come out of the IAM's JSON unchecked. -/
structure ApiKeyContext where
  organizationId : Json
  projectId : Json
  actorId : Json
  scopes : List Json
  isTestMode : Bool

/-- `_verify_api_key`, with the IAM behind `post`: `none` when it cannot be reached.  The
IAM sends the scopes as a list. -/
def verifyApiKey (internalApiSecret : String) (post : Option String → Fields → Option (ℕ × Fields))
    (rawKey : String) : Except ApiError ApiKeyContext :=
  match post (orNone (some internalApiSecret)) [("key", .str rawKey)] with
  | none => throw (.http 503 [("code", .str "IAM_UNAVAILABLE")])
  | some (status, data) =>
      if status = 401 then throw (.http 401 [("code", .str "INVALID_API_KEY")])
      else if status ≠ 200 then throw (.http 503 [("code", .str "IAM_ERROR")])
      else do
        let scopes ← frozenset (Iam.metadataScopes data)
        return {
          organizationId := getOrEmpty data "organizationId"
          projectId := (data.get? "projectId").getD .null
          actorId := getOrEmpty data "userId"
          scopes := scopes
          isTestMode := Text.startsWith rawKey "fn_test_" }

/-! ### Authority -/

/-- The environments of the two programs. -/
structure Deployment where
  /-- `process.env.INTERNAL_API_SECRET` of the IAM. -/
  iamSecret : Option String
  /-- `settings.internal_api_secret` of the backend. -/
  backendSecret : String
  /-- They are one secret, or both empty. -/
  agree : orNone iamSecret = orNone (some backendSecret)

/-- What the backend makes of a key that is presented. -/
def presentKey {Keys : Type} (d : Deployment) (plugin : Iam.ApiKeyPlugin Keys) (ks : Keys)
    (key : String) : Except ApiError ApiKeyContext :=
  verifyApiKey d.backendSecret (fun header body =>
    some (Iam.verifyApiKeyRoute d.iamSecret (plugin.verifyApiKey ks) header body)) key

/-- Whatever context is built, it is of the organisation, with scopes the user holds. -/
def Authority (st : Iam.State) (userId organizationId : String)
    (x : Except ApiError ApiKeyContext) : Prop :=
  ∀ ctx, x = .ok ctx → ctx.organizationId = .str organizationId ∧
    ∀ s ∈ ctx.scopes, ∃ p ∈ Iam.getUserPermissions st userId organizationId, s = .str p

/-- The metadata names the organisation (or nothing, if its id were empty) and only scopes
the user holds.  Scopes that are lists or objects keep a context from being built. -/
def MetadataWithin (st : Iam.State) (userId organizationId : String) (metadata : Fields) : Prop :=
  (∃ s ∈ Iam.metadataScopes metadata, s.hashable = false) ∨
    (metadata.get? "organizationId" = some (.str organizationId)
        ∨ organizationId = "" ∧ ∀ v, metadata.get? "organizationId" = some v → v.truthy = false)
      ∧ ∀ s ∈ Iam.metadataScopes metadata,
          ∃ p ∈ Iam.getUserPermissions st userId organizationId, s = .str p

theorem getOrEmpty_eq_str_iff {data : Fields} {key s : String} :
    getOrEmpty data key = .str s ↔
      data.get? key = some (.str s) ∨ s = "" ∧ ∀ v, data.get? key = some v → v.truthy = false := by
  simp only [getOrEmpty]
  cases data.get? key with
  | none =>
    simp only [Json.str.injEq, reduceCtorEq, false_or, false_implies, implies_true, and_true]
    exact eq_comm
  | some v =>
    cases hv : v.truthy
    · simp only [hv, Bool.false_eq_true, if_false]
      constructor
      · intro h
        obtain rfl : "" = s := by simpa using h
        exact .inr ⟨rfl, fun w hw => Option.some.inj hw ▸ hv⟩
      · rintro (h | ⟨rfl, -⟩)
        · -- the only text that counts as false is the empty one
          obtain rfl := Option.some.inj h
          obtain rfl : s = "" := by simpa [Json.truthy] using hv
          rfl
        · rfl
    · simp [hv]

theorem frozenset_eq_ok {xs ys : List Json} :
    frozenset xs = .ok ys ↔ (∀ x ∈ xs, x.hashable = true) ∧ xs = ys := by
  simp only [frozenset]
  split
  · rename_i h
    simp only [pure_eq_ok]
    exact ⟨fun e => ⟨List.all_eq_true.mp h, e⟩, And.right⟩
  · rename_i h
    simp only [throw_ne_ok, false_iff, not_and]
    exact fun h' => absurd (List.all_eq_true.mpr h') h

/-- A field the IAM passes on, `null` if the metadata has none. -/
theorem getOrEmpty_of_get? {data metadata : Fields} {key : String}
    (h : data.get? key = some ((metadata.get? key).getD .null)) :
    getOrEmpty data key = getOrEmpty metadata key := by
  simp only [getOrEmpty, h]
  cases metadata.get? key <;> rfl

section Payload

variable (key : String) (record : Iam.ApiKey)

@[simp] theorem keyPayload_organizationId :
    (Iam.keyPayload key record).get? "organizationId"
      = some (((record.metadata.getD []).get? "organizationId").getD .null) := by
  simp only [Iam.keyPayload, Fields.get?]
  cases record.userId <;> rfl

@[simp] theorem keyPayload_projectId :
    (Iam.keyPayload key record).get? "projectId"
      = some (((record.metadata.getD []).get? "projectId").getD .null) := by
  simp only [Iam.keyPayload, Fields.get?]
  cases record.userId <;> rfl

@[simp] theorem keyPayload_scopes :
    (Iam.keyPayload key record).get? "scopes"
      = some (.arr (Iam.metadataScopes (record.metadata.getD []))) := by
  simp only [Iam.keyPayload, Fields.get?]
  cases record.userId <;> rfl

@[simp] theorem getOrEmpty_keyPayload_userId :
    getOrEmpty (Iam.keyPayload key record) "userId" = .str (record.userId.getD "") := by
  simp only [getOrEmpty, Iam.keyPayload, Fields.get?]
  cases record.userId with
  | none => rfl
  | some u => by_cases hu : u = "" <;> simp [Json.truthy, hu]

end Payload

/-- The secrets agree, so the IAM answers. -/
theorem Deployment.any_secret (d : Deployment) :
    ((orNone d.iamSecret).any fun secret => orNone (some d.backendSecret) != some secret)
      = false := by
  rw [← d.agree]
  cases orNone d.iamSecret <;> simp

/-- **The context of a key, read off its metadata.** -/
theorem presentKey_of_stored {Keys : Type} {plugin : Iam.ApiKeyPlugin Keys}
    (hplugin : plugin.Lawful) {ks : Keys} {key : Iam.ApiKey} (hstored : plugin.Stored ks key)
    (hkey : key.key ≠ "") (d : Deployment) :
    presentKey d plugin ks key.key = (do
      let scopes ← frozenset (Iam.metadataScopes (key.metadata.getD []))
      return {
        organizationId := getOrEmpty (key.metadata.getD []) "organizationId"
        projectId := ((key.metadata.getD []).get? "projectId").getD .null
        actorId := .str (key.userId.getD "")
        scopes := scopes
        isTestMode := Text.startsWith key.key "fn_test_" }) := by
  have hget : Fields.get? [("key", Json.str key.key)] "key" = some (.str key.key) := rfl
  have hscopes : Iam.metadataScopes (Iam.keyPayload key.key key)
      = Iam.metadataScopes (key.metadata.getD []) := by
    rw [Iam.metadataScopes, keyPayload_scopes]
  simp only [presentKey, verifyApiKey, Iam.verifyApiKeyRoute, d.any_secret, hget, if_neg hkey,
    hplugin.returnsStored hstored, Bool.false_eq_true, if_false, hscopes,
    getOrEmpty_of_get? (keyPayload_organizationId _ _), keyPayload_projectId,
    getOrEmpty_keyPayload_userId, Option.getD_some]
  rfl

/-- **The authority of API keys.**  A user creates a key for an organisation; whenever it is
presented later, the context the backend builds is of that organisation and within the
permissions the user held there, exactly if the metadata the user supplied is. -/
theorem apiKey_authority_iff {Keys : Type} {plugin : Iam.ApiKeyPlugin Keys}
    (hplugin : plugin.Lawful) {st : Iam.State} {ks ks' : Keys} {userId : String}
    {body : Iam.CreateApiKeyBody} {key : Iam.ApiKey}
    (hcreate : plugin.createApiKey st ks userId body = some (key, ks')) {later : Keys}
    (hstored : plugin.Stored later key) (d : Deployment) :
    tokenKind key.key = .apiKey ∧
      (Authority st userId body.organizationId (presentKey d plugin later key.key)
        ↔ MetadataWithin st userId body.organizationId body.metadata) := by
  obtain ⟨hstarts, htoken⟩ := hplugin.startsWithPrefix hcreate
  have hmetadata : key.metadata = some body.metadata := (hplugin.storesMetadata hcreate).2.2
  have hkey : key.key ≠ "" := by
    intro h
    rw [h] at hstarts
    exact absurd hstarts (by decide)
  refine ⟨by simp [tokenKind, htoken, hstarts], ?_⟩
  rw [presentKey_of_stored hplugin hstored hkey d, hmetadata, Option.getD_some]
  by_cases hhash : ∀ s ∈ Iam.metadataScopes body.metadata, s.hashable = true
  · have hscopes := frozenset_eq_ok.mpr ⟨hhash, rfl⟩
    have hnone : ¬∃ s ∈ Iam.metadataScopes body.metadata, s.hashable = false := by
      rintro ⟨s, hs, h⟩
      exact absurd (hhash s hs) (by simp [h])
    simp only [Authority, MetadataWithin, bind_eq_ok, hscopes, hnone, false_or, pure_eq_ok,
      Except.ok.injEq, exists_eq_left', forall_eq', getOrEmpty_eq_str_iff]
  · have hfails : ∀ ys, frozenset (Iam.metadataScopes body.metadata) ≠ .ok ys :=
      fun ys h => hhash (frozenset_eq_ok.mp h).1
    have hsome : ∃ s ∈ Iam.metadataScopes body.metadata, s.hashable = false := by
      simpa using hhash
    simp only [Authority, MetadataWithin, bind_eq_ok, hfails, hsome, false_and, exists_false,
      false_implies, implies_true, true_or]

/-! ### One key -/

/-- A plugin that keeps its keys in a list, the newest first. -/
def listPlugin : Iam.ApiKeyPlugin (List Iam.ApiKey) where
  createApiKey st ks userId body :=
    if st.members.any fun m => m.userId == userId && m.organizationId == body.organizationId then
      let key : Iam.ApiKey :=
        { key := "fn_kQmXwZ", referenceId := body.organizationId, userId := none
          metadata := some body.metadata }
      some (key, key :: ks)
    else none
  verifyApiKey ks key := ks.find? fun k => k.key == key
  Stored ks key := (ks.find? fun k => k.key == key.key) = some key

theorem listPlugin_lawful : listPlugin.Lawful where
  checksMembership h := by
    simp only [listPlugin, Option.ite_none_right_eq_some] at h
    obtain ⟨m, hm, hmem⟩ := List.any_eq_true.mp h.1
    simp only [Bool.and_eq_true, beq_iff_eq] at hmem
    exact ⟨m, hm, hmem⟩
  storesMetadata h := by
    simp only [listPlugin, Option.ite_none_right_eq_some, Option.some.injEq, Prod.mk.injEq] at h ⊢
    obtain ⟨-, rfl, rfl⟩ := h
    exact ⟨by simp, rfl, rfl⟩
  startsWithPrefix h := by
    simp only [listPlugin, Option.ite_none_right_eq_some, Option.some.injEq, Prod.mk.injEq] at h
    obtain ⟨-, rfl, -⟩ := h
    exact (by decide : Text.startsWith "fn_kQmXwZ" "fn_" = true
      ∧ Text.startsWith "fn_kQmXwZ" "fn_upload_token_" = false)
  returnsStored h := h

/-- An owner of `acme` who asks for a key of `acme`. -/
theorem apiKey_authority_iff_owner :
    let st : Iam.State := ⟨[⟨"u1", "acme", "owner"⟩], []⟩
    let body : Iam.CreateApiKeyBody :=
      ⟨"acme", [("organizationId", .str "acme"), ("scopes", .strs ["files:read"])]⟩
    let key : Iam.ApiKey := ⟨"fn_kQmXwZ", "acme", none, some body.metadata⟩
    tokenKind key.key = .apiKey ∧
      (Authority st "u1" "acme" (presentKey ⟨none, "", rfl⟩ listPlugin [key] key.key)
        ↔ MetadataWithin st "u1" "acme" body.metadata) := by
  intro st body key
  have hcreate : listPlugin.createApiKey st [] "u1" body = some (key, [key]) := rfl
  exact apiKey_authority_iff listPlugin_lawful hcreate (by simp [listPlugin]) _

/-- A member of `acme` without any permission who writes `globex` into the metadata: the
backend builds a context of `globex` that manages its projects. -/
theorem apiKey_of_foreign_organization :
    let st : Iam.State := ⟨[⟨"u1", "acme", "viewer"⟩], []⟩
    let metadata : Fields :=
      [("organizationId", .str "globex"), ("scopes", .strs ["projects:update", "files:read"])]
    let key : Iam.ApiKey := ⟨"fn_kQmXwZ", "acme", none, some metadata⟩
    listPlugin.createApiKey st [] "u1" ⟨"acme", metadata⟩ = some (key, [key])
      ∧ presentKey ⟨none, "", rfl⟩ listPlugin [key] key.key
          = .ok ⟨.str "globex", .null, .str "", [.str "projects:update", .str "files:read"], false⟩
      ∧ Iam.getUserPermissions st "u1" "acme" = []
      ∧ ¬Authority st "u1" "acme" (presentKey ⟨none, "", rfl⟩ listPlugin [key] key.key) := by
  refine ⟨rfl, rfl, by decide, fun h => ?_⟩
  exact absurd (h _ rfl).1 (by decide)

end FileNest
