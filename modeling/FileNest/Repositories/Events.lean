import FileNest.Repositories.Files

/-!
# Metadata schemas, upload tokens and webhooks: queries and writes

## Main definitions

* `MetadataSchemaRepository`, `WebhookRepository` — the queries.
* `MetadataSchemaRepository.deactivateAll` — the bulk `UPDATE` of the active rows.
* `UploadTokenRepository.deleteExpired`, `WebhookRepository.delete` — the deletes.
-/

namespace FileNest

open RowStore

/-! ### Metadata schemas -/

namespace MetadataSchemaRepository

variable (db : Database)

/-- The schemas of a project, newest first. -/
def list (projectId organizationId : String) : List MetadataSchema :=
  Sql.orderByDesc MetadataSchema.version ((db .metadataSchemas).filter
    fun (r : MetadataSchema) => r.projectId == projectId && r.organizationId == organizationId)

/-- `get_max_version`, 0 if there is no schema yet. -/
def getMaxVersion (projectId organizationId : String) : ℕ :=
  match list db projectId organizationId with
  | [] => 0
  | r :: _ => r.version

/-- The active rows of a project. -/
def activeRows (projectId organizationId : String) : List MetadataSchema :=
  (db .metadataSchemas).filter fun (r : MetadataSchema) =>
    r.projectId == projectId && r.organizationId == organizationId && r.isActive

/-- `get_active`. -/
def getActive (projectId organizationId : String) : Except ApiError (Option MetadataSchema) :=
  scalarOneOrNone (activeRows db projectId organizationId)

/-- `SET is_active = false`. -/
def deactivate : Patch Table.Row .metadataSchemas where
  toFun := fun (r : MetadataSchema) => ({ r with isActive := false } : MetadataSchema)
  pk_toFun := fun _ => rfl
  owner_toFun := fun _ => rfl

/-- `deactivate_all`: one `UPDATE` for every active row it sees. -/
def deactivateAll (projectId organizationId : String) : List DbWrite :=
  (activeRows db projectId organizationId).map fun r =>
    .update .metadataSchemas r.id deactivate

end MetadataSchemaRepository

/-! ### Upload tokens -/

/-- `delete_expired`. -/
def UploadTokenRepository.deleteExpired (organizationId projectId : String) (now : ℕ) : DbWrite :=
  .delete .uploadTokens fun (r : UploadToken) =>
    r.organizationId == organizationId && r.projectId == projectId && decide (r.expiresAt ≤ now)

/-! ### Webhooks -/

namespace WebhookRepository

variable (db : Database)

/-- `get`. -/
def get (webhookId organizationId projectId : String) : Except ApiError Webhook :=
  oneOr (notFoundError ("Webhook " ++ webhookId ++ " not found"))
    ((db .webhooks).filter fun (r : Webhook) =>
      r.id == webhookId && r.organizationId == organizationId && r.projectId == projectId)

/-- `list`: newest first. -/
def list (organizationId projectId : String) : List Webhook :=
  Sql.orderByDesc Webhook.createdAt ((db .webhooks).filter fun (r : Webhook) =>
    r.organizationId == organizationId && r.projectId == projectId)

/-- `list_active_for_project`, for the delivery of events. -/
def listActiveForProject (organizationId projectId : String) : List Webhook :=
  (db .webhooks).filter fun (r : Webhook) =>
    r.organizationId == organizationId && r.projectId == projectId && r.isActive

/-- `list_deliveries`: the most recent first. -/
def listDeliveries (webhookId organizationId : String) (limit : ℕ) : List WebhookDelivery :=
  (Sql.orderByDesc WebhookDelivery.createdAt
    ((db .webhookDeliveries).filter fun (r : WebhookDelivery) =>
      r.webhookId == webhookId && r.organizationId == organizationId)).take limit

/-- `session.delete(webhook)`. -/
def delete (webhook : Webhook) : DbWrite :=
  .delete .webhooks fun (r : Webhook) => r.id == webhook.id

end WebhookRepository

/-- The `UPDATE` of a webhook; `onupdate` refreshes `updated_at`. -/
def Webhook.flush (loaded new : Webhook) (now : ℕ) : Patch Table.Row .webhooks where
  toFun := fun (r : Webhook) => ({ r with
    url := flushColumn loaded.url new.url r.url
    events := flushColumn loaded.events new.events r.events
    isActive := flushColumn loaded.isActive new.isActive r.isActive
    updatedAt := if new = loaded then r.updatedAt else now } : Webhook)
  pk_toFun := fun _ => rfl
  owner_toFun := fun _ => rfl

/-- The write that saves a loaded webhook. -/
def Webhook.save (loaded new : Webhook) (now : ℕ) : DbWrite :=
  .update .webhooks loaded.id (loaded.flush new now)

end FileNest
