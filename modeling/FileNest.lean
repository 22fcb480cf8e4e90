import FileNest.Lib.RowStore
import FileNest.Lib.Reference
import FileNest.Lib.ReadCommitted
import FileNest.Lib.Text
import FileNest.Json
import FileNest.Models
import FileNest.Lib.Sql
import FileNest.Errors
import FileNest.Auth
import FileNest.Storage
import FileNest.Repositories.Files
import FileNest.Repositories.Projects
import FileNest.Repositories.Events
import FileNest.Repositories.Usage
import FileNest.Schemas
import FileNest.Services.File
import FileNest.Services.Multipart
import FileNest.Services.Metadata
import FileNest.Services.Project
import FileNest.Routers
import FileNest.Queries
import FileNest.Confinement
import FileNest.Reachable
import FileNest.Outbox
import FileNest.Lib.Assembly
import FileNest.Lib.Batches
import FileNest.Lib.Cache
import FileNest.Outbox.HeadOfLine
import FileNest.FileEffects
import FileNest.Versioning
import FileNest.Processing.Pipeline
import FileNest.Processing.World
import FileNest.Processing.SingleOutcome
import FileNest.Processing.ScanGate
import FileNest.Isolation
import FileNest.CredentialScope
import FileNest.Webhook.Signature
import FileNest.Iam.ApiKey
import FileNest.Processing.Delivery
import FileNest.Lib.Paging
import FileNest.Pagination
import FileNest.Lib.Forest
import FileNest.Lib.Reparent
import FileNest.Folders.Effects
import FileNest.Folders.Breadcrumbs
import FileNest.Folders.Paths
import FileNest.Uploads.Admission
import FileNest.Folders.References
import FileNest.Folders.Resolution
import FileNest.Uploads.TokenConstraints
import FileNest.Uploads.Settlement
import FileNest.Uploads.Equivalence
import FileNest.Uploads.Confirmation
import FileNest.Uploads.Sessions
import FileNest.Lib.Trace
import FileNest.Lib.Exchange
import FileNest.Lib.EventLoop
import FileNest.Lib.Pieces
import FileNest.Uploads.Objects
import FileNest.Uploads.Declared
import FileNest.Processing.Lifecycle
import FileNest.Processing.Deletion
import FileNest.Processing.Stages
import FileNest.Storage.Buckets
import FileNest.Storage.Gate
import FileNest.Lib.Base64
import FileNest.Storage.Azure
import FileNest.Storage.Crypto
import FileNest.Storage.Credentials
import FileNest.Storage.Gcs
import FileNest.Storage.GcsAborts
import FileNest.Storage.GcsCompletion
import FileNest.Storage.GcsFaults
import FileNest.Allowlist
import FileNest.Lib.Interleaving
import FileNest.Webhook.Worker
import FileNest.Lib.Overlap
import FileNest.Tokens.MaxFiles
import FileNest.Tokens.Advertised
import FileNest.Tokens.Coverage
import FileNest.Lib.Clock
import FileNest.Lib.Lease
import FileNest.Tokens.Lifetime
import FileNest.Uploads.InFlight
import FileNest.Metadata.ActiveSchema
import FileNest.Lib.Ledger
import FileNest.Metadata.Enforcement
import FileNest.Lib.Serial
import FileNest.Metadata.LostUpdates
import FileNest.Sdk.Naming
import FileNest.Sdk.Http
import FileNest.Sdk.ErrorEnvelope
import FileNest.Sdk.Records
import FileNest.Sdk.MetadataRoundTrip
import FileNest.Sdk.Uploads
import FileNest.Sdk.ConfirmAfterPut
import FileNest.Sdk.Chunks
import FileNest.Lib.UrlEncoded
import FileNest.Sdk.ListFilters
import FileNest.Iam.ActiveOrganization
import FileNest.Iam.ActiveRole
import FileNest.Iam.Menus
import FileNest.Iam.PermissionKeys
import FileNest.Iam.RolePermissions
import FileNest.Iam.OrgRoles
import FileNest.Lib.StableSort
import FileNest.Iam.MenuOrder
import FileNest.Iam.ClientOrigins
import FileNest.Iam.Navigation
import FileNest.Folders.ConsoleTree
import FileNest.Projects.Flags
import FileNest.Projects.Deletion
import FileNest.Uploads.Sizes
import FileNest.Uploads.Precedence
import FileNest.Cors
import FileNest.Projects.ConfigLists
import FileNest.Projects.ConfigPatch
import FileNest.Storage.Presigned
import FileNest.Lib.PartialQuery
import FileNest.Lib.Utf16
import FileNest.Metadata.Search
import FileNest.Lib.Subjects
import FileNest.Outbox.Subjects
import FileNest.Lib.Retry
import FileNest.Sdk.Retries
import FileNest.Processing.MimeCase
import FileNest.Metadata.Tags
import FileNest.Webhook.Subscriptions
import FileNest.Lib.Aggregates
import FileNest.Usage.Totals
import FileNest.Usage.StorageByDay
import FileNest.Usage.Dashboard
import FileNest.Lib.Words
import FileNest.Projects.Slugs
import FileNest.Lib.Like
import FileNest.TextSearch
import FileNest.Sdk.ReactProvider
import FileNest.Sdk.ReactTokens
import FileNest.Sdk.ReactUploads
import FileNest.Lib.Refines
import FileNest.Console.UploadQueue
import FileNest.Console.UploadProxy
import FileNest.Console.UploadOutcomes
import FileNest.Lib.Consumer
import FileNest.Webhook.EndToEnd
import FileNest.Projects.Provisioning
