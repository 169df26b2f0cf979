import VaultsSyncer.Schemes.Isolation
import VaultsSyncer.GoStd.Sha256
import VaultsSyncer.GoStd.Base64
import VaultsSyncer.Storage.SyncObjects
import VaultsSyncer.Storage.Dialect
import VaultsSyncer.Storage.SyncObjectStore
import VaultsSyncer.Sync.Engine
import VaultsSyncer.Sync.Convergence
import VaultsSyncer.Sync.Agreement
import VaultsSyncer.Sync.Conflicts
import VaultsSyncer.Sync.Concurrent
import VaultsSyncer.Sync.Interleavings
import VaultsSyncer.Sync.ExecuteSync
import VaultsSyncer.GoStd.Float64
import VaultsSyncer.GoStd.Integers
import VaultsSyncer.GoStd.Number
import VaultsSyncer.GoStd.IntegerText
import VaultsSyncer.GoStd.Quoting
import VaultsSyncer.GoStd.Json
import VaultsSyncer.GoStd.JsonValue
import VaultsSyncer.GoStd.Strings
import VaultsSyncer.GoStd.Map
import VaultsSyncer.GoStd.Url
import VaultsSyncer.GoStd.Replace
import VaultsSyncer.Config.Vaults
import VaultsSyncer.Vault.Parser
import VaultsSyncer.Vault.Client
import VaultsSyncer.Vault.RoundTrip
import VaultsSyncer.Vault.Backend
import VaultsSyncer.Schemes.Threads
import VaultsSyncer.Schemes.Phases
import VaultsSyncer.Schemes.Linearize
import VaultsSyncer.Schemes.OneKey
import VaultsSyncer.Schemes.OneKeyRuns
import VaultsSyncer.Storage.Database
import VaultsSyncer.Auth.Service
import VaultsSyncer.Api.Accounts
import VaultsSyncer.Storage.Effects
import VaultsSyncer.Api.Setup
import VaultsSyncer.Auth.Callers
import VaultsSyncer.Schemes.Runs
import VaultsSyncer.Auth.Removal
import VaultsSyncer.Api.LastAdmin
import VaultsSyncer.Auth.Effects
import VaultsSyncer.Api.ConcurrentRemoval
import VaultsSyncer.Api.ConfigHandlers
import VaultsSyncer.Auth.Sessions
import VaultsSyncer.Config.Json
import VaultsSyncer.Config.Persisted
import VaultsSyncer.Config.Loader
import VaultsSyncer.Storage.ConfigStore
import VaultsSyncer.Schemes.References
import VaultsSyncer.Storage.Configuration
import VaultsSyncer.Api.StoredConfig
import VaultsSyncer.Vault.NilAuth
import VaultsSyncer.Api.StoredVaults
import VaultsSyncer.Api.ToolVaults
import VaultsSyncer.Daemon.Runner
import VaultsSyncer.Daemon.MasterKey
import VaultsSyncer.Schemes.PoolProtocol
import VaultsSyncer.Sync.WorkerPool
import VaultsSyncer.Sync.ConcurrentUpserts
import VaultsSyncer.Daemon.Reload
import VaultsSyncer.Daemon.Restart
import VaultsSyncer.Schemes.ReloadRuns
import VaultsSyncer.Storage.ConfigWrites
import VaultsSyncer.Api.RowRequests
import VaultsSyncer.Api.ConcurrentConfig
import VaultsSyncer.Daemon.Scheduling
import VaultsSyncer.Schemes.Rely
import VaultsSyncer.Schemes.PoolRuns
import VaultsSyncer.Sync.Attempts
import VaultsSyncer.Sync.Contracts
import VaultsSyncer.Sync.SecretAudit
import VaultsSyncer.Sync.RunAudit
import VaultsSyncer.Sync.Checksums
import VaultsSyncer.Sync.Counters
import VaultsSyncer.Sync.SourceOfTruth
import VaultsSyncer.Vault.CreateOrUpdate
import VaultsSyncer.Browser.Html
import VaultsSyncer.Api.SyncDialog
import VaultsSyncer.Api.UnchangedSync
import VaultsSyncer.Sync.Retries
import VaultsSyncer.Sync.Backoff
import VaultsSyncer.Sync.RunStatus
import VaultsSyncer.Schemes.OrderBy
import VaultsSyncer.Storage.RowOrder
import VaultsSyncer.Daemon.SyncStatus
import VaultsSyncer.Storage.SyncObjectMap
import VaultsSyncer.Storage.VaultReferences
import VaultsSyncer.Api.FailedRequests
import VaultsSyncer.Vault.JsonPaths
import VaultsSyncer.Vault.ToolOutput
import VaultsSyncer.Vault.OperationDefaults
import VaultsSyncer.Vault.GetOverrides
import VaultsSyncer.Vault.KvEndpoints
import VaultsSyncer.Vault.SecretUrls
import VaultsSyncer.Vault.Params
import VaultsSyncer.Vault.ToolEnvironment
import VaultsSyncer.Vault.OAuthToken
import VaultsSyncer.Vault.ListedSecrets
import VaultsSyncer.Vault.NumericSecrets
import VaultsSyncer.Schemes.Interrupts
import VaultsSyncer.Sync.CrashRecovery
import VaultsSyncer.Schemes.Settling
import VaultsSyncer.Sync.Pipelines
import VaultsSyncer.GoStd.ServeMux
import VaultsSyncer.Api.Requests
import VaultsSyncer.Daemon.Routes
import VaultsSyncer.Daemon.Addresses
import VaultsSyncer.Schemes.Evidence
import VaultsSyncer.Api.Effects
import VaultsSyncer.Daemon.Authority
import VaultsSyncer.Daemon.Revocation
import VaultsSyncer.Storage.SealedConfig
import VaultsSyncer.Daemon.StoredRows
import VaultsSyncer.GoStd.Base64RoundTrip
import VaultsSyncer.Security.Crypto
import VaultsSyncer.Daemon.PrintedKey
import VaultsSyncer.Schemes.Lockstep
import VaultsSyncer.Schemes.TableRel
import VaultsSyncer.Api.ShownVaults
import VaultsSyncer.Daemon.Secrecy
import VaultsSyncer.Schemes.Overlap
import VaultsSyncer.Sync.Overlaps
