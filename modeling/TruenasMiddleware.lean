import TruenasMiddleware.Jobs.Wakeup
import TruenasMiddleware.Jobs.Submit
import TruenasMiddleware.Jobs.Audit
import TruenasMiddleware.Roles.Privilege
import TruenasMiddleware.Api.Adaptation
import TruenasMiddleware.Auth.Session
import TruenasMiddleware.Auth.Token
import TruenasMiddleware.Auth.LoginEx
import TruenasMiddleware.Auth.OneTime
import TruenasMiddleware.Failover.Replication
import TruenasMiddleware.Failover.Suspension
import TruenasMiddleware.Accounts.Unique
import TruenasMiddleware.DirectoryServices.Cache
import TruenasMiddleware.Alerts.Persistence
import TruenasMiddleware.EventSource.Bookkeeping
import TruenasMiddleware.Filesystem.Acl
import TruenasMiddleware.Auth.Origin
import TruenasMiddleware.Kmip.Recoverable
import TruenasMiddleware.Iscsi.Unambiguous
import TruenasMiddleware.Network.Rollback
import TruenasMiddleware.Smb.Passdb
import TruenasMiddleware.Snapshots.RemovalDates
import TruenasMiddleware.Datasets.Hierarchy
import TruenasMiddleware.Datasets.Unlock
import TruenasMiddleware.Dlm.Restart
import TruenasMiddleware.Zettarepl.Outcomes
import TruenasMiddleware.Nvmet.Converge
import TruenasMiddleware.Hooks.Blocking
import TruenasMiddleware.Concurrency.SoftHard
import TruenasMiddleware.Jobs.Wrapping
import TruenasMiddleware.Jobs.History
import TruenasMiddleware.Jobs.LockTable
import TruenasMiddleware.Jobs.Limits
import TruenasMiddleware.Accounts.NextId
import TruenasMiddleware.Roles.ReadOnly
import TruenasMiddleware.Datastore.HaSync
import TruenasMiddleware.Datastore.Count
import TruenasMiddleware.Alerts.Identity
import TruenasMiddleware.Accounts.LocalOnly
import TruenasMiddleware.Filters.Dates
import TruenasMiddleware.Filters.JsonPath
import TruenasMiddleware.Accounts.FailedCreate
import TruenasMiddleware.Idmap.Sid
import TruenasMiddleware.Filesystem.Copy
import TruenasMiddleware.Alerts.Stream
import TruenasMiddleware.Api.Messages
import TruenasMiddleware.Datasets.Internal
import TruenasMiddleware.Kmip.MemoryCache
import TruenasMiddleware.Failover.Imports
import TruenasMiddleware.Tdb.KvCache
import TruenasMiddleware.Vm.Memory
import TruenasMiddleware.Network.Ports
import TruenasMiddleware.Jobs.Logs
import TruenasMiddleware.Apps.Versions
import TruenasMiddleware.Audit.Backend
import TruenasMiddleware.Update.Status
import TruenasMiddleware.Failover.Vrrp
import TruenasMiddleware.Tasks.Schedule
import TruenasMiddleware.Tasks.Containment
