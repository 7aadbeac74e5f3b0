import Tangle.Lib.Prog
import Tangle.Groups.ProjectionMaps
import Tangle.Groups.ProjectionStep
import Tangle.Groups.Policy
import Tangle.Groups.Signing
import Tangle.Groups.Documents
import Tangle.Runtime.Store
import Tangle.Runtime.Planning
import Tangle.Runtime.Storage
import Tangle.Lib.Keeps
import Tangle.Groups.MetadataSize
import Tangle.Runtime.Relay
import Tangle.Runtime.Fits
import Tangle.Runtime.Script
import Tangle.Runtime.AcceptedEvents
import Tangle.Runtime.Representable
import Tangle.Groups.Limits
import Tangle.Groups.History
import Tangle.Groups.Arrival
import Tangle.Runtime.Rows
import Tangle.Runtime.Reload
import Tangle.Groups.HiddenGroups
import Tangle.Groups.Membership
import Tangle.Runtime.ProtectedAdmins
import Tangle.Runtime.RoundTrip
import Tangle.Lib.Wp
import Tangle.Runtime.Records
import Tangle.Runtime.Sound
import Tangle.Groups.Sources
import Tangle.Runtime.Owed
import Tangle.Runtime.Serving
import Tangle.Runtime.Writing
import Tangle.Runtime.Starting
import Tangle.Runtime.Runs
import Tangle.Runtime.GroupDeletion
import Tangle.Runtime.Restarts
import Tangle.Runtime.Memberships
import Tangle.Runtime.MembershipOutcomes
import Tangle.Groups.SnapshotIds
import Tangle.Runtime.SnapshotRuns
import Tangle.Runtime.FailingRecords
import Tangle.Lib.Firsts
import Tangle.Pocket.Queries
import Tangle.Relay.Queries
import Tangle.Lib.Returns
import Tangle.Relay.Projections
import Tangle.Relay.Deliveries
import Tangle.Relay.PlainReads
import Tangle.Session.RateLimits
import Tangle.Session.Sessions
import Tangle.Session.Replies
import Tangle.Session.Permits
import Tangle.Relay.Counts
import Tangle.Runtime.Upkeep
import Tangle.Runtime.EventDeletions
import Tangle.Runtime.Tables
import Tangle.Runtime.StoredEvents
import Tangle.Lib.Alike
import Tangle.Relay.HiddenReads
import Tangle.Relay.HiddenCounts
import Tangle.Lib.Faults
import Tangle.Runtime.Faults
import Tangle.Runtime.Offsets
import Tangle.Runtime.Broadcasts
import Tangle.Session.RateWindows
import Tangle.Relay.Auth
import Tangle.Relay.QueryResults
import Tangle.Relay.IdentityProjections
import Tangle.Runtime.Resubmissions
import Tangle.Session.EventLimits
import Tangle.Session.RateBudgets
import Tangle.Host.Paths
import Tangle.Host.Tenants
import Tangle.Protocol.Events
import Tangle.Protocol.Filters
import Tangle.Protocol.JsonText
import Tangle.Protocol.RoundTrips
import Tangle.Groups.RelayOverride
import Tangle.Runtime.Draining
import Tangle.Session.Widening
import Tangle.Relay.Limits
import Tangle.Session.ClientMessages
import Tangle.Runtime.MetadataSnapshots
import Tangle.Runtime.EphemeralEvents
import Tangle.Lib.Laid
import Tangle.Pocket.EventScans
import Tangle.Runtime.EventMap
import Tangle.Lib.FileTree
import Tangle.Host.Backup
import Tangle.Host.BackupDocuments
import Tangle.Host.Copying
import Tangle.Host.Restores
import Tangle.Host.RoundTrips
import Tangle.Host.TenantBackups
import Tangle.Host.PortableBackup
import Tangle.Host.PortableChecks
import Tangle.Host.PortableStages
import Tangle.Host.PortableDocuments
import Tangle.Host.PortableCreation
import Tangle.Host.PortableRoundTrips
import Tangle.Lib.Channels
import Tangle.Session.Connections
import Tangle.Session.Streams
import Tangle.Session.Outbound
import Tangle.Session.LiveEvents
import Tangle.Session.LiveDeliveries
import Tangle.Lib.Splits
import Tangle.Host.Names
import Tangle.Host.Requests
import Tangle.Host.Redaction
