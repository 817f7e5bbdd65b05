import LabGoblin.Computation.Table
import LabGoblin.Computation.World
import LabGoblin.Model.Interaction
import LabGoblin.Model.Operations
import LabGoblin.Model.VirtualMachines
import LabGoblin.Model.Classroom
import LabGoblin.Model.LabSetup
import LabGoblin.Model.Deployment
import LabGoblin.Analysis.Footprint
import LabGoblin.Analysis.Execution
import LabGoblin.Computation.Script
import LabGoblin.Analysis.Fixture
import LabGoblin.Analysis.Allocation
import LabGoblin.Analysis.Assigning
import LabGoblin.Analysis.ClosePreview
import LabGoblin.Analysis.CloseRaces
import LabGoblin.Analysis.ClosedRuns
import LabGoblin.Analysis.EditIsolation
import LabGoblin.Analysis.LeaseFencing
import LabGoblin.Analysis.SavedRoster
import LabGoblin.Analysis.Tombstones
import LabGoblin.Analysis.Visibility
import LabGoblin.Analysis.BrowserFilter
import LabGoblin.Analysis.TicketConfinement
import LabGoblin.Analysis.TokenRevocation
import LabGoblin.Analysis.UpdateAtomicity
import LabGoblin.Analysis.RollbackChain
import LabGoblin.Analysis.UpdateOperations
import LabGoblin.Analysis.UpdateFinished
import LabGoblin.Analysis.PlannedChanges
import LabGoblin.Analysis.ProvisionRollback
import LabGoblin.Analysis.ReplayOnce
import LabGoblin.Analysis.Sweeps
import LabGoblin.Analysis.SessionRaces
import LabGoblin.Analysis.Resuming
import LabGoblin.Analysis.FeedIsolation
import LabGoblin.Analysis.Subscribers
import LabGoblin.Analysis.AutomaticSlot
import LabGoblin.Analysis.Attempts
import LabGoblin.Analysis.LastAdmin
import LabGoblin.Analysis.LastOwner
import LabGoblin.Analysis.DeleteSound
import LabGoblin.Analysis.BulkAssigning
import LabGoblin.Analysis.StudentCatalog
import LabGoblin.Analysis.LoginThrottle
import LabGoblin.Analysis.CookieWrites
import LabGoblin.Analysis.KeyFetches
import LabGoblin.Analysis.TunnelTeardown
import LabGoblin.Analysis.TunnelLimit
import LabGoblin.Analysis.ProfileWatch
import LabGoblin.Analysis.TrafficLimits
import LabGoblin.Analysis.HandshakeBinding
import LabGoblin.Analysis.BridgeRuns
import LabGoblin.Analysis.WorkerExclusion
import LabGoblin.Analysis.AssetFinality
import LabGoblin.Analysis.BootstrapRollback
import LabGoblin.Analysis.PlacedVms
import LabGoblin.Analysis.PoolPlans
import LabGoblin.Analysis.CatalogSync
import LabGoblin.Analysis.DeletedDesktops
import LabGoblin.Analysis.EventFilters
import LabGoblin.Analysis.ResourceTotals
import LabGoblin.Analysis.ReadyNodes
import LabGoblin.Analysis.GuestAddresses
import LabGoblin.Analysis.SourceUrls
import LabGoblin.Analysis.Admission
import LabGoblin.Analysis.ExpiryCleanup
import LabGoblin.Analysis.Resubmission
import LabGoblin.Analysis.TrustedOrigins
import LabGoblin.Analysis.AccountAuthority
import LabGoblin.Analysis.TenancyCatalogue
