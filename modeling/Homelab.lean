import Homelab.JsNumber
import Homelab.JsNumberText
import Homelab.JsText
import Homelab.JsValue
import Homelab.AddressBlocks
import Homelab.Cidr
import Homelab.Host
import Homelab.Consent
import Homelab.Effect
import Homelab.DataDir
import Homelab.CertAuthority
import Homelab.AdminCommands
import Homelab.AdminEnforcement
import Homelab.JsCoerce
import Homelab.JsonParse
import Homelab.JsonNesting
import Homelab.JsonShape
import Homelab.Automaton
import Homelab.Dialogue
import Homelab.Shell
import Homelab.NodePath
import Homelab.PromiseMutex
import Homelab.CanonicalJson
import Homelab.JsonPieces
import Homelab.CanonicalInjective
import Homelab.LiveValue
import Homelab.SignedPayload
import Homelab.Storable
import Homelab.AuditWriter
import Homelab.AuditLog
import Homelab.AuditVerify
import Homelab.AuditChain
import Homelab.AuditRestart
import Homelab.AuditSound
import Homelab.Discover
import Homelab.Gate
import Homelab.GateTrace
import Homelab.BackupManifest
import Homelab.BackupVerify
import Homelab.BackupSound
import Homelab.BackupGate
import Homelab.ManifestFile
import Homelab.BackupEngine
import Homelab.BackupRun
import Homelab.BackupRestore
import Homelab.RestoreOrder
import Homelab.RestoreInverse
import Homelab.StatePaths
import Homelab.OneDataDirectory
import Homelab.MigrationState
import Homelab.PendingAction
import Homelab.SignedStores
import Homelab.DelayedAction
import Homelab.DelayDecision
import Homelab.DelayTimely
import Homelab.DelayReschedule
import Homelab.Reloading
import Homelab.MigrationRun
import Homelab.MigrationOrder
import Homelab.MigrationOutcome
import Homelab.MigrationCancel
import Homelab.DeployParams
import Homelab.DeployBackend
import Homelab.SwarmBackend
import Homelab.UnraidBackend
import Homelab.ProxmoxBackend
import Homelab.K3sBackend
import Homelab.DeployGate
import Homelab.DeployRecords
import Homelab.DeployRollback
import Homelab.DialogueRuns
import Homelab.DeployRuns
import Homelab.UnraidHost
import Homelab.UnraidSwap
import Homelab.UnraidFaults
import Homelab.ProxmoxHost
import Homelab.ProxmoxCalls
import Homelab.ProxmoxHistory
import Homelab.CidrAgreement
import Homelab.LockedFile
import Homelab.LockedStore
import Homelab.Yaml
import Homelab.JsRecord
import Homelab.Records
import Homelab.ManifestStore
import Homelab.ConsentStore
import Homelab.InventoryStore
import Homelab.GraphStore
import Homelab.ConnectionPool
import Homelab.PoolCapacity
import Homelab.PoolTrail
import Homelab.PoolIdle
import Homelab.PoolPromises
import Homelab.PoolHousing
import Homelab.PoolSharing
import Homelab.JsWord
import Homelab.JsCompare
import Homelab.GraphCalls
import Homelab.DriftObservation
import Homelab.RefreshEngine
import Homelab.SweepSteps
import Homelab.SweepMachine
import Homelab.SweepReports
import Homelab.SweepFrame
import Homelab.EnumerationCalls
import Homelab.DockerEnumerator
import Homelab.UnraidParsing
import Homelab.UnraidEnumerator
import Homelab.SweepDrift
import Homelab.SweepOutage
import Homelab.ConfirmPrompts
import Homelab.RoleCatalog
import Homelab.ClassifySightings
import Homelab.HealthScore
import Homelab.GraphWriters
import Homelab.Annotations
import Homelab.DriftToHealth
import Homelab.DiscoveryTimes
import Homelab.Throttle
import Homelab.Collector
import Homelab.ProbeScans
import Homelab.ProbeKeys
import Homelab.Topology
import Homelab.PolicyRules
import Homelab.PolicyDrift
import Homelab.DatastoreProbe
import Homelab.DatastoreSweeps
import Homelab.Autofix
import Homelab.AutofixApply
import Homelab.LegacyManifest
import Homelab.LegacyDecisions
import Homelab.Interleaving
import Homelab.BackupDepot
import Homelab.BackupOwnership
import Homelab.CanonicalForm
import Homelab.CollectorRuns
import Homelab.Latest
import Homelab.OverdueProbe
import Homelab.Redactor
import Homelab.PortalPanel
import Homelab.VaultResolver
import Homelab.VaultDisposal
import Homelab.ClockStore
import Homelab.ClockLifecycle
import Homelab.Protocol
import Homelab.CaCalls
import Homelab.SerialNumbers
import Homelab.RevocationList
import Homelab.RotationRecords
import Homelab.ServiceEndpoints
import Homelab.LogsService
import Homelab.GrafanaRegistry
import Homelab.Onboarder
import Homelab.OnboardingGaps
import Homelab.AuditVerdict
import Homelab.AuditTears
import Homelab.AuditReaders
import Homelab.KeyCreation
import Homelab.DedupWindow
import Homelab.CollectorTimers
import Homelab.Semaphore
import Homelab.Prober
import Homelab.PathSteps
import Homelab.UnraidMounts
import Homelab.ParamSchemas
import Homelab.SchemaSpec
import Homelab.SchemaSound
import Homelab.DependencyEdges
import Homelab.ImageNames
import Homelab.JobIds
import Homelab.PortMatches
import Homelab.SwarmCompose
import Homelab.AlertBodies
import Homelab.ClockCalls
import Homelab.ClockIdentity
import Homelab.LogTotality
import Homelab.VaultAdapter
import Homelab.VaultWalk
import Homelab.FpCounters
import Homelab.Comparators
import Homelab.NewestLogs
import Homelab.BackupIndex
import Homelab.LogQueries
import Homelab.GrafanaFetches
import Homelab.HealthLaws
import Homelab.AtomicWrite
import Homelab.FileMutex
import Homelab.PassphraseStore
import Homelab.Transports
import Homelab.LiveRuntime
