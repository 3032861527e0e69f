import BetterFrame.Server.EventIntake
import BetterFrame.Server.ReleaseHistory
import BetterFrame.Server.PairingProtocol
import BetterFrame.Server.IoBoxPairing
import BetterFrame.Server.UpdateSelection
import BetterFrame.Server.OsUpdateStatus
import BetterFrame.Server.PowerStateOrder
import BetterFrame.Server.RequestCorrelation
import BetterFrame.Server.CloneLayout
import BetterFrame.Server.LayoutGrid
import BetterFrame.Server.LayoutOrder
import BetterFrame.Server.NestedTransactions
import BetterFrame.Server.PowerStateLock
import BetterFrame.Server.DisplaySync
import BetterFrame.Server.LoginLockout
import BetterFrame.Server.RecoveryCodes
import BetterFrame.Server.RateLimit
import BetterFrame.Server.TenantSchema
import BetterFrame.Server.UpdateWindows
import BetterFrame.Client.UpdateRecovery
import BetterFrame.Client.AttemptLimit
import BetterFrame.Client.WindowsUpdaterSafety
import BetterFrame.Server.BundleFaithful
import BetterFrame.Server.ManagedConfig
import BetterFrame.Server.SetupExtras
import BetterFrame.Server.VersionAgreement
import BetterFrame.Deploy.RuntimeLifecycle
import BetterFrame.Deploy.TenantIsolation
import BetterFrame.Deploy.PublicIngress
import BetterFrame.Deploy.DashboardRoots
import BetterFrame.Deploy.DisplayScope
import BetterFrame.Deploy.RaucBoot
import BetterFrame.Client.AndroidPlan
import BetterFrame.Client.Recording
import BetterFrame.Client.BundleCache
import BetterFrame.Client.OriginMigration
import BetterFrame.Client.JournalLogs
import BetterFrame.Client.AndroidReset
import BetterFrame.Client.DisplayRefresh
import BetterFrame.Client.RemoteDebug
import BetterFrame.Server.IoBoxMappings
import BetterFrame.Client.AndroidPower
import BetterFrame.Client.AndroidViewer
import BetterFrame.Client.StreamPool
import BetterFrame.Client.Discovery
import BetterFrame.Server.Secrets
import BetterFrame.Server.DashboardSync
import BetterFrame.Server.DemoEnrolment
import BetterFrame.Lib.Xml
import BetterFrame.Client.OnvifReferences
import BetterFrame.Server.OfflineQueue
import BetterFrame.Server.CameraHealth
import BetterFrame.Client.MessageDispatch
import BetterFrame.Server.DeviceSync
import BetterFrame.Client.OnvifEvents
import BetterFrame.Server.Placeholders
import BetterFrame.Client.SoapClock
import BetterFrame.Client.IoBoxHttp
import BetterFrame.Client.OperatorStations
import BetterFrame.Lib.Buffered
import BetterFrame.Client.JournalBatch
import BetterFrame.Client.LogUpload
import BetterFrame.Server.TopicSet
import BetterFrame.Lib.Rolling
import BetterFrame.Client.AppLogs
import BetterFrame.Server.AdminSessions
