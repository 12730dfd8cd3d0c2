import WattPost.Lib.Table
import WattPost.Lib.Runs
import WattPost.Storage.Schema
import WattPost.Storage.Rollup
import WattPost.Storage.RollupBeforePurge
import WattPost.Storage.RollupCoverage
import WattPost.Storage.RollupCascade
import WattPost.Storage.RollupMean
import WattPost.Lib.Paging
import WattPost.Lib.Newest
import WattPost.Lib.MapM
import WattPost.Storage.ClosedRollups
import WattPost.Storage.ClosedRollupsDrain
import WattPost.Cloud.Json
import WattPost.Cloud.RollupSync
import WattPost.Cloud.SyncWorld
import WattPost.Cloud.SyncLedger
import WattPost.Cloud.SyncDelivery
import WattPost.Cloud.SyncRace
import WattPost.Cloud.CommandLedger
import WattPost.Cloud.CommandDispatch
import WattPost.Auth.WebAuth
import WattPost.Auth.Middleware
import WattPost.Auth.Endpoints
import WattPost.Auth.KioskScope
import WattPost.Auth.FirstRun
import WattPost.Auth.LoginThrottle
import WattPost.Auth.Jwks
import WattPost.Auth.JwksProvenance
import WattPost.Cloud.SigningPin
import WattPost.Cloud.ViewPublisher
import WattPost.Lib.SharedTxn
import WattPost.Storage.StoreWriters
import WattPost.Storage.SignedAudit
import WattPost.Lib.PyDict
import WattPost.Transport.Modbus
import WattPost.Vendors.Base
import WattPost.Vendors.Bms
import WattPost.Vendors.Renogy
import WattPost.Vendors.Victron
import WattPost.Vendors.Shunts
import WattPost.Storage.BankAggregate
import WattPost.Storage.RecordPoll
import WattPost.Storage.BankPresence
import WattPost.Vendors.Readings
import WattPost.Lib.Pooled
import WattPost.Storage.BankHull
import WattPost.Storage.BankFaithful
import WattPost.Vendors.RenogyChargers
import WattPost.Vendors.SettingsWrite
import WattPost.Outputs.Service
import WattPost.Outputs.SolarPause
import WattPost.Outputs.PauseLoop
import WattPost.Lib.LocalTime
import WattPost.Outputs.Schedules
import WattPost.Outputs.SchedulesDaily
import WattPost.Weather.Instants
import WattPost.Backup.Restore
import WattPost.Backup.RestoreFrame
import WattPost.Alerts.Engine
import WattPost.Alerts.QuietHours
import WattPost.Alerts.RuleStore
import WattPost.Alerts.BankAlarms
import WattPost.Alerts.EnabledFlag
import WattPost.Cloud.RecentAlerts
import WattPost.Cloud.AlertDelivery
import WattPost.Hotspot.Handoff
import WattPost.Hotspot.Ownership
import WattPost.Auth.KioskRevocation
import WattPost.Auth.OidcPending
import WattPost.Outputs.Api
import WattPost.Outputs.SafetyGate
import WattPost.Outputs.ReadOnly
import WattPost.Storage.Latest
import WattPost.Storage.BankLatest
import WattPost.Lib.PyFloat
import WattPost.MqttIn.Service
import WattPost.Storage.FloatBank
import WattPost.Storage.FloatPoll
import WattPost.Storage.LiveValues
import WattPost.Storage.OneBadReading
import WattPost.Lib.SemVer
import WattPost.Update.Versions
import WattPost.Lib.AnswerLine
import WattPost.Lib.Binary64
import WattPost.Transport.BleModbus
import WattPost.Vendors.BleConfirmed
import WattPost.Vendors.BlePoll
import WattPost.Auth.PublicView
import WattPost.Backup.Archive
import WattPost.Auth.Keypair
import WattPost.Lib.FrameStream
import WattPost.Transport.BleAili
import WattPost.Lib.StampedCache
import WattPost.Transport.BleDaly
import WattPost.Transport.BleJbd
import WattPost.Transport.BleJkBms
import WattPost.Transport.BleJunctek
import WattPost.Transport.FreshReadings
import WattPost.Api.Energy
import WattPost.Transport.VeDirect
import WattPost.Outputs.PauseBank
import WattPost.Lib.Snap
import WattPost.Cloud.Location
import WattPost.Transport.UsbHidVoltronic
import WattPost.Transport.BleJkFrames
import WattPost.Lib.Exposition
import WattPost.Lib.Grouping
import WattPost.Export.Prometheus
import WattPost.Lib.KeyFile
import WattPost.Net.NmProfile
import WattPost.Net.WifiJoin
import WattPost.Net.WifiKeyfile
import WattPost.Net.WifiProfiles
import WattPost.MqttIn.Discovery
import WattPost.MqttIn.DiscoveryContract
import WattPost.Lib.PyLines
import WattPost.Lib.BlockYaml
import WattPost.Update.PinTag
import WattPost.Update.ImageLine
import WattPost.Update.References
import WattPost.Update.PinScope
import WattPost.Lib.SkyDirection
import WattPost.Forecast.SunGeometry
import WattPost.Lib.PairScan
import WattPost.Storage.Analytics
import WattPost.Storage.TodayPv
import WattPost.Storage.BankPower
import WattPost.Lib.Reservoir
import WattPost.ViewModels.RuntimeForecast
import WattPost.ViewModels.BoundedBattery
import WattPost.Forecast.Energy
import WattPost.Cloud.PoisonIsolation
import WattPost.Cloud.ViewTurns
import WattPost.Storage.HistoryTables
import WattPost.Outputs.ReadBack
import WattPost.Cloud.SignedDispatch
import WattPost.Vendors.DccState
import WattPost.Transport.ModbusIntegrity
import WattPost.Transport.BleDalyStream
import WattPost.Weather.Overlay
import WattPost.Storage.ChargerStats
import WattPost.Api.SelfPowered
import WattPost.Cloud.ExtrasTrim
import WattPost.Auth.RedirectTargets
import WattPost.Gps.Nmea
import WattPost.Backup.SnapshotRuns
import WattPost.Lib.EscapedFields
import WattPost.Net.NmcliTerse
import WattPost.Net.WifiScan
import WattPost.Lib.LockedPool
import WattPost.Update.Slots
import WattPost.Update.SlotSafety
import WattPost.Lib.RetainedTopics
import WattPost.Cloud.JsonText
import WattPost.Export.Mqtt
import WattPost.MqttIn.Bridge
import WattPost.MqttIn.BridgeTopics
import WattPost.MqttIn.BridgeConvergence
import WattPost.Transport.SharedRadio
import WattPost.Transport.RadioTurns
import WattPost.Lib.HashChain
import WattPost.Storage.AuditTrail
import WattPost.Storage.AuditUpload
import WattPost.Cloud.JsonLoads
import WattPost.Cloud.JsonPrefix
import WattPost.Lib.LineStream
import WattPost.Lib.Confined
import WattPost.Net.Helperd
import WattPost.Net.HelperWire
import WattPost.Net.HelperSafety
import WattPost.Net.HelperJoin
import WattPost.Lib.Mailbox
import WattPost.Api.LiveStream
import WattPost.Lib.RetrySchedule
import WattPost.Polling.Poller
import WattPost.Polling.BleLink
import WattPost.Polling.AbsentTransport
