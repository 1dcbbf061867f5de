import Mgd.Lib.Run
import Mgd.Lib.AssocMap
import Mgd.Lib.Greedy
import Mgd.Lib.StateFile
import Mgd.Types
import Mgd.Monitor
import Mgd.Config
import Mgd.Engine.Planner
import Mgd.Engine.SystemTier
import Mgd.Executor.Registry
import Mgd.Executor.Checkpoint
import Mgd.Executor.FreezeRace
import Mgd.Throttle
import Mgd.ThrottleLedger
import Mgd.SpikeMode
import Mgd.Recovery
import Mgd.Maintenance
import Mgd.Evictor.Scoring
import Mgd.Evictor.Sensing
import Mgd.Evictor.SkippedSamples
import Mgd.Evictor.FullStall
import Mgd.Evictor.Spike
import Mgd.Evictor.SpikeThrottle
import Mgd.Evictor.CollectiveRelease
import Mgd.Evictor.Execute
import Mgd.Evictor.Run
import Mgd.Evictor.ImportanceOrder
import Mgd.Evictor.InFlight
import Mgd.Evictor.ThrottleRestore
import Mgd.Evictor.Hysteresis
import Mgd.Evictor.SustainedSwap
import Mgd.Evictor.DipTolerance
import Mgd.Evictor.UnreadableMeminfo
import Mgd.Evictor.StaleEvents
import Mgd.Evictor.Reclaim
import Mgd.Evictor.IdleReclaim
import Mgd.Evictor.ForegroundReclaim
import Mgd.Calibration
import Mgd.PluginServer
import Mgd.PidRecycle
import Mgd.Verdicts
import Mgd.MaintenanceWake
import Mgd.RecoveryWake
import Mgd.ShutdownLedger
import Mgd.FreezeLedgers
import Mgd.FocusUnfreeze
import Mgd.FreezeCrash
import Mgd.Snapshots.Threads
import Mgd.Snapshots.RestoreOnce
import Mgd.Snapshots.DumpsKept
import Mgd.Lib.Text
import Mgd.ZramReclaim
import Mgd.PressureBroadcast
import Mgd.GpuTotals
import Mgd.LeakGuard
import Mgd.Lib.Mailbox
import Mgd.ManualRelease
import Mgd.Evictor.CpuWeights
import Mgd.Evictor.SpikeModeOff
import Mgd.HealthSamples
import Mgd.CalibrationTime
import Mgd.Config.Builtin
import Mgd.Config.Reload
import Mgd.Engine.PlanLaws
import Mgd.Executor.SignalTargets
import Mgd.Executor.UnfreezeOutcome
import Mgd.Executor.FreezeAttempts
import Mgd.Evictor.IdleFreeze
import Mgd.CalibrationRestart
import Mgd.Evictor.ReleaseFailures
import Mgd.Snapshots.Directories
import Mgd.Snapshots.DirectoryView
import Mgd.PlasmaRestart
import Mgd.Evictor.PlanEffects
import Mgd.Evictor.PushedPages
import Mgd.Lib.KeyedLoop
import Mgd.MemCap
import Mgd.ThrottleEligible
import Mgd.Evictor.HeadroomFreeze
import Mgd.Evictor.HeadroomRuns
import Mgd.Evictor.IdleVisits
import Mgd.Evictor.IdleRotation
import Mgd.Evictor.VictimRest
import Mgd.Executor.GraceKill
import Mgd.UnfreezeCommand
import Mgd.RecoveryDrain
import Mgd.LeakFamilies
import Mgd.LeakVerdicts
import Mgd.LedgerIdentity
import Mgd.AutoKill
import Mgd.AutoKillSound
import Mgd.SpikeOscillation
import Mgd.CalibrationBooks
import Mgd.Lib.Decimal
import Mgd.PressureText
import Mgd.ProcessNames
import Mgd.Evictor.SwapReads
import Mgd.CalibrationFlush
import Mgd.Lib.Paths
import Mgd.CheckpointWrapper
import Mgd.SuggestionText
import Mgd.Overflow
import Mgd.PsiPatchSound
import Mgd.Lib.Utf8
import Mgd.StatLine
import Mgd.SpikeInvariant
import Mgd.ZramCycle
import Mgd.Lib.FirstWins
import Mgd.Config.DesktopScan
import Mgd.Lib.Budget
import Mgd.CacheDrop
import Mgd.CacheConfined
import Mgd.Lib.Json
import Mgd.Lib.JsonCuts
import Mgd.Lib.LineStream
import Mgd.Lib.Serde
import Mgd.Lib.JsonNumbers
import Mgd.PluginWire
import Mgd.Lib.JsonFile
import Mgd.StateFiles
import Mgd.Lib.Rank
import Mgd.CalibrationRanks
import Mgd.Lib.Stretch
import Mgd.Evictor.LastResort
import Mgd.DiscoverReaper
import Mgd.GpuFdinfo
import Mgd.Lib.Expiry
import Mgd.GpuAnswers
import Mgd.IpcServer
import Mgd.PluginChildren
import Mgd.ProactiveReclaim
import Mgd.KillCommand
import Mgd.Lib.Retention
import Mgd.LogRotation
import Mgd.Lib.Locks
import Mgd.LockOrder
import Mgd.Lib.SharedStream
import Mgd.ActiveWindow
import Mgd.CalibrationSweep
import Mgd.PassiveApply
import Mgd.GpuScan
import Mgd.Executor.CheckpointSession
