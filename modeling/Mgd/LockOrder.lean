import Mgd.Lib.Locks

/-!
# The locks of the daemon

Which guards live while which locks are taken, function by function, for all threads
of the daemon: `main`, the four managers, a thread for each connection, and the ones
that these spawn.  Guards are Rust's: one bound by `let` lives to the end of its
block or to its `drop`, a temporary to the end of its statement or condition.  What a
branch or a loop depends on is left open.

`cmd_list` takes the throttle snapshot before the checkpoint registry and `cmd_info`
after it.  Both do so under the frozen registry, so that they cannot wait for each
other, and `no_deadlock` says that nobody else does either.
-/

namespace Mgd.LockOrder

open Mgd.Lib.Run Mgd.Lib.Locks Mgd.Lib.Locks.Code

/-- The mutexes, the cell of the configuration, and the locks of the output. -/
inductive Lock where
  | frozen
  | checkpointed
  | throttleSnapshot
  | eventLog
  | spikeSnapshot
  | leakSnapshot
  | spikeReleaseRequests
  | calibrator
  | recoveryWake
  | reclaimWake
  | config
  | pluginClients
  | gpuCache
  | activeForegroundPid
  | pluginChildren
  | cpuCache
  | checkpointFailedBinaries
  | stdout
  | stderr
  deriving DecidableEq, Repr

/-! ## Output, configuration, processes -/

/-- `sync_print!`, `locked_print`, `println!` -/
def syncPrint : Code Lock := brief .stdout

/-- `sync_eprint!`, `locked_eprint`, `eprintln!` -/
def syncEprint : Code Lock := brief .stderr

namespace Config

/-- Bad patterns and thresholds are reported. -/
def load : Code Lock := .loop syncEprint

def get : Code Lock := brief .config

def reload : Code Lock := block [load, brief .config, syncEprint]

end Config

def computeCpuPct : Code Lock := brief .cpuCache

def pruneCpuCache : Code Lock := brief .cpuCache

def listProcesses : Code Lock := maybe (block [.loop (maybe computeCpuPct), pruneCpuCache])

def push : Code Lock := brief .eventLog

def markBinaryFailed : Code Lock := brief .checkpointFailedBinaries

/-- The set is looked at only if the helper is there. -/
def isCheckpointEligible : Code Lock := maybe (brief .checkpointFailedBinaries)

/-! ## `plugin_server.rs` -/

def getGpuKb : Code Lock := brief .gpuCache

def getGpuStats : Code Lock := brief .gpuCache

def setGpuObservation : Code Lock := brief .gpuCache

def getTotalGpuKb : Code Lock := brief .gpuCache

def gpuCacheSnapshot : Code Lock := brief .gpuCache

def getActiveForegroundPid : Code Lock := brief .activeForegroundPid

def setActiveForegroundPid : Code Lock := brief .activeForegroundPid

def spawnPluginBinary : Code Lock :=
  .either (block [syncPrint, brief .pluginChildren]) syncPrint

def initPlugins : Code Lock :=
  block [oneOf [spawnPluginBinary, syncPrint, .work], maybe spawnPluginBinary]

def checkAndRestartPlugins : Code Lock :=
  block [.hold .pluginChildren (.loop (maybe syncPrint)), .loop spawnPluginBinary]

def shutdownPlugins : Code Lock := .hold .pluginChildren (.loop syncPrint)

/-- `broadcast_pressure`, `broadcast_config_reload`, and the answers to plugins -/
def broadcast : Code Lock := brief .pluginClients

def processPluginLine : Code Lock :=
  oneOf
    [.work, syncPrint, setGpuObservation, block [syncPrint, broadcast],
      block [getGpuStats, broadcast],
      -- the unfreezing itself is left to a thread of its own
      block [setActiveForegroundPid, maybe (brief .frozen)]]

def servePluginConnection : Code Lock :=
  block [broadcast, maybe (block [processPluginLine, .loop processPluginLine])]

/-- The thread that unfreezes the process of the active window. -/
def unfreezeActiveWindow : Code Lock := maybe (block [brief .frozen, syncPrint])

/-! ## The evictor -/

namespace Evictor

def excludedPids : Code Lock := brief .frozen

def releaseVictims : Code Lock :=
  block [.loop (.loop (maybe syncPrint)), .loop (maybe syncPrint), .loop (maybe syncPrint),
    .loop (maybe syncPrint)]

/-- `SpikeTracker::update` -/
def spikeUpdate : Code Lock :=
  block [.loop (maybe syncPrint), .loop (.loop (maybe syncPrint)), maybe getActiveForegroundPid]

def runSpikeCycle : Code Lock :=
  block [releaseVictims, maybe spikeUpdate,
    .loop (oneOf
      [.loop (maybe syncPrint),
        block [excludedPids, getActiveForegroundPid, .loop (maybe syncPrint)],
        syncPrint, syncPrint]),
    brief .spikeSnapshot]

def runLeakGuardCycle : Code Lock :=
  .either (brief .leakSnapshot)
    (block [.loop (block [syncPrint, push]), brief .leakSnapshot])

def checkIdleProcessReclaim : Code Lock :=
  maybe (block [.loop (maybe syncPrint), .loop (maybe (block [brief .frozen, maybe syncPrint]))])

def idleTimeoutReclaim : Code Lock :=
  block [listProcesses, runSpikeCycle,
    maybe (block [excludedPids, getActiveForegroundPid, checkIdleProcessReclaim])]

/-- `ThrottleManager::update` -/
def throttleUpdate : Code Lock := .loop (maybe syncPrint)

/-- `MemCapManager::update` -/
def memcapUpdate : Code Lock := .loop (maybe syncPrint)

/-- `MemCapManager::restore_all` -/
def memcapRestoreAll : Code Lock := .loop (maybe syncPrint)

def printStatus : Code Lock :=
  block [brief .frozen, syncPrint, syncPrint, syncPrint, .hold .frozen (.loop syncPrint)]

def compactZram : Code Lock := .loop (maybe syncPrint)

def checkEarlyProcessReclaim : Code Lock := .loop (maybe syncPrint)

def checkCacheDrop : Code Lock := maybe syncPrint

def plan : Code Lock :=
  maybe (block [getActiveForegroundPid, .loop (maybe getGpuKb), .loop (maybe isCheckpointEligible)])

def executeCheckpoint : Code Lock := .either (brief .checkpointed) markBinaryFailed

def executeDecision : Code Lock :=
  maybe (block [oneOf [maybe (brief .frozen), .work, executeCheckpoint], push])

def executePlan : Code Lock :=
  block [syncPrint,
    .loop (block [brief .frozen, maybe (block [executeDecision, syncPrint, maybe syncPrint])])]

/-- `PsiSubprocess::new` -/
def psiSubprocessNew : Code Lock := maybe syncPrint

/-- The process of the active window is resumed; the guard is dropped before. -/
def unfreezeOnFocus : Code Lock :=
  block [brief .frozen, maybe (.either (block [brief .frozen, syncPrint]) syncPrint)]

def backgroundRound : Code Lock :=
  block [maybe unfreezeOnFocus, excludedPids, throttleUpdate, brief .throttleSnapshot, memcapUpdate,
    maybe checkIdleProcessReclaim]

def pressureRound : Code Lock :=
  block [printStatus, broadcast, compactZram, excludedPids, getActiveForegroundPid,
    checkEarlyProcessReclaim, checkCacheDrop, plan,
    .either syncPrint
      (block [executePlan, brief .recoveryWake, maybe (brief .reclaimWake)]),
    brief .frozen, brief .throttleSnapshot, syncPrint]

def measuredCycle : Code Lock :=
  block [getTotalGpuKb, maybe syncPrint, maybe syncPrint, maybe syncPrint, maybe syncPrint,
    -- the second operand of the `||` is looked at only if the first one is false
    brief .frozen, maybe (brief .checkpointed), brief .calibrator, listProcesses,
    getActiveForegroundPid, maybe backgroundRound, maybe memcapRestoreAll,
    brief .spikeReleaseRequests, runSpikeCycle, runLeakGuardCycle, maybe pressureRound]

def cycle : Code Lock :=
  block [maybe (block [Config.reload, broadcast]), Config.get,
    maybe (block [psiSubprocessNew, maybe syncPrint]),
    .either (block [brief .spikeReleaseRequests, idleTimeoutReclaim])
      (block [maybe (block [syncPrint, psiSubprocessNew, maybe syncPrint]),
        .either syncPrint measuredCycle])]

def run : Code Lock :=
  block [syncPrint, syncPrint, Config.get, psiSubprocessNew, syncPrint, .loop cycle,
    memcapRestoreAll, brief .reclaimWake]

end Evictor

/-! ## The recovery manager -/

namespace Recovery

/-- `wait_timeout` gives the guard up and takes the lock again. -/
def waitForWork : Code Lock :=
  block [brief .frozen, brief .checkpointed,
    maybe (block [brief .recoveryWake, .loop (brief .recoveryWake)])]

def unfreezePass : Code Lock :=
  .hold .frozen (maybe (block [syncPrint, .loop syncPrint]))

def restorePass : Code Lock := .hold .checkpointed (maybe (block [syncPrint, maybe syncPrint]))

def run : Code Lock :=
  .loop (block [waitForWork, maybe (block [Config.get, maybe (block [unfreezePass, restorePass])])])

end Recovery

/-! ## The maintenance manager -/

namespace Maintenance

def checkAutoKillIdle : Code Lock :=
  maybe (block [listProcesses, .loop (maybe (block [brief .frozen, maybe syncPrint]))])

def checkProactiveReclaim : Code Lock :=
  oneOf [.work, syncPrint, block [syncPrint, maybe (block [syncPrint, maybe syncPrint])]]

def flushCalibration : Code Lock := block [brief .calibrator, maybe syncPrint]

def run : Code Lock :=
  .loop (block
    [checkAndRestartPlugins, Config.get, brief .reclaimWake,
      maybe (block [checkAutoKillIdle,
        maybe (block [checkProactiveReclaim, brief .frozen, maybe (brief .checkpointed),
          brief .calibrator])]),
      maybe flushCalibration, maybe (block [syncPrint, checkProactiveReclaim]),
      brief .reclaimWake, brief .reclaimWake])

end Maintenance

/-! ## `ipc.rs` -/

namespace Ipc

def cmdStatus : Code Lock :=
  block [brief .frozen, brief .checkpointed, brief .throttleSnapshot, brief .spikeSnapshot,
    brief .leakSnapshot]

def cmdList : Code Lock :=
  .hold .frozen (.hold .throttleSnapshot (block [listProcesses, .hold .checkpointed .work]))

def cmdReload : Code Lock := block [Config.reload, broadcast]

def cmdUnfreeze : Code Lock :=
  block [brief .frozen,
    .either (.loop (maybe (brief .frozen)))
      (block [brief .spikeSnapshot, maybe (brief .spikeReleaseRequests)])]

def cmdFreeze : Code Lock :=
  block [listProcesses, .loop (block [brief .frozen, maybe (brief .frozen)])]

def cmdRestore : Code Lock :=
  block [brief .checkpointed, .loop (maybe (brief .checkpointed))]

def cmdInfo : Code Lock :=
  block [listProcesses, .hold .frozen (.hold .checkpointed (.hold .throttleSnapshot .work))]

def cmdPs : Code Lock := block [listProcesses, .hold .frozen (.hold .throttleSnapshot .work)]

def cmdKill : Code Lock := block [listProcesses, .loop (maybe push)]

def cmdGpuInfo : Code Lock := gpuCacheSnapshot

def cmdSpikeStatus : Code Lock := brief .spikeSnapshot

def cmdLeakStatus : Code Lock := brief .leakSnapshot

def cmdEvents : Code Lock := brief .eventLog

def dispatch : Code Lock :=
  oneOf
    [block [Config.get, cmdStatus], cmdList, block [Config.get, cmdPs], cmdEvents, cmdReload,
      maybe cmdUnfreeze, maybe cmdFreeze, maybe cmdRestore, maybe cmdKill,
      maybe (block [Config.get, cmdInfo]), cmdGpuInfo, cmdSpikeStatus, cmdLeakStatus, .work]

def routeIpcConnection : Code Lock := oneOf [.work, servePluginConnection, dispatch]

def bindSocket : Code Lock := maybe syncEprint

/-- The connections have threads of their own. -/
def runServer : Code Lock := block [bindSocket, .loop (maybe syncEprint)]

end Ipc

/-! ## `main.rs` -/

def cleanupOrphanedSnapshots : Code Lock :=
  maybe (block [brief .checkpointed, .loop (maybe syncPrint)])

/-- The first reader loads the configuration. -/
def initializeState : Code Lock :=
  block [.loop syncPrint, .loop (maybe syncPrint), cleanupOrphanedSnapshots, .loop syncPrint,
    initPlugins, Config.load, Config.get]

def shutdownUnfreeze : Code Lock :=
  block [brief .frozen, maybe (block [syncPrint, .loop (.either syncPrint syncEprint), syncPrint])]

/-- The four managers are spawned and joined between the first two. -/
def main : Code Lock :=
  block [initializeState, shutdownPlugins, shutdownUnfreeze, Config.get, Maintenance.flushCalibration]

/-! ## No thread is locked out -/

/-- What a thread of the daemon was spawned for. -/
inductive Role where
  | main
  | pressureResponder
  | recoveryManager
  | ipcServer
  | maintenanceManager
  | connection
  | activeWindow
  /-- a process is terminated, or a connection written to -/
  | helper
  deriving DecidableEq, Repr

def Role.code : Role → Code Lock
  | .main => LockOrder.main
  | .pressureResponder => Evictor.run
  | .recoveryManager => Recovery.run
  | .ipcServer => Ipc.runServer
  | .maintenanceManager => Maintenance.run
  | .connection => Ipc.routeIpcConnection
  | .activeWindow => unfreezeActiveWindow
  | .helper => .work

def Lock.level : Lock → Nat
  | .frozen => 0
  | .checkpointed => 1
  | .throttleSnapshot => 1
  | .stdout => 3
  | .stderr => 3
  | _ => 2

/-- The frozen registry is the gate of the checkpoint registry and the throttle snapshot. -/
def lockOrder : Order Lock where
  level := Lock.level
  top := 3
  level_le := fun l => by cases l <;> decide
  gate := fun level => if level = 1 then some .frozen else none

/-- Every thread keeps to the order. -/
theorem ordered_code (role : Role) : role.code.Ordered lockOrder [] := by
  cases role <;> decide +kernel

/-- **The daemon does not deadlock.**  In every interleaving of any number of its threads,
a lock has at most one owner, and a thread that waits does so, through others, for one
that moves. -/
theorem no_deadlock {ι : Type} [DecidableEq ι] (role : ι → Role) (moves : List (Move ι)) :
    Always step (fun s => Exclusive s ∧ Live s) (start fun i => (role i).code) moves :=
  waits_end (fun i => ordered_code (role i)) moves

/-- Without the gate, neither registry may be taken under the other. -/
example : ¬ (Code.hold Lock.throttleSnapshot (brief .checkpointed)).Ordered lockOrder [] ∧
    ¬ (Code.hold Lock.checkpointed (brief .throttleSnapshot)).Ordered lockOrder [] := by
  decide

end Mgd.LockOrder
