import Mgd.Lib.AssocMap
import Mgd.Monitor

/-!
# Compiled configuration

`CompiledConfig` as the modelled threads read it, and its lookups.  Patterns
are third-party regular expressions: a `Regex` is what the daemon uses of one,
the test on a name.

`CompiledConfig.ofEmpty` is what `compile` gives for an empty file on a machine
without `.desktop` entries, every section at its default; the target share of
available RAM has no default in the file and is an argument.
-/

namespace Mgd.Config

open Mgd.Types Mgd.Monitor Mgd.Lib.AssocMap

/-- A compiled pattern, seen through `is_match`. -/
structure Regex where
  isMatch : String → Bool

/-- The pattern `^name$` for a name without metacharacters. -/
def Regex.exact (name : String) : Regex := ⟨fun s => s == name⟩

/-- One `[[apps]]` entry: pattern, priority, checkpoint override. -/
structure AppRule where
  re : Regex
  prio : Nat
  checkpoint : Option Bool

/-- One `auto_kill_idle_after` rule. -/
structure AutoKillRule where
  re : Regex
  secs : Nat

structure CompiledConfig where
  defaultPriority : Nat
  targetAvailablePct : ℚ
  psi : PsiThresholds
  idleReclaimEnabled : Bool
  idleReclaimGlobalCooldownSec : Nat
  spikeModeEnabled : Bool
  spikeInclude : List Regex
  spikeExclude : List Regex
  spikeVictimExclude : List Regex
  spikeWindowSec : Nat
  spikeHeadroomFactor : ℚ
  spikeMinRssKb : Kb
  spikeGrowthThresholdKb : Kb
  spikeMajfltThreshold : Nat
  spikeOscillationDropFactor : ℚ
  spikeCpuThresholdPct : ℚ
  spikeThrottledCpuWeight : Nat
  spikeMinSamples : Nat
  spikeMaxVictimFreezeSec : Nat
  spikeVictimMinRssKb : Kb
  spikeIdleCpuThresholdPct : ℚ
  spikeIdleRssDeltaKb : Kb
  spikeIdleTicksRequired : Nat
  throttleExclude : List Regex
  throttleMaxDurationSec : Nat
  entries : List AppRule
  autoKillRules : List AutoKillRule
  /-- `protected` in the source, which is a keyword here. -/
  protectRules : List Regex
  desktopIndex : Map String Nat

namespace CompiledConfig

variable (cfg : CompiledConfig)

/-- Priority 0-100, higher is sacrificed first: the first matching `[[apps]]`
entry, then the `.desktop` category of the executable, then the default. -/
def priorityFor (processName : String) (exeBasename : Option String) : Nat :=
  match cfg.entries.find? (fun e => e.re.isMatch processName) with
  | some e => e.prio
  | none =>
      match exeBasename.bind (fun exe => cfg.desktopIndex.lookup exe) with
      | some prio => prio
      | none => cfg.defaultPriority

def checkpointOverride (processName : String) : Option Bool :=
  match cfg.entries.find? (fun e => e.re.isMatch processName) with
  | some e => e.checkpoint
  | none => none

def autoKillIdleAfterFor (name : String) : Option Nat :=
  (cfg.autoKillRules.find? (fun r => r.re.isMatch name)).map AutoKillRule.secs

def isProtected (processName : String) : Bool :=
  cfg.protectRules.any (fun re => re.isMatch processName)

end CompiledConfig

/-- An empty configuration file: every default of `RawConfig`. -/
def CompiledConfig.ofEmpty (targetAvailablePct : ℚ) : CompiledConfig where
  defaultPriority := 50
  targetAvailablePct := targetAvailablePct
  psi := PsiThresholds.default
  idleReclaimEnabled := true
  idleReclaimGlobalCooldownSec := 30
  spikeModeEnabled := false
  spikeInclude := []
  spikeExclude := []
  spikeVictimExclude := []
  spikeWindowSec := 120
  spikeHeadroomFactor := 5 / 4
  spikeMinRssKb := Kb.clamp 524288
  spikeGrowthThresholdKb := Kb.clamp 102400
  spikeMajfltThreshold := 500
  spikeOscillationDropFactor := 9 / 10
  spikeCpuThresholdPct := 80
  spikeThrottledCpuWeight := 20
  spikeMinSamples := 6
  spikeMaxVictimFreezeSec := 0
  spikeVictimMinRssKb := Kb.clamp 25600
  spikeIdleCpuThresholdPct := 3
  spikeIdleRssDeltaKb := Kb.clamp 20000
  spikeIdleTicksRequired := 10
  throttleExclude := []
  throttleMaxDurationSec := 300
  entries := []
  autoKillRules := []
  protectRules := []
  desktopIndex := ∅

end Mgd.Config
