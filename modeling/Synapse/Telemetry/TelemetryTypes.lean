import Synapse.Core.Workload
import Synapse.Foundations.BinaryFormats

/-!
# `telemetry_types.h`

The statistics of a session and the rates that are computed from them.  The types of the
learning statistics are parameters, so that they can be filled with exact numbers as well.

The rates are computed by a division that is guarded against the divisor 0, each in its own
place.  A sum of two counters that is the divisor is a sum of machine integers, so it may
wrap, to 0 as well, and the guard is asked of the wrapped sum: this is how `hit_rate` and
`energy_efficiency` are written, and how they are modelled here.

A double or a float is a value of its own type (`Numerals`), with the quotient of two numbers
as the rounded one that the conversion and the division give.  Nothing here depends on how it
is rounded.
-/

namespace Synapse.Telemetry

open Numerals

/-- `PredictionStats`: the counters of the texture predictor. -/
structure PredictionStats where
  totalPredictions : UInt64 := 0
  accuratePredictions : UInt64 := 0
  wastedPredictions : UInt64 := 0

namespace PredictionStats

variable (v : PredictionStats)

/-- `accuracy_rate`, 0 without predictions. -/
def accuracyRate : Binary64 :=
  if v.totalPredictions > 0 then
    .quotient v.accuratePredictions.toNat v.totalPredictions.toNat
  else .zero

/-- `waste_rate`, 0 without predictions. -/
def wasteRate : Binary64 :=
  if v.totalPredictions > 0 then
    .quotient v.wastedPredictions.toNat v.totalPredictions.toNat
  else .zero

end PredictionStats

/-- `CacheMetrics`: the counters of the texture cache. -/
structure CacheMetrics where
  hits : UInt64 := 0
  misses : UInt64 := 0
  syncStalls : UInt32 := 0
  currentUsageBytes : UInt64 := 0

/-- `hit_rate`, a float, 0 without accesses. -/
def CacheMetrics.hitRate (v : CacheMetrics) : Numerals.Binary32 :=
  let total := v.hits + v.misses
  if total > 0 then .quotient v.hits.toNat total.toNat else .zero

/-- `HorizonStats`: the outcome of one prediction window. -/
structure HorizonStats where
  window : UInt32 := 0
  stallsAvoided : UInt32 := 0
  falsePositives : UInt32 := 0

/-- `energy_efficiency`, 0 where nothing has been counted. -/
def HorizonStats.energyEfficiency (v : HorizonStats) : Binary64 :=
  let total := v.stallsAvoided + v.falsePositives
  if total > 0 then .quotient v.stallsAvoided.toNat total.toNat else .zero

/-- `MLTrainingStats`: the counters of the learning and the rates it is at. -/
structure MLTrainingStats (Double Float : Type*) where
  totalUpdates : UInt64
  cumulativeReward : Double
  /-- JIT, HAI, Oracle -/
  selectionCounts : ExecutionBackend → UInt64
  currentEpsilon : Float
  currentAlpha : Float
  trainingStatus : Text

/-- `DVFSStats`: the counters of the power states. -/
structure DVFSStats where
  totalTransitions : UInt32 := 0
  emergencyOverrides : UInt32 := 0
  hysteresisDrops : UInt32 := 0
  totalSwitchEnergyNj : Binary64 := .zero

/-- `JITStats`: the counters of the compiler and the time it has taken. -/
structure JITStats where
  coldCacheFallbacks : UInt32 := 0
  cacheHits : UInt32 := 0
  worstFallbackMs : Binary64 := .zero
  totalFallbackMs : Binary64 := .zero

/-- `HAIStats`: the counters of the instruction stream. -/
structure HAIStats where
  fullDrawsEmitted : UInt64 := 0
  deltaDrawsEmitted : UInt64 := 0
  rawBytesEquivalent : UInt64 := 0
  actualBytesEmitted : UInt64 := 0

/-- `compression_ratio`, 1 where nothing has been emitted. -/
def HAIStats.compressionRatio (v : HAIStats) : Binary64 :=
  if v.actualBytesEmitted > 0 then
    .quotient v.rawBytesEquivalent.toNat v.actualBytesEmitted.toNat
  else .one

/-- `ThermalStats`: the counters of the thermal events. -/
structure ThermalStats where
  thermalMitigationEvents : UInt32 := 0
  stabilityOverrides : UInt32 := 0
  proactiveBoosts : UInt32 := 0

/-- `PowerReport`: the estimates of the energy that is saved. -/
structure PowerReport where
  joulesSaved : Binary64 := .zero
  avgMilliwattsSavedAt60fps : Binary64 := .zero
  batteryExtensionFactor : Binary64 := .zero

/-- `BackendRoutingSummary`: where the draw calls have gone. -/
structure BackendRoutingSummary where
  jitDispatches : UInt32 := 0
  haiDispatches : UInt32 := 0
  oracleDispatches : UInt32 := 0
  totalDrawCalls : UInt32 := 0

/-- `SynapseSessionReport`: the records of a session, with the defaults of the source. -/
structure SynapseSessionReport where
  heuristic : Text := ascii "temporal_locality_v1"
  temporalWindowFrames : UInt32 := 3
  itsPredictor : PredictionStats := {}
  itsCache : CacheMetrics := {}
  bestHorizon : HorizonStats := {}
  horizonWindows : List HorizonStats := []
  totalFramesAnalyzed : UInt64 := 0
  mlModel : MLTrainingStats Binary64 Numerals.Binary32
  dvfs : DVFSStats := {}
  jit : JITStats := {}
  hai : HAIStats := {}
  thermal : ThermalStats := {}
  power : PowerReport := {}
  backendRouting : BackendRoutingSummary := {}

end Synapse.Telemetry
