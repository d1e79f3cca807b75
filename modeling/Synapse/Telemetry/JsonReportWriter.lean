import Synapse.Foundations.JsonText
import Synapse.Telemetry.TelemetryTypes

/-!
# `json_report_writer.cpp`

The session report as the writer puts it together, one overload of `to_json` after the other,
each with its own quotes, colons and commas.  How a double is printed is a parameter.

The text is the rendering of a document (`toJson_eq_render`), so that it is read back.

### A writer and a meaning

The writer knows no grammar: each overload of `to_json` prints its quotes, colons and commas
by hand, and a missing comma would go unnoticed by the compiler.  The model keeps that, so
that the text is compared with the source character by character.  Beside it stands the
document that a record means (`document`), a tree without any punctuation, and one lemma for
each overload says that its text is the rendering of its document.  Reading back is then the
parser's own theorem about renderings.

The doubles are printed by a function that is a parameter, for a stream's formatting is that
of the C++ library; all that is used of it is that a finite double is printed as a numeral.
The reports hold doubles that come from outside, and those that are computed here by a guarded
division.  The latter are always finite (`isFinite_accuracyRate` and its like), the former are
assumed to be (`SynapseSessionReport.IsFinite`).
-/

namespace Synapse.Telemetry

open Numerals JsonText

/-! ## The writer -/

/-- `out << …` -/
def out (pieces : List Text) : Text := pieces.flatten

/-- The literal `\"name\":`. -/
def label (name : String) : Text := ascii "\"" ++ ascii name ++ ascii "\":"

/-- The text `"{"` of the writer. -/
def openBrace : Text := ascii "\x7b"

/-- The text `"}"` of the writer. -/
def closeBrace : Text := ascii "\x7d"

/-- The text `","` of the writer. -/
def comma : Text := ascii ","

/-- `to_json(uint64_t)`: the decimal digits. -/
def uint64ToJson (v : UInt64) : Text := decimal v.toNat

/-- `to_json(uint32_t)`: the decimal digits. -/
def uint32ToJson (v : UInt32) : Text := decimal v.toNat

/-- `to_json(const std::string&)` -/
def stringToJson (v : Text) : Text := quote v

section writer

/- How `std::setprecision(15)` prints a double. -/
variable (print : Binary64 → Text)

/-- A `float` is printed as the double of the same value. -/
def floatToJson (v : Numerals.Binary32) : Text := print v.toDouble

/-- `to_json(const HorizonStats&)`. -/
def HorizonStats.toJson (v : HorizonStats) : Text := out [
  openBrace,
  label "window", uint32ToJson v.window, comma,
  label "stalls_avoided", uint32ToJson v.stallsAvoided, comma,
  label "false_positives", uint32ToJson v.falsePositives, comma,
  label "energy_efficiency", print v.energyEfficiency,
  closeBrace]

/-- The loop of `to_json(const std::vector<HorizonStats>&)`, from the entry at `i` on.  It
writes the entries as the overload for one entry does. -/
def horizonsFrom (i : ℕ) : List HorizonStats → Text
  | [] => []
  | v :: vs => (if i ≠ 0 then comma else []) ++ v.toJson print ++ horizonsFrom (i + 1) vs

/-- The array of the horizons, in which commas stand between the elements only. -/
def horizonsToJson (v : List HorizonStats) : Text := out [
  ascii "[",
  horizonsFrom print 0 v,
  ascii "]"]

/-- `to_json(const PredictionStats&)`, the two rates with the counters. -/
def PredictionStats.toJson (v : PredictionStats) : Text := out [
  openBrace,
  label "total_predictions", uint64ToJson v.totalPredictions, comma,
  label "accurate_predictions", uint64ToJson v.accuratePredictions, comma,
  label "wasted_predictions", uint64ToJson v.wastedPredictions, comma,
  label "accuracy_rate", print v.accuracyRate, comma,
  label "waste_rate", print v.wasteRate,
  closeBrace]

/-- `to_json(const CacheMetrics&)`, the rate a float that is printed as a double. -/
def CacheMetrics.toJson (v : CacheMetrics) : Text := out [
  openBrace,
  label "hits", uint64ToJson v.hits, comma,
  label "misses", uint64ToJson v.misses, comma,
  label "sync_stalls", uint32ToJson v.syncStalls, comma,
  label "current_usage_bytes", uint64ToJson v.currentUsageBytes, comma,
  label "hit_rate", floatToJson print v.hitRate,
  closeBrace]

/-- `to_json(const MLTrainingStats&)`, the three counters written as an array without a loop.
-/
def MLTrainingStats.toJson (v : MLTrainingStats Binary64 Numerals.Binary32) : Text := out [
  openBrace,
  label "total_updates", uint64ToJson v.totalUpdates, comma,
  label "cumulative_reward", print v.cumulativeReward, comma,
  label "selection_counts", ascii "[", uint64ToJson (v.selectionCounts .JIT), comma,
  uint64ToJson (v.selectionCounts .HAI), comma,
  uint64ToJson (v.selectionCounts .Oracle), ascii "],",
  label "current_epsilon", floatToJson print v.currentEpsilon, comma,
  label "current_alpha", floatToJson print v.currentAlpha, comma,
  label "training_status", stringToJson v.trainingStatus,
  closeBrace]

/-- `to_json(const DVFSStats&)`. -/
def DVFSStats.toJson (v : DVFSStats) : Text := out [
  openBrace,
  label "total_transitions", uint32ToJson v.totalTransitions, comma,
  label "emergency_overrides", uint32ToJson v.emergencyOverrides, comma,
  label "hysteresis_drops", uint32ToJson v.hysteresisDrops, comma,
  label "total_switch_energy_nj", print v.totalSwitchEnergyNj,
  closeBrace]

/-- `to_json(const JITStats&)`. -/
def JITStats.toJson (v : JITStats) : Text := out [
  openBrace,
  label "cold_cache_fallbacks", uint32ToJson v.coldCacheFallbacks, comma,
  label "cache_hits", uint32ToJson v.cacheHits, comma,
  label "worst_fallback_ms", print v.worstFallbackMs, comma,
  label "total_fallback_ms", print v.totalFallbackMs,
  closeBrace]

/-- `to_json(const HAIStats&)`, the ratio with the counters. -/
def HAIStats.toJson (v : HAIStats) : Text := out [
  openBrace,
  label "full_draws_emitted", uint64ToJson v.fullDrawsEmitted, comma,
  label "delta_draws_emitted", uint64ToJson v.deltaDrawsEmitted, comma,
  label "raw_bytes_equivalent", uint64ToJson v.rawBytesEquivalent, comma,
  label "actual_bytes_emitted", uint64ToJson v.actualBytesEmitted, comma,
  label "compression_ratio", print v.compressionRatio,
  closeBrace]

/-- `to_json(const ThermalStats&)`, which prints no double. -/
def ThermalStats.toJson (v : ThermalStats) : Text := out [
  openBrace,
  label "thermal_mitigation_events", uint32ToJson v.thermalMitigationEvents, comma,
  label "stability_overrides", uint32ToJson v.stabilityOverrides, comma,
  label "proactive_boosts", uint32ToJson v.proactiveBoosts,
  closeBrace]

/-- `to_json(const PowerReport&)`, which prints nothing else. -/
def PowerReport.toJson (v : PowerReport) : Text := out [
  openBrace,
  label "joules_saved", print v.joulesSaved, comma,
  label "avg_milliwatts_saved_at_60fps", print v.avgMilliwattsSavedAt60fps, comma,
  label "battery_extension_factor", print v.batteryExtensionFactor,
  closeBrace]

/-- `to_json(const BackendRoutingSummary&)`. -/
def BackendRoutingSummary.toJson (v : BackendRoutingSummary) : Text := out [
  openBrace,
  label "jit_dispatches", uint32ToJson v.jitDispatches, comma,
  label "hai_dispatches", uint32ToJson v.haiDispatches, comma,
  label "oracle_dispatches", uint32ToJson v.oracleDispatches, comma,
  label "total_draw_calls", uint32ToJson v.totalDrawCalls,
  closeBrace]

/-- `to_json(const SynapseSessionReport&)`: the version of the schema is written as it stands,
the other members through the overloads. -/
def SynapseSessionReport.toJson (r : SynapseSessionReport) : Text := out [
  openBrace,
  ascii "\"schema_version\":\"v2.0.0\",",
  label "heuristic", stringToJson r.heuristic, comma,
  label "temporal_window_frames", uint32ToJson r.temporalWindowFrames, comma,
  label "its_predictor", r.itsPredictor.toJson print, comma,
  label "its_cache", r.itsCache.toJson print, comma,
  label "best_horizon", r.bestHorizon.toJson print, comma,
  label "horizon_windows", horizonsToJson print r.horizonWindows, comma,
  label "total_frames_analyzed", uint64ToJson r.totalFramesAnalyzed, comma,
  label "ml_model", r.mlModel.toJson print, comma,
  label "dvfs", r.dvfs.toJson print, comma,
  label "jit", r.jit.toJson print, comma,
  label "hai", r.hai.toJson print, comma,
  label "thermal", r.thermal.toJson, comma,
  label "power", r.power.toJson print, comma,
  label "backend_routing", r.backendRouting.toJson,
  closeBrace]

/-- The file's content after `write_session_report`, and what it returns; `opens` says
whether the file can be opened for writing. -/
def writeSessionReport (opens : Bool) (report : SynapseSessionReport) (file : Option Text) :
    Bool × Option Text :=
  if opens then (true, some (report.toJson print)) else (false, file)

end writer

/-! ## The document -/

section document

variable (print : Binary64 → Text)

/-- The number that a text is, where it is one. -/
def numberOf (text : Text) : Value :=
  .number (if valid : isNumeral text = true then ⟨text, valid⟩ else .ofNat 0)

/-- A counter in a document. -/
def integer (n : ℕ) : Value := .number (.ofNat n)

/-- A member whose name is one of the writer's own, so without escapes. -/
def member (name : String) (value : Value) : Text × Value := (ascii name, value)

/-- What a horizon says. -/
def HorizonStats.document (v : HorizonStats) : Value := .object [
  member "window" (integer v.window.toNat),
  member "stalls_avoided" (integer v.stallsAvoided.toNat),
  member "false_positives" (integer v.falsePositives.toNat),
  member "energy_efficiency" (numberOf (print v.energyEfficiency))]

/-- What the statistics of the predictor say. -/
def PredictionStats.document (v : PredictionStats) : Value := .object [
  member "total_predictions" (integer v.totalPredictions.toNat),
  member "accurate_predictions" (integer v.accuratePredictions.toNat),
  member "wasted_predictions" (integer v.wastedPredictions.toNat),
  member "accuracy_rate" (numberOf (print v.accuracyRate)),
  member "waste_rate" (numberOf (print v.wasteRate))]

/-- What the metrics of the cache say. -/
def CacheMetrics.document (v : CacheMetrics) : Value := .object [
  member "hits" (integer v.hits.toNat),
  member "misses" (integer v.misses.toNat),
  member "sync_stalls" (integer v.syncStalls.toNat),
  member "current_usage_bytes" (integer v.currentUsageBytes.toNat),
  member "hit_rate" (numberOf (print v.hitRate.toDouble))]

/-- What the statistics of the learning say. -/
def MLTrainingStats.document (v : MLTrainingStats Binary64 Numerals.Binary32) : Value := .object [
  member "total_updates" (integer v.totalUpdates.toNat),
  member "cumulative_reward" (numberOf (print v.cumulativeReward)),
  member "selection_counts" (.array [integer (v.selectionCounts .JIT).toNat,
    integer (v.selectionCounts .HAI).toNat, integer (v.selectionCounts .Oracle).toNat]),
  member "current_epsilon" (numberOf (print v.currentEpsilon.toDouble)),
  member "current_alpha" (numberOf (print v.currentAlpha.toDouble)),
  member "training_status" (.string v.trainingStatus)]

/-- What the statistics of the power states say. -/
def DVFSStats.document (v : DVFSStats) : Value := .object [
  member "total_transitions" (integer v.totalTransitions.toNat),
  member "emergency_overrides" (integer v.emergencyOverrides.toNat),
  member "hysteresis_drops" (integer v.hysteresisDrops.toNat),
  member "total_switch_energy_nj" (numberOf (print v.totalSwitchEnergyNj))]

/-- What the statistics of the compiler say. -/
def JITStats.document (v : JITStats) : Value := .object [
  member "cold_cache_fallbacks" (integer v.coldCacheFallbacks.toNat),
  member "cache_hits" (integer v.cacheHits.toNat),
  member "worst_fallback_ms" (numberOf (print v.worstFallbackMs)),
  member "total_fallback_ms" (numberOf (print v.totalFallbackMs))]

/-- What the statistics of the stream say. -/
def HAIStats.document (v : HAIStats) : Value := .object [
  member "full_draws_emitted" (integer v.fullDrawsEmitted.toNat),
  member "delta_draws_emitted" (integer v.deltaDrawsEmitted.toNat),
  member "raw_bytes_equivalent" (integer v.rawBytesEquivalent.toNat),
  member "actual_bytes_emitted" (integer v.actualBytesEmitted.toNat),
  member "compression_ratio" (numberOf (print v.compressionRatio))]

/-- What the statistics of the thermal events say. -/
def ThermalStats.document (v : ThermalStats) : Value := .object [
  member "thermal_mitigation_events" (integer v.thermalMitigationEvents.toNat),
  member "stability_overrides" (integer v.stabilityOverrides.toNat),
  member "proactive_boosts" (integer v.proactiveBoosts.toNat)]

/-- What the power report says. -/
def PowerReport.document (v : PowerReport) : Value := .object [
  member "joules_saved" (numberOf (print v.joulesSaved)),
  member "avg_milliwatts_saved_at_60fps" (numberOf (print v.avgMilliwattsSavedAt60fps)),
  member "battery_extension_factor" (numberOf (print v.batteryExtensionFactor))]

/-- What the summary of the routes says. -/
def BackendRoutingSummary.document (v : BackendRoutingSummary) : Value := .object [
  member "jit_dispatches" (integer v.jitDispatches.toNat),
  member "hai_dispatches" (integer v.haiDispatches.toNat),
  member "oracle_dispatches" (integer v.oracleDispatches.toNat),
  member "total_draw_calls" (integer v.totalDrawCalls.toNat)]

/-- The members of a report. -/
def SynapseSessionReport.members (r : SynapseSessionReport) : List (Text × Value) := [
  member "schema_version" (.string (ascii "v2.0.0")),
  member "heuristic" (.string r.heuristic),
  member "temporal_window_frames" (integer r.temporalWindowFrames.toNat),
  member "its_predictor" (r.itsPredictor.document print),
  member "its_cache" (r.itsCache.document print),
  member "best_horizon" (r.bestHorizon.document print),
  member "horizon_windows" (.array (r.horizonWindows.map (HorizonStats.document print))),
  member "total_frames_analyzed" (integer r.totalFramesAnalyzed.toNat),
  member "ml_model" (r.mlModel.document print),
  member "dvfs" (r.dvfs.document print),
  member "jit" (r.jit.document print),
  member "hai" (r.hai.document print),
  member "thermal" r.thermal.document,
  member "power" (r.power.document print),
  member "backend_routing" r.backendRouting.document]

end document

/-! ## The text is the document -/

section pieces

@[simp] theorem openBrace_append (text : Text) : openBrace ++ text = 0x7b :: text := rfl

@[simp] theorem closeBrace_eq : closeBrace = [0x7d] := rfl

@[simp] theorem comma_append (text : Text) : comma ++ text = 0x2c :: text := rfl

@[simp] theorem openBracket_append (text : Text) : ascii "[" ++ text = 0x5b :: text := rfl

@[simp] theorem closeBracket_eq : ascii "]" = [0x5d] := rfl

@[simp] theorem closeBracketComma_append (text : Text) :
    ascii "]," ++ text = 0x5d :: 0x2c :: text := rfl

/-- The version is written with its quotes in one literal; it is the member that the others
are. -/
@[simp] theorem schemaVersion_append (text : Text) :
    ascii "\"schema_version\":\"v2.0.0\"," ++ text =
      label "schema_version" ++ (stringToJson (ascii "v2.0.0") ++ 0x2c :: text) := rfl

/-- A label is a quoted key and a colon, since no byte of it needs an escape. -/
@[simp] theorem label_append {name : String} (h : (ascii name).flatMap escapeByte = ascii name)
    (text : Text) : label name ++ text = quote (ascii name) ++ 0x3a :: text := by
  rw [quote, h, label, List.append_assoc, List.append_assoc, List.cons_append, List.append_assoc]
  rfl

@[simp] theorem render_integer (n : ℕ) : render (integer n) = decimal n := rfl

/-- A text that is a numeral is rendered as it is. -/
@[simp] theorem render_numberOf {text : Text} (h : isNumeral text = true) :
    render (numberOf text) = text := by
  rw [numberOf, dif_pos h]
  rfl

/-- The name of a member is rendered between quotes, for it needs no escape. -/
@[simp] theorem renderMember_member (name : String) (value : Value) :
    renderMember (member name value).1 (render (member name value).2) =
      quote (ascii name) ++ 0x3a :: render value := rfl

end pieces

/-- Every floating-point field is finite. -/
structure MLTrainingStats.IsFinite (v : MLTrainingStats Binary64 Numerals.Binary32) : Prop where
  cumulativeReward : v.cumulativeReward.isFinite = true
  currentEpsilon : v.currentEpsilon.isFinite = true
  currentAlpha : v.currentAlpha.isFinite = true

/-- The two times of the compiler are finite. -/
structure JITStats.IsFinite (v : JITStats) : Prop where
  worstFallbackMs : v.worstFallbackMs.isFinite = true
  totalFallbackMs : v.totalFallbackMs.isFinite = true

/-- The three doubles of the power report are finite. -/
structure PowerReport.IsFinite (v : PowerReport) : Prop where
  joulesSaved : v.joulesSaved.isFinite = true
  avgMilliwattsSavedAt60fps : v.avgMilliwattsSavedAt60fps.isFinite = true
  batteryExtensionFactor : v.batteryExtensionFactor.isFinite = true

/-- The doubles that come from outside are finite; there are no others to be assumed so. -/
structure SynapseSessionReport.IsFinite (r : SynapseSessionReport) : Prop where
  mlModel : r.mlModel.IsFinite
  dvfs : r.dvfs.totalSwitchEnergyNj.isFinite = true
  jit : r.jit.IsFinite
  power : r.power.IsFinite

section rendered

variable {print : Binary64 → Text}
variable (hprint : ∀ x : Binary64, x.isFinite = true → isNumeral (print x) = true)

/-- A quotient of counters, the divisor checked for zero. -/
theorem PredictionStats.isFinite_accuracyRate (v : PredictionStats) :
    v.accuracyRate.isFinite = true := by
  unfold accuracyRate
  split_ifs with h
  · exact Binary64.isFinite_quotient h v.accuratePredictions.toNat_lt
  · decide

/-- The same of the other rate. -/
theorem PredictionStats.isFinite_wasteRate (v : PredictionStats) :
    v.wasteRate.isFinite = true := by
  unfold wasteRate
  split_ifs with h
  · exact Binary64.isFinite_quotient h v.wastedPredictions.toNat_lt
  · decide

/-- The sum of the two counters may wrap to zero, and is checked as the divisor that it is. -/
theorem CacheMetrics.isFinite_hitRate (v : CacheMetrics) : v.hitRate.isFinite = true := by
  unfold hitRate
  dsimp only
  split_ifs with h
  · exact Numerals.Binary32.isFinite_quotient h v.hits.toNat_lt
  · decide

/-- The same of the efficiency of a horizon. -/
theorem HorizonStats.isFinite_energyEfficiency (v : HorizonStats) :
    v.energyEfficiency.isFinite = true := by
  unfold energyEfficiency
  dsimp only
  split_ifs with h
  · exact Binary64.isFinite_quotient h
      (v.stallsAvoided.toNat_lt.trans (by decide))
  · decide

/-- The ratio is 1 where no byte has been emitted. -/
theorem HAIStats.isFinite_compressionRatio (v : HAIStats) :
    v.compressionRatio.isFinite = true := by
  unfold compressionRatio
  split_ifs with h
  · exact Binary64.isFinite_quotient h v.rawBytesEquivalent.toNat_lt
  · decide

include hprint

/-- The text of a horizon is the rendering of what it says. -/
theorem HorizonStats.toJson_eq_render (v : HorizonStats) :
    v.toJson print = render (v.document print) := by
  have hrate := hprint _ v.isFinite_energyEfficiency
  simp (disch := first | assumption | decide) [toJson, document, render_object, separated, out,
    uint32ToJson]

/-- Behind the first element each one has a comma in front of it. -/
theorem horizonsFrom_eq (v : List HorizonStats) {i : ℕ} (hi : i ≠ 0) :
    horizonsFrom print i v =
      ((v.map (HorizonStats.document print)).map render).flatMap fun text => 0x2c :: text := by
  induction v generalizing i with
  | nil => rfl
  | cons v vs ih =>
      rw [horizonsFrom, if_pos hi, ih (Nat.succ_ne_zero i), v.toJson_eq_render hprint,
        List.map_cons, List.map_cons, List.flatMap_cons, comma_append, List.cons_append]

/-- The loop puts a comma before every entry but the first. -/
theorem horizonsToJson_eq_render (v : List HorizonStats) :
    horizonsToJson print v = render (.array (v.map (HorizonStats.document print))) := by
  rw [render_array]
  cases v with
  | nil => rfl
  | cons v vs =>
      have hrest := horizonsFrom_eq hprint vs Nat.one_ne_zero
      rw [List.map_cons, List.map_cons, separated, ← hrest, ← v.toJson_eq_render hprint]
      simp [horizonsToJson, horizonsFrom, out]

/-- The text of the predictor's statistics. -/
theorem PredictionStats.toJson_eq_render (v : PredictionStats) :
    v.toJson print = render (v.document print) := by
  have haccuracy := hprint _ v.isFinite_accuracyRate
  have hwaste := hprint _ v.isFinite_wasteRate
  simp (disch := first | assumption | decide) [toJson, document, render_object, separated, out,
    uint64ToJson]

/-- The text of the cache's metrics. -/
theorem CacheMetrics.toJson_eq_render (v : CacheMetrics) :
    v.toJson print = render (v.document print) := by
  have hrate := hprint _ (Numerals.Binary32.isFinite_toDouble v.isFinite_hitRate)
  simp (disch := first | assumption | decide) [toJson, document, render_object, separated, out,
    uint64ToJson, uint32ToJson, floatToJson]

/-- The text of the learning's statistics, in which three doubles are not computed here. -/
theorem MLTrainingStats.toJson_eq_render {v : MLTrainingStats Binary64 Numerals.Binary32}
    (hv : v.IsFinite) : v.toJson print = render (v.document print) := by
  have hreward := hprint _ hv.cumulativeReward
  have hepsilon := hprint _ (Numerals.Binary32.isFinite_toDouble hv.currentEpsilon)
  have halpha := hprint _ (Numerals.Binary32.isFinite_toDouble hv.currentAlpha)
  simp (disch := first | assumption | decide) [toJson, document, render_object, render_array,
    separated, out, uint64ToJson, floatToJson, stringToJson, render_string]

/-- The text of the power states' statistics. -/
theorem DVFSStats.toJson_eq_render {v : DVFSStats}
    (hv : v.totalSwitchEnergyNj.isFinite = true) : v.toJson print = render (v.document print) := by
  have henergy := hprint _ hv
  simp (disch := first | assumption | decide) [toJson, document, render_object, separated, out,
    uint32ToJson]

/-- The text of the compiler's statistics. -/
theorem JITStats.toJson_eq_render {v : JITStats} (hv : v.IsFinite) :
    v.toJson print = render (v.document print) := by
  have hworst := hprint _ hv.worstFallbackMs
  have htotal := hprint _ hv.totalFallbackMs
  simp (disch := first | assumption | decide) [toJson, document, render_object, separated, out,
    uint32ToJson]

/-- The text of the stream's statistics. -/
theorem HAIStats.toJson_eq_render (v : HAIStats) :
    v.toJson print = render (v.document print) := by
  have hratio := hprint _ v.isFinite_compressionRatio
  simp (disch := first | assumption | decide) [toJson, document, render_object, separated, out,
    uint64ToJson]

/-- The text of the power report. -/
theorem PowerReport.toJson_eq_render {v : PowerReport} (hv : v.IsFinite) :
    v.toJson print = render (v.document print) := by
  have hjoules := hprint _ hv.joulesSaved
  have hmilliwatts := hprint _ hv.avgMilliwattsSavedAt60fps
  have hbattery := hprint _ hv.batteryExtensionFactor
  simp (disch := first | assumption | decide) [toJson, document, render_object, separated, out]

omit hprint in
/-- The text of the thermal statistics. -/
theorem ThermalStats.toJson_eq_render (v : ThermalStats) : v.toJson = render v.document := by
  simp (disch := decide) [toJson, document, render_object, separated, out, uint32ToJson]

omit hprint in
/-- The text of the summary of the routes. -/
theorem BackendRoutingSummary.toJson_eq_render (v : BackendRoutingSummary) :
    v.toJson = render v.document := by
  simp (disch := decide) [toJson, document, render_object, separated, out, uint32ToJson]

/-- **The text of a report is its document.** -/
theorem SynapseSessionReport.toJson_eq_render {r : SynapseSessionReport} (hr : r.IsFinite) :
    r.toJson print = render (.object (r.members print)) := by
  simp (disch := decide) [toJson, members, render_object, separated, out, uint32ToJson,
    uint64ToJson, stringToJson, r.itsPredictor.toJson_eq_render hprint,
    r.itsCache.toJson_eq_render hprint, r.bestHorizon.toJson_eq_render hprint,
    horizonsToJson_eq_render hprint, MLTrainingStats.toJson_eq_render hprint hr.mlModel,
    DVFSStats.toJson_eq_render hprint hr.dvfs, JITStats.toJson_eq_render hprint hr.jit,
    r.hai.toJson_eq_render hprint, r.thermal.toJson_eq_render,
    PowerReport.toJson_eq_render hprint hr.power, r.backendRouting.toJson_eq_render,
    render_string]

end rendered

/-! ## What a report says -/

/-- A step of a path, by a name of the writer. -/
def key (name : String) : Step := .key (ascii name)

/-- The integers of a section as integers of what contains it. -/
def inside (name : String) (integers : List (List Step × ℕ)) : List (List Step × ℕ) :=
  integers.map fun entry => (key name :: entry.1, entry.2)

/-- Where the counters of a horizon stand in its document. -/
def HorizonStats.integers (v : HorizonStats) : List (List Step × ℕ) := [
  ([key "window"], v.window.toNat),
  ([key "stalls_avoided"], v.stallsAvoided.toNat),
  ([key "false_positives"], v.falsePositives.toNat)]

/-- The counters of the predictor and their places. -/
def PredictionStats.integers (v : PredictionStats) : List (List Step × ℕ) := [
  ([key "total_predictions"], v.totalPredictions.toNat),
  ([key "accurate_predictions"], v.accuratePredictions.toNat),
  ([key "wasted_predictions"], v.wastedPredictions.toNat)]

/-- The counters of the cache and their places. -/
def CacheMetrics.integers (v : CacheMetrics) : List (List Step × ℕ) := [
  ([key "hits"], v.hits.toNat),
  ([key "misses"], v.misses.toNat),
  ([key "sync_stalls"], v.syncStalls.toNat),
  ([key "current_usage_bytes"], v.currentUsageBytes.toNat)]

/-- The counters of the learning; three of them are the elements of an array. -/
def MLTrainingStats.integers (v : MLTrainingStats Binary64 Numerals.Binary32) :
    List (List Step × ℕ) := [
  ([key "total_updates"], v.totalUpdates.toNat),
  ([key "selection_counts", .index 0], (v.selectionCounts .JIT).toNat),
  ([key "selection_counts", .index 1], (v.selectionCounts .HAI).toNat),
  ([key "selection_counts", .index 2], (v.selectionCounts .Oracle).toNat)]

/-- The counters of the power states and their places. -/
def DVFSStats.integers (v : DVFSStats) : List (List Step × ℕ) := [
  ([key "total_transitions"], v.totalTransitions.toNat),
  ([key "emergency_overrides"], v.emergencyOverrides.toNat),
  ([key "hysteresis_drops"], v.hysteresisDrops.toNat)]

/-- The counters of the compiler and their places. -/
def JITStats.integers (v : JITStats) : List (List Step × ℕ) := [
  ([key "cold_cache_fallbacks"], v.coldCacheFallbacks.toNat),
  ([key "cache_hits"], v.cacheHits.toNat)]

/-- The counters of the stream and their places. -/
def HAIStats.integers (v : HAIStats) : List (List Step × ℕ) := [
  ([key "full_draws_emitted"], v.fullDrawsEmitted.toNat),
  ([key "delta_draws_emitted"], v.deltaDrawsEmitted.toNat),
  ([key "raw_bytes_equivalent"], v.rawBytesEquivalent.toNat),
  ([key "actual_bytes_emitted"], v.actualBytesEmitted.toNat)]

/-- The thermal counters and their places. -/
def ThermalStats.integers (v : ThermalStats) : List (List Step × ℕ) := [
  ([key "thermal_mitigation_events"], v.thermalMitigationEvents.toNat),
  ([key "stability_overrides"], v.stabilityOverrides.toNat),
  ([key "proactive_boosts"], v.proactiveBoosts.toNat)]

/-- The counters of the routes and their places. -/
def BackendRoutingSummary.integers (v : BackendRoutingSummary) : List (List Step × ℕ) := [
  ([key "jit_dispatches"], v.jitDispatches.toNat),
  ([key "hai_dispatches"], v.haiDispatches.toNat),
  ([key "oracle_dispatches"], v.oracleDispatches.toNat),
  ([key "total_draw_calls"], v.totalDrawCalls.toNat)]

/-- Every integer of a report outside `horizon_windows`, under the path that leads to it. -/
def SynapseSessionReport.integers (r : SynapseSessionReport) : List (List Step × ℕ) :=
  ([key "temporal_window_frames"], r.temporalWindowFrames.toNat) ::
  ([key "total_frames_analyzed"], r.totalFramesAnalyzed.toNat) ::
  (inside "its_predictor" r.itsPredictor.integers ++
    (inside "its_cache" r.itsCache.integers ++
    (inside "best_horizon" r.bestHorizon.integers ++
    (inside "ml_model" r.mlModel.integers ++
    (inside "dvfs" r.dvfs.integers ++
    (inside "jit" r.jit.integers ++
    (inside "hai" r.hai.integers ++
    (inside "thermal" r.thermal.integers ++
    inside "backend_routing" r.backendRouting.integers))))))))

/-- The value says what the report says. -/
structure Faithful (value : Value) (r : SynapseSessionReport) : Prop where
  integers : value.Reads r.integers
  schemaVersion : value.at? [key "schema_version"] = some (.string (ascii "v2.0.0"))
  heuristic : value.at? [key "heuristic"] = some (.string r.heuristic)
  trainingStatus :
    value.at? [key "ml_model", key "training_status"] = some (.string r.mlModel.trainingStatus)
  horizonWindows : ∃ values, value.at? [key "horizon_windows"] = some (.array values) ∧
    List.Forall₂ (fun value v => value.Reads v.integers) values r.horizonWindows

section reads

open Value

variable (print : Binary64 → Text)

/-- Each counter of a horizon is found where it should stand. -/
theorem HorizonStats.reads_document (v : HorizonStats) :
    (v.document print).Reads v.integers := by
  simp only [integers, reads_cons]
  exact ⟨natural_ofNat _, natural_ofNat _, natural_ofNat _, reads_nil⟩

theorem PredictionStats.reads_document (v : PredictionStats) :
    (v.document print).Reads v.integers := by
  simp only [integers, reads_cons]
  exact ⟨natural_ofNat _, natural_ofNat _, natural_ofNat _, reads_nil⟩

theorem CacheMetrics.reads_document (v : CacheMetrics) :
    (v.document print).Reads v.integers := by
  simp only [integers, reads_cons]
  exact ⟨natural_ofNat _, natural_ofNat _, natural_ofNat _, natural_ofNat _, reads_nil⟩

/-- The counters in the array are found by their index. -/
theorem MLTrainingStats.reads_document (v : MLTrainingStats Binary64 Numerals.Binary32) :
    (v.document print).Reads v.integers := by
  simp only [integers, reads_cons]
  exact ⟨natural_ofNat _, natural_ofNat _, natural_ofNat _, natural_ofNat _, reads_nil⟩

theorem DVFSStats.reads_document (v : DVFSStats) : (v.document print).Reads v.integers := by
  simp only [integers, reads_cons]
  exact ⟨natural_ofNat _, natural_ofNat _, natural_ofNat _, reads_nil⟩

theorem JITStats.reads_document (v : JITStats) : (v.document print).Reads v.integers := by
  simp only [integers, reads_cons]
  exact ⟨natural_ofNat _, natural_ofNat _, reads_nil⟩

theorem HAIStats.reads_document (v : HAIStats) : (v.document print).Reads v.integers := by
  simp only [integers, reads_cons]
  exact ⟨natural_ofNat _, natural_ofNat _, natural_ofNat _, natural_ofNat _, reads_nil⟩

theorem ThermalStats.reads_document (v : ThermalStats) : v.document.Reads v.integers := by
  simp only [integers, reads_cons]
  exact ⟨natural_ofNat _, natural_ofNat _, natural_ofNat _, reads_nil⟩

theorem BackendRoutingSummary.reads_document (v : BackendRoutingSummary) :
    v.document.Reads v.integers := by
  simp only [integers, reads_cons]
  exact ⟨natural_ofNat _, natural_ofNat _, natural_ofNat _, natural_ofNat _, reads_nil⟩

/-- The counters of the report, through the member that holds each of the records. -/
theorem SynapseSessionReport.reads_members (r : SynapseSessionReport) :
    (object (r.members print)).Reads r.integers := by
  simp only [integers, reads_cons, reads_append]
  refine ⟨natural_ofNat _, natural_ofNat _, ?_⟩
  exact ⟨(r.itsPredictor.reads_document print).inside rfl,
    (r.itsCache.reads_document print).inside rfl,
    (r.bestHorizon.reads_document print).inside rfl,
    (r.mlModel.reads_document print).inside rfl,
    (r.dvfs.reads_document print).inside rfl,
    (r.jit.reads_document print).inside rfl,
    (r.hai.reads_document print).inside rfl,
    r.thermal.reads_document.inside rfl,
    r.backendRouting.reads_document.inside rfl⟩

/-- **The document says what the report says.** -/
theorem SynapseSessionReport.faithful_members (r : SynapseSessionReport) :
    Faithful (object (r.members print)) r where
  integers := r.reads_members print
  schemaVersion := rfl
  heuristic := rfl
  trainingStatus := rfl
  horizonWindows := by
    refine ⟨r.horizonWindows.map (HorizonStats.document print), rfl, ?_⟩
    rw [List.forall₂_map_left_iff]
    exact List.forall₂_same.mpr fun v _ => v.reads_document print

end reads

/-- **A written report is one JSON object that says what the report says**, whatever the
bytes of its texts, if doubles that are finite are printed as numerals. -/
theorem writeSessionReport_faithful {print : Binary64 → Text}
    (hprint : ∀ x : Binary64, x.isFinite = true → isNumeral (print x) = true)
    {r : SynapseSessionReport} (hr : r.IsFinite) (file : Option Text) :
    ∃ text members, writeSessionReport print true r file = (true, some text) ∧
      parse text = some (.object members) ∧ Faithful (.object members) r := by
  refine ⟨r.toJson print, r.members print, rfl, ?_, r.faithful_members print⟩
  rw [r.toJson_eq_render hprint hr]
  exact parse_render _

/-- Quotes, a control byte and a byte that is not ASCII, and one horizon. -/
def escapedReport : SynapseSessionReport where
  heuristic := [0x22, 0x01, 0xff, 0x5c]
  horizonWindows := [{ window := 4, stallsAvoided := 7 }]
  mlModel :=
    { totalUpdates := 18446744073709551615, cumulativeReward := .zero
      selectionCounts := fun _ => 3, currentEpsilon := .zero, currentAlpha := .one
      trainingStatus := ascii "cold\n" }

/-- How zero and one are printed. -/
def printBit (x : Binary64) : Text := if x = .one then ascii "1" else ascii "0"

/-- A heuristic with a quote, a backslash and a control character in its name. -/
theorem writeSessionReport_faithful_escaped :
    escapedReport.IsFinite ∧ ∃ text members,
      writeSessionReport printBit true escapedReport none = (true, some text) ∧
        parse text = some (.object members) ∧ Faithful (.object members) escapedReport := by
  have hfinite : escapedReport.IsFinite :=
    ⟨⟨by decide, by decide, by decide +kernel⟩, by decide, ⟨by decide, by decide⟩,
      ⟨by decide, by decide, by decide⟩⟩
  have hprint : ∀ x : Binary64, x.isFinite = true → isNumeral (printBit x) = true := by
    intro x _
    unfold printBit
    split_ifs <;> decide
  exact ⟨hfinite, writeSessionReport_faithful hprint hfinite none⟩

end Synapse.Telemetry
