import Mathlib
import Synapse.Ml.ContextualBandit
import Synapse.Telemetry.TelemetryTypes

/-!
# `FeatureEncoder`

The features of a signature and of a report, in exact arithmetic.  Whatever the counters of the
report are, all features lie between zero and one, and so their squares add up to at most
eight (`sum_sq_encode_le`).
-/

namespace Synapse.Ml

open Telemetry

/-- `std::clamp`. -/
def clamp {R : Type*} [LT R] [DecidableLT R] (v lo hi : R) : R :=
  if v < lo then lo else if hi < v then hi else v

/-- The encoder, with the logarithm that it calls. -/
structure FeatureEncoder (R : Type*) where
  log10 : R → R

namespace FeatureEncoder

variable {R : Type*} [Field R] [LinearOrder R]

/-- `hit_rate` and `accuracy_rate`. -/
def rate (part total : UInt64) : R := if total > 0 then part.toNat / total.toNat else 0

/-- Without a report the features that are read off it are a half. -/
def encode (encoder : FeatureEncoder R) (sig : WorkloadSignature)
    (report : Option SynapseSessionReport) : Features R :=
  ![clamp (sig.shaderInstructionEstimate.toNat / 2000.0) 0 1,
    clamp (encoder.log10 (sig.vertexCount.toNat + 1) / 4.0) 0 1,
    clamp (sig.drawCallCount.toNat / 100.0) 0 1,
    report.elim 0.5 fun report =>
      clamp (rate report.itsCache.hits (report.itsCache.hits + report.itsCache.misses)) 0 1,
    report.elim 0.5 fun report =>
      clamp (1 - report.dvfs.totalTransitions.toNat / 50.0 +
        report.dvfs.emergencyOverrides.toNat * -0.2) 0 1,
    report.elim 0.5 fun report =>
      let mitigation : R := report.thermal.thermalMitigationEvents.toNat
      let proactive : R := report.thermal.proactiveBoosts.toNat
      let penalty := min 1 (mitigation * 0.1)
      let boost := min 0.5 (proactive * 0.02)
      clamp (1 - penalty + boost) 0 1,
    report.elim 0.5 fun report => clamp
      (rate report.itsPredictor.accuratePredictions report.itsPredictor.totalPredictions) 0 1,
    if sig.isComputeDispatch then 1 else 0]

variable [IsStrictOrderedRing R]

/-- A clamped number lies between the bounds. -/
theorem clamp_mem (v : R) : clamp v 0 1 ∈ Set.Icc (0 : R) 1 := by
  unfold clamp
  split
  · exact ⟨le_rfl, zero_le_one⟩
  · split
    · exact ⟨zero_le_one, le_rfl⟩
    · rename_i hlo hhi
      exact ⟨not_lt.mp hlo, not_lt.mp hhi⟩

theorem half_mem : (0.5 : R) ∈ Set.Icc (0 : R) 1 := by
  constructor <;> norm_num

/-- A feature that is read off the report, or a half. -/
theorem elim_mem (report : Option SynapseSessionReport) (feature : SynapseSessionReport → R)
    (hfeature : ∀ report, feature report ∈ Set.Icc (0 : R) 1) :
    report.elim 0.5 feature ∈ Set.Icc (0 : R) 1 := by
  cases report with
  | none => exact half_mem
  | some report => exact hfeature report

/-- **Every feature lies between zero and one.** -/
theorem encode_mem (encoder : FeatureEncoder R) (sig : WorkloadSignature)
    (report : Option SynapseSessionReport) (j : Fin 8) :
    encoder.encode sig report j ∈ Set.Icc (0 : R) 1 := by
  have hflag : (if sig.isComputeDispatch then 1 else 0 : R) ∈ Set.Icc (0 : R) 1 := by
    split
    · exact ⟨zero_le_one, le_rfl⟩
    · exact ⟨le_rfl, zero_le_one⟩
  fin_cases j
  · exact clamp_mem _
  · exact clamp_mem _
  · exact clamp_mem _
  · exact elim_mem report _ fun _ => clamp_mem _
  · exact elim_mem report _ fun _ => clamp_mem _
  · exact elim_mem report _ fun _ => clamp_mem _
  · exact elim_mem report _ fun _ => clamp_mem _
  · exact hflag

/-- The squares add up to eight at most. -/
theorem sum_sq_encode_le (encoder : FeatureEncoder R) (sig : WorkloadSignature)
    (report : Option SynapseSessionReport) : ∑ j, encoder.encode sig report j ^ 2 ≤ 8 := by
  have hone : ∀ j ∈ Finset.univ, encoder.encode sig report j ^ 2 ≤ 1 := by
    intro j _
    obtain ⟨hpos, hle⟩ := encoder.encode_mem sig report j
    exact pow_le_one₀ hpos hle
  refine (Finset.sum_le_card_nsmul _ _ 1 hone).trans ?_
  simp

end FeatureEncoder

end Synapse.Ml
