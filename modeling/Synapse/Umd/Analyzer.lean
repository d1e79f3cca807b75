import Synapse.Core.Workload
import Synapse.Foundations.FedRing

/-!
# `Analyzer` and `Scheduler`

The two classes of `synapse_umd.h` that choose a backend.  A thread of its own takes
signatures out of the telemetry ring and stores a recommendation after each; the
scheduler loads that recommendation for the workload at hand and corrects it.

Which recommendation is stored depends on the last signature that was analysed, and on
nothing else (`Analyzer.Settled`).
-/

namespace Synapse

/-- The recommendation of `update_model` for a signature. -/
def Analyzer.infer (sample : WorkloadSignature) : ExecutionBackend :=
  if sample.shaderInstructionEstimate > 1000 || sample.isComputeDispatch then .JIT
  else if sample.drawCallCount > 100 && sample.shaderInstructionEstimate < 200 then .HAI
  else .Oracle

/-- The telemetry ring with the analyzer's thread at its end, and what the thread
stores. -/
structure Analyzer where
  telemetry : FedRing WorkloadSignature 10
  inferredBackend : ExecutionBackend
  lastSignature : WorkloadSignature

namespace Analyzer

def create : Analyzer where
  telemetry := FedRing.empty 10 {}
  inferredBackend := .Oracle
  lastSignature := {}

/-- `telemetry_.push(sample)`, on the producer's thread. -/
def push (sample : WorkloadSignature) (a : Analyzer) : Analyzer :=
  { a with telemetry := a.telemetry.push sample }

/-- The pop of `process_telemetry_loop`. -/
def pop (a : Analyzer) : Option Analyzer :=
  a.telemetry.take.map fun telemetry => { a with telemetry := telemetry }

/-- `update_model` on the sample that was popped. -/
def updateModel (a : Analyzer) : Option Analyzer :=
  a.telemetry.finish.map fun (sample, telemetry) =>
    { telemetry := telemetry, inferredBackend := infer sample, lastSignature := sample }

/-- What has been analysed decides what is stored, and no accepted signature is lost. -/
structure Settled (a : Analyzer) : Prop where
  conserved : a.telemetry.Conserved
  inferredBackend : a.inferredBackend = (a.telemetry.done.getLast?.map infer).getD .Oracle
  lastSignature : a.lastSignature = a.telemetry.done.getLast?.getD {}

variable {a a' : Analyzer}

theorem settled_create : create.Settled := ⟨FedRing.conserved_empty _, rfl, rfl⟩

theorem settled_push (h : a.Settled) (sample : WorkloadSignature) : (a.push sample).Settled :=
  ⟨FedRing.conserved_push h.conserved sample, h.inferredBackend, h.lastSignature⟩

theorem settled_pop (h : a.Settled) (hpop : a.pop = some a') : a'.Settled := by
  obtain ⟨telemetry, htake, rfl⟩ := Option.map_eq_some_iff.mp hpop
  have hdone : telemetry.done = a.telemetry.done := by
    unfold FedRing.take at htake
    split at htake
    · cases htake
    · obtain rfl := Option.some_injective _ htake
      rfl
  refine ⟨FedRing.conserved_take h.conserved htake, ?_, ?_⟩
  · rw [hdone]
    exact h.inferredBackend
  · rw [hdone]
    exact h.lastSignature

theorem settled_updateModel (h : a.Settled) (hupdate : a.updateModel = some a') :
    a'.Settled := by
  obtain ⟨⟨sample, telemetry⟩, hfinish, rfl⟩ := Option.map_eq_some_iff.mp hupdate
  have hlast : telemetry.done.getLast? = some sample := by
    obtain ⟨y, -, heq⟩ := Option.map_eq_some_iff.mp hfinish
    obtain ⟨rfl, rfl⟩ := Prod.mk.inj heq
    exact List.getLast?_concat
  refine ⟨FedRing.conserved_finish h.conserved hfinish, ?_, ?_⟩
  · rw [hlast]
    rfl
  · rw [hlast]
    rfl

end Analyzer

/-! ## `Scheduler` -/

structure Scheduler where
  oracleModeActive : Bool := false
  deriving DecidableEq

namespace Scheduler

/-- `detect_performance_regression`. -/
def detectPerformanceRegression (_ : Scheduler) : Bool := false

/-- `decide_backend`, with what `current_recommendation()` returns. -/
def decideBackend (recommendation : ExecutionBackend) (currentWorkload : WorkloadSignature)
    (s : Scheduler) : ExecutionBackend × Scheduler :=
  if s.oracleModeActive then (.Oracle, s)
  else
    let recommendation :=
      if recommendation = .JIT && currentWorkload.shaderInstructionEstimate < 50 &&
          currentWorkload.drawCallCount > 500 then .HAI
      else recommendation
    let s := if s.detectPerformanceRegression then { s with oracleModeActive := true } else s
    (recommendation, s)

/-- Without the failsafe the recommendation is the decision. -/
theorem decideBackend_of_estimate {currentWorkload : WorkloadSignature}
    (hestimate : 50 ≤ currentWorkload.shaderInstructionEstimate)
    (recommendation : ExecutionBackend) {s : Scheduler} (hmode : s.oracleModeActive = false) :
    s.decideBackend recommendation currentWorkload = (recommendation, s) := by
  have hlarge : ¬ currentWorkload.shaderInstructionEstimate < 50 := UInt32.not_lt.mpr hestimate
  simp [decideBackend, hmode, hlarge, detectPerformanceRegression]

end Scheduler

end Synapse
