import Synapse.Core.SynapseCore
import Synapse.Foundations.Runs
import Synapse.Umd.Analyzer

/-!
# `SynapseUMDHook`

The two hooks of `synapse_umd.h`, called one after the other by a recording thread,
with the analyzer's thread at work in between their steps.  A step of the recording
thread is what lies between two accesses to what the threads share: a push into the
ring, or a load of the recommendation.

Draws are batched for the analyzer and all go to the driver.  A dispatch goes to the
driver if the recommendation is the oracle when its backend is decided, and else to
`submit_to_synaptic_engine`, which drops it.

### Tallies

Nothing in the source counts what has become of a call, so the state has receipts: the calls
made, those that the driver has got, and those that the engine has.  The samples in the ring
stand for calls as well, a batch of draws for as many as it counts (`batchOf`), and `Tallied`
says that the samples offered and the batch under way account for the calls.  A batch is
flushed as soon as it counts more than a hundred draws, so its counters do not wrap.

The analyzer's thread is `Umd.Analyzer`, with its own phases.  The recommendation that a
dispatch loads is that of the last sample that the analyzer has finished with.
-/

namespace Synapse.Umd

open Runs

/-! ## Calls -/

/-- The arguments of `vkCmdDrawIndexed`. -/
structure DrawIndexed where
  commandBuffer : VkCommandBuffer
  indexCount : UInt32
  instanceCount : UInt32
  firstIndex : UInt32
  vertexOffset : Int32
  firstInstance : UInt32
  deriving DecidableEq

/-- The arguments of `vkCmdDispatch`. -/
structure Dispatch where
  commandBuffer : VkCommandBuffer
  groupCountX : UInt32
  groupCountY : UInt32
  groupCountZ : UInt32
  deriving DecidableEq

/-- A call of one of the hooks.  A dispatch comes with what happens to be in the members
of `sample` that the hook does not set. -/
inductive HookCall where
  | draw (d : DrawIndexed)
  | dispatch (d : Dispatch) (unset : WorkloadSignature)
  deriving DecidableEq

namespace HookCall

/-- The calls of the first hook. -/
def isDraw : HookCall → Bool
  | draw _ => true
  | dispatch _ _ => false

/-- The indices a call draws. -/
def indexCount : HookCall → UInt32
  | draw d => d.indexCount
  | dispatch _ _ => 0

end HookCall

/-- The sample of a dispatch. -/
def dispatchSample (unset : WorkloadSignature) : WorkloadSignature :=
  { unset with isComputeDispatch := true, drawCallCount := 1, shaderInstructionEstimate := 500 }

/-- How far the recording thread has come with its call. -/
inductive Stage where
  | idle
  /-- `flush_batch` is about to push the batch. -/
  | flushing (call : HookCall)
  /-- The batch is pushed, and its backend still to be decided. -/
  | flushed (call : HookCall)
  /-- The rest of the hook. -/
  | entered (call : HookCall)
  /-- The sample of a dispatch is pushed. -/
  | sampled (d : Dispatch) (unset : WorkloadSignature)
  deriving DecidableEq

/-- The call under way. -/
def Stage.call : Stage → Option HookCall
  | idle => none
  | flushing call => some call
  | flushed call => some call
  | entered call => some call
  | sampled d unset => some (.dispatch d unset)

/-- What the driver and the engine have received, and the calls that have returned. -/
structure Receipts where
  driver : List HookCall
  engine : List (HookCall × ExecutionBackend)
  completed : List HookCall

/-- `SynapseUMDHook`, with the receipts. -/
structure SynapseUMDHook where
  analyzer : Analyzer
  scheduler : Scheduler
  accumulatedSignature : WorkloadSignature
  stage : Stage
  receipts : Receipts

namespace Receipts

/-- No call has been made. -/
def empty : Receipts := ⟨[], [], []⟩

/-- A call reaches the driver and returns. -/
def toDriver (r : Receipts) (call : HookCall) : Receipts :=
  { r with driver := r.driver ++ [call], completed := r.completed ++ [call] }

/-- A call is submitted to the engine and returns. -/
def toEngine (r : Receipts) (call : HookCall) (backend : ExecutionBackend) : Receipts :=
  { r with engine := r.engine ++ [(call, backend)], completed := r.completed ++ [call] }

end Receipts

namespace SynapseUMDHook

/-- The hook before any call. -/
def create : SynapseUMDHook where
  analyzer := Analyzer.create
  scheduler := {}
  accumulatedSignature := {}
  stage := .idle
  receipts := .empty

/-- A call begins or goes on; the analyzer pops a sample or finishes with it. -/
inductive Action where
  | call (call : HookCall)
  | advance
  | pop
  | updateModel

/-- `estimate_shader_complexity`. -/
def estimateShaderComplexity : UInt32 := 100

/-- The batch with one more draw. -/
def accumulate (d : DrawIndexed) (batch : WorkloadSignature) : WorkloadSignature :=
  { batch with
    drawCallCount := batch.drawCallCount + 1
    vertexCount := batch.vertexCount + d.indexCount
    shaderInstructionEstimate := batch.shaderInstructionEstimate + estimateShaderComplexity }

/-- The start of a hook, up to `flush_batch` or past it if there is nothing to flush. -/
def enter (s : SynapseUMDHook) : HookCall → SynapseUMDHook
  | .draw d =>
      let batch := accumulate d s.accumulatedSignature
      { s with
        accumulatedSignature := batch
        stage := if batch.drawCallCount > 100 then .flushing (.draw d) else .entered (.draw d) }
  | .dispatch d unset =>
      { s with
        stage := if s.accumulatedSignature.drawCallCount = 0 then .entered (.dispatch d unset)
          else .flushing (.dispatch d unset) }

/-- The dispatch with its backend. -/
def deliver (s : SynapseUMDHook) (d : Dispatch) (unset : WorkloadSignature)
    (decided : ExecutionBackend × Scheduler) : SynapseUMDHook :=
  { s with
    scheduler := decided.2
    stage := .idle
    receipts := if decided.1 = .Oracle then s.receipts.toDriver (.dispatch d unset)
      else s.receipts.toEngine (.dispatch d unset) decided.1 }

/-- The next step of the recording thread. -/
def advance (s : SynapseUMDHook) : Option SynapseUMDHook :=
  match s.stage with
  | .idle => none
  | .flushing call => some { s with
      analyzer := s.analyzer.push s.accumulatedSignature
      stage := .flushed call }
  | .flushed call => some { s with
      scheduler := (s.scheduler.decideBackend s.analyzer.inferredBackend
        s.accumulatedSignature).2
      accumulatedSignature := {}
      stage := .entered call }
  | .entered (.draw d) => some { s with
      stage := .idle
      receipts := s.receipts.toDriver (.draw d) }
  | .entered (.dispatch d unset) => some { s with
      analyzer := s.analyzer.push (dispatchSample unset)
      stage := .sampled d unset }
  | .sampled d unset => some <| s.deliver d unset <|
      s.scheduler.decideBackend s.analyzer.inferredBackend (dispatchSample unset)

/-- One step.  The recording thread is in one call at a time. -/
def step (s : SynapseUMDHook) : Action → Option SynapseUMDHook
  | .call call => if s.stage = .idle then some (s.enter call) else none
  | .advance => s.advance
  | .pop => s.analyzer.pop.map fun analyzer => { s with analyzer := analyzer }
  | .updateModel => s.analyzer.updateModel.map fun analyzer => { s with analyzer := analyzer }

/-! ## Samples -/

/-- The signature of `n` draws. -/
def batchOf (n : ℕ) (vertexCount : UInt32) : WorkloadSignature :=
  { drawCallCount := UInt32.ofNat n
    vertexCount := vertexCount
    shaderInstructionEstimate := UInt32.ofNat (100 * n) }

/-- A dispatch, or a batch of more than ten draws. -/
def IsHeavy (sample : WorkloadSignature) : Prop :=
  sample.isComputeDispatch = true ∨ 10 < sample.drawCallCount

instance (sample : WorkloadSignature) : Decidable (IsHeavy sample) := by
  unfold IsHeavy
  infer_instance

/-- What the hook pushes. -/
def IsPushed (sample : WorkloadSignature) : Prop :=
  (∃ unset, sample = dispatchSample unset) ∨
    ∃ n vertexCount, 1 ≤ n ∧ n ≤ 101 ∧ sample = batchOf n vertexCount

/-- One draw more in the batch. -/
theorem accumulate_batchOf (d : DrawIndexed) (n : ℕ) (vertexCount : UInt32) :
    accumulate d (batchOf n vertexCount) = batchOf (n + 1) (vertexCount + d.indexCount) := by
  simp only [accumulate, batchOf, estimateShaderComplexity, WorkloadSignature.mk.injEq,
    UInt32.ofNat_add, mul_add, mul_one, and_true, true_and]
  exact ⟨rfl, rfl⟩

/-- A batch counts its draws. -/
theorem toNat_drawCallCount {n : ℕ} (hn : n ≤ 101) (vertexCount : UInt32) :
    (batchOf n vertexCount).drawCallCount.toNat = n :=
  Nat.mod_eq_of_lt (hn.trans_lt (by decide))

/-- And estimates a hundred instructions for each. -/
theorem toNat_estimate {n : ℕ} (hn : n ≤ 101) (vertexCount : UInt32) :
    (batchOf n vertexCount).shaderInstructionEstimate.toNat = 100 * n :=
  Nat.mod_eq_of_lt ((Nat.mul_le_mul_left 100 hn).trans_lt (by decide))

/-- The estimate grows with the batch, so a batch that is large enough for HAI is too
heavy for it. -/
theorem infer_of_isPushed {sample : WorkloadSignature} (h : IsPushed sample) :
    Analyzer.infer sample = if IsHeavy sample then .JIT else .Oracle := by
  obtain ⟨unset, rfl⟩ | ⟨n, vertexCount, hpos, hn, rfl⟩ := h
  · simp [Analyzer.infer, IsHeavy, dispatchSample]
  · have hcount := toNat_drawCallCount hn vertexCount
    have hestimate := toNat_estimate hn vertexCount
    have hheavy : IsHeavy (batchOf n vertexCount) ↔ 10 < n := by
      unfold IsHeavy
      rw [UInt32.lt_iff_toNat_lt, hcount]
      simp [batchOf]
    have hlarge : (batchOf n vertexCount).shaderInstructionEstimate > 1000 ↔ 10 < n := by
      rw [gt_iff_lt, UInt32.lt_iff_toNat_lt, hestimate]
      simp only [UInt32.reduceToNat]
      omega
    have hmany : (batchOf n vertexCount).drawCallCount > 100 → 10 < n := by
      rw [gt_iff_lt, UInt32.lt_iff_toNat_lt, hcount]
      simp only [UInt32.reduceToNat]
      omega
    by_cases hten : 10 < n
    · rw [if_pos (hheavy.mpr hten), Analyzer.infer, if_pos (by simp [hlarge.mpr hten])]
    · have hfew : ¬ (batchOf n vertexCount).drawCallCount > 100 := fun h => hten (hmany h)
      rw [if_neg (mt hheavy.mp hten), Analyzer.infer, if_neg, if_neg]
      · simp [hfew]
      · simp only [mt hlarge.mp hten, decide_false, Bool.false_or]
        exact Bool.false_ne_true

/-- Of every sample the failsafe of the scheduler lets the recommendation stand. -/
theorem estimate_of_isPushed {sample : WorkloadSignature} (h : IsPushed sample) :
    50 ≤ sample.shaderInstructionEstimate := by
  obtain ⟨unset, rfl⟩ | ⟨n, vertexCount, hpos, hn, rfl⟩ := h
  · show (50 : UInt32) ≤ 500
    decide
  · rw [UInt32.le_iff_toNat_le, toNat_estimate hn]
    simp only [UInt32.reduceToNat]
    omega

/-! ## What holds between the steps -/

/-- The draws and the vertices a sample speaks of. -/
def tally (sample : WorkloadSignature) : ℕ × UInt32 :=
  if sample.isComputeDispatch then (0, 0) else (sample.drawCallCount.toNat, sample.vertexCount)

/-- The draws and the indices of a call. -/
def tallyCall (call : HookCall) : ℕ × UInt32 := (if call.isDraw then 1 else 0, call.indexCount)

/-- The batch, while it is still to be pushed. -/
def pending (s : SynapseUMDHook) : WorkloadSignature :=
  match s.stage with
  | .flushed _ => {}
  | _ => s.accumulatedSignature

/-- The calls of the application. -/
def issued (s : SynapseUMDHook) : List HookCall := s.receipts.completed ++ s.stage.call.toList

/-- How large the batch can be. -/
def Fits (n : ℕ) : Stage → Prop
  | .flushing _ | .flushed _ => 1 ≤ n ∧ n ≤ 101
  | _ => n ≤ 100

/-- Each call that has returned went to the driver or, as a dispatch that was decided for
JIT, to the engine, in the order of the calls. -/
structure Delivered (r : Receipts) : Prop where
  perm : (r.driver ++ r.engine.map Prod.fst).Perm r.completed
  driver : r.driver.Sublist r.completed
  engine : (r.engine.map Prod.fst).Sublist r.completed
  dropped : ∀ e ∈ r.engine, e.1.isDraw = false ∧ e.2 = .JIT

open scoped UInt32.CommRing

/-- The draws of the calls are those of the samples, taken or refused by the ring, and of
the batch. -/
def Tallied (s : SynapseUMDHook) : Prop :=
  ((s.analyzer.telemetry.offered.map Prod.fst).map tally).sum + tally s.pending =
    (s.issued.map tallyCall).sum

/-- The sample analysed last is heavy. -/
def LastHeavy (s : SynapseUMDHook) : Prop :=
  ∃ sample ∈ s.analyzer.telemetry.done.getLast?, IsHeavy sample

/-- What every run keeps. -/
structure Consistent (s : SynapseUMDHook) : Prop where
  settled : s.analyzer.Settled
  mode : s.scheduler.oracleModeActive = false
  pushed : ∀ sample ∈ s.analyzer.telemetry.offered.map Prod.fst, IsPushed sample
  batch : ∃ n vertexCount, s.accumulatedSignature = batchOf n vertexCount ∧ Fits n s.stage
  tallied : s.Tallied
  delivered : Delivered s.receipts

/-- What a batch stands for. -/
theorem tally_batchOf {n : ℕ} (hn : n ≤ 101) (vertexCount : UInt32) :
    tally (batchOf n vertexCount) = (n, vertexCount) :=
  Prod.ext (toNat_drawCallCount hn vertexCount) rfl

/-- It holds at the start. -/
theorem consistent_create : create.Consistent where
  settled := Analyzer.settled_create
  mode := rfl
  pushed := nofun
  batch := ⟨0, 0, rfl, Nat.zero_le _⟩
  tallied := rfl
  delivered := ⟨.nil, .slnil, .slnil, nofun⟩

variable {s s' : SynapseUMDHook}

/-- The recommendation in terms of the last sample. -/
theorem Consistent.inferred (h : s.Consistent) :
    (s.LastHeavy → s.analyzer.inferredBackend = .JIT) ∧
      (¬ s.LastHeavy → s.analyzer.inferredBackend = .Oracle) := by
  unfold LastHeavy
  rw [h.settled.inferredBackend]
  cases hlast : s.analyzer.telemetry.done.getLast? with
  | none => simp
  | some sample =>
      have hmem : sample ∈ s.analyzer.telemetry.offered.map Prod.fst :=
        h.settled.conserved.mem_offered (List.mem_append_left _ (List.mem_of_getLast? hlast))
      simp [infer_of_isPushed (h.pushed sample hmem)]

/-- Another state of the analyzer, with no new sample. -/
theorem Consistent.withAnalyzer (h : s.Consistent) {analyzer : Analyzer}
    (hsettled : analyzer.Settled)
    (hoffered : analyzer.telemetry.offered = s.analyzer.telemetry.offered) :
    Consistent { s with analyzer := analyzer } where
  settled := hsettled
  mode := h.mode
  pushed := by
    rw [hoffered]
    exact h.pushed
  batch := h.batch
  tallied := by
    unfold Tallied
    rw [hoffered]
    exact h.tallied
  delivered := h.delivered

/-! ## Steps of the recording thread -/

/-- One call more for the driver. -/
theorem Delivered.toDriver {r : Receipts} (h : Delivered r) (call : HookCall) :
    Delivered (r.toDriver call) where
  perm := by
    refine List.Perm.trans ?_ (h.perm.append_right [call])
    show ((r.driver ++ [call]) ++ r.engine.map Prod.fst).Perm
      ((r.driver ++ r.engine.map Prod.fst) ++ [call])
    rw [List.append_assoc, List.append_assoc]
    exact List.perm_append_comm.append_left r.driver
  driver := h.driver.append_right [call]
  engine := h.engine.trans (List.sublist_append_left _ _)
  dropped := h.dropped

/-- One dispatch more for the engine. -/
theorem Delivered.toEngine {r : Receipts} (h : Delivered r) (d : Dispatch)
    (unset : WorkloadSignature) : Delivered (r.toEngine (.dispatch d unset) .JIT) where
  perm := by
    show (r.driver ++ (r.engine ++ [_]).map Prod.fst).Perm (r.completed ++ [_])
    rw [List.map_append, ← List.append_assoc]
    exact h.perm.append_right _
  driver := h.driver.trans (List.sublist_append_left _ _)
  engine := by
    show ((r.engine ++ [_]).map Prod.fst).Sublist (r.completed ++ [_])
    rw [List.map_append]
    exact h.engine.append_right _
  dropped e he := by
    rcases List.mem_append.mp he with hold | hnew
    · exact h.dropped e hold
    · obtain rfl := List.mem_singleton.mp hnew
      exact ⟨rfl, rfl⟩

/-- A call is entered, and the batch may have grown by it. -/
theorem Consistent.entering (h : s.Consistent) (hidle : s.stage = .idle) (call : HookCall)
    (stage : Stage) (hstage : stage = .flushing call ∨ stage = .entered call)
    {batch : WorkloadSignature} {n : ℕ} {vertexCount : UInt32}
    (hbatch : batch = batchOf n vertexCount) (hfits : Fits n stage)
    (htally : tally batch = tally s.accumulatedSignature + tallyCall call) :
    Consistent { s with accumulatedSignature := batch, stage := stage } where
  settled := h.settled
  mode := h.mode
  pushed := h.pushed
  batch := ⟨n, vertexCount, hbatch, hfits⟩
  tallied := by
    have htallied := h.tallied
    simp only [Tallied, pending, issued, hidle, Stage.call, Option.toList_none, List.append_nil]
      at htallied
    have htotal : ((s.analyzer.telemetry.offered.map Prod.fst).map tally).sum + tally batch =
        ((s.receipts.completed ++ [call]).map tallyCall).sum := by
      rw [List.map_append, List.sum_append, ← htallied, htally, add_assoc, List.map_singleton,
        List.sum_singleton]
    rcases hstage with rfl | rfl <;> exact htotal
  delivered := h.delivered

/-- A call that begins. -/
theorem Consistent.enter (h : s.Consistent) (hidle : s.stage = .idle) (call : HookCall) :
    (s.enter call).Consistent := by
  obtain ⟨n, vertexCount, hbatch, hfits⟩ := h.batch
  rw [hidle] at hfits
  have hn : n ≤ 100 := hfits
  cases call with
  | draw d =>
      have hgrown := accumulate_batchOf d n vertexCount
      rw [← hbatch] at hgrown
      have hcount : (accumulate d s.accumulatedSignature).drawCallCount > 100 ↔ n = 100 := by
        rw [hgrown, gt_iff_lt, UInt32.lt_iff_toNat_lt, toNat_drawCallCount (by omega)]
        simp only [UInt32.reduceToNat]
        omega
      have htally : tally (accumulate d s.accumulatedSignature) =
          tally s.accumulatedSignature + tallyCall (.draw d) := by
        rw [hgrown, hbatch, tally_batchOf (by omega), tally_batchOf (by omega)]
        rfl
      by_cases hfull : (accumulate d s.accumulatedSignature).drawCallCount > 100
      · have hentered := h.entering hidle (.draw d) (.flushing (.draw d)) (Or.inl rfl) hgrown
          ⟨by omega, by omega⟩ htally
        rw [SynapseUMDHook.enter, if_pos hfull]
        exact hentered
      · have hroom : n + 1 ≤ 100 := by
          have := mt hcount.mpr hfull
          omega
        have hentered := h.entering hidle (.draw d) (.entered (.draw d)) (Or.inr rfl) hgrown hroom
          htally
        rw [SynapseUMDHook.enter, if_neg hfull]
        exact hentered
  | dispatch d unset =>
      have htally : tally s.accumulatedSignature =
          tally s.accumulatedSignature + tallyCall (.dispatch d unset) := (add_zero _).symm
      by_cases hempty : s.accumulatedSignature.drawCallCount = 0
      · have hentered := h.entering hidle (.dispatch d unset) (.entered (.dispatch d unset))
          (Or.inr rfl) hbatch hn htally
        rw [SynapseUMDHook.enter, if_pos hempty]
        exact hentered
      · have hpos : n ≠ 0 := by
          rintro rfl
          exact hempty (by rw [hbatch]; rfl)
        have hentered := h.entering hidle (.dispatch d unset) (.flushing (.dispatch d unset))
          (Or.inl rfl) hbatch ⟨by omega, by omega⟩ htally
        rw [SynapseUMDHook.enter, if_neg hempty]
        exact hentered

/-- A sample is pushed, and the recording thread gets on. -/
theorem Consistent.pushing (h : s.Consistent) {sample : WorkloadSignature}
    (hpushed : IsPushed sample) {stage : Stage} (hcall : stage.call = s.stage.call)
    (hfits : ∀ n, Fits n s.stage → Fits n stage)
    (htally : tally sample + tally (pending { s with stage := stage }) = tally s.pending) :
    Consistent { s with analyzer := s.analyzer.push sample, stage := stage } where
  settled := Analyzer.settled_push h.settled sample
  mode := h.mode
  pushed := by
    show ∀ other ∈ (s.analyzer.telemetry.push sample).offered.map Prod.fst, IsPushed other
    rw [FedRing.offered_push]
    intro other hother
    rcases List.mem_append.mp hother with hold | hnew
    · exact h.pushed other hold
    · rw [List.mem_singleton.mp hnew]
      exact hpushed
  batch := by
    obtain ⟨n, vertexCount, hbatch, hn⟩ := h.batch
    exact ⟨n, vertexCount, hbatch, hfits n hn⟩
  tallied := by
    have htallied := h.tallied
    unfold Tallied at htallied ⊢
    show (((s.analyzer.telemetry.push sample).offered.map Prod.fst).map tally).sum +
      tally (pending { s with stage := stage }) =
      ((s.receipts.completed ++ stage.call.toList).map tallyCall).sum
    rw [FedRing.offered_push, List.map_append, List.sum_append, List.map_singleton,
      List.sum_singleton, add_assoc, htally, hcall]
    exact htallied
  delivered := h.delivered

/-- A call returns with another receipt. -/
theorem Consistent.returning (h : s.Consistent) (call : HookCall)
    (hcall : s.stage.call = some call) (hfits : ∀ n, Fits n s.stage → n ≤ 100)
    (hpending : s.pending = s.accumulatedSignature) {receipts : Receipts}
    (hcompleted : receipts.completed = s.receipts.completed ++ [call])
    (hdelivered : Delivered receipts) {scheduler : Scheduler}
    (hmode : scheduler.oracleModeActive = false) :
    Consistent { s with scheduler := scheduler, stage := .idle, receipts := receipts } where
  settled := h.settled
  mode := hmode
  pushed := h.pushed
  batch := by
    obtain ⟨n, vertexCount, hbatch, hn⟩ := h.batch
    exact ⟨n, vertexCount, hbatch, hfits n hn⟩
  tallied := by
    have htallied := h.tallied
    unfold Tallied issued at htallied ⊢
    rw [hpending, hcall] at htallied
    show _ + tally s.accumulatedSignature = ((receipts.completed ++ []).map tallyCall).sum
    rw [List.append_nil, hcompleted]
    exact htallied
  delivered := hdelivered

/-- A batch that is flushed has draws. -/
theorem Consistent.isPushed_batch (h : s.Consistent) {call : HookCall}
    (hstage : s.stage = .flushing call ∨ s.stage = .flushed call) :
    IsPushed s.accumulatedSignature := by
  obtain ⟨n, vertexCount, hbatch, hfits⟩ := h.batch
  rcases hstage with hstage | hstage
  · rw [hstage] at hfits
    exact Or.inr ⟨n, vertexCount, hfits.1, hfits.2, hbatch⟩
  · rw [hstage] at hfits
    exact Or.inr ⟨n, vertexCount, hfits.1, hfits.2, hbatch⟩

/-- A call that goes on: at each push and at each load. -/
theorem Consistent.advance (h : s.Consistent) (hadvance : s.advance = some s') :
    s'.Consistent := by
  unfold SynapseUMDHook.advance at hadvance
  cases hstage : s.stage with
  | idle =>
      rw [hstage] at hadvance
      cases hadvance
  | flushing call =>
      rw [hstage] at hadvance
      obtain rfl := Option.some_injective _ hadvance
      refine h.pushing (h.isPushed_batch (Or.inl hstage)) (by rw [hstage]; rfl) (fun n hn => ?_) ?_
      · rw [hstage] at hn
        exact hn
      · rw [pending, pending, hstage]
        exact add_zero _
  | flushed call =>
      rw [hstage] at hadvance
      obtain rfl := Option.some_injective _ hadvance
      have hdecided := Scheduler.decideBackend_of_estimate
        (estimate_of_isPushed (h.isPushed_batch (Or.inr hstage))) s.analyzer.inferredBackend h.mode
      refine ⟨h.settled, ?_, h.pushed, ⟨0, 0, rfl, Nat.zero_le _⟩, ?_, h.delivered⟩
      · rw [hdecided]
        exact h.mode
      · have htallied := h.tallied
        rw [Tallied, pending, issued, hstage] at htallied
        exact htallied
  | entered call =>
      cases call with
      | draw d =>
          rw [hstage] at hadvance
          obtain rfl := Option.some_injective _ hadvance
          refine h.returning (.draw d) (by rw [hstage]; rfl) (fun n hn => ?_)
            (by rw [pending, hstage]) rfl (h.delivered.toDriver _) h.mode
          rw [hstage] at hn
          exact hn
      | dispatch d unset =>
          rw [hstage] at hadvance
          obtain rfl := Option.some_injective _ hadvance
          refine h.pushing (Or.inl ⟨unset, rfl⟩) (by rw [hstage]; rfl) (fun n hn => ?_) ?_
          · rw [hstage] at hn
            exact hn
          · rw [pending, pending, hstage]
            exact zero_add _
  | sampled d unset =>
      rw [hstage] at hadvance
      obtain rfl := Option.some_injective _ hadvance
      have hdecided := Scheduler.decideBackend_of_estimate
        (estimate_of_isPushed (Or.inl ⟨unset, rfl⟩)) s.analyzer.inferredBackend h.mode
      have hfits : ∀ n, Fits n s.stage → n ≤ 100 := fun n hn => by
        rw [hstage] at hn
        exact hn
      rw [hdecided, deliver]
      by_cases hheavy : s.LastHeavy
      · rw [h.inferred.1 hheavy]
        exact h.returning (.dispatch d unset) (by rw [hstage]; rfl) hfits
          (by rw [pending, hstage]) rfl (h.delivered.toEngine d unset) h.mode
      · rw [h.inferred.2 hheavy]
        exact h.returning (.dispatch d unset) (by rw [hstage]; rfl) hfits
          (by rw [pending, hstage]) rfl (h.delivered.toDriver _) h.mode

/-! ## Runs -/

/-- The step lemma. -/
theorem consistent_step {a : Action} (h : s.Consistent) (hstep : s.step a = some s') :
    s'.Consistent := by
  cases a with
  | call call =>
      rw [step] at hstep
      split at hstep
      · rename_i hidle
        obtain rfl := Option.some_injective _ hstep
        exact h.enter hidle call
      · cases hstep
  | advance => exact h.advance hstep
  | pop =>
      obtain ⟨analyzer, hpop, rfl⟩ := Option.map_eq_some_iff.mp hstep
      refine h.withAnalyzer (Analyzer.settled_pop h.settled hpop) ?_
      obtain ⟨telemetry, htake, rfl⟩ := Option.map_eq_some_iff.mp hpop
      exact FedRing.offered_of_take htake
  | updateModel =>
      obtain ⟨analyzer, hupdate, rfl⟩ := Option.map_eq_some_iff.mp hstep
      refine h.withAnalyzer (Analyzer.settled_updateModel h.settled hupdate) ?_
      obtain ⟨⟨sample, telemetry⟩, hfinish, rfl⟩ := Option.map_eq_some_iff.mp hupdate
      exact FedRing.offered_of_finish hfinish

/-- The run lemma. -/
theorem consistent_of_exec {actions : List Action} (h : exec step create actions = some s) :
    s.Consistent :=
  invariant_of_exec step (fun _ _ _ hs ha => consistent_step hs ha) consistent_create h

/-- **HAI is never chosen**, whatever is drawn and however the threads interleave: the
recommendation is JIT after a heavy sample and the oracle otherwise, and what is dropped
was decided for JIT. -/
theorem hai_never_chosen {actions : List Action} (h : exec step create actions = some s) :
    (s.LastHeavy → s.analyzer.inferredBackend = .JIT) ∧
      (¬ s.LastHeavy → s.analyzer.inferredBackend = .Oracle) ∧
      ∀ e ∈ s.receipts.engine, e.1.isDraw = false ∧ e.2 = .JIT := by
  have hconsistent := consistent_of_exec h
  exact ⟨hconsistent.inferred.1, hconsistent.inferred.2, hconsistent.delivered.dropped⟩

/-- A dispatch whose own sample is analysed before its backend is decided is dropped. -/
theorem hai_never_chosen_dispatch :
    ∃ s, exec step create [.call (.dispatch ⟨1, 8, 8, 1⟩ {}), .advance, .pop, .updateModel,
        .advance] = some s ∧
      s.receipts.engine = [(.dispatch ⟨1, 8, 8, 1⟩ {}, .JIT)] ∧
      (s.LastHeavy → s.analyzer.inferredBackend = .JIT) := by
  obtain ⟨s, hrun, hengine⟩ : ∃ s, exec step create [.call (.dispatch ⟨1, 8, 8, 1⟩ {}),
      .advance, .pop, .updateModel, .advance] = some s ∧
      s.receipts.engine = [(.dispatch ⟨1, 8, 8, 1⟩ {}, .JIT)] :=
    ⟨_, rfl, rfl⟩
  exact ⟨s, hrun, hengine, (hai_never_chosen hrun).1⟩

/-- The draws of the driver are the draws that returned. -/
theorem Delivered.draws {r : Receipts} (h : Delivered r) :
    r.driver.filter HookCall.isDraw = r.completed.filter HookCall.isDraw := by
  have hengine : (r.engine.map Prod.fst).filter HookCall.isDraw = [] := by
    refine List.filter_eq_nil_iff.mpr fun call hcall => ?_
    obtain ⟨e, he, rfl⟩ := List.mem_map.mp hcall
    simp [(h.dropped e he).1]
  have hperm := h.perm.filter HookCall.isDraw
  rw [List.filter_append, hengine, List.append_nil] at hperm
  exact (h.driver.filter HookCall.isDraw).eq_of_length hperm.length_eq

/-- **Every draw is accounted for** between two calls: in a sample that the ring took or
refused, or in the batch, which never holds more than a hundred.  What the ring took has
been analysed, in the order of the flushes, or is in hand or waiting. -/
theorem draws_accounted {actions : List Action} (h : exec step create actions = some s)
    (hidle : s.stage = .idle) :
    (s.analyzer.telemetry.accepted.map tally).sum + (s.analyzer.telemetry.refused.map tally).sum +
        tally s.accumulatedSignature = (s.receipts.completed.map tallyCall).sum ∧
      s.accumulatedSignature.drawCallCount ≤ 100 ∧
      s.analyzer.telemetry.accepted = s.analyzer.telemetry.done ++
        s.analyzer.telemetry.inHand.toList ++ s.analyzer.telemetry.ring.contents := by
  have hconsistent := consistent_of_exec h
  refine ⟨?_, ?_, hconsistent.settled.conserved⟩
  · have htallied := hconsistent.tallied
    simp only [Tallied, pending, issued, hidle, Stage.call, Option.toList_none, List.append_nil]
      at htallied
    rw [← htallied, ← List.sum_append, ← List.map_append]
    exact congrArg (· + tally s.accumulatedSignature)
      (s.analyzer.telemetry.offered_perm.map tally).sum_eq
  · obtain ⟨n, vertexCount, hbatch, hfits⟩ := hconsistent.batch
    rw [hidle] at hfits
    have hn : n ≤ 100 := hfits
    rw [hbatch, UInt32.le_iff_toNat_le, toNat_drawCallCount (by omega)]
    exact hn

/-- Two draws that a dispatch has flushed, with the batch in the analyzer's hand. -/
theorem draws_accounted_flushed :
    ∃ s, exec step create [.call (.draw ⟨1, 36, 1, 0, 0, 0⟩), .advance,
        .call (.draw ⟨1, 6, 1, 0, 0, 0⟩), .advance, .call (.dispatch ⟨1, 8, 8, 1⟩ {}), .advance,
        .pop, .advance, .advance, .advance] = some s ∧
      s.analyzer.telemetry.inHand = some (batchOf 2 42) ∧
      s.analyzer.telemetry.accepted = s.analyzer.telemetry.done ++
        s.analyzer.telemetry.inHand.toList ++ s.analyzer.telemetry.ring.contents := by
  obtain ⟨s, hrun, hidle, hhand⟩ : ∃ s, exec step create [.call (.draw ⟨1, 36, 1, 0, 0, 0⟩),
      .advance, .call (.draw ⟨1, 6, 1, 0, 0, 0⟩), .advance, .call (.dispatch ⟨1, 8, 8, 1⟩ {}),
      .advance, .pop, .advance, .advance, .advance] = some s ∧ s.stage = .idle ∧
      s.analyzer.telemetry.inHand = some (batchOf 2 42) :=
    ⟨_, rfl, rfl, rfl⟩
  exact ⟨s, hrun, hhand, (draws_accounted hrun hidle).2.2⟩

end SynapseUMDHook

end Synapse.Umd
