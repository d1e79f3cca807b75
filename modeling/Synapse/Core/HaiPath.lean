import Synapse.Core.Fallback
import Synapse.Foundations.Runs

/-!
# What the HAI hardware receives

`handleWork_submitted` says which batches a work command submits: none, unless it is
routed to HAI, and then one delta instruction with a count.  `capture_current_signature`
leaves the number of pipeline changes at 0, so `write_full_draw` is never reached, and the
count is all that the instruction keeps of the command.

So the first draw that is routed to HAI is a delta without a base
(`delta_has_base_iff`), and commands with the same count are submitted alike
(`losesNoArgument_iff`).

### A delta of nothing

The builder has two functions, one that writes a draw in full and one that writes what has
changed, and which is called depends on the number of pipeline changes in the signature.  The
signature is put together by the core, which never sets that number, so it is 0 for every
command.  The lemmas follow the number from the signature to the builder; that a delta needs
a full draw before it for the same pipeline is said of the sequence of batches.
-/

namespace Synapse

open Atomic Runs

namespace SynapseCore

/-! ## The batches of a command -/

/-- The batch that the HAI path submits for a count. -/
def deltaBatch (vertexCount : UInt32) : List HAIInstruction :=
  [{ opcode := HAIBytecodeBuilder.OP_DELTA_UPDATE
     length := 10
     payload := [HAIBytecodeBuilder.kIndexAndCount, vertexCount, 0, 0, 0, 0, 0, 0] }]

/-- What a command submits on each route. -/
def routeBatches (command : WorkCommand) : Route → List (List HAIInstruction)
  | .hai => [deltaBatch command.vertexCount]
  | .forwarded | .jitHit | .jitMiss => []

variable {core : SynapseCore}

/-- The driver's path writes no instruction. -/
theorem executeOracleDraw_haiBuilder (cmd : VkCommandBuffer)
    (indexCount instanceCount firstIndex : UInt32) (vertexOffset : Int32)
    (firstInstance : UInt32) :
    (core.executeOracleDraw cmd indexCount instanceCount firstIndex vertexOffset
      firstInstance).haiBuilder = core.haiBuilder := by
  unfold executeOracleDraw
  split <;> rfl

/-- Nor does a call of the driver. -/
theorem forwardIf_haiBuilder (pointer : Bool) (call : DriverCall) :
    (core.forwardIf pointer call).haiBuilder = core.haiBuilder := by
  unfold forwardIf
  split <;> rfl

/-- Nor does logging. -/
theorem walLog_haiBuilder (now : UInt64) (type : WALEventType) (data : Option ByteRecords.Bytes)
    (size : UInt32) : (core.walLog now type data size).haiBuilder = core.haiBuilder := by
  obtain ⟨recovery, walOps, hlog⟩ := core.walLog_frame now type data size
  rw [hlog]

/-- Nor does the compiler's path. -/
theorem executeJitPath_haiBuilder (cmd : VkCommandBuffer) (sig : WorkloadSignature) :
    (core.executeJitPath cmd sig).haiBuilder = core.haiBuilder := by
  unfold executeJitPath
  dsimp only
  split
  · rfl
  · exact executeOracleDraw_haiBuilder _ _ _ _ _ _

/-- A signature without pipeline changes is submitted as a delta, whatever is in the
builder. -/
theorem executeHaiPath_delta {sig : WorkloadSignature} (hchanges : sig.pipelineStateChanges = 0)
    (cmd : VkCommandBuffer) : (core.executeHaiPath cmd sig).haiBuilder.submitted =
      core.haiBuilder.submitted ++ [deltaBatch sig.vertexCount] := by
  have hdelta : canDeltaUpdate sig = true := decide_eq_true hchanges
  rw [executeHaiPath, if_pos hdelta]
  rfl

/-- Nor does passing the command on. -/
theorem forwardWork_haiBuilder (command : WorkCommand) :
    (core.forwardWork command).haiBuilder = core.haiBuilder := by
  cases command with
  | drawIndexed => exact executeOracleDraw_haiBuilder _ _ _ _ _ _
  | draw => exact forwardIf_haiBuilder _ _
  | dispatch => exact forwardIf_haiBuilder _ _

/-- The decided branch submits the batch of its route. -/
theorem submitted_choose {core₁ : SynapseCore} {command : WorkCommand} {sig : WorkloadSignature}
    (hsame : core.Undecided core₁) (hcount : sig.vertexCount = command.vertexCount)
    (hchanges : sig.pipelineStateChanges = 0) (jit hai shader : Bool)
    (backend : ExecutionBackend) :
    (core₁.choose jit hai command sig backend).haiBuilder.submitted =
    core.haiBuilder.submitted ++ routeBatches command
      (match backend with
        | .JIT => if jit then (if shader then .jitHit else .jitMiss) else .forwarded
        | .HAI => if hai then .hai else .forwarded
        | .Oracle => .forwarded) := by
  have hnone : (core₁.forwardWork command).haiBuilder.submitted =
      core.haiBuilder.submitted ++ [] := by
    rw [forwardWork_haiBuilder, hsame.submitted, List.append_nil]
  cases backend with
  | JIT =>
      cases jit with
      | false => exact hnone
      | true =>
          have hjit : (core₁.executeJitPath command.cmd sig).haiBuilder.submitted =
              core.haiBuilder.submitted ++ [] := by
            rw [executeJitPath_haiBuilder, hsame.submitted, List.append_nil]
          -- neither a hit nor a miss submits anything
          cases shader <;> exact hjit
  | HAI =>
      cases hai with
      | false => exact hnone
      | true =>
          have hbatch := core₁.executeHaiPath_delta hchanges command.cmd
          rw [hcount, hsame.submitted] at hbatch
          exact hbatch
  | Oracle => exact hnone

/-- So a handled command does. -/
theorem Handled.submitted {core' : SynapseCore} {command : WorkCommand}
    {backend : ExecutionBackend} (h : core.Handled backend command core') :
    core'.haiBuilder.submitted =
      core.haiBuilder.submitted ++ routeBatches command (core.route backend command) := by
  induction h with
  | early hrouted now type =>
      rw [route_of_not_isRouted hrouted, walLog_haiBuilder, forwardIf_haiBuilder]
      exact (List.append_nil _).symm
  | chosen hrouted hsame hhash hcount hchanges =>
      rw [route_of_isRouted hrouted]
      exact submitted_choose hsame hcount hchanges _ _ _ backend
  | observed _ ih => exact ih

/-- **What a work command submits**: one delta with its count if it is routed to HAI, and
nothing otherwise. -/
theorem handleWork_submitted (core : SynapseCore) (now : UInt64) (backend : ExecutionBackend)
    (command : WorkCommand) : (core.handleWork now backend command).haiBuilder.submitted =
      core.haiBuilder.submitted ++ routeBatches command (core.route backend command) :=
  (core.handled_handleWork now backend command).submitted

/-! ## Arguments -/

variable (core) in
/-- Of two commands on one command buffer that are not the same, the hardware receives
different batches. -/
def LosesNoArgument (now now' : UInt64) (backend backend' : ExecutionBackend)
    (command command' : WorkCommand) : Prop :=
  command.cmd = command'.cmd → command ≠ command' → ∀ batches batches',
    (core.handleWork now backend command).haiBuilder.submitted =
      core.haiBuilder.submitted ++ batches →
    (core.handleWork now' backend' command').haiBuilder.submitted =
      core.haiBuilder.submitted ++ batches' → batches ≠ batches'

/-- The batches of commands that are routed to HAI tell their counts apart. -/
theorem batches_ne_iff {now now' : UInt64} {backend backend' : ExecutionBackend}
    {command command' : WorkCommand} (hroute : core.route backend command = .hai)
    (hroute' : core.route backend' command' = .hai) :
    (∀ batches batches',
      (core.handleWork now backend command).haiBuilder.submitted =
        core.haiBuilder.submitted ++ batches →
      (core.handleWork now' backend' command').haiBuilder.submitted =
        core.haiBuilder.submitted ++ batches' → batches ≠ batches') ↔
      command.vertexCount ≠ command'.vertexCount := by
  have hbatches := core.handleWork_submitted now backend command
  have hbatches' := core.handleWork_submitted now' backend' command'
  rw [hroute] at hbatches
  rw [hroute'] at hbatches'
  constructor
  · intro hne hcount
    refine hne _ _ hbatches hbatches' ?_
    rw [routeBatches, routeBatches, hcount]
  · intro hne batches batches' hsubmitted hsubmitted' heq
    rw [hbatches] at hsubmitted
    rw [hbatches', ← heq] at hsubmitted'
    have hsame : [deltaBatch command.vertexCount] = [deltaBatch command'.vertexCount] :=
      (List.append_cancel_left hsubmitted).trans (List.append_cancel_left hsubmitted').symm
    simp only [deltaBatch, List.cons.injEq, HAIInstruction.mk.injEq, and_true, true_and] at hsame
    exact hne hsame

/-- **No argument is lost exactly if the counts differ**: the instance count, the firsts,
the vertex offset, the group counts and the kind of the command are not encoded. -/
theorem losesNoArgument_iff (core : SynapseCore) (now now' : UInt64)
    (backend backend' : ExecutionBackend) (command command' : WorkCommand)
    (hroute : core.route backend command = .hai)
    (hroute' : core.route backend' command' = .hai) :
    core.LosesNoArgument now now' backend backend' command command' ↔
      (command.cmd = command'.cmd → command ≠ command' →
        command.vertexCount ≠ command'.vertexCount) :=
  forall₂_congr fun _ _ => batches_ne_iff hroute hroute'

/-- Indexed draws of 36 and 72 indices. -/
theorem losesNoArgument_counts :
    onFullDriver.LosesNoArgument 0 0 .HAI .HAI (.drawIndexed 1 36 1 0 0 0)
      (.drawIndexed 1 72 1 0 0 0) := by
  have hroute : onFullDriver.route .HAI (.drawIndexed 1 36 1 0 0 0) = .hai := by decide
  have hroute' : onFullDriver.route .HAI (.drawIndexed 1 72 1 0 0 0) = .hai := by decide
  refine (losesNoArgument_iff onFullDriver 0 0 .HAI .HAI _ _ hroute hroute').mpr fun _ _ => ?_
  exact (show (36 : UInt32) ≠ 72 by decide)

/-- One instance and two instances are submitted alike. -/
theorem instanceCount_lost :
    onFullDriver.route .HAI (.drawIndexed 1 36 1 0 0 0) = .hai ∧
      onFullDriver.route .HAI (.drawIndexed 1 36 2 0 0 0) = .hai ∧
      ¬ onFullDriver.LosesNoArgument 0 0 .HAI .HAI (.drawIndexed 1 36 1 0 0 0)
        (.drawIndexed 1 36 2 0 0 0) := by
  have hroute : onFullDriver.route .HAI (.drawIndexed 1 36 1 0 0 0) = .hai := by decide
  have hroute' : onFullDriver.route .HAI (.drawIndexed 1 36 2 0 0 0) = .hai := by decide
  refine ⟨hroute, hroute', fun hloses => ?_⟩
  exact (batches_ne_iff hroute hroute').mp (hloses rfl (by decide)) rfl

end SynapseCore

/-! ## Bases of deltas -/

/-- A core, and what a receiver of the HAI instructions knows: for each command buffer the
shaders of the draws it has received since the command buffer was freed, and whether it
has received one since a pipeline was bound. -/
structure HaiDraws where
  core : SynapseCore
  drawn : VkCommandBuffer → List UInt64
  sinceBind : VkCommandBuffer → Bool

namespace HaiDraws

/-- A pipeline is bound, a buffer freed, or a draw recorded. -/
inductive Action where
  | bindPipeline (cmd : VkCommandBuffer) (pipeline : VkPipeline) (shaderHash : UInt64)
  | freeCmdBuf (cmd : VkCommandBuffer)
  | drawIndexed (now : UInt64) (backend : ExecutionBackend) (cmd : VkCommandBuffer)
      (indexCount instanceCount firstIndex : UInt32) (vertexOffset : Int32)
      (firstInstance : UInt32)
  | draw (now : UInt64) (backend : ExecutionBackend) (cmd : VkCommandBuffer)
      (vertexCount instanceCount firstVertex firstInstance : UInt32)

/-- The draw of an action, with the time and the decided backend. -/
def Action.work : Action → Option (UInt64 × ExecutionBackend × WorkCommand)
  | .drawIndexed now backend cmd indexCount instanceCount firstIndex vertexOffset firstInstance =>
      some (now, backend,
        .drawIndexed cmd indexCount instanceCount firstIndex vertexOffset firstInstance)
  | .draw now backend cmd vertexCount instanceCount firstVertex firstInstance =>
      some (now, backend, .draw cmd vertexCount instanceCount firstVertex firstInstance)
  | .bindPipeline .. | .freeCmdBuf .. => none

/-- No draw so far. -/
def start (core : SynapseCore) : HaiDraws where
  core := core
  drawn _ := []
  sinceBind _ := false

/-- A draw, which is received if it is routed to HAI. -/
def drew (s : HaiDraws) (now : UInt64) (backend : ExecutionBackend) (command : WorkCommand) :
    HaiDraws :=
  let core := s.core.handleWork now backend command
  if s.core.route backend command = .hai then
    { core := core
      drawn := Function.update s.drawn command.cmd
        (s.core.shaderHashFor command :: s.drawn command.cmd)
      sinceBind := Function.update s.sinceBind command.cmd true }
  else { s with core := core }

/-- One action, with what has been drawn since the last binding. -/
def step (s : HaiDraws) : Action → Option HaiDraws
  | .bindPipeline cmd pipeline shaderHash =>
      some { s with
        core := s.core.notifyBindPipeline cmd pipeline shaderHash
        sinceBind := Function.update s.sinceBind cmd false }
  | .freeCmdBuf cmd =>
      some {
        core := s.core.notifyFreeCmdBuf cmd
        drawn := Function.update s.drawn cmd []
        sinceBind := Function.update s.sinceBind cmd false }
  | .drawIndexed now backend cmd indexCount instanceCount firstIndex vertexOffset firstInstance =>
      some (s.drew now backend
        (.drawIndexed cmd indexCount instanceCount firstIndex vertexOffset firstInstance))
  | .draw now backend cmd vertexCount instanceCount firstVertex firstInstance =>
      some (s.drew now backend
        (.draw cmd vertexCount instanceCount firstVertex firstInstance))

/-- A draw that submits a delta has a base: the receiver has a draw with the same shader
on the same command buffer, and it is not the first one of the bound pipeline. -/
def DeltaHasBase (s : HaiDraws) (a : Action) : Prop :=
  ∀ now backend command, a.work = some (now, backend, command) →
    ∀ batch, (s.core.handleWork now backend command).haiBuilder.submitted =
      s.core.haiBuilder.submitted ++ [batch] →
      (∃ instr ∈ batch, instr.opcode = HAIBytecodeBuilder.OP_DELTA_UPDATE) →
        s.core.shaderHashFor command ∈ s.drawn command.cmd ∧ s.sinceBind command.cmd = true

/-- No draw is routed to HAI. -/
def NotHai (s : HaiDraws) (a : Action) : Prop :=
  ∀ now backend command, a.work = some (now, backend, command) →
    s.core.route backend command ≠ .hai

/-- The receiver has nothing. -/
def NoneDrawn (s : HaiDraws) : Prop := ∀ cmd, s.drawn cmd = []

variable {s s' : HaiDraws} {a : Action}

/-- Without an earlier draw no delta has a base, and every draw on HAI is a delta. -/
theorem NoneDrawn.deltaHasBase_iff (h : s.NoneDrawn) (a : Action) :
    s.DeltaHasBase a ↔ s.NotHai a := by
  refine forall_congr' fun now => forall₃_congr fun backend command _ => ?_
  have hsubmitted := s.core.handleWork_submitted now backend command
  constructor
  -- the batch of the HAI route is a delta, for which there is no base
  · intro hbase hroute
    rw [hroute] at hsubmitted
    have hmem := (hbase _ hsubmitted ⟨_, List.mem_singleton_self _, rfl⟩).1
    rw [h command.cmd] at hmem
    exact List.not_mem_nil hmem
  · intro hroute batch hbatch
    -- no other route submits anything
    have hnone : SynapseCore.routeBatches command (s.core.route backend command) = [] := by
      cases hr : s.core.route backend command with
      | hai => exact absurd hr hroute
      | forwarded | jitHit | jitMiss => rfl
    rw [hsubmitted, hnone] at hbatch
    exact absurd (List.append_cancel_left hbatch) (List.cons_ne_nil batch []).symm

/-- A draw on another route is no instruction. -/
theorem NoneDrawn.drew (h : s.NoneDrawn) {now : UInt64} {backend : ExecutionBackend}
    {command : WorkCommand} (hroute : s.core.route backend command ≠ .hai) :
    (s.drew now backend command).NoneDrawn := by
  rw [HaiDraws.drew, if_neg hroute]
  exact h

/-- The step lemma: before the first draw for the stream there is none. -/
theorem NoneDrawn.step (h : s.NoneDrawn) (hnot : s.NotHai a) (hstep : s.step a = some s') :
    s'.NoneDrawn := by
  cases a with
  | bindPipeline cmd pipeline shaderHash =>
      obtain rfl := Option.some_injective _ hstep
      exact h
  | freeCmdBuf cmd =>
      obtain rfl := Option.some_injective _ hstep
      intro cmd'
      change Function.update s.drawn cmd [] cmd' = []
      rw [Function.update_apply, h cmd', ite_self]
  | drawIndexed now backend cmd indexCount instanceCount firstIndex vertexOffset firstInstance =>
      obtain rfl := Option.some_injective _ hstep
      exact h.drew (hnot _ _ _ rfl)
  | draw now backend cmd vertexCount instanceCount firstVertex firstInstance =>
      obtain rfl := Option.some_injective _ hstep
      exact h.drew (hnot _ _ _ rfl)

/-- **Deltas have bases exactly in the runs without a draw on HAI.** -/
theorem delta_has_base_iff (core : SynapseCore) (actions : List Action) :
    Along step DeltaHasBase (start core) actions ↔ Along step NotHai (start core) actions :=
  along_iff_of_invariant step (fun _ a _ (hs : NoneDrawn _) _ => hs.deltaHasBase_iff a)
    (fun _ a _ hs hstep hbase => hs.step ((hs.deltaHasBase_iff a).mp hbase) hstep)
    (fun _ => rfl) actions

/-- The first draw after a pipeline is bound is a delta. -/
theorem first_draw_without_base :
    ¬ Along step DeltaHasBase (start .onFullDriver)
      [.bindPipeline 1 7 42, .drawIndexed 0 .HAI 1 36 1 0 0 0] := by
  obtain ⟨s, hrun, hnone, hroute⟩ : ∃ s, exec step (start .onFullDriver)
      [.bindPipeline 1 7 42] = some s ∧ s.NoneDrawn ∧
      s.core.route .HAI (.drawIndexed 1 36 1 0 0 0) = .hai := ⟨_, rfl, fun _ => rfl, by decide⟩
  refine not_along step hrun rfl (fun hbase => ?_) []
  exact (hnone.deltaHasBase_iff _).mp hbase _ _ _ rfl hroute

end HaiDraws

end Synapse
