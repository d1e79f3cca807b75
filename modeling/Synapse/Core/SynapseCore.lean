import Synapse.Atomic.GracefulDegradation
import Synapse.Atomic.Telemetry
import Synapse.Core.Workload

/-!
# `SynapseCore`

The command handlers of `synapse_core.cpp`.

A handler is a function from core to core.  What it does outside the core is
recorded in the core: the calls made through the `orig_` pointers (`driver`), the
file operations of the WAL (`walOps`), the shaders handed to `submit_isa_to_gpu`
(`submittedIsa`), which discards them, and the batches handed to the HAI hardware.
A call through a null pointer is undefined; it is recorded as `faulted`.

The choice of `ml_api_.decide` is an argument, and so is the time that goes into
WAL entries.  Of what happens only for the learner (rewards, power reports,
elapsed times, texture residency) the model keeps which backend is reported to
`observe_from_signature` and whether.
-/

namespace Synapse

open ByteRecords FileOps Atomic

/-! ## Commands -/

/-- Handles are words; null is 0. -/
abbrev VkCommandBuffer := UInt64
/-- A pipeline. -/
abbrev VkPipeline := UInt64
/-- An image. -/
abbrev VkImage := UInt64
/-- A pipeline layout. -/
abbrev VkPipelineLayout := UInt64
/-- A descriptor set. -/
abbrev VkDescriptorSet := UInt64
/-- A shader object. -/
abbrev VkShaderEXT := UInt64

/-- The commands that do work, with all their arguments. -/
inductive WorkCommand where
  | drawIndexed (cmd : VkCommandBuffer) (indexCount instanceCount firstIndex : UInt32)
      (vertexOffset : Int32) (firstInstance : UInt32)
  | draw (cmd : VkCommandBuffer) (vertexCount instanceCount firstVertex firstInstance : UInt32)
  | dispatch (cmd : VkCommandBuffer) (groupCountX groupCountY groupCountZ : UInt32)
  deriving DecidableEq

/-- The commands that set state.  An array goes with its length, and a pointer to
data with the data. -/
inductive StateCommand where
  | pushConstants (cmd : VkCommandBuffer) (layout : VkPipelineLayout)
      (stageFlags offset size : UInt32) (pValues : Option Bytes)
  | bindDescriptorSets (cmd : VkCommandBuffer) (bindPoint : UInt32) (layout : VkPipelineLayout)
      (firstSet : UInt32) (pDescriptorSets : List VkDescriptorSet) (pDynamicOffsets : List UInt32)
  | bindPipeline (cmd : VkCommandBuffer) (pipelineBindPoint : UInt32) (pipeline : VkPipeline)
  | bindShadersEXT (cmd : VkCommandBuffer) (pStages : List UInt32)
      (pShaders : Option (List VkShaderEXT))
  deriving DecidableEq

/-- A call the next layer receives. -/
inductive DriverCall where
  | work (command : WorkCommand)
  | state (command : StateCommand)
  deriving DecidableEq

/-! ## State -/

/-- Which of the `orig_` pointers are not null. -/
structure OrigPointers where
  drawIndexed : Bool
  draw : Bool
  dispatch : Bool
  pushConstants : Bool
  bindDescriptorSets : Bool

/-- The fields of `ConfigSnapshot` the handlers read. -/
structure ConfigSnapshot where
  mlAggressive : Bool := true
  jitEnabled : Bool := true
  haiEnabled : Bool := true

/-- `CmdBufState`, with the four descriptor sets that it has room for. -/
structure CmdBufState where
  boundPipeline : VkPipeline := 0
  boundImage : VkImage := 0
  shaderHash : UInt64 := 0
  descriptorSets : List VkDescriptorSet := [0, 0, 0, 0]

/-- `SynapseCore`, with the record of what it does outside itself. -/
structure SynapseCore where
  orig : OrigPointers
  drawTelemetryAllowed : Bool
  degrade : GracefulDegradation
  config : ConfigSnapshot
  recovery : Option AtomicTelemetry
  cmdState : VkCommandBuffer → Option CmdBufState
  telemetry : MaskRing WorkloadSignature 10
  recommendation : ExecutionBackend
  jitPipeline : JITPipeline
  haiBuilder : HAIBytecodeBuilder
  coldCacheFallbacks : UInt32
  backendJitCount : UInt32
  backendHaiCount : UInt32
  backendOracleCount : UInt32
  observed : List ExecutionBackend
  driver : List DriverCall
  walOps : List FileOp
  submittedIsa : List (VkCommandBuffer × List UInt32)
  faulted : Bool

namespace SynapseCore

/-- The constructor, for a profile whose plan has the given `ml_aggressive`. -/
def create (orig : OrigPointers) (mlAggressive : Bool) : SynapseCore where
  orig := orig
  drawTelemetryAllowed := true
  degrade := ["jit", "hai", "its", "ml", "telemetry", "power"].foldl
    (fun g name => g.registerFeature name .enabled) GracefulDegradation.empty
  config := { mlAggressive := mlAggressive }
  recovery := some AtomicTelemetry.create
  cmdState _ := none
  telemetry := MaskRing.empty 10 {}
  recommendation := .Oracle
  jitPipeline := ⟨fun _ => none⟩
  haiBuilder := {}
  coldCacheFallbacks := 0
  backendJitCount := 0
  backendHaiCount := 0
  backendOracleCount := 0
  observed := []
  driver := []
  walOps := []
  submittedIsa := []
  faulted := false

/-- A core on a driver that has all the entry points. -/
def onFullDriver : SynapseCore := create ⟨true, true, true, true, true⟩ true

variable (core : SynapseCore)

/-! ## Helpers -/

/-- A call through an `orig_` pointer. -/
def forward (call : DriverCall) : SynapseCore := { core with driver := core.driver ++ [call] }

/-- `if (orig_) orig_(…)`. -/
def forwardIf (pointer : Bool) (call : DriverCall) : SynapseCore :=
  if pointer then core.forward call else core

/-- `wal_log(type, data, size)`. -/
def walLog (now : UInt64) (type : WALEventType) (data : Option Bytes) (size : UInt32) :
    SynapseCore :=
  let written := core.recovery.map (AtomicTelemetry.write now type data size)
  if core.degrade.isAvailable "telemetry" then
    { core with
      recovery := written.map fun w => w.2.1
      walOps := core.walOps ++ (written.map fun w => w.2.2).getD [] }
  else core

/-- `capture_current_signature`: the count and the hash of the bound pipeline. -/
def captureCurrentSignature (cmd : VkCommandBuffer) (count : UInt32) : WorkloadSignature :=
  { vertexCount := count
    shaderHash := ((core.cmdState cmd).map CmdBufState.shaderHash).getD 0 }

/-- A sample for the analyzer; a full ring refuses it. -/
def pushTelemetry (sig : WorkloadSignature) : SynapseCore :=
  { core with telemetry := (core.telemetry.push sig).2 }

/-- The counter of a backend. -/
def incrementBackendCounter (backend : ExecutionBackend) : SynapseCore :=
  match backend with
  | .JIT => { core with backendJitCount := core.backendJitCount + 1 }
  | .HAI => { core with backendHaiCount := core.backendHaiCount + 1 }
  | .Oracle => { core with backendOracleCount := core.backendOracleCount + 1 }

/-- An error of a feature, which may switch it off. -/
def handleFeatureError (name : String) (errorCode : UInt32) : SynapseCore :=
  { core with degrade := core.degrade.handleError name errorCode }

/-- `execute_oracle_draw`, which does not look whether the pointer is null. -/
def executeOracleDraw (cmd : VkCommandBuffer) (indexCount instanceCount firstIndex : UInt32)
    (vertexOffset : Int32) (firstInstance : UInt32) : SynapseCore :=
  if core.orig.drawIndexed then
    { core.forward (.work
        (.drawIndexed cmd indexCount instanceCount firstIndex vertexOffset firstInstance)) with
      coldCacheFallbacks := core.coldCacheFallbacks + 1 }
  else { core with faulted := true }

/-- `submit_isa_to_gpu` -/
def submitIsaToGpu (cmd : VkCommandBuffer) (isa : List UInt32) : SynapseCore :=
  { core with submittedIsa := core.submittedIsa ++ [(cmd, isa)] }

/-- `execute_jit_path`.  The signature carries the count and the shader, but not the
other arguments of the command. -/
def executeJitPath (cmd : VkCommandBuffer) (sig : WorkloadSignature) : SynapseCore :=
  let looked := core.jitPipeline.getOptimizedShader core.recommendation sig.shaderHash []
  let core := { core with jitPipeline := looked.2 }
  -- a miss degrades the feature for the length of the fallback
  match looked.1 with
  | some specialized => core.submitIsaToGpu cmd specialized.isaBinary
  | none =>
      ((core.handleFeatureError "jit" 1).executeOracleDraw cmd sig.vertexCount 1 0 0 0
        ).handleFeatureError "jit" 0

/-- `can_delta_update` -/
def canDeltaUpdate (sig : WorkloadSignature) : Bool := sig.pipelineStateChanges = 0

/-- `execute_hai_path`: a batch of one draw, in full or as a delta. -/
def executeHaiPath (_cmd : VkCommandBuffer) (sig : WorkloadSignature) : SynapseCore :=
  let batch := core.haiBuilder.beginBatch
  let drawn :=
    if canDeltaUpdate sig then batch.writeDeltaDraw sig HAIBytecodeBuilder.kIndexAndCount
    else batch.writeFullDraw sig
  { core with haiBuilder := drawn.flushToHardware }

/-- The report to the learner. -/
def observe (backend : ExecutionBackend) : SynapseCore :=
  { core with observed := core.observed ++ [backend] }

/-! ## Work commands -/

/-- `handle_draw_indexed`, at time `now`, with `backend` decided. -/
def handleDrawIndexed (now : UInt64) (backend : ExecutionBackend) (cmd : VkCommandBuffer)
    (indexCount instanceCount firstIndex : UInt32) (vertexOffset : Int32)
    (firstInstance : UInt32) : SynapseCore :=
  let call := DriverCall.work
    (.drawIndexed cmd indexCount instanceCount firstIndex vertexOffset firstInstance)
  if !core.drawTelemetryAllowed then
    (core.forwardIf core.orig.drawIndexed call).walLog now .drawIndexed none 0
  else if !core.degrade.isAvailable "jit" then
    (core.forwardIf core.orig.drawIndexed call).walLog now .drawIndexed none 0
  else
    let sig := core.captureCurrentSignature cmd indexCount
    let core := core.walLog now .drawIndexed (some sig.bytes) kWorkloadSignatureSize
    let core := core.pushTelemetry sig
    let core := core.incrementBackendCounter backend
    let core := match backend with
      | .JIT =>
          if core.degrade.isAvailable "jit" then core.executeJitPath cmd sig
          else core.executeOracleDraw cmd indexCount instanceCount firstIndex vertexOffset
            firstInstance
      | .HAI =>
          if core.degrade.isAvailable "hai" then core.executeHaiPath cmd sig
          else core.executeOracleDraw cmd indexCount instanceCount firstIndex vertexOffset
            firstInstance
      | .Oracle =>
          core.executeOracleDraw cmd indexCount instanceCount firstIndex vertexOffset firstInstance
    core.observe backend

/-- `handle_draw`. -/
def handleDraw (now : UInt64) (backend : ExecutionBackend) (cmd : VkCommandBuffer)
    (vertexCount instanceCount firstVertex firstInstance : UInt32) : SynapseCore :=
  let call := DriverCall.work (.draw cmd vertexCount instanceCount firstVertex firstInstance)
  if !core.drawTelemetryAllowed then
    (core.forwardIf core.orig.draw call).walLog now .draw none 0
  else
    let sig := { core.captureCurrentSignature cmd vertexCount with isComputeDispatch := false }
    let core := core.walLog now .draw none 0
    let core := core.pushTelemetry sig
    let core := core.incrementBackendCounter backend
    match backend with
    | .JIT =>
        if core.degrade.isAvailable "jit" then core.executeJitPath cmd sig
        else core.forwardIf core.orig.draw call
    | .HAI =>
        if core.degrade.isAvailable "hai" then core.executeHaiPath cmd sig
        else core.forwardIf core.orig.draw call
    | .Oracle => core.forwardIf core.orig.draw call

/-- The signature `handle_dispatch` makes up; it has no trace of the group counts. -/
def dispatchSignature : WorkloadSignature :=
  { isComputeDispatch := true, drawCallCount := 1, shaderInstructionEstimate := 500 }

/-- `handle_dispatch`. -/
def handleDispatch (now : UInt64) (backend : ExecutionBackend) (cmd : VkCommandBuffer)
    (groupCountX groupCountY groupCountZ : UInt32) : SynapseCore :=
  let call := DriverCall.work (.dispatch cmd groupCountX groupCountY groupCountZ)
  let cfg := core.config
  let sig := dispatchSignature
  let core := core.walLog now .dispatch (some sig.bytes) kWorkloadSignatureSize
  let core := core.pushTelemetry sig
  let core := core.incrementBackendCounter backend
  let core := match backend with
    | .JIT =>
        if core.degrade.isAvailable "jit" && cfg.jitEnabled then core.executeJitPath cmd sig
        else core.forwardIf core.orig.dispatch call
    | .HAI =>
        if core.degrade.isAvailable "hai" && cfg.haiEnabled then core.executeHaiPath cmd sig
        else core.forwardIf core.orig.dispatch call
    | .Oracle => core.forwardIf core.orig.dispatch call
  if cfg.mlAggressive then core.observe backend else core

/-- The handler of a work command. -/
def handleWork (now : UInt64) (backend : ExecutionBackend) : WorkCommand → SynapseCore
  | .drawIndexed cmd indexCount instanceCount firstIndex vertexOffset firstInstance =>
      core.handleDrawIndexed now backend cmd indexCount instanceCount firstIndex vertexOffset
        firstInstance
  | .draw cmd vertexCount instanceCount firstVertex firstInstance =>
      core.handleDraw now backend cmd vertexCount instanceCount firstVertex firstInstance
  | .dispatch cmd groupCountX groupCountY groupCountZ =>
      core.handleDispatch now backend cmd groupCountX groupCountY groupCountZ

/-! ## State commands -/

/-- `notify_bind_pipeline` -/
def notifyBindPipeline (cmd : VkCommandBuffer) (pipeline : VkPipeline) (shaderHash : UInt64) :
    SynapseCore :=
  let s := (core.cmdState cmd).getD {}
  { core with
    cmdState := Function.update core.cmdState cmd
      (some { s with boundPipeline := pipeline, shaderHash := shaderHash }) }

/-- `notify_bind_descriptor_set`, which drops an index that is out of range. -/
def notifyBindDescriptorSet (cmd : VkCommandBuffer) (setIndex : UInt32)
    (descriptorSet : VkDescriptorSet) : SynapseCore :=
  let s := (core.cmdState cmd).getD {}
  let s' := if setIndex.toNat < s.descriptorSets.length then
      { s with descriptorSets := s.descriptorSets.set setIndex.toNat descriptorSet }
    else s
  { core with cmdState := Function.update core.cmdState cmd (some s') }

/-- `notify_free_cmd_buf`. -/
def notifyFreeCmdBuf (cmd : VkCommandBuffer) : SynapseCore :=
  { core with cmdState := Function.update core.cmdState cmd none }

/-- The loop of `handle_bind_descriptor_sets`; `firstSet + i` wraps. -/
def notifyBindDescriptorSets (cmd : VkCommandBuffer) (setIndex : UInt32) :
    List VkDescriptorSet → SynapseCore → SynapseCore
  | [], core => core
  | d :: rest, core =>
      notifyBindDescriptorSets cmd (setIndex + 1) rest
        (core.notifyBindDescriptorSet cmd setIndex d)

/-- `handle_push_constants`: logged, and passed on through the core's own pointer. -/
def handlePushConstants (now : UInt64) (cmd : VkCommandBuffer) (layout : VkPipelineLayout)
    (stageFlags offset size : UInt32) (pValues : Option Bytes) : SynapseCore :=
  (core.walLog now .pushConstants pValues (min size 240)).forwardIf core.orig.pushConstants
    (.state (.pushConstants cmd layout stageFlags offset size pValues))

/-- `handle_bind_descriptor_sets`: noted, logged, and passed on. -/
def handleBindDescriptorSets (now : UInt64) (cmd : VkCommandBuffer) (bindPoint : UInt32)
    (layout : VkPipelineLayout) (firstSet : UInt32) (pDescriptorSets : List VkDescriptorSet)
    (pDynamicOffsets : List UInt32) : SynapseCore :=
  let core' := notifyBindDescriptorSets cmd firstSet pDescriptorSets core
  (core'.walLog now .bindDescriptorSets none 0).forwardIf core'.orig.bindDescriptorSets
    (.state (.bindDescriptorSets cmd bindPoint layout firstSet pDescriptorSets pDynamicOffsets))

/-! ## What the helpers leave alone -/

/-- Logging touches nothing but the log. -/
theorem walLog_frame (now : UInt64) (type : WALEventType) (data : Option Bytes) (size : UInt32) :
    ∃ recovery walOps, core.walLog now type data size =
      { core with recovery := recovery, walOps := walOps } := by
  unfold walLog
  split
  · exact ⟨_, _, rfl⟩
  · exact ⟨core.recovery, core.walOps, rfl⟩

/-- Counting changes the three counters. -/
theorem incrementBackendCounter_frame (backend : ExecutionBackend) : ∃ jit hai oracle,
    core.incrementBackendCounter backend = { core with
      backendJitCount := jit
      backendHaiCount := hai
      backendOracleCount := oracle } := by
  cases backend <;> exact ⟨_, _, _, rfl⟩

/-- Recording bound sets touches nothing but the state of command buffers. -/
theorem notifyBindDescriptorSets_frame (cmd : VkCommandBuffer) (sets : List VkDescriptorSet)
    (setIndex : UInt32) : ∃ cmdState,
    notifyBindDescriptorSets cmd setIndex sets core = { core with cmdState := cmdState } := by
  induction sets generalizing core setIndex with
  | nil => exact ⟨core.cmdState, rfl⟩
  | cons d rest ih =>
      obtain ⟨cmdState, hrest⟩ := ih (core.notifyBindDescriptorSet cmd setIndex d) (setIndex + 1)
      exact ⟨cmdState, by rw [notifyBindDescriptorSets, hrest]; rfl⟩

end SynapseCore

end Synapse
