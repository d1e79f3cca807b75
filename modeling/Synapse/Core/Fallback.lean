import Synapse.Core.SynapseCore

/-!
# What the driver receives for a work command

A command takes one of four routes, which the state before it and the decided
backend determine (`route`), and `handleWork_took` says what each route does:
forward the command, hand a cached shader to the GPU, submit an HAI batch, or miss
the JIT cache.

A miss ends in `execute_oracle_draw` with nothing but the signature in hand.  The
driver gets an indexed draw of one instance, whatever the command was
(`fallback_transparent_iff`).

### Routes before effects

A handler decides, looks things up, and calls one of four functions with what it has found.
The route is defined on the state in front of the handler, by the same look-ups, and `Handled`
relates the two: it is an inductive description of what the handlers have in common, with one
rule for each way out, proved once for each of the three handlers.  All later statements about
commands go through it and not through the handlers' text.
-/

namespace Synapse

open Atomic

/-- The way a work command is executed. -/
inductive Route where
  /-- Passed to the driver as it is. -/
  | forwarded
  /-- Replaced by a shader from the JIT cache. -/
  | jitHit
  /-- Sent to the JIT pipeline, which has no shader. -/
  | jitMiss
  /-- Encoded for the HAI hardware. -/
  | hai
  deriving DecidableEq, Repr

namespace WorkCommand

/-- The command buffer of a command. -/
def cmd : WorkCommand → VkCommandBuffer
  | drawIndexed cmd _ _ _ _ _ => cmd
  | draw cmd _ _ _ _ => cmd
  | dispatch cmd _ _ _ => cmd

/-- The count in the signature of the command. -/
def vertexCount : WorkCommand → UInt32
  | drawIndexed _ indexCount _ _ _ _ => indexCount
  | draw _ vertexCount _ _ _ => vertexCount
  | dispatch _ _ _ _ => 0

/-- An indexed draw of one instance without offsets. -/
def IsPlainIndexedDraw (command : WorkCommand) : Prop :=
  ∃ cmd indexCount, command = .drawIndexed cmd indexCount 1 0 0 0

end WorkCommand

namespace SynapseCore

variable (core : SynapseCore)

/-- The shader hash in the signature of a command: that of the bound pipeline for a
draw, 0 for a dispatch. -/
def shaderHashFor : WorkCommand → UInt64
  | .drawIndexed cmd indexCount _ _ _ _ => (core.captureCurrentSignature cmd indexCount).shaderHash
  | .draw cmd vertexCount _ _ _ => (core.captureCurrentSignature cmd vertexCount).shaderHash
  | .dispatch _ _ _ _ => 0

/-- The JIT cache has a shader for the command. -/
def hasShaderFor (command : WorkCommand) : Bool :=
  (core.jitPipeline.cache
    (backendContextHash (core.shaderHashFor command) core.recommendation)).isSome

/-- The command gets past the early returns, so that a backend is decided. -/
def isRouted : WorkCommand → Bool
  | .drawIndexed .. => core.drawTelemetryAllowed && core.degrade.isAvailable "jit"
  | .draw .. => core.drawTelemetryAllowed
  | .dispatch .. => true

/-- The feature of a backend can be used; dispatches ask the configuration too. -/
def allows (feature : String) (flag : Bool) : WorkCommand → Bool
  | .dispatch .. => core.degrade.isAvailable feature && flag
  | _ => core.degrade.isAvailable feature

/-- The route of a command. -/
def route (backend : ExecutionBackend) (command : WorkCommand) : Route :=
  if core.isRouted command then
    match backend with
    | .JIT =>
        if core.allows "jit" core.config.jitEnabled command then
          if core.hasShaderFor command then .jitHit else .jitMiss
        else .forwarded
    | .HAI => if core.allows "hai" core.config.haiEnabled command then .hai else .forwarded
    | .Oracle => .forwarded
  else .forwarded

/-- The driver receives the given calls, and nothing else happens outside. -/
structure Received (core' : SynapseCore) (calls : List DriverCall) : Prop where
  driver : core'.driver = core.driver ++ calls
  submittedIsa : core'.submittedIsa = core.submittedIsa
  submitted : core'.haiBuilder.submitted = core.haiBuilder.submitted
  faulted : core'.faulted = core.faulted

/-- What each route does. -/
def Took (core' : SynapseCore) (command : WorkCommand) : Route → Prop
  | .forwarded => core.Received core' [.work command]
  | .jitHit => ∃ isa, core'.submittedIsa = core.submittedIsa ++ [isa]
  | .jitMiss => core.Received core'
      [.work (.drawIndexed command.cmd command.vertexCount 1 0 0 0)]
  | .hai => ∃ batch, core'.haiBuilder.submitted = core.haiBuilder.submitted ++ [batch]

/-! ## The execution helpers -/

variable {core}

/-- The driver's path makes one call, an indexed draw. -/
theorem received_executeOracleDraw (horig : core.orig.drawIndexed = true) (cmd : VkCommandBuffer)
    (indexCount instanceCount firstIndex : UInt32) (vertexOffset : Int32)
    (firstInstance : UInt32) :
    core.Received (core.executeOracleDraw cmd indexCount instanceCount firstIndex vertexOffset
        firstInstance)
      [.work (.drawIndexed cmd indexCount instanceCount firstIndex vertexOffset
        firstInstance)] := by
  rw [executeOracleDraw, if_pos horig]
  exact ⟨rfl, rfl, rfl, rfl⟩

/-- A command that is passed on is one call. -/
theorem received_forwardIf (core : SynapseCore) {pointer : Bool} (hpointer : pointer = true)
    (call : DriverCall) : core.Received (core.forwardIf pointer call) [call] := by
  rw [forwardIf, if_pos hpointer]
  exact ⟨rfl, rfl, rfl, rfl⟩

/-- A cached shader is handed to the GPU. -/
theorem executeJitPath_hit {sig : WorkloadSignature} {shader : SpecializedShader}
    (hhit : core.jitPipeline.cache (backendContextHash sig.shaderHash core.recommendation) =
      some shader) (cmd : VkCommandBuffer) :
    (core.executeJitPath cmd sig).submittedIsa =
      core.submittedIsa ++ [(cmd, shader.isaBinary)] := by
  rw [executeJitPath, JITPipeline.getOptimizedShader_of_no_source, hhit]
  rfl

/-- A miss draws the count of the signature, once, from the start. -/
theorem executeJitPath_miss {sig : WorkloadSignature} (horig : core.orig.drawIndexed = true)
    (hmiss : core.jitPipeline.cache (backendContextHash sig.shaderHash core.recommendation) =
      none) (cmd : VkCommandBuffer) :
    core.Received (core.executeJitPath cmd sig)
      [.work (.drawIndexed cmd sig.vertexCount 1 0 0 0)] := by
  rw [executeJitPath, JITPipeline.getOptimizedShader_of_no_source, hmiss]
  simp only [handleFeatureError, executeOracleDraw, horig, if_true]
  exact ⟨rfl, rfl, rfl, rfl⟩

/-- The stream's path submits one batch. -/
theorem executeHaiPath_submitted (cmd : VkCommandBuffer) (sig : WorkloadSignature) :
    ∃ batch, (core.executeHaiPath cmd sig).haiBuilder.submitted =
      core.haiBuilder.submitted ++ [batch] := by
  unfold executeHaiPath
  split <;> exact ⟨_, rfl⟩

/-! ## The handlers -/

variable (core)

/-- The core differs only by logging, telemetry and counting. -/
structure Undecided (core₁ : SynapseCore) : Prop extends core.Received core₁ [] where
  orig : core₁.orig = core.orig
  degrade : core₁.degrade = core.degrade
  cmdState : core₁.cmdState = core.cmdState
  recommendation : core₁.recommendation = core.recommendation
  jitPipeline : core₁.jitPipeline = core.jitPipeline

variable {core}

/-- What has been done before the decision leaves the bound pipeline. -/
theorem Undecided.shaderHashFor {core₁ : SynapseCore} (h : core.Undecided core₁)
    (command : WorkCommand) : core₁.shaderHashFor command = core.shaderHashFor command := by
  cases command <;> simp only [SynapseCore.shaderHashFor, captureCurrentSignature, h.cmdState]

/-- And the cache. -/
theorem Undecided.hasShaderFor {core₁ : SynapseCore} (h : core.Undecided core₁)
    (command : WorkCommand) : core₁.hasShaderFor command = core.hasShaderFor command := by
  rw [SynapseCore.hasShaderFor, h.shaderHashFor, h.recommendation, h.jitPipeline]
  rfl

/-- What comes before the choice of the route: logging, telemetry, counting. -/
theorem undecided_prelude (core : SynapseCore) (now : UInt64) (type : WALEventType)
    (data : Option ByteRecords.Bytes) (size : UInt32) (sig : WorkloadSignature)
    (backend : ExecutionBackend) : ∃ core₁,
    ((core.walLog now type data size).pushTelemetry sig).incrementBackendCounter backend =
      core₁ ∧ core.Undecided core₁ := by
  obtain ⟨recovery, walOps, hlog⟩ := core.walLog_frame now type data size
  obtain ⟨jit, hai, oracle, hcount⟩ :=
    ((core.walLog now type data size).pushTelemetry sig).incrementBackendCounter_frame backend
  rw [hcount, hlog]
  exact ⟨_, rfl, ⟨(List.append_nil _).symm, rfl, rfl, rfl⟩, rfl, rfl, rfl, rfl, rfl⟩

/-- An early return forwards the command and logs it. -/
theorem received_early {pointer : Bool} (hpointer : pointer = true) (call : DriverCall)
    (now : UInt64) (type : WALEventType) :
    core.Received ((core.forwardIf pointer call).walLog now type none 0) [call] := by
  obtain ⟨recovery, walOps, hlog⟩ := (core.forwardIf pointer call).walLog_frame now type none 0
  obtain ⟨hdriver, hisa, hsubmitted, hfaulted⟩ := core.received_forwardIf hpointer call
  rw [hlog]
  exact ⟨hdriver, hisa, hsubmitted, hfaulted⟩

/-- Calls of two steps in a row. -/
theorem Received.trans {core₁ core₂ : SynapseCore} {calls calls' : List DriverCall}
    (h : core.Received core₁ calls) (h' : core₁.Received core₂ calls') :
    core.Received core₂ (calls ++ calls') where
  driver := by rw [h'.driver, h.driver, List.append_assoc]
  submittedIsa := h'.submittedIsa.trans h.submittedIsa
  submitted := h'.submitted.trans h.submitted
  faulted := h'.faulted.trans h.faulted

/-- A silent step before a route does not change what the route does. -/
theorem Took.after {core₁ core₂ : SynapseCore} {command : WorkCommand} {r : Route}
    (h : core.Received core₁ []) (h' : core₁.Took core₂ command r) :
    core.Took core₂ command r := by
  cases r with
  | forwarded => exact h.trans h'
  | jitHit =>
      obtain ⟨isa, hisa⟩ := h'
      exact ⟨isa, by rw [hisa, h.submittedIsa]⟩
  | jitMiss => exact h.trans h'
  | hai =>
      obtain ⟨batch, hbatch⟩ := h'
      exact ⟨batch, by rw [hbatch, h.submitted]⟩

/-- Nor does reporting to the learner afterwards. -/
theorem Took.observe {core₁ : SynapseCore} {command : WorkCommand} {r : Route}
    (h : core.Took core₁ command r) (backend : ExecutionBackend) :
    core.Took (core₁.observe backend) command r := by
  cases r with
  | forwarded => exact ⟨h.driver, h.submittedIsa, h.submitted, h.faulted⟩
  | jitHit => exact h
  | jitMiss => exact ⟨h.driver, h.submittedIsa, h.submitted, h.faulted⟩
  | hai => exact h

/-- The JIT route, by whether the cache has the shader. -/
theorem took_executeJitPath {command : WorkCommand} {sig : WorkloadSignature}
    (horig : core.orig.drawIndexed = true) (hhash : sig.shaderHash = core.shaderHashFor command)
    (hcount : sig.vertexCount = command.vertexCount) :
    core.Took (core.executeJitPath command.cmd sig) command
      (if core.hasShaderFor command then .jitHit else .jitMiss) := by
  unfold hasShaderFor
  rw [← hhash]
  cases hcache : core.jitPipeline.cache
      (backendContextHash sig.shaderHash core.recommendation) with
  | none =>
      have hmiss := executeJitPath_miss horig hcache command.cmd
      rw [hcount] at hmiss
      exact hmiss
  | some shader => exact ⟨_, executeJitPath_hit hcache command.cmd⟩

/-- An early return forwards the command. -/
theorem route_of_not_isRouted {command : WorkCommand} (h : core.isRouted command = false)
    (backend : ExecutionBackend) : core.route backend command = .forwarded := by
  unfold route
  rw [h]
  rfl

/-- Otherwise the decided backend and its feature say where it goes. -/
theorem route_of_isRouted {command : WorkCommand} (h : core.isRouted command = true)
    (backend : ExecutionBackend) : core.route backend command =
      match backend with
      | .JIT =>
          if core.allows "jit" core.config.jitEnabled command then
            (if core.hasShaderFor command then .jitHit else .jitMiss)
          else .forwarded
      | .HAI => if core.allows "hai" core.config.haiEnabled command then .hai else .forwarded
      | .Oracle => .forwarded := by
  unfold route
  rw [h]
  rfl

/-! ## What a handler does -/

/-- The call through the pointer of the command. -/
def forwardWork (core : SynapseCore) : WorkCommand → SynapseCore
  | .drawIndexed cmd indexCount instanceCount firstIndex vertexOffset firstInstance =>
      core.executeOracleDraw cmd indexCount instanceCount firstIndex vertexOffset firstInstance
  | .draw cmd vertexCount instanceCount firstVertex firstInstance =>
      core.forwardIf core.orig.draw
        (.work (.draw cmd vertexCount instanceCount firstVertex firstInstance))
  | .dispatch cmd groupCountX groupCountY groupCountZ =>
      core.forwardIf core.orig.dispatch
        (.work (.dispatch cmd groupCountX groupCountY groupCountZ))

/-- The choice the handlers share: one of the two backends if it is allowed, or else the
command itself. -/
def choose (core : SynapseCore) (jit hai : Bool) (command : WorkCommand)
    (sig : WorkloadSignature) : ExecutionBackend → SynapseCore
  | .JIT => if jit then core.executeJitPath command.cmd sig else core.forwardWork command
  | .HAI => if hai then core.executeHaiPath command.cmd sig else core.forwardWork command
  | .Oracle => core.forwardWork command

/-- The pointer of the command is not null. -/
def origPointer (core : SynapseCore) : WorkCommand → Bool
  | .drawIndexed .. => core.orig.drawIndexed
  | .draw .. => core.orig.draw
  | .dispatch .. => core.orig.dispatch

variable (core) in
/-- A handler returns early, or makes its choice after logging, telemetry and counting,
with a signature that carries the count and the shader of the command. -/
inductive Handled (backend : ExecutionBackend) (command : WorkCommand) : SynapseCore → Prop
  | early (hrouted : core.isRouted command = false) (now : UInt64) (type : WALEventType) :
      Handled backend command
        ((core.forwardIf (core.origPointer command) (.work command)).walLog now type none 0)
  | chosen (hrouted : core.isRouted command = true) {core₁ : SynapseCore}
      {sig : WorkloadSignature} (hsame : core.Undecided core₁)
      (hhash : sig.shaderHash = core.shaderHashFor command)
      (hcount : sig.vertexCount = command.vertexCount) (hchanges : sig.pipelineStateChanges = 0) :
      Handled backend command (core₁.choose (core.allows "jit" core.config.jitEnabled command)
        (core.allows "hai" core.config.haiEnabled command) command sig backend)
  | observed {core' : SynapseCore} (h : Handled backend command core') :
      Handled backend command (core'.observe backend)

/-- The handler of indexed draws. -/
theorem handled_drawIndexed (now : UInt64) (backend : ExecutionBackend) (cmd : VkCommandBuffer)
    (indexCount instanceCount firstIndex : UInt32) (vertexOffset : Int32)
    (firstInstance : UInt32) :
    core.Handled backend
      (.drawIndexed cmd indexCount instanceCount firstIndex vertexOffset firstInstance)
      (core.handleDrawIndexed now backend cmd indexCount instanceCount firstIndex vertexOffset
        firstInstance) := by
  unfold handleDrawIndexed
  dsimp only
  by_cases hallowed : core.drawTelemetryAllowed = true
  · by_cases hjit : core.degrade.isAvailable "jit" = true
    · obtain ⟨core₁, hcore₁, hsame⟩ := core.undecided_prelude now .drawIndexed
        (some (core.captureCurrentSignature cmd indexCount).bytes) kWorkloadSignatureSize
        (core.captureCurrentSignature cmd indexCount) backend
      rw [if_neg (by simp [hallowed]), if_neg (by simp [hjit])]
      simp only [hcore₁, hsame.degrade]
      exact .observed (.chosen (by simp [isRouted, hallowed, hjit]) hsame rfl rfl rfl)
    · rw [if_neg (by simp [hallowed]), if_pos (by simp [hjit])]
      exact .early (by simp [isRouted, hjit]) now .drawIndexed
  · rw [if_pos (by simp [hallowed])]
    exact .early (by simp [isRouted, hallowed]) now .drawIndexed

/-- The handler of draws. -/
theorem handled_draw (now : UInt64) (backend : ExecutionBackend) (cmd : VkCommandBuffer)
    (vertexCount instanceCount firstVertex firstInstance : UInt32) :
    core.Handled backend (.draw cmd vertexCount instanceCount firstVertex firstInstance)
      (core.handleDraw now backend cmd vertexCount instanceCount firstVertex firstInstance) := by
  unfold handleDraw
  dsimp only
  by_cases hallowed : core.drawTelemetryAllowed = true
  · obtain ⟨core₁, hcore₁, hsame⟩ := core.undecided_prelude now .draw none 0
      { core.captureCurrentSignature cmd vertexCount with isComputeDispatch := false } backend
    rw [if_neg (by simp [hallowed])]
    simp only [hcore₁, hsame.degrade]
    exact .chosen (by simp [isRouted, hallowed]) hsame rfl rfl rfl
  · rw [if_pos (by simp [hallowed])]
    exact .early (by simp [isRouted, hallowed]) now .draw

/-- The handler of dispatches. -/
theorem handled_dispatch (now : UInt64) (backend : ExecutionBackend) (cmd : VkCommandBuffer)
    (groupCountX groupCountY groupCountZ : UInt32) :
    core.Handled backend (.dispatch cmd groupCountX groupCountY groupCountZ)
      (core.handleDispatch now backend cmd groupCountX groupCountY groupCountZ) := by
  unfold handleDispatch
  dsimp only
  obtain ⟨core₁, hcore₁, hsame⟩ := core.undecided_prelude now .dispatch
    (some dispatchSignature.bytes) kWorkloadSignatureSize dispatchSignature backend
  simp only [hcore₁, hsame.degrade]
  have hchosen : core.Handled backend (.dispatch cmd groupCountX groupCountY groupCountZ)
      (core₁.choose (core.degrade.isAvailable "jit" && core.config.jitEnabled)
        (core.degrade.isAvailable "hai" && core.config.haiEnabled)
        (.dispatch cmd groupCountX groupCountY groupCountZ) dispatchSignature backend) :=
    .chosen rfl hsame rfl rfl rfl
  split
  · exact hchosen.observed
  · exact hchosen

/-- Every handler does one or the other. -/
theorem handled_handleWork (core : SynapseCore) (now : UInt64) (backend : ExecutionBackend)
    (command : WorkCommand) :
    core.Handled backend command (core.handleWork now backend command) := by
  cases command with
  | drawIndexed cmd indexCount instanceCount firstIndex vertexOffset firstInstance =>
      exact handled_drawIndexed now backend cmd _ _ _ _ _
  | draw cmd vertexCount instanceCount firstVertex firstInstance =>
      exact handled_draw now backend cmd _ _ _ _
  | dispatch cmd groupCountX groupCountY groupCountZ =>
      exact handled_dispatch now backend cmd _ _ _

section Took

variable {command : WorkCommand} {backend : ExecutionBackend}
  (hindexed : core.orig.drawIndexed = true)

/-- Forwarding reaches the driver if the pointer of the command is not null. -/
theorem received_forwardWork (hpointer : core.origPointer command = true) :
    core.Received (core.forwardWork command) [.work command] := by
  cases command with
  | drawIndexed cmd indexCount instanceCount firstIndex vertexOffset firstInstance =>
      exact received_executeOracleDraw hpointer cmd _ _ _ _ _
  | draw cmd vertexCount instanceCount firstVertex firstInstance =>
      exact core.received_forwardIf hpointer _
  | dispatch cmd groupCountX groupCountY groupCountZ =>
      exact core.received_forwardIf hpointer _

include hindexed

/-- What the decision's branch does is what the route says. -/
theorem took_choose {core₁ : SynapseCore} {sig : WorkloadSignature} (hsame : core.Undecided core₁)
    (hhash : sig.shaderHash = core.shaderHashFor command)
    (hcount : sig.vertexCount = command.vertexCount)
    (hpointer : core.origPointer command = true) (jit hai : Bool) :
    core.Took (core₁.choose jit hai command sig backend) command
      (match backend with
        | .JIT => if jit then (if core.hasShaderFor command then .jitHit else .jitMiss)
            else .forwarded
        | .HAI => if hai then .hai else .forwarded
        | .Oracle => .forwarded) := by
  -- the core's pointers, hashes and cache are as they were before the prelude
  refine Took.after hsame.toReceived ?_
  have hpointer₁ : core₁.origPointer command = true := by
    rw [← hpointer]
    cases command <;> simp only [origPointer, hsame.orig]
  have hforward := received_forwardWork hpointer₁
  cases backend with
  | JIT =>
      cases jit with
      | false => exact hforward
      | true =>
          rw [← hsame.orig] at hindexed
          rw [← hsame.shaderHashFor] at hhash
          rw [← hsame.hasShaderFor]
          exact took_executeJitPath hindexed hhash hcount
  | HAI =>
      cases hai with
      | false => exact hforward
      | true => exact executeHaiPath_submitted command.cmd sig
  | Oracle => exact hforward

/-- So a handled command takes its route. -/
theorem Handled.took {core' : SynapseCore} (h : core.Handled backend command core')
    (hpointer : core.origPointer command = true) :
    core.Took core' command (core.route backend command) := by
  induction h with
  | early hrouted now type =>
      rw [route_of_not_isRouted hrouted]
      exact received_early hpointer _ now type
  | chosen hrouted hsame hhash hcount hchanges =>
      rw [route_of_isRouted hrouted]
      exact took_choose hindexed hsame hhash hcount hpointer _ _
  | observed _ ih => exact ih.observe backend

end Took

/-- **What a work command does** is what its route does. -/
theorem handleWork_took (now : UInt64) (backend : ExecutionBackend)
    (hindexed : core.orig.drawIndexed = true) (hdraw : core.orig.draw = true)
    (hdispatch : core.orig.dispatch = true) (command : WorkCommand) :
    core.Took (core.handleWork now backend command) command (core.route backend command) := by
  refine (core.handled_handleWork now backend command).took hindexed ?_
  cases command with
  | drawIndexed => exact hindexed
  | draw => exact hdraw
  | dispatch => exact hdispatch

/-! ## Transparency -/

variable (core) in
/-- If neither a cached shader nor an HAI batch took the place of the command, the
driver receives it: once, as the application issued it, and nothing else. -/
def FallbackTransparent (core' : SynapseCore) (command : WorkCommand) : Prop :=
  core'.submittedIsa = core.submittedIsa →
    core'.haiBuilder.submitted = core.haiBuilder.submitted →
      core'.driver = core.driver ++ [.work command] ∧ core'.faulted = core.faulted

/-- Only plain indexed draws survive the trip through the signature. -/
theorem drawIndexed_eq_iff (command : WorkCommand) :
    WorkCommand.drawIndexed command.cmd command.vertexCount 1 0 0 0 = command ↔
      command.IsPlainIndexedDraw := by
  constructor
  · intro heq
    exact ⟨_, _, heq.symm⟩
  · rintro ⟨cmd, indexCount, rfl⟩
    rfl

/-- Only a miss can lose the command's arguments. -/
theorem fallbackTransparent_of_took {core' : SynapseCore} {command : WorkCommand} {r : Route}
    (h : core.Took core' command r) :
    core.FallbackTransparent core' command ↔ (r = .jitMiss → command.IsPlainIndexedDraw) := by
  unfold FallbackTransparent
  cases r with
  | forwarded =>
      have hreceived : core.Received core' [.work command] := h
      simp [hreceived.driver, hreceived.faulted]
  | jitHit =>
      obtain ⟨isa, hisa⟩ := h
      simp [hisa]
  | jitMiss =>
      have hreceived : core.Received core'
        [.work (.drawIndexed command.cmd command.vertexCount 1 0 0 0)] := h
      simp [hreceived.driver, hreceived.faulted, hreceived.submittedIsa, hreceived.submitted,
        drawIndexed_eq_iff]
  | hai =>
      obtain ⟨batch, hbatch⟩ := h
      simp [hbatch]

/-- **The fallback is transparent exactly when it is not a JIT miss**, or the command
is an indexed draw of one instance without offsets. -/
theorem fallback_transparent_iff (core : SynapseCore) (now : UInt64) (backend : ExecutionBackend)
    (command : WorkCommand) (hindexed : core.orig.drawIndexed = true)
    (hdraw : core.orig.draw = true) (hdispatch : core.orig.dispatch = true) :
    core.FallbackTransparent (core.handleWork now backend command) command ↔
      (core.route backend command = .jitMiss → command.IsPlainIndexedDraw) :=
  fallbackTransparent_of_took (handleWork_took now backend hindexed hdraw hdispatch command)

/-- With the oracle chosen, an instanced draw arrives as issued. -/
theorem oracle_draw_transparent :
    onFullDriver.FallbackTransparent
      (onFullDriver.handleWork 0 .Oracle (.drawIndexed 1 36 4 0 0 0))
      (.drawIndexed 1 36 4 0 0 0) := by
  refine (fallback_transparent_iff onFullDriver 0 .Oracle (.drawIndexed 1 36 4 0 0 0)
    rfl rfl rfl).mpr fun hmiss => ?_
  exact absurd hmiss (by decide)

/-- With JIT chosen and nothing cached, a dispatch arrives as an empty indexed draw. -/
theorem jit_miss_draws_for_dispatch :
    ¬ onFullDriver.FallbackTransparent
      (onFullDriver.handleWork 0 .JIT (.dispatch 1 8 8 1)) (.dispatch 1 8 8 1) := by
  have htook : onFullDriver.Took (onFullDriver.handleWork 0 .JIT (.dispatch 1 8 8 1))
      (.dispatch 1 8 8 1) .jitMiss :=
    handleWork_took 0 .JIT rfl rfl rfl (.dispatch 1 8 8 1)
  rw [fallbackTransparent_of_took htook]
  intro hplain
  obtain ⟨cmd, indexCount, heq⟩ := hplain rfl
  cases heq

end SynapseCore

end Synapse
