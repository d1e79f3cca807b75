import Synapse.Core.Fallback
import Synapse.Core.Frame
import Synapse.Foundations.Runs
import Synapse.Layer.StateCommands

/-!
# Which pipeline a draw is attributed to

The hooks of the work commands and of `vkFreeCommandBuffers`, and runs of them
together with the state commands over any number of devices and command buffers.

Vulkan keeps one bound pipeline for each bind point.  The layer keeps one field for
each command buffer and its hook for `vkCmdBindPipeline` does not look at the bind
point, so the field holds the pipeline bound last at any of them (`tracks_step`).
A draw is attributed to the pipeline it uses exactly if that is also the one bound
last at the graphics bind point (`attributed_iff`).

The next layer receives `vkFreeCommandBuffers` too; the record of what it receives
has no entry for it.

### The same state, twice

What Vulkan says is bound is written beside the layer, by the commands as they are recorded,
for each command buffer and bind point (`Tracked`).  The layer's own record is reached through
the device, the core and its map of states, so the lemmas about it come in two groups: which
core a hook calls (`CallsCore`), and what a method of the core does to the field of a command
buffer (`boundHash`).  Only three methods touch it, binding and the two that forget; all
others are shown to leave it alone, one by one.
-/

namespace Synapse

open ByteRecords

/-- The pipeline the core remembers for a command buffer, or 0. -/
def SynapseCore.boundHash (core : SynapseCore) (cmd : VkCommandBuffer) : UInt64 :=
  ((core.cmdState cmd).map CmdBufState.shaderHash).getD 0

namespace Layer

open Runs

/-- `VK_PIPELINE_BIND_POINT_GRAPHICS`. -/
def bindPointGraphics : UInt32 := 0

/-! ## The hooks -/

namespace CoreMethod

/-- The handler of a work command. -/
def handleWork (now : UInt64) (backend : ExecutionBackend) (command : WorkCommand) :
    CoreMethod where
  run core := core.handleWork now backend command
  orig_run core := congrArg Prod.fst (core.handleWork_setup now backend command)

/-- The loop of `SynapseLayer_vkFreeCommandBuffers`. -/
def notifyFreeCmdBufs (buffers : List VkCommandBuffer) : CoreMethod where
  run core := buffers.foldl
    (fun core cmd => if cmd ≠ 0 then core.notifyFreeCmdBuf cmd else core) core
  orig_run core := by
    induction buffers generalizing core with
    | nil => rfl
    | cons cmd buffers ih =>
        rw [List.foldl_cons, ih]
        split <;> rfl

end CoreMethod

/-- The entry point a work command needs is there. -/
def DeviceCtx.hasWorkEntryPoint (ctx : DeviceCtx) : WorkCommand → Bool
  | .drawIndexed .. => ctx.orig.drawIndexed
  | .draw .. => ctx.orig.draw
  | .dispatch .. => ctx.orig.dispatch

namespace SynapseLayer

variable (dispatchKey : VkCommandBuffer → DispatchKey)

/-- The hooks of the work commands: the core if there is a live one, or else the
next layer. -/
def workHook (now : UInt64) (backend : ExecutionBackend) (command : WorkCommand)
    (layer : SynapseLayer) : SynapseLayer :=
  match layer.devices (dispatchKey command.cmd) with
  | none => layer
  | some ctx =>
      if ctx.core.isSome then
        { devices := Function.update layer.devices (dispatchKey command.cmd)
            (some (ctx.callCore (.handleWork now backend command)))
          received := layer.received ++ ctx.coreCalls (.handleWork now backend command) }
      else
        { layer with
          received := layer.received ++
            if ctx.hasWorkEntryPoint command then [.work command] else [] }

/-- `vkCmdDrawIndexed` -/
def vkCmdDrawIndexed (now : UInt64) (backend : ExecutionBackend) (cmd : VkCommandBuffer)
    (indexCount instanceCount firstIndex : UInt32) (vertexOffset : Int32)
    (firstInstance : UInt32) (layer : SynapseLayer) : SynapseLayer :=
  layer.workHook dispatchKey now backend
    (.drawIndexed cmd indexCount instanceCount firstIndex vertexOffset firstInstance)

/-- `vkCmdDraw` -/
def vkCmdDraw (now : UInt64) (backend : ExecutionBackend) (cmd : VkCommandBuffer)
    (vertexCount instanceCount firstVertex firstInstance : UInt32) (layer : SynapseLayer) :
    SynapseLayer :=
  layer.workHook dispatchKey now backend
    (.draw cmd vertexCount instanceCount firstVertex firstInstance)

/-- `vkCmdDispatch` -/
def vkCmdDispatch (now : UInt64) (backend : ExecutionBackend) (cmd : VkCommandBuffer)
    (groupCountX groupCountY groupCountZ : UInt32) (layer : SynapseLayer) : SynapseLayer :=
  layer.workHook dispatchKey now backend
    (.dispatch cmd groupCountX groupCountY groupCountZ)

/-- `SynapseLayer_vkFreeCommandBuffers`, for the device with the given key. -/
def vkFreeCommandBuffers (device : DispatchKey) (buffers : List VkCommandBuffer)
    (layer : SynapseLayer) : SynapseLayer :=
  match layer.devices device with
  | none => layer
  | some ctx =>
      { layer with
        devices := Function.update layer.devices device
          (some (ctx.callCore (.notifyFreeCmdBufs buffers))) }

/-- The core of a device. -/
def coreAt (layer : SynapseLayer) (key : DispatchKey) : Option SynapseCore :=
  (layer.devices key).bind DeviceCtx.core

end SynapseLayer

/-! ## Runs -/

/-- The calls of the application, with the decisions made for them. -/
inductive LayerCall where
  | state (now : UInt64) (command : StateCommand)
  | work (now : UInt64) (backend : ExecutionBackend) (command : WorkCommand)
  | freeCommandBuffers (device : DispatchKey) (buffers : List VkCommandBuffer)

/-- The layer, and the history of each command buffer since it was last freed: the
pipeline bound last at any bind point and the one bound last at the graphics bind
point. -/
structure Tracked where
  layer : SynapseLayer
  latest : VkCommandBuffer → Option VkPipeline
  graphics : VkCommandBuffer → Option VkPipeline

namespace Tracked

/-- A layer before any call. -/
def start (layer : SynapseLayer) : Tracked where
  layer := layer
  latest _ := none
  graphics _ := none

variable (dispatchKey : VkCommandBuffer → DispatchKey)

/-- One call.  Command buffers are freed through their own device; freeing a null
handle frees nothing. -/
def step (s : Tracked) : LayerCall → Option Tracked
  | .state now command =>
      let layer := s.layer.call dispatchKey now command
      match command with
      | .bindPipeline cmd pipelineBindPoint pipeline => some
          { layer := layer
            latest := Function.update s.latest cmd (some pipeline)
            graphics := if pipelineBindPoint = bindPointGraphics then
                Function.update s.graphics cmd (some pipeline)
              else s.graphics }
      | _ => some { s with layer := layer }
  | .work now backend command =>
      some { s with layer := s.layer.workHook dispatchKey now backend command }
  | .freeCommandBuffers device buffers =>
      if ∀ cmd ∈ buffers, cmd ≠ 0 → dispatchKey cmd = device then some
        { layer := s.layer.vkFreeCommandBuffers device buffers
          latest := fun cmd => if cmd ≠ 0 ∧ cmd ∈ buffers then none else s.latest cmd
          graphics := fun cmd => if cmd ≠ 0 ∧ cmd ∈ buffers then none else s.graphics cmd }
      else none

/-- The draws whose signature the core captures. -/
def IsDraw : WorkCommand → Prop
  | .drawIndexed .. => True
  | .draw .. => True
  | .dispatch .. => False

/-- The signature of a draw carries the pipeline bound last for graphics, and 0 if
there is none. -/
def Attributed (s : Tracked) : LayerCall → Prop
  | .work _ _ command => ∀ core, s.layer.coreAt (dispatchKey command.cmd) = some core →
      IsDraw command → core.shaderHashFor command = (s.graphics command.cmd).getD 0
  | _ => True

/-- What was bound last for a draw was bound for graphics, as far as the handle
tells. -/
def BoundForGraphics (s : Tracked) : LayerCall → Prop
  | .work _ _ command => (s.layer.coreAt (dispatchKey command.cmd)).isSome = true →
      IsDraw command → (s.latest command.cmd).getD 0 = (s.graphics command.cmd).getD 0
  | _ => True

/-- Every core holds what was bound last. -/
def Tracks (s : Tracked) : Prop :=
  ∀ cmd core, s.layer.coreAt (dispatchKey cmd) = some core →
    core.boundHash cmd = (s.latest cmd).getD 0

end Tracked

/-! ## What a hook does to the cores -/

namespace SynapseLayer

/-- The core of one device has run the method, and the other cores nothing. -/
def CallsCore (method : CoreMethod) (key : DispatchKey) (layer layer' : SynapseLayer) : Prop :=
  ∀ key', layer'.coreAt key' =
    if key' = key then (layer.coreAt key').map method.run else layer.coreAt key'

/-- A hook without a device calls no core. -/
theorem callsCore_of_none {method : CoreMethod} {key : DispatchKey} {layer layer' : SynapseLayer}
    (hdevices : layer'.devices = layer.devices) (hnone : layer.coreAt key = none) :
    CallsCore method key layer layer' := by
  intro key'
  have hsame : layer'.coreAt key' = layer.coreAt key' := by
    rw [coreAt, coreAt, hdevices]
  split
  · rename_i hkey
    subst hkey
    rw [hsame, hnone]
    rfl
  · exact hsame

/-- A hook with one calls that device's core. -/
theorem callsCore_of_update {method : CoreMethod} {key : DispatchKey}
    {layer layer' : SynapseLayer} {ctx : DeviceCtx} (hctx : layer.devices key = some ctx)
    (hdevices : layer'.devices =
      Function.update layer.devices key (some (ctx.callCore method))) :
    CallsCore method key layer layer' := by
  intro key'
  rw [coreAt, coreAt, hdevices]
  split
  · rename_i hkey
    subst hkey
    rw [Function.update_self, hctx]
    rfl
  · rename_i hkey
    rw [Function.update_of_ne hkey]

variable (dispatchKey : VkCommandBuffer → DispatchKey) (layer : SynapseLayer)

/-- The hooks of the state commands. -/
theorem callsCore_hook (method : CoreMethod) (command : StateCommand) :
    CallsCore method (dispatchKey (cmdOf command)) layer
      (layer.hook dispatchKey method command) := by
  unfold hook
  split
  · rename_i hnone
    exact callsCore_of_none rfl (by rw [coreAt, hnone]; rfl)
  · rename_i ctx hctx
    exact callsCore_of_update hctx rfl

/-- The hooks of the work commands. -/
theorem callsCore_workHook (now : UInt64) (backend : ExecutionBackend) (command : WorkCommand) :
    CallsCore (.handleWork now backend command) (dispatchKey command.cmd) layer
      (layer.workHook dispatchKey now backend command) := by
  unfold workHook
  split
  · rename_i hnone
    exact callsCore_of_none rfl (by rw [coreAt, hnone]; rfl)
  · rename_i ctx hctx
    split
    · exact callsCore_of_update hctx rfl
    · rename_i hdead
      refine callsCore_of_none rfl ?_
      rw [coreAt, hctx, Option.bind_some]
      exact Option.not_isSome_iff_eq_none.mp hdead

/-- The hook of `vkFreeCommandBuffers`. -/
theorem callsCore_vkFreeCommandBuffers (device : DispatchKey) (buffers : List VkCommandBuffer) :
    CallsCore (.notifyFreeCmdBufs buffers) device layer
      (layer.vkFreeCommandBuffers device buffers) := by
  unfold vkFreeCommandBuffers
  split
  · rename_i hnone
    exact callsCore_of_none rfl (by rw [coreAt, hnone]; rfl)
  · rename_i ctx hctx
    exact callsCore_of_update hctx rfl

end SynapseLayer

/-! ## What a method does to the bound pipelines -/

section BoundHash

variable (core : SynapseCore) (cmd : VkCommandBuffer)

/-- Push constants bind no pipeline. -/
theorem boundHash_handlePushConstants (now : UInt64) (cmd' : VkCommandBuffer)
    (layout : VkPipelineLayout) (stageFlags offset size : UInt32) (pValues : Option Bytes) :
    ((CoreMethod.handlePushConstants now cmd' layout stageFlags offset size pValues).run
      core).boundHash cmd = core.boundHash cmd := by
  obtain ⟨recovery, walOps, hlog⟩ := core.walLog_frame now .pushConstants pValues (min size 240)
  simp only [CoreMethod.handlePushConstants, SynapseCore.handlePushConstants,
    SynapseCore.forwardIf, hlog]
  split <;> rfl

/-- Nor does a descriptor set. -/
theorem boundHash_notifyBindDescriptorSet (cmd' : VkCommandBuffer) (setIndex : UInt32)
    (descriptorSet : VkDescriptorSet) :
    (core.notifyBindDescriptorSet cmd' setIndex descriptorSet).boundHash cmd =
      core.boundHash cmd := by
  unfold SynapseCore.notifyBindDescriptorSet SynapseCore.boundHash
  by_cases hcmd : cmd = cmd'
  · subst hcmd
    dsimp only
    rw [Function.update_self]
    cases core.cmdState cmd with
    | none => split <;> rfl
    | some bound => split <;> rfl
  · dsimp only
    rw [Function.update_of_ne hcmd]

/-- Nor do several. -/
theorem boundHash_notifyBindDescriptorSets (cmd' : VkCommandBuffer) (sets : List VkDescriptorSet)
    (setIndex : UInt32) :
    (SynapseCore.notifyBindDescriptorSets cmd' setIndex sets core).boundHash cmd =
      core.boundHash cmd := by
  induction sets generalizing core setIndex with
  | nil => rfl
  | cons d sets ih =>
      rw [SynapseCore.notifyBindDescriptorSets, ih, boundHash_notifyBindDescriptorSet]

/-- Nor does the handler that binds them. -/
theorem boundHash_handleBindDescriptorSets (now : UInt64) (cmd' : VkCommandBuffer)
    (bindPoint : UInt32) (layout : VkPipelineLayout) (firstSet : UInt32)
    (pDescriptorSets : List VkDescriptorSet) (pDynamicOffsets : List UInt32) :
    ((CoreMethod.handleBindDescriptorSets now cmd' bindPoint layout firstSet pDescriptorSets
      pDynamicOffsets).run core).boundHash cmd = core.boundHash cmd := by
  refine Eq.trans ?_ (boundHash_notifyBindDescriptorSets core cmd cmd' pDescriptorSets firstSet)
  obtain ⟨recovery, walOps, hlog⟩ :=
    (SynapseCore.notifyBindDescriptorSets cmd' firstSet pDescriptorSets core).walLog_frame now
      .bindDescriptorSets none 0
  simp only [CoreMethod.handleBindDescriptorSets, SynapseCore.handleBindDescriptorSets,
    SynapseCore.forwardIf, hlog]
  split <;> rfl

/-- The method that does, whatever the bind point. -/
theorem boundHash_notifyBindPipeline (cmd' : VkCommandBuffer) (pipeline : VkPipeline) :
    ((CoreMethod.notifyBindPipeline cmd' pipeline).run core).boundHash cmd =
      if cmd = cmd' then pipeline else core.boundHash cmd := by
  unfold CoreMethod.notifyBindPipeline SynapseCore.notifyBindPipeline SynapseCore.boundHash
  dsimp only
  split
  · rename_i hcmd
    subst hcmd
    rw [Function.update_self]
    rfl
  · rename_i hcmd
    rw [Function.update_of_ne hcmd]

/-- A work command reads the field. -/
theorem boundHash_handleWork (now : UInt64) (backend : ExecutionBackend) (command : WorkCommand) :
    ((CoreMethod.handleWork now backend command).run core).boundHash cmd =
      core.boundHash cmd := by
  have hsetup := core.handleWork_setup now backend command
  have hstate : (core.handleWork now backend command).cmdState = core.cmdState :=
    congrArg (fun setup => setup.2.2.2) hsetup
  change (((core.handleWork now backend command).cmdState cmd).map CmdBufState.shaderHash).getD 0 =
    core.boundHash cmd
  rw [hstate]
  rfl

/-- A freed buffer has none bound. -/
theorem boundHash_notifyFreeCmdBuf (cmd' : VkCommandBuffer) :
    (core.notifyFreeCmdBuf cmd').boundHash cmd = if cmd = cmd' then 0 else core.boundHash cmd := by
  unfold SynapseCore.notifyFreeCmdBuf SynapseCore.boundHash
  dsimp only
  split
  · rename_i hcmd
    subst hcmd
    rw [Function.update_self]
    rfl
  · rename_i hcmd
    rw [Function.update_of_ne hcmd]

/-- Of several freed buffers each, apart from null. -/
theorem boundHash_notifyFreeCmdBufs (buffers : List VkCommandBuffer) :
    ((CoreMethod.notifyFreeCmdBufs buffers).run core).boundHash cmd =
      if cmd ≠ 0 ∧ cmd ∈ buffers then 0 else core.boundHash cmd := by
  change (buffers.foldl _ core).boundHash cmd = _
  induction buffers generalizing core with
  | nil => simp
  | cons cmd' buffers ih =>
      rw [List.foldl_cons, ih]
      by_cases hnull : cmd' = 0
      · subst hnull
        rw [if_neg (not_not.mpr rfl)]
        refine if_congr ?_ rfl rfl
        simp only [List.mem_cons]
        tauto
      · rw [if_pos hnull, boundHash_notifyFreeCmdBuf]
        by_cases hcmd : cmd = cmd'
        · subst hcmd
          simp [hnull]
        · simp [hcmd]

end BoundHash

/-! ## What the cores hold -/

namespace Tracked

variable {dispatchKey : VkCommandBuffer → DispatchKey}

/-- A device's core runs a method, and the history of its buffers follows. -/
theorem Tracks.callsCore {s s' : Tracked} {method : CoreMethod} {key : DispatchKey}
    (h : s.Tracks dispatchKey) (hcalls : SynapseLayer.CallsCore method key s.layer s'.layer)
    (hother : ∀ cmd, dispatchKey cmd ≠ key → s'.latest cmd = s.latest cmd)
    (hown : ∀ core cmd, dispatchKey cmd = key → core.boundHash cmd = (s.latest cmd).getD 0 →
      (method.run core).boundHash cmd = (s'.latest cmd).getD 0) :
    s'.Tracks dispatchKey := by
  intro cmd core' hcore'
  rw [hcalls] at hcore'
  by_cases hkey : dispatchKey cmd = key
  · rw [if_pos hkey, Option.map_eq_some_iff] at hcore'
    obtain ⟨core, hcore, rfl⟩ := hcore'
    exact hown core cmd hkey (h cmd core hcore)
  · rw [if_neg hkey] at hcore'
    rw [hother cmd hkey]
    exact h cmd core' hcore'

/-- Every call keeps the cores in step with what was bound last. -/
theorem tracks_step {s s' : Tracked} {call : LayerCall} (h : s.Tracks dispatchKey)
    (hstep : s.step dispatchKey call = some s') : s'.Tracks dispatchKey := by
  cases call with
  | state now command =>
      cases command with
      | pushConstants cmd layout stageFlags offset size pValues =>
          obtain rfl := Option.some_injective _ hstep
          exact h.callsCore (SynapseLayer.callsCore_hook dispatchKey _ _ _) (fun _ _ => rfl)
            fun core cmd' _ hcore => (boundHash_handlePushConstants core cmd' ..).trans hcore
      | bindDescriptorSets cmd bindPoint layout firstSet pDescriptorSets pDynamicOffsets =>
          obtain rfl := Option.some_injective _ hstep
          exact h.callsCore (SynapseLayer.callsCore_hook dispatchKey _ _ _) (fun _ _ => rfl)
            fun core cmd' _ hcore => (boundHash_handleBindDescriptorSets core cmd' ..).trans hcore
      | bindShadersEXT cmd pStages pShaders =>
          obtain rfl := Option.some_injective _ hstep
          exact h.callsCore (SynapseLayer.callsCore_hook dispatchKey _ .idle _) (fun _ _ => rfl)
            fun _ _ _ hcore => hcore
      | bindPipeline cmd pipelineBindPoint pipeline =>
          obtain rfl := Option.some_injective _ hstep
          refine h.callsCore (SynapseLayer.callsCore_hook dispatchKey _ _ _) ?_ ?_
          · intro cmd' hkey
            exact Function.update_of_ne (fun heq => hkey (congrArg dispatchKey heq)) _ _
          · intro core cmd' _ hcore
            rw [boundHash_notifyBindPipeline]
            by_cases hcmd : cmd' = cmd
            · subst hcmd
              simp
            · simp [hcmd, hcore]
  | work now backend command =>
      obtain rfl := Option.some_injective _ hstep
      exact h.callsCore (SynapseLayer.callsCore_workHook dispatchKey _ _ _ _) (fun _ _ => rfl)
        fun core cmd _ hcore => (boundHash_handleWork core cmd ..).trans hcore
  | freeCommandBuffers device buffers =>
      simp only [step, Option.ite_none_right_eq_some, Option.some.injEq] at hstep
      obtain ⟨howned, rfl⟩ := hstep
      refine h.callsCore (SynapseLayer.callsCore_vkFreeCommandBuffers _ _ _) ?_ ?_
      · intro cmd hkey
        exact if_neg fun hfreed => hkey (howned cmd hfreed.2 hfreed.1)
      · intro core cmd _ hcore
        rw [boundHash_notifyFreeCmdBufs, hcore]
        dsimp only
        split <;> rfl

/-- What a draw is attributed to. -/
theorem shaderHashFor_eq_boundHash (core : SynapseCore) {command : WorkCommand}
    (hdraw : IsDraw command) : core.shaderHashFor command = core.boundHash command.cmd := by
  cases command with
  | drawIndexed => rfl
  | draw => rfl
  | dispatch => exact hdraw.elim

/-- The step lemma, where the field is the pipeline bound last. -/
theorem attributed_iff_step {s : Tracked} (h : s.Tracks dispatchKey) (call : LayerCall) :
    s.Attributed dispatchKey call ↔ s.BoundForGraphics dispatchKey call := by
  cases call with
  | state now command => exact Iff.rfl
  | freeCommandBuffers device buffers => exact Iff.rfl
  | work now backend command =>
      constructor
      · intro hattributed hlive hdraw
        obtain ⟨core, hcore⟩ := Option.isSome_iff_exists.mp hlive
        rw [← h command.cmd core hcore, ← shaderHashFor_eq_boundHash core hdraw]
        exact hattributed core hcore hdraw
      · intro hbound core hcore hdraw
        rw [shaderHashFor_eq_boundHash core hdraw, h command.cmd core hcore]
        exact hbound (Option.isSome_iff_exists.mpr ⟨core, hcore⟩) hdraw

/-- No core has seen a command buffer yet. -/
def Untouched (layer : SynapseLayer) : Prop :=
  ∀ key core, layer.coreAt key = some core → ∀ cmd, core.cmdState cmd = none

/-- No pipeline is bound at the start. -/
theorem tracks_start {layer : SynapseLayer} (h : Untouched layer) :
    (start layer).Tracks dispatchKey := by
  intro cmd core hcore
  rw [SynapseCore.boundHash, h _ core hcore cmd]
  rfl

/-- **Draws are attributed to their pipelines** along a run exactly if each draw
comes when the pipeline bound last was bound for graphics. -/
theorem attributed_iff (dispatchKey : VkCommandBuffer → DispatchKey) (layer : SynapseLayer)
    (calls : List LayerCall) (hlayer : Untouched layer) :
    Along (step dispatchKey) (Attributed dispatchKey) (start layer) calls ↔
      Along (step dispatchKey) (BoundForGraphics dispatchKey) (start layer) calls := by
  have hiff : ∀ (s : Tracked) (call : LayerCall) (s' : Tracked), s.Tracks dispatchKey →
      s.step dispatchKey call = some s' →
      (s.Attributed dispatchKey call ↔ s.BoundForGraphics dispatchKey call) :=
    fun _ call _ h _ => attributed_iff_step h call
  have hstep : ∀ (s : Tracked) (call : LayerCall) (s' : Tracked), s.Tracks dispatchKey →
      s.step dispatchKey call = some s' → s.Attributed dispatchKey call →
      s'.Tracks dispatchKey :=
    fun _ _ _ h hs _ => tracks_step h hs
  exact along_iff_of_invariant (step dispatchKey) hiff hstep (tracks_start hlayer) calls

/-- A layer with one device, before any command. -/
theorem untouched_oneDevice : Untouched (SynapseLayer.oneDevice true) := by
  intro key core hcore cmd
  simp only [SynapseLayer.coreAt, SynapseLayer.oneDevice] at hcore
  split at hcore
  · obtain rfl := Option.some_injective _ hcore
    rfl
  · cases hcore

/-- A draw after a bind for graphics. -/
theorem draw_after_graphics_attributed :
    Along (step fun _ => 0) (Attributed fun _ => 0) (start (SynapseLayer.oneDevice true))
      [.state 0 (.bindPipeline 1 bindPointGraphics 7), .work 0 .Oracle (.draw 1 3 1 0 0)] := by
  refine (attributed_iff _ _ _ untouched_oneDevice).mpr ?_
  rw [along_cons]
  intro s hs
  obtain rfl := Option.some_injective _ hs
  rw [along_cons]
  exact ⟨trivial, fun _ _ => ⟨fun _ _ => rfl, along_nil _ _ _⟩⟩

/-- A pipeline bound for compute between the bind and the draw takes the draw. -/
theorem draw_attributed_to_compute :
    ¬ Along (step fun _ => 0) (Attributed fun _ => 0) (start (SynapseLayer.oneDevice true))
      [.state 0 (.bindPipeline 1 bindPointGraphics 7), .state 0 (.bindPipeline 1 1 9),
        .work 0 .Oracle (.draw 1 3 1 0 0)] := by
  intro h
  have hdraw := h [.state 0 (.bindPipeline 1 bindPointGraphics 7), .state 0 (.bindPipeline 1 1 9)]
    (.work 0 .Oracle (.draw 1 3 1 0 0)) [] rfl _ _ rfl rfl _ rfl trivial
  exact absurd hdraw (by decide)

end Tracked

end Layer

end Synapse
