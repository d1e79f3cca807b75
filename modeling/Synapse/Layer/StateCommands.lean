import Synapse.Core.SynapseCore

/-!
# The layer's hooks for state commands

`layer_entry.cpp` keeps a table of devices, found by the dispatch key of a handle.
The hooks of the four state commands have one shape: give the core of the device
its part if there is a live one, then call the next layer if there is an entry
point.  They differ in what the core's part is.

For pipelines the core takes a note, for shader objects it does nothing.  For push
constants and descriptor sets it calls the handler of the core, and that handler
calls the next layer itself.  So with a live core these two reach the next layer
twice (`received_run`, `exactly_once_iff`).

### What a hook adds

Both the core and the next layer are called through pointers that may be null, so a hook has
four cases, and a statement about what is received needs to know which.  The core's part of a
hook is a parameter (`CoreMethod`) with what it may do to the pointers as a field; a method
either sends one command of its own or none (`Sends`, `Silent`), and the number of calls that
reach the next layer follows from that and the hook's shape.  `Registered` excludes the nulls,
which the loader does as well.
-/

namespace Synapse.Layer

open ByteRecords

/-- `void*`, the first word behind a dispatchable handle. -/
abbrev DispatchKey := UInt64

/-- `DeviceCtx`: the entry points of the next layer and the core, which is built on
the same entry points. -/
structure DeviceCtx where
  orig : OrigPointers
  origBindPipeline : Bool
  origBindShaders : Bool
  core : Option SynapseCore
  core_orig : ∀ c, core = some c → c.orig = orig

/-- A method of the core that leaves its entry points alone. -/
structure CoreMethod where
  run : SynapseCore → SynapseCore
  orig_run : ∀ core, (run core).orig = core.orig

/-- The device table, and what the next layer has received from the layer and from
all its cores. -/
structure SynapseLayer where
  devices : DispatchKey → Option DeviceCtx
  received : List DriverCall

namespace DeviceCtx

/-- Call a method of a live core. -/
def callCore (method : CoreMethod) (ctx : DeviceCtx) : DeviceCtx :=
  { ctx with
    core := ctx.core.map method.run
    core_orig := by
      intro c hc
      obtain ⟨core, hcore, rfl⟩ := Option.map_eq_some_iff.mp hc
      rw [method.orig_run, ctx.core_orig core hcore] }

/-- What the core adds to its own calls during a method. -/
def coreCalls (method : CoreMethod) (ctx : DeviceCtx) : List DriverCall :=
  (ctx.core.map fun core => (method.run core).driver.drop core.driver.length).getD []

end DeviceCtx

namespace CoreMethod

/-- The method calls the next layer with the given command, provided it has the
entry point. -/
def Sends (method : CoreMethod) (pointer : OrigPointers → Bool) (command : StateCommand) : Prop :=
  ∀ core : SynapseCore, pointer core.orig = true →
    (method.run core).driver = core.driver ++ [.state command]

/-- The method calls nobody. -/
def Silent (method : CoreMethod) : Prop :=
  ∀ core : SynapseCore, (method.run core).driver = core.driver

/-- The handler of push constants as the core's part of a hook. -/
def handlePushConstants (now : UInt64) (cmd : VkCommandBuffer) (layout : VkPipelineLayout)
    (stageFlags offset size : UInt32) (pValues : Option Bytes) : CoreMethod where
  run core := core.handlePushConstants now cmd layout stageFlags offset size pValues
  orig_run core := by
    obtain ⟨recovery, walOps, hlog⟩ := core.walLog_frame now .pushConstants pValues (min size 240)
    unfold SynapseCore.handlePushConstants SynapseCore.forwardIf
    rw [hlog]
    split <;> rfl

/-- The handler of descriptor sets. -/
def handleBindDescriptorSets (now : UInt64) (cmd : VkCommandBuffer) (bindPoint : UInt32)
    (layout : VkPipelineLayout) (firstSet : UInt32) (pDescriptorSets : List VkDescriptorSet)
    (pDynamicOffsets : List UInt32) : CoreMethod where
  run core := core.handleBindDescriptorSets now cmd bindPoint layout firstSet pDescriptorSets
    pDynamicOffsets
  orig_run core := by
    obtain ⟨cmdState, hnotify⟩ := core.notifyBindDescriptorSets_frame cmd pDescriptorSets firstSet
    obtain ⟨recovery, walOps, hlog⟩ :=
      (SynapseCore.notifyBindDescriptorSets cmd firstSet pDescriptorSets core).walLog_frame now
        .bindDescriptorSets none 0
    unfold SynapseCore.handleBindDescriptorSets SynapseCore.forwardIf
    dsimp only
    rw [hlog, hnotify]
    split <;> rfl

/-- `notify_bind_pipeline` with the handle as the shader hash. -/
def notifyBindPipeline (cmd : VkCommandBuffer) (pipeline : VkPipeline) : CoreMethod where
  run core := core.notifyBindPipeline cmd pipeline pipeline
  orig_run _ := rfl

/-- No call at all. -/
def idle : CoreMethod where
  run core := core
  orig_run _ := rfl

/-- It calls the next layer itself. -/
theorem handlePushConstants_sends (now : UInt64) (cmd : VkCommandBuffer)
    (layout : VkPipelineLayout) (stageFlags offset size : UInt32) (pValues : Option Bytes) :
    (handlePushConstants now cmd layout stageFlags offset size pValues).Sends
      OrigPointers.pushConstants
      (.pushConstants cmd layout stageFlags offset size pValues) := by
  intro core horig
  obtain ⟨recovery, walOps, hlog⟩ := core.walLog_frame now .pushConstants pValues (min size 240)
  simp only [handlePushConstants, SynapseCore.handlePushConstants, SynapseCore.forwardIf, horig,
    if_true, hlog]
  rfl

/-- So does this one. -/
theorem handleBindDescriptorSets_sends (now : UInt64) (cmd : VkCommandBuffer) (bindPoint : UInt32)
    (layout : VkPipelineLayout) (firstSet : UInt32) (pDescriptorSets : List VkDescriptorSet)
    (pDynamicOffsets : List UInt32) :
    (handleBindDescriptorSets now cmd bindPoint layout firstSet pDescriptorSets
      pDynamicOffsets).Sends OrigPointers.bindDescriptorSets
      (.bindDescriptorSets cmd bindPoint layout firstSet pDescriptorSets pDynamicOffsets) := by
  intro core horig
  obtain ⟨cmdState, hnotify⟩ := core.notifyBindDescriptorSets_frame cmd pDescriptorSets firstSet
  obtain ⟨recovery, walOps, hlog⟩ :=
    (SynapseCore.notifyBindDescriptorSets cmd firstSet pDescriptorSets core).walLog_frame now
      .bindDescriptorSets none 0
  simp only [handleBindDescriptorSets, SynapseCore.handleBindDescriptorSets,
    SynapseCore.forwardIf, hlog]
  simp only [hnotify, horig, if_true]
  rfl

/-- The note of a pipeline calls nobody. -/
theorem notifyBindPipeline_silent (cmd : VkCommandBuffer) (pipeline : VkPipeline) :
    (notifyBindPipeline cmd pipeline).Silent := fun _ => rfl

/-- Nor does doing nothing. -/
theorem idle_silent : idle.Silent := fun _ => rfl

end CoreMethod

/-- The command buffer of a state command. -/
def cmdOf : StateCommand → VkCommandBuffer
  | .pushConstants cmd _ _ _ _ _ => cmd
  | .bindDescriptorSets cmd _ _ _ _ _ => cmd
  | .bindPipeline cmd _ _ => cmd
  | .bindShadersEXT cmd _ _ => cmd

/-- The entry point a state command needs is there. -/
def DeviceCtx.hasEntryPoint (ctx : DeviceCtx) : StateCommand → Bool
  | .pushConstants .. => ctx.orig.pushConstants
  | .bindDescriptorSets .. => ctx.orig.bindDescriptorSets
  | .bindPipeline .. => ctx.origBindPipeline
  | .bindShadersEXT .. => ctx.origBindShaders

namespace SynapseLayer

variable (dispatchKey : VkCommandBuffer → DispatchKey)

/-- The hooks: the core's part, then the next layer's. -/
def hook (method : CoreMethod) (command : StateCommand) (layer : SynapseLayer) : SynapseLayer :=
  match layer.devices (dispatchKey (cmdOf command)) with
  | none => layer
  | some ctx =>
      { devices := Function.update layer.devices (dispatchKey (cmdOf command))
          (some (ctx.callCore method))
        received := layer.received ++ ctx.coreCalls method ++
          if ctx.hasEntryPoint command then [.state command] else [] }

/-- `vkCmdPushConstants` -/
def vkCmdPushConstants (now : UInt64) (cmd : VkCommandBuffer) (layout : VkPipelineLayout)
    (stageFlags offset size : UInt32) (pValues : Option Bytes) (layer : SynapseLayer) :
    SynapseLayer :=
  layer.hook dispatchKey (.handlePushConstants now cmd layout stageFlags offset size pValues)
    (.pushConstants cmd layout stageFlags offset size pValues)

/-- `vkCmdBindDescriptorSets` -/
def vkCmdBindDescriptorSets (now : UInt64) (cmd : VkCommandBuffer) (bindPoint : UInt32)
    (layout : VkPipelineLayout) (firstSet : UInt32) (pDescriptorSets : List VkDescriptorSet)
    (pDynamicOffsets : List UInt32) (layer : SynapseLayer) : SynapseLayer :=
  layer.hook dispatchKey
    (.handleBindDescriptorSets now cmd bindPoint layout firstSet pDescriptorSets pDynamicOffsets)
    (.bindDescriptorSets cmd bindPoint layout firstSet pDescriptorSets pDynamicOffsets)

/-- `vkCmdBindPipeline` -/
def vkCmdBindPipeline (cmd : VkCommandBuffer) (pipelineBindPoint : UInt32) (pipeline : VkPipeline)
    (layer : SynapseLayer) : SynapseLayer :=
  layer.hook dispatchKey (.notifyBindPipeline cmd pipeline)
    (.bindPipeline cmd pipelineBindPoint pipeline)

/-- `vkCmdBindShadersEXT` -/
def vkCmdBindShadersEXT (cmd : VkCommandBuffer) (pStages : List UInt32)
    (pShaders : Option (List VkShaderEXT)) (layer : SynapseLayer) : SynapseLayer :=
  layer.hook dispatchKey .idle (.bindShadersEXT cmd pStages pShaders)

/-- One call of the application, at time `now`. -/
def call (now : UInt64) (command : StateCommand) (layer : SynapseLayer) : SynapseLayer :=
  match command with
  | .pushConstants cmd layout stageFlags offset size pValues =>
      layer.vkCmdPushConstants dispatchKey now cmd layout stageFlags offset size pValues
  | .bindDescriptorSets cmd bindPoint layout firstSet pDescriptorSets pDynamicOffsets =>
      layer.vkCmdBindDescriptorSets dispatchKey now cmd bindPoint layout firstSet pDescriptorSets
        pDynamicOffsets
  | .bindPipeline cmd pipelineBindPoint pipeline =>
      layer.vkCmdBindPipeline dispatchKey cmd pipelineBindPoint pipeline
  | .bindShadersEXT cmd pStages pShaders =>
      layer.vkCmdBindShadersEXT dispatchKey cmd pStages pShaders

/-- Several calls in a row, each with its time. -/
def run (calls : List (UInt64 × StateCommand)) (layer : SynapseLayer) : SynapseLayer :=
  calls.foldl (fun layer c => layer.call dispatchKey c.1 c.2) layer

end SynapseLayer

/-! ## What stays the same -/

/-- What a call of the application does not change about a device. -/
structure DeviceCtx.Like (ctx ctx' : DeviceCtx) : Prop where
  orig : ctx'.orig = ctx.orig
  origBindPipeline : ctx'.origBindPipeline = ctx.origBindPipeline
  origBindShaders : ctx'.origBindShaders = ctx.origBindShaders
  live : ctx'.core.isSome = ctx.core.isSome

/-- A device has the entry points that it has. -/
theorem DeviceCtx.like_refl (ctx : DeviceCtx) : ctx.Like ctx := ⟨rfl, rfl, rfl, rfl⟩

/-- Calling its core changes none of them. -/
theorem DeviceCtx.like_callCore (method : CoreMethod) (ctx : DeviceCtx) :
    ctx.Like (ctx.callCore method) := ⟨rfl, rfl, rfl, Option.isSome_map⟩

/-- So the next layer can still be called. -/
theorem DeviceCtx.Like.hasEntryPoint {ctx ctx' : DeviceCtx} (h : ctx.Like ctx')
    (command : StateCommand) : ctx'.hasEntryPoint command = ctx.hasEntryPoint command := by
  cases command with
  | pushConstants => exact congrArg OrigPointers.pushConstants h.orig
  | bindDescriptorSets => exact congrArg OrigPointers.bindDescriptorSets h.orig
  | bindPipeline => exact h.origBindPipeline
  | bindShadersEXT => exact h.origBindShaders

/-- The core has a handler for the command that calls the next layer. -/
def isHandledByCore : StateCommand → Bool
  | .pushConstants .. => true
  | .bindDescriptorSets .. => true
  | .bindPipeline .. => false
  | .bindShadersEXT .. => false

namespace SynapseLayer

variable (dispatchKey : VkCommandBuffer → DispatchKey) {layer : SynapseLayer}

/-- The device of the command is in the table, and the next layer has the entry
point. -/
def Registered (layer : SynapseLayer) (command : StateCommand) : Prop :=
  ∃ ctx, layer.devices (dispatchKey (cmdOf command)) = some ctx ∧ ctx.hasEntryPoint command = true

/-- The device of the command has a live core. -/
def isLive (layer : SynapseLayer) (command : StateCommand) : Bool :=
  ((layer.devices (dispatchKey (cmdOf command))).bind DeviceCtx.core).isSome

/-- Every device of one table is like the one of the other under the same key. -/
def Like (layer layer' : SynapseLayer) : Prop :=
  ∀ key ctx, layer.devices key = some ctx → ∃ ctx', layer'.devices key = some ctx' ∧ ctx.Like ctx'

/-- A hook changes no device's entry points. -/
theorem like_hook (layer : SynapseLayer) (method : CoreMethod) (command : StateCommand) :
    layer.Like (layer.hook dispatchKey method command) := by
  intro key ctx hctx
  unfold hook
  split
  · exact ⟨ctx, hctx, ctx.like_refl⟩
  · rename_i ctx₁ hctx₁
    by_cases hkey : key = dispatchKey (cmdOf command)
    · subst hkey
      obtain rfl : ctx₁ = ctx := Option.some_injective _ (hctx₁.symm.trans hctx)
      exact ⟨_, Function.update_self _ _ _, ctx₁.like_callCore method⟩
    · exact ⟨ctx, (Function.update_of_ne hkey _ _).trans hctx, ctx.like_refl⟩

/-- Nor does a command. -/
theorem like_call (layer : SynapseLayer) (now : UInt64) (command : StateCommand) :
    layer.Like (layer.call dispatchKey now command) := by
  cases command <;> exact like_hook _ _ _ _

/-- A device that is registered stays so. -/
theorem Like.registered {layer' : SynapseLayer} (h : layer.Like layer') {command : StateCommand}
    (hreg : layer.Registered dispatchKey command) : layer'.Registered dispatchKey command := by
  obtain ⟨ctx, hctx, hentry⟩ := hreg
  obtain ⟨ctx', hctx', hlike⟩ := h _ _ hctx
  exact ⟨ctx', hctx', (hlike.hasEntryPoint command).trans hentry⟩

/-- And has a core if it had one. -/
theorem Like.isLive {layer' : SynapseLayer} (h : layer.Like layer') {command : StateCommand}
    (hreg : layer.Registered dispatchKey command) :
    layer'.isLive dispatchKey command = layer.isLive dispatchKey command := by
  obtain ⟨ctx, hctx, -⟩ := hreg
  obtain ⟨ctx', hctx', hlike⟩ := h _ _ hctx
  rw [SynapseLayer.isLive, SynapseLayer.isLive, hctx, hctx']
  exact hlike.live

/-! ## What the next layer receives -/

/-- How often the next layer receives a command. -/
def copies (layer : SynapseLayer) (command : StateCommand) : ℕ :=
  if isHandledByCore command && layer.isLive dispatchKey command then 2 else 1

/-- What the next layer receives: the core's calls, and then the hook's own. -/
theorem received_hook (method : CoreMethod) {command : StateCommand} {ctx : DeviceCtx}
    (hctx : layer.devices (dispatchKey (cmdOf command)) = some ctx)
    (hentry : ctx.hasEntryPoint command = true) :
    (layer.hook dispatchKey method command).received =
      layer.received ++ ctx.coreCalls method ++ [.state command] := by
  unfold hook
  rw [hctx]
  dsimp only
  rw [if_pos hentry]

/-- A silent method adds nothing. -/
theorem coreCalls_of_silent {method : CoreMethod} (h : method.Silent) (ctx : DeviceCtx) :
    ctx.coreCalls method = [] := by
  rw [DeviceCtx.coreCalls]
  cases ctx.core with
  | none => rfl
  | some core => simp [h core]

/-- A method that sends adds its command, if there is a core. -/
theorem coreCalls_of_sends {method : CoreMethod} {pointer : OrigPointers → Bool}
    {command : StateCommand} (h : method.Sends pointer command) {ctx : DeviceCtx}
    (hpointer : pointer ctx.orig = true) :
    ctx.coreCalls method = if ctx.core.isSome then [.state command] else [] := by
  rw [DeviceCtx.coreCalls]
  cases hcore : ctx.core with
  | none => rfl
  | some core =>
      rw [← ctx.core_orig core hcore] at hpointer
      simp [h core hpointer]

/-- One call reaches the next layer once, or twice if the core passes it on as
well. -/
theorem received_call (now : UInt64) {command : StateCommand}
    (hreg : layer.Registered dispatchKey command) :
    (layer.call dispatchKey now command).received =
      layer.received ++ List.replicate (layer.copies dispatchKey command) (.state command) := by
  obtain ⟨ctx, hctx, hentry⟩ := hreg
  have hlive : layer.isLive dispatchKey command = ctx.core.isSome := by
    rw [isLive, hctx]
    rfl
  rw [copies, hlive]
  cases command with
  | pushConstants cmd layout stageFlags offset size pValues =>
      have hsends := CoreMethod.handlePushConstants_sends now cmd layout stageFlags offset size
        pValues
      rw [call, vkCmdPushConstants, received_hook dispatchKey _ hctx hentry,
        coreCalls_of_sends hsends hentry]
      cases ctx.core.isSome <;> simp [isHandledByCore]
  | bindDescriptorSets cmd bindPoint layout firstSet pDescriptorSets pDynamicOffsets =>
      have hsends := CoreMethod.handleBindDescriptorSets_sends now cmd bindPoint layout firstSet
        pDescriptorSets pDynamicOffsets
      rw [call, vkCmdBindDescriptorSets, received_hook dispatchKey _ hctx hentry,
        coreCalls_of_sends hsends hentry]
      cases ctx.core.isSome <;> simp [isHandledByCore]
  | bindPipeline cmd pipelineBindPoint pipeline =>
      have hsilent := CoreMethod.notifyBindPipeline_silent cmd pipeline
      rw [call, vkCmdBindPipeline, received_hook dispatchKey _ hctx hentry,
        coreCalls_of_silent hsilent]
      simp [isHandledByCore]
  | bindShadersEXT cmd pStages pShaders =>
      rw [call, vkCmdBindShadersEXT, received_hook dispatchKey _ hctx hentry,
        coreCalls_of_silent CoreMethod.idle_silent]
      simp [isHandledByCore]

/-- **A run of calls.**  Each command arrives its number of times, in order. -/
theorem received_run (calls : List (UInt64 × StateCommand)) {layer : SynapseLayer}
    (hreg : ∀ c ∈ calls, layer.Registered dispatchKey c.2) :
    (layer.run dispatchKey calls).received = layer.received ++
      calls.flatMap fun c => List.replicate (layer.copies dispatchKey c.2) (.state c.2) := by
  induction calls generalizing layer with
  | nil => simp [run]
  | cons c calls ih =>
      obtain ⟨hhead, hrest⟩ := List.forall_mem_cons.mp hreg
      have hlike := layer.like_call dispatchKey c.1 c.2
      have hcopies : ∀ c' ∈ calls, (layer.call dispatchKey c.1 c.2).copies dispatchKey c'.2 =
          layer.copies dispatchKey c'.2 := by
        intro c' hc'
        rw [copies, copies, hlike.isLive dispatchKey (hrest c' hc')]
      have hreg' : ∀ c' ∈ calls,
          (layer.call dispatchKey c.1 c.2).Registered dispatchKey c'.2 :=
        fun c' hc' => hlike.registered dispatchKey (hrest c' hc')
      -- the first call leaves every device alive or not, as it was
      have hrun := ih hreg'
      rw [run, List.foldl_cons, ← run, hrun, received_call dispatchKey c.1 hhead,
        List.flatMap_cons, List.append_assoc]
      congr 2
      exact List.flatMap_congr fun c' hc' => by rw [hcopies c' hc']

/-! ## Exactly once -/

section Copies

variable {α β : Type*} {f : α → β} {n : α → ℕ}

private theorem length_le_flatMap_replicate {l : List α} (hpos : ∀ a ∈ l, 0 < n a) :
    l.length ≤ (l.flatMap fun a => List.replicate (n a) (f a)).length := by
  induction l with
  | nil => exact Nat.zero_le _
  | cons a l ih =>
      obtain ⟨ha, hl⟩ := List.forall_mem_cons.mp hpos
      have hrest := ih hl
      rw [List.flatMap_cons, List.length_append, List.length_replicate, List.length_cons]
      omega

/-- A list in which everything is repeated at least once is the plain one exactly
when nothing is repeated more often. -/
theorem flatMap_replicate_eq_map_iff {l : List α} (hpos : ∀ a ∈ l, 0 < n a) :
    (l.flatMap fun a => List.replicate (n a) (f a)) = l.map f ↔ ∀ a ∈ l, n a = 1 := by
  induction l with
  | nil => simp
  | cons a l ih =>
      obtain ⟨ha, hl⟩ := List.forall_mem_cons.mp hpos
      rw [List.forall_mem_cons, ← ih hl, List.flatMap_cons, List.map_cons]
      constructor
      · intro heq
        have hlen := congrArg List.length heq
        have hle := length_le_flatMap_replicate (f := f) hl
        rw [List.length_append, List.length_replicate, List.length_cons, List.length_map] at hlen
        have hone : n a = 1 := by omega
        rw [hone] at heq
        exact ⟨hone, (List.cons.inj heq).2⟩
      · rintro ⟨hone, heq⟩
        rw [hone, heq]
        rfl

end Copies

/-- **Each call arrives exactly once, in order, exactly when** the calls the core has a
handler for come on devices without a live core. -/
theorem exactly_once_iff (layer : SynapseLayer) (calls : List (UInt64 × StateCommand))
    (hreg : ∀ c ∈ calls, layer.Registered dispatchKey c.2) :
    (layer.run dispatchKey calls).received =
        layer.received ++ calls.map (fun c => DriverCall.state c.2) ↔
      ∀ c ∈ calls, isHandledByCore c.2 = true → layer.isLive dispatchKey c.2 = false := by
  have hpos : ∀ c ∈ calls, 0 < layer.copies dispatchKey c.2 := by
    intro c _
    unfold copies
    split <;> decide
  rw [received_run dispatchKey calls hreg, List.append_right_inj,
    flatMap_replicate_eq_map_iff hpos]
  refine forall₂_congr fun c _ => ?_
  unfold copies
  cases isHandledByCore c.2 <;> cases layer.isLive dispatchKey c.2 <;> simp

/-- A device on a next layer with all the entry points, with or without a core. -/
def fullDevice (live : Bool) : DeviceCtx where
  orig := SynapseCore.onFullDriver.orig
  origBindPipeline := true
  origBindShaders := true
  core := if live then some SynapseCore.onFullDriver else none
  core_orig := by
    intro c hc
    cases live with
    | false => cases hc
    | true => rw [← Option.some.inj hc]

/-- A table with one device, under key 0. -/
def oneDevice (live : Bool) : SynapseLayer where
  devices key := if key = 0 then some (fullDevice live) else none
  received := []

/-- A push of four zero bytes. -/
def pushZeros : StateCommand := .pushConstants 0 0 0 0 4 (some [0, 0, 0, 0])

/-- One device, at the key of every handle. -/
theorem devices_oneDevice (live : Bool) :
    (oneDevice live).devices (id (cmdOf pushZeros)) = some (fullDevice live) := by
  have hkey : id (cmdOf pushZeros) = 0 := rfl
  rw [hkey, oneDevice]
  rfl

/-- It has all entry points. -/
theorem registered_pushZeros (live : Bool) :
    ∀ c ∈ [((0 : UInt64), pushZeros)], (oneDevice live).Registered id c.2 := by
  intro c hc
  rw [List.mem_singleton.mp hc]
  exact ⟨fullDevice live, devices_oneDevice live, rfl⟩

/-- It has a core or none, as is said. -/
theorem isLive_pushZeros (live : Bool) : (oneDevice live).isLive id pushZeros = live := by
  rw [isLive, devices_oneDevice]
  cases live <;> rfl

/-- Without a live core, a push arrives once. -/
theorem push_without_core_once :
    ((oneDevice false).run id [(0, pushZeros)]).received =
      (oneDevice false).received ++ [(0, pushZeros)].map fun c => DriverCall.state c.2 := by
  refine (exactly_once_iff id (oneDevice false) [(0, pushZeros)]
    (registered_pushZeros false)).mpr ?_
  intro c hc _
  rw [List.mem_singleton.mp hc]
  exact isLive_pushZeros false

/-- With a live core, it arrives twice. -/
theorem push_with_core_twice :
    ((oneDevice true).run id [(0, pushZeros)]).received ≠
      (oneDevice true).received ++ [(0, pushZeros)].map fun c => DriverCall.state c.2 := by
  intro heq
  have hcopies : (oneDevice true).copies id pushZeros = 2 := by
    rw [copies, isLive_pushZeros]
    rfl
  rw [received_run id _ (registered_pushZeros true), List.append_right_inj,
    List.flatMap_singleton, hcopies] at heq
  cases heq

end SynapseLayer

end Synapse.Layer
