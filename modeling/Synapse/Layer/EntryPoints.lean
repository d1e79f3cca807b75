import Synapse.Core.AnalyzerThread
import Synapse.Foundations.KeyedObjects
import Synapse.Layer.StateCommands

/-!
# The layer between the loader and the next layer

`vkCreateInstance`, `vkDestroyInstance`, `vkCreateDevice` and `vkDestroyDevice` of
`layer_entry.cpp` with the two tables they keep, any number of calls at once, and
`vkGetInstanceProcAddr` and `vkGetDeviceProcAddr`, which read the tables.  The loader may
put a new object's dispatch table where that of a destroyed one was, so that its dispatch
key comes back.

Both pairs of calls have one shape, that of `KeyedObjects`: they take their entry of the
loader's chain, call the next layer without a lock, and change the table under one.  A
device has a core, which takes the steps of `AnalyzedCore`.  What cores share through the
files of the data directory is with the steps of `setup`.
-/

namespace Synapse.Layer

open KeyedObjects Runs

/-- Instance handles. -/
abbrev VkInstance := UInt64

/-- Device handles. -/
abbrev VkDevice := UInt64

/-- A `vkGet…ProcAddr`: the function of a name, for a handle. -/
abbrev GetProcAddr (F : Type) := UInt64 → String → Option F

/-- `VkLayerInstanceLink` and `VkLayerDeviceLink`: the functions of the next layer. -/
structure LayerLink (F : Type) where
  pfnNextGetInstanceProcAddr : GetProcAddr F
  pfnNextGetDeviceProcAddr : GetProcAddr F

/-- A structure in the `pNext` chain of a create info.  Loader create infos are those for
the kind of object that is created. -/
inductive PNextNode (F : Type) where
  | loaderCreateInfo (function : UInt32) (pLayerInfo : List (LayerLink F))
  | other (sType : UInt32)

/-- `VK_LAYER_LINK_INFO`. -/
def vkLayerLinkInfo : UInt32 := 0

variable {F : Type}

/-- The link that the call takes and the chain that it passes on.  Where the first link info
has no entry left the code reads through a null pointer. -/
def takeLink : List (PNextNode F) → Option (LayerLink F × List (PNextNode F))
  | [] => none
  | .other sType :: rest => (takeLink rest).map fun r => (r.1, .other sType :: r.2)
  | .loaderCreateInfo function pLayerInfo :: rest =>
      if function = vkLayerLinkInfo then
        match pLayerInfo with
        | [] => none
        | link :: links => some (link, .loaderCreateInfo function links :: rest)
      else
        (takeLink rest).map fun r => (r.1, .loaderCreateInfo function pLayerInfo :: r.2)

/-- A create info whose link leads to a create function.  With any other the call fails
before it reaches the next layer. -/
structure LinkedCreateInfo (F : Type) (createName : String) where
  pNext : List (PNextNode F)
  link : LayerLink F
  passedOn : List (PNextNode F)
  taken : takeLink pNext = some (link, passedOn)
  creates : (link.pfnNextGetInstanceProcAddr 0 createName).isSome

/-- The start of `vkCreateInstance` and `vkCreateDevice`: the link is taken off the chain, and
the create function is asked for.  None if the call returns `VK_ERROR_INITIALIZATION_FAILED`
without having called the next layer. -/
def LinkedCreateInfo.ofChain (createName : String) (pNext : List (PNextNode F)) :
    Option (LinkedCreateInfo F createName) :=
  match htaken : takeLink pNext with
  | none => none
  | some (link, passedOn) =>
      if hcreates : (link.pfnNextGetInstanceProcAddr 0 createName).isSome then
        some ⟨pNext, link, passedOn, htaken, hcreates⟩
      else none

/-- A create info that leads to a create function is what its own chain gives. -/
theorem LinkedCreateInfo.ofChain_pNext {createName : String}
    (c : LinkedCreateInfo F createName) : ofChain createName c.pNext = some c := by
  obtain ⟨pNext, link, passedOn, taken, creates⟩ := c
  unfold ofChain
  split
  · rename_i hnone
    cases hnone.symm.trans taken
  · rename_i link' passedOn' htaken
    obtain ⟨rfl, rfl⟩ := Prod.mk.inj (Option.some_injective _ (htaken.symm.trans taken))
    rw [dif_pos creates]

/-! ## Instances and devices -/

/-- What an instance is created with. -/
abbrev InstanceCreation (F : Type) := LinkedCreateInfo F "vkCreateInstance"

/-- What a device is created with, and whether the profile found then is aggressive. -/
structure DeviceCreation (F : Type) where
  createInfo : LinkedCreateInfo F "vkCreateDevice"
  mlAggressive : Bool

/-- `next_gipa` of an instance. -/
def InstanceCreation.nextGipa (c : InstanceCreation F) : GetProcAddr F :=
  c.link.pfnNextGetInstanceProcAddr

/-- `next_gdpa` of a device. -/
def DeviceCreation.nextGdpa (c : DeviceCreation F) : GetProcAddr F :=
  c.createInfo.link.pfnNextGetDeviceProcAddr

/-- The entry points that the core is built on. -/
def DeviceCreation.orig (c : DeviceCreation F) (device : VkDevice) : OrigPointers where
  drawIndexed := (c.nextGdpa device "vkCmdDrawIndexed").isSome
  draw := (c.nextGdpa device "vkCmdDraw").isSome
  dispatch := (c.nextGdpa device "vkCmdDispatch").isSome
  pushConstants := (c.nextGdpa device "vkCmdPushConstants").isSome
  bindDescriptorSets := (c.nextGdpa device "vkCmdBindDescriptorSets").isSome

/-- `InstanceCtx`, which nothing changes. -/
def instanceInterface : Interface VkInstance (InstanceCreation F) F Unit Unit where
  init _ _ := ()
  act _ _ := ()
  destroyer c instanceHandle := c.nextGipa instanceHandle "vkDestroyInstance"

/-- `DeviceCtx`.  A step that the core cannot take leaves it as it is. -/
def deviceInterface :
    Interface VkDevice (DeviceCreation F) F AnalyzedCore AnalyzedCore.Action where
  init c device := AnalyzedCore.create (c.orig device) c.mlAggressive
  act core a := (core.step a).getD core
  destroyer c device := c.nextGdpa device "vkDestroyDevice"

/-- `g_instances` and `g_devices`. -/
structure LayerEntry (F : Type) where
  instances : System VkInstance DispatchKey (InstanceCreation F) F Unit Unit
  devices : System VkDevice DispatchKey (DeviceCreation F) F AnalyzedCore AnalyzedCore.Action

namespace LayerEntry

/-- A call of `vkCreateInstance` or `vkCreateDevice` with the chain of its create info, or a
later step of a call, a command or a destruction. -/
inductive Action (F : Type) where
  | createInstance (pNext : List (PNextNode F))
  | createDevice (pNext : List (PNextNode F)) (mlAggressive : Bool)
  | instances (a : System.Action VkInstance DispatchKey (InstanceCreation F) Unit)
  | devices (a : System.Action VkDevice DispatchKey (DeviceCreation F) AnalyzedCore.Action)

/-- The layer when it is loaded. -/
def empty : LayerEntry F := ⟨.empty, .empty⟩

/-- A creation begins with the chain; one that finds no create function there returns at once
and changes nothing. -/
def step (s : LayerEntry F) : Action F → Option (LayerEntry F)
  | .createInstance pNext =>
      (LinkedCreateInfo.ofChain "vkCreateInstance" pNext).elim (some s) fun createInfo =>
        (s.instances.step instanceInterface (.create createInfo)).map fun instances =>
          { s with instances := instances }
  | .createDevice pNext mlAggressive =>
      (LinkedCreateInfo.ofChain "vkCreateDevice" pNext).elim (some s) fun createInfo =>
        (s.devices.step deviceInterface (.create ⟨createInfo, mlAggressive⟩)).map fun devices =>
          { s with devices := devices }
  | .instances a => (s.instances.step instanceInterface a).map fun instances =>
      { s with instances := instances }
  | .devices a => (s.devices.step deviceInterface a).map fun devices =>
      { s with devices := devices }

/-! ## Entry points by name -/

/-- What a `vkGet…ProcAddr` of the layer returns: a function of the layer under its name,
one of the next layer, or null. -/
inductive ProcAddr (F : Type) where
  | layer (pName : String)
  | next (f : F)
  | null

/-- What the next layer has returned. -/
def ProcAddr.ofNext : Option F → ProcAddr F
  | some f => .next f
  | none => .null

/-- The names that `vkGetDeviceProcAddr` intercepts. -/
def deviceHooks : List String :=
  ["vkGetDeviceProcAddr", "vkCreateDevice", "vkDestroyDevice", "vkCmdDrawIndexed", "vkCmdDraw",
    "vkCmdDispatch", "vkCmdBindPipeline", "vkCmdBindDescriptorSets", "vkCmdPushConstants",
    "vkFreeCommandBuffers"]

/-- The names that `vkGetInstanceProcAddr` intercepts. -/
def instanceHooks : List String :=
  ["vkGetInstanceProcAddr", "vkCreateInstance", "vkDestroyInstance", "vkGetDeviceProcAddr",
    "vkCreateDevice", "vkDestroyDevice", "vkCmdDrawIndexed", "vkCmdDraw", "vkCmdDispatch",
    "vkCmdPushConstants", "vkCmdBindDescriptorSets", "vkCmdBindPipeline", "vkCmdBindShadersEXT",
    "vkFreeCommandBuffers", "vkCreateImage", "vkDestroyImage"]

def vkGetDeviceProcAddr (s : LayerEntry F) (device : Ref VkDevice DispatchKey)
    (pName : String) : ProcAddr F :=
  if pName ∈ deviceHooks then .layer pName
  else match s.devices.table device.key with
    | some (ctx, _) => .ofNext (ctx.nextGdpa device.handle pName)
    | none => .null

/-- For `VK_NULL_HANDLE` there is no chain. -/
def vkGetInstanceProcAddr (s : LayerEntry F) (instanceRef : Option (Ref VkInstance DispatchKey))
    (pName : String) : ProcAddr F :=
  if pName ∈ instanceHooks then .layer pName
  else match instanceRef with
    | none => .null
    | some ref =>
        match s.instances.table ref.key with
        | some (ctx, _) => .ofNext (ctx.nextGipa ref.handle pName)
        | none => .null

/-! ## What holds between the steps -/

variable {s s' : LayerEntry F}

/-- Both tables are. -/
structure Consistent (s : LayerEntry F) : Prop where
  instances : s.instances.Consistent instanceInterface
  devices : s.devices.Consistent deviceInterface

/-- The empty tables are consistent. -/
theorem consistent_empty : (empty : LayerEntry F).Consistent :=
  ⟨System.consistent_empty, System.consistent_empty⟩

/-- A step of the instances. -/
theorem Consistent.stepInstances (h : s.Consistent)
    {a : System.Action VkInstance DispatchKey (InstanceCreation F) Unit}
    (hstep : ((s.instances.step instanceInterface a).map fun instances =>
      { s with instances := instances }) = some s') : s'.Consistent := by
  obtain ⟨instances, hinstances, rfl⟩ := Option.map_eq_some_iff.mp hstep
  exact ⟨System.consistent_step h.instances hinstances, h.devices⟩

/-- A step of the devices. -/
theorem Consistent.stepDevices (h : s.Consistent)
    {a : System.Action VkDevice DispatchKey (DeviceCreation F) AnalyzedCore.Action}
    (hstep : ((s.devices.step deviceInterface a).map fun devices =>
      { s with devices := devices }) = some s') : s'.Consistent := by
  obtain ⟨devices, hdevices, rfl⟩ := Option.map_eq_some_iff.mp hstep
  exact ⟨h.instances, System.consistent_step h.devices hdevices⟩

/-- Each step of any call keeps both tables consistent. -/
theorem consistent_step {a : Action F} (h : s.Consistent) (hstep : s.step a = some s') :
    s'.Consistent := by
  cases a with
  | createInstance pNext =>
      rw [step] at hstep
      cases hchain : LinkedCreateInfo.ofChain "vkCreateInstance" pNext with
      | none =>
          rw [hchain] at hstep
          obtain rfl := Option.some_injective _ hstep
          exact h
      | some createInfo =>
          rw [hchain, Option.elim_some] at hstep
          exact h.stepInstances hstep
  | createDevice pNext mlAggressive =>
      rw [step] at hstep
      cases hchain : LinkedCreateInfo.ofChain "vkCreateDevice" pNext with
      | none =>
          rw [hchain] at hstep
          obtain rfl := Option.some_injective _ hstep
          exact h
      | some createInfo =>
          rw [hchain, Option.elim_some] at hstep
          exact h.stepDevices hstep
  | instances a => exact h.stepInstances hstep
  | devices a => exact h.stepDevices hstep

/-- So they are after every run. -/
theorem consistent_of_exec {actions : List (Action F)} (h : exec step empty actions = some s) :
    s.Consistent :=
  invariant_of_exec step (fun _ _ _ hs ha => consistent_step hs ha) consistent_empty h

/-- **Names lead to the next layer of the object's own creation**, whatever its dispatch key
stood for before: all names but those that the layer intercepts. -/
theorem names_resolved {actions : List (Action F)} (h : exec step empty actions = some s) :
    (∀ ref ∈ s.instances.owned, ∃ o, s.instances.objects ref.key = some o ∧
      o.handle = ref.handle ∧ ∀ pName, s.vkGetInstanceProcAddr (some ref) pName =
        if pName ∈ instanceHooks then .layer pName
        else .ofNext (o.context.nextGipa ref.handle pName)) ∧
      ∀ ref ∈ s.devices.owned, ∃ o, s.devices.objects ref.key = some o ∧
        o.handle = ref.handle ∧ ∀ pName, s.vkGetDeviceProcAddr ref pName =
          if pName ∈ deviceHooks then .layer pName
          else .ofNext (o.context.nextGdpa ref.handle pName) := by
  have hconsistent := consistent_of_exec h
  constructor
  · intro ref howned
    obtain ⟨o, ho, hhandle, hentry⟩ := hconsistent.instances.entry_of_owned howned
    refine ⟨o, ho, hhandle, fun pName => ?_⟩
    rw [vkGetInstanceProcAddr, hentry]
    rfl
  · intro ref howned
    obtain ⟨o, ho, hhandle, hentry⟩ := hconsistent.devices.entry_of_owned howned
    refine ⟨o, ho, hhandle, fun pName => ?_⟩
    rw [vkGetDeviceProcAddr, hentry]
    rfl

/-- Links whose functions all are `f`. -/
def uniformLink (f : ℕ) : LayerLink ℕ := ⟨fun _ _ => some f, fun _ _ => some f⟩

/-- The chain of a device on such a link, behind a structure of somebody else. -/
def chainTo (f : ℕ) : List (PNextNode ℕ) := [.other 1, .loaderCreateInfo 0 [uniformLink f]]

/-- A device comes and goes, and the next one, on another layer, gets its dispatch key.  In
between a creation fails for the want of a link. -/
def keyReused : List (Action ℕ) :=
  [.createDevice (chainTo 1) true, .devices (.answer 0 (some ⟨10, 7⟩)), .devices (.register 0),
    .devices (.destroy ⟨10, 7⟩), .devices (.remove 1), .createDevice [.other 1] true,
    .devices (.forward 1), .createDevice (chainTo 2) true,
    .devices (.answer 2 (some ⟨11, 7⟩)), .devices (.register 2),
    .devices (.use ⟨11, 7⟩ (.work ⟨0, .Oracle, .draw 1 6 1 0 0⟩))]

theorem names_resolved_key_reused : ∃ s, exec step empty keyReused = some s ∧
    ∃ o, s.devices.objects 7 = some o ∧ o.handle = 11 ∧
      ∀ pName, s.vkGetDeviceProcAddr ⟨11, 7⟩ pName =
        if pName ∈ deviceHooks then .layer pName
        else .ofNext (o.context.nextGdpa 11 pName) := by
  obtain ⟨s, hrun, howned⟩ : ∃ s, exec step empty keyReused = some s ∧
      s.devices.owned = [⟨11, 7⟩] := ⟨_, rfl, rfl⟩
  refine ⟨s, hrun, (names_resolved hrun).2 ⟨11, 7⟩ ?_⟩
  rw [howned]
  exact List.mem_singleton_self _

/-- **Objects go the way they came**: what is destroyed is alive, and is destroyed by the next
layer of its own creation.  When no call is under way the tables have the live objects and
nothing else, up to objects whose layers have no function to destroy them. -/
theorem destroyed_by_own {actions : List (Action F)} (h : exec step empty actions = some s) :
    (∀ e ∈ s.instances.destroyed,
      ∃ o, e.1 = some o ∧ o.context.nextGipa o.handle "vkDestroyInstance" = some e.2) ∧
      (∀ e ∈ s.devices.destroyed,
        ∃ o, e.1 = some o ∧ o.context.nextGdpa o.handle "vkDestroyDevice" = some e.2) ∧
      (s.instances.AtRest → ∀ k,
        s.instances.table k = (s.instances.objects k).map instanceInterface.entry ∨
          ∃ o, s.instances.objects k = some o ∧
            o.context.nextGipa o.handle "vkDestroyInstance" = none) ∧
      (s.devices.AtRest → ∀ k,
        s.devices.table k = (s.devices.objects k).map deviceInterface.entry ∨
          ∃ o, s.devices.objects k = some o ∧
            o.context.nextGdpa o.handle "vkDestroyDevice" = none) := by
  have hconsistent := consistent_of_exec h
  exact ⟨hconsistent.instances.destroyed, hconsistent.devices.destroyed,
    hconsistent.instances.table_at_rest, hconsistent.devices.table_at_rest⟩

theorem destroyed_by_own_key_reused : ∃ s, exec step empty keyReused = some s ∧
    s.devices.destroyed.map Prod.snd = [1] ∧
    ∀ e ∈ s.devices.destroyed,
      ∃ o, e.1 = some o ∧ o.context.nextGdpa o.handle "vkDestroyDevice" = some e.2 := by
  obtain ⟨s, hrun, hdestroyed⟩ : ∃ s, exec step empty keyReused = some s ∧
      s.devices.destroyed.map Prod.snd = [1] := ⟨_, rfl, rfl⟩
  exact ⟨s, hrun, hdestroyed, (destroyed_by_own hrun).2.1⟩

/-! ## The cores of several devices -/

end LayerEntry

end Synapse.Layer
