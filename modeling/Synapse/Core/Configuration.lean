import Synapse.Core.ConfigContent
import Synapse.Core.Frame
import Synapse.Personal.UserProfile
import Synapse.Recovery.CrashRecovery

/-!
# The configured core

`SynapseCore` with the members its configuration methods use: `config_`,
`user_profile_` and the metadata of `recovery_`.  The handlers read the current
snapshot, so a configured core carries that its core has just that view of it.

The table of features is a second copy of three flags of the snapshot.  It is
written after each change of the configuration (`propagate`), but also by
`check_and_recover` and by a missed shader, which know nothing of the flags.
-/

namespace Synapse

open Numerals Atomic Recovery

/-- What `sync_config_from_profile` makes of a snapshot. -/
def OptimizationPlan.apply (plan : OptimizationPlan) (snap : Atomic.ConfigSnapshot) :
    Atomic.ConfigSnapshot :=
  { snap with
    powerBudgetWatts := plan.powerBudgetWatts
    thermalTargetCelsius := plan.thermalTargetCelsius
    mlAggressive := plan.mlAggressive }

/-! ## The core -/

/-- The fields of a snapshot the handlers read. -/
def Atomic.ConfigSnapshot.forHandlers (snap : Atomic.ConfigSnapshot) :
    Synapse.ConfigSnapshot where
  mlAggressive := snap.mlAggressive
  jitEnabled := snap.jitEnabled
  haiEnabled := snap.haiEnabled

structure ConfiguredCore where
  core : SynapseCore
  config : AtomicConfig
  profile : UserProfile
  metadata : RecoveryMetadata
  config_eq : core.config = config.current.forHandlers

/-- `RecoveryInfo`. -/
structure RecoveryInfo where
  crashDetected : Bool := false
  entriesRecovered : UInt64 := 0
  recoveryCount : UInt64 := 0
  deriving DecidableEq, Repr

/-- The flags of a snapshot written to the table of features. -/
def SynapseCore.propagate (snap : Atomic.ConfigSnapshot) (core : SynapseCore) : SynapseCore :=
  ((core.handleFeatureError "jit" (if snap.jitEnabled then 0 else 2)).handleFeatureError "hai"
    (if snap.haiEnabled then 0 else 2)).handleFeatureError "telemetry"
    (if snap.telemetryEnabled then 0 else 2)

namespace ConfiguredCore

/-- The core after a step that leaves the configuration alone. -/
def mapCore (c : ConfiguredCore) (core : SynapseCore) (h : core.config = c.core.config) :
    ConfiguredCore :=
  { c with core := core, config_eq := h.trans c.config_eq }

/-- A new configuration. -/
def withConfig (c : ConfiguredCore) (config : AtomicConfig) : ConfiguredCore :=
  { c with
    core := { c.core with config := config.current.forHandlers }
    config := config
    config_eq := rfl }

def handleFeatureError (c : ConfiguredCore) (name : String) (errorCode : UInt32) :
    ConfiguredCore :=
  c.mapCore (c.core.handleFeatureError name errorCode) rfl

def propagate (c : ConfiguredCore) (snap : Atomic.ConfigSnapshot) : ConfiguredCore :=
  c.mapCore (c.core.propagate snap) rfl

/-- `wal_log(type, data, size)`. -/
def walLog (c : ConfiguredCore) (now : UInt64) (type : WALEventType)
    (data : Option ByteRecords.Bytes) (size : UInt32) : ConfiguredCore :=
  c.mapCore (c.core.walLog now type data size) <| by
    obtain ⟨recovery, walOps, hlog⟩ := c.core.walLog_frame now type data size
    rw [hlog]

/-- `sync_config_from_profile()`; the flags are read after the update. -/
def syncConfigFromProfile (c : ConfiguredCore) : ConfiguredCore :=
  let config := (c.config.update c.profile.plan.apply).2
  (c.withConfig config).propagate config.current

/-- The constructor. -/
def create (orig : OrigPointers) : ConfiguredCore :=
  syncConfigFromProfile
    { core := SynapseCore.create orig true
      config := AtomicConfig.create
      profile := {}
      metadata := .zeroed
      config_eq := rfl }

/-- `apply_preset(name)` at time `now`. -/
def applyPreset (now : UInt64) (name : Text) (c : ConfiguredCore) : ConfiguredCore :=
  let synced := syncConfigFromProfile { c with profile := c.profile.applyPreset name }
  synced.walLog now .backendChoice (some name) (UInt32.ofNat name.length)

/-- `apply_config_content(content)`.  The flags that are propagated are those of the
edited copy, whether or not it is published. -/
def applyConfigContent (platform : Platform) (content : Text) (c : ConfiguredCore) :
    Except ConversionError ConfiguredCore :=
  (applyLines platform content c.config.read).map fun snap =>
    (c.withConfig (c.config.update fun _ => snap).2).propagate snap

/-- The manager of crash recovery, put back. -/
def withManager (c : ConfiguredCore) (m : CrashRecoveryManager) : ConfiguredCore :=
  { c with core := { c.core with recovery := some m.telemetry }, metadata := m.metadata }

/-- `check_and_recover()` on the given directory. -/
def checkAndRecover (dir : DataDirectory) (c : ConfiguredCore) :
    Except Protocol.MigrateError (RecoveryInfo × ConfiguredCore × DataDirectory) :=
  match c.core.recovery with
  | none => .ok ({}, c, dir)
  | some telemetry =>
      (CrashRecoveryManager.checkForCrash dir ⟨c.metadata, telemetry⟩).map
        fun (crashDetected, manager, dir) =>
          let checked := c.withManager manager
          if crashDetected then
            let (result, manager, dir) := manager.recover dir
            let recovered := (checked.handleFeatureError "telemetry" 1).withManager manager
            ({ crashDetected := true
               entriesRecovered := result.entriesRecovered
               recoveryCount := manager.metadata.totalRecoveries },
              recovered.handleFeatureError "telemetry" 0, dir)
          else ({}, checked, dir)

/-- The handler of a work command. -/
def handleWork (now : UInt64) (backend : ExecutionBackend) (command : WorkCommand)
    (c : ConfiguredCore) : ConfiguredCore :=
  c.mapCore (c.core.handleWork now backend command) <|
    congrArg (fun setup => setup.2.2.1) (c.core.handleWork_setup now backend command)

def handlePushConstants (now : UInt64) (cmd : VkCommandBuffer) (layout : VkPipelineLayout)
    (stageFlags offset size : UInt32) (pValues : Option ByteRecords.Bytes) (c : ConfiguredCore) :
    ConfiguredCore :=
  c.mapCore (c.core.handlePushConstants now cmd layout stageFlags offset size pValues) <| by
    obtain ⟨recovery, walOps, hlog⟩ := c.core.walLog_frame now .pushConstants pValues (min size 240)
    unfold SynapseCore.handlePushConstants SynapseCore.forwardIf
    rw [hlog]
    split <;> rfl

/-! ## What a content does -/

/-- A content that is applied is published. -/
theorem applyConfigContent_eq {platform : Platform} {content : Text} {c c' : ConfiguredCore}
    (h : c.applyConfigContent platform content = .ok c') :
    ∃ snap config, applyLines platform content c.config.current = .ok snap ∧
      config.current = snap ∧ c' = (c.withConfig config).propagate snap := by
  unfold applyConfigContent at h
  cases hlines : applyLines platform content c.config.read with
  | error e =>
      rw [hlines] at h
      cases h
  | ok snap =>
      rw [hlines] at h
      have hvalid : snap.validate = true := (settles_applyLines hlines).valid c.config.valid
      refine ⟨snap, _, hlines, ?_, (Except.ok.inj h).symm⟩
      rw [AtomicConfig.update_of_valid hvalid]

end ConfiguredCore

end Synapse
