import Synapse.Core.Configuration
import Synapse.Foundations.Runs

/-!
# Features that are switched off

Whether the availability table agrees with the flags of the current snapshot, over
runs of the configuration methods and the handlers.

The handlers never make a feature available that was not (`frame_quieter`), and
the configuration methods write the flags to the table after each change.  The
exception is a recovery: it restores telemetry whatever the flag says.  So features
stay off exactly if no crash is recovered from while telemetry is off
(`features_stay_off_iff`).

### Two tables

The flags are in the snapshot that the configuration holds, and what the handlers look at is
the availability table.  No function writes both at once: `propagate` copies the flags after
each change.  So the invariant is an agreement that only whole calls keep (`Agrees`), and it
is split in two: a flag that is off is off in the table, and nothing is written to the log of
a core whose telemetry is off.

The handlers read the table and may take features away, after errors, but never give one back;
they are all `Quieter`, which is transitive, and the frame lemma of `Core.Frame` carries it
through the code that they share.
-/

namespace Synapse

open Numerals Atomic Recovery Runs

namespace SynapseCore

/-- The second core has no feature that the first has not, and if the first may not
log, the log is the same. -/
structure Quieter (core core' : SynapseCore) : Prop where
  initialStates : core'.degrade.initialStates = core.degrade.initialStates
  available : ∀ name, core'.degrade.isAvailable name = true → core.degrade.isAvailable name = true
  log : core.degrade.isAvailable "telemetry" = false → core'.recovery = core.recovery

variable {core core₁ core₂ : SynapseCore}

/-- What leaves the table alone, and the log when telemetry is off, is quieter. -/
theorem quieter_of_eq (hdegrade : core₁.degrade = core.degrade)
    (hlog : core.degrade.isAvailable "telemetry" = false → core₁.recovery = core.recovery) :
    core.Quieter core₁ where
  initialStates := congrArg _ hdegrade
  available name h := by rwa [hdegrade] at h
  log := hlog

/-- In a row. -/
theorem Quieter.trans (h : core.Quieter core₁) (h' : core₁.Quieter core₂) : core.Quieter core₂ where
  initialStates := h'.initialStates.trans h.initialStates
  available name hname := h.available name (h'.available name hname)
  log hoff := by
    have hoff₁ : core₁.degrade.isAvailable "telemetry" = false :=
      Bool.eq_false_iff.mpr fun hon => Bool.eq_false_iff.mp hoff (h.available _ hon)
    rw [h'.log hoff₁, h.log hoff]

variable (core)

/-- `wal_log` looks at the table before it writes. -/
theorem quieter_walLog (now : UInt64) (type : WALEventType) (data : Option ByteRecords.Bytes)
    (size : UInt32) : core.Quieter (core.walLog now type data size) := by
  refine quieter_of_eq ?_ fun hoff => ?_
  · obtain ⟨recovery, walOps, hlog⟩ := core.walLog_frame now type data size
    rw [hlog]
  · rw [walLog, hoff]
    rfl

/-- The driver's path writes nothing. -/
theorem quieter_executeOracleDraw (cmd : VkCommandBuffer)
    (indexCount instanceCount firstIndex : UInt32) (vertexOffset : Int32)
    (firstInstance : UInt32) :
    core.Quieter (core.executeOracleDraw cmd indexCount instanceCount firstIndex vertexOffset
      firstInstance) := by
  unfold executeOracleDraw
  split <;> exact quieter_of_eq rfl fun _ => rfl

/-- Neither does a call of the driver. -/
theorem quieter_forwardIf (pointer : Bool) (call : DriverCall) :
    core.Quieter (core.forwardIf pointer call) := by
  unfold forwardIf
  split <;> exact quieter_of_eq rfl fun _ => rfl

/-- An error of a feature that is available takes no other one back. -/
theorem quieter_handleFeatureError {name : String} (h : core.degrade.isAvailable name = true)
    (errorCode : UInt32) : core.Quieter (core.handleFeatureError name errorCode) where
  initialStates := rfl
  available other hother := by
    by_cases hname : other = name
    · rw [hname]
      exact h
    · exact (GracefulDegradation.isAvailable_handleError_of_ne _ _ hname).symm.trans hother
  log _ := rfl

/-- Nor does it touch the table. -/
theorem degrade_executeOracleDraw (cmd : VkCommandBuffer)
    (indexCount instanceCount firstIndex : UInt32) (vertexOffset : Int32)
    (firstInstance : UInt32) :
    (core.executeOracleDraw cmd indexCount instanceCount firstIndex vertexOffset
      firstInstance).degrade = core.degrade := by
  unfold executeOracleDraw
  split <;> rfl

/-- A missed shader degrades and restores a feature that is available. -/
theorem quieter_jitMiss (cmd : VkCommandBuffer) (count : UInt32)
    (h : core.degrade.isAvailable "jit" = true) :
    core.Quieter (((core.handleFeatureError "jit" 1).executeOracleDraw cmd count 1 0 0
      0).handleFeatureError "jit" 0) := by
  have hdegraded : ((core.handleFeatureError "jit" 1).executeOracleDraw cmd count 1 0 0
      0).degrade.isAvailable "jit" = true := by
    rw [degrade_executeOracleDraw]
    exact core.degrade.isAvailable_handleError_one
  exact ((core.quieter_handleFeatureError h 1).trans (quieter_executeOracleDraw _ ..)).trans
    (quieter_handleFeatureError _ hdegraded 0)

/-- The path of the compiler is entered when it is available, and may report an error. -/
theorem quieter_executeJitPath (cmd : VkCommandBuffer) (sig : WorkloadSignature)
    (h : core.degrade.isAvailable "jit" = true) :
    core.Quieter (core.executeJitPath cmd sig) := by
  unfold executeJitPath
  dsimp only
  split
  · exact quieter_of_eq rfl fun _ => rfl
  · have hlooked : core.Quieter { core with
        jitPipeline :=
          (core.jitPipeline.getOptimizedShader core.recommendation sig.shaderHash []).2 } :=
      quieter_of_eq rfl fun _ => rfl
    exact hlooked.trans (quieter_jitMiss _ cmd _ h)

/-- The parts that the handlers have in common. -/
theorem frame_quieter (backend : ExecutionBackend) : Frame Quieter backend where
  trans _ _ _ h h' := h.trans h'
  walLog := quieter_walLog
  pushTelemetry _ _ := quieter_of_eq rfl fun _ => rfl
  count core := by
    obtain ⟨jit, hai, oracle, hcount⟩ := core.incrementBackendCounter_frame backend
    rw [hcount]
    exact quieter_of_eq rfl fun _ => rfl
  observe _ := quieter_of_eq rfl fun _ => rfl
  forwardIf := quieter_forwardIf
  oracle := quieter_executeOracleDraw
  jit _ := quieter_executeJitPath
  hai _ _ _ _ _ := quieter_of_eq rfl fun _ => rfl

/-- So the handlers of draws and dispatches are quieter. -/
theorem quieter_handleWork (now : UInt64) (backend : ExecutionBackend) (command : WorkCommand) :
    core.Quieter (core.handleWork now backend command) :=
  (frame_quieter backend).handleWork core now command

/-- And the one of the push constants. -/
theorem quieter_handlePushConstants (now : UInt64) (cmd : VkCommandBuffer)
    (layout : VkPipelineLayout) (stageFlags offset size : UInt32)
    (pValues : Option ByteRecords.Bytes) :
    core.Quieter (core.handlePushConstants now cmd layout stageFlags offset size pValues) :=
  (core.quieter_walLog now .pushConstants pValues (min size 240)).trans (quieter_forwardIf _ _ _)

/-! ### Writing the flags to the table -/

section Propagate

variable (snap : Atomic.ConfigSnapshot)

/-- A flag that is off is off in the table afterwards. -/
theorem isAvailable_propagate_jit (h : snap.jitEnabled = false) :
    (core.propagate snap).degrade.isAvailable "jit" = false := by
  simp only [propagate, handleFeatureError, h, Bool.false_eq_true, if_false]
  rw [GracefulDegradation.isAvailable_handleError_of_ne _ _ (by decide),
    GracefulDegradation.isAvailable_handleError_of_ne _ _ (by decide)]
  exact GracefulDegradation.isAvailable_handleError_two _

/-- The same of the stream. -/
theorem isAvailable_propagate_hai (h : snap.haiEnabled = false) :
    (core.propagate snap).degrade.isAvailable "hai" = false := by
  simp only [propagate, handleFeatureError, h, Bool.false_eq_true, if_false]
  rw [GracefulDegradation.isAvailable_handleError_of_ne _ _ (by decide)]
  exact GracefulDegradation.isAvailable_handleError_two _

/-- The same of the log. -/
theorem isAvailable_propagate_telemetry (h : snap.telemetryEnabled = false) :
    (core.propagate snap).degrade.isAvailable "telemetry" = false := by
  simp only [propagate, handleFeatureError, h, Bool.false_eq_true, if_false]
  exact GracefulDegradation.isAvailable_handleError_two _

end Propagate

end SynapseCore

namespace ConfiguredCore

/-! ## The law -/

/-- The features whose flag is off are not available. -/
structure FeaturesOff (c : ConfiguredCore) : Prop where
  jit : c.config.current.jitEnabled = false → c.core.degrade.isAvailable "jit" = false
  hai : c.config.current.haiEnabled = false → c.core.degrade.isAvailable "hai" = false
  telemetry : c.config.current.telemetryEnabled = false →
    c.core.degrade.isAvailable "telemetry" = false

/-- The calls, with the decisions made for them. -/
inductive Call where
  | applyConfigContent (content : Text)
  | applyPreset (now : UInt64) (name : Text)
  | syncConfigFromProfile
  | checkAndRecover (dir : DataDirectory)
  | work (now : UInt64) (backend : ExecutionBackend) (command : WorkCommand)
  | pushConstants (now : UInt64) (cmd : VkCommandBuffer) (layout : VkPipelineLayout)
      (stageFlags offset size : UInt32) (pValues : Option ByteRecords.Bytes)

/-- One call, if it returns. -/
def step (platform : Platform) (c : ConfiguredCore) : Call → Option ConfiguredCore
  | .applyConfigContent content => (c.applyConfigContent platform content).toOption
  | .applyPreset now name => some (c.applyPreset now name)
  | .syncConfigFromProfile => some c.syncConfigFromProfile
  | .checkAndRecover dir => (c.checkAndRecover dir).toOption.map fun r => r.2.1
  | .work now backend command => some (c.handleWork now backend command)
  | .pushConstants now cmd layout stageFlags offset size pValues =>
      some (c.handlePushConstants now cmd layout stageFlags offset size pValues)

/-- How many entries have been numbered for the WAL. -/
def walEntries (c : ConfiguredCore) : Option UInt64 := c.core.recovery.map AtomicTelemetry.sequence

/-- After the call the features whose flag is off are not available, and no entry
was written if telemetry was off. -/
def KeepsOff (platform : Platform) (c : ConfiguredCore) (call : Call) : Prop :=
  ∀ c', c.step platform call = some c' → c'.FeaturesOff ∧
    (c.config.current.telemetryEnabled = false → c'.walEntries = c.walEntries)

/-- A crash that is recovered from finds telemetry switched on. -/
def RecoversSwitchedOn (c : ConfiguredCore) : Call → Prop
  | .checkAndRecover dir => c.core.recovery.isSome = true → LogOpen (readWal dir.wal) →
      c.config.current.telemetryEnabled = true
  | _ => True

/-- What holds between the calls. -/
structure Agrees (c : ConfiguredCore) : Prop where
  off : c.FeaturesOff
  initial : c.core.degrade.initialStates "telemetry" = some .enabled

variable {c : ConfiguredCore}

/-! ## One call -/

/-- A quieter core with the same configuration agrees. -/
theorem Agrees.mapCore (h : c.Agrees) {core : SynapseCore} (hconfig : core.config = c.core.config)
    (hquieter : c.core.Quieter core) : (c.mapCore core hconfig).Agrees where
  off :=
    { jit := fun hoff => Bool.eq_false_iff.mpr fun hon =>
        Bool.eq_false_iff.mp (h.off.jit hoff) (hquieter.available _ hon)
      hai := fun hoff => Bool.eq_false_iff.mpr fun hon =>
        Bool.eq_false_iff.mp (h.off.hai hoff) (hquieter.available _ hon)
      telemetry := fun hoff => Bool.eq_false_iff.mpr fun hon =>
        Bool.eq_false_iff.mp (h.off.telemetry hoff) (hquieter.available _ hon) }
  initial := (congrFun hquieter.initialStates _).trans h.initial

/-- It writes nothing while telemetry is off. -/
theorem walEntries_mapCore (h : c.FeaturesOff) {core : SynapseCore}
    (hconfig : core.config = c.core.config) (hquieter : c.core.Quieter core)
    (hoff : c.config.current.telemetryEnabled = false) :
    (c.mapCore core hconfig).walEntries = c.walEntries :=
  congrArg (Option.map AtomicTelemetry.sequence) (hquieter.log (h.telemetry hoff))

section WalLog

variable (now : UInt64) (type : WALEventType) (data : Option ByteRecords.Bytes) (size : UInt32)

/-- Logging keeps the agreement. -/
theorem Agrees.walLog (h : c.Agrees) : (c.walLog now type data size).Agrees := by
  unfold ConfiguredCore.walLog
  exact h.mapCore _ (c.core.quieter_walLog now type data size)

/-- And does nothing while telemetry is off. -/
theorem walEntries_walLog (h : c.FeaturesOff) (hoff : c.config.current.telemetryEnabled = false) :
    (c.walLog now type data size).walEntries = c.walEntries := by
  unfold ConfiguredCore.walLog
  exact walEntries_mapCore h _ (c.core.quieter_walLog now type data size) hoff

end WalLog

/-- After a change of the configuration the table has the flags. -/
theorem agrees_propagate (h : c.core.degrade.initialStates "telemetry" = some .enabled)
    {config : AtomicConfig} {snap : Atomic.ConfigSnapshot}
    (hflags : config.current.jitEnabled = snap.jitEnabled ∧
      config.current.haiEnabled = snap.haiEnabled ∧
      config.current.telemetryEnabled = snap.telemetryEnabled) :
    ((c.withConfig config).propagate snap).Agrees where
  off :=
    { jit := fun hoff =>
        SynapseCore.isAvailable_propagate_jit _ snap (hflags.1.symm.trans hoff)
      hai := fun hoff =>
        SynapseCore.isAvailable_propagate_hai _ snap (hflags.2.1.symm.trans hoff)
      telemetry := fun hoff =>
        SynapseCore.isAvailable_propagate_telemetry _ snap (hflags.2.2.symm.trans hoff) }
  initial := h

/-- The flags of the profile are propagated. -/
theorem agrees_syncConfigFromProfile
    (h : c.core.degrade.initialStates "telemetry" = some .enabled) :
    c.syncConfigFromProfile.Agrees := agrees_propagate h ⟨rfl, rfl, rfl⟩

/-- A plan has no say about telemetry. -/
theorem telemetryEnabled_syncConfigFromProfile (c : ConfiguredCore) :
    c.syncConfigFromProfile.config.current.telemetryEnabled =
      c.config.current.telemetryEnabled := by
  change (c.config.update c.profile.plan.apply).2.current.telemetryEnabled = _
  rcases c.config.current_update c.profile.plan.apply with hsame | hplan
  · rw [hsame]
  · rw [hplan]
    rfl

/-- The synchronisation does not log. -/
theorem walEntries_syncConfigFromProfile (c : ConfiguredCore) :
    c.syncConfigFromProfile.walEntries = c.walEntries := rfl

/-- A preset is propagated before it is logged. -/
theorem agrees_applyPreset (h : c.core.degrade.initialStates "telemetry" = some .enabled)
    (now : UInt64) (name : Text) :
    (c.applyPreset now name).Agrees ∧ (c.config.current.telemetryEnabled = false →
      (c.applyPreset now name).walEntries = c.walEntries) := by
  unfold applyPreset
  dsimp only
  have hsynced : (syncConfigFromProfile
      { c with profile := c.profile.applyPreset name }).Agrees := agrees_syncConfigFromProfile h
  have htelemetry := telemetryEnabled_syncConfigFromProfile
    { c with profile := c.profile.applyPreset name }
  refine ⟨hsynced.walLog .., fun hoff => ?_⟩
  rw [walEntries_walLog _ _ _ _ hsynced.off (htelemetry.trans hoff),
    walEntries_syncConfigFromProfile]
  rfl

/-- The state after a recovery from a crash, whatever it has recovered. -/
def restored (m : CrashRecoveryManager) (c : ConfiguredCore) : ConfiguredCore :=
  ((c.withManager m).handleFeatureError "telemetry" 1).handleFeatureError "telemetry" 0

/-- A check reads the log, and a crash is recovered from. -/
theorem checkAndRecover_eq {telemetry : AtomicTelemetry} (h : c.core.recovery = some telemetry)
    (dir : DataDirectory) :
    ∃ info m dir' c', m.telemetry.sequence = telemetry.sequence ∧
      c.checkAndRecover dir = .ok (info, c', dir') ∧
      (LogOpen (readWal dir.wal) → c' = c.restored m) ∧
      (¬ LogOpen (readWal dir.wal) → c' = c.withManager m) := by
  obtain ⟨file, -, hcheck⟩ := CrashRecoveryManager.checkForCrash_eq dir ⟨c.metadata, telemetry⟩
  have hverdict : decide ((telemetry.checkRecovery dir.wal).1 > 0) =
      decide (LogOpen (readWal dir.wal)) := by
    rw [decide_eq_decide, gt_iff_lt, Nat.pos_iff_ne_zero,
      AtomicTelemetry.checkRecovery_ne_zero_iff]
  unfold checkAndRecover
  rw [h]
  simp only [hcheck, hverdict]
  by_cases hopen : LogOpen (readWal dir.wal)
  · rw [decide_eq_true hopen]
    refine ⟨_, (CrashRecoveryManager.recover ⟨dir.wal, file⟩
      ⟨loaded dir.metadataFile, (telemetry.checkRecovery dir.wal).2⟩).2.1, _, _, ?_, rfl,
      fun _ => rfl, fun hnot => absurd hopen hnot⟩
    exact (CrashRecoveryManager.recover_of_open ⟨dir.wal, file⟩
      ⟨loaded dir.metadataFile, (telemetry.checkRecovery dir.wal).2⟩ hopen).sequence
  · rw [decide_eq_false hopen]
    exact ⟨_, ⟨loaded dir.metadataFile, (telemetry.checkRecovery dir.wal).2⟩, _, _, rfl, rfl,
      fun hyes => absurd hyes hopen, fun _ => rfl⟩

/-- The manager of recoveries is no part of the agreement. -/
theorem agrees_withManager (h : c.Agrees) (m : CrashRecoveryManager) : (c.withManager m).Agrees :=
  ⟨⟨h.off.jit, h.off.hai, h.off.telemetry⟩, h.initial⟩

/-- A recovery touches telemetry only. -/
theorem isAvailable_restored (m : CrashRecoveryManager) {name : String}
    (hname : name ≠ "telemetry") :
    (c.restored m).core.degrade.isAvailable name = c.core.degrade.isAvailable name :=
  (GracefulDegradation.isAvailable_handleError_of_ne _ _ hname).trans
    (GracefulDegradation.isAvailable_handleError_of_ne _ _ hname)

/-- Recovering with telemetry switched on is harmless. -/
theorem agrees_restored (h : c.Agrees) (m : CrashRecoveryManager)
    (hon : c.config.current.telemetryEnabled = true) : (c.restored m).Agrees where
  off :=
    { jit := fun hoff => (isAvailable_restored m (by decide)).trans (h.off.jit hoff)
      hai := fun hoff => (isAvailable_restored m (by decide)).trans (h.off.hai hoff)
      telemetry := fun hoff => absurd (hon.symm.trans hoff) (by decide) }
  initial := h.initial

/-- Recovering with telemetry switched off switches it on. -/
theorem not_featuresOff_restored (h : c.Agrees) (m : CrashRecoveryManager)
    (hoff : c.config.current.telemetryEnabled = false) : ¬ (c.restored m).FeaturesOff := by
  intro hfeatures
  have hback : (c.restored m).core.degrade.isAvailable "telemetry" = true :=
    GracefulDegradation.isAvailable_handleError_zero _ h.initial
  exact absurd (hback.symm.trans (hfeatures.telemetry hoff)) (by decide)

/-- A check finds no crash, or it is recovered from, or there is no manager. -/
theorem checkAndRecover_cases (dir : DataDirectory) {c' : ConfiguredCore}
    (hstep : (c.checkAndRecover dir).toOption.map (fun r => r.2.1) = some c') :
    c'.walEntries = c.walEntries ∧
      (c' = c ∧ c.core.recovery.isSome = false ∨
        ∃ m, c.core.recovery.isSome = true ∧
          (LogOpen (readWal dir.wal) ∧ c' = c.restored m ∨
            ¬ LogOpen (readWal dir.wal) ∧ c' = c.withManager m)) := by
  cases hrecovery : c.core.recovery with
  | none =>
      unfold checkAndRecover at hstep
      rw [hrecovery] at hstep
      obtain rfl := Option.some_injective _ hstep
      exact ⟨rfl, Or.inl ⟨rfl, rfl⟩⟩
  | some telemetry =>
      obtain ⟨info, m, dir', c₁, hsequence, hcheck, hopen, hclosed⟩ :=
        checkAndRecover_eq hrecovery dir
      rw [hcheck] at hstep
      obtain rfl := Option.some_injective _ hstep
      have hentries : c.walEntries = some m.telemetry.sequence := by
        rw [walEntries, hrecovery, hsequence]
        rfl
      by_cases h : LogOpen (readWal dir.wal)
      · refine ⟨?_, Or.inr ⟨m, rfl, Or.inl ⟨h, hopen h⟩⟩⟩
        rw [hentries]
        exact congrArg walEntries (hopen h)
      · refine ⟨?_, Or.inr ⟨m, rfl, Or.inr ⟨h, hclosed h⟩⟩⟩
        rw [hentries]
        exact congrArg walEntries (hclosed h)

/-- **One call.** -/
theorem agrees_step {platform : Platform} {call : Call} {c' : ConfiguredCore} (h : c.Agrees)
    (hstep : c.step platform call = some c') (hcall : c.RecoversSwitchedOn call) :
    c'.Agrees ∧ (c.config.current.telemetryEnabled = false → c'.walEntries = c.walEntries) := by
  cases call with
  | applyConfigContent content =>
      cases hcontent : c.applyConfigContent platform content with
      | error e =>
          rw [step, hcontent] at hstep
          cases hstep
      | ok c₁ =>
          rw [step, hcontent] at hstep
          obtain rfl := Option.some_injective _ hstep
          obtain ⟨snap, config, -, rfl, rfl⟩ := applyConfigContent_eq hcontent
          exact ⟨agrees_propagate h.initial ⟨rfl, rfl, rfl⟩, fun _ => rfl⟩
  | applyPreset now name =>
      obtain rfl := Option.some_injective _ hstep
      exact agrees_applyPreset h.initial now name
  | syncConfigFromProfile =>
      obtain rfl := Option.some_injective _ hstep
      exact ⟨agrees_syncConfigFromProfile h.initial, fun _ => rfl⟩
  | checkAndRecover dir =>
      obtain ⟨hentries, ⟨rfl, -⟩ | ⟨m, hsome, ⟨hopen, rfl⟩ | ⟨-, rfl⟩⟩⟩ :=
        checkAndRecover_cases dir hstep
      · exact ⟨h, fun _ => hentries⟩
      · exact ⟨agrees_restored h m (hcall hsome hopen), fun _ => hentries⟩
      · exact ⟨agrees_withManager h m, fun _ => hentries⟩
  | work now backend command =>
      obtain rfl := Option.some_injective _ hstep
      have hquieter := c.core.quieter_handleWork now backend command
      exact ⟨h.mapCore _ hquieter, walEntries_mapCore h.off _ hquieter⟩
  | pushConstants now cmd layout stageFlags offset size pValues =>
      obtain rfl := Option.some_injective _ hstep
      have hquieter := c.core.quieter_handlePushConstants now cmd layout stageFlags offset size
        pValues
      exact ⟨h.mapCore _ hquieter, walEntries_mapCore h.off _ hquieter⟩

/-- The step lemma: a call keeps everything off unless it recovers telemetry that is switched
off. -/
theorem keepsOff_iff {platform : Platform} {call : Call} {c' : ConfiguredCore} (h : c.Agrees)
    (hstep : c.step platform call = some c') :
    c.KeepsOff platform call ↔ c.RecoversSwitchedOn call := by
  constructor
  · intro hkeeps
    cases call with
    | checkAndRecover dir =>
        intro hsome hopen
        by_contra hoff
        obtain ⟨-, ⟨-, hnone⟩ | ⟨m, -, ⟨-, rfl⟩ | ⟨hclosed, -⟩⟩⟩ := checkAndRecover_cases dir hstep
        · exact absurd (hsome.symm.trans hnone) (by decide)
        · exact not_featuresOff_restored h m (Bool.eq_false_iff.mpr hoff) (hkeeps _ hstep).1
        · exact hclosed hopen
    | applyConfigContent content => exact trivial
    | applyPreset now name => exact trivial
    | syncConfigFromProfile => exact trivial
    | work now backend command => exact trivial
    | pushConstants now cmd layout stageFlags offset size pValues => exact trivial
  · intro hcall c₁ hc₁
    obtain ⟨hagrees, hentries⟩ := agrees_step h hc₁ hcall
    exact ⟨hagrees.off, hentries⟩

/-! ## Runs -/

/-- A new core has everything switched on. -/
theorem agrees_create (orig : OrigPointers) : (create orig).Agrees :=
  agrees_syncConfigFromProfile rfl

/-- **Features stay off** along a run exactly if no crash is recovered from while
telemetry is switched off. -/
theorem features_stay_off_iff (platform : Platform) (orig : OrigPointers) (calls : List Call) :
    Along (step platform) (KeepsOff platform) (create orig) calls ↔
      Along (step platform) RecoversSwitchedOn (create orig) calls := by
  have hiff : ∀ (c : ConfiguredCore) (call : Call) (c' : ConfiguredCore), c.Agrees →
      c.step platform call = some c' →
      (c.KeepsOff platform call ↔ c.RecoversSwitchedOn call) :=
    fun _ _ _ h hstep => keepsOff_iff h hstep
  have hstep : ∀ (c : ConfiguredCore) (call : Call) (c' : ConfiguredCore), c.Agrees →
      c.step platform call = some c' → c.KeepsOff platform call → c'.Agrees :=
    fun _ _ _ h hstep hkeeps => (agrees_step h hstep ((keepsOff_iff h hstep).mp hkeeps)).1
  exact along_iff_of_invariant (step platform) hiff hstep (agrees_create orig) calls

/-- A content that switches telemetry off. -/
def telemetryOff : Text := ascii "telemetry_enabled = false\n"

/-- A file that switches telemetry off. -/
theorem assignments_telemetryOff :
    assignments telemetryOff = [(.telemetryEnabled, ascii "false")] := by decide

/-- A log with one draw and no marker. -/
def drawnLog : ByteRecords.Bytes := walCodec.encodeAll [(WriteCall.bare 0 .draw).entry 1]

/-- A log of a session that has not been closed. -/
theorem logOpen_drawnLog : LogOpen (readWal drawnLog) := by
  have hread : readWal drawnLog = [(WriteCall.bare 0 .draw).entry 1] := by
    refine readWal_encodeAll fun e he => ?_
    rw [List.mem_singleton.mp he]
    exact WALEntry.forWrite_isValid _ _ _ _ _ (Nat.zero_le _)
  rw [hread]
  decide

/-- The content is applied, and telemetry is off. -/
theorem exists_switched_off (platform : Platform) (orig : OrigPointers) :
    ∃ c, (create orig).step platform (.applyConfigContent telemetryOff) = some c ∧ c.Agrees ∧
      c.config.current.telemetryEnabled = false ∧ c.core.recovery = some .create := by
  have hconvertible : Convertible platform (assignments telemetryOff) := by
    rw [assignments_telemetryOff]
    intro a ha
    rw [List.mem_singleton.mp ha]
    exact ⟨_, rfl⟩
  obtain ⟨snap, hsnap⟩ := (applyLines_ok_iff platform telemetryOff
    (create orig).config.current).mpr hconvertible
  have hstep : (create orig).step platform (.applyConfigContent telemetryOff) =
      some (((create orig).withConfig
        ((create orig).config.update fun _ => snap).2).propagate snap) := by
    rw [step, applyConfigContent, AtomicConfig.read, hsnap]
    rfl
  refine ⟨_, hstep, (agrees_step (agrees_create orig) hstep trivial).1, ?_, rfl⟩
  have hsettles := settles_applyLines hsnap
  have hoff := hsettles.read .telemetryEnabled
  rw [assignments_telemetryOff, settled_singleton_self] at hoff
  change ((create orig).config.update fun _ => snap).2.current.telemetryEnabled = false
  rw [AtomicConfig.update_of_valid (hsettles.valid (create orig).config.valid)]
  exact hoff

/-- Telemetry is switched off, and a recovery switches it on again. -/
theorem recovery_switches_telemetry_on :
    ¬ Along (step .quiet64)
      (KeepsOff .quiet64) (create ⟨true, true, true, true, true⟩)
      [.applyConfigContent telemetryOff, .checkAndRecover ⟨drawnLog, none⟩] := by
  obtain ⟨c, hfirst, hagrees, hoff, hrecovery⟩ :=
    exists_switched_off .quiet64 ⟨true, true, true, true, true⟩
  obtain ⟨info, m, dir, c', -, hcheck, -⟩ := checkAndRecover_eq hrecovery ⟨drawnLog, none⟩
  have hsecond : c.step .quiet64 (.checkAndRecover ⟨drawnLog, none⟩) =
      some c' := by
    rw [step, hcheck]
    rfl
  rw [along_cons]
  intro h
  have hrest := (h c hfirst).2
  rw [along_cons] at hrest
  have hon := (keepsOff_iff hagrees hsecond).mp (hrest c' hsecond).1 (by rw [hrecovery]; rfl)
    logOpen_drawnLog
  exact absurd (hoff.symm.trans hon) (by decide)

end ConfiguredCore

end Synapse
