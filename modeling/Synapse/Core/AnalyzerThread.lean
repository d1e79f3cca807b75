import Synapse.Core.HaiPath
import Synapse.Core.RoutingStatistics
import Synapse.Umd.Analyzer

/-!
# The core and its analyzer's thread

Runs of the core in which the handlers, the state commands and the notifications alternate
with the analyzer's thread, while `setup` stands for whatever the configuration methods
and a recovery make of the configuration, the features and the log.

The handlers look shaders up without a source, so nothing is ever compiled: the JIT cache
stays empty and no command runs on it.  Every command ends as one call of the driver or as
one HAI batch (`work_conserved`).  The signatures of draws have neither a draw count nor an
estimate, so only dispatches move the recommendation (`recommendation_of_last`).

### What is a step

A handler is one step here, and so is each access of the analyzer's thread to what the two
share: the ring of samples and the recommendation, of which a handler touches each in one
place.  The runs are all interleavings of these steps.  The single accesses to the ring's own
fields are the subject of `Atomic.TelemetryRings`.

The log of commands with their routes is no part of the source.  It is written by the step and
compared with what the driver and the stream have got (`Accounted`), so that conservation is a
statement about the two sides of the core and not about a counter of its own.
-/

namespace Synapse

open Atomic Runs

namespace SynapseCore

variable {core : SynapseCore}

/-! ## What a handler leaves alone -/

/-- What decides a lookup: the recommendation is the analyzer's alone, and without a source
the JIT cache stays as it is. -/
def lookupState (core : SynapseCore) : ExecutionBackend × JITPipeline :=
  (core.recommendation, core.jitPipeline)

/-- Looking a state up changes none of the parts that the handlers keep. -/
theorem kept_lookupState (backend : ExecutionBackend) : Kept lookupState backend where
  trans _ _ _ h h' := h'.trans h
  walLog core now type data size := by
    obtain ⟨recovery, walOps, hlog⟩ := core.walLog_frame now type data size
    rw [hlog]
    rfl
  pushTelemetry _ _ := rfl
  count core := by
    obtain ⟨jit, hai, oracle, hcount⟩ := core.incrementBackendCounter_frame backend
    rw [hcount]
    rfl
  observe _ := rfl
  forwardIf core pointer call := by
    unfold forwardIf
    split <;> rfl
  oracle core cmd indexCount instanceCount firstIndex vertexOffset firstInstance := by
    unfold executeOracleDraw
    split <;> rfl
  jit _ core cmd sig _ := by
    unfold executeJitPath executeOracleDraw
    rw [JITPipeline.getOptimizedShader_of_no_source]
    dsimp only
    split
    · rfl
    · split <;> rfl
  hai _ _ _ _ _ := rfl

/-! ## What a handler sends out -/

/-- The calls of the driver on each route. -/
def routeCalls (command : WorkCommand) : Route → List WorkCommand
  | .forwarded => [command]
  | .jitMiss => [.drawIndexed command.cmd command.vertexCount 1 0 0 0]
  | .jitHit | .hai => []

/-- An HAI batch is all that leaves the core. -/
theorem Handled.only_hai {core' : SynapseCore} {backend : ExecutionBackend}
    {command : WorkCommand} (h : core.Handled backend command core')
    (hroute : core.route backend command = .hai) :
    core'.driver = core.driver ∧ core'.submittedIsa = core.submittedIsa ∧
      core'.faulted = core.faulted := by
  induction h with
  | early hrouted now type =>
      rw [route_of_not_isRouted hrouted] at hroute
      cases hroute
  | @chosen hrouted core₁ sig hsame hhash hcount hchanges =>
      rw [route_of_isRouted hrouted] at hroute
      have hsilent : core₁.driver = core.driver :=
        hsame.driver.trans (List.append_nil _)
      cases backend with
      | JIT =>
          simp only at hroute
          split_ifs at hroute
      | HAI =>
          simp only at hroute
          split at hroute
          · rename_i hallowed
            rw [choose, if_pos hallowed]
            exact ⟨hsilent, hsame.submittedIsa, hsame.faulted⟩
          · cases hroute
      | Oracle => cases hroute
  | observed _ ih => exact ih

/-- A hit needs a shader in the cache. -/
theorem route_ne_jitHit {command : WorkCommand} (hcache : core.hasShaderFor command = false)
    (backend : ExecutionBackend) : core.route backend command ≠ .jitHit := by
  unfold route
  rw [hcache]
  cases backend <;> simp only [Bool.false_eq_true, if_false] <;> split_ifs <;> nofun

/-- **What a handler sends out** while the JIT cache has nothing for the command. -/
theorem handleWork_sent (now : UInt64) (backend : ExecutionBackend) (command : WorkCommand)
    (horig : core.HasWorkPointers) (hcache : core.hasShaderFor command = false) :
    core.route backend command ≠ .jitHit ∧
      (core.handleWork now backend command).driver = core.driver ++
        (routeCalls command (core.route backend command)).map DriverCall.work ∧
      (core.handleWork now backend command).submittedIsa = core.submittedIsa ∧
      (core.handleWork now backend command).faulted = core.faulted := by
  have htook := handleWork_took now backend horig.1 horig.2.1 horig.2.2 command
  cases hroute : core.route backend command with
  | forwarded =>
      rw [hroute] at htook
      obtain ⟨hdriver, hisa, -, hfaulted⟩ := htook
      exact ⟨nofun, hdriver, hisa, hfaulted⟩
  | jitMiss =>
      rw [hroute] at htook
      obtain ⟨hdriver, hisa, -, hfaulted⟩ := htook
      exact ⟨nofun, hdriver, hisa, hfaulted⟩
  | jitHit => exact absurd hroute (route_ne_jitHit hcache backend)
  | hai =>
      obtain ⟨hdriver, hisa, hfaulted⟩ :=
        (core.handled_handleWork now backend command).only_hai hroute
      refine ⟨nofun, ?_, hisa, hfaulted⟩
      rw [hdriver]
      exact (List.append_nil _).symm

/-! ## What a handler tells the analyzer -/

/-- The signature of a command. -/
def signatureOf (core : SynapseCore) : WorkCommand → WorkloadSignature
  | .drawIndexed cmd indexCount _ _ _ _ => core.captureCurrentSignature cmd indexCount
  | .draw cmd vertexCount _ _ _ => core.captureCurrentSignature cmd vertexCount
  | .dispatch _ _ _ _ => dispatchSignature

section Telemetry

variable (core) (now : UInt64) (type : WALEventType) (data : Option ByteRecords.Bytes)
  (size : UInt32) (cmd : VkCommandBuffer) (sig : WorkloadSignature) (backend : ExecutionBackend)

/-- Logging leaves the ring of samples alone. -/
@[simp] theorem telemetry_walLog : (core.walLog now type data size).telemetry = core.telemetry := by
  obtain ⟨recovery, walOps, hlog⟩ := core.walLog_frame now type data size
  rw [hlog]

/-- So does counting the backend. -/
@[simp] theorem telemetry_incrementBackendCounter :
    (core.incrementBackendCounter backend).telemetry = core.telemetry := by
  cases backend <;> rfl

/-- So does a call of the driver. -/
@[simp] theorem telemetry_forwardIf (pointer : Bool) (call : DriverCall) :
    (core.forwardIf pointer call).telemetry = core.telemetry := by
  unfold forwardIf
  split <;> rfl

/-- So does a draw that is left to the driver. -/
@[simp] theorem telemetry_executeOracleDraw (indexCount instanceCount firstIndex : UInt32)
    (vertexOffset : Int32) (firstInstance : UInt32) :
    (core.executeOracleDraw cmd indexCount instanceCount firstIndex vertexOffset
      firstInstance).telemetry = core.telemetry := by
  unfold executeOracleDraw
  split <;> rfl

/-- So does a draw with a compiled shader. -/
@[simp] theorem telemetry_executeJitPath :
    (core.executeJitPath cmd sig).telemetry = core.telemetry := by
  unfold executeJitPath
  dsimp only
  split
  · rfl
  · exact telemetry_executeOracleDraw _ _ _ _ _ _ _

/-- The choice the handlers share pushes nothing. -/
theorem telemetry_choice {core forwarded : SynapseCore}
    (hforward : forwarded.telemetry = core.telemetry) (jit hai : Bool) :
    (match backend with
      | .JIT => if jit then core.executeJitPath cmd sig else forwarded
      | .HAI => if hai then core.executeHaiPath cmd sig else forwarded
      | .Oracle => forwarded).telemetry = core.telemetry := by
  cases backend with
  | JIT =>
      cases jit with
      | false => exact hforward
      | true => exact telemetry_executeJitPath core cmd sig
  | HAI =>
      cases hai with
      | false => exact hforward
      | true => rfl
  | Oracle => exact hforward

/-- **What a handler pushes**: the signature of the command, if it is routed at all. -/
theorem telemetry_handleWork (command : WorkCommand) :
    (core.handleWork now backend command).telemetry =
      if core.isRouted command then (core.telemetry.push (core.signatureOf command)).2
      else core.telemetry := by
  have hprelude : ∀ (type : WALEventType) (data : Option ByteRecords.Bytes) (size : UInt32)
      (sig : WorkloadSignature),
      (((core.walLog now type data size).pushTelemetry sig).incrementBackendCounter
        backend).telemetry = (core.telemetry.push sig).2 := by
    intro type data size sig
    rw [telemetry_incrementBackendCounter]
    exact congrArg (fun ring => (ring.push sig).2) (core.telemetry_walLog now type data size)
  cases command with
  | drawIndexed cmd indexCount instanceCount firstIndex vertexOffset firstInstance =>
      unfold handleWork handleDrawIndexed
      dsimp only
      cases hallowed : core.drawTelemetryAllowed with
      | false => simp [isRouted, hallowed]
      | true =>
          cases hjit : core.degrade.isAvailable "jit" with
          | false => simp [isRouted, hjit]
          | true =>
              simp only [isRouted, hallowed, hjit, Bool.and_self, Bool.not_true,
                Bool.false_eq_true, if_false, if_true]
              refine (telemetry_choice _ _ backend ?_ _ _).trans (hprelude _ _ _ _)
              exact telemetry_executeOracleDraw _ _ _ _ _ _ _
  | draw cmd vertexCount instanceCount firstVertex firstInstance =>
      unfold handleWork handleDraw
      dsimp only
      cases hallowed : core.drawTelemetryAllowed with
      | false => simp [isRouted, hallowed]
      | true =>
          simp only [isRouted, hallowed, Bool.not_true, Bool.false_eq_true, if_false, if_true]
          refine (telemetry_choice _ _ backend ?_ _ _).trans (hprelude _ _ _ _)
          exact telemetry_forwardIf _ _ _
  | dispatch cmd groupCountX groupCountY groupCountZ =>
      unfold handleWork handleDispatch
      dsimp only
      rw [if_pos (show core.isRouted (.dispatch cmd groupCountX groupCountY groupCountZ) = true
        from rfl)]
      split
      · refine Eq.trans ?_ (hprelude .dispatch (some dispatchSignature.bytes)
          kWorkloadSignatureSize dispatchSignature)
        exact telemetry_choice _ _ backend (telemetry_forwardIf _ _ _) _ _
      · refine Eq.trans ?_ (hprelude .dispatch (some dispatchSignature.bytes)
          kWorkloadSignatureSize dispatchSignature)
        exact telemetry_choice _ _ backend (telemetry_forwardIf _ _ _) _ _

end Telemetry

/-- The work command of a call. -/
def workCommand : DriverCall → Option WorkCommand
  | .work command => some command
  | .state _ => none

/-- The work commands the next layer has received. -/
def workCalls (core : SynapseCore) : List WorkCommand := core.driver.filterMap workCommand

end SynapseCore

/-! ## Runs -/

/-- A core, the analyzer's thread, and the work commands so far with their routes. -/
structure AnalyzedCore where
  core : SynapseCore
  inHand : Option WorkloadSignature
  done : List WorkloadSignature
  offered : List (WorkloadSignature × Bool)
  lastSignature : WorkloadSignature
  log : List (WorkCommand × Route)

namespace AnalyzedCore

open SynapseCore

/-- The constructor. -/
def create (orig : OrigPointers) (mlAggressive : Bool) : AnalyzedCore where
  core := SynapseCore.create orig mlAggressive
  inHand := none
  done := []
  offered := []
  lastSignature := {}
  log := []

/-- `analyzer_`, on the telemetry ring of the core. -/
def analyzer (s : AnalyzedCore) : Analyzer where
  telemetry := ⟨s.core.telemetry, s.inHand, s.done, s.offered⟩
  inferredBackend := s.core.recommendation
  lastSignature := s.lastSignature

/-- The state behind a step of the analyzer, put back into the core. -/
def withAnalyzer (s : AnalyzedCore) (a : Analyzer) : AnalyzedCore :=
  { s with
    core := { s.core with
      telemetry := a.telemetry.ring
      recommendation := a.inferredBackend }
    inHand := a.telemetry.inHand
    done := a.telemetry.done
    offered := a.telemetry.offered
    lastSignature := a.lastSignature }

/-- The handler of a work command. -/
def work (s : AnalyzedCore) (d : Decided) : AnalyzedCore :=
  { s with
    core := s.core.handleWork d.now d.backend d.command
    offered := if s.core.isRouted d.command then
        (s.analyzer.push (s.core.signatureOf d.command)).telemetry.offered
      else s.offered
    log := s.log ++ [(d.command, s.core.route d.backend d.command)] }

/-- What a run is made of: commands, the state commands, the notifications, the analyzer, and
whatever the set-up does. -/
inductive Action where
  | work (d : Decided)
  | pushConstants (now : UInt64) (cmd : VkCommandBuffer) (layout : VkPipelineLayout)
      (stageFlags offset size : UInt32) (pValues : Option ByteRecords.Bytes)
  | bindDescriptorSets (now : UInt64) (cmd : VkCommandBuffer) (bindPoint : UInt32)
      (layout : VkPipelineLayout) (firstSet : UInt32) (pDescriptorSets : List VkDescriptorSet)
      (pDynamicOffsets : List UInt32)
  | bindPipeline (cmd : VkCommandBuffer) (pipeline : VkPipeline) (shaderHash : UInt64)
  | freeCmdBuf (cmd : VkCommandBuffer)
  | setup (drawTelemetryAllowed : Bool) (config : Synapse.ConfigSnapshot)
      (degrade : GracefulDegradation) (recovery : Option AtomicTelemetry)
  | pop
  | updateModel

/-- The work command of an action. -/
def Action.command : Action → Option WorkCommand
  | work d => some d.command
  | _ => none

/-- One action.  A command samples its signature first; the analyzer takes its own steps. -/
def step (s : AnalyzedCore) : Action → Option AnalyzedCore
  | .work d => some (s.work d)
  | .pushConstants now cmd layout stageFlags offset size pValues => some { s with
      core := s.core.handlePushConstants now cmd layout stageFlags offset size pValues }
  | .bindDescriptorSets now cmd bindPoint layout firstSet pDescriptorSets pDynamicOffsets =>
      some { s with
        core := s.core.handleBindDescriptorSets now cmd bindPoint layout firstSet
          pDescriptorSets pDynamicOffsets }
  | .bindPipeline cmd pipeline shaderHash => some { s with
      core := s.core.notifyBindPipeline cmd pipeline shaderHash }
  | .freeCmdBuf cmd => some { s with core := s.core.notifyFreeCmdBuf cmd }
  | .setup drawTelemetryAllowed config degrade recovery => some { s with
      core := { s.core with
        drawTelemetryAllowed := drawTelemetryAllowed
        config := config
        degrade := degrade
        recovery := recovery } }
  | .pop => s.analyzer.pop.map s.withAnalyzer
  | .updateModel => s.analyzer.updateModel.map s.withAnalyzer

/-! ## What holds between the steps -/

/-- A signature without a draw count or an estimate. -/
def IsDrawSignature (sample : WorkloadSignature) : Prop :=
  sample.drawCallCount = 0 ∧ sample.shaderInstructionEstimate = 0 ∧
    sample.isComputeDispatch = false

/-- What the driver and the hardware have received is what the routes of the commands say,
and none of them was a hit. -/
structure Accounted (core : SynapseCore) (log : List (WorkCommand × Route)) : Prop where
  workCalls : core.workCalls = log.flatMap fun e => routeCalls e.1 e.2
  submitted : core.haiBuilder.submitted = log.flatMap fun e => routeBatches e.1 e.2
  submittedIsa : core.submittedIsa = []
  faulted : core.faulted = false
  routes : ∀ e ∈ log, e.2 ≠ .jitHit

/-- What every state of a run keeps: the three pointers, the empty cache, an analyzer in one
of its phases, and the accounts. -/
structure Consistent (s : AnalyzedCore) : Prop where
  pointers : s.core.HasWorkPointers
  cache : ∀ hash, s.core.jitPipeline.cache hash = none
  settled : s.analyzer.Settled
  signatures : ∀ sample ∈ s.offered.map Prod.fst,
    sample = dispatchSignature ∨ IsDrawSignature sample
  accounted : Accounted s.core s.log

/-- It holds of the core as it is created. -/
theorem consistent_create {orig : OrigPointers}
    (horig : orig.drawIndexed = true ∧ orig.draw = true ∧ orig.dispatch = true)
    (mlAggressive : Bool) : (create orig mlAggressive).Consistent where
  pointers := horig
  cache _ := rfl
  settled := Analyzer.settled_create
  signatures := nofun
  accounted := ⟨rfl, rfl, rfl, rfl, nofun⟩

/-- Draws leave the recommendation with the oracle, and dispatches move it to JIT. -/
theorem infer_dispatchSignature : Analyzer.infer dispatchSignature = .JIT := rfl

/-- A draw's signature has neither a count nor an estimate, so nothing speaks against the
driver. -/
theorem infer_of_isDrawSignature {sample : WorkloadSignature} (h : IsDrawSignature sample) :
    Analyzer.infer sample = .Oracle := by
  obtain ⟨hcount, hestimate, hcompute⟩ := h
  simp [Analyzer.infer, hcount, hestimate, hcompute]

/-- The handlers of draws take their signatures from one function. -/
theorem isDrawSignature_capture (core : SynapseCore) (cmd : VkCommandBuffer) (count : UInt32) :
    IsDrawSignature (core.captureCurrentSignature cmd count) :=
  ⟨rfl, rfl, rfl⟩

/-- What a command samples is the fixed signature of dispatches or that of a draw. -/
theorem signatureOf_cases (core : SynapseCore) (command : WorkCommand) :
    core.signatureOf command = dispatchSignature ∨ IsDrawSignature (core.signatureOf command) := by
  cases command with
  | drawIndexed => exact Or.inr (isDrawSignature_capture _ _ _)
  | draw => exact Or.inr (isDrawSignature_capture _ _ _)
  | dispatch => exact Or.inl rfl

variable {s s' : AnalyzedCore}

/-- The analyzer after a work command has one more signature in its ring, or none. -/
theorem analyzer_work (s : AnalyzedCore) (d : Decided) : (s.work d).analyzer =
    if s.core.isRouted d.command then s.analyzer.push (s.core.signatureOf d.command)
    else s.analyzer := by
  have hlookup := (kept_lookupState d.backend).handleWork s.core d.now d.command
  have hrecommendation : (s.core.handleWork d.now d.backend d.command).recommendation =
      s.core.recommendation := congrArg Prod.fst hlookup
  have htelemetry := s.core.telemetry_handleWork d.now d.backend d.command
  unfold work
  rw [analyzer]
  dsimp only
  rw [hrecommendation, htelemetry]
  split <;> rfl

/-- No work is done, and the analyzer is not touched. -/
structure Idles (core core' : SynapseCore) : Prop where
  orig : core'.orig = core.orig
  analyzer : (core'.telemetry, core'.lookupState) = (core.telemetry, core.lookupState)
  workCalls : core'.workCalls = core.workCalls
  submitted : core'.haiBuilder.submitted = core.haiBuilder.submitted
  submittedIsa : core'.submittedIsa = core.submittedIsa
  faulted : core'.faulted = core.faulted

/-- Logging something and forwarding a state command. -/
theorem idles_forwardIf_walLog (core : SynapseCore) (now : UInt64) (type : WALEventType)
    (data : Option ByteRecords.Bytes) (size : UInt32) (pointer : Bool)
    (command : StateCommand) :
    Idles core ((core.walLog now type data size).forwardIf pointer (.state command)) := by
  obtain ⟨recovery, walOps, hlog⟩ := core.walLog_frame now type data size
  rw [hlog]
  unfold forwardIf
  split
  · refine ⟨rfl, rfl, ?_, rfl, rfl, rfl⟩
    show (core.driver ++ [DriverCall.state command]).filterMap workCommand = core.workCalls
    rw [List.filterMap_append]
    exact List.append_nil _
  · exact ⟨rfl, rfl, rfl, rfl, rfl, rfl⟩

/-- Steps without work in a row are one step without work. -/
theorem Idles.trans {core core₁ core₂ : SynapseCore} (h : Idles core core₁)
    (h' : Idles core₁ core₂) : Idles core core₂ where
  orig := h'.orig.trans h.orig
  analyzer := h'.analyzer.trans h.analyzer
  workCalls := h'.workCalls.trans h.workCalls
  submitted := h'.submitted.trans h.submitted
  submittedIsa := h'.submittedIsa.trans h.submittedIsa
  faulted := h'.faulted.trans h.faulted

/-- A step without work keeps everything. -/
theorem Consistent.idle (h : s.Consistent) {core : SynapseCore} (hidles : Idles s.core core) :
    Consistent { s with core := core } where
  pointers := by
    show core.HasWorkPointers
    rw [HasWorkPointers, hidles.orig]
    exact h.pointers
  cache hash := by
    have hpipeline : core.jitPipeline = s.core.jitPipeline :=
      congrArg (fun state => state.2.2) hidles.analyzer
    show core.jitPipeline.cache hash = none
    rw [hpipeline]
    exact h.cache hash
  settled := by
    have htelemetry : core.telemetry = s.core.telemetry := congrArg Prod.fst hidles.analyzer
    have hrecommendation : core.recommendation = s.core.recommendation :=
      congrArg (fun state => state.2.1) hidles.analyzer
    have hsettled := h.settled
    unfold analyzer at hsettled ⊢
    rw [← htelemetry, ← hrecommendation] at hsettled
    exact hsettled
  signatures := h.signatures
  accounted := by
    obtain ⟨hwork, hsubmitted, hisa, hfaulted, hroutes⟩ := h.accounted
    exact ⟨hidles.workCalls.trans hwork, hidles.submitted.trans hsubmitted,
      hidles.submittedIsa.trans hisa, hidles.faulted.trans hfaulted, hroutes⟩

/-- A command adds its route to the log and the calls and batches of that route to the core.
-/
theorem Accounted.work {core : SynapseCore} {log : List (WorkCommand × Route)}
    (h : Accounted core log) (horig : core.HasWorkPointers)
    (hcache : ∀ hash, core.jitPipeline.cache hash = none) (d : Decided) :
    Accounted (core.handleWork d.now d.backend d.command)
      (log ++ [(d.command, core.route d.backend d.command)]) := by
  have hshader : core.hasShaderFor d.command = false := by
    unfold hasShaderFor
    rw [hcache]
    rfl
  obtain ⟨hhit, hdriver, hisa, hfaulted⟩ := handleWork_sent d.now d.backend d.command horig hshader
  have hsubmitted := core.handleWork_submitted d.now d.backend d.command
  refine ⟨?_, ?_, hisa.trans h.submittedIsa, hfaulted.trans h.faulted, ?_⟩
  · have hwork : ∀ calls : List WorkCommand,
        (calls.map DriverCall.work).filterMap workCommand = calls := by
      intro calls
      rw [List.filterMap_map]
      exact List.filterMap_some
    rw [SynapseCore.workCalls, hdriver, List.filterMap_append, hwork, List.flatMap_append]
    exact congrArg₂ (· ++ ·) h.workCalls (List.append_nil _).symm
  · rw [hsubmitted, List.flatMap_append, h.submitted]
    exact congrArg (_ ++ ·) (List.append_nil _).symm
  · intro e he
    rcases List.mem_append.mp he with hold | hnew
    · exact h.routes e hold
    · rw [List.mem_singleton.mp hnew]
      exact hhit

/-- A command keeps everything: the log grows by it, the cache stays empty. -/
theorem Consistent.work (h : s.Consistent) (d : Decided) : (s.work d).Consistent where
  pointers := by
    show (s.core.handleWork d.now d.backend d.command).HasWorkPointers
    exact h.pointers.step (d := d) rfl
  cache hash := by
    have hlookup := (kept_lookupState d.backend).handleWork s.core d.now d.command
    have hpipeline : (s.core.handleWork d.now d.backend d.command).jitPipeline =
        s.core.jitPipeline := congrArg Prod.snd hlookup
    show (s.core.handleWork d.now d.backend d.command).jitPipeline.cache hash = none
    rw [hpipeline]
    exact h.cache hash
  settled := by
    rw [analyzer_work]
    split
    · exact Analyzer.settled_push h.settled _
    · exact h.settled
  signatures := by
    show ∀ sample ∈ (if s.core.isRouted d.command then _ else s.offered).map Prod.fst, _
    split
    · intro sample hsample
      rw [Analyzer.push, FedRing.offered_push] at hsample
      rcases List.mem_append.mp hsample with hold | hnew
      · exact h.signatures sample hold
      · rw [List.mem_singleton.mp hnew]
        exact signatureOf_cases s.core d.command
    · exact h.signatures
  accounted := h.accounted.work h.pointers h.cache d

/-- A step of the analyzer keeps everything that is not the analyzer's own. -/
theorem Consistent.withAnalyzer (h : s.Consistent) {a : Analyzer} (hsettled : a.Settled)
    (hoffered : a.telemetry.offered = s.offered) : (s.withAnalyzer a).Consistent where
  pointers := h.pointers
  cache := h.cache
  settled := hsettled
  signatures := by
    show ∀ sample ∈ a.telemetry.offered.map Prod.fst, _
    rw [hoffered]
    exact h.signatures
  accounted := by
    obtain ⟨hwork, hsubmitted, hisa, hfaulted, hroutes⟩ := h.accounted
    exact ⟨hwork, hsubmitted, hisa, hfaulted, hroutes⟩

/-- The step lemma, one case for each action. -/
theorem consistent_step {a : Action} (h : s.Consistent) (hstep : s.step a = some s') :
    s'.Consistent := by
  cases a with
  | work d =>
      obtain rfl := Option.some_injective _ hstep
      exact h.work d
  | pushConstants now cmd layout stageFlags offset size pValues =>
      obtain rfl := Option.some_injective _ hstep
      exact h.idle (idles_forwardIf_walLog s.core now _ _ _ _ _)
  | bindDescriptorSets now cmd bindPoint layout firstSet pDescriptorSets pDynamicOffsets =>
      obtain rfl := Option.some_injective _ hstep
      obtain ⟨cmdState, hnotify⟩ :=
        s.core.notifyBindDescriptorSets_frame cmd pDescriptorSets firstSet
      have hbound :
          Idles s.core (notifyBindDescriptorSets cmd firstSet pDescriptorSets s.core) := by
        rw [hnotify]
        exact ⟨rfl, rfl, rfl, rfl, rfl, rfl⟩
      exact h.idle (hbound.trans (idles_forwardIf_walLog _ now _ _ _ _ _))
  | bindPipeline cmd pipeline shaderHash =>
      obtain rfl := Option.some_injective _ hstep
      exact h.idle ⟨rfl, rfl, rfl, rfl, rfl, rfl⟩
  | freeCmdBuf cmd =>
      obtain rfl := Option.some_injective _ hstep
      exact h.idle ⟨rfl, rfl, rfl, rfl, rfl, rfl⟩
  | setup drawTelemetryAllowed config degrade recovery =>
      obtain rfl := Option.some_injective _ hstep
      exact h.idle ⟨rfl, rfl, rfl, rfl, rfl, rfl⟩
  | pop =>
      obtain ⟨a, hpop, rfl⟩ := Option.map_eq_some_iff.mp hstep
      refine h.withAnalyzer (Analyzer.settled_pop h.settled hpop) ?_
      obtain ⟨telemetry, htake, rfl⟩ := Option.map_eq_some_iff.mp hpop
      exact FedRing.offered_of_take htake
  | updateModel =>
      obtain ⟨a, hupdate, rfl⟩ := Option.map_eq_some_iff.mp hstep
      refine h.withAnalyzer (Analyzer.settled_updateModel h.settled hupdate) ?_
      obtain ⟨⟨sample, telemetry⟩, hfinish, rfl⟩ := Option.map_eq_some_iff.mp hupdate
      exact FedRing.offered_of_finish hfinish

/-- The log has the work commands of the run. -/
theorem log_step {a : Action} (hstep : s.step a = some s') :
    s'.log.map Prod.fst = s.log.map Prod.fst ++ a.command.toList := by
  cases a with
  | work d =>
      obtain rfl := Option.some_injective _ hstep
      exact List.map_append
  | pop =>
      obtain ⟨a, -, rfl⟩ := Option.map_eq_some_iff.mp hstep
      exact (List.append_nil _).symm
  | updateModel =>
      obtain ⟨a, -, rfl⟩ := Option.map_eq_some_iff.mp hstep
      exact (List.append_nil _).symm
  | pushConstants | bindDescriptorSets | bindPipeline | freeCmdBuf | setup =>
      obtain rfl := Option.some_injective _ hstep
      exact (List.append_nil _).symm

/-- The log of a run has its commands, in order. -/
theorem log_of_exec {actions : List Action} (h : exec step s actions = some s') :
    s'.log.map Prod.fst = s.log.map Prod.fst ++ actions.filterMap Action.command := by
  induction actions generalizing s with
  | nil =>
      obtain rfl := Option.some_injective _ h
      exact (List.append_nil _).symm
  | cons a actions ih =>
      rw [exec, Option.bind_eq_some_iff] at h
      obtain ⟨s₁, hstep, hrest⟩ := h
      rw [ih hrest, log_step hstep, List.append_assoc]
      cases hcommand : a.command with
      | none => rw [List.filterMap_cons_none hcommand]; rfl
      | some command => rw [List.filterMap_cons_some hcommand]; rfl

/-- Without a hit in the cache a command is one call or one batch. -/
theorem length_route (command : WorkCommand) {r : Route} (h : r ≠ .jitHit) :
    (routeCalls command r).length + (routeBatches command r).length = 1 := by
  cases r with
  | jitHit => exact absurd rfl h
  | forwarded | jitMiss | hai => rfl

/-- Every command went to the driver or to the hardware, and to one of them only. -/
theorem Accounted.length_eq {core : SynapseCore} {log : List (WorkCommand × Route)}
    (h : Accounted core log) :
    core.workCalls.length + core.haiBuilder.submitted.length = log.length := by
  rw [h.workCalls, h.submitted]
  have hroutes := h.routes
  clear h
  induction log with
  | nil => rfl
  | cons e log ih =>
      have hrest := ih fun e' he' => hroutes e' (List.mem_cons_of_mem _ he')
      have hone := length_route e.1 (hroutes e List.mem_cons_self)
      simp only [List.flatMap_cons, List.length_append, List.length_cons]
      omega

/-- The run lemma. -/
theorem consistent_of_exec {orig : OrigPointers}
    (horig : orig.drawIndexed = true ∧ orig.draw = true ∧ orig.dispatch = true)
    {mlAggressive : Bool} {actions : List Action}
    (h : exec step (create orig mlAggressive) actions = some s) : s.Consistent :=
  invariant_of_exec step (fun _ _ _ hs ha => consistent_step hs ha)
    (consistent_create horig mlAggressive) h

/-- **Every work command is carried out once**, as itself or as a plain indexed draw by the
driver, or as a batch by the HAI hardware, in the order of the commands.  No shader reaches
the GPU. -/
theorem work_conserved {orig : OrigPointers}
    (horig : orig.drawIndexed = true ∧ orig.draw = true ∧ orig.dispatch = true)
    {mlAggressive : Bool} {actions : List Action}
    (h : exec step (create orig mlAggressive) actions = some s) :
    s.log.map Prod.fst = actions.filterMap Action.command ∧
      (∀ e ∈ s.log, e.2 ≠ .jitHit) ∧
      s.core.workCalls = (s.log.flatMap fun e => routeCalls e.1 e.2) ∧
      s.core.haiBuilder.submitted = (s.log.flatMap fun e => routeBatches e.1 e.2) ∧
      s.core.workCalls.length + s.core.haiBuilder.submitted.length =
        (actions.filterMap Action.command).length ∧
      s.core.submittedIsa = [] ∧ s.core.faulted = false := by
  have haccounted := (consistent_of_exec horig h).accounted
  have hlog : s.log.map Prod.fst = actions.filterMap Action.command := log_of_exec h
  refine ⟨hlog, haccounted.routes, haccounted.workCalls, haccounted.submitted, ?_,
    haccounted.submittedIsa, haccounted.faulted⟩
  rw [haccounted.length_eq, ← hlog, List.length_map]

/-- A draw that misses the JIT cache, and one that goes to the hardware. -/
theorem work_conserved_miss_and_batch :
    ∃ s, exec step (create ⟨true, true, true, true, true⟩ true)
        [.work ⟨0, .JIT, .drawIndexed 1 36 4 0 0 0⟩, .pop, .work ⟨0, .HAI, .draw 1 6 1 0 0⟩] =
          some s ∧
      s.core.workCalls.length + s.core.haiBuilder.submitted.length = 2 := by
  obtain ⟨s, hrun⟩ : ∃ s, exec step (create ⟨true, true, true, true, true⟩ true)
      [.work ⟨0, .JIT, .drawIndexed 1 36 4 0 0 0⟩, .pop, .work ⟨0, .HAI, .draw 1 6 1 0 0⟩] =
        some s :=
    ⟨_, rfl⟩
  exact ⟨s, hrun, (work_conserved ⟨rfl, rfl, rfl⟩ hrun).2.2.2.2.1⟩

/-- **What moves the recommendation**: it is JIT while the signature analysed last is that of
a dispatch, and the oracle otherwise. -/
theorem recommendation_of_last {orig : OrigPointers}
    (horig : orig.drawIndexed = true ∧ orig.draw = true ∧ orig.dispatch = true)
    {mlAggressive : Bool} {actions : List Action}
    (h : exec step (create orig mlAggressive) actions = some s) :
    s.core.recommendation =
        (if s.done.getLast? = some dispatchSignature then .JIT else .Oracle) ∧
      (s.offered.filter Prod.snd).map Prod.fst =
        s.done ++ s.inHand.toList ++ s.core.telemetry.contents := by
  have hconsistent := consistent_of_exec horig h
  have hsettled := hconsistent.settled
  refine ⟨?_, hsettled.conserved⟩
  have hrecommendation : s.core.recommendation =
      (s.done.getLast?.map Analyzer.infer).getD .Oracle := hsettled.inferredBackend
  rw [hrecommendation]
  cases hlast : s.done.getLast? with
  | none => rfl
  | some sample =>
      have hmem : sample ∈ s.offered.map Prod.fst :=
        hsettled.conserved.mem_offered (List.mem_append_left _ (List.mem_of_getLast? hlast))
      rcases hconsistent.signatures sample hmem with rfl | hdraw
      · rw [if_pos rfl]
        exact infer_dispatchSignature
      · have hne : sample ≠ dispatchSignature := by
          rintro rfl
          exact absurd hdraw.2.2 (by decide)
        rw [if_neg fun heq => hne (Option.some_injective _ heq)]
        exact infer_of_isDrawSignature hdraw

/-- A dispatch is analysed while the signature of a draw waits. -/
theorem recommendation_of_last_dispatch :
    ∃ s, exec step (create ⟨true, true, true, true, true⟩ true)
        [.work ⟨0, .Oracle, .dispatch 1 8 8 1⟩, .pop, .work ⟨0, .Oracle, .draw 1 6 1 0 0⟩,
          .updateModel] = some s ∧
      s.done.getLast? = some dispatchSignature ∧
      s.core.recommendation =
        (if s.done.getLast? = some dispatchSignature then .JIT else .Oracle) := by
  obtain ⟨s, hrun, hlast⟩ : ∃ s, exec step (create ⟨true, true, true, true, true⟩ true)
      [.work ⟨0, .Oracle, .dispatch 1 8 8 1⟩, .pop, .work ⟨0, .Oracle, .draw 1 6 1 0 0⟩,
        .updateModel] = some s ∧ s.done.getLast? = some dispatchSignature :=
    ⟨_, rfl, rfl⟩
  exact ⟨s, hrun, hlast, (recommendation_of_last ⟨rfl, rfl, rfl⟩ hrun).1⟩

end AnalyzedCore

end Synapse
