import Synapse.Core.AnalyzerThread
import Synapse.Telemetry.JsonReportWriter

/-!
# The session report of the core

`build_session_report`, which the destructor of the core writes to `report.json`.

The report is about the commands that get past the early returns of their handlers.  It says
how many of them there were and what was decided for them, but not what carried them out: the
draws that it has under JIT were all drawn by the driver, and those that missed the cache are
once more among the fallbacks, together with all indexed draws that were left to the driver
(`report_of_run`).

### Where the numbers come from

The report takes its counters from three places: the counters of the backends, the statistics
of the stream, and a count of fallbacks that the function for indexed draws keeps.  They are
compared with one list, the bookings: the commands that got past the early returns of their
handlers, each with the backend that was decided and the route that it took.  The bookings are
written by the step of `ReportedCore`, next to the core and not into it.

All counters are machine integers that wrap.  So a total is the number of bookings modulo the
size of its counter, and the statements say it in this way rather than assume short sessions.
-/

namespace Synapse

open Atomic Numerals JsonText Runs Telemetry

/-- What the report takes from the other components and the clock. -/
structure ReportedElsewhere where
  worstFallbackMs : Binary64
  totalFallbackMs : Binary64
  hits : UInt64
  misses : UInt64
  updates : UInt64
  cumulativeReward : Binary64
  power : PowerReport

namespace SynapseCore

variable (core : SynapseCore)

/-- The draws of `execute_oracle_draw`: those left to the driver if they are indexed, and
those of all commands that miss the JIT cache. -/
def isFallback : WorkCommand → Route → Bool
  | _, .jitMiss => true
  | .drawIndexed .., .forwarded => true
  | _, _ => false

section fallbacks

variable (now : UInt64) (type : WALEventType) (data : Option ByteRecords.Bytes) (size : UInt32)
  (cmd : VkCommandBuffer) (sig : WorkloadSignature) (backend : ExecutionBackend)

/-- Logging does not count fallbacks. -/
@[simp] theorem fallbacks_walLog :
    (core.walLog now type data size).coldCacheFallbacks = core.coldCacheFallbacks := by
  obtain ⟨recovery, walOps, hlog⟩ := core.walLog_frame now type data size
  rw [hlog]

/-- Nor does counting the backend. -/
@[simp] theorem fallbacks_incrementBackendCounter :
    (core.incrementBackendCounter backend).coldCacheFallbacks = core.coldCacheFallbacks := by
  cases backend <;> rfl

/-- Nor does a call of the driver. -/
@[simp] theorem fallbacks_forwardIf (pointer : Bool) (call : DriverCall) :
    (core.forwardIf pointer call).coldCacheFallbacks = core.coldCacheFallbacks := by
  unfold forwardIf
  split <;> rfl

variable {core}

/-- An indexed draw that is left to the driver does, whoever has left it. -/
theorem fallbacks_executeOracleDraw (horig : core.orig.drawIndexed = true)
    (indexCount instanceCount firstIndex : UInt32) (vertexOffset : Int32)
    (firstInstance : UInt32) :
    (core.executeOracleDraw cmd indexCount instanceCount firstIndex vertexOffset
      firstInstance).coldCacheFallbacks = core.coldCacheFallbacks + 1 := by
  rw [executeOracleDraw, if_pos horig]

/-- With an empty cache every lookup is a miss. -/
theorem fallbacks_executeJitPath (horig : core.orig.drawIndexed = true)
    (hcache : ∀ hash, core.jitPipeline.cache hash = none) :
    (core.executeJitPath cmd sig).coldCacheFallbacks = core.coldCacheFallbacks + 1 := by
  rw [executeJitPath, JITPipeline.getOptimizedShader_of_no_source, hcache]
  dsimp only
  have horig' : (core.handleFeatureError "jit" 1).orig.drawIndexed = true := horig
  exact fallbacks_executeOracleDraw cmd horig' _ _ _ _ _

/-- What comes before the choice of the route. -/
theorem fallbacks_prelude (core : SynapseCore) : ∃ core₁,
    ((core.walLog now type data size).pushTelemetry sig).incrementBackendCounter backend = core₁ ∧
      core.Undecided core₁ ∧ core₁.coldCacheFallbacks = core.coldCacheFallbacks := by
  obtain ⟨core₁, hcore₁, hsame⟩ := core.undecided_prelude now type data size sig backend
  refine ⟨core₁, hcore₁, hsame, ?_⟩
  rw [← hcore₁, fallbacks_incrementBackendCounter]
  exact core.fallbacks_walLog now type data size

/-- The choice the handlers share. -/
theorem fallbacks_choose {core₁ : SynapseCore} {command : WorkCommand}
    (hrouted : core.isRouted command = true) (hsame : core.Undecided core₁)
    (hfallbacks : core₁.coldCacheFallbacks = core.coldCacheFallbacks)
    (horig : core.orig.drawIndexed = true) (hcache : ∀ hash, core.jitPipeline.cache hash = none) :
    (core₁.choose (core.allows "jit" core.config.jitEnabled command)
      (core.allows "hai" core.config.haiEnabled command) command sig backend).coldCacheFallbacks =
      core.coldCacheFallbacks +
        if isFallback command (core.route backend command) then 1 else 0 := by
  have horig₁ : core₁.orig.drawIndexed = true := by
    rw [hsame.orig]
    exact horig
  have hcache₁ : ∀ hash, core₁.jitPipeline.cache hash = none := by
    rw [hsame.jitPipeline]
    exact hcache
  have hshader : core.hasShaderFor command = false := by
    unfold hasShaderFor
    rw [hcache]
    rfl
  have hforward : (core₁.forwardWork command).coldCacheFallbacks =
      core.coldCacheFallbacks + if isFallback command .forwarded then 1 else 0 := by
    rw [← hfallbacks]
    cases command with
    | drawIndexed => exact fallbacks_executeOracleDraw _ horig₁ _ _ _ _ _
    | draw | dispatch => exact (core₁.fallbacks_forwardIf _ _).trans (UInt32.add_zero _).symm
  rw [route_of_isRouted hrouted, hshader]
  cases backend with
  | JIT =>
      unfold choose
      dsimp only
      split
      · rw [fallbacks_executeJitPath _ _ horig₁ hcache₁, hfallbacks]
        cases command <;> rfl
      · exact hforward
  | HAI =>
      unfold choose
      dsimp only
      split
      · have hnone : isFallback command .hai = false := by cases command <;> rfl
        rw [hnone]
        exact hfallbacks.trans (UInt32.add_zero _).symm
      · exact hforward
  | Oracle => exact hforward

/-- **What a handler adds to the fallbacks.** -/
theorem fallbacks_handleWork (command : WorkCommand) (horig : core.orig.drawIndexed = true)
    (hcache : ∀ hash, core.jitPipeline.cache hash = none) :
    (core.handleWork now backend command).coldCacheFallbacks = core.coldCacheFallbacks +
      if core.isRouted command && isFallback command (core.route backend command) then 1
      else 0 := by
  have hearly : ∀ (type : WALEventType) (pointer : Bool) (call : DriverCall),
      ((core.forwardIf pointer call).walLog now type none 0).coldCacheFallbacks =
        core.coldCacheFallbacks + 0 := by
    intro type pointer call
    rw [fallbacks_walLog, fallbacks_forwardIf, UInt32.add_zero]
  cases command with
  | drawIndexed cmd indexCount instanceCount firstIndex vertexOffset firstInstance =>
      unfold handleWork handleDrawIndexed
      dsimp only
      cases hallowed : core.drawTelemetryAllowed with
      | false =>
          rw [isRouted, hallowed]
          exact hearly _ _ _
      | true =>
          cases hjit : core.degrade.isAvailable "jit" with
          | false =>
              rw [isRouted, hjit, Bool.and_false]
              exact hearly _ _ _
          | true =>
              obtain ⟨core₁, hcore₁, hsame, hfallbacks⟩ := fallbacks_prelude now .drawIndexed
                (some (core.captureCurrentSignature cmd indexCount).bytes) kWorkloadSignatureSize
                (core.captureCurrentSignature cmd indexCount) backend core
              have hrouted : core.isRouted (.drawIndexed cmd indexCount instanceCount firstIndex
                  vertexOffset firstInstance) = true := by
                rw [isRouted, hallowed, hjit]
                rfl
              rw [hrouted, Bool.true_and, hcore₁, hsame.degrade]
              exact fallbacks_choose _ backend hrouted hsame hfallbacks horig hcache
  | draw cmd vertexCount instanceCount firstVertex firstInstance =>
      unfold handleWork handleDraw
      dsimp only
      cases hallowed : core.drawTelemetryAllowed with
      | false =>
          rw [isRouted, hallowed]
          exact hearly _ _ _
      | true =>
          obtain ⟨core₁, hcore₁, hsame, hfallbacks⟩ := fallbacks_prelude now .draw none 0
            { core.captureCurrentSignature cmd vertexCount with isComputeDispatch := false }
            backend core
          have hrouted : core.isRouted
              (.draw cmd vertexCount instanceCount firstVertex firstInstance) = true := hallowed
          rw [hrouted, Bool.true_and, hcore₁, hsame.degrade]
          exact fallbacks_choose _ backend hrouted hsame hfallbacks horig hcache
  | dispatch cmd groupCountX groupCountY groupCountZ =>
      unfold handleWork handleDispatch
      dsimp only
      obtain ⟨core₁, hcore₁, hsame, hfallbacks⟩ := fallbacks_prelude now .dispatch
        (some dispatchSignature.bytes) kWorkloadSignatureSize dispatchSignature backend core
      have hrouted : core.isRouted (.dispatch cmd groupCountX groupCountY groupCountZ) = true := rfl
      have hchosen :=
        fallbacks_choose dispatchSignature backend hrouted hsame hfallbacks horig hcache
      rw [hrouted, Bool.true_and, hcore₁, hsame.degrade]
      split <;> exact hchosen

end fallbacks

end SynapseCore

/-! ## Bookings -/

/-- A command that got past the early returns, what was decided for it, and its route. -/
structure Booking where
  command : WorkCommand
  backend : ExecutionBackend
  route : Route

namespace Booking

/-- The commands that were decided for a backend. -/
def decidedFor (backend : ExecutionBackend) (b : Booking) : Bool := b.backend = backend

/-- The commands that the core counts as fallbacks. -/
def isFallback (b : Booking) : Bool := SynapseCore.isFallback b.command b.route

/-- The commands that end as a batch of the stream. -/
def isBatch (b : Booking) : Bool := b.route = .hai

end Booking

/-- The counters of the report, and the number of HAI batches. -/
@[ext] structure Tallies where
  jit : UInt32
  hai : UInt32
  oracle : UInt32
  fallbacks : UInt32
  batches : ℕ

namespace Tallies

/-- The counters for some bookings. -/
def ofBookings (booked : List Booking) : Tallies where
  jit := UInt32.ofNat (booked.countP (Booking.decidedFor .JIT))
  hai := UInt32.ofNat (booked.countP (Booking.decidedFor .HAI))
  oracle := UInt32.ofNat (booked.countP (Booking.decidedFor .Oracle))
  fallbacks := UInt32.ofNat (booked.countP Booking.isFallback)
  batches := booked.countP Booking.isBatch

/-- One more booking. -/
def book (b : Booking) (t : Tallies) : Tallies where
  jit := t.jit + if b.decidedFor .JIT then 1 else 0
  hai := t.hai + if b.decidedFor .HAI then 1 else 0
  oracle := t.oracle + if b.decidedFor .Oracle then 1 else 0
  fallbacks := t.fallbacks + if b.isFallback then 1 else 0
  batches := t.batches + if b.isBatch then 1 else 0

/-- Counting one more booking, as a counter of 32 bits does it. -/
theorem ofNat_countP_concat (p : Booking → Bool) (booked : List Booking) (b : Booking) :
    UInt32.ofNat ((booked ++ [b]).countP p) =
      UInt32.ofNat (booked.countP p) + if p b then 1 else 0 := by
  rw [List.countP_append, List.countP_singleton, UInt32.ofNat_add]
  split <;> rfl

/-- The tallies of a longer list are those of the list with one more booked. -/
theorem ofBookings_concat (booked : List Booking) (b : Booking) :
    ofBookings (booked ++ [b]) = (ofBookings booked).book b := by
  ext1
  · exact ofNat_countP_concat _ booked b
  · exact ofNat_countP_concat _ booked b
  · exact ofNat_countP_concat _ booked b
  · exact ofNat_countP_concat _ booked b
  · show (booked ++ [b]).countP _ = booked.countP _ + _
    rw [List.countP_append, List.countP_singleton]

end Tallies

namespace SynapseCore

variable (core : SynapseCore)

/-- The counters of the core. -/
def tallies : Tallies where
  jit := core.backendJitCount
  hai := core.backendHaiCount
  oracle := core.backendOracleCount
  fallbacks := core.coldCacheFallbacks
  batches := core.haiBuilder.submitted.length

/-- One more for the backend of the booking, and none for the others. -/
theorem count_booking (l : Ledger) (b : Booking) :
    (l.count b.backend).jit = l.jit + (if b.decidedFor .JIT then 1 else 0) ∧
      (l.count b.backend).hai = l.hai + (if b.decidedFor .HAI then 1 else 0) ∧
      (l.count b.backend).oracle = l.oracle + (if b.decidedFor .Oracle then 1 else 0) := by
  obtain ⟨command, backend, route⟩ := b
  cases backend
  · exact ⟨rfl, (UInt32.add_zero _).symm, (UInt32.add_zero _).symm⟩
  · exact ⟨(UInt32.add_zero _).symm, rfl, (UInt32.add_zero _).symm⟩
  · exact ⟨(UInt32.add_zero _).symm, (UInt32.add_zero _).symm, rfl⟩

/-- **What a handler books**: a command that gets past the early returns. -/
theorem tallies_handleWork (now : UInt64) (backend : ExecutionBackend) (command : WorkCommand)
    (horig : core.orig.drawIndexed = true) (hcache : ∀ hash, core.jitPipeline.cache hash = none) :
    (core.handleWork now backend command).tallies =
      if core.isRouted command then
        core.tallies.book ⟨command, backend, core.route backend command⟩
      else core.tallies := by
  have hledger := core.ledger_handleWork now backend command
  have hfallbacks := fallbacks_handleWork now backend command horig hcache
  have hbatches := congrArg List.length (core.handleWork_submitted now backend command)
  rw [List.length_append] at hbatches
  cases hrouted : core.isRouted command with
  | false =>
      rw [hrouted, if_neg Bool.false_ne_true] at hledger
      rw [hrouted, Bool.false_and, if_neg Bool.false_ne_true, UInt32.add_zero] at hfallbacks
      rw [route_of_not_isRouted hrouted] at hbatches
      rw [if_neg Bool.false_ne_true]
      ext1
      · exact congrArg Ledger.jit hledger
      · exact congrArg Ledger.hai hledger
      · exact congrArg Ledger.oracle hledger
      · exact hfallbacks
      · exact hbatches
  | true =>
      rw [hrouted, if_pos rfl] at hledger
      rw [hrouted, Bool.true_and] at hfallbacks
      have hcounts : ∀ f : Ledger → UInt32, (∀ l b, f (Ledger.credit b l) = f l) →
          f (core.handleWork now backend command).ledger = f (core.ledger.count backend) := by
        intro f hf
        rw [hledger]
        split
        · exact hf _ _
        · rfl
      obtain ⟨hjit, hhai, horacle⟩ :=
        count_booking core.ledger ⟨command, backend, core.route backend command⟩
      rw [if_pos rfl]
      ext1
      · exact (hcounts Ledger.jit fun _ _ => rfl).trans hjit
      · exact (hcounts Ledger.hai fun _ _ => rfl).trans hhai
      · exact (hcounts Ledger.oracle fun _ _ => rfl).trans horacle
      · exact hfallbacks
      · refine hbatches.trans (congrArg _ ?_)
        show _ = if decide (core.route backend command = .hai) then 1 else 0
        cases core.route backend command <;> rfl

/-- Logging something and forwarding a state command. -/
theorem tallies_forwardIf_walLog (now : UInt64) (type : WALEventType)
    (data : Option ByteRecords.Bytes) (size : UInt32) (pointer : Bool) (call : DriverCall) :
    ((core.walLog now type data size).forwardIf pointer call).tallies = core.tallies := by
  obtain ⟨recovery, walOps, hlog⟩ := core.walLog_frame now type data size
  rw [hlog]
  unfold forwardIf
  split <;> rfl

end SynapseCore

/-! ## Runs -/

/-- A core with its analyzer's thread, and the bookings so far. -/
structure ReportedCore where
  analyzed : AnalyzedCore
  booked : List Booking

namespace ReportedCore

/-- A core that is created with its driver functions, before any command. -/
def create (orig : OrigPointers) (mlAggressive : Bool) : ReportedCore where
  analyzed := .create orig mlAggressive
  booked := []

/-- What an action books. -/
def bookingOf (core : SynapseCore) : AnalyzedCore.Action → List Booking
  | .work d =>
      if core.isRouted d.command then
        [⟨d.command, d.backend, core.route d.backend d.command⟩]
      else []
  | _ => []

/-- A step of the core, with the booking of its command. -/
def step (s : ReportedCore) (a : AnalyzedCore.Action) : Option ReportedCore :=
  (s.analyzed.step a).map fun analyzed =>
    ⟨analyzed, s.booked ++ bookingOf s.analyzed.core a⟩

/-- The counters are those for the bookings, which are some of the work commands. -/
structure Consistent (s : ReportedCore) : Prop where
  analyzed : s.analyzed.Consistent
  tallies : s.analyzed.core.tallies = Tallies.ofBookings s.booked
  logged : (s.booked.map fun b => (b.command, b.route)).Sublist s.analyzed.log

variable {s s' : ReportedCore}

/-- A new core has booked nothing and counted nothing. -/
theorem consistent_create {orig : OrigPointers}
    (horig : orig.drawIndexed = true ∧ orig.draw = true ∧ orig.dispatch = true)
    (mlAggressive : Bool) : (create orig mlAggressive).Consistent where
  analyzed := AnalyzedCore.consistent_create horig mlAggressive
  tallies := rfl
  logged := List.nil_sublist _

/-- What all actions but work commands leave alone. -/
theorem tallies_step {s s' : AnalyzedCore} {a : AnalyzedCore.Action} (hstep : s.step a = some s')
    (hwork : ∀ d, a ≠ .work d) :
    s'.core.tallies = s.core.tallies ∧ s'.log = s.log := by
  cases a with
  | work d => exact absurd rfl (hwork d)
  | pushConstants =>
      obtain rfl := Option.some_injective _ hstep
      exact ⟨s.core.tallies_forwardIf_walLog _ _ _ _ _ _, rfl⟩
  | bindDescriptorSets now cmd bindPoint layout firstSet pDescriptorSets pDynamicOffsets =>
      obtain rfl := Option.some_injective _ hstep
      obtain ⟨cmdState, hnotify⟩ :=
        s.core.notifyBindDescriptorSets_frame cmd pDescriptorSets firstSet
      refine ⟨(SynapseCore.tallies_forwardIf_walLog _ _ _ _ _ _ _).trans ?_, rfl⟩
      rw [hnotify]
      rfl
  | bindPipeline | freeCmdBuf | setup =>
      obtain rfl := Option.some_injective _ hstep
      exact ⟨rfl, rfl⟩
  | pop | updateModel =>
      obtain ⟨a, -, rfl⟩ := Option.map_eq_some_iff.mp hstep
      exact ⟨rfl, rfl⟩

/-- The step lemma: a command adds its own booking to the tallies, nothing else does. -/
theorem consistent_step {a : AnalyzedCore.Action} (h : s.Consistent) (hstep : s.step a = some s') :
    s'.Consistent := by
  obtain ⟨analyzed, hanalyzed, rfl⟩ := Option.map_eq_some_iff.mp hstep
  have hconsistent := AnalyzedCore.consistent_step h.analyzed hanalyzed
  by_cases hwork : ∃ d, a = .work d
  · obtain ⟨d, rfl⟩ := hwork
    obtain rfl := Option.some_injective _ hanalyzed
    have htallies := s.analyzed.core.tallies_handleWork d.now d.backend d.command
      h.analyzed.pointers.1 h.analyzed.cache
    rw [h.tallies] at htallies
    rw [bookingOf]
    cases hrouted : s.analyzed.core.isRouted d.command with
    | true =>
        rw [hrouted, if_pos rfl] at htallies
        rw [if_pos rfl]
        refine ⟨hconsistent, ?_, ?_⟩
        · rw [Tallies.ofBookings_concat]
          exact htallies
        · rw [List.map_append]
          exact h.logged.append (List.Sublist.refl _)
    | false =>
        rw [hrouted, if_neg Bool.false_ne_true] at htallies
        rw [if_neg Bool.false_ne_true, List.append_nil]
        exact ⟨hconsistent, htallies, h.logged.trans (List.sublist_append_left _ _)⟩
  · have hother : ∀ d, a ≠ .work d := fun d heq => hwork ⟨d, heq⟩
    obtain ⟨htallies, hlog⟩ := tallies_step hanalyzed hother
    have hnothing : bookingOf s.analyzed.core a = [] := by
      cases a with
      | work d => exact absurd rfl (hother d)
      | pushConstants | bindDescriptorSets | bindPipeline | freeCmdBuf | setup | pop
        | updateModel => rfl
    rw [hnothing, List.append_nil]
    refine ⟨hconsistent, htallies.trans h.tallies, ?_⟩
    show (s.booked.map _).Sublist analyzed.log
    rw [hlog]
    exact h.logged

end ReportedCore

/-! ## What is written -/

/-- The doubles that the report takes from outside are finite. -/
structure ReportedElsewhere.IsFinite (elsewhere : ReportedElsewhere) : Prop where
  worstFallbackMs : elsewhere.worstFallbackMs.isFinite = true
  totalFallbackMs : elsewhere.totalFallbackMs.isFinite = true
  cumulativeReward : elsewhere.cumulativeReward.isFinite = true
  power : elsewhere.power.IsFinite

namespace ReportedCore

variable {s : ReportedCore}

end ReportedCore

end Synapse
