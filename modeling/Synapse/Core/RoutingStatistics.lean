import Synapse.Core.Fallback
import Synapse.Core.Frame
import Synapse.Foundations.Runs

/-!
# Routing statistics and learning

Each work command is counted and reported to the learner under the backend that
`ml_api_.decide` named, before it is known what will execute it.  What does
execute it shows outside the core (`executedBy`), and is the backend of its route
(`executedBy_handleWork`).

The two agree on a command exactly if it gets past the early returns and its route
is the decided one.  An early return counts nothing at all; a disabled feature and
a JIT miss leave the command to the driver and count it for the other backend
(`statistics_truthful_iff`).

### A ledger

The counters of the backends and the reports to the learner are written in two places, before
and after the command is executed, and by two helpers.  The ledger collects them, and each
helper has one lemma about it; the ledger of a handler follows from `Core.Frame` and not from
the handlers.  What has executed a command is read off what has left the core in this step: a
call of the driver, a shader handed to the GPU, or a batch.
-/

namespace Synapse

open Atomic Runs

/-- The counters of the session report, and what the learner has been told. -/
structure Ledger where
  jit : UInt32
  hai : UInt32
  oracle : UInt32
  observed : List ExecutionBackend
  deriving DecidableEq

namespace Ledger

/-- One more command of the backend. -/
def count (backend : ExecutionBackend) (l : Ledger) : Ledger :=
  match backend with
  | .JIT => { l with jit := l.jit + 1 }
  | .HAI => { l with hai := l.hai + 1 }
  | .Oracle => { l with oracle := l.oracle + 1 }

/-- One more reward for the backend. -/
def credit (backend : ExecutionBackend) (l : Ledger) : Ledger :=
  { l with observed := l.observed ++ [backend] }

/-- `total_draw_calls`. -/
def total (l : Ledger) : UInt32 := l.jit + l.hai + l.oracle

/-- Counting adds one. -/
theorem total_count (backend : ExecutionBackend) (l : Ledger) :
    (l.count backend).total = l.total + 1 := by
  cases backend <;> simp only [count, total] <;> grind

/-- The counters tell which backend was counted. -/
theorem count_inj {backend backend' : ExecutionBackend} {l : Ledger}
    (hjit : (l.count backend).jit = (l.count backend').jit)
    (hhai : (l.count backend).hai = (l.count backend').hai) : backend = backend' := by
  cases backend <;> cases backend' <;> simp [count] at hjit hhai ⊢

end Ledger

/-- The backend of a route.  A missed shader leaves the command to the driver. -/
def Route.backend : Route → ExecutionBackend
  | forwarded => .Oracle
  | jitHit => .JIT
  | jitMiss => .Oracle
  | hai => .HAI

namespace SynapseCore

variable (core : SynapseCore)

/-- The counters of the core and its reports. -/
def ledger : Ledger where
  jit := core.backendJitCount
  hai := core.backendHaiCount
  oracle := core.backendOracleCount
  observed := core.observed

/-- Which backend has executed a command, by what is new outside the core: a
submitted shader, an HAI batch, or else a call of the driver. -/
def executedBy (core' : SynapseCore) : ExecutionBackend :=
  if core'.submittedIsa ≠ core.submittedIsa then .JIT
  else if core'.haiBuilder.submitted ≠ core.haiBuilder.submitted then .HAI
  else .Oracle

/-! ## What each step books -/

section Ledgers

variable (now : UInt64) (type : WALEventType) (data : Option ByteRecords.Bytes) (size : UInt32)
  (cmd : VkCommandBuffer) (sig : WorkloadSignature) (backend : ExecutionBackend)

/-- Logging counts nothing. -/
@[simp] theorem ledger_walLog : (core.walLog now type data size).ledger = core.ledger := by
  obtain ⟨recovery, walOps, hlog⟩ := core.walLog_frame now type data size
  rw [hlog]
  rfl

/-- Nor does sampling. -/
@[simp] theorem ledger_pushTelemetry : (core.pushTelemetry sig).ledger = core.ledger := rfl

/-- The decided backend is counted. -/
@[simp] theorem ledger_incrementBackendCounter :
    (core.incrementBackendCounter backend).ledger = core.ledger.count backend := by
  cases backend <;> rfl

/-- The report is of the decided backend too. -/
@[simp] theorem ledger_observe :
    (core.observe backend).ledger = core.ledger.credit backend := rfl

/-- The driver's calls are not counted. -/
@[simp] theorem ledger_forwardIf (pointer : Bool) (call : DriverCall) :
    (core.forwardIf pointer call).ledger = core.ledger := by
  unfold forwardIf
  split <;> rfl

/-- Nor is the driver's path. -/
@[simp] theorem ledger_executeOracleDraw (indexCount instanceCount firstIndex : UInt32)
    (vertexOffset : Int32) (firstInstance : UInt32) :
    (core.executeOracleDraw cmd indexCount instanceCount firstIndex vertexOffset
      firstInstance).ledger = core.ledger := by
  unfold executeOracleDraw
  split <;> rfl

/-- Nor the compiler's. -/
@[simp] theorem ledger_executeJitPath : (core.executeJitPath cmd sig).ledger = core.ledger := by
  unfold executeJitPath
  dsimp only
  split
  · rfl
  · rw [handleFeatureError]
    exact ledger_executeOracleDraw _ _ _ _ _ _ _

/-- Nor the stream's. -/
@[simp] theorem ledger_executeHaiPath : (core.executeHaiPath cmd sig).ledger = core.ledger := rfl

end Ledgers

/-- A command is reported to the learner: always for indexed draws, never for
draws, and for dispatches if the configuration says so. -/
def reports : WorkCommand → Bool
  | .drawIndexed .. => true
  | .draw .. => false
  | .dispatch .. => core.config.mlAggressive

/-- The choice the handlers share books nothing. -/
theorem ledger_choice {core forwarded : SynapseCore} (hforward : forwarded.ledger = core.ledger)
    (cmd : VkCommandBuffer) (sig : WorkloadSignature) (jit hai : Bool)
    (backend : ExecutionBackend) :
    (match backend with
      | .JIT => if jit then core.executeJitPath cmd sig else forwarded
      | .HAI => if hai then core.executeHaiPath cmd sig else forwarded
      | .Oracle => forwarded).ledger = core.ledger := by
  cases backend with
  | JIT =>
      cases jit with
      | false => exact hforward
      | true => exact ledger_executeJitPath core cmd sig
  | HAI =>
      cases hai with
      | false => exact hforward
      | true => exact ledger_executeHaiPath core cmd sig
  | Oracle => exact hforward

/-- What comes before the choice of the route counts the decided backend. -/
theorem ledger_prelude (now : UInt64) (type : WALEventType) (data : Option ByteRecords.Bytes)
    (size : UInt32) (sig : WorkloadSignature) (backend : ExecutionBackend) : ∃ core₁,
    ((core.walLog now type data size).pushTelemetry sig).incrementBackendCounter backend =
      core₁ ∧ core₁.ledger = core.ledger.count backend := by
  refine ⟨_, rfl, ?_⟩
  rw [ledger_incrementBackendCounter, ledger_pushTelemetry, ledger_walLog]

/-- **What a handler books**: the decided backend, if the command is routed at all. -/
theorem ledger_handleWork (now : UInt64) (backend : ExecutionBackend) (command : WorkCommand) :
    (core.handleWork now backend command).ledger =
      if core.isRouted command then
        (if core.reports command then (core.ledger.count backend).credit backend
          else core.ledger.count backend)
      else core.ledger := by
  cases command with
  | drawIndexed cmd indexCount instanceCount firstIndex vertexOffset firstInstance =>
      unfold handleWork handleDrawIndexed
      dsimp only
      obtain ⟨core₁, hcore₁, hledger⟩ := core.ledger_prelude now .drawIndexed
        (some (core.captureCurrentSignature cmd indexCount).bytes) kWorkloadSignatureSize
        (core.captureCurrentSignature cmd indexCount) backend
      rw [hcore₁]
      cases hallowed : core.drawTelemetryAllowed with
      | false => simp [isRouted, hallowed]
      | true =>
          cases hjit : core.degrade.isAvailable "jit" with
          | false => simp [isRouted, hjit]
          | true =>
              simp only [isRouted, hallowed, hjit, reports, Bool.and_self, Bool.not_true,
                Bool.false_eq_true, if_false, if_true, ledger_observe]
              refine congrArg (Ledger.credit backend) ((ledger_choice ?_ _ _ _ _ backend).trans
                hledger)
              exact ledger_executeOracleDraw _ _ _ _ _ _ _
  | draw cmd vertexCount instanceCount firstVertex firstInstance =>
      unfold handleWork handleDraw
      dsimp only
      obtain ⟨core₁, hcore₁, hledger⟩ := core.ledger_prelude now .draw none 0
        { core.captureCurrentSignature cmd vertexCount with isComputeDispatch := false } backend
      rw [hcore₁]
      cases hallowed : core.drawTelemetryAllowed with
      | false => simp [isRouted, hallowed]
      | true =>
          simp only [isRouted, hallowed, reports, Bool.not_true, Bool.false_eq_true, if_false,
            if_true]
          refine (ledger_choice ?_ _ _ _ _ backend).trans hledger
          exact ledger_forwardIf _ _ _
  | dispatch cmd groupCountX groupCountY groupCountZ =>
      unfold handleWork handleDispatch
      dsimp only
      obtain ⟨core₁, hcore₁, hledger⟩ := core.ledger_prelude now .dispatch
        (some dispatchSignature.bytes) kWorkloadSignatureSize dispatchSignature backend
      rw [hcore₁]
      have hchoice := ledger_choice (core₁.ledger_forwardIf core₁.orig.dispatch
          (.work (.dispatch cmd groupCountX groupCountY groupCountZ))) cmd dispatchSignature
        (core₁.degrade.isAvailable "jit" && core.config.jitEnabled)
        (core₁.degrade.isAvailable "hai" && core.config.haiEnabled) backend
      rw [hledger] at hchoice
      rw [if_pos (show core.isRouted (.dispatch cmd groupCountX groupCountY groupCountZ) = true
        from rfl)]
      by_cases hml : core.config.mlAggressive = true
      · refine Eq.trans ?_ (if_pos hml).symm
        rw [if_pos hml]
        exact congrArg (Ledger.credit backend) hchoice
      · refine Eq.trans ?_ (if_neg hml).symm
        rw [if_neg hml]
        exact hchoice

/-! ## What executes a command -/

/-- What shows outside is the backend of the route. -/
theorem executedBy_handleWork (now : UInt64) (backend : ExecutionBackend) (command : WorkCommand)
    (hindexed : core.orig.drawIndexed = true) (hdraw : core.orig.draw = true)
    (hdispatch : core.orig.dispatch = true) :
    core.executedBy (core.handleWork now backend command) =
      (core.route backend command).backend := by
  have htook := handleWork_took now backend hindexed hdraw hdispatch command
  unfold executedBy
  cases hroute : core.route backend command with
  | forwarded =>
      rw [hroute] at htook
      obtain ⟨-, hisa, hsubmitted, -⟩ := htook
      simp [hisa, hsubmitted, Route.backend]
  | jitMiss =>
      rw [hroute] at htook
      obtain ⟨-, hisa, hsubmitted, -⟩ := htook
      simp [hisa, hsubmitted, Route.backend]
  | jitHit =>
      rw [hroute] at htook
      obtain ⟨isa, hisa⟩ := htook
      simp [hisa, Route.backend]
  | hai =>
      rw [hroute] at htook
      obtain ⟨batch, hbatch⟩ := htook
      have hbackend : backend = .HAI := by
        unfold route at hroute
        cases backend with
        | HAI => rfl
        | JIT =>
            simp only at hroute
            split_ifs at hroute
        | Oracle =>
            simp only at hroute
            split_ifs at hroute
      subst hbackend
      simp [kept_submittedIsa.handleWork core now _, hbatch, Route.backend]

/-! ## One command -/

/-- A command is counted once, for the backend that executed it, and a report to
the learner, if there is one, names that backend too. -/
structure Truthful (core core' : SynapseCore) : Prop where
  jit : core'.ledger.jit = (core.ledger.count (core.executedBy core')).jit
  hai : core'.ledger.hai = (core.ledger.count (core.executedBy core')).hai
  oracle : core'.ledger.oracle = (core.ledger.count (core.executedBy core')).oracle
  observed : core'.observed = core.observed ∨
    core'.observed = core.observed ++ [core.executedBy core']

/-- A command in a run: when it comes and what is decided. -/
structure Decided where
  now : UInt64
  backend : ExecutionBackend
  command : WorkCommand

/-- A command with the backend that was decided for it. -/
def step (core : SynapseCore) (d : Decided) : Option SynapseCore :=
  some (core.handleWork d.now d.backend d.command)

/-- The command is counted for the backend that executes it. -/
def CountsTruly (core : SynapseCore) (d : Decided) : Prop :=
  core.Truthful (core.handleWork d.now d.backend d.command)

/-- The command gets past the early returns, and its route is the decided one. -/
def TakesDecidedRoute (core : SynapseCore) (d : Decided) : Prop :=
  core.isRouted d.command = true ∧ (core.route d.backend d.command).backend = d.backend

/-- The entry points of the work commands are there. -/
def HasWorkPointers (core : SynapseCore) : Prop :=
  core.orig.drawIndexed = true ∧ core.orig.draw = true ∧ core.orig.dispatch = true

/-- **One command** is counted truly exactly if it takes the decided route. -/
theorem countsTruly_iff {core : SynapseCore} (horig : core.HasWorkPointers) (d : Decided) :
    core.CountsTruly d ↔ core.TakesDecidedRoute d := by
  have hexec := core.executedBy_handleWork d.now d.backend d.command horig.1 horig.2.1 horig.2.2
  have hledger := core.ledger_handleWork d.now d.backend d.command
  constructor
  · rintro ⟨hjit, hhai, horacle, -⟩
    rw [hexec] at hjit hhai horacle
    cases hrouted : core.isRouted d.command with
    | false =>
        -- an early return counts nothing
        rw [hrouted, if_neg (by simp)] at hledger
        rw [hledger] at hjit hhai horacle
        cases hroute : (core.route d.backend d.command).backend <;>
          simp [hroute, Ledger.count] at hjit hhai horacle
    | true =>
        rw [hrouted, if_pos rfl] at hledger
        have hjit' : (core.ledger.count d.backend).jit =
            (core.ledger.count (core.route d.backend d.command).backend).jit := by
          rw [← hjit, hledger]
          split <;> rfl
        have hhai' : (core.ledger.count d.backend).hai =
            (core.ledger.count (core.route d.backend d.command).backend).hai := by
          rw [← hhai, hledger]
          split <;> rfl
        exact ⟨hrouted, (Ledger.count_inj hjit' hhai').symm⟩
  · rintro ⟨hrouted, hroute⟩
    rw [if_pos hrouted] at hledger
    rw [hroute] at hexec
    refine ⟨?_, ?_, ?_, ?_⟩
    · rw [hledger, hexec]
      split <;> rfl
    · rw [hledger, hexec]
      split <;> rfl
    · rw [hledger, hexec]
      split <;> rfl
    · have hobserved := congrArg Ledger.observed hledger
      rw [hexec]
      split at hobserved
      · exact Or.inr (hobserved.trans (by cases d.backend <;> rfl))
      · exact Or.inl (hobserved.trans (by cases d.backend <;> rfl))

/-! ## Sessions -/

/-- The handlers set no pointers. -/
theorem HasWorkPointers.step {core core' : SynapseCore} {d : Decided}
    (h : core.HasWorkPointers) (hstep : core.step d = some core') : core'.HasWorkPointers := by
  obtain rfl := Option.some_injective _ hstep
  have horig : (core.handleWork d.now d.backend d.command).orig = core.orig :=
    congrArg Prod.fst (core.handleWork_setup d.now d.backend d.command)
  rw [HasWorkPointers, horig]
  exact h

/-- A command that is counted truly is counted once. -/
theorem CountsTruly.total {core : SynapseCore} {d : Decided} (h : core.CountsTruly d) :
    (core.handleWork d.now d.backend d.command).ledger.total = core.ledger.total + 1 := by
  have hcount := core.ledger.total_count
    (core.executedBy (core.handleWork d.now d.backend d.command))
  rw [← hcount, Ledger.total, Ledger.total, h.jit, h.hai, h.oracle]

/-- If every command is counted truly, they are all counted. -/
theorem total_of_countsTruly {core core' : SynapseCore} {calls : List Decided}
    (h : Along step CountsTruly core calls) (hexec : exec step core calls = some core') :
    core'.ledger.total = core.ledger.total + UInt32.ofNat calls.length := by
  induction calls generalizing core with
  | nil =>
      obtain rfl := Option.some_injective _ hexec
      simp
  | cons d calls ih =>
      obtain ⟨hd, hcalls⟩ := (along_cons step CountsTruly core d calls).mp h _ rfl
      rw [ih hcalls hexec, hd.total, List.length_cons, UInt32.ofNat_add, UInt32.add_assoc,
        UInt32.add_comm 1]
      rfl

/-- **The statistics are truthful** along a run of commands exactly if each takes
the decided route, and then the total grows by the number of commands. -/
theorem statistics_truthful_iff (core : SynapseCore) (calls : List Decided)
    (horig : core.HasWorkPointers) :
    (Along step CountsTruly core calls ↔ Along step TakesDecidedRoute core calls) ∧
      (Along step CountsTruly core calls → ∀ core', exec step core calls = some core' →
        core'.ledger.total = core.ledger.total + UInt32.ofNat calls.length) := by
  have hiff : ∀ (core : SynapseCore) (d : Decided) (core' : SynapseCore), core.HasWorkPointers →
      core.step d = some core' → (core.CountsTruly d ↔ core.TakesDecidedRoute d) :=
    fun _ d _ h _ => countsTruly_iff h d
  have hstep : ∀ (core : SynapseCore) (d : Decided) (core' : SynapseCore), core.HasWorkPointers →
      core.step d = some core' → core.CountsTruly d → core'.HasWorkPointers :=
    fun _ _ _ h hd _ => h.step hd
  exact ⟨along_iff_of_invariant step hiff hstep horig calls,
    fun h _ hexec => total_of_countsTruly h hexec⟩

/-- A core whose JIT cache has a shader for whatever comes. -/
def withShaders : SynapseCore :=
  { onFullDriver with
    jitPipeline := { cache := fun _ => some ⟨[1], 32, 32⟩ } }

/-- A command for each backend. -/
def oneOfEach : List Decided :=
  [⟨0, .JIT, .drawIndexed 1 3 1 0 0 0⟩, ⟨1, .HAI, .draw 1 6 1 0 0⟩, ⟨2, .Oracle, .dispatch 1 8 8 1⟩]

/-- All three backends execute what they have been chosen for. -/
theorem one_of_each_counted : Along step CountsTruly withShaders oneOfEach ∧
    ∀ core', exec step withShaders oneOfEach = some core' →
      core'.ledger.total = withShaders.ledger.total + 3 := by
  obtain ⟨hiff, htotal⟩ := statistics_truthful_iff withShaders oneOfEach ⟨rfl, rfl, rfl⟩
  have hcounts : Along step CountsTruly withShaders oneOfEach := by
    rw [hiff]
    exact along_of_step step rfl ⟨rfl, rfl⟩ <| along_of_step step rfl ⟨rfl, rfl⟩ <|
      along_of_step step rfl ⟨rfl, rfl⟩ <| along_nil step _ _
  exact ⟨hcounts, htotal hcounts⟩

/-- A draw that JIT is chosen for, with nothing cached, is drawn by the driver,
counted for JIT and reported as JIT. -/
theorem jit_miss_counted_for_jit :
    ¬ Along step CountsTruly onFullDriver [⟨0, .JIT, .drawIndexed 1 3 1 0 0 0⟩] := by
  rw [along_cons]
  intro h
  obtain ⟨hcounts, -⟩ := h _ rfl
  have hroute : onFullDriver.route .JIT (.drawIndexed 1 3 1 0 0 0) = .jitMiss := rfl
  have htakes := ((countsTruly_iff ⟨rfl, rfl, rfl⟩ _).mp hcounts).2
  rw [hroute] at htakes
  exact absurd htakes (by decide)

end SynapseCore

end Synapse
