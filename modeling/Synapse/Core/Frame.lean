import Synapse.Core.SynapseCore

/-!
# What the work commands leave alone

The three handlers are put together from the same helpers.  A relation between the
core before and after that holds for each of the helpers, and for several of them in
a row, holds for a handler, whatever route a command takes (`Frame.handleWork`).
The JIT and the HAI path count only where they can be taken: if they are decided
and the feature is available.

### One walk through the handlers

Many statements about a command have the form "the core afterwards is to the core before in
this relation": the log has grown at its end, a table has lost no entry, the configuration is
the same.  The handlers are walked through once, here, for a relation that is a parameter
(`Frame`); what is left for each statement is that the relation is reflexive and transitive
and holds for the helpers, each of them by itself.
-/

namespace Synapse

open Atomic

namespace SynapseCore

/-- A relation that every step of a handler satisfies when the given backend is
decided. -/
structure Frame (R : SynapseCore → SynapseCore → Prop) (backend : ExecutionBackend) : Prop where
  trans : ∀ core core₁ core₂, R core core₁ → R core₁ core₂ → R core core₂
  walLog : ∀ core now type data size, R core (core.walLog now type data size)
  pushTelemetry : ∀ core sig, R core (core.pushTelemetry sig)
  count : ∀ core, R core (core.incrementBackendCounter backend)
  observe : ∀ core, R core (core.observe backend)
  forwardIf : ∀ core pointer call, R core (core.forwardIf pointer call)
  oracle : ∀ core cmd indexCount instanceCount firstIndex vertexOffset firstInstance,
    R core (core.executeOracleDraw cmd indexCount instanceCount firstIndex vertexOffset
      firstInstance)
  jit : backend = .JIT → ∀ core cmd sig, core.degrade.isAvailable "jit" = true →
    R core (core.executeJitPath cmd sig)
  hai : backend = .HAI → ∀ core cmd sig, core.degrade.isAvailable "hai" = true →
    R core (core.executeHaiPath cmd sig)

namespace Frame

variable {R : SynapseCore → SynapseCore → Prop} {backend : ExecutionBackend}

/-- What every routed command does first: log, sample, count. -/
theorem prelude (h : Frame R backend) (core : SynapseCore) (now : UInt64) (type : WALEventType)
    (data : Option ByteRecords.Bytes) (size : UInt32) (sig : WorkloadSignature) :
    R core (((core.walLog now type data size).pushTelemetry sig).incrementBackendCounter
      backend) :=
  h.trans _ _ _ (h.trans _ _ _ (h.walLog ..) (h.pushTelemetry ..)) (h.count _)

/-- The choice the handlers share. -/
theorem choice {core forwarded : SynapseCore} (hforward : R core forwarded)
    (cmd : VkCommandBuffer) (sig : WorkloadSignature) {jit hai : Bool}
    (hjit : jit = true → core.degrade.isAvailable "jit" = true)
    (hhai : hai = true → core.degrade.isAvailable "hai" = true) :
    Frame R backend →
    R core (match backend with
      | .JIT => if jit then core.executeJitPath cmd sig else forwarded
      | .HAI => if hai then core.executeHaiPath cmd sig else forwarded
      | .Oracle => forwarded) := by
  intro h
  cases backend with
  | JIT =>
      cases jit with
      | false => exact hforward
      | true => exact h.jit rfl core cmd sig (hjit rfl)
  | HAI =>
      cases hai with
      | false => exact hforward
      | true => exact h.hai rfl core cmd sig (hhai rfl)
  | Oracle => exact hforward

/-- A relation that holds for the helpers holds for the handlers. -/
theorem handleWork (h : Frame R backend) (core : SynapseCore) (now : UInt64)
    (command : WorkCommand) : R core (core.handleWork now backend command) := by
  cases command with
  | drawIndexed cmd indexCount instanceCount firstIndex vertexOffset firstInstance =>
      unfold SynapseCore.handleWork handleDrawIndexed
      dsimp only
      have hprelude := h.prelude core now .drawIndexed
        (some (core.captureCurrentSignature cmd indexCount).bytes) kWorkloadSignatureSize
        (core.captureCurrentSignature cmd indexCount)
      split
      · exact h.trans _ _ _ (h.forwardIf ..) (h.walLog ..)
      · split
        · exact h.trans _ _ _ (h.forwardIf ..) (h.walLog ..)
        · refine h.trans _ _ _ (h.trans _ _ _ hprelude ?_) (h.observe _)
          exact choice (h.oracle ..) _ _ id id h
  | draw cmd vertexCount instanceCount firstVertex firstInstance =>
      unfold SynapseCore.handleWork handleDraw
      dsimp only
      have hprelude := h.prelude core now .draw none 0
        { core.captureCurrentSignature cmd vertexCount with isComputeDispatch := false }
      split
      · exact h.trans _ _ _ (h.forwardIf ..) (h.walLog ..)
      · refine h.trans _ _ _ hprelude ?_
        exact choice (h.forwardIf ..) _ _ id id h
  | dispatch cmd groupCountX groupCountY groupCountZ =>
      unfold SynapseCore.handleWork handleDispatch
      dsimp only
      have hprelude := h.prelude core now .dispatch (some dispatchSignature.bytes)
        kWorkloadSignatureSize dispatchSignature
      have hand : ∀ {a b : Bool}, (a && b) = true → a = true :=
        fun hab => (Bool.and_eq_true_iff.mp hab).1
      split
      · refine h.trans _ _ _ (h.trans _ _ _ hprelude ?_) (h.observe _)
        exact choice (h.forwardIf ..) _ _ hand hand h
      · refine h.trans _ _ _ hprelude ?_
        exact choice (h.forwardIf ..) _ _ hand hand h

end Frame

/-- A part of the core that no step of a handler changes. -/
abbrev Kept {β : Type*} (part : SynapseCore → β) (backend : ExecutionBackend) : Prop :=
  Frame (fun core core' => part core' = part core) backend

/-- The entry points, the configuration and the bound state are read only. -/
def setup (core : SynapseCore) :
    OrigPointers × Bool × ConfigSnapshot × (VkCommandBuffer → Option CmdBufState) :=
  (core.orig, core.drawTelemetryAllowed, core.config, core.cmdState)

/-- What the set-up has made is kept by each of the helpers. -/
theorem kept_setup (backend : ExecutionBackend) : Kept setup backend where
  trans _ _ _ h h' := h'.trans h
  walLog core now type data size := by
    obtain ⟨recovery, walOps, hlog⟩ := core.walLog_frame now type data size
    rw [hlog]
    rfl
  pushTelemetry _ _ := rfl
  count core := by
    obtain ⟨jit, hai, oracle, hcount⟩ := core.incrementBackendCounter_frame backend
    rw [hcount]
    rfl
  observe _ := rfl
  forwardIf core pointer call := by
    unfold forwardIf
    split <;> rfl
  oracle core cmd indexCount instanceCount firstIndex vertexOffset firstInstance := by
    unfold executeOracleDraw
    split <;> rfl
  jit _ core cmd sig _ := by
    unfold executeJitPath executeOracleDraw
    dsimp only
    split
    · rfl
    · split <;> rfl
  hai _ _ _ _ _ := rfl

/-- An HAI batch leaves the GPU queue alone. -/
theorem kept_submittedIsa : Kept submittedIsa .HAI where
  trans _ _ _ h h' := h'.trans h
  walLog core now type data size := by
    obtain ⟨recovery, walOps, hlog⟩ := core.walLog_frame now type data size
    rw [hlog]
  pushTelemetry _ _ := rfl
  count _ := rfl
  observe _ := rfl
  forwardIf core pointer call := by
    unfold forwardIf
    split <;> rfl
  oracle core cmd indexCount instanceCount firstIndex vertexOffset firstInstance := by
    unfold executeOracleDraw
    split <;> rfl
  jit h := absurd h (by decide)
  hai _ _ _ _ _ := rfl

/-- So a command leaves the set-up alone. -/
theorem handleWork_setup (core : SynapseCore) (now : UInt64) (backend : ExecutionBackend)
    (command : WorkCommand) : (core.handleWork now backend command).setup = core.setup :=
  (kept_setup backend).handleWork core now command

end SynapseCore

end Synapse
