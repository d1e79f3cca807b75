import Synapse.Hai.TruncatedStreams

/-!
# Fetched bytes

The program counter and the byte counter of `simulate_batch`.

Every handler advances both by the same amount (`Lockstep`), and a round that stays within
the stream leaves the program counter in it.  So the loop ends at the end of the stream, with
as many bytes fetched as the stream has (`fetched_bytes_exact`).

### Two counters in step

The position and the count of bytes are advanced by different statements, in three handlers,
and the header is counted before the loop.  They agree because each handler adds the same
number to both; this is `Lockstep`, one lemma for each handler, and the loop keeps it.  That
the loop ends is a matter of the position alone: every round advances it, and a round whose
reads stay within the stream does not take it beyond the end.
-/

namespace Synapse.Sim

open ByteRecords InstructionStream

namespace HAIFrontendSim

/-- The state in front of the loop. -/
def afterHeader (shadowRegisters : UInt8 → Option Bytes) (metrics : SimulationMetrics) :
    HAIFrontendSim where
  pc := 32
  metrics := { metrics with
    totalCycles := metrics.totalCycles + 4
    totalBytesFetched := metrics.totalBytesFetched + 32 }
  shadowRegisters := shadowRegisters
  visited := []

/-- No read of the loop goes past the end, in whichever round it is. -/
def NeverPastEnd (shadowRegisters : UInt8 → Option Bytes) (stream : Bytes)
    (metrics : SimulationMetrics) : Prop :=
  ∀ s, Reaches step pc stream (afterHeader shadowRegisters metrics) s → s.pc < stream.length →
    ∃ s', s.step stream = some s'

/-- Every round takes the program counter on. -/
theorem advances_step : Advances step pc := by
  intro _ _ _ hround
  exact pc_lt_of_step hround

/-- So the batch is simulated to its end, and the other way round. -/
theorem neverPastEnd_iff {stream : Bytes} (hheader : 32 ≤ stream.length)
    (shadowRegisters : UInt8 → Option Bytes) (metrics : SimulationMetrics) :
    NeverPastEnd shadowRegisters stream metrics ↔ ReadsWithin shadowRegisters stream metrics := by
  unfold ReadsWithin
  rw [simulateBatch_eq_run hheader le_rfl]
  constructor
  · intro h
    obtain ⟨s, hrun, -, -⟩ := exists_run advances_step (Nat.le_add_left stream.length 32) h
    exact ⟨s, hrun⟩
  · rintro ⟨s, hrun⟩ s' hreaches hlt
    exact hreaches.exists_step hrun hlt

/-! ## The handlers -/

/-- As many bytes have been fetched, after some others, as the program counter says. -/
def Lockstep (before : UInt64) (s : HAIFrontendSim) : Prop :=
  s.metrics.totalBytesFetched = before + UInt64.ofNat s.pc

namespace Lockstep

variable {before : UInt64} {stream : Bytes} {s s' : HAIFrontendSim}

/-- Behind the header both are 32. -/
theorem afterHeader (shadowRegisters : UInt8 → Option Bytes) (metrics : SimulationMetrics) :
    Lockstep metrics.totalBytesFetched (afterHeader shadowRegisters metrics) := rfl

/-- The descriptor moves both by two. -/
theorem dispatch (h : Lockstep before s) (handler : Handler) :
    Lockstep before (s.dispatch handler) := by
  show s.metrics.totalBytesFetched + 2 = before + UInt64.ofNat (s.pc + 2)
  rw [h, UInt64.ofNat_add, ← UInt64.add_assoc]
  rfl

/-- A delta moves both by its payload and three. -/
theorem handleDeltaUpdate (h : Lockstep before s)
    (hs' : s.handleDeltaUpdate stream = some s') : Lockstep before s' := by
  unfold HAIFrontendSim.handleDeltaUpdate at hs'
  obtain ⟨targetOp, -, hmask⟩ := Option.bind_eq_some_iff.mp hs'
  obtain ⟨mask, -, rfl⟩ := Option.map_eq_some_iff.mp hmask
  show s.metrics.totalBytesFetched + 3 + UInt64.ofNat _ = before + UInt64.ofNat (s.pc + 3 + _)
  rw [h, UInt64.ofNat_add, UInt64.ofNat_add, ← UInt64.add_assoc, ← UInt64.add_assoc]
  rfl

/-- Any other instruction moves both by its payload. -/
theorem handleStandardOpcode (h : Lockstep before s) {op len : UInt8}
    (hs' : s.handleStandardOpcode op len stream = some s') : Lockstep before s' := by
  unfold HAIFrontendSim.handleStandardOpcode at hs'
  dsimp only at hs'
  split at hs'
  · obtain rfl := Option.some_injective _ hs'
    show s.metrics.totalBytesFetched + UInt64.ofNat _ = before + UInt64.ofNat (s.pc + _)
    rw [h, UInt64.ofNat_add, ← UInt64.add_assoc]
  · cases hs'

/-- A repetition moves both by four. -/
theorem handleRepeat (h : Lockstep before s) (hs' : s.handleRepeat stream = some s') :
    Lockstep before s' := by
  obtain ⟨count, -, rfl⟩ := Option.map_eq_some_iff.mp hs'
  show s.metrics.totalBytesFetched + 4 = before + UInt64.ofNat (s.pc + 4)
  rw [h, UInt64.ofNat_add, ← UInt64.add_assoc]
  rfl

/-- **A round.** -/
theorem step (h : Lockstep before s) (hs' : s.step stream = some s') : Lockstep before s' := by
  obtain ⟨word, -, hhandled⟩ := Option.bind_eq_some_iff.mp hs'
  dsimp only at hhandled
  split at hhandled
  · exact (h.dispatch .deltaUpdate).handleDeltaUpdate hhandled
  · split at hhandled
    · exact (h.dispatch .repeatLast).handleRepeat hhandled
    · exact (h.dispatch .standardOpcode).handleStandardOpcode hhandled

end Lockstep

/-! ## The end of the loop -/

/-- A read that has a result lies within the stream. -/
theorem le_of_read {width : ℕ} {stream : Bytes} {pc x : ℕ} (h : read width stream pc = some x) :
    pc + width ≤ stream.length := by
  unfold read at h
  split at h
  · assumption
  · cases h

/-- A round within the stream does not leave it. -/
theorem pc_le_of_step {stream : Bytes} {s s' : HAIFrontendSim} (h : s.step stream = some s') :
    s'.pc ≤ stream.length := by
  rw [step_eq, Option.bind_eq_some_iff] at h
  obtain ⟨word, -, hhandled⟩ := h
  dsimp only at hhandled
  split at hhandled
  · obtain ⟨count, hread, rfl⟩ := Option.map_eq_some_iff.mp hhandled
    exact le_of_read hread
  · unfold handleStandardOpcode at hhandled
    dsimp only at hhandled
    split at hhandled
    · rename_i hwithin
      obtain rfl := Option.some_injective _ hhandled
      exact hwithin
    · cases hhandled

/-- **The byte count is exact, and the loop ends**: a stream without a header leaves everything
as it is, and after any other one, as long as no read goes past its end, the program counter
stands there and all bytes have been fetched. -/
theorem fetched_bytes_exact (shadowRegisters : UInt8 → Option Bytes) (stream : Bytes)
    (metrics : SimulationMetrics) :
    (stream.length < 32 → ∃ s, simulateBatch shadowRegisters stream metrics = some s ∧
      s.metrics = metrics ∧ s.shadowRegisters = shadowRegisters) ∧
    (32 ≤ stream.length → NeverPastEnd shadowRegisters stream metrics →
      ∃ s, simulateBatch shadowRegisters stream metrics = some s ∧ s.pc = stream.length ∧
        s.metrics.totalBytesFetched =
          metrics.totalBytesFetched + UInt64.ofNat stream.length) := by
  constructor
  · intro hshort
    exact ⟨_, if_pos hshort, rfl, rfl⟩
  · intro hheader hwithin
    obtain ⟨s, hrun, hreaches, hend⟩ := exists_run advances_step
      (s := afterHeader shadowRegisters metrics) (Nat.le_add_left stream.length 32) hwithin
    have hpc : s.pc = stream.length := by
      refine Nat.le_antisymm ?_ hend
      have hround : ∀ s s' : HAIFrontendSim, s.pc ≤ stream.length → s.step stream = some s' →
          s'.pc ≤ stream.length := fun _ _ _ => pc_le_of_step
      exact hreaches.invariant hround hheader
    have hlockstep : Lockstep metrics.totalBytesFetched s := by
      have hround : ∀ s s' : HAIFrontendSim, Lockstep metrics.totalBytesFetched s →
          s.step stream = some s' → Lockstep metrics.totalBytesFetched s' := fun _ _ => .step
      exact hreaches.invariant hround (.afterHeader shadowRegisters metrics)
    refine ⟨s, (simulateBatch_eq_run hheader le_rfl _ _).trans hrun, hpc, ?_⟩
    rw [hlockstep, hpc]

/-- A header, an instruction with eight bytes of payload, and one that repeats it five times. -/
def repeatedInstruction : Bytes :=
  List.replicate 32 0 ++ [0x81, 0, 1, 2, 3, 4, 5, 6, 7, 8] ++ [0x30, 0, 5, 0, 0, 0]

/-- An instruction with a payload, and its repetition. -/
theorem fetched_bytes_repeated :
    ∃ s, simulateBatch (fun _ => none) repeatedInstruction {} = some s ∧ s.pc = 48 ∧
      s.metrics.totalBytesFetched = 48 := by
  have hheader : 32 ≤ repeatedInstruction.length := by decide
  refine (fetched_bytes_exact (fun _ => none) repeatedInstruction {}).2 hheader ?_
  exact (neverPastEnd_iff hheader _ _).mpr ⟨_, rfl⟩

end HAIFrontendSim

end Synapse.Sim
