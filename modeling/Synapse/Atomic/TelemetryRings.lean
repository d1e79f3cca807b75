import Synapse.Atomic.WalEntry
import Synapse.Core.Workload
import Synapse.Foundations.SpscRing

/-!
# The two telemetry rings

`TelemetryRingBuffer` of `synapse_umd.h` holds workload signatures, `TelemetryRing`
of `atomic_telemetry.h` holds WAL entries.  Their `push` and `pop` are the same
loads and stores on 1024 slots, so both are a `SpscRing` of `2 ^ 10` slots, with the
layout of their values.
-/

namespace Synapse

open ByteRecords Runs

/-- The signature in a slot. -/
def WorkloadSignature.ofBytes (bytes : Bytes) : WorkloadSignature where
  drawCallCount := UInt32.ofNat (ofLeBytes (bytes.take 4))
  pipelineStateChanges := UInt32.ofNat (ofLeBytes ((bytes.drop 4).take 4))
  shaderInstructionEstimate := UInt32.ofNat (ofLeBytes ((bytes.drop 8).take 4))
  vertexCount := UInt32.ofNat (ofLeBytes ((bytes.drop 12).take 4))
  textureBindings := UInt32.ofNat (ofLeBytes ((bytes.drop 16).take 4))
  isComputeDispatch := bytes.getD 20 0 ≠ 0
  shaderHash := UInt64.ofNat (ofLeBytes ((bytes.drop 24).take 8))

/-- A signature is read back from its bytes. -/
theorem WorkloadSignature.ofBytes_bytes (sig : WorkloadSignature) : ofBytes sig.bytes = sig := by
  obtain ⟨draws, changes, instructions, vertices, textures, compute, hash⟩ := sig
  rw [WorkloadSignature.mk.injEq]
  refine ⟨?_, ?_, ?_, ?_, ?_, ?_, ?_⟩
  · simp [ofBytes, bytes, ofLeBytes_word32]
  · simp [ofBytes, bytes, List.drop_append, ofLeBytes_word32]
  · simp [ofBytes, bytes, List.drop_append, List.drop_eq_nil_of_le, ofLeBytes_word32]
  · simp [ofBytes, bytes, List.drop_append, List.drop_eq_nil_of_le, ofLeBytes_word32]
  · simp [ofBytes, bytes, List.drop_append, List.drop_eq_nil_of_le, ofLeBytes_word32]
  · cases compute <;> simp [ofBytes, bytes]
  · simp [ofBytes, bytes, List.drop_append, List.drop_eq_nil_of_le, List.take_of_length_le,
      ofLeBytes_word64]

/-- The signatures of the ring as fixed-size records. -/
def signatureCodec : RecordCodec WorkloadSignature where
  size := kWorkloadSignatureSize.toNat
  encode := WorkloadSignature.bytes
  decode := WorkloadSignature.ofBytes
  size_pos := by decide
  length_encode := WorkloadSignature.length_bytes
  decode_encode := WorkloadSignature.ofBytes_bytes

namespace TelemetryRingBuffer

/-- A step of `push` or of `pop`. -/
def step : SpscRing WorkloadSignature → SpscRing.Action WorkloadSignature →
    Option (SpscRing WorkloadSignature) :=
  SpscRing.step signatureCodec 10

end TelemetryRingBuffer

namespace Atomic.TelemetryRing

/-- A step of `push` or of `pop`. -/
def step : SpscRing WALEntry → SpscRing.Action WALEntry → Option (SpscRing WALEntry) :=
  SpscRing.step walCodec 10

end Atomic.TelemetryRing

open Atomic

/-- **Both rings are queues** bounded at 1023 values, at every point of every
interleaving of a producer and a consumer. -/
theorem rings_are_queues :
    (∀ memory actions s, exec TelemetryRingBuffer.step (.create memory) actions = some s →
      s.IsQueue signatureCodec 10) ∧
    ∀ memory actions s, exec TelemetryRing.step (.create memory) actions = some s →
      s.IsQueue walCodec 10 :=
  ⟨fun _ _ _ h => SpscRing.isQueue_of_exec h, fun _ _ _ h => SpscRing.isQueue_of_exec h⟩

/-- A push that the consumer does not overtake, on a ring that holds less than 1023 values,
returns true and stores its value behind the others. -/
def PushesAlone {α : Type} (c : RecordCodec α)
    (step : SpscRing α → SpscRing.Action α → Option (SpscRing α)) : Prop :=
  ∀ memory actions s x, exec step (.create memory) actions = some s →
    s.producer = .idle → s.pushed.length < s.popped.length + (2 ^ 10 - 1) →
    ∃ s', exec step s (SpscRing.pushAlone c x) = some s' ∧
      s'.events = s.events ++ [.push x true] ∧
      s'.contents c 10 = s.contents c 10 ++ [x]

/-- A push that nobody disturbs puts its value in if there is room. -/
theorem pushesAlone {α : Type} (c : RecordCodec α) : PushesAlone c (SpscRing.step c 10) := by
  intro memory actions s x hrun hidle hroom
  obtain ⟨queue, hholds⟩ := SpscRing.exists_holds_of_exec hrun
  rw [hholds.length_pushed, Nat.add_lt_add_iff_left] at hroom
  obtain ⟨s', hexec, hholds', hevents, -⟩ := SpscRing.exec_pushAlone hholds hidle hroom x
  refine ⟨s', hexec, hevents, ?_⟩
  rw [hholds'.contents_eq, hholds.contents_eq]

/-- **Neither ring refuses without need.** -/
theorem rings_accept : PushesAlone signatureCodec TelemetryRingBuffer.step ∧
    PushesAlone walCodec TelemetryRing.step :=
  ⟨pushesAlone signatureCodec, pushesAlone walCodec⟩

/-- A pop loads the tail of an empty ring; then a whole push; then the rest of the pop. -/
def popAcrossPush (sig : WorkloadSignature) : List (SpscRing.Action WorkloadSignature) :=
  [.pop, .consume] ++ (SpscRing.pushAlone signatureCodec sig ++ SpscRing.restOfPop signatureCodec)

/-- The pop delivers what has been pushed since it began. -/
theorem rings_are_queues_delivered :
    ∃ s, exec TelemetryRingBuffer.step (.create fun _ _ => 0)
        (popAcrossPush { drawCallCount := 5 }) = some s ∧
      s.events = [.push { drawCallCount := 5 } true, .pop (some { drawCallCount := 5 })] ∧
      s.IsQueue signatureCodec 10 := by
  obtain ⟨s₁, hbefore, hidle, hconsumer, hevents⟩ :
      ∃ s₁, exec TelemetryRingBuffer.step (.create fun _ _ => 0) [.pop, .consume] = some s₁ ∧
        s₁.producer = .idle ∧ s₁.consumer = .loadedTail 0 ∧ s₁.events = [] :=
    ⟨_, rfl, rfl, rfl, rfl⟩
  obtain ⟨queue, hholds⟩ := SpscRing.exists_holds_of_exec hbefore
  have hempty : [] = queue := by
    have hpushed := hholds.pushed_eq
    rwa [SpscRing.pushed, SpscRing.popped, hevents] at hpushed
  subst hempty
  obtain ⟨s₂, hpush, hholds₂, hevents₂, hconsumer₂⟩ :=
    SpscRing.exec_pushAlone hholds hidle (by decide) { drawCallCount := 5 }
  obtain ⟨s₃, hpop, -, hevents₃⟩ :=
    SpscRing.exec_restOfPop hholds₂ (hconsumer₂.trans hconsumer)
  have hrun : exec TelemetryRingBuffer.step (.create fun _ _ => 0)
      (popAcrossPush { drawCallCount := 5 }) = some s₃ := by
    rw [TelemetryRingBuffer.step] at hbefore ⊢
    rw [popAcrossPush, exec_append, hbefore, Option.bind_some, exec_append, hpush,
      Option.bind_some]
    exact hpop
  refine ⟨s₃, hrun, ?_, rings_are_queues.1 _ _ s₃ hrun⟩
  rw [hevents₃, hevents₂, hevents]
  rfl

end Synapse
