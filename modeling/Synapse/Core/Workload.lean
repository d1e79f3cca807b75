import Synapse.Foundations.ByteRecords

/-!
# Workloads and the two backends they can be sent to

The signature of a workload, the cache of the JIT pipeline and the instruction
builder of the HAI path.

The JIT pipeline is looked up with a hash of shader and recommended backend, but
a freshly compiled shader is filed under the bare shader hash.  Both are kept as
they are.  `generate_isa` copies its source and `inject_telemetry_constants` does
nothing.

### What has been submitted

`flush_to_hardware` only clears the batch.  The builder here also keeps the batches it has
flushed (`submitted`), which nothing in the code reads; they are there for statements about a
whole run.
-/

namespace Synapse

open ByteRecords

/-- Where a workload can be sent. -/
inductive ExecutionBackend where
  | JIT
  | HAI
  | Oracle
  deriving DecidableEq, Repr

/-- The enumerator's value. -/
def ExecutionBackend.code : ExecutionBackend → UInt64
  | JIT => 0
  | HAI => 1
  | Oracle => 2

/-- What the analyzer is told about a draw or a dispatch, with the source's defaults. -/
structure WorkloadSignature where
  drawCallCount : UInt32 := 0
  pipelineStateChanges : UInt32 := 0
  shaderInstructionEstimate : UInt32 := 0
  vertexCount : UInt32 := 0
  textureBindings : UInt32 := 0
  isComputeDispatch : Bool := false
  shaderHash : UInt64 := 0
  deriving DecidableEq, Repr

/-- The signature as it lies in memory: five words, the flag, three bytes of padding
(taken as zero) and the hash. -/
def WorkloadSignature.bytes (sig : WorkloadSignature) : Bytes :=
  leBytes 4 sig.drawCallCount.toNat ++ leBytes 4 sig.pipelineStateChanges.toNat ++
    leBytes 4 sig.shaderInstructionEstimate.toNat ++ leBytes 4 sig.vertexCount.toNat ++
    leBytes 4 sig.textureBindings.toNat ++ [if sig.isComputeDispatch then 1 else 0, 0, 0, 0] ++
    leBytes 8 sig.shaderHash.toNat

/-- `sizeof(WorkloadSignature)`. -/
def kWorkloadSignatureSize : UInt32 := 32

/-- A signature takes up as many bytes as the C++ object. -/
theorem WorkloadSignature.length_bytes (sig : WorkloadSignature) :
    sig.bytes.length = kWorkloadSignatureSize.toNat := by
  simp [bytes, kWorkloadSignatureSize]

/-! ## `hash_utils.h` -/

/-- One step of the hash, in 64-bit arithmetic. -/
def hashCombine (seed value : UInt64) : UInt64 :=
  let spread : UInt64 := (seed <<< (6 : UInt64)) + (seed >>> (2 : UInt64))
  seed ^^^ (value + 0x9e3779b9 + spread)

/-- The key under which the JIT pipeline is asked for a shader. -/
def backendContextHash (shaderHash : UInt64) (backend : ExecutionBackend) : UInt64 :=
  hashCombine shaderHash (backend.code <<< 32)

/-! ## `JITPipeline` -/

/-- A compiled shader. -/
structure SpecializedShader where
  isaBinary : List UInt32
  registerCount : UInt32
  occupancyHint : UInt32
  deriving DecidableEq, Repr

/-- The compiled shaders, by hash. -/
structure JITPipeline where
  cache : UInt64 → Option SpecializedShader

namespace JITPipeline

/-- The target register count, whatever the source is. -/
def performRprPass (_source : List UInt32) : UInt32 := 32

/-- The occupancy hint for a number of registers. -/
def calculateOccupancy (regCount : UInt32) : UInt32 := if regCount > 0 then 1024 / regCount else 0

/-- `compile_specialized`: no shader without a source. -/
def compileSpecialized (hash : UInt64) (source : List UInt32) (jit : JITPipeline) :
    Option SpecializedShader × JITPipeline :=
  if source.isEmpty then (none, jit)
  else
    let specialized : SpecializedShader := {
      isaBinary := source
      registerCount := performRprPass source
      occupancyHint := calculateOccupancy (performRprPass source) }
    (some specialized, ⟨Function.update jit.cache hash (some specialized)⟩)

/-- `get_optimized_shader` under the analyzer's current recommendation. -/
def getOptimizedShader (recommendation : ExecutionBackend) (shaderHash : UInt64)
    (source : List UInt32) (jit : JITPipeline) : Option SpecializedShader × JITPipeline :=
  match jit.cache (backendContextHash shaderHash recommendation) with
  | some shader => (some shader, jit)
  | none => jit.compileSpecialized shaderHash source

/-- Without a source the cache alone answers, and stays as it is. -/
theorem getOptimizedShader_of_no_source (recommendation : ExecutionBackend)
    (shaderHash : UInt64) (jit : JITPipeline) :
    jit.getOptimizedShader recommendation shaderHash [] =
      (jit.cache (backendContextHash shaderHash recommendation), jit) := by
  unfold getOptimizedShader
  split
  · rename_i shader hhit
    rw [hhit]
  · rename_i hmiss
    rw [hmiss]
    rfl

end JITPipeline

/-! ## `HAIBytecodeBuilder` -/

/-- An instruction of the builder; `payload` has its eight words. -/
structure HAIInstruction where
  opcode : UInt8
  length : UInt8
  payload : List UInt32
  deriving DecidableEq, Repr

/-- What the builder has counted since it was made. -/
structure HAIStats where
  fullDrawsEmitted : UInt64 := 0
  deltaDrawsEmitted : UInt64 := 0
  rawBytesEquivalent : UInt64 := 0
  actualBytesEmitted : UInt64 := 0
  deriving DecidableEq, Repr

/-- The builder, with the batches it has submitted so far. -/
structure HAIBytecodeBuilder where
  currentBatch : List HAIInstruction := []
  stats : HAIStats := {}
  submitted : List (List HAIInstruction) := []
  deriving DecidableEq, Repr

namespace HAIBytecodeBuilder

/-- The opcode of a full draw. -/
def OP_FULL_DRAW_INDEXED : UInt8 := 0x10

/-- The opcode of a delta draw. -/
def OP_DELTA_UPDATE : UInt8 := 0x20

/-- What a full draw is counted as. -/
def kFullDrawBytes : UInt32 := 48

/-- What a delta draw is counted as: two bytes and four for each dirty word. -/
def deltaDrawBytes (dirtyWordCount : UInt32) : UInt32 := 2 + dirtyWordCount * 4

/-- `__builtin_popcount`. -/
def popcount (mask : UInt32) : UInt32 :=
  UInt32.ofNat ((List.range 32).countP fun i => mask.toNat.testBit i)

/-- Starts a batch; the statistics go on. -/
def beginBatch (b : HAIBytecodeBuilder) : HAIBytecodeBuilder := { b with currentBatch := [] }

/-- Appends a full draw.  Its payload has the two counts of the signature and no more. -/
def writeFullDraw (sig : WorkloadSignature) (b : HAIBytecodeBuilder) : HAIBytecodeBuilder :=
  { b with
    currentBatch := b.currentBatch ++ [{
      opcode := OP_FULL_DRAW_INDEXED
      length := kFullDrawBytes.toUInt8
      payload := [sig.vertexCount, sig.drawCallCount, 0, 0, 0, 0, 0, 0] }]
    stats := { b.stats with
      rawBytesEquivalent := b.stats.rawBytesEquivalent + kFullDrawBytes.toUInt64
      actualBytesEmitted := b.stats.actualBytesEmitted + kFullDrawBytes.toUInt64
      fullDrawsEmitted := b.stats.fullDrawsEmitted + 1 } }

/-- Appends a delta draw.  The mask and the vertex count are its whole payload, whatever the
number of dirty words is. -/
def writeDeltaDraw (sig : WorkloadSignature) (changedMask : UInt32) (b : HAIBytecodeBuilder) :
    HAIBytecodeBuilder :=
  let emitted := deltaDrawBytes (popcount changedMask)
  { b with
    currentBatch := b.currentBatch ++ [{
      opcode := OP_DELTA_UPDATE
      length := emitted.toUInt8
      payload := [changedMask, sig.vertexCount, 0, 0, 0, 0, 0, 0] }]
    stats := { b.stats with
      rawBytesEquivalent := b.stats.rawBytesEquivalent + kFullDrawBytes.toUInt64
      actualBytesEmitted := b.stats.actualBytesEmitted + emitted.toUInt64
      deltaDrawsEmitted := b.stats.deltaDrawsEmitted + 1 } }

/-- Submits the batch and starts an empty one. -/
def flushToHardware (b : HAIBytecodeBuilder) : HAIBytecodeBuilder :=
  { b with currentBatch := [], submitted := b.submitted ++ [b.currentBatch] }

/-- The default of `changed_mask`: index and count. -/
def kIndexAndCount : UInt32 := 3

end HAIBytecodeBuilder

end Synapse
