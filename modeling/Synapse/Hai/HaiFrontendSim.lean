import Synapse.Foundations.ByteRecords
import Synapse.Foundations.InstructionStream

/-!
# `HAIFrontendSim`

The decoder of `hai_frontend_sim.h`, and the instructions of the documented format.

A descriptor has 6 bits for the opcode, so that no opcode the decoder reads is `0xFF`:
`DELTA_UPDATE` comes in as the standard opcode `0x3F`.  Streams are decoded as documented
exactly if they have no such instruction (`decodes_iff`).

### Reading beyond the end

The decoder reads words at its position without looking at the length of the stream.  In the
model such a read has no result, and neither has the step.  This module is about streams in
which every instruction is complete, and `Hai.TruncatedStreams` about the others.

The documented instructions are a type of their own, with the length of its payload as a field
of each, and `encode` is how they are written.  Decoding a written stream visits the
instructions where they stand, and what it makes of each is compared with the documentation,
handler by handler.
-/

namespace Synapse.Sim

open ByteRecords InstructionStream

/-! ## The decoder -/

/-- `SimulationMetrics` -/
structure SimulationMetrics where
  totalCycles : UInt64 := 0
  totalBytesFetched : UInt64 := 0
  deltaUpdatesProcessed : UInt32 := 0
  deriving DecidableEq, Repr

/-- The branches of the decoder. -/
inductive Handler where
  | deltaUpdate
  | standardOpcode
  | repeatLast
  deriving DecidableEq, Repr

/-- The state of `simulate_batch`, with the positions it has visited and the handlers it
has called there. -/
structure HAIFrontendSim where
  pc : ℕ
  metrics : SimulationMetrics
  shadowRegisters : UInt8 → Option Bytes
  visited : List (ℕ × Handler)

namespace HAIFrontendSim

/-- A word of the stream; reading past the end is undefined. -/
def read (width : ℕ) (stream : Bytes) (pc : ℕ) : Option ℕ :=
  if pc + width ≤ stream.length then some (ofLeBytes ((stream.drop pc).take width)) else none

/-- `__builtin_popcount`. -/
def popcount (mask : UInt16) : ℕ := (List.range 16).countP fun i => mask.toNat.testBit i

/-- `DELTA_UPDATE`: a target, a mask, and a word for each bit of the mask. -/
def handleDeltaUpdate (stream : Bytes) (s : HAIFrontendSim) : Option HAIFrontendSim :=
  (read 1 stream s.pc).bind fun _targetOp =>
    (read 2 stream (s.pc + 1)).map fun mask =>
      let payloadSize := popcount (UInt16.ofNat mask) * 4
      { s with
        pc := s.pc + 3 + payloadSize
        metrics := {
          totalCycles := s.metrics.totalCycles + 2
          totalBytesFetched := s.metrics.totalBytesFetched + 3 + UInt64.ofNat payloadSize
          deltaUpdatesProcessed := s.metrics.deltaUpdatesProcessed + 1 } }

/-- `handle_standard_opcode`; the payload is copied, so that it has to be there. -/
def handleStandardOpcode (op len : UInt8) (stream : Bytes) (s : HAIFrontendSim) :
    Option HAIFrontendSim :=
  let payloadSize := len.toNat * 4
  if s.pc + payloadSize ≤ stream.length then
    some { s with
      pc := s.pc + payloadSize
      metrics := { s.metrics with
        totalCycles := s.metrics.totalCycles + 1
        totalBytesFetched := s.metrics.totalBytesFetched + UInt64.ofNat payloadSize }
      shadowRegisters :=
        Function.update s.shadowRegisters op (some ((stream.drop s.pc).take payloadSize)) }
  else none

/-- `REPEAT`: a count of cycles. -/
def handleRepeat (stream : Bytes) (s : HAIFrontendSim) : Option HAIFrontendSim :=
  (read 4 stream s.pc).map fun count =>
    { s with
      pc := s.pc + 4
      metrics := { s.metrics with
        totalCycles := s.metrics.totalCycles + UInt64.ofNat count
        totalBytesFetched := s.metrics.totalBytesFetched + 4 } }

/-- The opcode that the decoder compares with. -/
def DELTA_UPDATE : UInt8 := 0xFF

/-- The opcode of a repetition. -/
def REPEAT : UInt8 := 0x30

/-- The descriptor has been fetched, and its handler is called. -/
def dispatch (handler : Handler) (s : HAIFrontendSim) : HAIFrontendSim :=
  { s with
    pc := s.pc + 2
    metrics := { s.metrics with totalBytesFetched := s.metrics.totalBytesFetched + 2 }
    visited := s.visited ++ [(s.pc, handler)] }

/-- The body of the loop. -/
def step (stream : Bytes) (s : HAIFrontendSim) : Option HAIFrontendSim :=
  (read 2 stream s.pc).bind fun word =>
    let descriptor := UInt16.ofNat word
    let opcode := (descriptor &&& 0x3F).toUInt8
    let length := ((descriptor >>> 6) &&& 0x0F).toUInt8
    -- eight bits are compared with the six that are left
    if opcode = DELTA_UPDATE then handleDeltaUpdate stream (s.dispatch .deltaUpdate)
    else if opcode = REPEAT then handleRepeat stream (s.dispatch .repeatLast)
    else handleStandardOpcode opcode length stream (s.dispatch .standardOpcode)

/-- `simulate_batch`, on a simulator with the given shadow registers. -/
def simulateBatch (shadowRegisters : UInt8 → Option Bytes) (stream : Bytes)
    (metrics : SimulationMetrics) : Option HAIFrontendSim :=
  if stream.length < 32 then some {
    pc := 0
    metrics := metrics
    shadowRegisters := shadowRegisters
    visited := [] }
  else run step pc stream stream.length {
    pc := 32
    metrics := { metrics with
      totalCycles := metrics.totalCycles + 4
      totalBytesFetched := metrics.totalBytesFetched + 32 }
    shadowRegisters := shadowRegisters
    visited := [] }

/-! ## Opcodes -/

/-- The opcode has 6 bits. -/
theorem opcode_lt (descriptor : UInt16) : (descriptor &&& 0x3F).toUInt8.toNat < 64 := by
  rw [UInt16.toNat_toUInt8, UInt16.toNat_and]
  refine (Nat.mod_le _ _).trans_lt ?_
  exact Nat.lt_succ_of_le Nat.and_le_right

/-- Six bits are never eight. -/
theorem opcode_ne_deltaUpdate (descriptor : UInt16) :
    (descriptor &&& 0x3F).toUInt8 ≠ DELTA_UPDATE := by
  intro heq
  have hlt := opcode_lt descriptor
  rw [heq] at hlt
  exact absurd hlt (by decide)

/-- **The delta branch is never taken.** -/
theorem step_eq (stream : Bytes) (s : HAIFrontendSim) :
    s.step stream = (read 2 stream s.pc).bind fun word =>
      let descriptor := UInt16.ofNat word
      let opcode := (descriptor &&& 0x3F).toUInt8
      let length := ((descriptor >>> 6) &&& 0x0F).toUInt8
      if opcode = REPEAT then handleRepeat stream (s.dispatch .repeatLast)
      else handleStandardOpcode opcode length stream (s.dispatch .standardOpcode) := by
  refine Option.bind_congr fun word _ => ?_
  exact if_neg (opcode_ne_deltaUpdate _)

/-! ## Rounds -/

/-- Every step goes on, so the decoder stops. -/
theorem pc_lt_of_step {stream : Bytes} {s s' : HAIFrontendSim} (h : s.step stream = some s') :
    s.pc < s'.pc := by
  rw [step_eq, Option.bind_eq_some_iff] at h
  obtain ⟨word, -, hhandled⟩ := h
  dsimp only at hhandled
  split at hhandled
  · obtain ⟨count, -, rfl⟩ := Option.map_eq_some_iff.mp hhandled
    change s.pc < s.pc + 2 + 4
    omega
  · rw [handleStandardOpcode] at hhandled
    split at hhandled
    · obtain rfl := Option.some_injective _ hhandled
      change s.pc < s.pc + 2 + _
      omega
    · cases hhandled

/-- **The loop ends**: a round for each byte of the stream is enough. -/
theorem simulateBatch_eq_run {stream : Bytes} {fuel : ℕ} (hheader : 32 ≤ stream.length)
    (hfuel : stream.length ≤ fuel) (shadowRegisters : UInt8 → Option Bytes)
    (metrics : SimulationMetrics) : simulateBatch shadowRegisters stream metrics =
      run step pc stream fuel {
        pc := 32
        metrics := { metrics with
          totalCycles := metrics.totalCycles + 4
          totalBytesFetched := metrics.totalBytesFetched + 32 }
        shadowRegisters := shadowRegisters
        visited := [] } := by
  rw [simulateBatch, if_neg (Nat.not_lt.mpr hheader)]
  exact run_eq_run (fun _ _ _ => pc_lt_of_step) (Nat.le_add_left _ _) (hfuel.trans (by simp))

end HAIFrontendSim

/-! ## The documented format -/

/-- The fields of a descriptor. -/
structure Descriptor where
  opcode : BitVec 6
  length : BitVec 4
  reserved : BitVec 6

/-- The fields of a descriptor in their bits. -/
def Descriptor.word (d : Descriptor) : UInt16 :=
  UInt16.ofNat (d.opcode.toNat + 64 * d.length.toNat + 1024 * d.reserved.toNat)

/-- The documented instructions, each with what follows its descriptor. -/
inductive Instruction where
  | standard (descriptor : Descriptor) (payload : Bytes)
      (hopcode : descriptor.opcode ≠ HAIFrontendSim.REPEAT.toBitVec.setWidth 6)
      (hlength : payload.length = descriptor.length.toNat * 4)
  | deltaUpdate (length : BitVec 4) (reserved : BitVec 6) (target : UInt8) (mask : UInt16)
      (payload : Bytes) (hlength : payload.length = HAIFrontendSim.popcount mask * 4)
  | repeatLast (length : BitVec 4) (reserved : BitVec 6) (count : UInt32)

namespace Instruction

open HAIFrontendSim

/-- The descriptor; of the opcode `0xFF` there are 6 bits. -/
def descriptor : Instruction → Descriptor
  | standard descriptor .. => descriptor
  | deltaUpdate length reserved .. => ⟨DELTA_UPDATE.toBitVec.setWidth 6, length, reserved⟩
  | repeatLast length reserved _ => ⟨REPEAT.toBitVec.setWidth 6, length, reserved⟩

/-- What follows the descriptor. -/
def body : Instruction → Bytes
  | standard _ payload .. => payload
  | deltaUpdate _ _ target mask payload _ =>
      leBytes 1 target.toNat ++ (leBytes 2 mask.toNat ++ payload)
  | repeatLast _ _ count => leBytes 4 count.toNat

/-- An instruction as it is written: descriptor and body. -/
def encode (i : Instruction) : Bytes := leBytes 2 i.descriptor.word.toNat ++ i.body

/-- Which branch the document means. -/
def handler : Instruction → Handler
  | standard .. => .standardOpcode
  | deltaUpdate .. => .deltaUpdate
  | repeatLast .. => .repeatLast

/-- How many cycles it takes. -/
def cycles : Instruction → UInt64
  | standard .. => 1
  | deltaUpdate .. => 2
  | repeatLast _ _ count => count.toUInt64

/-- What the documentation says an instruction does. -/
def execute (i : Instruction) (s : HAIFrontendSim) : HAIFrontendSim where
  pc := s.pc + i.encode.length
  metrics := {
    totalCycles := s.metrics.totalCycles + i.cycles
    totalBytesFetched := s.metrics.totalBytesFetched + UInt64.ofNat i.encode.length
    deltaUpdatesProcessed :=
      s.metrics.deltaUpdatesProcessed + if i.handler = .deltaUpdate then 1 else 0 }
  shadowRegisters :=
    match i with
    | standard descriptor payload .. =>
        Function.update s.shadowRegisters (UInt8.ofNat descriptor.opcode.toNat) (some payload)
    | deltaUpdate .. | repeatLast .. => s.shadowRegisters
  visited := s.visited ++ [(s.pc, i.handler)]

end Instruction

/-! ## Reading what was encoded -/

namespace HAIFrontendSim

/-- A word is read where it has been written. -/
theorem read_leBytes (width x : ℕ) (front back : Bytes) :
    read width (front ++ (leBytes width x ++ back)) front.length = some (x % 256 ^ width) := by
  have hlen : front.length + width ≤ (front ++ (leBytes width x ++ back)).length := by
    simp only [List.length_append, length_leBytes]
    omega
  rw [read, if_pos hlen, List.drop_left, List.take_left' (length_leBytes width x),
    ofLeBytes_leBytes]

end HAIFrontendSim

namespace Descriptor

variable (d : Descriptor)

/-- The fields do not overlap. -/
theorem toNat_word :
    d.word.toNat = d.opcode.toNat + 64 * d.length.toNat + 1024 * d.reserved.toNat := by
  have hopcode : d.opcode.toNat < 64 := d.opcode.isLt
  have hlength : d.length.toNat < 16 := d.length.isLt
  have hreserved : d.reserved.toNat < 64 := d.reserved.isLt
  exact Nat.mod_eq_of_lt (by omega)

/-- The decoder reads the opcode. -/
theorem opcode_word : (d.word &&& 0x3F).toUInt8 = UInt8.ofNat d.opcode.toNat := by
  have hopcode : d.opcode.toNat < 64 := d.opcode.isLt
  rw [← UInt8.toNat_inj, UInt16.toNat_toUInt8, UInt16.toNat_and, d.toNat_word, UInt8.toNat_ofNat']
  have hmask : ∀ n : ℕ, n &&& 63 = n % 64 := fun n => Nat.and_two_pow_sub_one_eq_mod n 6
  change (_ &&& 63) % _ = _
  rw [hmask]
  omega

/-- The decoder reads the length. -/
theorem length_word : ((d.word >>> 6) &&& 0x0F).toUInt8.toNat = d.length.toNat := by
  have hopcode : d.opcode.toNat < 64 := d.opcode.isLt
  have hlength : d.length.toNat < 16 := d.length.isLt
  rw [UInt16.toNat_toUInt8, UInt16.toNat_and, UInt16.toNat_shiftRight, d.toNat_word]
  have hmask : ∀ n : ℕ, n &&& 15 = n % 16 := fun n => Nat.and_two_pow_sub_one_eq_mod n 4
  change ((_ >>> 6) &&& 15) % _ = _
  rw [hmask, Nat.shiftRight_eq_div_pow]
  omega

end Descriptor

namespace Instruction

open HAIFrontendSim

/-- The decoder fetches the descriptor of the instruction it stands at. -/
theorem read_descriptor (i : Instruction) (front back : Bytes) :
    read 2 (front ++ (i.encode ++ back)) front.length = some i.descriptor.word.toNat := by
  rw [encode, List.append_assoc, read_leBytes]
  exact congrArg some (Nat.mod_eq_of_lt i.descriptor.word.toNat_lt)

/-- Behind the descriptor there is the body. -/
theorem split_body (i : Instruction) (front back : Bytes) :
    front ++ (i.encode ++ back) =
      (front ++ leBytes 2 i.descriptor.word.toNat) ++ (i.body ++ back) := by
  rw [encode, List.append_assoc, List.append_assoc]

/-- A descriptor is two bytes. -/
theorem length_encode (i : Instruction) : i.encode.length = 2 + i.body.length := by
  rw [encode, List.length_append, length_leBytes]

/-- So an instruction has bytes. -/
theorem encode_ne_nil (i : Instruction) : i.encode ≠ [] :=
  List.ne_nil_of_length_pos (by rw [length_encode]; omega)

/-- The bytes of an instruction are those of the descriptor and of the body. -/
theorem fetched_encode (i : Instruction) (bytes : UInt64) :
    bytes + UInt64.ofNat i.encode.length = bytes + 2 + UInt64.ofNat i.body.length := by
  rw [length_encode, UInt64.ofNat_add, UInt64.add_assoc]
  rfl

/-- Only `REPEAT` has its opcode. -/
theorem opcode_eq_repeat_iff (opcode : BitVec 6) :
    UInt8.ofNat opcode.toNat = REPEAT ↔ opcode = REPEAT.toBitVec.setWidth 6 := by
  have hlt : opcode.toNat < 64 := opcode.isLt
  rw [← UInt8.toNat_inj, ← BitVec.toNat_inj, UInt8.toNat_ofNat', Nat.mod_eq_of_lt (by omega)]
  rfl

/-- Every other opcode skips its payload. -/
theorem step_standard (descriptor : Descriptor) (payload : Bytes)
    (hopcode : descriptor.opcode ≠ REPEAT.toBitVec.setWidth 6)
    (hlength : payload.length = descriptor.length.toNat * 4) (front back : Bytes)
    {s : HAIFrontendSim} (hs : s.pc = front.length) :
    s.step (front ++ ((standard descriptor payload hopcode hlength).encode ++ back)) =
      some ((standard descriptor payload hopcode hlength).execute s) := by
  generalize hi : standard descriptor payload hopcode hlength = i
  have hbody : i.body = payload := hi ▸ rfl
  have hdescriptor : i.descriptor = descriptor := hi ▸ rfl
  have hpc : (s.dispatch .standardOpcode).pc =
      (front ++ leBytes 2 i.descriptor.word.toNat).length := by
    rw [List.length_append, length_leBytes, ← hs]
    rfl
  rw [step_eq, hs, read_descriptor, Option.bind_some]
  dsimp only
  rw [UInt16.ofNat_toNat, i.descriptor.opcode_word, hdescriptor,
    if_neg ((opcode_eq_repeat_iff descriptor.opcode).not.mpr hopcode), handleStandardOpcode,
    descriptor.length_word, ← hlength, split_body, hpc, hbody, List.drop_left, List.take_left,
    if_pos (by simp only [List.length_append]; omega)]
  subst hi
  rw [execute, fetched_encode, length_encode, List.length_append, length_leBytes, ← hs]
  simp only [Option.some.injEq, HAIFrontendSim.mk.injEq, SimulationMetrics.mk.injEq]
  exact ⟨Nat.add_assoc _ _ _, ⟨rfl, rfl, (UInt32.add_zero _).symm⟩, rfl, rfl⟩

/-- **An instruction is executed where it stands**, if it is no delta update. -/
theorem step_encode (i : Instruction) (hdelta : i.handler ≠ .deltaUpdate) (front back : Bytes)
    {s : HAIFrontendSim} (hs : s.pc = front.length) :
    s.step (front ++ (i.encode ++ back)) = some (i.execute s) := by
  cases i with
  | standard descriptor payload hopcode hlength =>
      exact step_standard descriptor payload hopcode hlength front back hs
  | deltaUpdate => exact absurd rfl hdelta
  | repeatLast length reserved count =>
      have hpc : (s.dispatch .repeatLast).pc =
          (front ++ leBytes 2 (repeatLast length reserved count).descriptor.word.toNat).length := by
        rw [List.length_append, length_leBytes, ← hs]
        rfl
      have hopcode : UInt8.ofNat (repeatLast length reserved count).descriptor.opcode.toNat =
          REPEAT := (opcode_eq_repeat_iff _).mpr rfl
      rw [step_eq, hs, read_descriptor, Option.bind_some]
      dsimp only
      rw [UInt16.ofNat_toNat, Descriptor.opcode_word, if_pos hopcode, handleRepeat, split_body, hpc,
        body, read_leBytes, Option.map_some, execute, fetched_encode, length_encode]
      simp only [Option.some.injEq, HAIFrontendSim.mk.injEq, SimulationMetrics.mk.injEq]
      have hcount : UInt64.ofNat (count.toNat % 256 ^ 4) = count.toUInt64 := by
        have hlt : count.toNat < 256 ^ 4 := lt_of_lt_of_eq count.toNat_lt (by norm_num)
        rw [Nat.mod_eq_of_lt hlt, ← UInt64.toNat_inj, UInt32.toNat_toUInt64]
        exact UInt64.toNat_ofNat_of_lt' (count.toNat_lt.trans (by decide))
      rw [← hpc, hcount]
      exact ⟨Nat.add_assoc s.pc 2 4, ⟨rfl, rfl, (UInt32.add_zero _).symm⟩, rfl, rfl⟩

end Instruction

/-! ## Whole batches -/

namespace HAIFrontendSim

/-- The header of a batch. -/
abbrev Header := { header : Bytes // header.length = 32 }

/-- An encoded batch. -/
def batch (header : Header) (instructions : List Instruction) : Bytes :=
  header.1 ++ instructions.flatMap Instruction.encode

/-- What the documentation says about a decoded batch: the instructions are visited where
they begin and handled by their own handlers, and the metrics have been added up. -/
structure Decoded (header : Header) (instructions : List Instruction)
    (metrics : SimulationMetrics) (s : HAIFrontendSim) : Prop where
  visited : s.visited =
    (positions Instruction.encode 32 instructions).map fun p => (p.1, p.2.handler)
  deltaUpdates : s.metrics.deltaUpdatesProcessed = metrics.deltaUpdatesProcessed +
    UInt32.ofNat (instructions.countP fun i => i.handler = .deltaUpdate)
  cycles : s.metrics.totalCycles =
    metrics.totalCycles + 4 + (instructions.map Instruction.cycles).sum
  bytes : s.metrics.totalBytesFetched =
    metrics.totalBytesFetched + UInt64.ofNat (batch header instructions).length

/-- The instructions executed one after the other. -/
def executed (instructions : List Instruction) (s : HAIFrontendSim) : HAIFrontendSim :=
  instructions.foldl (fun s i => i.execute s) s

section Executed

variable (i : Instruction) (instructions : List Instruction) (s : HAIFrontendSim)

/-- The instructions are visited one after the other, each at its position. -/
theorem visited_executed : (executed instructions s).visited = s.visited ++
    (positions Instruction.encode s.pc instructions).map fun p => (p.1, p.2.handler) := by
  induction instructions generalizing s with
  | nil => exact (List.append_nil _).symm
  | cons i instructions ih =>
      rw [executed, List.foldl_cons, ← executed, ih]
      exact List.append_assoc _ _ _

/-- Their cycles are added up. -/
theorem totalCycles_executed : (executed instructions s).metrics.totalCycles =
    s.metrics.totalCycles + (instructions.map Instruction.cycles).sum := by
  induction instructions generalizing s with
  | nil => exact (UInt64.add_zero _).symm
  | cons i instructions ih =>
      rw [executed, List.foldl_cons, ← executed, ih, List.map_cons, List.sum_cons]
      exact UInt64.add_assoc _ _ _

/-- So are their bytes. -/
theorem totalBytesFetched_executed : (executed instructions s).metrics.totalBytesFetched =
    s.metrics.totalBytesFetched +
      UInt64.ofNat (instructions.flatMap Instruction.encode).length := by
  induction instructions generalizing s with
  | nil => exact (UInt64.add_zero _).symm
  | cons i instructions ih =>
      rw [executed, List.foldl_cons, ← executed, ih, List.flatMap_cons, List.length_append,
        UInt64.ofNat_add]
      exact UInt64.add_assoc _ _ _

/-- And the updates are counted. -/
theorem deltaUpdates_executed : (executed instructions s).metrics.deltaUpdatesProcessed =
    s.metrics.deltaUpdatesProcessed +
      UInt32.ofNat (instructions.countP fun i => i.handler = .deltaUpdate) := by
  induction instructions generalizing s with
  | nil => exact (UInt32.add_zero _).symm
  | cons i instructions ih =>
      rw [executed, List.foldl_cons, ← executed, ih, List.countP_cons, UInt32.ofNat_add,
        UInt32.add_comm (UInt32.ofNat _), ← UInt32.add_assoc]
      refine congrArg (· + UInt32.ofNat _) (congrArg (s.metrics.deltaUpdatesProcessed + ·) ?_)
      by_cases hdelta : i.handler = .deltaUpdate
      · rw [if_pos hdelta, if_pos (decide_eq_true hdelta)]
        rfl
      · rw [if_neg hdelta, if_neg (by rw [decide_eq_false hdelta]; exact Bool.false_ne_true)]
        rfl

end Executed

/-- No handler for deltas has been called. -/
def NoDelta (s : HAIFrontendSim) : Prop := ∀ p ∈ s.visited, p.2 ≠ .deltaUpdate

/-- No step of the decoder counts an update, for it never sees the opcode. -/
theorem NoDelta.step {stream : Bytes} {s s' : HAIFrontendSim} (h : s.NoDelta)
    (hstep : s.step stream = some s') : s'.NoDelta := by
  have hdispatch : ∀ handler : Handler, handler ≠ .deltaUpdate → (s.dispatch handler).NoDelta := by
    intro handler hhandler p hp
    rcases List.mem_append.mp hp with hold | hnew
    · exact h p hold
    · rw [List.mem_singleton.mp hnew]
      exact hhandler
  rw [step_eq, Option.bind_eq_some_iff] at hstep
  obtain ⟨word, -, hhandled⟩ := hstep
  dsimp only at hhandled
  split at hhandled
  · obtain ⟨count, -, rfl⟩ := Option.map_eq_some_iff.mp hhandled
    exact hdispatch .repeatLast nofun
  · rw [handleStandardOpcode] at hhandled
    split at hhandled
    · obtain rfl := Option.some_injective _ hhandled
      exact hdispatch .standardOpcode nofun
    · cases hhandled

/-- The header is 32 bytes. -/
theorem length_batch (header : Header) (instructions : List Instruction) :
    (batch header instructions).length =
      32 + (instructions.flatMap Instruction.encode).length := by
  rw [batch, List.length_append, header.2]

/-- **A batch without deltas is executed.** -/
theorem simulateBatch_batch (shadowRegisters : UInt8 → Option Bytes) (header : Header)
    {instructions : List Instruction} (hall : ∀ i ∈ instructions, i.handler ≠ .deltaUpdate)
    (metrics : SimulationMetrics) :
    simulateBatch shadowRegisters (batch header instructions) metrics =
      some (executed instructions {
        pc := 32
        metrics := { metrics with
          totalCycles := metrics.totalCycles + 4
          totalBytesFetched := metrics.totalBytesFetched + 32 }
        shadowRegisters := shadowRegisters
        visited := [] }) := by
  have hlen := length_batch header instructions
  rw [simulateBatch_eq_run (hlen ▸ Nat.le_add_right _ _) le_rfl]
  refine run_flatMap Instruction.execute Instruction.encode_ne_nil (fun _ _ => rfl) instructions
    (fun i hi front back s hs => i.step_encode (hall i hi) front back hs) header.1 header.2.symm ?_
  exact (length_le_length_flatMap Instruction.encode_ne_nil instructions).trans
    (hlen ▸ Nat.le_add_left _ _)

/-- **Streams are decoded as documented exactly if they have no delta update.** -/
theorem decodes_iff (shadowRegisters : UInt8 → Option Bytes) (header : Header)
    (instructions : List Instruction) (metrics : SimulationMetrics) :
    (∃ s, simulateBatch shadowRegisters (batch header instructions) metrics = some s ∧
      Decoded header instructions metrics s) ↔
      ∀ i ∈ instructions, i.handler ≠ .deltaUpdate := by
  have hlen := length_batch header instructions
  constructor
  -- a delta would have to be visited, and the loop never calls its handler
  · rintro ⟨s, hrun, hdecoded⟩ i hi hdelta
    rw [simulateBatch_eq_run (hlen ▸ Nat.le_add_right _ _) le_rfl] at hrun
    have hnone : s.NoDelta :=
      invariant_of_run (fun _ _ hs hstep => hs.step hstep) (by exact List.forall_mem_nil _) hrun
    obtain ⟨p, hp⟩ : ∃ p, (p, i) ∈ positions Instruction.encode 32 instructions :=
      exists_mem_positions hi 32
    refine hnone (p, i.handler) ?_ hdelta
    rw [hdecoded.visited]
    exact List.mem_map_of_mem hp
  · intro hall
    refine ⟨_, simulateBatch_batch shadowRegisters header hall metrics, ?_⟩
    refine ⟨visited_executed _ _, deltaUpdates_executed _ _, totalCycles_executed _ _, ?_⟩
    refine (totalBytesFetched_executed _ _).trans ?_
    rw [hlen, UInt64.ofNat_add]
    exact UInt64.add_assoc _ _ _

/-- One delta: the decoder takes its body for further descriptors, and reads past the end. -/
theorem delta_not_decoded :
    ¬ ∃ s, simulateBatch (fun _ => none) (batch ⟨List.replicate 32 0, rfl⟩
        [.deltaUpdate 0 0 0x12 4 [36, 0, 0, 0] rfl]) {} = some s ∧
      Decoded ⟨List.replicate 32 0, rfl⟩ [.deltaUpdate 0 0 0x12 4 [36, 0, 0, 0] rfl] {} s := by
  rintro ⟨s, hrun, -⟩
  have hnone : simulateBatch (fun _ => none) (batch ⟨List.replicate 32 0, rfl⟩
      [.deltaUpdate 0 0 0x12 4 [36, 0, 0, 0] rfl]) {} = none := rfl
  rw [hnone] at hrun
  cases hrun

end HAIFrontendSim

end Synapse.Sim
