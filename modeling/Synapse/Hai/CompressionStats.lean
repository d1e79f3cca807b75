import Synapse.Core.Workload

/-!
# What compression costs

Runs of `HAIBytecodeBuilder`, with all instructions that have ever been pushed.

The counters add up what the calls emit (`counted_afterCalls`).  A delta is two bytes and
four for each changed word, and is counted against a full draw of 48: from twelve words on it
is the longer one.  So the stream is not longer than what it stands for exactly if the deltas
have eleven and a half changed words on average, or fewer (`neverExpands_iff`,
`isShorter_iff`).

### Averages over a run

Whether one delta is shorter than the full draw it stands for is a question about its mask;
whether the stream is shorter is one about sums over a run, for a long delta can be paid for
by short ones.  The counters are words of 64 bits and may wrap, so the equivalence compares
the counted sums modulo 2^64, and `isShorter_iff` gives the condition on the calls where no
sum wraps.
-/

namespace Synapse

open HAIBytecodeBuilder

/-- `compression_ratio`, without rounding. -/
def HAIStats.compressionRatio (v : HAIStats) : ℚ :=
  if v.actualBytesEmitted > 0 then v.rawBytesEquivalent.toNat / v.actualBytesEmitted.toNat else 1

/-- The calls of the builder. -/
inductive BuilderCall where
  | beginBatch
  | writeFullDraw (sig : WorkloadSignature)
  | writeDeltaDraw (sig : WorkloadSignature) (changedMask : UInt32)
  | flushToHardware

/-- The builder, and all instructions pushed so far. -/
structure BuilderRun where
  builder : HAIBytecodeBuilder := {}
  pushed : List HAIInstruction := []

namespace BuilderRun

/-- A call that pushes an instruction. -/
def push (s : BuilderRun) (write : HAIBytecodeBuilder → HAIBytecodeBuilder) : BuilderRun where
  builder := write s.builder
  pushed := s.pushed ++ (write s.builder).currentBatch.getLast?.toList

/-- One call, with the instructions that it pushes. -/
def step (s : BuilderRun) : BuilderCall → BuilderRun
  | .beginBatch => { s with builder := s.builder.beginBatch }
  | .writeFullDraw sig => s.push (writeFullDraw sig)
  | .writeDeltaDraw sig changedMask => s.push (writeDeltaDraw sig changedMask)
  | .flushToHardware => { s with builder := s.builder.flushToHardware }

/-- A new builder after some calls. -/
def afterCalls (calls : List BuilderCall) : BuilderRun := calls.foldl step {}

/-! ## What is asked -/

/-- The counters are right, and the bytes emitted are not more than those of full draws. -/
structure NeverExpands (s : BuilderRun) : Prop where
  raw : s.builder.stats.rawBytesEquivalent =
    48 * (s.builder.stats.fullDrawsEmitted + s.builder.stats.deltaDrawsEmitted)
  actual : s.builder.stats.actualBytesEmitted =
    (s.pushed.map fun instr => instr.length.toUInt64).sum
  smaller : s.builder.stats.actualBytesEmitted ≤ s.builder.stats.rawBytesEquivalent
  ratio : 1 ≤ s.builder.stats.compressionRatio

end BuilderRun

namespace BuilderCall

/-- The number of words that a mask marks as changed. -/
def changedWords (mask : UInt32) : ℕ := (List.range 32).countP fun i => mask.toNat.testBit i

/-- The calls that write a draw in full. -/
def isFullDraw : BuilderCall → Bool
  | writeFullDraw _ => true
  | _ => false

/-- Those that write what has changed. -/
def isDeltaDraw : BuilderCall → Bool
  | writeDeltaDraw _ _ => true
  | _ => false

/-- The changed words of a delta. -/
def words : BuilderCall → ℕ
  | writeDeltaDraw _ changedMask => changedWords changedMask
  | _ => 0

/-- The bytes that a call emits. -/
def bytes (call : BuilderCall) : ℕ :=
  (if call.isFullDraw then 48 else 0) + (if call.isDeltaDraw then 2 else 0) + 4 * call.words

/-- A mask has 32 bits. -/
theorem changedWords_le (mask : UInt32) : changedWords mask ≤ 32 := List.countP_le_length

/-- The loop counts the bits that are set. -/
theorem toNat_popcount (mask : UInt32) : (popcount mask).toNat = changedWords mask := by
  exact UInt32.toNat_ofNat_of_lt' ((changedWords_le mask).trans_lt (by decide))

/-- The length of a delta fits into the eight bits of the length field. -/
theorem toNat_deltaDrawBytes (mask : UInt32) :
    (deltaDrawBytes (popcount mask)).toNat = 2 + 4 * changedWords mask := by
  have hle := changedWords_le mask
  unfold deltaDrawBytes
  rw [UInt32.toNat_add, UInt32.toNat_mul, toNat_popcount]
  show (2 + changedWords mask * 4 % 2 ^ 32) % 2 ^ 32 = _
  omega

end BuilderCall

/-! ## The counters -/

namespace BuilderRun

open BuilderCall

/-- How many draws are written in full. -/
def fullDraws (calls : List BuilderCall) : ℕ := calls.countP isFullDraw

/-- How many are deltas. -/
def deltaDraws (calls : List BuilderCall) : ℕ := calls.countP isDeltaDraw

/-- All changed words of deltas. -/
def totalWords (calls : List BuilderCall) : ℕ := (calls.map words).sum

/-- The bytes that calls emit. -/
def emitted (calls : List BuilderCall) : ℕ :=
  48 * fullDraws calls + 2 * deltaDraws calls + 4 * totalWords calls

/-- The counters, and the length fields of the instructions, add up what the calls emit. -/
structure Counted (fulls deltas total : ℕ) (s : BuilderRun) : Prop where
  full : s.builder.stats.fullDrawsEmitted = UInt64.ofNat fulls
  delta : s.builder.stats.deltaDrawsEmitted = UInt64.ofNat deltas
  raw : s.builder.stats.rawBytesEquivalent = UInt64.ofNat (48 * (fulls + deltas))
  actual : s.builder.stats.actualBytesEmitted = UInt64.ofNat total
  lengths : (s.pushed.map fun instr => instr.length.toUInt64).sum = UInt64.ofNat total

/-- Nothing is counted at the start. -/
theorem counted_new : Counted 0 0 0 {} := ⟨rfl, rfl, rfl, rfl, rfl⟩

/-- One more length. -/
theorem sum_lengths_concat (pushed : List HAIInstruction) (instr : HAIInstruction) :
    ((pushed ++ [instr]).map fun instr => instr.length.toUInt64).sum =
      (pushed.map fun instr => instr.length.toUInt64).sum + instr.length.toUInt64 := by
  rw [List.map_append, List.sum_append, List.map_singleton, List.sum_singleton]

variable {fulls deltas total : ℕ} {s : BuilderRun}

/-- A full draw counts 48 bytes on both sides. -/
theorem Counted.writeFullDraw (h : Counted fulls deltas total s) (sig : WorkloadSignature) :
    Counted (fulls + 1) deltas (total + 48) (s.step (.writeFullDraw sig)) := by
  refine ⟨?_, h.delta, ?_, ?_, ?_⟩
  · show s.builder.stats.fullDrawsEmitted + 1 = _
    rw [h.full, UInt64.ofNat_add]
    rfl
  · show s.builder.stats.rawBytesEquivalent + 48 = _
    rw [h.raw, Nat.add_right_comm, Nat.mul_succ, UInt64.ofNat_add]
    rfl
  · show s.builder.stats.actualBytesEmitted + 48 = _
    rw [h.actual, UInt64.ofNat_add]
    rfl
  · show (List.map _ (s.pushed ++ (s.builder.currentBatch ++ [_]).getLast?.toList)).sum = _
    rw [List.getLast?_concat, Option.toList_some, sum_lengths_concat, h.lengths, UInt64.ofNat_add]
    rfl

/-- A delta counts 48 on the one and its own on the other. -/
theorem Counted.writeDeltaDraw (h : Counted fulls deltas total s) (sig : WorkloadSignature)
    (changedMask : UInt32) :
    Counted fulls (deltas + 1) (total + (2 + 4 * changedWords changedMask))
      (s.step (.writeDeltaDraw sig changedMask)) := by
  have hbytes := toNat_deltaDrawBytes changedMask
  have hle := changedWords_le changedMask
  refine ⟨h.full, ?_, ?_, ?_, ?_⟩
  · show s.builder.stats.deltaDrawsEmitted + 1 = _
    rw [h.delta, UInt64.ofNat_add]
    rfl
  · show s.builder.stats.rawBytesEquivalent + 48 = _
    rw [h.raw, ← Nat.add_assoc, Nat.mul_succ, UInt64.ofNat_add]
    rfl
  · show s.builder.stats.actualBytesEmitted + (deltaDrawBytes (popcount changedMask)).toUInt64 = _
    rw [h.actual, UInt64.ofNat_add, ← hbytes, UInt64.ofNat_uInt32ToNat]
  · show (List.map _ (s.pushed ++ (s.builder.currentBatch ++ [_]).getLast?.toList)).sum = _
    rw [List.getLast?_concat, Option.toList_some, sum_lengths_concat, h.lengths, UInt64.ofNat_add]
    refine congrArg (UInt64.ofNat total + ·) ?_
    show (deltaDrawBytes (popcount changedMask)).toUInt8.toUInt64 = _
    rw [← UInt64.toNat_inj, UInt8.toNat_toUInt64, UInt32.toNat_toUInt8, hbytes,
      UInt64.toNat_ofNat_of_lt' (show _ < 2 ^ 64 by omega)]
    omega

/-- **The counters add up what the calls emit.** -/
theorem counted_afterCalls (calls : List BuilderCall) :
    Counted (fullDraws calls) (deltaDraws calls) (emitted calls) (afterCalls calls) := by
  induction calls using List.reverseRecOn with
  | nil => exact counted_new
  | append_singleton calls call ih =>
      have hfold : afterCalls (calls ++ [call]) = (afterCalls calls).step call := by
        unfold afterCalls
        rw [List.foldl_append]
        rfl
      have hemitted : emitted (calls ++ [call]) = emitted calls + call.bytes := by
        unfold emitted fullDraws deltaDraws totalWords BuilderCall.bytes
        rw [List.countP_append, List.countP_append, List.map_append, List.sum_append,
          List.countP_singleton, List.countP_singleton, List.map_singleton, List.sum_singleton]
        split <;> split <;> omega
      rw [hfold, hemitted, fullDraws, deltaDraws, List.countP_append, List.countP_append]
      cases call with
      | beginBatch | flushToHardware => exact ⟨ih.full, ih.delta, ih.raw, ih.actual, ih.lengths⟩
      | writeFullDraw sig => exact ih.writeFullDraw sig
      | writeDeltaDraw sig changedMask =>
          have hdelta := ih.writeDeltaDraw sig changedMask
          rw [show bytes (.writeDeltaDraw sig changedMask) = 2 + 4 * changedWords changedMask by
            simp [bytes, isFullDraw, isDeltaDraw, words]]
          exact hdelta

/-! ## Expansion -/

/-- What is emitted is not longer than full draws, up to multiples of `2 ^ 64`. -/
def IsShorter (calls : List BuilderCall) : Prop :=
  emitted calls % 2 ^ 64 ≤ 48 * (fullDraws calls + deltaDraws calls) % 2 ^ 64

/-- As long as no counter wraps, this is about the average of the changed words. -/
theorem isShorter_iff {calls : List BuilderCall}
    (hcount : fullDraws calls + deltaDraws calls ≤ 2 ^ 56) :
    IsShorter calls ↔ 2 * totalWords calls ≤ 23 * deltaDraws calls := by
  have hwords : totalWords calls ≤ 32 * deltaDraws calls := by
    unfold totalWords deltaDraws
    clear hcount
    induction calls with
    | nil => exact le_rfl
    | cons call calls ih =>
        rw [List.map_cons, List.sum_cons, List.countP_cons]
        cases call with
        | writeDeltaDraw sig changedMask =>
            have hle := changedWords_le changedMask
            show changedWords changedMask + _ ≤ 32 * (_ + 1)
            omega
        | beginBatch | flushToHardware | writeFullDraw _ =>
            show 0 + _ ≤ 32 * (_ + 0)
            omega
  have hemitted : emitted calls < 2 ^ 64 := by
    unfold emitted
    omega
  have hraw : 48 * (fullDraws calls + deltaDraws calls) < 2 ^ 64 := by omega
  unfold IsShorter
  rw [Nat.mod_eq_of_lt hemitted, Nat.mod_eq_of_lt hraw, emitted]
  omega

/-- The ratio is at least 1 if no more has been emitted than it stands for. -/
theorem one_le_compressionRatio_iff (v : HAIStats) :
    1 ≤ v.compressionRatio ↔ v.actualBytesEmitted ≤ v.rawBytesEquivalent := by
  unfold HAIStats.compressionRatio
  rw [UInt64.le_iff_toNat_le]
  split
  · rename_i hpos
    have hcast : (0 : ℚ) < v.actualBytesEmitted.toNat := Nat.cast_pos.mpr hpos
    rw [one_le_div hcast, Nat.cast_le]
  · rename_i hzero
    have hnat : v.actualBytesEmitted.toNat = 0 := Nat.eq_zero_of_not_pos hzero
    rw [hnat]
    exact iff_of_true le_rfl (Nat.zero_le _)

/-- **Compression never expands** exactly if the deltas do not have too many changed words. -/
theorem neverExpands_iff (calls : List BuilderCall) :
    NeverExpands (afterCalls calls) ↔ IsShorter calls := by
  have h := counted_afterCalls calls
  have hsmaller : (afterCalls calls).builder.stats.actualBytesEmitted ≤
      (afterCalls calls).builder.stats.rawBytesEquivalent ↔ IsShorter calls := by
    rw [h.actual, h.raw, UInt64.le_iff_toNat_le, UInt64.toNat_ofNat', UInt64.toNat_ofNat']
    rfl
  constructor
  · intro hnever
    exact hsmaller.mp hnever.smaller
  · intro hshorter
    refine ⟨?_, h.actual.trans h.lengths.symm, hsmaller.mpr hshorter,
      (one_le_compressionRatio_iff _).mpr (hsmaller.mpr hshorter)⟩
    rw [h.raw, h.full, h.delta, UInt64.ofNat_mul, UInt64.ofNat_add]
    rfl

/-- Twelve changed words take fifty bytes. -/
theorem twelve_words_expand : ¬ NeverExpands (afterCalls [.writeDeltaDraw {} 0xFFF]) := by
  intro h
  exact absurd h.smaller (by decide)

end BuilderRun

end Synapse
