import Synapse.Hai.HaiFrontendSim

/-!
# Streams that are cut short

`simulate_batch` on arbitrary bytes.  The head of the loop only makes sure that there is one
more byte, and then a descriptor of two is read, and behind it a payload of the length that
the descriptor says.

A round that stays within the stream has taken one whole instruction (`exists_instruction`).
So no read goes past the end exactly if the stream is a header with whole instructions
behind it, or too short for a header (`readsWithin_iff`).

The reads of the decoder are partial functions of the stream, so a read past the end has no
result, and the statement is about the rounds that the loop comes to: all of them have one
exactly if the stream is what the equivalence says.  From left to right it is an induction on
the bytes that are left, with one instruction taken off in each round.
-/

namespace Synapse.Sim

open ByteRecords InstructionStream

/-! ## Reading words -/

namespace HAIFrontendSim

/-- What a read within the stream has found. -/
theorem read_eq_some {width : ℕ} {stream : Bytes} {pc x : ℕ}
    (h : read width stream pc = some x) :
    x < 256 ^ width ∧ stream.drop pc = leBytes width x ++ stream.drop (pc + width) := by
  unfold read at h
  split at h
  · rename_i hwithin
    obtain rfl := Option.some_injective _ h
    have hlength : ((stream.drop pc).take width).length = width := by
      rw [List.length_take, List.length_drop]
      omega
    constructor
    · have hlt := ofLeBytes_lt ((stream.drop pc).take width)
      rw [hlength] at hlt
      exact hlt
    · rw [leBytes_ofLeBytes hlength, ← List.drop_drop, List.take_append_drop]
  · cases h

end HAIFrontendSim

namespace Descriptor

/-- The fields of a word. -/
def ofWord (word : UInt16) : Descriptor where
  opcode := BitVec.ofNat 6 word.toNat
  length := BitVec.ofNat 4 (word.toNat / 64)
  reserved := BitVec.ofNat 6 (word.toNat / 1024)

/-- Every word is that of a descriptor. -/
@[simp] theorem word_ofWord (word : UInt16) : (ofWord word).word = word := by
  have hlt : word.toNat < 65536 := word.toNat_lt
  rw [← UInt16.toNat_inj, toNat_word]
  show (BitVec.ofNat 6 _).toNat + 64 * (BitVec.ofNat 4 _).toNat +
    1024 * (BitVec.ofNat 6 _).toNat = _
  rw [BitVec.toNat_ofNat, BitVec.toNat_ofNat, BitVec.toNat_ofNat]
  omega

end Descriptor

/-! ## Rounds -/

namespace HAIFrontendSim

variable {stream : Bytes} {s s' : HAIFrontendSim}

/-- **A round takes one whole instruction**, which is no delta. -/
theorem exists_instruction (h : s.step stream = some s') :
    ∃ i : Instruction, i.handler ≠ .deltaUpdate ∧
      stream.drop s.pc = i.encode ++ stream.drop s'.pc := by
  rw [step_eq, Option.bind_eq_some_iff] at h
  obtain ⟨word, hword, hhandled⟩ := h
  obtain ⟨hlt, hdescriptor⟩ := read_eq_some hword
  generalize hd : Descriptor.ofWord (UInt16.ofNat word) = d
  have hdword : d.word = UInt16.ofNat word := by rw [← hd, Descriptor.word_ofWord]
  have hnat : d.word.toNat = word := by
    rw [hdword]
    exact UInt16.toNat_ofNat_of_lt' hlt
  dsimp only at hhandled
  rw [← hdword, d.opcode_word] at hhandled
  split at hhandled
  · rename_i hrepeat
    obtain ⟨count, hcount, rfl⟩ := Option.map_eq_some_iff.mp hhandled
    obtain ⟨hcountlt, hpayload⟩ := read_eq_some hcount
    refine ⟨.repeatLast d.length d.reserved (UInt32.ofNat count), ?_, ?_⟩
    · intro hdelta
      cases hdelta
    have hsame : (Instruction.repeatLast d.length d.reserved (UInt32.ofNat count)).descriptor =
        d := by
      rw [Instruction.descriptor, ← (Instruction.opcode_eq_repeat_iff d.opcode).mp hrepeat]
    rw [Instruction.encode, hsame, hnat, Instruction.body, UInt32.toNat_ofNat_of_lt' hcountlt,
      List.append_assoc, hdescriptor]
    exact congrArg (leBytes 2 word ++ ·) hpayload
  · rename_i hstandard
    unfold handleStandardOpcode at hhandled
    dsimp only at hhandled
    rw [d.length_word] at hhandled
    split at hhandled
    · rename_i hwithin
      obtain rfl := Option.some_injective _ hhandled
      have hpc : (s.dispatch .standardOpcode).pc = s.pc + 2 := rfl
      rw [hpc] at hwithin
      have hlength : ((stream.drop (s.pc + 2)).take (d.length.toNat * 4)).length =
          d.length.toNat * 4 := by
        rw [List.length_take, List.length_drop]
        omega
      refine ⟨.standard d _ ((Instruction.opcode_eq_repeat_iff d.opcode).not.mp hstandard) hlength,
        ?_, ?_⟩
      · intro hdelta
        cases hdelta
      rw [Instruction.encode, Instruction.descriptor, Instruction.body, hnat, hdescriptor,
        List.append_assoc]
      refine congrArg (leBytes 2 word ++ ·) ?_
      have hsplit := List.take_append_drop (d.length.toNat * 4) (stream.drop (s.pc + 2))
      rw [List.drop_drop] at hsplit
      exact hsplit.symm
    · cases hhandled

/-! ## Whole streams -/

/-- No read of a batch goes past the end of the stream. -/
def ReadsWithin (shadowRegisters : UInt8 → Option Bytes) (stream : Bytes)
    (metrics : SimulationMetrics) : Prop :=
  ∃ s, simulateBatch shadowRegisters stream metrics = some s

/-- **The simulator stays within the stream** exactly if the stream has no header, or
nothing but whole instructions behind it. -/
theorem readsWithin_iff (shadowRegisters : UInt8 → Option Bytes) (stream : Bytes)
    (metrics : SimulationMetrics) :
    ReadsWithin shadowRegisters stream metrics ↔ stream.length < 32 ∨
      ∃ header instructions, (∀ i ∈ instructions, i.handler ≠ .deltaUpdate) ∧
        stream = batch header instructions := by
  constructor
  · rintro ⟨s, hs⟩
    rcases Nat.lt_or_ge stream.length 32 with hshort | hheader
    · exact Or.inl hshort
    · rw [simulateBatch_eq_run hheader le_rfl] at hs
      obtain ⟨instructions, hall, hflat⟩ :=
        exists_flatMap_of_run (fun _ _ hstep => exists_instruction hstep) hs
      refine Or.inr ⟨⟨stream.take 32, List.length_take_of_le hheader⟩, instructions, hall, ?_⟩
      rw [batch, ← hflat]
      exact (List.take_append_drop 32 stream).symm
  · rintro (hshort | ⟨header, instructions, hall, rfl⟩)
    · exact ⟨_, if_pos hshort⟩
    · exact ⟨_, simulateBatch_batch shadowRegisters header hall metrics⟩

/-- One byte behind the header: the second byte of its descriptor is not there. -/
theorem one_byte_overread :
    ¬ ReadsWithin (fun _ => none) (List.replicate 33 0) {} := by
  rintro ⟨s, hs⟩
  have hnone : simulateBatch (fun _ => none) (List.replicate 33 0) {} = none := rfl
  rw [hnone] at hs
  cases hs

end HAIFrontendSim

end Synapse.Sim
