import Synapse.Hai.PushConstantOptimizer

/-!
# Bounds of `process_update`

The memory accesses and shifts of the loop over the words of an update.

The number of words comes with the call, while the shadow and the mask have room for 32.  Every
word is compared with the shadow or written to it, so the loop stays within both exactly if the
update is shorter than 33 words (`inBounds_iff`).
-/

namespace Synapse.Optimizer

/-- What the loop does at word `i`: a read or a write of `shadow_memory`, a read of
`new_values`, or the shift `1 << i`. -/
inductive Access where
  | shadowMemory (i : ℕ)
  | newValues (i : ℕ)
  | shift (i : ℕ)
  deriving DecidableEq, Repr

/-- The word is one of the arrays and one of the update, and the shift one of 32 bits. -/
def Access.InBounds (size : UInt32) : Access → Prop
  | .shadowMemory i | .newValues i => i < MAX_PUSH_CONSTANT_WORDS ∧ i < (size / 4).toNat
  | .shift i => i < 32

/-- The accesses of the body, of which the comparison only comes without the flag. -/
def Scan.accesses (isInvalidated : Bool) (newValues : ℕ → UInt32) (scan : Scan) (i : ℕ) :
    List Access :=
  (if isInvalidated then [] else [.shadowMemory i, .newValues i]) ++
    if isInvalidated || scan.shadowMemory i != newValues i then
      [.shift i, .newValues i, .shadowMemory i, .newValues i]
    else []

/-- The accesses of the loop. -/
def PushConstantState.accesses (state : PushConstantState) (newValues : ℕ → UInt32)
    (wordCount : ℕ) : List Access :=
  (List.range wordCount).flatMap fun i =>
    (state.scan newValues i).accesses state.isInvalidated newValues i

/-- The accesses of `process_update`. -/
def PushConstantOptimizer.accesses (o : PushConstantOptimizer) (cmdBuffer : UInt64)
    (data : ℕ → UInt32) (size : UInt32) : List Access :=
  (o.context cmdBuffer).accesses data (size / 4).toNat

/-- The index of an access. -/
def Access.index : Access → ℕ
  | .shadowMemory i | .newValues i | .shift i => i

namespace Scan

variable {isInvalidated : Bool} {newValues : ℕ → UInt32} {scan : Scan} {i : ℕ}

/-- The body stays at its word. -/
theorem index_of_mem_accesses {a : Access}
    (h : a ∈ scan.accesses isInvalidated newValues i) : a.index = i := by
  unfold accesses at h
  rcases List.mem_append.mp h with hcompared | hcollected
  · split at hcompared
    · cases hcompared
    · rcases List.mem_pair.mp hcompared with rfl | rfl <;> rfl
  · split at hcollected
    · rcases List.mem_cons.mp hcollected with rfl | hcollected
      · rfl
      · simp only [List.mem_cons, List.not_mem_nil, or_false] at hcollected
        rcases hcollected with rfl | rfl | rfl <;> rfl
    · cases hcollected

/-- **The shadow is accessed at every word**, by the comparison or by the update. -/
theorem shadowMemory_mem_accesses (isInvalidated : Bool) (newValues : ℕ → UInt32) (scan : Scan)
    (i : ℕ) : .shadowMemory i ∈ scan.accesses isInvalidated newValues i := by
  unfold accesses
  cases isInvalidated with
  | true => simp
  | false => simp

end Scan

/-- An access of the loop is in bounds exactly if its word is one of the first 32. -/
theorem Access.inBounds_iff_index_lt {a : Access} {size : UInt32} (h : a.index < (size / 4).toNat) :
    a.InBounds size ↔ a.index < 32 := by
  cases a with
  | shadowMemory i | newValues i => exact and_iff_left h
  | shift i => exact Iff.rfl

/-- **Updates stay inside the shadow** exactly if they are not longer than it, counted in
whole words. -/
theorem inBounds_iff (o : PushConstantOptimizer) (cmdBuffer : UInt64) (data : ℕ → UInt32)
    (size : UInt32) :
    (∀ a ∈ o.accesses cmdBuffer data size, a.InBounds size) ↔ size < 132 := by
  have hwords : size < 132 ↔ (size / 4).toNat ≤ 32 := by
    rw [UInt32.lt_iff_toNat_lt, UInt32.toNat_div]
    show size.toNat < 132 ↔ size.toNat / 4 ≤ 32
    omega
  rw [hwords]
  constructor
  · intro h
    by_contra hlong
    -- the first word behind the shadow
    have hmem : .shadowMemory 32 ∈ o.accesses cmdBuffer data size :=
      List.mem_flatMap.mpr ⟨32, List.mem_range.mpr (Nat.not_le.mp hlong),
        Scan.shadowMemory_mem_accesses _ _ _ 32⟩
    exact absurd (h _ hmem).1 (Nat.lt_irrefl 32)
  · intro hle a ha
    obtain ⟨i, hi, hbody⟩ := List.mem_flatMap.mp ha
    have hindex : a.index < (size / 4).toNat :=
      (Scan.index_of_mem_accesses hbody).trans_lt (List.mem_range.mp hi)
    exact (Access.inBounds_iff_index_lt hindex).mpr (hindex.trans_le hle)

/-- With 256 bytes, as many devices allow, a fresh command buffer is left behind. -/
theorem update_of_256_bytes_leaves_shadow :
    ¬ ∀ a ∈ PushConstantOptimizer.accesses {} 1 (fun _ => 0) 256, a.InBounds 256 := by
  intro h
  have hmem : .shadowMemory 32 ∈ PushConstantOptimizer.accesses {} 1 (fun _ => 0) 256 :=
    List.mem_flatMap.mpr ⟨32, List.mem_range.mpr (show 32 < 64 by decide),
      Scan.shadowMemory_mem_accesses _ _ _ 32⟩
  exact absurd (h _ hmem).1 (Nat.lt_irrefl 32)

end Synapse.Optimizer
