import Synapse.Foundations.CountedLoops
import Synapse.Foundations.NearestNumbers
import Synapse.IgpuMl.ReplayBuffer
import Synapse.IgpuMl.UsableModels

/-!
# `ReplayBuffer::sample`

A sample is taken at equal steps, from the oldest experience on, with indexes that are
multiples of an `f32`.  In a buffer of at most `2 ^ 23` experiences the last digit of an index
is worth a half at most, and so no experience is taken twice (`sample_of_run`).  Near the end of
a longer buffer that can happen (`sampleIndex_repeated`).

### Indexes in floats

The `i`-th index is the integer part of `i` times `len / n`, both operations rounded.
Rounding moves an index by a fraction of one, which matters only where the exact product is
near an integer, and it never does more than take an index one too low or one too high.  The
bounds come from `Foundations.NearestNumbers`; here they are put together for the format of
`f32`, where up to `2 ^ 23` the last digit of an index is worth a half at most.
-/

namespace Synapse.IgpuMl

open Numerals

namespace ReplayBuffer

variable {F : Type}

/-- `((i as f32 * step) as usize).min(len - 1)`, where `step` is `len as f32 / n as f32`. -/
def sampleIndex (len n i : ℕ) : ℕ := min (binary32.multiple i (binary32.ratio len n)) (len - 1)

/-- Indexes out of bounds would panic. -/
def sample (n : ℕ) (b : ReplayBuffer F) : Option (List (Experience F)) :=
  let len := b.buffer.length
  if len = 0 then some []
  else
    let n := min n len
    (List.range n).mapM fun i => b.buffer[sampleIndex len n i]?

section sampleIndex

variable {len n i j : ℕ}

/-- With `len - 1` as the last index the loop never leaves the buffer. -/
theorem sampleIndex_lt (hlen : 0 < len) (n i : ℕ) : sampleIndex len n i < len :=
  (Nat.min_le_right _ _).trans_lt (Nat.sub_lt hlen one_pos)

/-- Which it would not do without, either. -/
theorem sampleIndex_eq (hlen : len ≤ 2 ^ 23) (hle : n ≤ len) (hi : i < n) :
    sampleIndex len n i = binary32.multiple i (binary32.ratio len n) :=
  min_eq_left (Nat.le_sub_one_of_lt (BinaryFormat.multiple_lt (e := 148) rfl hlen hle hi))

/-- Neighbouring indexes differ. -/
theorem sampleIndex_lt_next (hlen : len ≤ 2 ^ 23) (hle : n ≤ len) (hi : i + 1 < n) :
    sampleIndex len n i < sampleIndex len n (i + 1) := by
  rw [sampleIndex_eq hlen hle (Nat.lt_of_succ_lt hi), sampleIndex_eq hlen hle hi]
  exact BinaryFormat.multiple_lt_multiple (e := 148) rfl hlen hle hi

/-- So all of them do, in order. -/
theorem sampleIndex_strictMono (hlen : len ≤ 2 ^ 23) (hle : n ≤ len) (hij : i < j) (hj : j < n) :
    sampleIndex len n i < sampleIndex len n j := by
  induction j, hij using Nat.le_induction with
  | base => exact sampleIndex_lt_next hlen hle hj
  | succ j hij ih => exact (ih (Nat.lt_of_succ_lt hj)).trans (sampleIndex_lt_next hlen hle hj)

/-- The last two indexes in a buffer of `2 ^ 24 - 1` experiences. -/
theorem sampleIndex_repeated :
    sampleIndex (2 ^ 24 - 1) (2 ^ 24 - 2) (2 ^ 24 - 4) =
      sampleIndex (2 ^ 24 - 1) (2 ^ 24 - 2) (2 ^ 24 - 3) := by
  decide +kernel

/-- An index is near its exact place. -/
theorem sampleIndex_near (hlen : len ≤ 2 ^ 23) (hle : n ≤ len) (hi : i < n) :
    sampleIndex len n i * n < i * len + n ∧ i * len < (sampleIndex len n i + 2) * n := by
  rw [sampleIndex_eq hlen hle hi]
  exact BinaryFormat.multiple_near (e := 148) rfl hlen hle hi

/-- The first index is 0. -/
theorem sampleIndex_zero (len n : ℕ) : sampleIndex len n 0 = 0 := by
  rw [sampleIndex, BinaryFormat.multiple_zero, Nat.zero_min]

end sampleIndex

/-- What a sample is made of. -/
structure IsSample (n : ℕ) (b : ReplayBuffer F) (samples : List (Experience F)) : Prop where
  length : samples.length = min n b.len
  getElem? : ∀ i < min n b.len, samples[i]? = b.buffer[sampleIndex b.len (min n b.len) i]?

/-- **No sample panics.** -/
theorem exists_sample (n : ℕ) (b : ReplayBuffer F) :
    ∃ samples, b.sample n = some samples ∧ IsSample n b samples := by
  unfold sample
  dsimp only
  split
  · rename_i hempty
    have hlen : b.len = 0 := hempty
    refine ⟨[], rfl, ?_, ?_⟩
    · rw [hlen, Nat.min_zero, List.length_nil]
    · rw [hlen, Nat.min_zero]
      exact fun i hi => absurd hi (Nat.not_lt_zero i)
  · rename_i hlen
    have hindex : ∀ i ∈ List.range (min n b.len),
        ∃ exp, b.buffer[sampleIndex b.len (min n b.len) i]? = some exp := by
      intro i _
      have hlt := sampleIndex_lt (Nat.pos_of_ne_zero hlen) (min n b.len) i
      exact ⟨_, List.getElem?_eq_getElem hlt⟩
    obtain ⟨samples, hsamples, hlength⟩ := exists_mapM hindex
    refine ⟨samples, hsamples, ?_, fun i hi => ?_⟩
    · rw [hlength, List.length_range]
    · rw [Runs.getElem?_of_mapM hsamples, List.getElem?_range hi, Option.bind_some]

namespace IsSample

variable {n : ℕ} {b : ReplayBuffer F} {samples : List (Experience F)}

/-- The oldest experience is taken first. -/
theorem head? (h : IsSample n b samples) (hn : 0 < n) : samples.head? = b.buffer.head? := by
  rw [List.head?_eq_getElem?, List.head?_eq_getElem?]
  rcases Nat.eq_zero_or_pos (min n b.len) with hzero | hpos
  · have hempty : b.buffer.length = 0 := by
      have hlen : b.buffer.length = b.len := rfl
      omega
    have hsamples : samples.length = 0 := h.length.trans hzero
    rw [List.getElem?_eq_none hempty.le, List.getElem?_eq_none hsamples.le]
  · rw [h.getElem? 0 hpos, sampleIndex_zero]

/-- Where the samples stand in the buffer: in order, and evenly spread. -/
structure Places (b : ReplayBuffer F) (samples : List (Experience F)) (place : ℕ → ℕ) : Prop where
  getElem? : ∀ i < samples.length, samples[i]? = b.buffer[place i]?
  lt : ∀ i < samples.length, place i < b.len
  increasing : ∀ i j, i < j → j < samples.length → place i < place j
  spread : ∀ i < samples.length, place i * samples.length < i * b.len + samples.length ∧
    i * b.len < (place i + 2) * samples.length

/-- All of this about the indexes of a sample. -/
theorem places (h : IsSample n b samples) (hlen : b.len ≤ 2 ^ 23) :
    Places b samples (sampleIndex b.len (min n b.len)) where
  getElem? i hi := h.getElem? i (h.length ▸ hi)
  lt i hi := by
    have hpos : 0 < b.len := (Nat.zero_lt_of_lt (h.length ▸ hi)).trans_le (Nat.min_le_right _ _)
    exact sampleIndex_lt hpos _ _
  increasing i j hij hj := sampleIndex_strictMono hlen (Nat.min_le_right _ _) hij (h.length ▸ hj)
  spread i hi := by
    rw [h.length] at hi ⊢
    exact sampleIndex_near hlen (Nat.min_le_right _ _) hi

/-- Each experience is taken at most once, in the order of the buffer. -/
theorem Places.sublist {place : ℕ → ℕ} (h : Places b samples place) :
    samples.Sublist b.buffer := by
  have hbound : ∀ i : Fin samples.length, place i < b.buffer.length := fun i => h.lt i i.isLt
  refine List.sublist_iff_exists_fin_orderEmbedding_get_eq.mpr
    ⟨OrderEmbedding.ofStrictMono (fun i => ⟨_, hbound i⟩) fun i j hij => ?_, fun i => ?_⟩
  · exact h.increasing i j hij j.isLt
  · have hget := h.getElem? i i.isLt
    rw [List.getElem?_eq_getElem i.isLt, List.getElem?_eq_getElem (hbound i)] at hget
    exact Option.some_injective _ hget

/-- A sample that is as large as the buffer is the buffer. -/
theorem eq_buffer (h : IsSample n b samples) (hlen : b.len ≤ 2 ^ 23) (hn : b.len ≤ n) :
    samples = b.buffer := by
  have hlength : samples.length = b.buffer.length := h.length.trans (min_eq_right hn)
  exact (h.places hlen).sublist.eq_of_length hlength

end IsSample

/-- **A sample after any calls** has as many experiences as it can have, different ones of those
that were added last, in their order, from the oldest one on; and they are spread evenly. -/
theorem sample_of_run {capacity : ℕ} (hcapacity : capacity ≤ 2 ^ 23) (calls : List (Call F))
    (n : ℕ) :
    ∃ samples, (run capacity calls).sample n = some samples ∧
      samples.length = min n (run capacity calls).len ∧
      samples.Sublist ((addedSinceClear calls).rtake (max capacity 1)) ∧
      (0 < n → samples.head? = (run capacity calls).buffer.head?) ∧
      ((run capacity calls).len ≤ n → samples = (run capacity calls).buffer) ∧
      ∃ place, IsSample.Places (run capacity calls) samples place := by
  obtain ⟨hbuffer, -⟩ := holds_run capacity calls
  have hlen : (run capacity calls).len ≤ 2 ^ 23 := by
    rw [len, hbuffer, length_rtake]
    exact (Nat.min_le_left _ _).trans (max_le hcapacity (by decide))
  obtain ⟨samples, hsample, h⟩ := exists_sample n (run capacity calls)
  refine ⟨samples, hsample, h.length, ?_, h.head?, h.eq_buffer hlen, _, h.places hlen⟩
  rw [← hbuffer]
  exact (h.places hlen).sublist

/-- Two of three experiences, after two others were cleared. -/
theorem sample_of_run_two_of_three :
    let rewarded : ℝ → Experience ℝ := fun reward => ⟨.zero, 0, reward, 0, 0, 0, 0, 1⟩
    let calls : List (Call ℝ) :=
      [.extend [rewarded 1, rewarded 2], .clear, .push (rewarded 3),
        .extend [rewarded 4, rewarded 5]]
    ∃ samples, (run 3 calls).sample 2 = some samples ∧ samples.length = 2 ∧
      samples.Sublist [rewarded 3, rewarded 4, rewarded 5] ∧
      samples.head? = some (rewarded 3) ∧ ∃ place, IsSample.Places (run 3 calls) samples place := by
  intro rewarded calls
  have hcapacity : 3 ≤ 2 ^ 23 := by decide
  obtain ⟨samples, hsample, hlength, hsublist, hhead, -, hplaces⟩ :=
    sample_of_run hcapacity calls 2
  exact ⟨samples, hsample, hlength, hsublist, hhead Nat.two_pos, hplaces⟩

end ReplayBuffer

end Synapse.IgpuMl
