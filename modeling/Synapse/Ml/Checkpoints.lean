import Synapse.Foundations.BinaryFormats
import Synapse.Foundations.WordArrays
import Synapse.Ml.MLSubAPI

/-!
# Checkpoints

`checkpoint` writes the weights as they are in memory, and `restore` reads them back into an
array of zeros.

Nothing looks at how much was read: where a file ends too early the weights become zero
(`restored_iff`), so that it leaves them as they are only if they agree with that already
(`restored_whole_or_not_at_all_iff`).

The file is the array as it is in memory, four bytes for each weight in order
(`Foundations.WordArrays`), without a header or a length.  A restore reads into zeros and
takes what it has got, so a byte that is missing is a zero; `restored_iff` says which byte
strings give which weights, and everything else follows from it.
-/

namespace Synapse.Ml

open ByteRecords Numerals

namespace ContextualBandit

variable {R ρ : Type*}

/-- `save_weights`, where `idx` counts the pairs in the order of the loops. -/
def saveWeights (b : ContextualBandit R ρ) : Fin (3 * 8) → R := fun idx =>
  let (a, j) := finProdFinEquiv.symm idx
  b.weights a j

/-- The weights from an array of 24 numbers. -/
def loadWeights (values : Fin (3 * 8) → R) (b : ContextualBandit R ρ) : ContextualBandit R ρ :=
  { b with weights := fun a j => values (finProdFinEquiv (a, j)) }

/-- Each weight at its place. -/
theorem saveWeights_apply (b : ContextualBandit R ρ) (a : Fin 3) (j : Fin 8) :
    b.saveWeights (finProdFinEquiv (a, j)) = b.weights a j := by
  unfold saveWeights
  rw [Equiv.symm_apply_apply]

/-- Loaded are the weights of the bandit that saves the same values. -/
theorem weights_loadWeights_iff {values : Fin (3 * 8) → R} (b b' : ContextualBandit R ρ) :
    (b.loadWeights values).weights = b'.weights ↔ values = b'.saveWeights := by
  constructor
  · intro h
    funext idx
    obtain ⟨⟨a, j⟩, rfl⟩ := finProdFinEquiv.surjective idx
    rw [saveWeights_apply, ← h]
    rfl
  · rintro rfl
    funext a j
    exact b'.saveWeights_apply a j

/-- A byte of a weight. -/
def weightByte (b : ContextualBandit Numerals.Binary32 ρ) (a : Fin 3) (j : Fin 8) (k : Fin 4) :
    UInt8 :=
  UInt8.ofNat ((b.weights a j).bits.toNat / 256 ^ (k : ℕ))

/-- Where a byte of a weight is in memory. -/
def byteOffset (a : Fin 3) (j : Fin 8) (k : Fin 4) : ℕ := 4 * (j + 8 * a) + k

/-- The bytes of the weights are those of the file, with zeros behind its end. -/
def AgreesWith (file : Bytes) (b : ContextualBandit Numerals.Binary32 ρ) : Prop :=
  ∀ a j k, b.weightByte a j k = file.getD (byteOffset a j k) 0

instance (file : Bytes) (b : ContextualBandit Numerals.Binary32 ρ) :
    Decidable (b.AgreesWith file) :=
  inferInstanceAs (Decidable (∀ a j k, b.weightByte a j k = file.getD (byteOffset a j k) 0))

/-- All bytes of the weights are in the first 96. -/
theorem byteOffset_lt (a : Fin 3) (j : Fin 8) (k : Fin 4) : byteOffset a j k < 96 := by
  unfold byteOffset
  omega

/-- Every byte of the weights is one of a weight. -/
theorem exists_byteOffset {m : ℕ} (hm : m < 96) : ∃ a j k, byteOffset a j k = m := by
  refine ⟨⟨m / 32, by omega⟩, ⟨m / 4 % 8, by omega⟩, ⟨m % 4, by omega⟩, ?_⟩
  show 4 * (m / 4 % 8 + 8 * (m / 32)) + m % 4 = m
  omega

end ContextualBandit

namespace MLSubAPI

variable {ρ : Type*}

/-- `sizeof(w)`. -/
def sizeofWeights : ℕ := 4 * (3 * 8)

/-- What is written to the file. -/
def checkpoint (s : MLSubAPI Numerals.Binary32 ρ) : Bytes :=
  image fun idx => (s.bandit.saveWeights idx).bits

/-- Restored is from what is in the file, unless it cannot be opened. -/
def restore (file : Option Bytes) (s : MLSubAPI Numerals.Binary32 ρ) :
    MLSubAPI Numerals.Binary32 ρ :=
  match file with
  | none => s
  | some content =>
      let w := memcpy (List.replicate sizeofWeights 0) content sizeofWeights
      { s with bandit := s.bandit.loadWeights fun idx => ⟨ofImage (3 * 8) w idx⟩ }

end MLSubAPI

/-- What is read into an array of zeros. -/
theorem getElem?_memcpy_zeros (content : Bytes) {n m : ℕ} (hm : m < n) :
    (memcpy (List.replicate n 0) content n)[m]? = some (content.getD m 0) := by
  rw [memcpy, List.drop_replicate, List.length_replicate, List.getElem?_take_of_lt hm]
  have hlength := List.length_take (i := n) (l := content)
  rcases Nat.lt_or_ge m content.length with hlt | hge
  · have htake : m < (content.take n).length := hlength ▸ lt_min hm hlt
    rw [List.getElem?_append_left htake, List.getElem?_take_of_lt hm,
      List.getD_eq_getElem _ _ hlt, List.getElem?_eq_getElem hlt]
  · have htake : (content.take n).length ≤ m := hlength ▸ (min_le_right _ _).trans hge
    have hrest : m - (content.take n).length < n - (content.take n).length :=
      Nat.sub_lt_sub_right htake hm
    rw [List.getElem?_append_right htake, List.getD_eq_default _ _ hge,
      List.getElem?_replicate_of_lt hrest]

namespace MLSubAPI

variable {ρ : Type*}

/-- The bytes of a checkpoint one by one. -/
theorem getElem?_checkpoint (s : MLSubAPI Numerals.Binary32 ρ) (a : Fin 3) (j : Fin 8) (k : Fin 4) :
    s.checkpoint[ContextualBandit.byteOffset a j k]? = some (s.bandit.weightByte a j k) := by
  have hbyte := getElem?_image (fun idx => (s.bandit.saveWeights idx).bits)
    (finProdFinEquiv (a, j)) k.isLt
  rw [ContextualBandit.saveWeights_apply] at hbyte
  exact hbyte

/-- A checkpoint has 96 bytes. -/
theorem length_checkpoint (s : MLSubAPI Numerals.Binary32 ρ) : s.checkpoint.length = 96 :=
  length_image _

/-- The weights agree with their own checkpoint. -/
theorem agreesWith_checkpoint (s : MLSubAPI Numerals.Binary32 ρ) :
    s.bandit.AgreesWith s.checkpoint := by
  intro a j k
  rw [List.getD_eq_getElem?_getD, getElem?_checkpoint, Option.getD_some]

/-- **What is restored** are the weights that agree with the file, whatever they have been. -/
theorem restored_iff (s s' : MLSubAPI Numerals.Binary32 ρ) (content : Bytes) :
    (s.restore (some content)).bandit.weights = s'.bandit.weights ↔
      s'.bandit.AgreesWith content := by
  set w := memcpy (List.replicate sizeofWeights 0) content sizeofWeights
  have hlength : w.length = 4 * (3 * 8) := by
    rw [length_memcpy, List.length_replicate, sizeofWeights]
  have hread : ∀ m < 96, w[m]? = some (content.getD m 0) :=
    fun m hm => getElem?_memcpy_zeros content hm
  have hwords : (s.restore (some content)).bandit.weights = s'.bandit.weights ↔
      w = s'.checkpoint := by
    refine (ContextualBandit.weights_loadWeights_iff _ _).trans ?_
    constructor
    · intro h
      rw [checkpoint, ← h]
      exact (image_ofImage hlength).symm
    · intro h
      show (fun idx => ⟨ofImage (3 * 8) w idx⟩) = s'.bandit.saveWeights
      rw [h, checkpoint, ofImage_image]
  rw [hwords]
  constructor
  · intro h a j k
    have hbyte := getElem?_checkpoint s' a j k
    rw [← h, hread _ (ContextualBandit.byteOffset_lt a j k)] at hbyte
    exact (Option.some_injective _ hbyte).symm
  · intro h
    refine List.ext_getElem? fun m => ?_
    rcases Nat.lt_or_ge m 96 with hm | hm
    · obtain ⟨a, j, k, rfl⟩ := ContextualBandit.exists_byteOffset hm
      rw [hread _ hm, getElem?_checkpoint, h]
    · rw [List.getElem?_eq_none (hlength.trans_le hm),
        List.getElem?_eq_none ((length_checkpoint s').trans_le hm)]

/-- **A checkpoint is restored whole or not at all** exactly from files that are long enough,
or that agree with the weights there are already. -/
theorem restored_whole_or_not_at_all_iff (saved s : MLSubAPI Numerals.Binary32 ρ)
    (content : Bytes) :
    ((s.restore (some saved.checkpoint)).bandit.weights = saved.bandit.weights ∧
      (content.length < 96 → (s.restore (some content)).bandit.weights = s.bandit.weights)) ↔
    (content.length < 96 → s.bandit.AgreesWith content) := by
  have hsaved := (restored_iff s saved saved.checkpoint).mpr (agreesWith_checkpoint saved)
  rw [restored_iff s s content]
  exact and_iff_right hsaved

/-- An empty file. -/
theorem empty_file_zeroes_weights :
    ¬ ∀ (saved s : MLSubAPI Numerals.Binary32 Unit) (content : Bytes),
      (s.restore (some saved.checkpoint)).bandit.weights = saved.bandit.weights ∧
      (content.length < 96 →
        (s.restore (some content)).bandit.weights = s.bandit.weights) := by
  intro h
  let bandit : ContextualBandit Numerals.Binary32 Unit :=
    { weights _ _ := ⟨0x3f800000⟩, epsilon := ⟨0x3d4ccccd⟩, alpha := ⟨0x3c23d70a⟩, rng := (),
      frozen := false, updates := 0, cumulativeReward := ⟨0⟩, selectionCounts _ := 0 }
  let s : MLSubAPI Numerals.Binary32 Unit := create bandit fun _ => ⟨fun _ => ⟨0⟩, 0, ⟨0⟩⟩
  have hempty := (h s s []).2 (Nat.succ_pos 95)
  exact absurd (congrFun (congrFun hempty 0) 0) (by decide)

end MLSubAPI

end Synapse.Ml
