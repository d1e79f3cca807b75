import Synapse.Foundations.BinaryFormats
import Synapse.Foundations.Codecs
import Synapse.IgpuMl.Network

/-!
# `bincode` and `blake3`

What is assumed of the two libraries, and `bincode`'s format for numbers of four bytes as an
instance, with a rounded arithmetic on them.

### What the libraries are

`bincode` writes a value field after field, numbers with the lowest byte first, a vector
behind its length, and `ndarray` an array as its version, its dimensions and its entries.  The
formats are put together from the codecs of `Foundations.Codecs`, so their laws are those of
the parts; the checks that the deserializers make, of the version and of the number of
entries, are the partial functions of `Codec.record`.

Of `blake3` nothing is assumed but the length of its digest.  Where a statement needs more, it
says so.
-/

namespace Synapse.IgpuMl

open ByteRecords Numerals

/-- `f32` -/
abbrev F32 := Numerals.Binary32

/-- `blake3`: a digest of 32 bytes. -/
structure Blake3 where
  digest : Bytes → Bytes
  length_digest (input : Bytes) : (digest input).length = 32

/-- `bincode` on what a model is made of.  An array starts with a version byte, its shape and
the number of its entries, which take four bytes each. -/
structure Bincode (C F : Type) where
  config : Codec C
  array1 : Codec (Array1 F)
  array2 : Codec (Array2 F)
  array2_header (w : Array2 F) : ∃ entries : Bytes,
    entries.length = 4 * (w.rows * w.cols) ∧
      array2.serialize w = 1 :: (leBytes 8 w.rows ++ (leBytes 8 w.cols ++
        (leBytes 8 (w.rows * w.cols) ++ entries)))

/-! ## An instance -/

/-- `ndarray` bounds the number of entries of an array. -/
theorem Array2.rows_mul_cols_lt {F : Type} (w : Array2 F) : w.rows * w.cols < 2 ^ 63 :=
  (Nat.mul_le_mul (le_max_left _ _) (le_max_left _ _)).trans_lt w.fits

/-- So its height is a word. -/
theorem Array2.rows_lt {F : Type} (w : Array2 F) : w.rows < 2 ^ 63 :=
  (le_max_left _ _).trans_lt
    ((Nat.le_mul_of_pos_right _ (lt_max_of_lt_right one_pos)).trans_lt w.fits)

/-- And its width. -/
theorem Array2.cols_lt {F : Type} (w : Array2 F) : w.cols < 2 ^ 63 :=
  (le_max_left _ _).trans_lt
    ((Nat.le_mul_of_pos_left _ (lt_max_of_lt_right one_pos)).trans_lt w.fits)

section arrays

variable {F : Type} (scalar : Codec F)

/-- A vector: version, length, entries. -/
def array1Codec : Codec (Array1 F) :=
  (Codec.uint8.both (Codec.uint64.both scalar.vec)).record
    (fun b => (1, UInt64.ofNat b.data.length, ⟨b.data, b.fits.trans (by decide)⟩))
    (fun v =>
      if h : v.1 = 1 ∧ v.2.1 = UInt64.ofNat v.2.2.1.length ∧ v.2.2.1.length < 2 ^ 63 then
        some ⟨v.2.2.1, h.2.2⟩
      else none) (by
    rintro ⟨version, dim, data, hdata⟩ b
    constructor
    · intro h
      split_ifs at h with hv
      obtain rfl := Option.some_injective _ h
      exact Prod.ext hv.1 (Prod.ext hv.2.1 rfl)
    · intro h
      simp only [Prod.mk.injEq, Subtype.mk.injEq] at h
      obtain ⟨rfl, rfl, rfl⟩ := h
      exact dif_pos ⟨rfl, rfl, b.fits⟩)

/-- A matrix: version, height, width, entries. -/
def array2Codec : Codec (Array2 F) :=
  (Codec.uint8.both (Codec.uint64.both (Codec.uint64.both scalar.vec))).record
    (fun w => (1, UInt64.ofNat w.rows, UInt64.ofNat w.cols,
      ⟨w.data, w.length_data ▸ w.rows_mul_cols_lt.trans (by decide)⟩))
    (fun v =>
      if h : v.1 = 1 ∧ v.2.2.2.1.length = v.2.1.toNat * v.2.2.1.toNat ∧
          max v.2.1.toNat 1 * max v.2.2.1.toNat 1 < 2 ^ 63 then
        some ⟨v.2.1.toNat, v.2.2.1.toNat, v.2.2.2.1, h.2.1, h.2.2⟩
      else none) (by
    rintro ⟨version, rows, cols, data, hdata⟩ w
    constructor
    · intro h
      split_ifs at h with hv
      obtain rfl := Option.some_injective _ h
      obtain ⟨hversion, -, -⟩ := hv
      simp only at hversion
      simp [hversion]
    · intro h
      simp only [Prod.mk.injEq, Subtype.mk.injEq] at h
      obtain ⟨rfl, rfl, rfl, rfl⟩ := h
      have hrows : (UInt64.ofNat w.rows).toNat = w.rows :=
        UInt64.toNat_ofNat_of_lt' (w.rows_lt.trans (by decide))
      have hcols : (UInt64.ofNat w.cols).toNat = w.cols :=
        UInt64.toNat_ofNat_of_lt' (w.cols_lt.trans (by decide))
      have hlength : w.data.length =
          (UInt64.ofNat w.rows).toNat * (UInt64.ofNat w.cols).toNat := by
        rw [hrows, hcols, w.length_data]
      have hfits : max (UInt64.ofNat w.rows).toNat 1 * max (UInt64.ofNat w.cols).toNat 1 <
          2 ^ 63 := by
        rw [hrows, hcols]
        exact w.fits
      rw [dif_pos ⟨rfl, hlength, hfits⟩]
      simp only [hrows, hcols])

/-- `bincode`'s format, for a configuration and numbers that are given. -/
def bincodeFormat {C : Type} (config : Codec C)
    (hscalar : ∀ x, (scalar.serialize x).length = 4) : Bincode C F where
  config := config
  array1 := array1Codec scalar
  array2 := array2Codec scalar
  array2_header w := by
    refine ⟨w.data.flatMap scalar.serialize, ?_, ?_⟩
    · rw [← w.length_data, List.length_flatMap]
      simp [hscalar, mul_comm]
    · have hrows : (UInt64.ofNat w.rows).toNat = w.rows :=
        UInt64.toNat_ofNat_of_lt' (w.rows_lt.trans (by decide))
      have hcols : (UInt64.ofNat w.cols).toNat = w.cols :=
        UInt64.toNat_ofNat_of_lt' (w.cols_lt.trans (by decide))
      show leBytes 1 1 ++ (leBytes 8 (UInt64.ofNat w.rows).toNat ++
        (leBytes 8 (UInt64.ofNat w.cols).toNat ++
          (leBytes 8 w.data.length ++ w.data.flatMap scalar.serialize))) = _
      rw [hrows, hcols, w.length_data]
      rfl

end arrays

/-- A `Vec<usize>`. -/
def dimsCodec : Codec {dims : List UInt64 // dims.length < 2 ^ 60} :=
  Codec.uint64.vec.record (fun dims => ⟨dims.1, dims.2.trans (by decide)⟩)
    (fun dims => if h : dims.1.length < 2 ^ 60 then some ⟨dims.1, h⟩ else none) (by
    rintro ⟨v, hv⟩ ⟨dims, hdims⟩
    constructor
    · intro h
      split_ifs at h
      simp only [Option.some.injEq, Subtype.mk.injEq] at h
      obtain rfl := h
      rfl
    · intro h
      simp only [Subtype.mk.injEq] at h
      obtain rfl := h
      exact dif_pos hdims)

/-- A float by its bits. -/
def f32Codec : Codec F32 :=
  Codec.uint32.record Numerals.Binary32.bits (fun bits => some ⟨bits⟩) (by
    intro bits x
    constructor
    · intro h
      exact (congrArg Numerals.Binary32.bits (Option.some_injective _ h))
    · rintro rfl
      rfl)

/-- The configuration of one design, field after field. -/
def dynamicTileTransformerConfigCodec : Codec (DynamicTileTransformerConfig F32) :=
  (Codec.uint64.both (dimsCodec.both (Codec.uint64.both (f32Codec.both (f32Codec.both
    (f32Codec.both (f32Codec.both f32Codec))))))).record
    (fun c => (c.inputDim, ⟨c.hiddenDims, c.fits⟩, c.outputDim, c.learningRate, c.epsilon,
      c.l2Lambda, c.energyWeight, c.performanceWeight))
    (fun ⟨inputDim, hiddenDims, outputDim, learningRate, epsilon, l2Lambda, energyWeight,
      performanceWeight⟩ => some ⟨inputDim, hiddenDims.1, outputDim, learningRate, epsilon,
        l2Lambda, energyWeight, performanceWeight, hiddenDims.2⟩) (by
    intro v c
    constructor
    · intro h
      obtain rfl := Option.some_injective _ h
      rfl
    · rintro rfl
      rfl)

/-- `bincode` on a `DynamicTileTransformer`. -/
def dynamicTileTransformerBincode : Bincode (DynamicTileTransformerConfig F32) F32 :=
  bincodeFormat f32Codec dynamicTileTransformerConfigCodec fun _ => length_leBytes 4 _

/-! ### Rounded arithmetic -/

namespace Rounded

/-- What an operation gives that has no finite result. -/
def nan : F32 := ⟨0x7fc00000⟩

/-- The number that is stored. -/
def value (x : F32) : ℚ :=
  (if x.bits.toNat < 2 ^ 31 then 1 else -1) * (binary32.units x.magnitude : ℚ) / 2 ^ 149

/-- The nearest number. -/
def round (q : ℚ) : F32 :=
  .signed (decide (q < 0)) (Numerals.Binary32.roundMagnitude q.num.natAbs q.den)

/-- An operation on finite numbers, with its result rounded. -/
def binary (f : ℚ → ℚ → ℚ) (x y : F32) : F32 :=
  if x.isFinite && y.isFinite then round (f (value x) (value y)) else nan

/-- A real function, with its result rounded. -/
noncomputable def real (f : ℝ → ℝ) (x : F32) : F32 :=
  if x.isFinite then round (⌊f (value x) * 2 ^ 149⌋ / 2 ^ 149) else nan

/-- The rounded sum. -/
def add : F32 → F32 → F32 := binary (· + ·)

/-- The rounded product. -/
def mul : F32 → F32 → F32 := binary (· * ·)

end Rounded

/-- Exact results, rounded; what is not finite is not told apart. -/
noncomputable instance roundedScalar : Scalar F32 where
  zero := .zero
  add := Rounded.add
  sub := Rounded.binary (· - ·)
  mul := Rounded.mul
  div := Rounded.binary (· / ·)
  neg x := ⟨x.bits ^^^ 0x80000000⟩
  lt x y := x.lt y = true
  decidableLT x y := inferInstanceAs (Decidable (x.lt y = true))
  literal := Rounded.round
  isFinite := Numerals.Binary32.isFinite
  max x y := if x.isNaN || x.lt y then y else x
  exp := Rounded.real Real.exp
  ln := Rounded.real Real.log
  sqrt := Rounded.real Real.sqrt
  sum := List.foldl Rounded.add .zero
  dot x y := (List.zipWith Rounded.mul x y).foldl Rounded.add .zero
  isFinite_zero := by decide
  not_zero_lt_zero := by decide
  not_one_lt_zero := by
    show ¬(Rounded.round 1).lt .zero = true
    decide +kernel

end Synapse.IgpuMl
