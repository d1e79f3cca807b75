import Synapse.Foundations.StructLayout
import Mathlib

/-!
# The structs of the FFI

The structs of `igpu_ml_ffi` and of `synapse_igpu_ml.h`, laid out for x86-64.

The header is said to be generated from the crate.  It declares `epsilon_greedy`, which is a
`bool` there, as an `int`, and every other field alike.  So the two sides read the same of
all other structs, and of this one as far as the three bytes behind the flag allow
(`readsSame_iff`).

### Layouts, not types

A struct is a list of fields with types of known size, and its layout is computed by the rules
of the ABI: each field at the next multiple of its alignment, the whole a multiple of the
largest (`Foundations.StructLayout`).  Both sides are written down in full, from the crate and
from the header, and compared as layouts.  Padding is part of them: what a writer leaves
between its fields is what memory held before, and where the reader has a wider field there,
it reads these bytes.
-/

namespace Synapse.Ffi

open ByteRecords StructLayout StructLayout.Layout

/-! ## Types of fields -/

/-- The bits of a float. -/
def f32 : Primitive := ⟨4, .unsigned, by norm_num⟩

/-- `u32`, `uint32_t` -/
def u32 : Primitive := ⟨4, .unsigned, by norm_num⟩

/-- `u64`, `uint64_t` -/
def u64 : Primitive := ⟨8, .unsigned, by norm_num⟩

/-- `usize`, `size_t` -/
def usize : Primitive := ⟨8, .unsigned, by norm_num⟩

/-- `*const c_char`. -/
def constChar : Primitive := ⟨8, .unsigned, by norm_num⟩

/-- `bool`, one byte that is 0 or 1. -/
def bool : Primitive := ⟨1, .flag, by norm_num⟩

/-- `int` -/
def int : Primitive := ⟨4, .signed, by norm_num⟩

/-! ## The declarations -/

/-- The names of all fields. -/
inductive Field where
  | shaderComplexityNorm
  | vertexCountLogNorm
  | drawCallRateNorm
  | cacheHitRate
  | dvfsHeadroom
  | thermalHeadroom
  | predictorAccuracy
  | isComputeDispatch
  | features
  | action
  | reward
  | timestampNs
  | sessionId
  | energyJoules
  | thermalEvents
  | confidence
  | scores
  | chosen
  | epsilonGreedy
  | featureImportances
  | predictedScores
  | modelVersion
  | notes
  | loss
  | gradientNorm
  | learningRate
  | avgLoss
  | samples
  | durationUs
  deriving DecidableEq, Repr

/-- The structs that both sides declare. -/
inductive FfiStruct where
  | featureVector
  | experience
  | actionScores
  | modelExplanation
  | updateResult
  | batchResult
  deriving DecidableEq, Repr

/-- The fields of a struct, in order. -/
abbrev Declaration := List (Field × Layout)

/-- Where the fields of a declaration lie. -/
def Declaration.layout (d : Declaration) : Layout := struct (d.map Prod.snd)

/-- The features, as the crate declares them. -/
def rustFeatureVector : Declaration :=
  [(.shaderComplexityNorm, primitive f32),
    (.vertexCountLogNorm, primitive f32),
    (.drawCallRateNorm, primitive f32),
    (.cacheHitRate, primitive f32),
    (.dvfsHeadroom, primitive f32),
    (.thermalHeadroom, primitive f32),
    (.predictorAccuracy, primitive f32),
    (.isComputeDispatch, primitive f32)]

/-- The declarations of `lib.rs`. -/
def rust : FfiStruct → Declaration
  | .featureVector => rustFeatureVector
  | .experience =>
      [(.features, rustFeatureVector.layout),
        (.action, primitive u32),
        (.reward, primitive f32),
        (.timestampNs, primitive u64),
        (.sessionId, primitive u64),
        (.energyJoules, primitive f32),
        (.thermalEvents, primitive u32),
        (.confidence, primitive f32)]
  | .actionScores =>
      [(.scores, array (primitive f32) 3),
        (.chosen, primitive u32),
        (.confidence, primitive f32),
        (.epsilonGreedy, primitive bool)]
  | .modelExplanation =>
      [(.featureImportances, array (primitive f32) 8),
        (.predictedScores, array (primitive f32) 3),
        (.confidence, primitive f32),
        (.modelVersion, primitive constChar),
        (.notes, primitive constChar)]
  | .updateResult =>
      [(.loss, primitive f32),
        (.gradientNorm, primitive f32),
        (.learningRate, primitive f32)]
  | .batchResult =>
      [(.avgLoss, primitive f32),
        (.samples, primitive usize),
        (.durationUs, primitive u64)]

/-- The same in the header. -/
def headerFeatureVector : Declaration :=
  [(.shaderComplexityNorm, primitive f32),
    (.vertexCountLogNorm, primitive f32),
    (.drawCallRateNorm, primitive f32),
    (.cacheHitRate, primitive f32),
    (.dvfsHeadroom, primitive f32),
    (.thermalHeadroom, primitive f32),
    (.predictorAccuracy, primitive f32),
    (.isComputeDispatch, primitive f32)]

/-- The declarations of the header.  The floats, `uint32_t`, `uint64_t`, `size_t` and pointers of C
are those of the crate. -/
def header : FfiStruct → Declaration
  | .featureVector => headerFeatureVector
  | .experience =>
      [(.features, headerFeatureVector.layout),
        (.action, primitive u32),
        (.reward, primitive f32),
        (.timestampNs, primitive u64),
        (.sessionId, primitive u64),
        (.energyJoules, primitive f32),
        (.thermalEvents, primitive u32),
        (.confidence, primitive f32)]
  | .actionScores =>
      [(.scores, array (primitive f32) 3),
        (.chosen, primitive u32),
        (.confidence, primitive f32),
        (.epsilonGreedy, primitive int)]
  | .modelExplanation =>
      [(.featureImportances, array (primitive f32) 8),
        (.predictedScores, array (primitive f32) 3),
        (.confidence, primitive f32),
        (.modelVersion, primitive constChar),
        (.notes, primitive constChar)]
  | .updateResult =>
      [(.loss, primitive f32),
        (.gradientNorm, primitive f32),
        (.learningRate, primitive f32)]
  | .batchResult =>
      [(.avgLoss, primitive f32),
        (.samples, primitive usize),
        (.durationUs, primitive u64)]

/-- Who writes and who reads. -/
inductive Side where
  | rust
  | c
  deriving DecidableEq, Repr

/-- The other one. -/
def Side.other : Side → Side
  | rust => c
  | c => rust

/-- The layout of a struct on a side. -/
def FfiStruct.layout (s : FfiStruct) : Side → Layout
  | .rust => (rust s).layout
  | .c => (header s).layout

/-- Both sides name the same fields in the same order, so a field has one place in both. -/
theorem fields_eq (s : FfiStruct) : (rust s).map Prod.fst = (header s).map Prod.fst := by
  cases s <;> rfl

namespace FfiStruct

/-- What `writer` stores as `values`, over bytes that hold `fill`, is what the other side
reads. -/
def ReadsSame (s : FfiStruct) (writer : Side) (values : List ℤ) (fill : Bytes) : Prop :=
  (s.layout writer.other).size = (s.layout writer).size ∧
    (s.layout writer.other).read ((s.layout writer).store values fill) = values.map some

/-- The bytes behind the flag are zero, and an `int` is a truth value. -/
def FlagWhole : FfiStruct → Side → List ℤ → Bytes → Prop
  | actionScores, .rust, _, fill => slice 21 3 fill = [0, 0, 0]
  | actionScores, .c, values, _ => values.getLast? = some 0 ∨ values.getLast? = some 1
  | _, _, _, _ => True

/-- The fields in front of the flag. -/
def beforeFlag : List Member := [⟨0, f32⟩, ⟨4, f32⟩, ⟨8, f32⟩, ⟨12, u32⟩, ⟨16, f32⟩]

/-- The flag is one byte in the crate. -/
theorem members_actionScores_rust :
    (actionScores.layout .rust).members = beforeFlag ++ [⟨20, bool⟩] := rfl

/-- And four in the header. -/
theorem members_actionScores_c :
    (actionScores.layout .c).members = beforeFlag ++ [⟨20, int⟩] := rfl

/-- All other structs are laid out alike. -/
theorem layout_other {s : FfiStruct} (hs : s ≠ actionScores) (writer : Side) :
    s.layout writer.other = s.layout writer := by
  cases s with
  | actionScores => exact absurd rfl hs
  | featureVector | experience | modelExplanation | updateResult | batchResult =>
      cases writer <;> rfl

/-! ## Four bytes and their first -/

section flag

variable {b : UInt8} {rest : Bytes} {v : ℤ}

/-- A truth value in the first byte is the number in all four if the others are zero. -/
theorem decode_int_iff (hrest : rest.length = 3) (hv : bool.Has v) (hb : [b] = bool.encode v) :
    int.decode (b :: rest) = some v ↔ rest = [0, 0, 0] := by
  have hflag : v = 0 ∨ v = 1 := hv
  have hlow := bool.toNat_head_encode hb
  have hlt : ofLeBytes rest < 256 ^ 3 := hrest ▸ ofLeBytes_lt rest
  have hzero : rest = [0, 0, 0] ↔ ofLeBytes rest = 0 := by
    constructor
    · rintro rfl
      rfl
    · intro h
      rw [← leBytes_ofLeBytes hrest, h]
      rfl
  show some (if 2 * ((b.toNat + 256 * ofLeBytes rest : ℕ) : ℤ) < 256 ^ 4
    then ((b.toNat + 256 * ofLeBytes rest : ℕ) : ℤ)
    else ((b.toNat + 256 * ofLeBytes rest : ℕ) : ℤ) - 256 ^ 4) = some v ↔ _
  rw [hzero, Option.some_inj]
  split
  case isTrue => omega
  -- a negative number is no truth value
  case isFalse => omega

/-- The first byte of an `int` is a truth value equal to it only if it is one itself. -/
theorem decode_bool_iff (hb : b :: rest = int.encode v) :
    bool.decode [b] = some v ↔ v = 0 ∨ v = 1 := by
  have hlow := int.toNat_head_encode hb
  have hdecode : bool.decode [b] =
      if (b.toNat : ℤ) = 0 ∨ (b.toNat : ℤ) = 1 then some (b.toNat : ℤ) else none := rfl
  rw [hdecode, Option.ite_none_right_eq_some, Option.some_inj]
  constructor
  · rintro ⟨hflag, rfl⟩
    exact hflag
  · intro hv
    have heq : (b.toNat : ℤ) = v := by omega
    exact ⟨heq ▸ hv, heq⟩

end flag

/-! ## What is read -/

section actionScores

variable {values : List ℤ} {fill : Bytes}

/-- The flag comes last. -/
theorem exists_flag {flag : Primitive} {l : Layout}
    (hmembers : l.members = beforeFlag ++ [⟨20, flag⟩]) (hvalues : l.Fits values) :
    ∃ first v, values = first ++ [v] ∧ (⟨20, flag⟩, v) ∈ l.members.zip values ∧ flag.Has v := by
  obtain ⟨hlength, hhas⟩ := List.forall₂_iff_zip.mp hvalues
  rw [hmembers] at hlength
  obtain rfl | ⟨first, v, rfl⟩ := List.eq_nil_or_concat values
  · cases hlength
  · rw [List.concat_eq_append] at *
    have hmem : ((⟨20, flag⟩ : Member), v) ∈ l.members.zip (first ++ [v]) := by
      rw [hmembers, List.zip_append (by simpa using hlength)]
      exact List.mem_append_right _ (List.mem_singleton_self _)
    exact ⟨first, v, rfl, hmem, hhas hmem⟩

/-- The header reads the three bytes behind the flag. -/
theorem actionScores_readsSame_rust_iff (hvalues : (actionScores.layout .rust).Fits values)
    (hfill : fill.length = (actionScores.layout .rust).size) :
    actionScores.ReadsSame .rust values fill ↔ slice 21 3 fill = [0, 0, 0] := by
  obtain ⟨first, v, rfl, hmem, hv⟩ := exists_flag members_actionScores_rust hvalues
  have hlength := (List.forall₂_iff_zip.mp hvalues).1
  have hlast :=
    read_store_iff_of_last hfill members_actionScores_rust members_actionScores_c hvalues
  have hflag : slice 20 1 ((actionScores.layout .rust).store (first ++ [v]) fill) = bool.encode v :=
    slice_store hfill hlength.le hmem
  have hbehind : slice 21 3 ((actionScores.layout .rust).store (first ++ [v]) fill) =
      slice 21 3 fill := slice_store_of_disjoint hfill (by decide)
  have hthree : (slice 21 3 fill).length = 3 := by
    rw [slice, List.length_take, List.length_drop, hfill]
    rfl
  apply (and_iff_right rfl).trans
  apply hlast.trans
  show int.decode (slice 20 (1 + 3) _) = some v ↔ _
  rw [slice_add, hflag, hbehind]
  exact decode_int_iff hthree hv rfl

/-- The crate reads the first byte of the `int`. -/
theorem actionScores_readsSame_c_iff (hvalues : (actionScores.layout .c).Fits values)
    (hfill : fill.length = (actionScores.layout .c).size) :
    actionScores.ReadsSame .c values fill ↔
      values.getLast? = some 0 ∨ values.getLast? = some 1 := by
  obtain ⟨first, v, rfl, hmem, -⟩ := exists_flag members_actionScores_c hvalues
  have hlength := (List.forall₂_iff_zip.mp hvalues).1
  have hlast :=
    read_store_iff_of_last hfill members_actionScores_c members_actionScores_rust hvalues
  have hflag : slice 20 (1 + 3) ((actionScores.layout .c).store (first ++ [v]) fill) =
      int.encode v := slice_store hfill hlength.le hmem
  obtain ⟨b, rest, hb⟩ : ∃ b rest, b :: rest = int.encode v := ⟨_, _, rfl⟩
  have hlow : slice 20 1 ((actionScores.layout .c).store (first ++ [v]) fill) = [b] := by
    rw [← take_slice 20 1 3, hflag, ← hb]
    rfl
  apply (and_iff_right rfl).trans
  apply hlast.trans
  show bool.decode (slice 20 1 _) = some v ↔ _
  rw [hlow, List.getLast?_concat, Option.some_inj, Option.some_inj]
  exact decode_bool_iff hb

end actionScores

/-- **Both sides read the same** of every struct whatever is in its padding, but of the scores
exactly if the flag is whole. -/
theorem readsSame_iff (s : FfiStruct) (writer : Side) (values : List ℤ) (fill : Bytes)
    (hvalues : (s.layout writer).Fits values) (hfill : fill.length = (s.layout writer).size) :
    s.ReadsSame writer values fill ↔ s.FlagWhole writer values fill := by
  by_cases hs : s = actionScores
  · subst hs
    cases writer with
    | rust => exact actionScores_readsSame_rust_iff hvalues hfill
    | c => exact actionScores_readsSame_c_iff hvalues hfill
  · have hreads : s.ReadsSame writer values fill := by
      unfold ReadsSame
      rw [layout_other hs]
      exact ⟨rfl, read_store hfill hvalues⟩
    have hwhole : s.FlagWhole writer values fill := by
      cases s with
      | actionScores => exact absurd rfl hs
      | featureVector | experience | modelExplanation | updateResult | batchResult => trivial
    exact iff_of_true hreads hwhole

/-- `fallback_scores()`: 0.333, 0.333 and 0.334, the oracle, no confidence and no flag. -/
def fallbackScores : List ℤ := [0x3eaa7efa, 0x3eaa7efa, 0x3eab020c, 2, 0, 0]

/-- The fallback scores are values of the crate's struct. -/
theorem fits_fallbackScores : (actionScores.layout .rust).Fits fallbackScores := by
  have hbits : ∀ v ∈ [0x3eaa7efa, 0x3eaa7efa, 0x3eab020c, 2, 0], 0 ≤ v ∧ v < (256 : ℤ) ^ 4 := by
    norm_num
  simp only [List.forall_mem_cons] at hbits
  obtain ⟨h0, h1, h2, hchosen, hconfidence, -⟩ := hbits
  exact .cons h0 <| .cons h1 <| .cons h2 <| .cons hchosen <| .cons hconfidence <|
    .cons (Or.inl rfl) .nil

/-- Over zeros the wider flag is read as it was written. -/
theorem fallbackScores_over_zeros :
    actionScores.ReadsSame .rust fallbackScores (List.replicate 24 0) :=
  (readsSame_iff actionScores .rust fallbackScores _ fits_fallbackScores rfl).mpr rfl

/-- Over bytes that are not zero the header finds the flag set. -/
theorem fallbackScores_over_ones : (actionScores.layout .rust).Fits fallbackScores ∧
    ¬ actionScores.ReadsSame .rust fallbackScores (List.replicate 24 1) := by
  refine ⟨fits_fallbackScores, fun h => ?_⟩
  have hpadding := (actionScores_readsSame_rust_iff fits_fallbackScores rfl).mp h
  exact absurd hpadding (by decide)

end FfiStruct

end Synapse.Ffi
