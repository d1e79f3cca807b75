import Synapse.Foundations.ByteRecords

/-!
# `igpu_ml_core`

The data that the models of the Rust side take and give.  What they compute with is a
parameter: `f32` with its rounding, or the real numbers.

### Scalars

A model computes with numbers of any type that has the operations it uses (`Scalar`): the
literals and functions of the source are fields of this class, without laws.  Statements that
need laws are made for the reals, and statements that need none for every scalar; `f32` is an
instance with its own rounding, on which witnesses and counterexamples are evaluated.
-/

namespace Synapse.IgpuMl

open ByteRecords

/-- `f32` and what the models call on it.  `literal` is a number as it is written, or cast
from an integer; `sum` and `dot` add up as `ndarray` does, in whatever order. -/
class Scalar (F : Type*) extends Zero F, Add F, Sub F, Mul F, Div F, Neg F, LT F where
  decidableLT (x y : F) : Decidable (x < y)
  literal : ℚ → F
  isFinite : F → Bool
  max : F → F → F
  exp : F → F
  ln : F → F
  sqrt : F → F
  sum : List F → F
  dot : List F → List F → F
  /-- Zero is a number between zero and one. -/
  isFinite_zero : isFinite 0 = true
  not_zero_lt_zero : ¬(0 : F) < 0
  not_one_lt_zero : ¬literal 1 < 0

instance decidableLTScalar {F : Type*} [Scalar F] (x y : F) : Decidable (x < y) :=
  Scalar.decidableLT x y

/-- Exact arithmetic. -/
noncomputable instance exactScalar : Scalar ℝ where
  decidableLT _ _ := Classical.propDecidable _
  literal q := q
  isFinite _ := true
  max := max
  exp := Real.exp
  ln := Real.log
  sqrt := Real.sqrt
  sum := List.sum
  dot x y := (List.zipWith (· * ·) x y).sum
  isFinite_zero := rfl
  not_zero_lt_zero := lt_irrefl 0
  not_one_lt_zero := by norm_num

/-- Where a draw call can be sent. -/
inductive Backend where
  | jit
  | hai
  | oracle
  deriving DecidableEq, Repr

/-- `self as u32`. -/
def Backend.toU32 : Backend → UInt32
  | jit => 0
  | hai => 1
  | oracle => 2

/-- `FeatureVector` -/
structure FeatureVector (F : Type*) where
  shaderComplexityNorm : F
  vertexCountLogNorm : F
  drawCallRateNorm : F
  cacheHitRate : F
  dvfsHeadroom : F
  thermalHeadroom : F
  predictorAccuracy : F
  isComputeDispatch : F

/-- `Experience` -/
structure Experience (F : Type*) where
  features : FeatureVector F
  action : UInt32
  reward : F
  timestampNs : UInt64
  sessionId : UInt64
  energyJoules : F
  thermalEvents : UInt32
  confidence : F

/-- `ActionScores` -/
structure ActionScores (F : Type*) where
  scores : Backend → F
  chosen : UInt32
  confidence : F
  epsilonGreedy : Bool

/-- `UpdateResult` -/
structure UpdateResult (F : Type*) where
  loss : F
  gradientNorm : F
  learningRate : F

/-- `ModelExplanation` -/
structure ModelExplanation (F : Type*) where
  featureImportances : Fin 8 → F
  predictedScores : Backend → F
  confidence : F
  modelVersion : String
  notes : String

/-- What a `DeserializationError` carries the text of. -/
inductive DeserializationCause where
  | utf8 (bytes : Bytes)
  | bincode (message : String)
  | message (text : String)

/-- The errors of the models; the first names the feature that is out of range. -/
inductive IgpuMlError where
  | invalidFeatureVector (i : ℕ)
  | deserializationError (cause : DeserializationCause)

section values

variable {F : Type*} [Scalar F]

/-- `f32::clamp` to zero and one. -/
def clampUnit (x : F) : F :=
  if x < 0 then 0 else if Scalar.literal 1 < x then Scalar.literal 1 else x

namespace FeatureVector

/-- The features in their order. -/
def toArray (f : FeatureVector F) : List F :=
  [f.shaderComplexityNorm, f.vertexCountLogNorm, f.drawCallRateNorm, f.cacheHitRate,
    f.dvfsHeadroom, f.thermalHeadroom, f.predictorAccuracy, f.isComputeDispatch]

/-- `!v.is_finite() || v < 0.0 || v > 1.0` -/
def outOfRange (v : F) : Bool :=
  !Scalar.isFinite v || decide (v < 0) || decide (Scalar.literal 1 < v)

/-- `validate`: the first feature that is out of range is reported. -/
def validate (f : FeatureVector F) : Except IgpuMlError Unit :=
  match f.toArray.findIdx? outOfRange with
  | some i => .error (.invalidFeatureVector i)
  | none => .ok ()

/-- Features that are all zero. -/
def zero : FeatureVector F := ⟨0, 0, 0, 0, 0, 0, 0, 0⟩

omit [Scalar F] in
/-- There are eight. -/
theorem length_toArray (f : FeatureVector F) : f.toArray.length = 8 := rfl

/-- Zeros are in range. -/
theorem validate_zero : (zero : FeatureVector F).validate = .ok () := by
  have hzero : outOfRange (0 : F) = false := by
    simp [outOfRange, Scalar.isFinite_zero, Scalar.not_zero_lt_zero, Scalar.not_one_lt_zero]
  simp [validate, zero, toArray, List.findIdx?_cons, hzero]

end FeatureVector

/-- `UpdateResult::default()` -/
def UpdateResult.default : UpdateResult F := ⟨0, 0, 0⟩

/-- `f32::max` over the scores, less their mean. -/
def ActionScores.margin (scores : Backend → F) : F :=
  Scalar.max (Scalar.max (scores .jit) (scores .hai)) (scores .oracle) -
    (0 + scores .jit + scores .hai + scores .oracle) / Scalar.literal 3

/-- The scores for features that cannot be used. -/
def ActionScores.fallback : ActionScores F where
  scores
    | .jit => Scalar.literal 0.333
    | .hai => Scalar.literal 0.333
    | .oracle => Scalar.literal 0.334
  chosen := Backend.oracle.toU32
  confidence := 0
  epsilonGreedy := false

end values

end Synapse.IgpuMl
