import Synapse.Foundations.Runs
import Synapse.IgpuMl.Core

/-!
# `DynamicTileTransformer` and `TelemetryOptimizer`

The two models are one layered network; they differ in their configuration, in the tag of
their files and in the loss that `update` reports (`Design`).  An index out of range, a shape
that does not fit and an `unwrap` of nothing panic, which is `none`; a loop is a run over
the values of its variable.

Nothing that `update` does changes how many layers there are or what shapes they have
(`update_frame`).

### Loops and panics

The loops of the crate run over index ranges, and their bodies read and write several arrays
at once.  In the model a loop is a fold in `Option` over the numbers, with the arrays as its
state, so that a panic in any round is a panic of the loop; the order of the rounds is the
source's.  The backward loop goes from the last layer down and carries `delta`.

The two designs share all of this.  What differs between them is in `Design`, so a statement
about both crates is a statement about a `Design`.
-/

namespace Synapse.IgpuMl

open Runs

/-! ## Arrays -/

/-- `Array1<f32>` -/
structure Array1 (F : Type*) where
  data : List F
  fits : data.length < 2 ^ 63

/-- `Array2<f32>`, row by row. -/
structure Array2 (F : Type*) where
  rows : ℕ
  cols : ℕ
  data : List F
  length_data : data.length = rows * cols
  fits : max rows 1 * max cols 1 < 2 ^ 63

variable {F : Type}

namespace Array1

/-- `b[j] = x` -/
def set (b : Array1 F) (j : ℕ) (x : F) : Array1 F :=
  ⟨b.data.set j x, by simpa using b.fits⟩

/-- `Array::zeros(n)` -/
def zeros [Zero F] (n : ℕ) : Option (Array1 F) :=
  if h : n < 2 ^ 63 then some ⟨List.replicate n 0, by simpa using h⟩ else none

/-- `b.len()` -/
def length (b : Array1 F) : ℕ := b.data.length

@[simp] theorem length_set (b : Array1 F) (j : ℕ) (x : F) : (b.set j x).length = b.length :=
  List.length_set

end Array1

namespace Array2

/-- A hidden layer of three units in front of the eight features. -/
theorem fits_three_eight : max 3 1 * max 8 1 < 2 ^ 63 := by decide

/-- `w[(j, k)]` -/
def get? (w : Array2 F) (j k : ℕ) : Option F :=
  if j < w.rows ∧ k < w.cols then w.data[j * w.cols + k]? else none

/-- `w[(j, k)] = x` -/
def set (w : Array2 F) (j k : ℕ) (x : F) : Array2 F :=
  { w with data := w.data.set (j * w.cols + k) x, length_data := by simpa using w.length_data }

/-- `Array::from_shape_fn((rows, cols), …)`, of the numbers that are drawn one after the
other. -/
def fromShapeFn (rows cols : ℕ) (f : ℕ → F) : Option (Array2 F) :=
  if h : max rows 1 * max cols 1 < 2 ^ 63 then
    some ⟨rows, cols, (List.range (rows * cols)).map f, by simp, h⟩
  else none

/-- The entries of a row. -/
def row (w : Array2 F) (j : ℕ) : List F := (w.data.drop (j * w.cols)).take w.cols

/-- `w.dot(&x)` -/
def dot [Scalar F] (w : Array2 F) (x : List F) : Option (List F) :=
  if x.length = w.cols then some ((List.range w.rows).map fun j => Scalar.dot (w.row j) x)
  else none

/-- `w.dim()` -/
def shape (w : Array2 F) : ℕ × ℕ := (w.rows, w.cols)

@[simp] theorem rows_set (w : Array2 F) (j k : ℕ) (x : F) : (w.set j k x).rows = w.rows := rfl

@[simp] theorem cols_set (w : Array2 F) (j k : ℕ) (x : F) : (w.set j k x).cols = w.cols := rfl

end Array2

/-- `y + b` of two vectors: of the same length, or one of them of length 1. -/
def broadcastAdd [Add F] (y b : List F) : Option (List F) :=
  if y.length = b.length then some (List.zipWith (· + ·) y b)
  else
    match y, b with
    | y, [x] => some (y.map (· + x))
    | [x], b => some (b.map (x + ·))
    | _, _ => none

/-! ## Networks -/

/-- What the two models differ in.  `loss` gets the last `delta`. -/
structure Design (C F : Type) where
  tag : String
  inputDim : C → UInt64
  hiddenDims : C → List UInt64
  outputDim : C → UInt64
  learningRate : C → F
  l2Lambda : C → F
  loss : C → Experience F → List F → Option F

/-- A model: `DynamicTileTransformer` or `TelemetryOptimizer`. -/
structure Network (C F : Type) where
  config : C
  weights : List (Array2 F)
  biases : List (Array1 F)
  version : String
  trainingSteps : UInt64

/-- How `StdRng` goes on from a seed: number `n` that is drawn. -/
abbrev Random (F : Type*) := UInt64 → ℕ → F

namespace Network

variable {C : Type} [Scalar F] (design : Design C F)

/-! ### Creation -/

/-- One layer of `new`; `drawn` numbers have been drawn before. -/
def newLayer (rng : ℕ → F) (drawn : ℕ) (prevDim dim : UInt64) :
    Option (Array2 F × Array1 F × ℕ) := do
  let scale := Scalar.sqrt (Scalar.literal 2 / Scalar.literal ((prevDim + dim).toNat : ℚ))
  let w ← Array2.fromShapeFn dim.toNat prevDim.toNat fun n =>
    (rng (drawn + n) - Scalar.literal 0.5) * Scalar.literal 2 * scale
  let b ← Array1.zeros dim.toNat
  return (w, b, drawn + dim.toNat * prevDim.toNat)

/-- The loop of `new` and the output layer after it. -/
def newLayers (rng : ℕ → F) (outputDim : UInt64) :
    ℕ → UInt64 → List UInt64 → Option (List (Array2 F) × List (Array1 F))
  | drawn, prevDim, [] => do
      let (w, b, _) ← newLayer rng drawn prevDim outputDim
      return ([w], [b])
  | drawn, prevDim, dim :: dims => do
      let (w, b, drawn) ← newLayer rng drawn prevDim dim
      let (ws, bs) ← newLayers rng outputDim drawn dim dims
      return (w :: ws, b :: bs)

/-- `new`: the layers are drawn from one generator, one after the other. -/
def new (random : Random F) (config : C) (seed : UInt64) : Option (Network C F) := do
  let (weights, biases) ← newLayers (random seed) (design.outputDim config) 0
    (design.inputDim config) (design.hiddenDims config)
  return { config, weights, biases, version := "1.0.0", trainingSteps := 0 }

/-! ### Inference -/

/-- `w.dot(&x) + b` -/
def affine (w : Array2 F) (b : Array1 F) (x : List F) : Option (List F) := do
  let y ← w.dot x
  broadcastAdd y b.data

/-- The hidden layers, one after the other: all activations, the features first. -/
def activationsFrom : List (Array2 F × Array1 F) → List F → Option (List (List F))
  | [], x => some [x]
  | (w, b) :: layers, x => do
      let y ← affine w b x
      let activations ← activationsFrom layers (y.map fun v => Scalar.max v 0)
      return x :: activations

/-- `self.weights.iter().zip(self.biases.iter()).take(self.weights.len() - 1)` -/
def hidden (m : Network C F) : List (Array2 F × Array1 F) :=
  (m.weights.zip m.biases).take (m.weights.length - 1)

/-- What the hidden layers give, the features first. -/
def activations (m : Network C F) (features : FeatureVector F) : Option (List (List F)) :=
  activationsFrom m.hidden features.toArray

/-- The output layer, applied to the last activation. -/
def logits (m : Network C F) (activations : List (List F)) : Option (List F) := do
  let current ← activations.getLast?
  let w ← m.weights.getLast?
  let b ← m.biases.getLast?
  affine w b current

/-- `forward` -/
def forward (m : Network C F) (features : FeatureVector F) : Option (List F) := do
  m.logits (← m.activations features)

/-- The probabilities of `infer` and `update`. -/
def softmax (logits : List F) : List F :=
  let maxLogit :=
    match logits with
    | [] => 0
    | v :: vs => vs.foldl Scalar.max v
  let exp := logits.map fun v => Scalar.exp (v - maxLogit)
  let sum := Scalar.sum exp
  if 0 < sum then exp.map (· / sum) else [0, 0, 0]

/-- `scores.copy_from_slice(…)` -/
def copyFromSlice : List F → Option (Backend → F)
  | [x, y, z] => some fun
      | .jit => x
      | .hai => y
      | .oracle => z
  | _ => none

/-- `max_by` keeps the later one of two, unless it is less. -/
def later (scores : Backend → F) (best i : Backend) : Backend :=
  if scores i < scores best then best else i

/-- `infer`, which answers invalid features with the fallback. -/
def infer (m : Network C F) (features : FeatureVector F) : Option (ActionScores F) :=
  match features.validate with
  | .error _ => some .fallback
  | .ok () => do
      let logits ← m.forward features
      let scores ← copyFromSlice (softmax logits)
      return {
        scores := scores
        chosen := (later scores (later scores .jit .hai) .oracle).toU32
        confidence := clampUnit (ActionScores.margin scores)
        epsilonGreedy := false }

/-- `explain`, which infers and gives the features as their own importances. -/
def explain (m : Network C F) (features : FeatureVector F) : Option (ModelExplanation F) := do
  let inferred ← m.infer features
  return {
    featureImportances := ![features.shaderComplexityNorm, features.vertexCountLogNorm,
      features.drawCallRateNorm, features.cacheHitRate, features.dvfsHeadroom,
      features.thermalHeadroom, features.predictorAccuracy, features.isComputeDispatch]
    predictedScores := inferred.scores
    confidence := clampUnit (ActionScores.margin inferred.scores)
    modelVersion := m.version
    notes := "training_steps=" ++ toString m.trainingSteps.toNat }

/-! ### Training -/

/-- `grad = delta[j] * input[k] + l2 * w[(j, k)]`, the step of entry `(j, k)` and its part of
`total_norm`. -/
def updateEntry (lr l2 : F) (delta input : List F) (j : ℕ) (state : Array2 F × F) (k : ℕ) :
    Option (Array2 F × F) := do
  let d ← delta[j]?
  let x ← input[k]?
  let v ← state.1.get? j k
  let grad := d * x + l2 * v
  return (state.1.set j k (v - lr * grad), state.2 + grad * grad)

/-- Row `j` of a layer. -/
def updateRow (lr l2 : F) (delta input : List F) (state : (Array2 F × Array1 F) × F) (j : ℕ) :
    Option ((Array2 F × Array1 F) × F) := do
  let (w, norm) ← exec (updateEntry lr l2 delta input j) (state.1.1, state.2)
    (List.range state.1.1.cols)
  let d ← delta[j]?
  let v ← state.1.2.data[j]?
  return ((w, state.1.2.set j (v - lr * d)), norm + d * d)

/-- The loops over a layer. -/
def updateLayer (lr l2 : F) (delta input : List F) (w : Array2 F) (b : Array1 F) (norm : F) :
    Option ((Array2 F × Array1 F) × F) :=
  exec (updateRow lr l2 delta input) ((w, b), norm) (List.range w.rows)

/-- `new_delta` before it is masked. -/
def pullBack (wNext : Array2 F) (delta : List F) : Option (List F) :=
  (List.range wNext.cols).mapM fun j =>
    exec (fun sum k => do
      let v ← wNext.get? k j
      let d ← delta[k]?
      return sum + v * d) 0 (List.range delta.length)

/-- `new_delta[j] *= if act[j] > 0.0 { 1.0 } else { 0.0 }` -/
def mask (act newDelta : List F) : Option (List F) :=
  newDelta.zipIdx.mapM fun (d, j) => do
    let a ← act[j]?
    return d * if 0 < a then Scalar.literal 1 else 0

/-- What the backward pass carries from layer to layer. -/
structure Backward (C F : Type) where
  network : Network C F
  delta : List F
  totalNorm : F

/-- The update of layer `i` with its `delta`. -/
def learnLayer (activations : List (List F)) (i : ℕ) (s : Backward C F) :
    Option (Backward C F) := do
  let w ← s.network.weights[i]?
  let b ← s.network.biases[i]?
  let ((w, b), norm) ← updateLayer (design.learningRate s.network.config)
    (design.l2Lambda s.network.config) s.delta (activations[i]?.getD []) w b s.totalNorm
  return { s with
    network := { s.network with
      weights := s.network.weights.set i w
      biases := s.network.biases.set i b }
    totalNorm := norm }

/-- One pass of the loop over the hidden layers. -/
def backLayer (activations : List (List F)) (s : Backward C F) (i : ℕ) :
    Option (Backward C F) := do
  let wNext ← s.network.weights[i + 1]?
  let newDelta ← pullBack wNext s.delta
  let delta ← mask (activations[i + 1]?.getD []) newDelta
  learnLayer design activations i { s with delta := delta }

/-- The forward and the backward pass of an update, up to the loss. -/
def backward (m : Network C F) (activations : List (List F)) (probs : List F) :
    Option (Backward C F) := do
  let s ← learnLayer design activations (m.weights.length - 1) ⟨m, probs, 0⟩
  exec (backLayer design activations) s (List.range (m.weights.length - 1)).reverse

/-- `probs[action_idx] -= 1.0` -/
def chosenMinusOne (probs : List F) (action : ℕ) : Option (List F) := do
  let p ← probs[action]?
  return probs.set action (p - Scalar.literal 1)

/-- `update`, which never returns an error. -/
def update (m : Network C F) (experience : Experience F) :
    Option (Network C F × Except IgpuMlError (UpdateResult F)) :=
  match experience.features.validate with
  | .error _ => some (m, .ok .default)
  | .ok () =>
      if experience.action.toNat ≥ 3 then some (m, .ok .default)
      else do
        let activations ← m.activations experience.features
        let logits ← m.logits activations
        let probs ← chosenMinusOne (softmax logits) experience.action.toNat
        let s ← m.backward design activations probs
        let loss ← design.loss m.config experience s.delta
        return ({ s.network with trainingSteps := s.network.trainingSteps + 1 },
          .ok ⟨loss, Scalar.sqrt s.totalNorm, design.learningRate m.config⟩)

/-! ### What training leaves as it is -/

/-- Everything but the entries of the arrays and the number of steps. -/
structure SameFrame (m m' : Network C F) : Prop where
  config : m'.config = m.config
  version : m'.version = m.version
  weights : m'.weights.map Array2.shape = m.weights.map Array2.shape
  biases : m'.biases.map Array1.length = m.biases.map Array1.length

omit [Scalar F] in
/-- The same number of matrices. -/
theorem SameFrame.length_weights {m m' : Network C F} (h : SameFrame m m') :
    m'.weights.length = m.weights.length := by
  have hlength := congrArg List.length h.weights
  rwa [List.length_map, List.length_map] at hlength

omit [Scalar F] in
/-- The same number of biases. -/
theorem SameFrame.length_biases {m m' : Network C F} (h : SameFrame m m') :
    m'.biases.length = m.biases.length := by
  have hlength := congrArg List.length h.biases
  rwa [List.length_map, List.length_map] at hlength

omit [Scalar F] in
/-- A model has its own frame. -/
theorem SameFrame.refl (m : Network C F) : SameFrame m m := ⟨rfl, rfl, rfl, rfl⟩

omit [Scalar F] in
/-- Frames are kept step by step. -/
theorem SameFrame.trans {m m' m'' : Network C F} (h : SameFrame m m') (h' : SameFrame m' m'') :
    SameFrame m m'' where
  config := h'.config.trans h.config
  version := h'.version.trans h.version
  weights := h'.weights.trans h.weights
  biases := h'.biases.trans h.biases

/-- An entry that is stepped changes no shape. -/
theorem shape_updateEntry {lr l2 : F} {delta input : List F} {j k : ℕ} {state state' : Array2 F × F}
    (h : updateEntry lr l2 delta input j state k = some state') :
    state'.1.shape = state.1.shape := by
  simp only [updateEntry, Option.bind_eq_bind, Option.bind_eq_some_iff] at h
  obtain ⟨d, -, x, -, v, -, h⟩ := h
  obtain rfl := Option.some_injective _ h
  rfl

/-- Nor does a row. -/
theorem shape_updateRow {lr l2 : F} {delta input : List F} {j : ℕ}
    {state state' : (Array2 F × Array1 F) × F}
    (h : updateRow lr l2 delta input state j = some state') :
    state'.1.1.shape = state.1.1.shape ∧ state'.1.2.length = state.1.2.length := by
  simp only [updateRow, Option.bind_eq_bind, Option.bind_eq_some_iff] at h
  obtain ⟨⟨w, norm⟩, hw, d, -, v, -, h⟩ := h
  obtain rfl := Option.some_injective _ h
  have hstep : ∀ (s : Array2 F × F) k s', s.1.shape = state.1.1.shape →
      updateEntry lr l2 delta input j s k = some s' → s'.1.shape = state.1.1.shape :=
    fun _ _ _ hs hk => (shape_updateEntry hk).trans hs
  exact ⟨invariant_of_exec _ hstep rfl hw, Array1.length_set _ _ _⟩

/-- Nor does a layer. -/
theorem shape_updateLayer {lr l2 : F} {delta input : List F} {w w' : Array2 F}
    {b b' : Array1 F} {norm norm' : F}
    (h : updateLayer lr l2 delta input w b norm = some ((w', b'), norm')) :
    w'.shape = w.shape ∧ b'.length = b.length := by
  have hstep : ∀ (s : (Array2 F × Array1 F) × F) j s',
      s.1.1.shape = w.shape ∧ s.1.2.length = b.length →
      updateRow lr l2 delta input s j = some s' →
      s'.1.1.shape = w.shape ∧ s'.1.2.length = b.length :=
    fun _ _ _ hs hj => ⟨(shape_updateRow hj).1.trans hs.1, (shape_updateRow hj).2.trans hs.2⟩
  exact invariant_of_exec _ hstep ⟨rfl, rfl⟩ h

/-- Writing what is there changes nothing. -/
theorem set_of_getElem? {α : Type*} {l : List α} {i : ℕ} {x : α} (h : l[i]? = some x) :
    l.set i x = l := by
  obtain ⟨hi, rfl⟩ := List.getElem?_eq_some_iff.mp h
  exact List.set_getElem_self hi

/-- What the update of one layer leaves. -/
theorem learnLayer_frame {activations : List (List F)} {i : ℕ} {s s' : Backward C F}
    (h : learnLayer design activations i s = some s') :
    SameFrame s.network s'.network ∧ s'.delta = s.delta := by
  simp only [learnLayer, Option.bind_eq_bind, Option.bind_eq_some_iff] at h
  obtain ⟨w, hw, b, hb, ⟨⟨w', b'⟩, norm⟩, hlayer, h⟩ := h
  obtain rfl := Option.some_injective _ h
  obtain ⟨hshape, hlength⟩ := shape_updateLayer hlayer
  refine ⟨⟨rfl, rfl, ?_, ?_⟩, rfl⟩
  · rw [List.map_set, hshape]
    exact set_of_getElem? (by rw [List.getElem?_map, hw, Option.map_some])
  · rw [List.map_set, hlength]
    exact set_of_getElem? (by rw [List.getElem?_map, hb, Option.map_some])

/-- A round of the backward loop keeps the frame. -/
theorem backLayer_frame {activations : List (List F)} {i : ℕ} {s s' : Backward C F}
    (h : backLayer design activations s i = some s') : SameFrame s.network s'.network := by
  simp only [backLayer, Option.bind_eq_bind, Option.bind_eq_some_iff] at h
  obtain ⟨wNext, -, newDelta, -, delta, -, h⟩ := h
  exact (learnLayer_frame design h).1

/-- So does the loop. -/
theorem backward_frame {m : Network C F} {activations : List (List F)} {probs : List F}
    {s : Backward C F} (h : m.backward design activations probs = some s) :
    SameFrame m s.network := by
  simp only [backward, Option.bind_eq_bind, Option.bind_eq_some_iff] at h
  obtain ⟨s₁, hs₁, h⟩ := h
  have hstep : ∀ (s : Backward C F) i s', SameFrame m s.network →
      backLayer design activations s i = some s' → SameFrame m s'.network :=
    fun _ _ _ hs hi => hs.trans (backLayer_frame design hi)
  exact invariant_of_exec _ hstep (learnLayer_frame design hs₁).1 h

/-- **Training changes entries only.** -/
theorem update_frame {m m' : Network C F} {experience : Experience F}
    {result : Except IgpuMlError (UpdateResult F)}
    (h : m.update design experience = some (m', result)) : SameFrame m m' := by
  unfold update at h
  split at h
  · obtain ⟨rfl, -⟩ := Prod.mk.inj (Option.some_injective _ h)
    exact .refl m
  · split_ifs at h
    · obtain ⟨rfl, -⟩ := Prod.mk.inj (Option.some_injective _ h)
      exact .refl m
    · simp only [Option.bind_eq_bind, Option.bind_eq_some_iff] at h
      obtain ⟨activations, -, logits, -, probs, -, s, hs, loss, -, h⟩ := h
      obtain ⟨rfl, -⟩ := Prod.mk.inj (Option.some_injective _ h)
      have hframe := backward_frame design hs
      exact ⟨hframe.config, hframe.version, hframe.weights, hframe.biases⟩

end Network

/-! ## The two models -/

/-- `DynamicTileTransformerConfig` -/
structure DynamicTileTransformerConfig (F : Type) where
  inputDim : UInt64
  hiddenDims : List UInt64
  outputDim : UInt64
  learningRate : F
  epsilon : F
  l2Lambda : F
  energyWeight : F
  performanceWeight : F
  fits : hiddenDims.length < 2 ^ 60

/-- `TelemetryOptimizerConfig` -/
structure TelemetryOptimizerConfig (F : Type) where
  inputDim : UInt64
  hiddenDims : List UInt64
  outputDim : UInt64
  learningRate : F
  epsilon : F
  l2Lambda : F
  energyWeight : F
  performanceWeight : F
  thermalPenalty : F
  fits : hiddenDims.length < 2 ^ 60

section designs

variable (F) [Scalar F]

/-- `DynamicTileTransformer`; the loss reads `delta[action_idx]`. -/
def dynamicTileTransformer : Design (DynamicTileTransformerConfig F) F where
  tag := "dynamic-tile-transformer-v1"
  inputDim := (·.inputDim)
  hiddenDims := (·.hiddenDims)
  outputDim := (·.outputDim)
  learningRate := (·.learningRate)
  l2Lambda := (·.l2Lambda)
  loss _ experience delta := do
    let d ← delta[experience.action.toNat]?
    return -experience.reward * Scalar.ln (Scalar.max d (Scalar.literal 1e-6))

/-- `TelemetryOptimizer` -/
def telemetryOptimizer : Design (TelemetryOptimizerConfig F) F where
  tag := "telemetry-optimizer-v1"
  inputDim := (·.inputDim)
  hiddenDims := (·.hiddenDims)
  outputDim := (·.outputDim)
  learningRate := (·.learningRate)
  l2Lambda := (·.l2Lambda)
  loss config experience _ :=
    let energyTerm := config.energyWeight * experience.energyJoules
    let thermalTerm := config.thermalPenalty * Scalar.literal (experience.thermalEvents.toNat : ℚ)
    let perfTerm := config.performanceWeight * experience.reward
    some (energyTerm + thermalTerm - perfTerm)

end designs

end Synapse.IgpuMl
