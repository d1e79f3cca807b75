import Synapse.IgpuMl.UsableModels

/-!
# Training steps

The models that come from `new` by training.  Their arrays fit together, with the widths that
the configuration says (`widthsOf_trained`), and so an update panics nowhere but at the loss:
after the loop `delta` is as wide as the first layer, while the loss of
`DynamicTileTransformer` looks for the action there (`training_step_returns_iff`).

### From the constructor on

`IgpuMl.UsableModels` starts from sizes that fit together.  Here the sizes come from a
configuration: the constructor makes them fit, each layer as wide as the one before is high,
and training changes no shape.  What is left is the loss, which looks into `delta` behind the
loop.  By then `delta` is that of the first layer, so its length is the first hidden
dimension, or the number of outputs where there is none (`firstWidth`), and neither has to do
with the number of actions.
-/

namespace Synapse.IgpuMl.Network

open Runs Numerals

variable {C F : Type} [Scalar F] (design : Design C F)

/-- A step of training, without the result. -/
def train (m : Network C F) (experience : Experience F) : Option (Network C F) :=
  (m.update design experience).map Prod.fst

/-! ## The widths -/

/-- How many numbers there are in front of each layer, and behind the last one. -/
def widths (prevDim : UInt64) (dims : List UInt64) (outputDim : UInt64) (i : ℕ) : ℕ :=
  ((prevDim :: (dims ++ [outputDim])).getD i 0).toNat

/-- The sizes behind the first layer are those of the remaining dimensions. -/
theorem widths_cons_succ (prevDim dim : UInt64) (dims : List UInt64) (outputDim : UInt64) (i : ℕ) :
    widths prevDim (dim :: dims) outputDim (i + 1) = widths dim dims outputDim i := rfl

/-- How wide the first layer is. -/
def firstWidth (config : C) : ℕ :=
  ((design.hiddenDims config).headD (design.outputDim config)).toNat

omit [Scalar F] in
/-- The height of the first layer. -/
theorem widths_one (config : C) : widths (design.inputDim config) (design.hiddenDims config)
    (design.outputDim config) 1 = firstWidth design config := by
  unfold widths firstWidth
  cases design.hiddenDims config <;> rfl

omit [Scalar F] in
/-- The last layer is as high as the output. -/
theorem widths_last (prevDim : UInt64) (dims : List UInt64) (outputDim : UInt64) :
    widths prevDim dims outputDim (dims.length + 1) = outputDim.toNat := by
  induction dims generalizing prevDim with
  | nil => rfl
  | cons dim dims ih =>
      rw [List.length_cons, widths_cons_succ]
      exact ih dim

/-- A layer has the dimensions that it is made for. -/
theorem shape_newLayer {rng : ℕ → F} {drawn drawn' : ℕ} {prevDim dim : UInt64} {w : Array2 F}
    {b : Array1 F} (h : newLayer rng drawn prevDim dim = some (w, b, drawn')) :
    w.shape = (dim.toNat, prevDim.toNat) ∧ b.length = dim.toNat := by
  simp only [newLayer, Option.bind_eq_bind, Option.bind_eq_some_iff] at h
  obtain ⟨w', hw, b', hb, h⟩ := h
  obtain ⟨rfl, hrest⟩ := Prod.mk.inj (Option.some_injective _ h)
  obtain ⟨rfl, -⟩ := Prod.mk.inj hrest
  unfold Array2.fromShapeFn at hw
  unfold Array1.zeros at hb
  split_ifs at hw hb
  obtain rfl := Option.some_injective _ hw
  obtain rfl := Option.some_injective _ hb
  exact ⟨rfl, List.length_replicate⟩

/-- The layers that `new` makes. -/
theorem shapes_newLayers {rng : ℕ → F} {outputDim : UInt64} {drawn : ℕ} {prevDim : UInt64}
    {dims : List UInt64} {ws : List (Array2 F)} {bs : List (Array1 F)}
    (h : newLayers rng outputDim drawn prevDim dims = some (ws, bs)) :
    ws.map Array2.shape = (List.range (dims.length + 1)).map (fun i =>
        (widths prevDim dims outputDim (i + 1), widths prevDim dims outputDim i)) ∧
      bs.map Array1.length = (List.range (dims.length + 1)).map fun i =>
        widths prevDim dims outputDim (i + 1) := by
  induction dims generalizing drawn prevDim ws bs with
  | nil =>
      simp only [newLayers, Option.bind_eq_bind, Option.bind_eq_some_iff] at h
      obtain ⟨⟨w, b, n⟩, hlayer, h⟩ := h
      obtain ⟨rfl, rfl⟩ := Prod.mk.inj (Option.some_injective _ h)
      obtain ⟨hw, hb⟩ := shape_newLayer hlayer
      exact ⟨congrArg (fun x => [x]) hw, congrArg (fun x => [x]) hb⟩
  | cons dim dims ih =>
      simp only [newLayers, Option.bind_eq_bind, Option.bind_eq_some_iff] at h
      obtain ⟨⟨w, b, n⟩, hlayer, ⟨ws', bs'⟩, hrest, h⟩ := h
      obtain ⟨rfl, rfl⟩ := Prod.mk.inj (Option.some_injective _ h)
      obtain ⟨hw, hb⟩ := shape_newLayer hlayer
      obtain ⟨hws, hbs⟩ := ih hrest
      rw [List.length_cons, List.range_succ_eq_map, List.map_cons, List.map_cons, List.map_map,
        List.map_cons, List.map_cons, List.map_map, hw, hb, hws, hbs]
      exact ⟨rfl, rfl⟩

variable {design} {random : Random F}

/-- The layers of a new model fit together. -/
theorem sized_new {config : C} {seed : UInt64} {m : Network C F}
    (h : new design random config seed = some m) :
    m.config = config ∧ m.Sized (design.hiddenDims config).length
      (widths (design.inputDim config) (design.hiddenDims config) (design.outputDim config)) := by
  simp only [new, Option.bind_eq_bind, Option.bind_eq_some_iff] at h
  obtain ⟨⟨ws, bs⟩, hlayers, h⟩ := h
  obtain rfl := Option.some_injective _ h
  obtain ⟨hws, hbs⟩ := shapes_newLayers hlayers
  exact ⟨rfl, hws, hbs⟩

/-- The widths and the configuration of the model that `new` makes. -/
def WidthsOf (design : Design C F) (config : C) (m : Network C F) : Prop :=
  m.config = config ∧ m.Sized (design.hiddenDims config).length
    (widths (design.inputDim config) (design.hiddenDims config) (design.outputDim config))

/-- **Training keeps the widths.** -/
theorem widthsOf_trained {config : C} {seed : UInt64} {m m' : Network C F}
    {experiences : List (Experience F)} (hnew : new design random config seed = some m)
    (htrained : exec (train design) m experiences = some m') : WidthsOf design config m' := by
  have hstep : ∀ s experience s', WidthsOf design config s →
      train design s experience = some s' → WidthsOf design config s' := by
    rintro s experience s' ⟨hconfig, hsized⟩ hs'
    obtain ⟨⟨s'', result⟩, hupdate, rfl⟩ := Option.map_eq_some_iff.mp hs'
    have hframe := update_frame design hupdate
    exact ⟨hframe.config.trans hconfig, hsized.of_frame hframe⟩
  exact invariant_of_exec (train design) hstep (sized_new hnew) htrained

/-! ## The loss -/

/-- The loss is computed for an action that it does not look for, or that it finds. -/
theorem LossNeeds.loss_ne_none_iff {k : ℕ} (h : LossNeeds design k) (config : C)
    {experience : Experience F} {delta : List F} (haction : experience.action.toNat < 3) :
    design.loss config experience delta ≠ none ↔
      (experience.action.toNat < k → experience.action.toNat < delta.length) := by
  cases h with
  | dynamicTileTransformer =>
      have hloss : (IgpuMl.dynamicTileTransformer F).loss config experience delta =
          delta[experience.action.toNat]?.map fun d =>
            -experience.reward * Scalar.ln (Scalar.max d (Scalar.literal 1e-6)) := by
        cases hd : delta[experience.action.toNat]? <;> simp [IgpuMl.dynamicTileTransformer, hd]
      rw [hloss, Ne, Option.map_eq_none_iff, List.getElem?_eq_none_iff, Nat.not_le]
      exact ⟨fun hlt _ => hlt, fun hlt => hlt haction⟩
  | telemetryOptimizer =>
      exact iff_of_true (Option.some_ne_none _) fun hlt => absurd hlt (Nat.not_lt_zero _)

/-- An update of a model whose arrays fit together. -/
theorem Sized.update_returns_iff {m : Network C F} {n : ℕ} {size : ℕ → ℕ} (h : m.Sized n size)
    (hfirst : size 0 = 8) (hlast : size (n + 1) = 3) {k : ℕ} (hneeds : LossNeeds design k)
    (hk : k ≤ 3) (experience : Experience F) :
    m.update design experience ≠ none ↔
      (experience.features.validate = .ok () → experience.action.toNat < k →
        experience.action.toNat < size 1) := by
  cases hvalid : experience.features.validate with
  | error e =>
      have hreturns : m.update design experience ≠ none := by
        unfold update
        rw [hvalid]
        exact Option.some_ne_none _
      exact iff_of_true hreturns fun hok => by cases hok
  | ok =>
      by_cases haction : experience.action.toNat < 3
      · obtain ⟨s, hdelta, heq⟩ := h.update_eq design hfirst hlast hvalid haction
        rw [heq, Ne, Option.map_eq_none_iff, ← hdelta, forall_prop_of_true rfl]
        exact hneeds.loss_ne_none_iff m.config haction
      · have hreturns : m.update design experience ≠ none := by
          unfold update
          rw [hvalid]
          dsimp only
          rw [if_pos (Nat.not_lt.mp haction)]
          exact Option.some_ne_none _
        exact iff_of_true hreturns fun _ hlt => absurd (hlt.trans_le hk) haction

/-- It looks for no more than three actions. -/
theorem LossNeeds.le_three {k : ℕ} (h : LossNeeds design k) : k ≤ 3 := by
  cases h with
  | dynamicTileTransformer => exact le_rfl
  | telemetryOptimizer => exact Nat.zero_le 3

/-- **A training step returns** exactly if the loss finds the action in the first layer. -/
theorem training_step_returns_iff {k : ℕ} (hneeds : LossNeeds design k) {config : C}
    (hinput : design.inputDim config = 8) (houtput : design.outputDim config = 3)
    {seed : UInt64} {m m' : Network C F} {experiences : List (Experience F)}
    (hnew : new design random config seed = some m)
    (htrained : exec (train design) m experiences = some m') (experience : Experience F) :
    m'.update design experience ≠ none ↔
      (experience.features.validate = .ok () → experience.action.toNat < k →
        experience.action.toNat < firstWidth design config) := by
  obtain ⟨-, hsized⟩ := widthsOf_trained hnew htrained
  have hfirst : widths (design.inputDim config) (design.hiddenDims config)
      (design.outputDim config) 0 = 8 := congrArg UInt64.toNat hinput
  have hlast := (widths_last (design.inputDim config) (design.hiddenDims config)
    (design.outputDim config)).trans (congrArg UInt64.toNat houtput)
  rw [← widths_one]
  exact hsized.update_returns_iff hfirst hlast hneeds hneeds.le_three experience

/-- One hidden dimension. -/
theorem length_narrow : [(1 : UInt64)].length < 2 ^ 60 := by decide

/-- One hidden layer of width 1. -/
def narrowConfig : DynamicTileTransformerConfig F32 where
  inputDim := 8
  hiddenDims := [1]
  outputDim := 3
  learningRate := ⟨0x3a83126f⟩
  epsilon := ⟨0x3d4ccccd⟩
  l2Lambda := ⟨0x38d1b717⟩
  energyWeight := ⟨0x3e99999a⟩
  performanceWeight := ⟨0x3f333333⟩
  fits := length_narrow

/-- A model with one hidden unit can be made. -/
theorem exists_new_narrow : ∃ m : Network (DynamicTileTransformerConfig F32) F32,
    new (dynamicTileTransformer F32) (fun _ _ => .zero) narrowConfig 42 = some m := ⟨_, rfl⟩

/-- The first action is, also after a step. -/
theorem first_action_of_narrow_model :
    ∃ m m' : Network (DynamicTileTransformerConfig F32) F32,
      new (dynamicTileTransformer F32) (fun _ _ => .zero) narrowConfig 42 = some m ∧
        exec (train (dynamicTileTransformer F32)) m [zeroExperience 0] = some m' ∧
        m'.update (dynamicTileTransformer F32) (zeroExperience 0) ≠ none := by
  obtain ⟨m, hm⟩ := exists_new_narrow
  have hreturns : ∀ {experiences : List (Experience F32)} {m'},
      exec (train (dynamicTileTransformer F32)) m experiences = some m' →
        m'.update (dynamicTileTransformer F32) (zeroExperience 0) ≠ none :=
    fun htrained => (training_step_returns_iff .dynamicTileTransformer rfl rfl hm htrained _).mpr
      fun _ _ => Nat.zero_lt_one
  have huntrained : exec (train (dynamicTileTransformer F32)) m [] = some m := rfl
  obtain ⟨⟨m', result⟩, hupdate⟩ := Option.ne_none_iff_exists'.mp (hreturns huntrained)
  have htrained : exec (train (dynamicTileTransformer F32)) m [zeroExperience 0] = some m' := by
    rw [exec, train, hupdate]
    rfl
  exact ⟨m, m', hm, htrained, hreturns htrained⟩

/-- The last action is not in the first layer. -/
theorem last_action_of_narrow_model_panics :
    ¬ ∀ m : Network (DynamicTileTransformerConfig F32) F32,
      new (dynamicTileTransformer F32) (fun _ _ => .zero) narrowConfig 42 = some m →
        m.update (dynamicTileTransformer F32) (zeroExperience 2) ≠ none := by
  intro h
  obtain ⟨m, hm⟩ := exists_new_narrow
  obtain ⟨-, hsized⟩ := sized_new hm
  have hreturns := (hsized.update_returns_iff rfl rfl .dynamicTileTransformer le_rfl
    (zeroExperience 2)).mp (h m hm)
  exact absurd (hreturns FeatureVector.validate_zero (Nat.lt_succ_self 2)) (by decide)

end Synapse.IgpuMl.Network
