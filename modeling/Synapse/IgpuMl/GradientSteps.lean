import Synapse.Foundations.Backpropagation
import Synapse.IgpuMl.LayerSteps

/-!
# Gradient steps

What `update` makes of the weights and biases, in exact arithmetic and with any vector in the
place of the softmax.

The loops update one layer after the other from the last one on, and take `delta` back through
the layer that they have just updated: they run the step in place (`backTo_backpropagate`).

### Which step the code takes

`Foundations.Backpropagation` knows two steps for a stack of layers: the one of the gradient,
in which every error is computed from the old weights, and the one in place, in which the
errors are pulled back through a layer that has already been changed.  The loops of `update`
are written in the second way in both crates, so `backTo_backpropagate` relates them to the
second, and when the two agree is a question about the numbers alone (`DriftFree`).

The softmax is a parameter of the proofs, since it is not a rational function; everything is
exact in the reals otherwise, and only the output error `p - 1` at the chosen action depends
on it.
-/

namespace Synapse.IgpuMl

open Runs Backpropagation

/-- An entry with a default, where it exists. -/
theorem getD_of_getElem? {l : List ℝ} {j : ℕ} {x : ℝ} (h : l[j]? = some x) : l.getD j 0 = x := by
  rw [List.getD_eq_getElem?_getD, h, Option.getD_some]

namespace Network

section backpropagate

variable {C F : Type} [Scalar F] (design : Design C F)

/-- `update` up to the loss, with a function in the place of the softmax. -/
def backpropagate (softmax : List F → List F) (m : Network C F) (experience : Experience F) :
    Option (Backward C F) := do
  let activations ← m.activations experience.features
  let logits ← m.logits activations
  let probs ← chosenMinusOne (softmax logits) experience.action.toNat
  m.backward design activations probs

/-- What `update` returns after that. -/
def finish (m : Network C F) (experience : Experience F) (s : Backward C F) :
    Option (Network C F × Except IgpuMlError (UpdateResult F)) := do
  let loss ← design.loss m.config experience s.delta
  return ({ s.network with trainingSteps := s.network.trainingSteps + 1 },
    .ok ⟨loss, Scalar.sqrt s.totalNorm, design.learningRate m.config⟩)

/-- `update` with a function in the place of the softmax. -/
def updateWith (softmax : List F → List F) (m : Network C F) (experience : Experience F) :
    Option (Network C F × Except IgpuMlError (UpdateResult F)) :=
  match experience.features.validate with
  | .error _ => some (m, .ok .default)
  | .ok () =>
      if experience.action.toNat ≥ 3 then some (m, .ok .default)
      else (m.backpropagate design softmax experience).bind (m.finish design experience)

/-- The function of the crate is the one with its own softmax. -/
theorem updateWith_softmax (m : Network C F) (experience : Experience F) :
    m.updateWith design softmax experience = m.update design experience := by
  unfold updateWith update backpropagate
  cases experience.features.validate with
  | error e => rfl
  | ok =>
      refine if_congr Iff.rfl rfl ?_
      simp only [Option.bind_eq_bind, Option.bind_assoc]
      rfl

/-- With valid features and a known action `update` is the backward pass and then the
bookkeeping. -/
theorem updateWith_eq (softmax : List F → List F) (m : Network C F) {experience : Experience F}
    (hfeatures : experience.features.validate = .ok ()) (haction : experience.action.toNat < 3) :
    m.updateWith design softmax experience =
      (m.backpropagate design softmax experience).bind (m.finish design experience) := by
  unfold updateWith
  rw [hfeatures]
  exact if_neg (Nat.not_le.mpr haction)

/-- So where the backward pass returns, what is left is the bookkeeping. -/
theorem updateWith_of_backpropagate {softmax : List F → List F} {m : Network C F}
    {experience : Experience F} (hfeatures : experience.features.validate = .ok ())
    (haction : experience.action.toNat < 3) {s : Backward C F}
    (hs : m.backpropagate design softmax experience = some s) :
    m.updateWith design softmax experience = m.finish design experience s := by
  rw [updateWith_eq design _ m hfeatures haction, hs]
  rfl

end backpropagate

variable {C : Type} (design : Design C ℝ)

/-- The numbers of a model, in front of which the activations stand. -/
def numbers (m : Network C ℝ) (activations : List (List ℝ)) (n : ℕ) (size : ℕ → ℕ) : Layers ℝ where
  last := n
  size := size
  weight i j k := (m.weights[i]?.bind (·.get? j k)).getD 0
  bias i j := (m.biases[i]?.bind (·.data[j]?)).getD 0
  input i j := (activations[i]?.getD []).getD j 0

/-! ## The loops -/

/-- `new_delta` before it is masked. -/
theorem getD_pullBack {wNext : Array2 ℝ} {delta newDelta : List ℝ}
    (h : pullBack wNext delta = some newDelta) {j : ℕ} (hj : j < wNext.cols) :
    newDelta.getD j 0 =
      ∑ k ∈ Finset.range delta.length, (wNext.get? k j).getD 0 * delta.getD k 0 := by
  have hentry := getElem?_of_mapM h j
  rw [List.getElem?_range hj, Option.bind_some] at hentry
  have hlength := length_of_mapM h
  rw [List.length_range] at hlength
  obtain ⟨sum, hsum⟩ := exists_getElem? (hlength ▸ hj)
  rw [hsum] at hentry
  have hstep : ∀ k (sum sum' : ℝ), k < delta.length →
      sum = ∑ k ∈ Finset.range k, (wNext.get? k j).getD 0 * delta.getD k 0 →
      (do
        let v ← wNext.get? k j
        let d ← delta[k]?
        return sum + v * d) = some sum' →
      sum' = ∑ k ∈ Finset.range (k + 1), (wNext.get? k j).getD 0 * delta.getD k 0 := by
    intro k sum sum' _ hs hs'
    simp only [Option.bind_eq_bind, Option.bind_eq_some_iff] at hs'
    obtain ⟨v, hv, d, hd, hsum'⟩ := hs'
    obtain rfl := Option.some_injective _ hsum'
    rw [Finset.sum_range_succ, ← hs, hv, Option.getD_some, getD_of_getElem? hd]
  rw [getD_of_getElem? hsum]
  exact invariant_of_exec_range hstep (Finset.sum_range_zero _).symm hentry.symm

/-- The errors behind a layer, one by one: they are kept where the activation is positive. -/
theorem getD_mask {act newDelta delta : List ℝ} (h : mask act newDelta = some delta) {j : ℕ}
    (hj : j < newDelta.length) :
    delta.getD j 0 = if 0 < act.getD j 0 then newDelta.getD j 0 else 0 := by
  have hentry := getElem?_of_mapM h j
  have hlength := length_of_mapM h
  rw [List.length_zipIdx] at hlength
  obtain ⟨d, hd⟩ := exists_getElem? hj
  obtain ⟨d', hd'⟩ := exists_getElem? (hlength.symm ▸ hj)
  rw [hd', List.getElem?_zipIdx, hd, Option.map_some, Option.bind_some, zero_add] at hentry
  obtain ⟨a, ha, hmasked⟩ := Option.bind_eq_some_iff.mp hentry.symm
  obtain rfl := Option.some_injective _ hmasked
  rw [getD_of_getElem? hd', getD_of_getElem? hd, getD_of_getElem? ha]
  have hone : (Scalar.literal 1 : ℝ) = 1 := Rat.cast_one
  split
  · rw [hone]
    exact mul_one d
  · exact mul_zero d

/-! ## The layers -/

variable {design} {m : Network C ℝ} {n : ℕ} {size : ℕ → ℕ} {activations : List (List ℝ)}

/-- A weight of the model is the number of its place. -/
theorem numbers_weight {i : ℕ} {w : Array2 ℝ} {v : ℝ} {j k : ℕ} (hw : m.weights[i]? = some w)
    (hv : w.get? j k = some v) : (m.numbers activations n size).weight i j k = v := by
  show (m.weights[i]?.bind (·.get? j k)).getD 0 = v
  rw [hw, Option.bind_some, hv, Option.getD_some]

/-- And so is a bias. -/
theorem numbers_bias {i : ℕ} {b : Array1 ℝ} {v : ℝ} {j : ℕ} (hb : m.biases[i]? = some b)
    (hv : b.data[j]? = some v) : (m.numbers activations n size).bias i j = v := by
  show (m.biases[i]?.bind (·.data[j]?)).getD 0 = v
  rw [hb, Option.bind_some, hv, Option.getD_some]

/-- The numbers of a layer depend on that layer only. -/
theorem numbers_congr {m' : Network C ℝ} {l : ℕ} (hweights : m.weights[l]? = m'.weights[l]?)
    (hbiases : m.biases[l]? = m'.biases[l]?) :
    (m.numbers activations n size).weight l = (m'.numbers activations n size).weight l ∧
      (m.numbers activations n size).bias l = (m'.numbers activations n size).bias l := by
  constructor
  · funext j k
    show (m.weights[l]?.bind (·.get? j k)).getD 0 = (m'.weights[l]?.bind (·.get? j k)).getD 0
    rw [hweights]
  · funext j
    show (m.biases[l]?.bind (·.data[j]?)).getD 0 = (m'.biases[l]?.bind (·.data[j]?)).getD 0
    rw [hbiases]

/-- The update of layer `i` leaves the other layers. -/
theorem learnLayer_other {i l : ℕ} (hl : l ≠ i) {s s' : Backward C ℝ}
    (h : learnLayer design activations i s = some s') :
    s'.network.weights[l]? = s.network.weights[l]? ∧
      s'.network.biases[l]? = s.network.biases[l]? := by
  simp only [learnLayer, Option.bind_eq_bind, Option.bind_eq_some_iff] at h
  obtain ⟨w, -, b, -, ⟨⟨w', b'⟩, norm⟩, -, h⟩ := h
  obtain rfl := Option.some_injective _ h
  exact ⟨List.getElem?_set_ne hl.symm, List.getElem?_set_ne hl.symm⟩

/-- **The update of layer `i`** is a step with `delta`. -/
theorem learnLayer_numbers (hactivations : ActivationsSized activations n size) {i : ℕ}
    (hi : i ≤ n) {s s' : Backward C ℝ} (hs : s.network.Sized n size)
    (hdelta : s.delta.length = size (i + 1))
    (h : learnLayer design activations i s = some s') :
    (s.network.numbers activations n size).IsLayerStep (design.learningRate s.network.config)
        (design.l2Lambda s.network.config) i (s.delta.getD · 0)
        (s'.network.numbers activations n size) := by
  simp only [learnLayer, Option.bind_eq_bind, Option.bind_eq_some_iff] at h
  obtain ⟨w, hw, b, hb, ⟨⟨w', b'⟩, norm⟩, hlayer, h⟩ := h
  obtain rfl := Option.some_injective _ h
  obtain ⟨w₁, hw₁, hrows, hcols⟩ := hs.weight hi
  obtain rfl := Option.some_injective _ (hw.symm.trans hw₁)
  obtain ⟨b₁, hb₁, hblength⟩ := hs.bias hi
  obtain rfl := Option.some_injective _ (hb.symm.trans hb₁)
  obtain ⟨x, hx, hxlength⟩ := hactivations.activation hi
  rw [hx, Option.getD_some] at hlayer
  have hup := layerUpTo_updateLayer hlayer
  have hnew : (s.network.weights.set i w')[i]? = some w' :=
    List.getElem?_set_self (List.getElem?_eq_some_iff.mp hw).1
  have hnewBias : (s.network.biases.set i b')[i]? = some b' :=
    List.getElem?_set_self (List.getElem?_eq_some_iff.mp hb).1
  intro j (hj : j < size (i + 1))
  obtain ⟨d, hd⟩ := exists_getElem? (hdelta.symm ▸ hj)
  obtain ⟨c, hc⟩ := exists_getElem? (l := b.data) (hj.trans_eq hblength.symm)
  refine ⟨fun k (hk : k < size i) => ?_, ?_⟩
  · obtain ⟨v, hv⟩ := w.exists_get? (hj.trans_eq hrows.symm) (hk.trans_eq hcols.symm)
    obtain ⟨y, hy⟩ := exists_getElem? (hxlength.symm ▸ hk)
    have hinput : (s.network.numbers activations n size).input i k = y := by
      show (activations[i]?.getD []).getD k 0 = y
      rw [hx, Option.getD_some, getD_of_getElem? hy]
    have hentry := hup.weights j k
    rw [if_pos (hj.trans_eq hrows.symm), stepWeight, hd, hy, hv] at hentry
    rw [numbers_weight hnew hentry, Layers.newWeight, numbers_weight hw hv, hinput,
      getD_of_getElem? hd]
  · have hentry := hup.biases j
    rw [if_pos (hj.trans_eq hrows.symm), stepBias, hd, hc] at hentry
    rw [numbers_bias hnewBias hentry, Layers.newBias, numbers_bias hb hc, getD_of_getElem? hd]

/-- The errors of the step in place. -/
noncomputable def inPlaceErrors (design : Design C ℝ) (m : Network C ℝ)
    (activations : List (List ℝ)) (n : ℕ) (size : ℕ → ℕ) (top : ℕ → ℝ) : ℕ → ℕ → ℝ :=
  (m.numbers activations n size).inPlaceErrors (design.learningRate m.config)
    (design.l2Lambda m.config) top

/-- A layer that has become part of a step, in place. -/
def Learned (design : Design C ℝ) (m : Network C ℝ) (activations : List (List ℝ)) (n : ℕ)
    (size : ℕ → ℕ) (top : ℕ → ℝ) (l : ℕ) (m' : Network C ℝ) : Prop :=
  (m.numbers activations n size).IsLayerStep (design.learningRate m.config)
    (design.l2Lambda m.config) l (m.inPlaceErrors design activations n size top l)
    (m'.numbers activations n size)

/-- The layers from `k` on have been updated, and `delta` is the error of layer `i`. -/
structure BackTo (design : Design C ℝ) (m : Network C ℝ) (activations : List (List ℝ)) (n : ℕ)
    (size : ℕ → ℕ) (top : ℕ → ℝ) (k i : ℕ) (s : Backward C ℝ) : Prop where
  frame : SameFrame m s.network
  length_delta : s.delta.length = size (i + 1)
  delta : ∀ j < size (i + 1),
    s.delta.getD j 0 = m.inPlaceErrors design activations n size top i j
  new : ∀ l, k ≤ l → l ≤ n → Learned design m activations n size top l s.network
  old : ∀ l < k, s.network.weights[l]? = m.weights[l]? ∧ s.network.biases[l]? = m.biases[l]?

namespace BackTo

variable {top : ℕ → ℝ} {i : ℕ} {s s' : Backward C ℝ}

/-- The update of layer `i`. -/
theorem learnLayer (h : BackTo design m activations n size top (i + 1) i s)
    (hm : m.Sized n size) (hactivations : ActivationsSized activations n size) (hi : i ≤ n)
    (hs' : learnLayer design activations i s = some s') :
    BackTo design m activations n size top i i s' := by
  obtain ⟨hframe, hdelta⟩ := learnLayer_frame design hs'
  have hstep := learnLayer_numbers hactivations hi (hm.of_frame h.frame) h.length_delta hs'
  obtain ⟨hweights, hbiases⟩ := h.old i (Nat.lt_succ_self i)
  refine ⟨h.frame.trans hframe, ?_, ?_, fun l hl hln => ?_, fun l hl => ?_⟩
  · rw [hdelta]
    exact h.length_delta
  · rw [hdelta]
    exact h.delta
  · rcases hl.eq_or_lt with rfl | hlt
    · rw [h.frame.config] at hstep
      obtain ⟨hw, hb⟩ := numbers_congr hweights hbiases
      exact (hstep.congr h.delta).of_eq rfl rfl hw hb rfl rfl
    · obtain ⟨hw, hb⟩ := learnLayer_other hlt.ne' hs'
      obtain ⟨hw', hb'⟩ := numbers_congr hw.symm hb.symm
      exact (h.new l hlt hln).of_eq rfl rfl rfl rfl hw' hb'
  · obtain ⟨hw, hb⟩ := learnLayer_other hl.ne hs'
    obtain ⟨hw', hb'⟩ := h.old l (Nat.lt_succ_of_lt hl)
    exact ⟨hw.trans hw', hb.trans hb'⟩

/-- Back through layer `i + 1`, which has been updated already. -/
theorem pull (h : BackTo design m activations n size top (i + 1) (i + 1) s)
    (hm : m.Sized n size) (hi : i < n) {wNext : Array2 ℝ} {newDelta delta : List ℝ}
    (hwNext : s.network.weights[i + 1]? = some wNext)
    (hpull : pullBack wNext s.delta = some newDelta)
    (hmask : mask (activations[i + 1]?.getD []) newDelta = some delta) :
    BackTo design m activations n size top (i + 1) i { s with delta := delta } := by
  obtain ⟨w, hw, hrows, hcols⟩ := (hm.of_frame h.frame).weight (Nat.succ_le_of_lt hi)
  obtain rfl := Option.some_injective _ (hwNext.symm.trans hw)
  have hlength : newDelta.length = size (i + 1) := by
    rw [length_of_mapM hpull, List.length_range, hcols]
  have hlength' : delta.length = size (i + 1) := by
    rw [length_of_mapM hmask, List.length_zipIdx, hlength]
  refine ⟨h.frame, hlength', fun j hj => ?_, h.new, h.old⟩
  have hlast : i < (m.numbers activations n size).last := hi
  rw [getD_mask hmask (hlength.symm ▸ hj), getD_pullBack hpull (hcols.symm ▸ hj), h.length_delta,
    inPlaceErrors, Layers.inPlaceErrors, Layers.errors_of_lt hlast]
  have hsum : ∑ k ∈ Finset.range (size (i + 2)), (wNext.get? k j).getD 0 * s.delta.getD k 0 =
      (m.numbers activations n size).pull i
        ((m.numbers activations n size).newWeight (design.learningRate m.config)
          (design.l2Lambda m.config) (i + 1)
          (m.inPlaceErrors design activations n size top (i + 1)))
        (m.inPlaceErrors design activations n size top (i + 1)) j := by
    refine Finset.sum_congr rfl fun k hk => ?_
    have hk : k < size (i + 2) := Finset.mem_range.mp hk
    obtain ⟨v, hv⟩ := wNext.exists_get? (hk.trans_eq hrows.symm) (hj.trans_eq hcols.symm)
    rw [h.delta k hk, ← (h.new (i + 1) le_rfl hi k hk).1 j hj, numbers_weight hwNext hv, hv,
      Option.getD_some]
  rw [hsum]
  rfl

end BackTo

/-- **The loops run the step in place.** -/
theorem backTo_backward {top : ℕ → ℝ} {probs : List ℝ} {s : Backward C ℝ} (hm : m.Sized n size)
    (hactivations : ActivationsSized activations n size) (hprobs : probs.length = size (n + 1))
    (htop : ∀ j < size (n + 1), probs.getD j 0 = top j)
    (h : m.backward design activations probs = some s) :
    BackTo design m activations n size top 0 0 s := by
  simp only [backward, hm.length_weights, Nat.add_sub_cancel, Option.bind_eq_bind,
    Option.bind_eq_some_iff] at h
  obtain ⟨s₁, hs₁, hrest⟩ := h
  have hlast : m.inPlaceErrors design activations n size top n = top := Layers.errors_last
  have hbefore : BackTo design m activations n size top (n + 1) n ⟨m, probs, 0⟩ := by
    refine ⟨.refl m, hprobs, ?_, ?_, fun _ _ => ⟨rfl, rfl⟩⟩
    · rw [hlast]
      exact htop
    · intro l hl hln
      exact absurd hl (Nat.not_le.mpr (Nat.lt_succ_of_le hln))
  have hfirst := hbefore.learnLayer hm hactivations le_rfl hs₁
  have hstep : ∀ i (s s' : Backward C ℝ), i < n →
      BackTo design m activations n size top (i + 1) (i + 1) s →
      backLayer design activations s i = some s' →
      BackTo design m activations n size top i i s' := by
    intro i s s' hi hs hs'
    simp only [backLayer, Option.bind_eq_bind, Option.bind_eq_some_iff] at hs'
    obtain ⟨wNext, hwNext, newDelta, hpull, delta, hmask, hlearn⟩ := hs'
    exact (hs.pull hm hi hwNext hpull hmask).learnLayer hm hactivations hi.le hlearn
  have hloop := @invariant_of_exec_reverse_range _ _
    (fun i s => BackTo design m activations n size top i i s) n hstep s₁ s hfirst hrest
  exact hloop

/-! ## The step -/

/-- `p - e_a` -/
def outputError (p : List ℝ) (action j : ℕ) : ℝ := p.getD j 0 - if j = action then 1 else 0

/-- The error at the output is the probability, less one for the chosen action. -/
theorem chosenMinusOne_eq_some {p : List ℝ} {action : ℕ} (haction : action < p.length) :
    ∃ probs, chosenMinusOne p action = some probs ∧ probs.length = p.length ∧
      ∀ j < p.length, probs.getD j 0 = outputError p action j := by
  obtain ⟨x, hx⟩ := exists_getElem? haction
  refine ⟨p.set action (x - Scalar.literal 1), ?_, List.length_set, fun j hj => ?_⟩
  · rw [chosenMinusOne, hx]
    rfl
  · have hone : (Scalar.literal 1 : ℝ) = 1 := Rat.cast_one
    rw [List.getD_eq_getElem?_getD, List.getElem?_set, outputError, List.getD_eq_getElem?_getD]
    by_cases h : j = action
    · subst h
      rw [if_pos rfl, if_pos hj, if_pos rfl, hx, hone]
      rfl
    · rw [if_neg (Ne.symm h), if_neg h, sub_zero]

/-- **`update` runs the step in place**, whatever the softmax gives. -/
theorem backTo_backpropagate (design : Design C ℝ) (hm : m.Sized n size) (hfirst : size 0 = 8)
    (hlast : size (n + 1) = 3) (experience : Experience ℝ)
    (haction : experience.action.toNat < 3) {p : List ℝ} (hp : p.length = 3) :
    ∃ activations s, m.activations experience.features = some activations ∧
      m.backpropagate design (fun _ => p) experience = some s ∧
      BackTo design m activations n size (outputError p experience.action.toNat) 0 0 s := by
  obtain ⟨activations, hactivations, hsized⟩ := hm.activations_eq_some hfirst experience.features
  obtain ⟨logits, hlogits, -⟩ := hm.logits_eq_some hsized
  obtain ⟨probs, hprobs, hlength, htop⟩ := chosenMinusOne_eq_some (hp ▸ haction)
  rw [hp, ← hlast] at hlength htop
  obtain ⟨s, hs, -⟩ := hm.backward_eq_some design hsized hlength
  refine ⟨activations, s, hactivations, ?_, backTo_backward hm hsized hlength htop hs⟩
  rw [backpropagate, hactivations, Option.bind_eq_bind, Option.bind_some, hlogits,
    Option.bind_eq_bind, Option.bind_some, hprobs]
  exact hs

/-- Every layer has taken its part. -/
theorem BackTo.isStep {top : ℕ → ℝ} {s : Backward C ℝ}
    (h : BackTo design m activations n size top 0 0 s) :
    (m.numbers activations n size).IsStep (design.learningRate m.config) (design.l2Lambda m.config)
      (m.inPlaceErrors design activations n size top) (s.network.numbers activations n size) := by
  intro l hl
  exact h.new l (Nat.zero_le l) hl

/-! ## A model with one hidden unit -/

/-- All weights are zero, and the unit is active. -/
noncomputable def oneUnitModel : Network (DynamicTileTransformerConfig ℝ) ℝ where
  config := ⟨8, [1], 3, 1 / 1000, 5 / 100, 1 / 10000, 3 / 10, 7 / 10, by decide⟩
  weights :=
    [⟨1, 8, List.replicate 8 0, rfl, by decide⟩, ⟨3, 1, List.replicate 3 0, rfl, by decide⟩]
  biases := [⟨[1], by decide⟩, ⟨List.replicate 3 0, by decide⟩]
  version := "1.0.0"
  trainingSteps := 0

/-- The sizes of its layers. -/
def oneUnitSize : ℕ → ℕ
  | 0 => 8
  | 1 => 1
  | _ => 3

/-- A model with one hidden unit. -/
theorem sized_oneUnitModel : oneUnitModel.Sized 1 oneUnitSize := ⟨rfl, rfl⟩

/-- What its layers give on features that are all zero. -/
theorem activations_oneUnitModel :
    oneUnitModel.activations .zero = some [List.replicate 8 0, [1]] := by
  have hdot : Scalar.dot (List.replicate 8 (0 : ℝ)) (List.replicate 8 0) = 0 := by
    show (List.zipWith (· * ·) (List.replicate 8 (0 : ℝ)) (List.replicate 8 0)).sum = 0
    simp
  have haffine : affine ⟨1, 8, List.replicate 8 0, rfl, by decide⟩ ⟨[1], by decide⟩
      (FeatureVector.zero : FeatureVector ℝ).toArray = some [1] := by
    show some [Scalar.dot (List.replicate 8 (0 : ℝ)) (List.replicate 8 0) + 1] = some [1]
    rw [hdot, zero_add]
  have hmax : Scalar.max (1 : ℝ) 0 = 1 := max_eq_left zero_le_one
  have hhidden : oneUnitModel.hidden =
      [(⟨1, 8, List.replicate 8 0, rfl, by decide⟩, ⟨[1], by decide⟩)] := rfl
  rw [activations, hhidden, activationsFrom, haffine, Option.bind_eq_bind, Option.bind_some,
    List.map_cons, hmax]
  rfl

/-- The numbers of that model and its activations for zero features. -/
noncomputable def oneUnitNumbers : Layers ℝ :=
  oneUnitModel.numbers [List.replicate 8 0, [1]] 1 oneUnitSize

/-- A third for each backend. -/
noncomputable def thirds : List ℝ := List.replicate 3 (1 / 3)

/-- Its weights differ behind the step, and the error of its hidden unit with them. -/
theorem not_driftFree_oneUnit (l2 : ℝ) : ¬ oneUnitNumbers.DriftFree l2 (outputError thirds 0) := by
  intro h
  have hlast : oneUnitNumbers.gradientErrors (outputError thirds 0) 1 = outputError thirds 0 :=
    Layers.errors_last
  have hinput : oneUnitNumbers.input 1 0 = 1 := rfl
  have hpull : oneUnitNumbers.pull 0 (oneUnitNumbers.weight 1) (outputError thirds 0) 0 = 0 := by
    refine Finset.sum_eq_zero fun k hk => ?_
    have hzero : oneUnitNumbers.weight 1 k 0 = 0 := by
      have hk : k < 3 := Finset.mem_range.mp hk
      interval_cases k <;> rfl
    rw [hzero, zero_mul]
  have hdrift := h 0 Nat.one_pos 0 Nat.one_pos (hinput ▸ one_pos)
  rw [hlast, Layers.drift, hpull, hinput, mul_zero, add_zero, one_mul] at hdrift
  have hsum : ∑ k ∈ Finset.range 3, outputError thirds 0 k ^ 2 = 2 / 3 := by
    simp [Finset.sum_range_succ, outputError, thirds]
    norm_num
  exact absurd (hsum.symm.trans hdrift) (by norm_num)

/-- **The gradient of the forward pass** is what `update` goes along exactly if it does not move
at all, or no update of a layer changes the error of an active unit in front of it. -/
theorem gradient_of_forward_pass_iff (design : Design C ℝ) (hm : m.Sized n size)
    (hfirst : size 0 = 8) (hlast : size (n + 1) = 3) {experience : Experience ℝ}
    (hfeatures : experience.features.validate = .ok ())
    (haction : experience.action.toNat < 3) {p : List ℝ} (hp : p.length = 3) :
    ∃ activations s, m.activations experience.features = some activations ∧
      m.backpropagate design (fun _ => p) experience = some s ∧
      m.updateWith design (fun _ => p) experience = m.finish design experience s ∧
      ((m.numbers activations n size).IsStep (design.learningRate m.config)
          (design.l2Lambda m.config)
          ((m.numbers activations n size).gradientErrors
            (outputError p experience.action.toNat))
          (s.network.numbers activations n size) ↔
        design.learningRate m.config = 0 ∨ (m.numbers activations n size).DriftFree
          (design.l2Lambda m.config) (outputError p experience.action.toNat)) := by
  obtain ⟨activations, s, hactivations, hs, hback⟩ :=
    backTo_backpropagate design hm hfirst hlast experience haction hp
  exact ⟨activations, s, hactivations, hs, updateWith_of_backpropagate design hfeatures haction hs,
    Layers.inPlace_isStep_iff hback.isStep⟩

/-- With a third for each backend, the hidden unit is not where the gradient leads to. -/
theorem one_unit_model_leaves_gradient :
    ∃ s, oneUnitModel.backpropagate (dynamicTileTransformer ℝ) (fun _ => thirds)
        (zeroExperience 0) = some s ∧
      oneUnitModel.updateWith (dynamicTileTransformer ℝ) (fun _ => thirds) (zeroExperience 0) =
        oneUnitModel.finish (dynamicTileTransformer ℝ) (zeroExperience 0) s ∧
      ¬ oneUnitNumbers.IsStep (1 / 1000) (1 / 10000)
        (oneUnitNumbers.gradientErrors (outputError thirds 0))
        (s.network.numbers [List.replicate 8 0, [1]] 1 oneUnitSize) := by
  have hfeatures : (zeroExperience 0 : Experience ℝ).features.validate = .ok () :=
    FeatureVector.validate_zero
  have haction : (zeroExperience 0 : Experience ℝ).action.toNat < 3 := Nat.succ_pos 2
  obtain ⟨activations, s, hactivations, hs, hback⟩ := backTo_backpropagate
    (dynamicTileTransformer ℝ) sized_oneUnitModel rfl rfl (zeroExperience 0) haction
    (show thirds.length = 3 from rfl)
  obtain rfl := Option.some_injective _ (activations_oneUnitModel.symm.trans hactivations)
  refine ⟨s, hs, updateWith_of_backpropagate _ hfeatures haction hs, fun hstep => ?_⟩
  rcases (Layers.inPlace_isStep_iff hback.isStep).mp hstep with hlr | hdrift
  · exact absurd hlr (by norm_num [dynamicTileTransformer, oneUnitModel])
  · exact not_driftFree_oneUnit _ hdrift

/-- So its step is not the one of the gradient. -/
theorem one_unit_gradient_iff :
    ∃ activations s, oneUnitModel.activations .zero = some activations ∧
      oneUnitModel.backpropagate (dynamicTileTransformer ℝ) (fun _ => thirds)
        (zeroExperience 0) = some s ∧
      oneUnitModel.updateWith (dynamicTileTransformer ℝ) (fun _ => thirds) (zeroExperience 0) =
        oneUnitModel.finish (dynamicTileTransformer ℝ) (zeroExperience 0) s ∧
      ((oneUnitModel.numbers activations 1 oneUnitSize).IsStep (1 / 1000) (1 / 10000)
          ((oneUnitModel.numbers activations 1 oneUnitSize).gradientErrors
            (outputError thirds 0)) (s.network.numbers activations 1 oneUnitSize) ↔
        (1 / 1000 : ℝ) = 0 ∨ (oneUnitModel.numbers activations 1 oneUnitSize).DriftFree
          (1 / 10000) (outputError thirds 0)) := by
  have hfeatures : (zeroExperience 0 : Experience ℝ).features.validate = .ok () :=
    FeatureVector.validate_zero
  exact gradient_of_forward_pass_iff (dynamicTileTransformer ℝ) sized_oneUnitModel rfl rfl
    hfeatures (Nat.succ_pos 2) rfl

end Network

end Synapse.IgpuMl
