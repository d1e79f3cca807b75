import Synapse.IgpuMl.GradientSteps

/-!
# Rewards

The reward of an experience is a part of the reported loss and of nothing else.  So every update
makes its action more likely (`outputBias_after`), whether it was rewarded or punished
(`rewarded_and_punished_alike`).

### Where the reward goes

The reward is an argument of the loss, in each design in another way, and the loss is what the
functions report.  The backward pass does not start from it: it starts from the probability of
each action, less one for the chosen one.  So the arrays behind an update are the same whatever
the reward, and they are those of the step that makes the chosen action more likely.
`rewarded_and_punished_alike` says this of two experiences that differ in their rewards alone;
the action gains by the learning rate times what its probability lacks of one.
-/

namespace Synapse.IgpuMl

open Backpropagation

/-- The same experience with another reward. -/
def Experience.withReward {F : Type*} (e : Experience F) (reward : F) : Experience F :=
  { e with reward := reward }

namespace Network

variable {C : Type} {m : Network C ℝ} {n : ℕ} {size : ℕ → ℕ}

/-- The bias of an action in the last layer. -/
def outputBias (m : Network C ℝ) (action : ℕ) : Option ℝ := do
  (← m.biases.getLast?).data[action]?

/-- The bias of an action in the last layer, as a number. -/
theorem Sized.outputBias_eq (h : m.Sized n size) (activations : List (List ℝ)) {action : ℕ}
    (haction : action < size (n + 1)) :
    m.outputBias action = some ((m.numbers activations n size).bias n action) := by
  obtain ⟨b, hb, hlength⟩ := h.bias le_rfl
  obtain ⟨v, hv⟩ := exists_getElem? (l := b.data) (haction.trans_eq hlength.symm)
  rw [outputBias, List.getLast?_eq_getElem?, h.length_biases, Nat.add_sub_cancel, hb,
    Option.bind_eq_bind, Option.bind_some, hv, numbers_bias hb hv]

/-- **What an update adds** to the output bias of its action. -/
theorem outputBias_after (design : Design C ℝ) (hm : m.Sized n size) (hfirst : size 0 = 8)
    (hlast : size (n + 1) = 3) (experience : Experience ℝ)
    (haction : experience.action.toNat < 3) {p : List ℝ} (hp : p.length = 3) :
    ∃ s v, m.backpropagate design (fun _ => p) experience = some s ∧
      m.outputBias experience.action.toNat = some v ∧
      s.network.outputBias experience.action.toNat =
        some (v + design.learningRate m.config * (1 - p.getD experience.action.toNat 0)) := by
  obtain ⟨activations, s, -, hs, hback⟩ :=
    backTo_backpropagate design hm hfirst hlast experience haction hp
  have haction' : experience.action.toNat < size (n + 1) := haction.trans_eq hlast.symm
  have herror : m.inPlaceErrors design activations n size
      (outputError p experience.action.toNat) n = outputError p experience.action.toNat :=
    Layers.errors_last
  have hbias := (hback.isStep n le_rfl _ haction').2
  rw [herror, Layers.newBias, outputError, if_pos rfl] at hbias
  refine ⟨s, _, hs, hm.outputBias_eq activations haction', ?_⟩
  rw [(hm.of_frame hback.frame).outputBias_eq activations haction', hbias]
  ring_nf

/-- One of three positive numbers is less than their sum. -/
theorem getD_lt_sum {p : List ℝ} (hp : p.length = 3) (hpos : ∀ x ∈ p, 0 < x) {a : ℕ} (ha : a < 3) :
    p.getD a 0 < p.sum := by
  obtain ⟨x, y, z, rfl⟩ := List.length_eq_three.mp hp
  simp only [List.forall_mem_cons] at hpos
  obtain ⟨hx, hy, hz, -⟩ := hpos
  simp only [List.sum_cons, List.sum_nil]
  interval_cases a <;> simp only [List.getD_cons_zero, List.getD_cons_succ] <;> linarith

/-- **Rewards and punishments** change the output bias alike: whatever the probabilities are, the
action becomes more likely by both. -/
theorem rewarded_and_punished_alike (design : Design C ℝ) (hm : m.Sized n size)
    (hfirst : size 0 = 8) (hlast : size (n + 1) = 3)
    (hlr : 0 < design.learningRate m.config) {experience : Experience ℝ}
    (hfeatures : experience.features.validate = .ok ())
    (haction : experience.action.toNat < 3) {p : List ℝ} (hp : p.length = 3)
    (hpos : ∀ x ∈ p, 0 < x) (hsum : p.sum = 1) (r : ℝ) :
    ∃ s s' v change change',
      m.backpropagate design (fun _ => p) (experience.withReward r) = some s ∧
      m.backpropagate design (fun _ => p) (experience.withReward (-r)) = some s' ∧
      m.updateWith design (fun _ => p) (experience.withReward r) =
        m.finish design (experience.withReward r) s ∧
      m.updateWith design (fun _ => p) (experience.withReward (-r)) =
        m.finish design (experience.withReward (-r)) s' ∧
      m.outputBias experience.action.toNat = some v ∧
      s.network.outputBias experience.action.toNat = some (v + change) ∧
      s'.network.outputBias experience.action.toNat = some (v + change') ∧
      0 < change ∧ 0 < change' ∧ ¬ change * change' < 0 := by
  have hrewarded : (experience.withReward r).features.validate = .ok () := hfeatures
  have hpunished : (experience.withReward (-r)).features.validate = .ok () := hfeatures
  obtain ⟨s, v, hs, hv, hchange⟩ :=
    outputBias_after design hm hfirst hlast (experience.withReward r) haction hp
  obtain ⟨s', v', hs', hv', hchange'⟩ :=
    outputBias_after design hm hfirst hlast (experience.withReward (-r)) haction hp
  obtain rfl := Option.some_injective _ (hv.symm.trans hv')
  have hless : p.getD experience.action.toNat 0 < 1 := hsum ▸ getD_lt_sum hp hpos haction
  have hmore : 0 < design.learningRate m.config * (1 - p.getD experience.action.toNat 0) :=
    mul_pos hlr (sub_pos.mpr hless)
  exact ⟨s, s', v, _, _, hs, hs', updateWith_of_backpropagate design hrewarded haction hs,
    updateWith_of_backpropagate design hpunished haction hs', hv, hchange, hchange', hmore, hmore,
    (mul_pos hmore hmore).not_gt⟩

/-- With a third for each backend, both rewards add the same. -/
theorem one_unit_model_ignores_reward :
    ∃ s s' v, oneUnitModel.backpropagate (dynamicTileTransformer ℝ) (fun _ => thirds)
        ((zeroExperience 0).withReward 1) = some s ∧
      oneUnitModel.backpropagate (dynamicTileTransformer ℝ) (fun _ => thirds)
        ((zeroExperience 0).withReward (-1)) = some s' ∧
      oneUnitModel.updateWith (dynamicTileTransformer ℝ) (fun _ => thirds)
        ((zeroExperience 0).withReward 1) =
          oneUnitModel.finish (dynamicTileTransformer ℝ) ((zeroExperience 0).withReward 1) s ∧
      oneUnitModel.updateWith (dynamicTileTransformer ℝ) (fun _ => thirds)
        ((zeroExperience 0).withReward (-1)) =
          oneUnitModel.finish (dynamicTileTransformer ℝ) ((zeroExperience 0).withReward (-1)) s' ∧
      oneUnitModel.outputBias 0 = some v ∧
      s.network.outputBias 0 = some (v + 1 / 1500) ∧
      s'.network.outputBias 0 = some (v + 1 / 1500) ∧ ¬ (1 / 1500 : ℝ) * (1 / 1500) < 0 := by
  have hrewarded : ((zeroExperience 0).withReward 1 : Experience ℝ).features.validate = .ok () :=
    FeatureVector.validate_zero
  have hpunished : ((zeroExperience 0).withReward (-1) : Experience ℝ).features.validate = .ok () :=
    FeatureVector.validate_zero
  have hthirds : thirds.length = 3 := rfl
  obtain ⟨s, v, hs, hv, hchange⟩ := outputBias_after (dynamicTileTransformer ℝ)
    sized_oneUnitModel rfl rfl ((zeroExperience 0).withReward 1) (Nat.succ_pos 2) hthirds
  obtain ⟨s', v', hs', hv', hchange'⟩ := outputBias_after (dynamicTileTransformer ℝ)
    sized_oneUnitModel rfl rfl ((zeroExperience 0).withReward (-1)) (Nat.succ_pos 2) hthirds
  obtain rfl := Option.some_injective _ (hv.symm.trans hv')
  have hadded : (1 / 1000 : ℝ) * (1 - thirds.getD 0 0) = 1 / 1500 := by
    show (1 / 1000 : ℝ) * (1 - 1 / 3) = 1 / 1500
    norm_num
  exact ⟨s, s', v, hs, hs', updateWith_of_backpropagate _ hrewarded (Nat.succ_pos 2) hs,
    updateWith_of_backpropagate _ hpunished (Nat.succ_pos 2) hs', hv,
    hchange.trans (congrArg (fun c => some (v + c)) hadded),
    hchange'.trans (congrArg (fun c => some (v + c)) hadded), by norm_num⟩

/-- The rewards 1 and -1 on the model with one hidden unit. -/
theorem one_unit_model_alike :
    ∃ s s' v change change', oneUnitModel.backpropagate (dynamicTileTransformer ℝ) (fun _ => thirds)
        ((zeroExperience 0).withReward 1) = some s ∧
      oneUnitModel.backpropagate (dynamicTileTransformer ℝ) (fun _ => thirds)
        ((zeroExperience 0).withReward (-1)) = some s' ∧
      oneUnitModel.updateWith (dynamicTileTransformer ℝ) (fun _ => thirds)
        ((zeroExperience 0).withReward 1) =
          oneUnitModel.finish (dynamicTileTransformer ℝ) ((zeroExperience 0).withReward 1) s ∧
      oneUnitModel.updateWith (dynamicTileTransformer ℝ) (fun _ => thirds)
        ((zeroExperience 0).withReward (-1)) =
          oneUnitModel.finish (dynamicTileTransformer ℝ) ((zeroExperience 0).withReward (-1)) s' ∧
      oneUnitModel.outputBias 0 = some v ∧ s.network.outputBias 0 = some (v + change) ∧
      s'.network.outputBias 0 = some (v + change') ∧
      0 < change ∧ 0 < change' ∧ ¬ change * change' < 0 := by
  have hlr : 0 < (dynamicTileTransformer ℝ).learningRate oneUnitModel.config := by
    show (0 : ℝ) < 1 / 1000
    norm_num
  have hfeatures : (zeroExperience 0 : Experience ℝ).features.validate = .ok () :=
    FeatureVector.validate_zero
  have hpos : ∀ x ∈ thirds, 0 < x := by
    intro x hx
    rw [List.eq_of_mem_replicate hx]
    norm_num
  have hsum : thirds.sum = 1 := by
    rw [thirds, List.sum_replicate]
    norm_num
  exact rewarded_and_punished_alike (dynamicTileTransformer ℝ) sized_oneUnitModel rfl rfl hlr
    hfeatures (Nat.succ_pos 2) rfl hpos hsum 1

end Network

end Synapse.IgpuMl
