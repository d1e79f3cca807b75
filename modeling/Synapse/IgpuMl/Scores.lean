import Synapse.Foundations.Softmax
import Synapse.IgpuMl.GradientSteps

/-!
# Scores

What `infer` says in exact arithmetic.  The scores of valid features are the shares of the
logits, although the code subtracts the largest one first; those of other features are three
constants.  Either way they are probabilities, the chosen backend has the largest of them,
and the confidence is what that one has more than a third, or zero (`infer_probabilities`).

### Shares

The scores are a softmax, and the code subtracts the largest logit from all of them before it
exponentiates.  In exact arithmetic this is the share that each exponential has in their sum
(`Softmax.share`), whatever is subtracted, so the trick does not show in the statement.  In
the code's own arithmetic it keeps the exponentials from overflowing, which exact numbers do
not do; nothing is said about rounding here.

The chosen backend is the first of the largest scores, as the scan of the crate finds it
(`Foundations.BestScans`), and the confidence is the margin over a third, cut off at both
ends.
-/

namespace Synapse.IgpuMl.Network

variable {C : Type}

/-- **The softmax of the code** is the softmax. -/
theorem softmax_eq_shares {logits : List ℝ} (h : logits ≠ []) :
    softmax logits = Softmax.shares logits := by
  obtain ⟨v, vs, rfl⟩ := List.exists_cons_of_ne_nil h
  have hsum : 0 < Softmax.total ((v :: vs).map (· - vs.foldl max v)) :=
    Softmax.total_pos (List.cons_ne_nil _ _)
  rw [← Softmax.shares_sub (v :: vs) (vs.foldl max v)]
  have hexp : ((v :: vs).map fun x => Real.exp (x - vs.foldl max v)) =
      ((v :: vs).map (· - vs.foldl max v)).map Real.exp := by
    rw [List.map_map]
    rfl
  show (if 0 < ((v :: vs).map fun x => Real.exp (x - vs.foldl max v)).sum then
      ((v :: vs).map fun x => Real.exp (x - vs.foldl max v)).map
        (· / ((v :: vs).map fun x => Real.exp (x - vs.foldl max v)).sum)
    else [0, 0, 0]) = _
  rw [hexp]
  refine (if_pos hsum).trans ?_
  rw [Softmax.shares, List.map_map]
  rfl

/-- Probabilities, and the last of the best of them. -/
structure Probable (scores : Backend → ℝ) (best : Backend) : Prop where
  pos : ∀ i, 0 < scores i
  sum : scores .jit + scores .hai + scores .oracle = 1
  le_best : ∀ i, scores i ≤ scores best

/-- `max_by` finds the best. -/
theorem le_later (scores : Backend → ℝ) (i : Backend) :
    scores i ≤ scores (later scores (later scores .jit .hai) .oracle) := by
  have hlater : ∀ a b, scores a ≤ scores (later scores a b) ∧
      scores b ≤ scores (later scores a b) := by
    intro a b
    unfold later
    split
    · rename_i hlt
      exact ⟨le_rfl, le_of_lt hlt⟩
    · rename_i hge
      exact ⟨not_lt.mp hge, le_rfl⟩
  cases i with
  | jit => exact (hlater .jit .hai).1.trans (hlater _ .oracle).1
  | hai => exact (hlater .jit .hai).2.trans (hlater _ .oracle).1
  | oracle => exact (hlater _ .oracle).2

/-- The margin of probabilities is between nothing and two thirds. -/
theorem Probable.margin {scores : Backend → ℝ} {best : Backend} (h : Probable scores best) :
    ActionScores.margin scores = scores best - 1 / 3 ∧
      0 ≤ scores best - 1 / 3 ∧ scores best - 1 / 3 < 2 / 3 := by
  have hjit := h.le_best .jit
  have hhai := h.le_best .hai
  have horacle := h.le_best .oracle
  have hsum := h.sum
  have hmax : max (max (scores .jit) (scores .hai)) (scores .oracle) = scores best := by
    refine le_antisymm (max_le (max_le hjit hhai) horacle) ?_
    cases best with
    | jit => exact (le_max_left _ _).trans (le_max_left _ _)
    | hai => exact (le_max_right _ _).trans (le_max_left _ _)
    | oracle => exact le_max_right _ _
  refine ⟨?_, by linarith, ?_⟩
  · show max (max (scores .jit) (scores .hai)) (scores .oracle) -
        (0 + scores .jit + scores .hai + scores .oracle) / ((3 : ℚ) : ℝ) = _
    rw [hmax, zero_add, hsum]
    norm_num
  · -- the other two have something as well
    have hjitPos := h.pos .jit
    have hhaiPos := h.pos .hai
    have horaclePos := h.pos .oracle
    cases best <;> linarith

/-- Between zero and one nothing is cut off. -/
theorem clampUnit_of_mem {x : ℝ} (h0 : 0 ≤ x) (h1 : x ≤ 1) : clampUnit x = x := by
  have hone : ¬ ((1 : ℚ) : ℝ) < x := by
    rw [Rat.cast_one]
    exact not_lt.mpr h1
  show (if x < 0 then 0 else if ((1 : ℚ) : ℝ) < x then ((1 : ℚ) : ℝ) else x) = x
  rw [if_neg (not_lt.mpr h0), if_neg hone]

/-- The three constants are probabilities, and the oracle has the largest. -/
theorem fallback_probable : Probable (ActionScores.fallback : ActionScores ℝ).scores .oracle where
  pos i := by cases i <;> norm_num [ActionScores.fallback, Scalar.literal]
  sum := by norm_num [ActionScores.fallback, Scalar.literal]
  le_best i := by cases i <;> norm_num [ActionScores.fallback, Scalar.literal]

/-- The scores of three logits are their shares. -/
theorem exists_copyFromSlice {logits : List ℝ} (h : logits.length = 3) :
    ∃ scores logit, copyFromSlice (softmax logits) = some scores ∧
      copyFromSlice logits = some logit ∧ (∀ i, scores i = Softmax.share logits (logit i)) ∧
      Probable scores (later scores (later scores .jit .hai) .oracle) := by
  obtain ⟨x, y, z, rfl⟩ := List.length_eq_three.mp h
  have hne : [x, y, z] ≠ [] := List.cons_ne_nil _ _
  have hsum := Softmax.sum_shares hne
  rw [softmax_eq_shares hne]
  refine ⟨_, _, rfl, rfl, fun i => ?_, fun i => ?_, ?_, le_later _⟩
  · cases i <;> rfl
  · cases i <;> exact Softmax.share_pos hne _
  · rw [← hsum]
    show _ + _ + _ = _ + (_ + (_ + 0))
    rw [add_zero, add_assoc]

/-- With valid features `infer` is the forward pass and the softmax of its logits. -/
theorem infer_of_forward {m : Network C ℝ} {features : FeatureVector ℝ}
    (hvalid : features.validate = .ok ()) {logits : List ℝ}
    (hforward : m.forward features = some logits) {scores : Backend → ℝ}
    (hscores : copyFromSlice (softmax logits) = some scores) : m.infer features = some {
      scores := scores
      chosen := (later scores (later scores .jit .hai) .oracle).toU32
      confidence := clampUnit (ActionScores.margin scores)
      epsilonGreedy := false } := by
  unfold infer
  rw [hvalid, hforward]
  dsimp only [Option.bind_eq_bind, Option.bind_some]
  rw [hscores]
  rfl

/-- `explain` says what `infer` has found, with the same margin. -/
theorem exists_explain {m : Network C ℝ} {features : FeatureVector ℝ} {s : ActionScores ℝ}
    (h : m.infer features = some s) : ∃ ex, m.explain features = some ex ∧
      ex.predictedScores = s.scores ∧ ex.confidence = clampUnit (ActionScores.margin s.scores) := by
  rw [explain, h]
  exact ⟨_, rfl, rfl, rfl⟩

/-- **`infer` gives probabilities**, whatever the features are, and chooses the likeliest
backend.  The scores of valid features are the shares of the logits.  `explain` gives the same
scores, but the same confidence only for valid features. -/
theorem infer_probabilities {m : Network C ℝ} {n : ℕ} {size : ℕ → ℕ} (hm : m.Sized n size)
    (hfirst : size 0 = 8) (hlast : size (n + 1) = 3) (features : FeatureVector ℝ) :
    ∃ s ex best, m.infer features = some s ∧ m.explain features = some ex ∧
      ex.predictedScores = s.scores ∧ Probable s.scores best ∧ s.chosen = best.toU32 ∧
      0 ≤ s.confidence ∧ s.confidence < 2 / 3 ∧
      (ex.confidence = s.confidence ↔ features.validate = .ok ()) ∧
      (features.validate = .ok () → s.confidence = s.scores best - 1 / 3 ∧
        ∃ logits logit, m.forward features = some logits ∧ copyFromSlice logits = some logit ∧
          ∀ i, s.scores i = Softmax.share logits (logit i)) := by
  cases hvalid : features.validate with
  | error e =>
      have hinfer : m.infer features = some .fallback := by
        unfold infer
        rw [hvalid]
      obtain ⟨ex, hex, hscores, hconfidence⟩ := exists_explain hinfer
      obtain ⟨hmargin, hnonneg, hless⟩ := fallback_probable.margin
      have hbest : (ActionScores.fallback : ActionScores ℝ).scores .oracle = 334 / 1000 := by
        norm_num [ActionScores.fallback, Scalar.literal]
      have hne : ex.confidence ≠ (ActionScores.fallback : ActionScores ℝ).confidence := by
        rw [hconfidence, hmargin, clampUnit_of_mem hnonneg (by linarith), hbest]
        show (334 / 1000 - 1 / 3 : ℝ) ≠ 0
        norm_num
      refine ⟨_, ex, .oracle, hinfer, hex, hscores, fallback_probable, rfl, le_rfl, ?_, ?_, ?_⟩
      · show (0 : ℝ) < 2 / 3
        norm_num
      · exact iff_of_false hne nofun
      · exact nofun
  | ok =>
      obtain ⟨activations, hactivations, hsized⟩ := hm.activations_eq_some hfirst features
      obtain ⟨logits, hlogits, hlength⟩ := hm.logits_eq_some hsized
      have hforward : m.forward features = some logits := by
        rw [forward, hactivations]
        exact hlogits
      obtain ⟨scores, logit, hscores, hlogit, hshare, hprobable⟩ :=
        exists_copyFromSlice (hlength.trans hlast)
      have hinfer := infer_of_forward hvalid hforward hscores
      obtain ⟨ex, hex, hpredicted, hconfidence⟩ := exists_explain hinfer
      obtain ⟨hmargin, hnonneg, hless⟩ := hprobable.margin
      have hclamped : clampUnit (ActionScores.margin scores) =
          scores (later scores (later scores .jit .hai) .oracle) - 1 / 3 := by
        rw [hmargin]
        exact clampUnit_of_mem hnonneg (by linarith)
      refine ⟨_, ex, _, hinfer, hex, hpredicted, hprobable, rfl, hclamped.symm ▸ hnonneg,
        hclamped.symm ▸ hless, iff_of_true hconfidence rfl, fun _ => ?_⟩
      exact ⟨hclamped, logits, logit, hforward, hlogit, hshare⟩

/-- The scores of the model with one hidden unit, on features that are all zero. -/
theorem infer_probabilities_one_unit : ∃ s ex best, oneUnitModel.infer .zero = some s ∧
    oneUnitModel.explain .zero = some ex ∧ ex.predictedScores = s.scores ∧
    Probable s.scores best ∧ s.chosen = best.toU32 ∧ 0 ≤ s.confidence ∧ s.confidence < 2 / 3 ∧
    ex.confidence = s.confidence ∧ s.confidence = s.scores best - 1 / 3 ∧
    ∃ logits logit, oneUnitModel.forward .zero = some logits ∧
      copyFromSlice logits = some logit ∧
      ∀ i, s.scores i = Softmax.share logits (logit i) := by
  obtain ⟨s, ex, best, hinfer, hexplain, hscores, hprobable, hchosen, hnonneg, hless, hsame,
    hvalid⟩ := infer_probabilities sized_oneUnitModel rfl rfl .zero
  have hzero : (FeatureVector.zero : FeatureVector ℝ).validate = .ok () :=
    FeatureVector.validate_zero
  exact ⟨s, ex, best, hinfer, hexplain, hscores, hprobable, hchosen, hnonneg, hless,
    hsame.mpr hzero, hvalid hzero⟩

end Synapse.IgpuMl.Network
