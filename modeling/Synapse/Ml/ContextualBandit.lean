import Synapse.Core.Workload
import Mathlib

/-!
# `ContextualBandit`

A linear model for each of the three backends, trained by one gradient step for each
experience.  `R` is what the source has `float` for; nothing but its operations is used,
unless a theorem says so.

`observe` does not look at `frozen`.  So the weights stay only if there is nothing to learn
from an experience (`weights_observe_iff`).

### Random numbers

The generator is a parameter with its own state, of which nothing is assumed.  A choice draws
one number to decide whether to explore and, if so, a second one for the action.
-/

namespace Synapse.Ml

/-- `std::array<float,8>`. -/
abbrev Features (R : Type*) := Fin 8 → R

/-- The random numbers that are drawn: `random_float()`, and `rng_()`. -/
structure Generator (R ρ : Type*) where
  randomFloat : ρ → R × ρ
  next : ρ → UInt32 × ρ

/-- The bandit, with as many weights for each backend as there are features. -/
structure ContextualBandit (R ρ : Type*) where
  weights : Fin 3 → Features R
  epsilon : R
  alpha : R
  rng : ρ
  frozen : Bool
  updates : UInt64
  cumulativeReward : R
  selectionCounts : Fin 3 → UInt64

/-- The row of weights of a backend. -/
def backendToIndex : ExecutionBackend → Fin 3
  | .JIT => 0
  | .HAI => 1
  | .Oracle => 2

/-- The backend of a row; everything that is neither 0 nor 1 is Oracle. -/
def indexToBackend (i : ℤ) : ExecutionBackend :=
  if i = 0 then .JIT else if i = 1 then .HAI else .Oracle

namespace ContextualBandit

variable {R ρ : Type*} [Zero R] [Add R] [Mul R]

/-- The constructor, with the weights that it has drawn. -/
def create (weights : Fin 3 → Features R) (epsilon alpha : R) (rng : ρ) :
    ContextualBandit R ρ where
  weights := weights
  epsilon := epsilon
  alpha := alpha
  rng := rng
  frozen := false
  updates := 0
  cumulativeReward := 0
  selectionCounts _ := 0

/-- `weights_[a] * f`, summed from the left. -/
def predict (w f : Features R) : R :=
  (List.finRange 8).foldl (fun s j => s + w j * f j) 0

/-- The index of the best score, the first of several. -/
def bestAction [LT R] [DecidableLT R] (scores : Fin 3 → R) : ℤ :=
  let best : Fin 3 := 0
  let best := if scores best < scores 1 then 1 else best
  let best := if scores best < scores 2 then 2 else best
  (best : ℕ)

/-- A random backend with probability `epsilon`, the one predicted best otherwise. -/
def chooseAction [LT R] [DecidableLT R] (generator : Generator R ρ) (f : Features R)
    (b : ContextualBandit R ρ) : ExecutionBackend × ContextualBandit R ρ :=
  let (draw, rng) := generator.randomFloat b.rng
  if draw < b.epsilon then
    let (n, rng) := generator.next rng
    (indexToBackend (n.toNat % 3 : ℕ), { b with rng := rng })
  else (indexToBackend (bestAction fun a => predict (b.weights a) f), { b with rng := rng })

/-- A choice only draws random numbers. -/
theorem chooseAction_snd [LT R] [DecidableLT R] (generator : Generator R ρ) (f : Features R)
    (b : ContextualBandit R ρ) :
    ∃ rng, (b.chooseAction generator f).2 = { b with rng := rng } := by
  unfold chooseAction
  dsimp only
  split
  · exact ⟨_, rfl⟩
  · exact ⟨_, rfl⟩

variable [Sub R]

/-- What one experience adds to the weights of the action. -/
def gradientStep (b : ContextualBandit R ρ) (a : Fin 3) (reward : R) (f : Features R) :
    Features R :=
  fun j => b.alpha * (reward - predict (b.weights a) f) * f j

/-- One gradient step for the backend that was used.  `frozen` is not looked at. -/
def observe (action : ExecutionBackend) (reward : R) (f : Features R)
    (b : ContextualBandit R ρ) : ContextualBandit R ρ :=
  let a := backendToIndex action
  { b with
    weights := Function.update b.weights a fun j =>
      b.weights a j + b.gradientStep a reward f j
    updates := b.updates + 1
    cumulativeReward := b.cumulativeReward + reward
    selectionCounts := Function.update b.selectionCounts a (b.selectionCounts a + 1) }

/-- All entries of `selection_counts()`. -/
def selections (b : ContextualBandit R ρ) : UInt64 :=
  b.selectionCounts 0 + b.selectionCounts 1 + b.selectionCounts 2

/-- An observation counts as one selection. -/
theorem selections_observe (b : ContextualBandit R ρ) (action : ExecutionBackend) (reward : R)
    (f : Features R) : (b.observe action reward f).selections = b.selections + 1 := by
  unfold selections observe
  cases action with
  | JIT =>
      change b.selectionCounts 0 + 1 + b.selectionCounts 1 + b.selectionCounts 2 = _
      rw [add_right_comm (b.selectionCounts 0), add_right_comm _ 1]
  | HAI =>
      change b.selectionCounts 0 + (b.selectionCounts 1 + 1) + b.selectionCounts 2 = _
      rw [← add_assoc, add_right_comm _ 1]
  | Oracle => exact (add_assoc _ _ _).symm

/-- There is nothing to learn from the experience: what would be added to the weights leaves
them as they are. -/
def Absorbs (b : ContextualBandit R ρ) (action : ExecutionBackend) (reward : R)
    (f : Features R) : Prop :=
  ∀ j, b.weights (backendToIndex action) j + b.gradientStep (backendToIndex action) reward f j =
    b.weights (backendToIndex action) j

/-- The weights stay exactly if there is nothing to learn. -/
theorem weights_observe_iff (b : ContextualBandit R ρ) (action : ExecutionBackend) (reward : R)
    (f : Features R) :
    (b.observe action reward f).weights = b.weights ↔ b.Absorbs action reward f := by
  unfold observe Absorbs
  rw [Function.update_eq_self_iff, funext_iff]

end ContextualBandit

/-- In exact arithmetic there is nothing to learn with the learning rate 0, if the prediction
is right, or if no feature is set. -/
theorem ContextualBandit.absorbs_iff {R ρ : Type*} [Ring R] [NoZeroDivisors R]
    (b : ContextualBandit R ρ) (action : ExecutionBackend) (reward : R) (f : Features R) :
    b.Absorbs action reward f ↔
      b.alpha = 0 ∨ reward = predict (b.weights (backendToIndex action)) f ∨ f = 0 := by
  have hstep : b.Absorbs action reward f ↔
      ∀ j, b.gradientStep (backendToIndex action) reward f j = 0 :=
    forall_congr' fun j => add_eq_left
  rw [hstep]
  constructor
  · intro h
    by_contra hnot
    obtain ⟨halpha, hreward, hf⟩ : b.alpha ≠ 0 ∧
        reward ≠ predict (b.weights (backendToIndex action)) f ∧ f ≠ 0 := by
      simpa only [not_or] using hnot
    obtain ⟨j, hj⟩ := Function.ne_iff.mp hf
    exact mul_ne_zero (mul_ne_zero halpha (sub_ne_zero.mpr hreward)) hj (h j)
  · rintro (halpha | hreward | hf) j
    · rw [gradientStep, halpha, zero_mul, zero_mul]
    · rw [gradientStep, ← hreward, sub_self, mul_zero, zero_mul]
    · rw [gradientStep, hf]
      exact mul_zero _

end Synapse.Ml
