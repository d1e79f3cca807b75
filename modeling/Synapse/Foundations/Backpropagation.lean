import Mathlib

/-!
# Backpropagation

A layered network as numbers, and one step of gradient descent with weight decay.  Layer `i`
takes what goes into it to what goes into layer `i + 1`, and a unit is active where that is
positive; `errors` goes back from the last layer, through weights that are a parameter.

If every layer is updated before the error goes through it (`inPlaceErrors`), the step is the
right one (`errors` through the weights as they were) exactly if it is none, or if what
the update adds to the error of each active unit cancels (`inPlace_isStep_iff`).
-/

namespace Backpropagation

open Finset

/-- The number of layers before the last one, the sizes, and the numbers: row `j` of layer `i`
belongs to its output `j`. -/
structure Layers (R : Type*) where
  last : ℕ
  size : ℕ → ℕ
  weight : ℕ → ℕ → ℕ → R
  bias : ℕ → ℕ → R
  input : ℕ → ℕ → R

namespace Layers

variable {R : Type*} [CommRing R] (L : Layers R) (lr l2 : R)

/-- The weights of layer `i` after a step with its error. -/
def newWeight (i : ℕ) (error : ℕ → R) (j k : ℕ) : R :=
  L.weight i j k - lr * (error j * L.input i k + l2 * L.weight i j k)

/-- The bias after the step. -/
def newBias (i : ℕ) (error : ℕ → R) (j : ℕ) : R := L.bias i j - lr * error j

/-- The numbers of layer `i` in `L'` are those that its error leads to. -/
def IsLayerStep (i : ℕ) (error : ℕ → R) (L' : Layers R) : Prop :=
  ∀ j < L.size (i + 1), (∀ k < L.size i, L'.weight i j k = L.newWeight lr l2 i error j k) ∧
    L'.bias i j = L.newBias lr i error j

/-- The numbers of all layers are those that the errors lead to. -/
def IsStep (errors : ℕ → ℕ → R) (L' : Layers R) : Prop :=
  ∀ i ≤ L.last, L.IsLayerStep lr l2 i (errors i) L'

/-- A step only looks at the errors of the units that there are. -/
theorem IsLayerStep.congr {L L' : Layers R} {lr l2 : R} {i : ℕ} {error error' : ℕ → R}
    (h : L.IsLayerStep lr l2 i error L')
    (hagree : ∀ j < L.size (i + 1), error j = error' j) : L.IsLayerStep lr l2 i error' L' := by
  intro j hj
  obtain ⟨hweight, hbias⟩ := h j hj
  refine ⟨fun k hk => ?_, ?_⟩
  · rw [hweight k hk, newWeight, newWeight, hagree j hj]
  · rw [hbias, newBias, newBias, hagree j hj]

/-- Only the numbers of layer `i` matter, before and after. -/
theorem IsLayerStep.of_eq {L₁ L₂ L₁' L₂' : Layers R} {lr l2 : R} {i : ℕ} {error : ℕ → R}
    (h : L₁.IsLayerStep lr l2 i error L₁') (hsize : L₁.size = L₂.size)
    (hinput : L₁.input i = L₂.input i) (hweight : L₁.weight i = L₂.weight i)
    (hbias : L₁.bias i = L₂.bias i) (hweight' : L₁'.weight i = L₂'.weight i)
    (hbias' : L₁'.bias i = L₂'.bias i) : L₂.IsLayerStep lr l2 i error L₂' := by
  unfold IsLayerStep newWeight newBias
  rw [← hsize, ← hinput, ← hweight, ← hbias, ← hweight', ← hbias']
  exact h

/-- The error of layer `i + 1` in front of the weights that are used. -/
def pull (i : ℕ) (used : ℕ → ℕ → R) (error : ℕ → R) (j : ℕ) : R :=
  ∑ k ∈ range (L.size (i + 2)), used k j * error k

/-- What the update of layer `i + 1` takes away from that error, in units of the learning
rate. -/
def drift (i : ℕ) (error : ℕ → R) (j : ℕ) : R :=
  L.input (i + 1) j * ∑ k ∈ range (L.size (i + 2)), error k ^ 2 +
    l2 * L.pull i (L.weight (i + 1)) error j

/-- Through the new weights instead of the old ones. -/
theorem pull_newWeight (i : ℕ) (error : ℕ → R) (j : ℕ) :
    L.pull i (L.newWeight lr l2 (i + 1) error) error j =
      L.pull i (L.weight (i + 1)) error j - lr * L.drift l2 i error j := by
  unfold pull drift newWeight pull
  rw [mul_sum, mul_sum, ← sum_add_distrib, mul_sum, ← sum_sub_distrib]
  refine sum_congr rfl fun k _ => ?_
  ring

/-- The error that goes back to a unit depends on the next layer only. -/
theorem pull_congr {i : ℕ} {used used' : ℕ → ℕ → R} {error error' : ℕ → R} {j : ℕ}
    (hused : ∀ k < L.size (i + 2), used k j = used' k j)
    (herror : ∀ k < L.size (i + 2), error k = error' k) :
    L.pull i used error j = L.pull i used' error' j := by
  refine sum_congr rfl fun k hk => ?_
  rw [hused k (mem_range.mp hk), herror k (mem_range.mp hk)]

section errors

variable [LT R] [DecidableLT R]

/-- The errors from the last layer on, each through the weights that are used for it. -/
def errorsFrom (used : ℕ → (ℕ → R) → ℕ → ℕ → R) (top : ℕ → R) : ℕ → ℕ → R
  | 0 => top
  | t + 1 =>
      let i := L.last - (t + 1)
      let error := errorsFrom used top t
      fun j => if 0 < L.input (i + 1) j then L.pull i (used (i + 1) error) error j else 0

/-- The error of layer `i`. -/
def errors (used : ℕ → (ℕ → R) → ℕ → ℕ → R) (top : ℕ → R) (i : ℕ) : ℕ → R :=
  L.errorsFrom used top (L.last - i)

variable {L} {used : ℕ → (ℕ → R) → ℕ → ℕ → R} {top : ℕ → R}

/-- It starts at the last layer. -/
theorem errors_last : L.errors used top L.last = top := by
  unfold errors
  rw [Nat.sub_self]
  rfl

/-- Each layer takes it from the next one, if the unit is active. -/
theorem errors_of_lt {i : ℕ} (hi : i < L.last) (j : ℕ) : L.errors used top i j =
    if 0 < L.input (i + 1) j then
      L.pull i (used (i + 1) (L.errors used top (i + 1))) (L.errors used top (i + 1)) j
    else 0 := by
  obtain ⟨t, ht⟩ : ∃ t, L.last - i = t + 1 := Nat.exists_eq_add_one.mpr (Nat.sub_pos_of_lt hi)
  have hnext : L.last - (i + 1) = t := by omega
  have hlayer : L.last - (t + 1) = i := by omega
  unfold errors
  rw [ht, hnext, errorsFrom, hlayer]

variable (L)

/-- The errors through the weights before the step. -/
def gradientErrors (top : ℕ → R) : ℕ → ℕ → R := L.errors (fun i _ => L.weight i) top

/-- The errors where each layer is updated before the next one is reached. -/
def inPlaceErrors (top : ℕ → R) : ℕ → ℕ → R := L.errors (L.newWeight lr l2) top

/-- No update changes the error of an active unit in the layer before. -/
def DriftFree (top : ℕ → R) : Prop :=
  ∀ i < L.last, ∀ j < L.size (i + 1), 0 < L.input (i + 1) j →
    L.drift l2 i (L.gradientErrors top (i + 1)) j = 0

variable {L lr l2}

/-- Errors that agree in one layer differ in the layer before by what drifts. -/
theorem inPlaceErrors_of_agree {i : ℕ} (hi : i < L.last)
    (hagree : ∀ k < L.size (i + 2), L.inPlaceErrors lr l2 top (i + 1) k =
      L.gradientErrors top (i + 1) k) (j : ℕ) :
    L.inPlaceErrors lr l2 top i j = L.gradientErrors top i j -
      if 0 < L.input (i + 1) j then lr * L.drift l2 i (L.gradientErrors top (i + 1)) j else 0 := by
  rw [inPlaceErrors, gradientErrors, errors_of_lt hi, errors_of_lt hi]
  split
  · rw [← inPlaceErrors, ← gradientErrors, ← L.pull_newWeight]
    refine L.pull_congr (fun k hk => ?_) hagree
    rw [newWeight, newWeight, hagree k hk]
  · exact (sub_zero 0).symm

/-- The errors agree as long as nothing drifts. -/
theorem inPlaceErrors_of_driftFree (hdrift : L.DriftFree l2 top) {i : ℕ} (hi : i ≤ L.last) :
    ∀ j < L.size (i + 1), L.inPlaceErrors lr l2 top i j = L.gradientErrors top i j := by
  -- from the last layer down
  induction hi using Nat.decreasingInduction with
  | self =>
      intro j _
      rw [inPlaceErrors, gradientErrors, errors_last, errors_last]
  | of_succ i hlt ih =>
      intro j hj
      rw [inPlaceErrors_of_agree hlt ih j]
      split
      · rename_i hactive
        rw [hdrift i hlt j hj hactive, mul_zero, sub_zero]
      · rw [sub_zero]

/-- **Layers that are updated in place** take the right step exactly if it is none, or nothing
drifts. -/
theorem inPlace_isStep_iff [NoZeroDivisors R] {L' : Layers R}
    (h : L.IsStep lr l2 (L.inPlaceErrors lr l2 top) L') :
    L.IsStep lr l2 (L.gradientErrors top) L' ↔ lr = 0 ∨ L.DriftFree l2 top := by
  constructor
  · intro hstep
    rw [or_iff_not_imp_left]
    intro hlr
    have hagree : ∀ i ≤ L.last, ∀ j < L.size (i + 1),
        L.inPlaceErrors lr l2 top i j = L.gradientErrors top i j := by
      intro i hi j hj
      have hbias := (h i hi j hj).2.symm.trans (hstep i hi j hj).2
      exact mul_left_cancel₀ hlr (sub_right_injective hbias)
    intro i hi j hj hactive
    have hdiff := inPlaceErrors_of_agree hi (hagree (i + 1) hi) j
    rw [hagree i hi.le j hj, if_pos hactive, eq_comm, sub_eq_self] at hdiff
    exact (mul_eq_zero.mp hdiff).resolve_left hlr
  · rintro (rfl | hdrift)
    · intro i hi j hj
      obtain ⟨hweight, hbias⟩ := h i hi j hj
      refine ⟨fun k hk => ?_, ?_⟩
      · rw [hweight k hk, newWeight, newWeight, zero_mul, zero_mul]
      · rw [hbias, newBias, newBias, zero_mul, zero_mul]
    · intro i hi
      exact (h i hi).congr (inPlaceErrors_of_driftFree hdrift hi)

end errors

end Layers

end Backpropagation
