import Synapse.Foundations.Runs

/-!
# Online least squares

A linear model that is corrected after each example by a multiple of the features, as large
as the error was, and a potential argument for the errors it makes.

The squared distance to any other model is the potential.  A step lowers it by about the
squared error of the model that learns and raises it by at most that of the other
(`sqDist_step_le`).  Summed up over a run, whatever else the run does (`total_le`), the
learner's errors are bounded by those of every fixed model.
-/

/-! ## Sums over runs -/

namespace Runs

variable {σ α R : Type*} (step : σ → α → Option σ)

/-- What the steps of a run cost together. -/
def total [Zero R] [Add R] (cost : σ → α → R) : σ → List α → R
  | _, [] => 0
  | s, a :: as => cost s a + ((step s a).elim 0 fun s' => total cost s' as)

theorem total_mul_left [NonUnitalNonAssocSemiring R] (c : R) (cost : σ → α → R) (s : σ)
    (as : List α) : total step (fun s a => c * cost s a) s as = c * total step cost s as := by
  induction as generalizing s with
  | nil => exact (mul_zero c).symm
  | cons a as ih =>
      rw [total, total, mul_add]
      cases step s a with
      | none => simp
      | some s' => simp [ih]

variable [AddCommMonoid R] [PartialOrder R] [IsOrderedAddMonoid R]

/-- **Potentials.**  Where each step pays its cost out of the potential and what it gains, so
does the whole run. -/
theorem total_le {cost gain : σ → α → R} (Inv : σ → Prop) (Allowed : α → Prop) (potential : σ → R)
    (hstep : ∀ s a s', Inv s → Allowed a → step s a = some s' →
      Inv s' ∧ potential s' + cost s a ≤ potential s + gain s a)
    {s s' : σ} {as : List α} (hs : Inv s) (hallowed : ∀ a ∈ as, Allowed a)
    (h : exec step s as = some s') :
    potential s' + total step cost s as ≤ potential s + total step gain s as := by
  induction as generalizing s with
  | nil =>
      obtain rfl := Option.some_injective _ h
      exact le_rfl
  | cons a as ih =>
      rw [exec, Option.bind_eq_some_iff] at h
      obtain ⟨s₁, hs₁, hrest⟩ := h
      obtain ⟨hinv, hle⟩ := hstep s a s₁ hs (hallowed a List.mem_cons_self) hs₁
      have hrun := ih hinv (fun b hb => hallowed b (List.mem_cons_of_mem _ hb)) hrest
      rw [total, total, hs₁]
      calc potential s' + (cost s a + total step cost s₁ as)
          = (potential s' + total step cost s₁ as) + cost s a := by
            rw [add_comm (cost s a), add_assoc]
        _ ≤ (potential s₁ + total step gain s₁ as) + cost s a := by gcongr
        _ = (potential s₁ + cost s a) + total step gain s₁ as := add_right_comm _ _ _
        _ ≤ (potential s + gain s a) + total step gain s₁ as := by gcongr
        _ = potential s + (gain s a + total step gain s₁ as) := add_assoc _ _ _

end Runs

/-! ## One step -/

namespace LeastMeanSquares

variable {ι R : Type*} [Fintype ι] [CommRing R]

/-- The prediction of a model. -/
def score (w f : ι → R) : R := ∑ i, w i * f i

/-- The squared distance of two models. -/
def sqDist (w v : ι → R) : R := ∑ i, (w i - v i) ^ 2

/-- The model after an example. -/
def step (α r : R) (f w : ι → R) : ι → R := fun i => w i + α * (r - score w f) * f i

/-- How the distance to another model changes. -/
theorem sqDist_step (α r : R) (f w v : ι → R) :
    sqDist (step α r f w) v = sqDist w v - α * (2 - α * ∑ i, f i ^ 2) * (r - score w f) ^ 2 +
      2 * α * (r - score w f) * (r - score v f) := by
  have hterm : ∀ i, (step α r f w i - v i) ^ 2 =
      (w i - v i) ^ 2 + 2 * α * (r - score w f) * (w i * f i) -
        2 * α * (r - score w f) * (v i * f i) + (α * (r - score w f)) ^ 2 * f i ^ 2 := by
    intro i
    simp only [step]
    ring
  rw [sqDist, Finset.sum_congr rfl fun i _ => hterm i, Finset.sum_add_distrib,
    Finset.sum_sub_distrib, Finset.sum_add_distrib, ← Finset.mul_sum, ← Finset.mul_sum,
    ← Finset.mul_sum]
  change sqDist w v + 2 * α * (r - score w f) * score w f -
    2 * α * (r - score w f) * score v f + _ = _
  ring

variable [LinearOrder R] [IsStrictOrderedRing R]

/-- **One step** on features whose squares add up to at most `B`. -/
theorem sqDist_step_le {α B : R} (hα : 0 ≤ α) (r : R) {f : ι → R} (hf : ∑ i, f i ^ 2 ≤ B)
    (w v : ι → R) :
    sqDist (step α r f w) v + α * (1 - α * B) * (r - score w f) ^ 2 ≤
      sqDist w v + α * (r - score v f) ^ 2 := by
  rw [sqDist_step]
  set e := r - score w f
  set d := r - score v f
  have hcross : 2 * e * d ≤ e ^ 2 + d ^ 2 := two_mul_le_add_sq e d
  have hnorm : α * (α * ∑ i, f i ^ 2) * e ^ 2 ≤ α * (α * B) * e ^ 2 := by gcongr
  have hscaled : α * (2 * e * d) ≤ α * (e ^ 2 + d ^ 2) := mul_le_mul_of_nonneg_left hcross hα
  linarith

end LeastMeanSquares
