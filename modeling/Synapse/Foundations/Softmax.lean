import Mathlib

/-!
# Softmax

The exponentials of some numbers, as shares of their sum.  Subtracting the same number from
all of them changes nothing, which is what keeps the exponentials of a program small.
-/

namespace Softmax

noncomputable def total (xs : List ℝ) : ℝ := (xs.map Real.exp).sum

noncomputable def share (xs : List ℝ) (x : ℝ) : ℝ := Real.exp x / total xs

noncomputable def shares (xs : List ℝ) : List ℝ := xs.map (share xs)

variable {xs : List ℝ} {x y : ℝ}

theorem total_pos (h : xs ≠ []) : 0 < total xs := by
  refine List.sum_pos _ (fun e he => ?_) (List.map_eq_nil_iff.not.mpr h)
  obtain ⟨x, -, rfl⟩ := List.mem_map.mp he
  exact Real.exp_pos x

theorem share_pos (h : xs ≠ []) (x : ℝ) : 0 < share xs x :=
  div_pos (Real.exp_pos x) (total_pos h)

theorem sum_shares (h : xs ≠ []) : (shares xs).sum = 1 := by
  have hshares : shares xs = xs.map fun x => (total xs)⁻¹ * Real.exp x :=
    List.map_congr_left fun x _ => div_eq_inv_mul _ _
  rw [hshares, List.sum_map_mul_left]
  exact inv_mul_cancel₀ (total_pos h).ne'

theorem total_sub (xs : List ℝ) (c : ℝ) : total (xs.map (· - c)) = total xs / Real.exp c := by
  have hmap : (xs.map (· - c)).map Real.exp = xs.map fun x => (Real.exp c)⁻¹ * Real.exp x := by
    rw [List.map_map]
    refine List.map_congr_left fun x _ => ?_
    exact (Real.exp_sub x c).trans (div_eq_inv_mul _ _)
  rw [total, hmap, List.sum_map_mul_left]
  exact (div_eq_inv_mul _ _).symm

/-- **Shares do not depend on where zero is.** -/
theorem shares_sub (xs : List ℝ) (c : ℝ) : shares (xs.map (· - c)) = shares xs := by
  rw [shares, shares, List.map_map]
  refine List.map_congr_left fun x _ => ?_
  show Real.exp (x - c) / total (xs.map (· - c)) = Real.exp x / total xs
  rw [total_sub, Real.exp_sub, div_div_div_cancel_right₀ (Real.exp_ne_zero c)]

end Softmax
