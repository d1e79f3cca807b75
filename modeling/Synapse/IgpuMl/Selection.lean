import Synapse.Foundations.BestScans
import Synapse.IgpuMl.ModelBytes

/-!
# Two selection rules

`infer` keeps the last of several best scores, as `max_by` does, and `choose` the first one.
So for finite scores they agree exactly if no two backends share the best score
(`chosen_eq_choose_iff`); the fallback has no such scores.

### Ties

Both rules look for a largest score, in the order of the backends.  `max_by` replaces its
candidate by one that is not smaller, the loop of `choose` by one that is larger; on finite
scores the comparison is that of the numbers, so both are scans of a list
(`Foundations.BestScans`), one for the last and one for the first of the best.  Scalars are
any type whose comparison of finite values is that of a rank; the exact numbers and the floats
are two of them.
-/

namespace Synapse.IgpuMl

open BestScans Numerals

/-- Numbers of which the finite ones are ordered by a rank. -/
class OrderedScalar (F : Type*) extends Scalar F where
  rank : F → ℝ
  lt_iff (x y : F) : isFinite x = true → isFinite y = true → (x < y ↔ rank x < rank y)
  fallback_lt : literal 0.333 < literal 0.334

/-- The exact numbers, all of them finite. -/
noncomputable instance exactOrdered : OrderedScalar ℝ where
  rank := id
  lt_iff _ _ _ _ := Iff.rfl
  fallback_lt := by
    show ((0.333 : ℚ) : ℝ) < ((0.334 : ℚ) : ℝ)
    norm_num

/-- A finite float is a number. -/
theorem isNaN_eq_false_of_isFinite {x : F32} (h : x.isFinite = true) : x.isNaN = false := by
  have hlt : x.magnitude < 0x7f800000 := of_decide_eq_true h
  exact decide_eq_false hlt.asymm

/-- Finite floats are ordered by their bits, the sign reversed. -/
theorem lt_iff_key_lt (x y : F32) (hx : Scalar.isFinite x = true) (hy : Scalar.isFinite y = true) :
    x < y ↔ (x.key : ℝ) < y.key := by
  show x.lt y = true ↔ _
  rw [Numerals.Binary32.lt, isNaN_eq_false_of_isFinite hx, isNaN_eq_false_of_isFinite hy,
    Int.cast_lt]
  exact decide_eq_true_iff

/-- The two constants of the fallback differ as floats too. -/
theorem fallback_lt_rounded : (Scalar.literal 0.333 : F32) < Scalar.literal 0.334 := by
  show (Rounded.round 0.333).lt (Rounded.round 0.334) = true
  decide +kernel

/-- The floats. -/
noncomputable instance roundedOrdered : OrderedScalar F32 where
  rank x := x.key
  lt_iff := lt_iff_key_lt
  fallback_lt := fallback_lt_rounded

/-- All backends, in the order of the scores. -/
def backends : List Backend := [.jit, .hai, .oracle]

/-- The scan goes over all backends. -/
theorem Backend.mem_backends (i : Backend) : i ∈ backends := by
  cases i <;> decide

/-- They have numbers of their own. -/
theorem Backend.toU32_injective : Function.Injective Backend.toU32 := by
  intro i j h
  cases i <;> cases j <;> first | rfl | cases h

namespace ActionScores

variable {F : Type}

/-- `choose`, with the best score so far in the second place. -/
def choose [Scalar F] (s : ActionScores F) : Backend :=
  ([Backend.hai, .oracle].foldl
    (fun best i => if best.2 < s.scores i then (i, s.scores i) else best)
    (.jit, s.scores .jit)).1

/-- Two backends share the best score. -/
def Shared [Scalar F] (scores : Backend → F) : Prop :=
  ∃ i j, i ≠ j ∧ ∀ k, ¬ scores i < scores k ∧ ¬ scores j < scores k

/-- Scores that are all finite. -/
def Finite [Scalar F] (scores : Backend → F) : Prop := ∀ i, Scalar.isFinite (scores i) = true

variable [OrderedScalar F] {scores : Backend → F}

/-- Finite scores are compared by their ranks. -/
theorem lt_iff_rank_lt (h : Finite scores) (i j : Backend) :
    scores i < scores j ↔ OrderedScalar.rank (scores i) < OrderedScalar.rank (scores j) :=
  OrderedScalar.lt_iff _ _ (h i) (h j)

/-- A best score is one that is exceeded by none. -/
theorem isBest_iff (h : Finite scores) (i : Backend) :
    IsBest (fun i => OrderedScalar.rank (scores i)) backends i ↔ ∀ k, ¬ scores i < scores k := by
  constructor
  · rintro ⟨-, hle⟩ k
    rw [lt_iff_rank_lt h]
    exact (hle k k.mem_backends).not_gt
  · intro hle
    refine ⟨i.mem_backends, fun k _ => ?_⟩
    have hk := hle k
    rw [lt_iff_rank_lt h] at hk
    exact not_lt.mp hk

/-- The best score is of one backend. -/
theorem not_shared_iff (h : Finite scores) : ¬ Shared scores ↔
    ∀ i j, IsBest (fun i => OrderedScalar.rank (scores i)) backends i →
      IsBest (fun i => OrderedScalar.rank (scores i)) backends j → i = j := by
  simp only [isBest_iff h]
  constructor
  · intro hnot i j hi hj
    by_contra hne
    exact hnot ⟨i, j, hne, fun k => ⟨hi k, hj k⟩⟩
  · rintro hone ⟨i, j, hne, hbest⟩
    exact hne (hone i j (fun k => (hbest k).1) fun k => (hbest k).2)

/-- The loop of `choose` is a scan, with the score of what it has found. -/
theorem foldl_choose {s : ActionScores F} (h : Finite s.scores) (best : Backend)
    (is : List Backend) :
    is.foldl (fun best i => if best.2 < s.scores i then (i, s.scores i) else best)
        (best, s.scores best) =
      let found := scan (fun i j =>
        OrderedScalar.rank (s.scores j) < OrderedScalar.rank (s.scores i)) best is
      (found, s.scores found) := by
  induction is generalizing best with
  | nil => rfl
  | cons i is ih =>
      rw [List.foldl_cons, scan, List.foldl_cons]
      by_cases hlt : s.scores best < s.scores i
      · rw [if_pos hlt, if_pos ((lt_iff_rank_lt h best i).mp hlt)]
        exact ih i
      · rw [if_neg hlt, if_neg ((lt_iff_rank_lt h best i).not.mp hlt)]
        exact ih best

/-- The first of the best scores. -/
theorem choose_eq_scan {s : ActionScores F} (h : Finite s.scores) : s.choose =
    scan (fun i j => OrderedScalar.rank (s.scores j) < OrderedScalar.rank (s.scores i)) .jit
      [.hai, .oracle] :=
  congrArg Prod.fst (foldl_choose h .jit [.hai, .oracle])

/-- Between 0.333, 0.333 and 0.334. -/
theorem choose_fallback (h : Finite (fallback : ActionScores F).scores) :
    (fallback : ActionScores F).choose = .oracle := by
  have hsame : ¬ (Scalar.literal 0.333 : F) < Scalar.literal 0.333 :=
    (lt_iff_rank_lt h .jit .hai).not.mpr (lt_irrefl _)
  have horacle : (Scalar.literal 0.333 : F) < Scalar.literal 0.334 := OrderedScalar.fallback_lt
  simp [choose, fallback, hsame, horacle]

end ActionScores

namespace Network

variable {C F : Type}

/-- The scores for valid features. -/
def probabilities [Scalar F] (m : Network C F) (features : FeatureVector F) :
    Option (Backend → F) := do
  copyFromSlice (softmax (← m.forward features))

variable [OrderedScalar F]

/-- The last of the best scores. -/
theorem later_eq_scan {scores : Backend → F} (h : ActionScores.Finite scores) :
    later scores (later scores .jit .hai) .oracle =
      scan (fun i j => OrderedScalar.rank (scores j) ≤ OrderedScalar.rank (scores i)) .jit
        [.hai, .oracle] := by
  simp only [later, scan, List.foldl_cons, List.foldl_nil, ActionScores.lt_iff_rank_lt h, ← not_lt,
    ite_not]

/-- With valid features `infer` chooses the last of the best. -/
theorem infer_of_validate {m : Network C F} {features : FeatureVector F}
    (h : features.validate = .ok ()) : m.infer features =
      (m.probabilities features).map fun scores => {
        scores := scores
        chosen := (later scores (later scores .jit .hai) .oracle).toU32
        confidence := clampUnit (ActionScores.margin scores)
        epsilonGreedy := false } := by
  unfold infer probabilities
  rw [h]
  cases m.forward features with
  | none => rfl
  | some logits =>
      dsimp only [Option.bind_eq_bind, Option.bind_some]
      cases copyFromSlice (softmax logits) <;> rfl

/-- Which index is chosen, for finite scores. -/
theorem later_eq_choose_iff {s : ActionScores F} (h : ActionScores.Finite s.scores) :
    later s.scores (later s.scores .jit .hai) .oracle = s.choose ↔
      ¬ ActionScores.Shared s.scores := by
  have hnodup : (Backend.jit :: [.hai, .oracle]).Nodup := by decide
  rw [later_eq_scan h, ActionScores.choose_eq_scan h, eq_comm, scan_lt_eq_scan_le_iff hnodup,
    ActionScores.not_shared_iff h]
  rfl

/-- **The selection rules agree** exactly where no two backends share the best of the scores
for valid features. -/
theorem chosen_eq_choose_iff (m : Network C F) (features : FeatureVector F) :
    (∀ s, m.infer features = some s → ActionScores.Finite s.scores → s.chosen = s.choose.toU32) ↔
      (features.validate = .ok () → ∀ scores, m.probabilities features = some scores →
        ActionScores.Finite scores → ¬ ActionScores.Shared scores) := by
  cases hvalid : features.validate with
  | error e =>
      have hinfer : m.infer features = some .fallback := by
        unfold infer
        rw [hvalid]
      rw [hinfer]
      constructor
      · intro _ hok
        cases hok
      · intro _ s hs hfinite
        obtain rfl := Option.some_injective _ hs
        rw [ActionScores.choose_fallback hfinite]
        rfl
  | ok =>
      rw [infer_of_validate hvalid]
      constructor
      · intro h _ scores hscores hfinite
        rw [← later_eq_choose_iff (s := ⟨scores, 0, 0, false⟩) hfinite]
        rw [hscores] at h
        exact Backend.toU32_injective (h _ rfl hfinite)
      · intro h s hs hfinite
        obtain ⟨scores, hscores, rfl⟩ := Option.map_eq_some_iff.mp hs
        have hnot := h rfl scores hscores hfinite
        have hagree := (later_eq_choose_iff (s := ⟨scores, 0, 0, false⟩) hfinite).mpr hnot
        exact congrArg Backend.toU32 hagree

/-! ### Ties -/

/-- No hidden layers, and all weights and biases zero. -/
def zeroModel : Network (DynamicTileTransformerConfig F32) F32 where
  config := { emptyConfig with inputDim := 8, outputDim := 3 }
  weights := [⟨3, 8, List.replicate 24 .zero, rfl, Array2.fits_three_eight⟩]
  biases := [⟨List.replicate 3 .zero, by decide⟩]
  version := "1.0.0"
  trainingSteps := 0

/-- The exponential of zero is one, rounded or not. -/
theorem exp_zero : Scalar.exp (.zero : F32) = ⟨0x3f800000⟩ := by
  have hvalue : Rounded.value .zero = 0 := by decide +kernel
  have hfloor : ⌊Real.exp ((0 : ℚ) : ℝ) * 2 ^ 149⌋ = 2 ^ 149 := by
    have hcast : (2 : ℝ) ^ 149 = ((2 ^ 149 : ℤ) : ℝ) := by norm_num
    rw [Rat.cast_zero, Real.exp_zero, one_mul, hcast, Int.floor_intCast]
  have hone : Rounded.round (((2 ^ 149 : ℤ) : ℚ) / 2 ^ 149) = ⟨0x3f800000⟩ := by decide +kernel
  show Rounded.real Real.exp .zero = _
  rw [Rounded.real, if_pos (by decide), hvalue, hfloor, hone]

/-- Without weights all logits are zero. -/
theorem forward_zeroModel : zeroModel.forward .zero = some [.zero, .zero, .zero] := by
  decide +kernel

/-- Then each share is a third, rounded. -/
theorem softmax_zeros : softmax [(.zero : F32), .zero, .zero] =
    [⟨0x3eaaaaab⟩, ⟨0x3eaaaaab⟩, ⟨0x3eaaaaab⟩] := by
  have hdiff : (Numerals.Binary32.zero : F32) - .zero = .zero := by decide +kernel
  have hmax : [(.zero : F32), .zero].foldl Scalar.max .zero = .zero := by decide
  have hsum : Scalar.sum [(⟨0x3f800000⟩ : F32), ⟨0x3f800000⟩, ⟨0x3f800000⟩] = ⟨0x40400000⟩ := by
    decide +kernel
  have hpos : (0 : F32) < ⟨0x40400000⟩ := by decide
  have hthird : (⟨0x3f800000⟩ : F32) / ⟨0x40400000⟩ = ⟨0x3eaaaaab⟩ := by decide +kernel
  unfold softmax
  simp only [hmax, List.map_cons, List.map_nil, hdiff, exp_zero, hsum, if_pos hpos, hthird]

/-- All three backends have the same score. -/
theorem probabilities_zeroModel :
    zeroModel.probabilities .zero = some fun _ => ⟨0x3eaaaaab⟩ := by
  rw [probabilities, forward_zeroModel, Option.bind_eq_bind, Option.bind_some, softmax_zeros]
  refine congrArg some (funext fun i => ?_)
  cases i <;> rfl

/-- The zero model chooses the last backend. -/
theorem zero_model_chooses_differently :
    ¬ ∀ s, zeroModel.infer .zero = some s → ActionScores.Finite s.scores →
      s.chosen = s.choose.toU32 := by
  intro h
  have hinfer := infer_of_validate (m := zeroModel) FeatureVector.validate_zero
  rw [probabilities_zeroModel, Option.map_some] at hinfer
  have hfinite : Scalar.isFinite (⟨0x3eaaaaab⟩ : F32) = true := by decide
  have hequal := h _ hinfer fun _ => hfinite
  exact absurd hequal (by decide)

end Network

end Synapse.IgpuMl
