import Synapse.Foundations.CountedLoops
import Synapse.IgpuMl.UsableModels

/-!
# Steps of one layer

What the loops of `update` leave in the arrays of a layer: every entry is changed once, by its
own value before (`layerUpTo_updateLayer`).

### A loop that writes what it reads

The loops run over the rows and over the entries of a row, and write into the array that they
read.  Each round writes at its own index and reads at its own index, so no round sees what
another one has written; this is why the result can be given entry by entry, from the entry
before (`stepWeight`, `stepBias`).  The lemmas go from the inside out: an entry, a row, the
layer, each by induction on the rounds that have been made, with what the rounds to come have
not touched as part of the statement.

The norm that the loops add up on the way is not described: no entry depends on it.
-/

namespace Synapse.IgpuMl

open Runs

variable {F : Type}

namespace Array2

/-- An entry that exists lies within the shape. -/
theorem get?_eq_some {w : Array2 F} {j k : ℕ} {v : F} (h : w.get? j k = some v) :
    j < w.rows ∧ k < w.cols := by
  unfold get? at h
  split at h
  · assumption
  · cases h

/-- Entries have places of their own. -/
theorem index_inj {cols j j' k k' : ℕ} (hk : k < cols) (hk' : k' < cols)
    (h : j * cols + k = j' * cols + k') : j = j' ∧ k = k' := by
  have hpos : 0 < cols := Nat.zero_lt_of_lt hk
  have hrow : j = j' := by
    have hdiv := congrArg (· / cols) h
    simpa only [Nat.mul_comm _ cols, Nat.mul_add_div hpos, Nat.div_eq_of_lt hk,
      Nat.div_eq_of_lt hk', Nat.add_zero] using hdiv
  subst hrow
  exact ⟨rfl, Nat.add_left_cancel h⟩

/-- An array that is written at one place. -/
theorem get?_set (w : Array2 F) {j k : ℕ} (hj : j < w.rows) (hk : k < w.cols) (x : F)
    (j' k' : ℕ) : (w.set j k x).get? j' k' = if j' = j ∧ k' = k then some x else w.get? j' k' := by
  obtain ⟨v, hv⟩ := w.exists_get? hj hk
  have hlt : j * w.cols + k < w.data.length := by
    rw [get?, if_pos ⟨hj, hk⟩] at hv
    exact (List.getElem?_eq_some_iff.mp hv).1
  show (if j' < w.rows ∧ k' < w.cols then
    (w.data.set (j * w.cols + k) x)[j' * w.cols + k']? else none) = _
  split
  · rename_i hbounds
    rw [List.getElem?_set]
    split
    · rename_i hindex
      obtain ⟨rfl, rfl⟩ := index_inj hk hbounds.2 hindex
      rw [if_pos ⟨rfl, rfl⟩]
    · rename_i hindex
      have hne : ¬ (j' = j ∧ k' = k) := by
        rintro ⟨rfl, rfl⟩
        exact hindex rfl
      rw [if_neg hne, get?, if_pos hbounds]
  · rename_i hbounds
    have hne : ¬ (j' = j ∧ k' = k) := by
      rintro ⟨rfl, rfl⟩
      exact hbounds ⟨hj, hk⟩
    rw [if_neg hne, get?, if_neg hbounds]

end Array2

/-- What is new below `j` and at `j` is new below `j + 1`. -/
theorem ite_lt_succ {α : Type*} (new old : ℕ → α) (j j' : ℕ) :
    (if j' = j then new j else if j' < j then new j' else old j') =
      if j' < j + 1 then new j' else old j' := by
  rcases lt_trichotomy j' j with hlt | rfl | hgt
  · rw [if_neg hlt.ne, if_pos hlt, if_pos (Nat.lt_succ_of_lt hlt)]
  · rw [if_pos rfl, if_pos (Nat.lt_succ_self j')]
  · rw [if_neg hgt.ne', if_neg hgt.asymm, if_neg (Nat.not_lt.mpr hgt)]

namespace Network

variable [Scalar F] {lr l2 : F} {delta input : List F}

/-- The new entry `(j, k)` of the weights. -/
def stepWeight (lr l2 : F) (delta input : List F) (w : Array2 F) (j k : ℕ) : Option F := do
  let d ← delta[j]?
  let x ← input[k]?
  let v ← w.get? j k
  return v - lr * (d * x + l2 * v)

/-- The new entry `j` of the biases. -/
def stepBias (lr : F) (delta : List F) (b : Array1 F) (j : ℕ) : Option F := do
  let d ← delta[j]?
  let v ← b.data[j]?
  return v - lr * d

/-- One entry. -/
theorem get?_updateEntry {j k : ℕ} {state state' : Array2 F × F}
    (h : updateEntry lr l2 delta input j state k = some state') (j' k' : ℕ) :
    state'.1.get? j' k' = if j' = j ∧ k' = k then stepWeight lr l2 delta input state.1 j k
      else state.1.get? j' k' := by
  simp only [updateEntry, Option.bind_eq_bind, Option.bind_eq_some_iff] at h
  obtain ⟨d, hd, x, hx, v, hv, h⟩ := h
  obtain rfl := Option.some_injective _ h
  obtain ⟨hj, hk⟩ := Array2.get?_eq_some hv
  rw [Array2.get?_set _ hj hk, stepWeight, hd, hx, hv]
  rfl

/-- The first `n` entries of row `j` are new, and nothing else. -/
def RowUpTo (lr l2 : F) (delta input : List F) (w : Array2 F) (j n : ℕ) (w' : Array2 F) : Prop :=
  ∀ j' k, w'.get? j' k =
    if j' = j ∧ k < n then stepWeight lr l2 delta input w j k else w.get? j' k

/-- The loop over a row. -/
theorem rowUpTo_updateEntries {j n : ℕ} {state state' : Array2 F × F}
    (h : exec (updateEntry lr l2 delta input j) state (List.range n) = some state') :
    RowUpTo lr l2 delta input state.1 j n state'.1 := by
  have hstep : ∀ k (s s' : Array2 F × F), k < n → RowUpTo lr l2 delta input state.1 j k s.1 →
      updateEntry lr l2 delta input j s k = some s' →
      RowUpTo lr l2 delta input state.1 j (k + 1) s'.1 := by
    intro k s s' _ hs hs' j' k'
    -- column `k` has not been changed yet
    have hentry : stepWeight lr l2 delta input s.1 j k =
        stepWeight lr l2 delta input state.1 j k := by
      rw [stepWeight, stepWeight, hs, if_neg fun hlt => lt_irrefl k hlt.2]
    rw [get?_updateEntry hs', hentry, hs]
    by_cases hk : j' = j ∧ k' = k
    · rw [if_pos hk, if_pos ⟨hk.1, hk.2 ▸ Nat.lt_succ_self k⟩, hk.2]
    · have hiff : j' = j ∧ k' < k ↔ j' = j ∧ k' < k + 1 := by
        rw [Nat.lt_succ_iff_lt_or_eq]
        tauto
      rw [if_neg hk, if_congr hiff rfl rfl]
  have hzero : RowUpTo lr l2 delta input state.1 j 0 state.1 := by
    intro j' k'
    rw [if_neg fun hlt => Nat.not_lt_zero k' hlt.2]
  exact invariant_of_exec_range hstep hzero h

/-- There is no step outside the shape. -/
theorem stepWeight_of_none {w : Array2 F} {j k : ℕ} (h : w.get? j k = none) :
    stepWeight lr l2 delta input w j k = none := by
  rw [stepWeight, h]
  cases delta[j]? <;> cases input[k]? <;> rfl

/-- The loop over a row leaves a new row. -/
theorem get?_updateRow {j : ℕ} {state state' : (Array2 F × Array1 F) × F}
    (h : updateRow lr l2 delta input state j = some state') (j' k : ℕ) :
    state'.1.1.get? j' k =
      if j' = j then stepWeight lr l2 delta input state.1.1 j k else state.1.1.get? j' k := by
  simp only [updateRow, Option.bind_eq_bind, Option.bind_eq_some_iff] at h
  obtain ⟨⟨w', norm⟩, hw, d, -, v, -, h⟩ := h
  obtain rfl := Option.some_injective _ h
  show w'.get? j' k = _
  rw [show w'.get? j' k = _ from rowUpTo_updateEntries hw j' k]
  rcases Nat.lt_or_ge k state.1.1.cols with hk | hk
  · rw [if_congr (and_iff_left hk) rfl rfl]
  · have hnone : ∀ j, state.1.1.get? j k = none :=
      fun j => if_neg fun hbounds => Nat.not_lt.mpr hk hbounds.2
    rw [if_neg fun hboth => Nat.not_lt.mpr hk hboth.2, stepWeight_of_none (hnone j), hnone,
      ite_self]

/-- A row writes its own bias and no other. -/
theorem data_updateRow {j : ℕ} {state state' : (Array2 F × Array1 F) × F}
    (h : updateRow lr l2 delta input state j = some state') (j' : ℕ) :
    state'.1.2.data[j']? =
      if j' = j then stepBias lr delta state.1.2 j else state.1.2.data[j']? := by
  simp only [updateRow, Option.bind_eq_bind, Option.bind_eq_some_iff] at h
  obtain ⟨⟨w', norm⟩, -, d, hd, v, hv, h⟩ := h
  obtain rfl := Option.some_injective _ h
  show (state.1.2.data.set j (v - lr * d))[j']? = _
  rw [List.getElem?_set, if_congr eq_comm rfl rfl]
  split
  · rw [if_pos (List.getElem?_eq_some_iff.mp hv).1, stepBias, hd, hv]
    rfl
  · rfl

/-- The first `n` rows are new, and nothing else. -/
structure LayerUpTo (lr l2 : F) (delta input : List F) (w : Array2 F) (b : Array1 F) (n : ℕ)
    (layer : Array2 F × Array1 F) : Prop where
  weights : ∀ j k, layer.1.get? j k =
    if j < n then stepWeight lr l2 delta input w j k else w.get? j k
  biases : ∀ j, layer.2.data[j]? = if j < n then stepBias lr delta b j else b.data[j]?

/-- A row. -/
theorem LayerUpTo.succ {w : Array2 F} {b : Array1 F} {j : ℕ}
    {state state' : (Array2 F × Array1 F) × F}
    (hs : LayerUpTo lr l2 delta input w b j state.1)
    (h : updateRow lr l2 delta input state j = some state') :
    LayerUpTo lr l2 delta input w b (j + 1) state'.1 := by
  -- row `j` has not been changed yet
  have hweight : ∀ k, stepWeight lr l2 delta input state.1.1 j k =
      stepWeight lr l2 delta input w j k := by
    intro k
    rw [stepWeight, stepWeight, hs.weights, if_neg (lt_irrefl j)]
  have hbias : stepBias lr delta state.1.2 j = stepBias lr delta b j := by
    rw [stepBias, stepBias, hs.biases, if_neg (lt_irrefl j)]
  refine ⟨fun j' k => ?_, fun j' => ?_⟩
  · rw [get?_updateRow h, hweight, hs.weights]
    exact ite_lt_succ (fun j => stepWeight lr l2 delta input w j k) (fun j => w.get? j k) j j'
  · rw [data_updateRow h, hbias, hs.biases]
    exact ite_lt_succ (stepBias lr delta b) (fun j => b.data[j]?) j j'

/-- **The loops over a layer.** -/
theorem layerUpTo_updateLayer {w : Array2 F} {b : Array1 F} {norm : F}
    {state : (Array2 F × Array1 F) × F}
    (h : updateLayer lr l2 delta input w b norm = some state) :
    LayerUpTo lr l2 delta input w b w.rows state.1 := by
  have hzero : LayerUpTo lr l2 delta input w b 0 (w, b) :=
    ⟨fun j k => (if_neg (Nat.not_lt_zero j)).symm, fun j => (if_neg (Nat.not_lt_zero j)).symm⟩
  have hstep : ∀ j (s s' : (Array2 F × Array1 F) × F), j < w.rows →
      LayerUpTo lr l2 delta input w b j s.1 → updateRow lr l2 delta input s j = some s' →
      LayerUpTo lr l2 delta input w b (j + 1) s'.1 := fun _ _ _ _ hs hs' => hs.succ hs'
  exact invariant_of_exec_range hstep hzero h

end Network

end Synapse.IgpuMl
