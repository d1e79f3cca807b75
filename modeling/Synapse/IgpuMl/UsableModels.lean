import Synapse.IgpuMl.ModelBytes

/-!
# Usable models

A model whose arrays fit together: layer `i` takes `size i` numbers to `size (i + 1)`
(`Sized`).  Then `infer` and the loops of `update` stay within the arrays, for every
arithmetic (`infer_eq_some`, `backward_eq_some`).

`deserialize` compares no shapes with each other or with the configuration, so what it accepts
is usable exactly if the shapes in the file fit together; and the loss of
`DynamicTileTransformer` needs three rows in the first layer (`accepted_usable_iff`).

### Sizes, not shapes

The functions of the crate index into arrays with `[..]` or `ndarray`'s `dot`, and panic where
an index or a length is wrong.  Whether they do depends on the lengths alone, never on an entry.
So the statements here are about a list of sizes and hold for any scalar type, and they come in
pairs: from fitting lengths the function returns, and what it returns has the length the next
one needs.

The backward pass changes the arrays while it runs.  It keeps their shapes (`Sized.of_frame`),
which is why one list of sizes serves for the whole loop.

The loss is computed behind the loop, from the errors in front of the first layer.  One design
takes the entry of the chosen action from them, so it needs three of them, whatever the number
of actions; the other one takes none.  `LossNeeds` is that difference.
-/

namespace Synapse.IgpuMl

open ByteRecords Numerals Runs

/-! ## Loops that stay within their arrays -/

/-- A loop that fills an array. -/
theorem exists_mapM {α β : Type} {f : α → Option β} {l : List α}
    (h : ∀ a ∈ l, ∃ b, f a = some b) : ∃ bs, l.mapM f = some bs ∧ bs.length = l.length := by
  induction l with
  | nil => exact ⟨[], rfl, rfl⟩
  | cons a l ih =>
      obtain ⟨b, hb⟩ := h a List.mem_cons_self
      obtain ⟨bs, hbs, hlength⟩ := ih fun a ha => h a (List.mem_cons_of_mem _ ha)
      refine ⟨b :: bs, ?_, congrArg Nat.succ hlength⟩
      rw [List.mapM_cons, hb, hbs]
      rfl

/-- A list has an entry below its length. -/
theorem exists_getElem? {α : Type} {l : List α} {i : ℕ} (hi : i < l.length) :
    ∃ x, l[i]? = some x := ⟨l[i], List.getElem?_eq_getElem hi⟩

variable {F : Type}

/-- A matrix has an entry within its shape. -/
theorem Array2.exists_get? {w : Array2 F} {j k : ℕ} (hj : j < w.rows) (hk : k < w.cols) :
    ∃ x, w.get? j k = some x := by
  have hlt : j * w.cols + k < w.data.length := by
    rw [w.length_data]
    calc j * w.cols + k < j * w.cols + w.cols := Nat.add_lt_add_left hk _
      _ = (j + 1) * w.cols := (Nat.succ_mul j w.cols).symm
      _ ≤ w.rows * w.cols := Nat.mul_le_mul_right _ hj
  obtain ⟨x, hx⟩ := exists_getElem? hlt
  exact ⟨x, by rw [Array2.get?, if_pos ⟨hj, hk⟩, hx]⟩

namespace Network

variable {C : Type} [Scalar F]

/-- A layer can be applied to a vector of its width. -/
theorem affine_eq_some {w : Array2 F} {b : Array1 F} {x : List F} (hx : x.length = w.cols)
    (hb : b.length = w.rows) : ∃ y, affine w b x = some y ∧ y.length = w.rows := by
  have hdot : w.dot x = some ((List.range w.rows).map fun j => Scalar.dot (w.row j) x) :=
    if_pos hx
  have hlength : ((List.range w.rows).map fun j => Scalar.dot (w.row j) x).length =
      b.data.length := by
    rw [List.length_map, List.length_range]
    exact hb.symm
  refine ⟨List.zipWith (· + ·) ((List.range w.rows).map fun j => Scalar.dot (w.row j) x) b.data,
    ?_, ?_⟩
  · rw [affine, hdot, Option.bind_eq_bind, Option.bind_some]
    unfold broadcastAdd
    exact if_pos hlength
  · rw [List.length_zipWith, ← hlength, min_self, List.length_map, List.length_range]

/-- Three logits give three probabilities. -/
theorem length_softmax {logits : List F} (h : logits.length = 3) : (softmax logits).length = 3 := by
  unfold softmax
  dsimp only
  split_ifs
  · rw [List.length_map, List.length_map, h]
  · rfl

omit [Scalar F] in
/-- Three probabilities can be copied into the scores, whose length is fixed. -/
theorem copyFromSlice_eq_some {xs : List F} (h : xs.length = 3) :
    ∃ scores, copyFromSlice xs = some scores := by
  obtain ⟨x, y, z, rfl⟩ := List.length_eq_three.mp h
  exact ⟨_, rfl⟩

/-! ### One layer of `update` -/

/-- One weight of the gradient step lies within the arrays. -/
theorem updateEntry_eq_some (lr l2 : F) {delta input : List F} {j k : ℕ}
    {state : Array2 F × F} (hj : j < state.1.rows) (hk : k < state.1.cols)
    (hdelta : delta.length = state.1.rows) (hinput : input.length = state.1.cols) :
    ∃ state', updateEntry lr l2 delta input j state k = some state' := by
  obtain ⟨d, hd⟩ := exists_getElem? (show j < delta.length by rwa [hdelta])
  obtain ⟨x, hx⟩ := exists_getElem? (show k < input.length by rwa [hinput])
  obtain ⟨v, hv⟩ := Array2.exists_get? hj hk
  exact ⟨_, by rw [updateEntry, hd, hx, hv]; rfl⟩

/-- One row of the gradient step, by induction on the entries: each keeps the shape. -/
theorem updateRow_eq_some (lr l2 : F) {delta input : List F} {j : ℕ}
    {state : (Array2 F × Array1 F) × F} (hj : j < state.1.1.rows)
    (hdelta : delta.length = state.1.1.rows) (hinput : input.length = state.1.1.cols)
    (hbias : state.1.2.length = state.1.1.rows) :
    ∃ state', updateRow lr l2 delta input state j = some state' := by
  have hentries : ∃ s, exec (updateEntry lr l2 delta input j) (state.1.1, state.2)
      (List.range state.1.1.cols) = some s ∧ s.1.shape = state.1.1.shape := by
    refine exists_exec _ (fun s k hk hs => ?_) rfl
    obtain ⟨hrows, hcols⟩ := Prod.mk.inj hs
    rw [List.mem_range, ← hcols] at hk
    obtain ⟨s', hs'⟩ := updateEntry_eq_some lr l2 (hrows ▸ hj) hk
      (hdelta.trans hrows.symm) (hinput.trans hcols.symm)
    exact ⟨s', hs', (shape_updateEntry hs').trans hs⟩
  obtain ⟨s, hs, -⟩ := hentries
  obtain ⟨d, hd⟩ := exists_getElem? (show j < delta.length by rwa [hdelta])
  obtain ⟨v, hv⟩ := exists_getElem? (l := state.1.2.data) (hj.trans_eq hbias.symm)
  exact ⟨_, by rw [updateRow, hs, Option.bind_eq_bind, Option.bind_some, hd, hv]; rfl⟩

/-- The gradient step of a layer stays within its arrays. -/
theorem updateLayer_eq_some (lr l2 : F) {delta input : List F} {w : Array2 F} {b : Array1 F}
    (norm : F) (hdelta : delta.length = w.rows) (hinput : input.length = w.cols)
    (hbias : b.length = w.rows) :
    ∃ state, updateLayer lr l2 delta input w b norm = some state := by
  have hrun : ∃ s, exec (updateRow lr l2 delta input) ((w, b), norm) (List.range w.rows) =
      some s ∧ s.1.1.shape = w.shape ∧ s.1.2.length = b.length := by
    refine exists_exec _ (fun s j hj hs => ?_) ⟨rfl, rfl⟩
    obtain ⟨hrows, hcols⟩ := Prod.mk.inj hs.1
    rw [List.mem_range, ← hrows] at hj
    obtain ⟨s', hs'⟩ := updateRow_eq_some lr l2 hj (hdelta.trans hrows.symm)
      (hinput.trans hcols.symm) (hs.2.trans (hbias.trans hrows.symm))
    exact ⟨s', hs', (shape_updateRow hs').1.trans hs.1, (shape_updateRow hs').2.trans hs.2⟩
  obtain ⟨s, hs, -⟩ := hrun
  exact ⟨s, hs⟩

/-- The errors are pulled back through a layer, from its height to its width. -/
theorem pullBack_eq_some {wNext : Array2 F} {delta : List F} (h : delta.length = wNext.rows) :
    ∃ newDelta, pullBack wNext delta = some newDelta ∧ newDelta.length = wNext.cols := by
  have hentries : ∀ j ∈ List.range wNext.cols, ∃ d, exec (fun sum k => do
      let v ← wNext.get? k j
      let d ← delta[k]?
      return sum + v * d) (0 : F) (List.range delta.length) = some d := by
    intro j hj
    have hrun : ∃ d, exec (fun sum k => do
        let v ← wNext.get? k j
        let d ← delta[k]?
        return sum + v * d) (0 : F) (List.range delta.length) = some d ∧ True := by
      refine exists_exec _ (fun sum k hk _ => ?_) trivial
      have hk' : k < delta.length := List.mem_range.mp hk
      obtain ⟨v, hv⟩ := Array2.exists_get? (h ▸ hk') (List.mem_range.mp hj)
      obtain ⟨d, hd⟩ := exists_getElem? hk'
      exact ⟨sum + v * d, by rw [hv, hd]; rfl, trivial⟩
    obtain ⟨d, hd, -⟩ := hrun
    exact ⟨d, hd⟩
  obtain ⟨newDelta, hnew, hlength⟩ := exists_mapM hentries
  rw [List.length_range] at hlength
  exact ⟨newDelta, hnew, hlength⟩

/-- Behind a layer the errors are masked by the activations, which have the same length. -/
theorem mask_eq_some {act newDelta : List F} (h : act.length = newDelta.length) :
    ∃ delta, mask act newDelta = some delta ∧ delta.length = newDelta.length := by
  have hentries : ∀ p ∈ newDelta.zipIdx, ∃ d, (do
      let a ← act[p.2]?
      return p.1 * if 0 < a then Scalar.literal 1 else 0 : Option F) = some d := by
    intro p hp
    have hlt : p.2 < newDelta.length := by
      have hindex := List.snd_lt_add_of_mem_zipIdx hp
      omega
    obtain ⟨a, ha⟩ := exists_getElem? (h ▸ hlt)
    exact ⟨_, by rw [ha]; rfl⟩
  obtain ⟨delta, hdelta, hlength⟩ := exists_mapM hentries
  rw [List.length_zipIdx] at hlength
  exact ⟨delta, hdelta, hlength⟩

/-! ### Networks whose arrays fit together -/

/-- Layer `i` takes `size i` numbers to `size (i + 1)`; the last one is layer `n`. -/
structure Sized (m : Network C F) (n : ℕ) (size : ℕ → ℕ) : Prop where
  weights : m.weights.map Array2.shape = (List.range (n + 1)).map fun i => (size (i + 1), size i)
  biases : m.biases.map Array1.length = (List.range (n + 1)).map fun i => size (i + 1)

/-- The activation in front of layer `i` has `size i` numbers. -/
def ActivationsSized (activations : List (List F)) (n : ℕ) (size : ℕ → ℕ) : Prop :=
  activations.map List.length = (List.range (n + 1)).map size

omit [Scalar F] in
/-- The activations in front of layer `i`. -/
theorem ActivationsSized.activation {activations : List (List F)} {n : ℕ} {size : ℕ → ℕ}
    (h : ActivationsSized activations n size) {i : ℕ} (hi : i ≤ n) :
    ∃ x, activations[i]? = some x ∧ x.length = size i := by
  have hget := congrArg (·[i]?) h
  simp only [List.getElem?_map, List.getElem?_range (Nat.lt_succ_of_le hi), Option.map_some,
    Option.map_eq_some_iff] at hget
  exact hget

namespace Sized

variable {m : Network C F} {n : ℕ} {size : ℕ → ℕ} (h : m.Sized n size)

include h

omit [Scalar F]

/-- A step that keeps the shapes keeps the sizes. -/
theorem of_frame {m' : Network C F} (hframe : SameFrame m m') : m'.Sized n size :=
  ⟨hframe.weights.trans h.weights, hframe.biases.trans h.biases⟩

/-- One matrix for each layer. -/
theorem length_weights : m.weights.length = n + 1 := by
  have hlength := congrArg List.length h.weights
  rwa [List.length_map, List.length_map, List.length_range] at hlength

/-- One bias for each layer. -/
theorem length_biases : m.biases.length = n + 1 := by
  have hlength := congrArg List.length h.biases
  rwa [List.length_map, List.length_map, List.length_range] at hlength

/-- The matrix of layer `i` takes `size i` numbers to `size (i + 1)`. -/
theorem weight {i : ℕ} (hi : i ≤ n) :
    ∃ w, m.weights[i]? = some w ∧ w.rows = size (i + 1) ∧ w.cols = size i := by
  have hget := congrArg (·[i]?) h.weights
  simp only [List.getElem?_map, List.getElem?_range (Nat.lt_succ_of_le hi), Option.map_some,
    Option.map_eq_some_iff] at hget
  obtain ⟨w, hw, hshape⟩ := hget
  exact ⟨w, hw, Prod.mk.inj hshape⟩

/-- The bias of layer `i`. -/
theorem bias {i : ℕ} (hi : i ≤ n) : ∃ b, m.biases[i]? = some b ∧ b.length = size (i + 1) := by
  have hget := congrArg (·[i]?) h.biases
  simp only [List.getElem?_map, List.getElem?_range (Nat.lt_succ_of_le hi), Option.map_some,
    Option.map_eq_some_iff] at hget
  exact hget

/-- The layers in front of the last one, by their shapes. -/
theorem hidden : m.hidden.map (Prod.map Array2.shape Array1.length) =
    (List.range n).map fun i => ((size (i + 1), size i), size (i + 1)) := by
  rw [Network.hidden, List.map_take, ← List.zip_map, h.weights, h.biases, List.zip_map',
    h.length_weights, ← List.map_take, List.take_range, Nat.add_sub_cancel,
    Nat.min_eq_left n.le_succ]

end Sized

/-- The forward pass through layers that fit together. -/
theorem activationsFrom_eq_some {layers : List (Array2 F × Array1 F)} {size : ℕ → ℕ}
    (h : layers.map (Prod.map Array2.shape Array1.length) =
      (List.range layers.length).map fun i => ((size (i + 1), size i), size (i + 1)))
    {x : List F} (hx : x.length = size 0) :
    ∃ activations, activationsFrom layers x = some activations ∧
      ActivationsSized activations layers.length size := by
  induction layers generalizing size x with
  | nil => exact ⟨[x], rfl, congrArg (fun k => [k]) hx⟩
  | cons layer layers ih =>
      obtain ⟨w, b⟩ := layer
      rw [List.map_cons, List.length_cons, List.range_succ_eq_map, List.map_cons, List.map_map]
        at h
      obtain ⟨hlayer, hlayers⟩ := List.cons.inj h
      simp only [Prod.map_apply, Array2.shape, zero_add, Prod.mk.injEq] at hlayer
      obtain ⟨⟨hrows, hcols⟩, hbias⟩ := hlayer
      obtain ⟨y, hy, hlength⟩ := affine_eq_some (hx.trans hcols.symm) (hbias.trans hrows.symm)
      have hmapped : (y.map fun v => Scalar.max v 0).length = size (0 + 1) := by
        rw [List.length_map, hlength, hrows]
      obtain ⟨activations, hactivations, hsized⟩ :=
        @ih (fun i => size (i + 1)) hlayers _ hmapped
      have hrange : (List.range (layers.length + 1 + 1)).map size =
          size 0 :: (List.range (layers.length + 1)).map fun i => size (i + 1) := by
        rw [List.range_succ_eq_map, List.map_cons, List.map_map]
        rfl
      refine ⟨x :: activations, ?_, ?_⟩
      · rw [activationsFrom, hy, Option.bind_eq_bind, Option.bind_some, hactivations]
        rfl
      · rw [ActivationsSized, List.map_cons, List.length_cons, hrange, hx, hsized]

namespace Sized

variable {m : Network C F} {n : ℕ} {size : ℕ → ℕ} (h : m.Sized n size)

include h

/-- The forward pass through the hidden layers, one layer after the other. -/
theorem activations_eq_some (hfirst : size 0 = 8) (features : FeatureVector F) :
    ∃ activations, m.activations features = some activations ∧
      ActivationsSized activations n size := by
  have hlength : m.hidden.length = n := by
    have hmap := congrArg List.length h.hidden
    rwa [List.length_map, List.length_map, List.length_range] at hmap
  have hactivations := activationsFrom_eq_some (hlength ▸ h.hidden)
    ((FeatureVector.length_toArray features).trans hfirst.symm)
  rwa [hlength] at hactivations

/-- The last layer, without the activation function. -/
theorem logits_eq_some {activations : List (List F)}
    (hactivations : ActivationsSized activations n size) :
    ∃ logits, m.logits activations = some logits ∧ logits.length = size (n + 1) := by
  obtain ⟨x, hx, hxlength⟩ := hactivations.activation le_rfl
  obtain ⟨w, hw, hrows, hcols⟩ := h.weight le_rfl
  obtain ⟨b, hb, hblength⟩ := h.bias le_rfl
  have hcount : activations.length = n + 1 := by
    have hmap := congrArg List.length hactivations
    rwa [List.length_map, List.length_map, List.length_range] at hmap
  obtain ⟨y, hy, hylength⟩ := affine_eq_some (hxlength.trans hcols.symm) (hblength.trans hrows.symm)
  refine ⟨y, ?_, hylength.trans hrows⟩
  rw [logits, List.getLast?_eq_getElem?, List.getLast?_eq_getElem?, List.getLast?_eq_getElem?,
    hcount, h.length_weights, h.length_biases, Nat.add_sub_cancel, hx, hw, hb]
  exact hy

/-- **`infer` gives scores.** -/
theorem infer_eq_some (hfirst : size 0 = 8) (hlast : size (n + 1) = 3)
    (features : FeatureVector F) : ∃ scores, m.infer features = some scores := by
  unfold infer
  split
  · exact ⟨_, rfl⟩
  · obtain ⟨activations, hactivations, hsized⟩ := h.activations_eq_some hfirst features
    obtain ⟨logits, hlogits, hlength⟩ := h.logits_eq_some hsized
    obtain ⟨scores, hscores⟩ := copyFromSlice_eq_some (length_softmax (hlength.trans hlast))
    have hforward : m.forward features = some logits := by
      rw [forward, hactivations]
      exact hlogits
    rw [hforward, Option.bind_eq_bind, Option.bind_some, hscores]
    exact ⟨_, rfl⟩

end Sized

/-! ### The backward pass -/

variable (design : Design C F) {n : ℕ} {size : ℕ → ℕ} {activations : List (List F)}

/-- One layer of the backward pass: its gradient step, and the errors for the layer below it.
-/
theorem learnLayer_eq_some (hactivations : ActivationsSized activations n size) {i : ℕ}
    (hi : i ≤ n) {s : Backward C F} (hs : s.network.Sized n size)
    (hdelta : s.delta.length = size (i + 1)) :
    ∃ s', learnLayer design activations i s = some s' := by
  obtain ⟨w, hw, hrows, hcols⟩ := hs.weight hi
  obtain ⟨b, hb, hblength⟩ := hs.bias hi
  obtain ⟨x, hx, hxlength⟩ := hactivations.activation hi
  obtain ⟨⟨⟨w', b'⟩, norm⟩, hstate⟩ := updateLayer_eq_some (design.learningRate s.network.config)
    (design.l2Lambda s.network.config) s.totalNorm (hdelta.trans hrows.symm)
    (hxlength.trans hcols.symm) (hblength.trans hrows.symm)
  refine ⟨{ s with
    network := { s.network with
      weights := s.network.weights.set i w'
      biases := s.network.biases.set i b' }
    totalNorm := norm }, ?_⟩
  simp only [learnLayer, hw, hb, hx, Option.getD_some, Option.bind_eq_bind, Option.bind_some,
    hstate]
  rfl

/-- One pass of the loop over the hidden layers. -/
theorem backLayer_eq_some (hactivations : ActivationsSized activations n size) {i : ℕ}
    (hi : i < n) {s : Backward C F} (hs : s.network.Sized n size)
    (hdelta : s.delta.length = size (i + 1 + 1)) :
    ∃ s', backLayer design activations s i = some s' ∧ s'.network.Sized n size ∧
      s'.delta.length = size (i + 1) := by
  obtain ⟨wNext, hwNext, hrows, hcols⟩ := hs.weight (Nat.succ_le_of_lt hi)
  obtain ⟨act, hact, hactlength⟩ := hactivations.activation (Nat.succ_le_of_lt hi)
  obtain ⟨newDelta, hnew, hnewlength⟩ := pullBack_eq_some (hdelta.trans hrows.symm)
  obtain ⟨delta, hmask, hlength⟩ :=
    mask_eq_some (hactlength.trans (hcols.symm.trans hnewlength.symm))
  have hdelta' : delta.length = size (i + 1) := hlength.trans (hnewlength.trans hcols)
  obtain ⟨s', hs'⟩ := learnLayer_eq_some design hactivations hi.le
    (s := { s with delta := delta }) hs hdelta'
  have hback : backLayer design activations s i = some s' := by
    rw [backLayer, hwNext, Option.bind_eq_bind, Option.bind_some, hnew, Option.bind_eq_bind,
      Option.bind_some, hact, Option.getD_some, hmask]
    exact hs'
  refine ⟨s', hback, hs.of_frame (backLayer_frame design hback), ?_⟩
  rw [(learnLayer_frame design hs').2]
  exact hdelta'

/-- The loop, from layer `k` on. -/
theorem backLayers_eq_some (hactivations : ActivationsSized activations n size) {k : ℕ}
    (hk : k ≤ n) {s : Backward C F} (hs : s.network.Sized n size)
    (hdelta : s.delta.length = size (k + 1)) :
    ∃ s', exec (backLayer design activations) s (List.range k).reverse = some s' ∧
      s'.delta.length = size 1 := by
  induction k generalizing s with
  | zero => exact ⟨s, rfl, hdelta⟩
  | succ k ih =>
      obtain ⟨s₁, hs₁, hsized, hlength⟩ := backLayer_eq_some design hactivations hk hs hdelta
      obtain ⟨s', hs', hlength'⟩ := ih (Nat.le_of_succ_le hk) hsized hlength
      refine ⟨s', ?_, hlength'⟩
      rw [List.range_succ, List.reverse_append, List.reverse_singleton, List.singleton_append, exec,
        hs₁]
      exact hs'

/-- **The loops of `update` stay within the arrays**; at the end `delta` has an entry for each
row of the first layer. -/
theorem Sized.backward_eq_some {m : Network C F} (h : m.Sized n size)
    (hactivations : ActivationsSized activations n size) {probs : List F}
    (hprobs : probs.length = size (n + 1)) :
    ∃ s, m.backward design activations probs = some s ∧ s.delta.length = size 1 := by
  obtain ⟨s₁, hs₁⟩ := learnLayer_eq_some design hactivations le_rfl (s := ⟨m, probs, 0⟩) h hprobs
  obtain ⟨hframe, hdelta⟩ := learnLayer_frame design hs₁
  have hdelta' : s₁.delta.length = size (n + 1) := by
    rw [hdelta]
    exact hprobs
  obtain ⟨s, hs, hlength⟩ := backLayers_eq_some design hactivations le_rfl
    (h.of_frame hframe) hdelta'
  refine ⟨s, ?_, hlength⟩
  rw [backward, h.length_weights, Nat.add_sub_cancel, hs₁]
  exact hs

omit [Scalar F] in
/-- The two models, and how many entries of `delta` their losses need. -/
inductive LossNeeds [Scalar F] : ∀ {C : Type}, Design C F → ℕ → Prop where
  | dynamicTileTransformer : LossNeeds (dynamicTileTransformer F) 3
  | telemetryOptimizer : LossNeeds (telemetryOptimizer F) 0

/-- Enough logits, and the loss is computed whatever the action. -/
theorem LossNeeds.loss_eq_some {design : Design C F} {k : ℕ} (h : LossNeeds design k) (config : C)
    {experience : Experience F} {delta : List F} (haction : experience.action.toNat < 3)
    (hk : k ≤ delta.length) : ∃ loss, design.loss config experience delta = some loss := by
  cases h with
  | dynamicTileTransformer =>
      obtain ⟨d, hd⟩ := exists_getElem? (haction.trans_le hk)
      exact ⟨_, by simp only [IgpuMl.dynamicTileTransformer, hd]; rfl⟩
  | telemetryOptimizer => exact ⟨_, rfl⟩

/-- Too few, and there is an action for which it panics. -/
theorem LossNeeds.loss_eq_none {design : Design C F} {k : ℕ} (h : LossNeeds design k) (config : C)
    {experience : Experience F} {delta : List F} (haction : experience.action = 2)
    (hk : delta.length < k) : design.loss config experience delta = none := by
  cases h with
  | dynamicTileTransformer =>
      have hnone : delta[experience.action.toNat]? = none := by
        rw [haction]
        exact List.getElem?_eq_none (Nat.le_of_lt_succ hk)
      simp only [IgpuMl.dynamicTileTransformer, hnone]
      rfl
  | telemetryOptimizer => exact absurd hk (Nat.not_lt_zero _)

/-- An experience whose features are all zero. -/
def zeroExperience (action : UInt32) : Experience F where
  features := .zero
  action := action
  reward := 0
  timestampNs := 0
  sessionId := 0
  energyJoules := 0
  thermalEvents := 0
  confidence := 0

/-- `update` up to the loss. -/
theorem Sized.update_eq {m : Network C F} (h : m.Sized n size) (hfirst : size 0 = 8)
    (hlast : size (n + 1) = 3) {experience : Experience F}
    (hfeatures : experience.features.validate = .ok ()) (haction : experience.action.toNat < 3) :
    ∃ s : Backward C F, s.delta.length = size 1 ∧
      m.update design experience = (design.loss m.config experience s.delta).map fun loss =>
        ({ s.network with trainingSteps := s.network.trainingSteps + 1 },
          .ok ⟨loss, Scalar.sqrt s.totalNorm, design.learningRate m.config⟩) := by
  obtain ⟨activations, hactivations, hsized⟩ := h.activations_eq_some hfirst experience.features
  obtain ⟨logits, hlogits, hlength⟩ := h.logits_eq_some hsized
  have hsoftmax := length_softmax (hlength.trans hlast)
  obtain ⟨p, hp⟩ := exists_getElem? (haction.trans_eq hsoftmax.symm)
  have hprobs : chosenMinusOne (softmax logits) experience.action.toNat =
      some ((softmax logits).set experience.action.toNat (p - Scalar.literal 1)) := by
    rw [chosenMinusOne, hp]
    rfl
  obtain ⟨s, hs, hdelta⟩ := h.backward_eq_some design hsized
    ((List.length_set).trans (hsoftmax.trans hlast.symm))
  refine ⟨s, hdelta, ?_⟩
  unfold update
  rw [hfeatures]
  dsimp only
  rw [if_neg (Nat.not_le.mpr haction), hactivations, Option.bind_eq_bind, Option.bind_some, hlogits,
    Option.bind_eq_bind, Option.bind_some, hprobs, Option.bind_eq_bind, Option.bind_some, hs,
    Option.bind_some]
  cases design.loss m.config experience s.delta <;> rfl

/-- **`update` never panics** exactly if the first layer has the rows that the loss needs. -/
theorem Sized.update_ne_none_iff {m : Network C F} (h : m.Sized n size) (hfirst : size 0 = 8)
    (hlast : size (n + 1) = 3) {design : Design C F} {k : ℕ} (hneeds : LossNeeds design k) :
    (∀ experience : Experience F, experience.features.validate = .ok () →
      m.update design experience ≠ none) ↔ k ≤ size 1 := by
  constructor
  · intro hupdate
    by_contra hk
    have hzero : (zeroExperience 2 : Experience F).features.validate = .ok () :=
      FeatureVector.validate_zero
    have haction : (2 : UInt32).toNat < 3 := by decide
    obtain ⟨s, hdelta, heq⟩ := h.update_eq design hfirst hlast hzero haction
    refine hupdate _ hzero ?_
    rw [heq, hneeds.loss_eq_none m.config rfl (by omega)]
    rfl
  · intro hk experience hfeatures
    by_cases haction : experience.action.toNat < 3
    · obtain ⟨s, hdelta, heq⟩ := h.update_eq design hfirst hlast hfeatures haction
      obtain ⟨loss, hloss⟩ := hneeds.loss_eq_some m.config haction (hk.trans_eq hdelta.symm)
      rw [heq, hloss]
      exact Option.some_ne_none _
    · unfold update
      rw [hfeatures]
      dsimp only
      rw [if_pos (Nat.not_lt.mp haction)]
      exact Option.some_ne_none _

/-! ## What is accepted -/

/-- The restored layers form a chain. -/
structure Chain (m : Network C F) : Prop where
  nonempty : m.weights ≠ []
  length : m.biases.length = m.weights.length
  first : ∀ w : Array2 F, m.weights.head? = some w → w.cols = 8
  bias : ∀ (i : ℕ) (w : Array2 F) (b : Array1 F), m.weights[i]? = some w →
    m.biases[i]? = some b → w.rows = b.length
  next : ∀ (i : ℕ) (w w' : Array2 F), m.weights[i]? = some w →
    m.weights[i + 1]? = some w' → w.rows = w'.cols
  last : ∀ w : Array2 F, m.weights.getLast? = some w → w.rows = 3

/-- They form a chain, and neither `infer` nor `update` panics. -/
structure Usable (design : Design C F) (m : Network C F) : Prop where
  chain : m.Chain
  infer : ∀ features, m.infer features ≠ none
  update : ∀ experience, experience.features.validate = .ok () →
    m.update design experience ≠ none

omit [Scalar F] in
/-- Sizes from the eight features to the three scores are what the forward pass asks for. -/
theorem Sized.chain {m : Network C F} (h : m.Sized n size) (hfirst : size 0 = 8)
    (hlast : size (n + 1) = 3) : m.Chain where
  nonempty := List.ne_nil_of_length_pos (by rw [h.length_weights]; exact Nat.succ_pos _)
  length := h.length_biases.trans h.length_weights.symm
  first w hw := by
    obtain ⟨w', hw', -, hcols⟩ := h.weight (Nat.zero_le n)
    rw [List.head?_eq_getElem?, hw'] at hw
    obtain rfl := Option.some_injective _ hw
    rw [hcols, hfirst]
  bias i w b hw hb := by
    obtain ⟨hi, -⟩ := List.getElem?_eq_some_iff.mp hw
    rw [h.length_weights] at hi
    obtain ⟨w', hw', hrows, -⟩ := h.weight (Nat.le_of_lt_succ hi)
    obtain ⟨b', hb', hlength⟩ := h.bias (Nat.le_of_lt_succ hi)
    obtain rfl := Option.some_injective _ (hw'.symm.trans hw)
    obtain rfl := Option.some_injective _ (hb'.symm.trans hb)
    rw [hrows, hlength]
  next i w w₁ hw hw₁ := by
    obtain ⟨hi, -⟩ := List.getElem?_eq_some_iff.mp hw₁
    rw [h.length_weights] at hi
    obtain ⟨w', hw', hrows, -⟩ := h.weight (show i ≤ n by omega)
    obtain ⟨w₁', hw₁', -, hcols⟩ := h.weight (Nat.le_of_lt_succ hi)
    obtain rfl := Option.some_injective _ (hw'.symm.trans hw)
    obtain rfl := Option.some_injective _ (hw₁'.symm.trans hw₁)
    rw [hrows, hcols]
  last w hw := by
    obtain ⟨w', hw', hrows, -⟩ := h.weight le_rfl
    rw [List.getLast?_eq_getElem?, h.length_weights, Nat.add_sub_cancel, hw'] at hw
    obtain rfl := Option.some_injective _ hw
    rw [hrows, hlast]

/-- The 8 features, and the rows of each layer. -/
def sizes (m : Network C F) : ℕ → ℕ
  | 0 => 8
  | i + 1 => (m.weights[i]?.map Array2.rows).getD 0

omit [Scalar F] in
/-- A chain says what the sizes are. -/
theorem Chain.exists_sized {m : Network C F} (h : m.Chain) :
    ∃ size : ℕ → ℕ, m.Sized (m.weights.length - 1) size ∧ size 0 = 8 ∧
      size m.weights.length = 3 := by
  have hpos := List.length_pos_of_ne_nil h.nonempty
  have hcols : ∀ i w, m.weights[i]? = some w → w.cols = m.sizes i := by
    intro i w hw
    cases i with
    | zero => exact h.first w (List.head?_eq_getElem?.trans hw)
    | succ i =>
        obtain ⟨hi, -⟩ := List.getElem?_eq_some_iff.mp hw
        obtain ⟨w', hw'⟩ := exists_getElem? (Nat.lt_of_succ_lt hi)
        have hsize : m.sizes (i + 1) = w'.rows := by
          rw [show m.sizes (i + 1) = (m.weights[i]?.map Array2.rows).getD 0 from rfl, hw']
          rfl
        rw [hsize, h.next i w' w hw' hw]
  have hrows : ∀ i w, m.weights[i]? = some w → w.rows = m.sizes (i + 1) := by
    intro i w hw
    rw [show m.sizes (i + 1) = (m.weights[i]?.map Array2.rows).getD 0 from rfl, hw]
    rfl
  have hget : ∀ i (hi : i < m.weights.length), m.weights[i]? = some m.weights[i] :=
    fun i hi => List.getElem?_eq_getElem hi
  have hcount : m.weights.length - 1 + 1 = m.weights.length := Nat.succ_pred_eq_of_pos hpos
  refine ⟨m.sizes, ⟨List.ext_getElem ?_ fun i hi _ => ?_, List.ext_getElem ?_ fun i hi _ => ?_⟩,
    rfl, ?_⟩
  · rw [List.length_map, List.length_map, List.length_range, hcount]
  · rw [List.length_map] at hi
    rw [List.getElem_map, List.getElem_map, List.getElem_range]
    exact Prod.ext (hrows i _ (hget i hi)) (hcols i _ (hget i hi))
  · rw [List.length_map, List.length_map, List.length_range, hcount, h.length]
  · rw [List.length_map] at hi
    rw [List.getElem_map, List.getElem_map, List.getElem_range]
    have hw := hget i (h.length ▸ hi)
    rw [← hrows i _ hw, h.bias i _ _ hw (List.getElem?_eq_getElem hi)]
  · have hlast : m.weights[m.weights.length - 1]? = some m.weights[m.weights.length - 1] :=
      hget _ (Nat.pred_lt hpos.ne')
    rw [← hcount, ← hrows _ _ hlast, h.last _ (List.getLast?_eq_getElem?.trans hlast)]

end Network

/-- The shapes that stand in a file fit together, and the first layer has at least `least`
rows. -/
def ModelFile.FitsTogether {C : Type} (file : ModelFile C F) (least : ℕ) : Prop :=
  ∃ size : ℕ → ℕ, size 0 = 8 ∧ size file.layers.length = 3 ∧ least ≤ size 1 ∧
    file.layers.map (fun layer => (layer.1.value.shape, layer.2.value.length)) =
      (List.range file.layers.length).map fun i => ((size (i + 1), size i), size (i + 1))

namespace Network

variable {C : Type} {design : Design C F} {bincode : Bincode C F} {blake3 : Blake3}

/-- The sizes of a model that is read are those of the layers in its file. -/
theorem sized_network {file : ModelFile C F} {n : ℕ} (hlength : file.layers.length = n + 1)
    (size : ℕ → ℕ) (trainingSteps : UInt64) :
    (file.network trainingSteps).Sized n size ↔
      file.layers.map (fun layer => (layer.1.value.shape, layer.2.value.length)) =
        (List.range file.layers.length).map fun i => ((size (i + 1), size i), size (i + 1)) := by
  rw [hlength]
  constructor
  · intro h
    have hweights := (List.map_map ..).symm.trans h.weights
    have hbiases := (List.map_map ..).symm.trans h.biases
    have hzip := congrArg₂ List.zip hweights hbiases
    rwa [List.zip_map', List.zip_map'] at hzip
  · intro h
    have hfst := congrArg (List.map Prod.fst) h
    have hsnd := congrArg (List.map Prod.snd) h
    rw [List.map_map, List.map_map] at hfst hsnd
    exact ⟨(List.map_map ..).trans hfst, (List.map_map ..).trans hsnd⟩

variable [Scalar F]

/-- **Which accepted models are usable.** -/
theorem accepted_usable_iff {k : ℕ} (hneeds : LossNeeds design k) {m m' : Network C F}
    {bytes : Bytes} (h : deserialize design bincode blake3 m bytes = (m', .ok ())) :
    m'.Usable design ↔ ∃ file : ModelFile C F, bytes = file.bytes bincode ∧
      file.Accepted design bincode blake3 ∧ file.FitsTogether k := by
  constructor
  · intro husable
    obtain ⟨file, rfl, hfile, rfl⟩ := (deserialize_ok_iff design bincode blake3).mp h
    obtain ⟨size, hsized, hfirst, hlast⟩ := husable.chain.exists_sized
    have hlength : (file.network m.trainingSteps).weights.length = file.layers.length :=
      List.length_map _
    rw [hlength, hfile.count] at hlast
    rw [hlength, hfile.count, Nat.add_sub_cancel] at hsized
    have hk := (hsized.update_ne_none_iff hfirst hlast hneeds).mp husable.update
    refine ⟨file, rfl, hfile, size, hfirst, ?_, hk, (sized_network hfile.count size _).mp hsized⟩
    rw [hfile.count]
    exact hlast
  · rintro ⟨file, rfl, hfile, size, hfirst, hlast, hk, hshapes⟩
    have hread : deserialize design bincode blake3 m (file.bytes bincode) =
        (file.network m.trainingSteps, .ok ()) :=
      (deserialize_ok_iff design bincode blake3).mpr ⟨file, rfl, hfile, rfl⟩
    obtain ⟨rfl, -⟩ := Prod.mk.inj (h.symm.trans hread)
    have hsized := (sized_network hfile.count size m.trainingSteps).mpr hshapes
    rw [hfile.count] at hlast
    refine ⟨hsized.chain hfirst hlast, fun features => ?_,
      (hsized.update_ne_none_iff hfirst hlast hneeds).mpr hk⟩
    obtain ⟨scores, hscores⟩ := hsized.infer_eq_some hfirst hlast features
    rw [hscores]
    exact Option.some_ne_none _

/-- **An accepted model that panics**: one without inputs and outputs. -/
theorem accepted_model_panics :
    deserialize (dynamicTileTransformer F32) dynamicTileTransformerBincode emptyModelBlake3
        emptyModel (emptyModel.serialize (dynamicTileTransformer F32)
          dynamicTileTransformerBincode emptyModelBlake3) = (emptyModel, .ok ()) ∧
      ¬ emptyModel.Chain ∧ emptyModel.infer .zero = none := by
  refine ⟨?_, fun h => ?_, ?_⟩
  · rw [← List.append_nil (emptyModel.serialize _ _ _)]
    exact deserialize_serialize_append complete_emptyModel fits_emptyModel emptyModel []
  · exact absurd (h.first _ rfl) (by decide)
  · unfold infer
    rw [FeatureVector.validate_zero]
    rfl

/-- The shapes of `tileModel` fit: 8 inputs, 3 units, 3 outputs. -/
theorem fitsTogether_tileModel : (tileModel.file (dynamicTileTransformer F32)
    dynamicTileTransformerBincode tileModelBlake3).FitsTogether 3 :=
  ⟨fun i => if i = 0 then 8 else 3, rfl, rfl, le_rfl, rfl⟩

/-- The model of eight features, three hidden units and three scores. -/
theorem tile_model_usable : tileModel.Usable (dynamicTileTransformer F32) := by
  have hread : deserialize _ _ tileModelBlake3 emptyModel _ = (tileModel, .ok ()) :=
    deserialize_tileModel
  rw [← bytes_file] at hread
  refine (accepted_usable_iff .dynamicTileTransformer hread).mpr ⟨_, rfl, ?_, ?_⟩
  · exact accepted_file complete_tileModel fits_tileModel
  · exact fitsTogether_tileModel

end Network

end Synapse.IgpuMl
