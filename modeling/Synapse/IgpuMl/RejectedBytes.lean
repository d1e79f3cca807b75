import Synapse.IgpuMl.ModelBytes

/-!
# Rejected model bytes

`deserialize` writes what it reads into the model at once and compares the checksums at the
end.  An error leaves in the model what was read before it: the version, the configuration,
and instead of its layers those that could be decoded (`deserialize_fst`).  So the model is
unchanged only where all this is the same as before.

### The order of the writes

Each field of the model is written as soon as it has been read, so the place of the first
failure decides how much of the old model is left.  `deserialize_fst` gives the model behind
any call, failed or not, as a function of what could be read; the condition of
`rejected_unchanged_iff` compares this with the model field by field.  The layers are the
harshest case: the old ones are dropped before the first new one is read.
-/

namespace Synapse.IgpuMl.Network

open ByteRecords Numerals

variable {C F : Type} (design : Design C F) (bincode : Bincode C F) (blake3 : Blake3)

/-- The arrays of at most `n` layers that stand at the front, up to one that cannot be
decoded. -/
def heldLayers : ℕ → Bytes → List (Array2 F) × List (Array1 F)
  | 0, _ => ([], [])
  | n + 1, rest =>
      match readPart bincode.array2 rest with
      | .error _ => ([], [])
      | .ok (w, rest) =>
          match readPart bincode.array1 rest with
          | .error _ => ([w], [])
          | .ok (b, rest) => (w :: (heldLayers n rest).1, b :: (heldLayers n rest).2)

/-- What `bytes` hold is what the model has already: the version, the configuration if it can
be decoded, and the arrays that can be. -/
def Untouched (m : Network C F) (bytes : Bytes) : Prop :=
  match readVersion bytes with
  | .error _ => True
  | .ok (version, rest) => version = m.version ∧
      match readConfig bincode rest with
      | .error _ => True
      | .ok ((_, _, config), rest) => config = m.config ∧
          heldLayers bincode ((design.hiddenDims config).length + 1) rest = (m.weights, m.biases)

/-- The loop appends what it can decode. -/
theorem readLayers_fst (n : ℕ) (m : Network C F) (rest hashed : Bytes) :
    (readLayers bincode n m rest hashed).1 =
      { m with
        weights := m.weights ++ (heldLayers bincode n rest).1
        biases := m.biases ++ (heldLayers bincode n rest).2 } := by
  induction n generalizing m rest hashed with
  | zero =>
      rw [readLayers, heldLayers, List.append_nil, List.append_nil]
  | succ n ih =>
      rw [readLayers, heldLayers]
      cases readPart bincode.array2 rest with
      | error f =>
          dsimp only
          rw [List.append_nil, List.append_nil]
      | ok p =>
          obtain ⟨w, rest₁⟩ := p
          dsimp only
          cases readPart bincode.array1 rest₁ with
          | error f =>
              dsimp only
              rw [List.append_nil]
          | ok q =>
              obtain ⟨b, rest₂⟩ := q
              dsimp only
              rw [ih, List.append_assoc, List.append_assoc]
              rfl

/-- The model after a call, whatever the call returns. -/
theorem deserialize_fst (m : Network C F) (bytes : Bytes) :
    (deserialize design bincode blake3 m bytes).1 =
      match readVersion bytes with
      | .error _ => m
      | .ok (version, rest) =>
          match readConfig bincode rest with
          | .error _ => { m with version := version }
          | .ok ((_, _, config), rest) =>
              let held := heldLayers bincode ((design.hiddenDims config).length + 1) rest
              { m with
                version := version
                config := config
                weights := held.1
                biases := held.2 } := by
  unfold deserialize
  cases readVersion bytes with
  | error f => rfl
  | ok p =>
      obtain ⟨version, rest⟩ := p
      dsimp only
      cases readConfig bincode rest with
      | error f => rfl
      | ok q =>
          obtain ⟨⟨expected, configBytes, config⟩, rest₁⟩ := q
          dsimp only
          have hlayers := readLayers_fst bincode ((design.hiddenDims config).length + 1)
            { m with version := version, config := config, weights := [], biases := [] }
            rest₁ configBytes
          rw [List.nil_append, List.nil_append] at hlayers
          rw [← hlayers]
          split
          · rename_i m₁ f heq
            rw [heq]
          · rename_i m₁ hashed heq
            rw [heq]
            split_ifs <;> rfl

/-- **A rejected file leaves the model as it was** exactly if it holds nothing else. -/
theorem rejected_unchanged_iff {m m' : Network C F} {bytes : Bytes} {e : IgpuMlError}
    (h : deserialize design bincode blake3 m bytes = (m', .error (.err e))) :
    (m'.version = m.version ∧ m'.config = m.config ∧ m'.weights = m.weights ∧
        m'.biases = m.biases ∧ m'.trainingSteps = m.trainingSteps) ↔
      Untouched design bincode m bytes := by
  have hfst := deserialize_fst design bincode blake3 m bytes
  rw [h] at hfst
  dsimp only at hfst
  rw [hfst, Untouched]
  cases readVersion bytes with
  | error f => exact iff_of_true ⟨rfl, rfl, rfl, rfl, rfl⟩ trivial
  | ok p =>
      obtain ⟨version, rest⟩ := p
      dsimp only
      cases readConfig bincode rest with
      | error f => simp
      | ok q =>
          obtain ⟨⟨expected, configBytes, config⟩, rest₁⟩ := q
          simp [Prod.ext_iff]

/-- The arrays of a file whose lengths are not cut off. -/
theorem heldLayers_layerBytes {layers : List (Slot (Array2 F) × Slot (Array1 F))}
    (hfits : ∀ layer ∈ layers, layer.1.Fits bincode.array2 ∧ layer.2.Fits bincode.array1)
    (rest : Bytes) :
    heldLayers bincode layers.length (layers.flatMap (ModelFile.layerBytes bincode) ++ rest) =
      (layers.map fun layer => layer.1.value, layers.map fun layer => layer.2.value) := by
  induction layers with
  | nil => rfl
  | cons layer layers ih =>
      obtain ⟨⟨hwfits, hbfits⟩, hrest⟩ := List.forall_mem_cons.mp hfits
      have hw : readPart bincode.array2 _ = .ok (layer.1.value,
          framed 4 (layer.2.bytes bincode.array1) ++
            (layers.flatMap (ModelFile.layerBytes bincode) ++ rest)) :=
        readPart_eq_ok.mpr ⟨layer.1, rfl, hwfits, rfl⟩
      have hb : readPart bincode.array1 _ = .ok (layer.2.value,
          layers.flatMap (ModelFile.layerBytes bincode) ++ rest) :=
        readPart_eq_ok.mpr ⟨layer.2, rfl, hbfits, rfl⟩
      rw [List.flatMap_cons, ModelFile.layerBytes, List.append_assoc, List.append_assoc,
        List.length_cons, heldLayers, hw]
      dsimp only
      rw [hb]
      dsimp only
      rw [ih hrest]
      rfl

/-- A file holds nothing but the model whose parts stand in it. -/
theorem untouched_bytes {file : ModelFile C F} (hfits : file.Fits bincode)
    (hlength : file.checksum.length = 32)
    (hcount : file.layers.length = (design.hiddenDims file.config.value).length + 1)
    {m : Network C F} (hm : m = file.network m.trainingSteps) :
    Untouched design bincode m (file.bytes bincode) := by
  rw [Untouched, readVersion_bytes bincode hfits]
  dsimp only
  rw [readConfig_bytes bincode hfits hlength]
  dsimp only
  rw [← hcount, heldLayers_layerBytes bincode hfits.layers, hm]
  exact ⟨rfl, rfl, rfl⟩

/-- The version and the configuration of the empty model, and a layer that cannot be decoded. -/
def truncatedBytes : Bytes :=
  framed 2 (utf8 "1.0.0") ++ (List.replicate 32 0 ++
    (framed 4 (dynamicTileTransformerBincode.config.serialize emptyConfig) ++ framed 4 []))

/-- **A rejected file takes the layers away.** -/
theorem rejected_layers_lost :
    ∃ e, deserialize (dynamicTileTransformer F32) dynamicTileTransformerBincode emptyModelBlake3
        emptyModel truncatedBytes =
      ({ emptyModel with weights := [], biases := [] }, .error (.err e)) ∧
      emptyModel.weights ≠ [] :=
  ⟨_, rfl, List.cons_ne_nil _ _⟩

/-- The file of `tileModel` with another checksum. -/
def otherChecksum : ModelFile (DynamicTileTransformerConfig F32) F32 where
  version := tileModel.version
  checksum := List.replicate 32 0
  config := ⟨tileConfig, []⟩
  layers := tileModel.layers.map fun layer => (⟨layer.1, []⟩, ⟨layer.2, []⟩)
  rest := []

/-- A wrong checksum alone leaves the model as it was. -/
theorem rejected_checksum_unchanged :
    ∃ m', deserialize (dynamicTileTransformer F32) dynamicTileTransformerBincode tileModelBlake3
        tileModel (otherChecksum.bytes dynamicTileTransformerBincode) =
          (m', .error (.err (.deserializationError (.message "checksum mismatch")))) ∧
      m'.version = tileModel.version ∧ m'.config = tileModel.config ∧
      m'.weights = tileModel.weights ∧ m'.biases = tileModel.biases ∧
      m'.trainingSteps = tileModel.trainingSteps := by
  have hfile : (tileModel.file (dynamicTileTransformer F32) dynamicTileTransformerBincode
      tileModelBlake3).Accepted _ _ _ := accepted_file complete_tileModel fits_tileModel
  have hfits : otherChecksum.Fits dynamicTileTransformerBincode :=
    ⟨hfile.fits.version, hfile.fits.config, hfile.fits.layers⟩
  have hcount : otherChecksum.layers.length =
      ((dynamicTileTransformer F32).hiddenDims otherChecksum.config.value).length + 1 := rfl
  have hlength : otherChecksum.checksum.length = 32 := rfl
  have hparts : otherChecksum.network tileModel.trainingSteps = tileModel := rfl
  have h := deserialize_bytes (dynamicTileTransformer F32) dynamicTileTransformerBincode
    tileModelBlake3 hfits hlength hcount tileModel
  rw [if_pos (by decide +kernel)] at h
  -- its bytes are not to be computed
  generalize otherChecksum = file at h hcount hlength hparts hfits ⊢
  have huntouched := untouched_bytes (dynamicTileTransformer F32) dynamicTileTransformerBincode
    hfits hlength hcount hparts.symm
  exact ⟨_, h, (rejected_unchanged_iff _ _ _ h).mpr huntouched⟩

end Synapse.IgpuMl.Network
