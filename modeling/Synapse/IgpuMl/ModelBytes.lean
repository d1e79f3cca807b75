import Synapse.IgpuMl.Bincode

/-!
# `serialize` and `deserialize`

The bytes of a model: its version, a checksum, its configuration and its layers, the last
two written by `bincode` and each after its length.  `bincode` and `blake3` are parameters.

What `deserialize` accepts is a `ModelFile`: the parts that it finds, each with the bytes
behind the encoding that it ignores (`deserialize_ok_iff`).  The file of a model is accepted,
so a model that has been written is read back (`model_bytes_read_back`).

### Parts with slack

`deserialize` takes lengths from the bytes, hands each part to `bincode`, and `bincode`
ignores whatever stands behind an encoding.  So a part of a file is an encoding and some slack
(`Slot`), and an accepted byte string is a record of such parts.  The equivalence with this
record (`deserialize_ok_iff`) is proved function by function, from the readers of a length up,
and all later statements about accepted bytes are about records and not about the parser.

The configuration is hashed with its slack, as `deserialize` hashes the bytes that it has cut
out, and the layers without, since they are encoded anew for the hash; `hashed` follows the
source in this.

A length that is written is cut off to its two or four bytes.  That a model `Fits` excludes
this, and that it is `Complete` excludes what a failed call may have left of it.
-/

namespace Synapse.IgpuMl

open ByteRecords Numerals

/-- `as_bytes` -/
def utf8 (s : String) : Bytes := s.toByteArray.data.toList

/-- `std::str::from_utf8` -/
def fromUtf8 (bytes : Bytes) : Option String := String.fromUTF8? ⟨bytes.toArray⟩

/-- A byte string is the UTF-8 of one text at most. -/
theorem fromUtf8_eq_some (bytes : Bytes) (s : String) :
    fromUtf8 bytes = some s ↔ bytes = utf8 s := by
  unfold fromUtf8 String.fromUTF8? utf8
  constructor
  · intro h
    split_ifs at h
    obtain rfl := Option.some_injective _ h
    rfl
  · rintro rfl
    exact dif_pos s.isValidUTF8

/-- A computation in two steps returns if both do. -/
theorem Except.bind_eq_ok {ε α β : Type} {x : Except ε α} {f : α → Except ε β} {b : β} :
    x >>= f = .ok b ↔ ∃ a, x = .ok a ∧ f a = .ok b := by
  cases x with
  | error e =>
      constructor
      · intro h
        cases h
      · rintro ⟨a, ha, -⟩
        cases ha
  | ok a => exact ⟨fun h => ⟨a, rfl, h⟩, fun ⟨_, ha, h⟩ => Except.ok.inj ha ▸ h⟩

/-- How a call can end early: it panics or returns an error. -/
inductive Failure where
  | panic
  | err (e : IgpuMlError)

/-- `&bytes[cursor..cursor + n]`, and what is left behind the cursor after it. -/
def take (n : ℕ) (rest : Bytes) : Except Failure (Bytes × Bytes) :=
  if n ≤ rest.length then .ok (rest.take n, rest.drop n) else .error .panic

/-- Bytes after a length of `n` bytes. -/
def takeFramed (n : ℕ) (rest : Bytes) : Except Failure (Bytes × Bytes) := do
  let (length, rest) ← take n rest
  take (ofLeBytes length) rest

/-- Bytes with their length in `n` bytes in front, cut off if it needs more. -/
def framed (n : ℕ) (bytes : Bytes) : Bytes := leBytes n bytes.length ++ bytes

/-- A piece of known length, and what is behind it. -/
theorem take_eq_ok {n : ℕ} {rest bytes rest' : Bytes} :
    take n rest = .ok (bytes, rest') ↔ bytes.length = n ∧ rest = bytes ++ rest' := by
  unfold take
  constructor
  · intro h
    split_ifs at h with hn
    obtain ⟨rfl, rfl⟩ := Prod.mk.inj (Except.ok.inj h)
    exact ⟨List.length_take_of_le hn, (List.take_append_drop n rest).symm⟩
  · rintro ⟨rfl, rfl⟩
    simp

/-- A piece behind its length. -/
theorem takeFramed_eq_ok {n : ℕ} {rest bytes rest' : Bytes} :
    takeFramed n rest = .ok (bytes, rest') ↔
      bytes.length < 256 ^ n ∧ rest = framed n bytes ++ rest' := by
  unfold takeFramed
  rw [Except.bind_eq_ok]
  constructor
  · rintro ⟨⟨length, behind⟩, hlength, h⟩
    obtain ⟨rfl, rfl⟩ := take_eq_ok.mp hlength
    obtain ⟨hbytes, rfl⟩ := take_eq_ok.mp h
    refine ⟨hbytes ▸ ofLeBytes_lt length, ?_⟩
    rw [framed, hbytes, leBytes_ofLeBytes rfl, List.append_assoc]
  · rintro ⟨hlt, rfl⟩
    refine ⟨(leBytes n bytes.length, bytes ++ rest'), ?_, ?_⟩
    · exact take_eq_ok.mpr ⟨length_leBytes _ _, List.append_assoc _ _ _⟩
    · exact take_eq_ok.mpr ⟨(ofLeBytes_leBytes_of_lt hlt).symm, rfl⟩

/-- `bincode::deserialize(…).map_err(…)` -/
def bincodeDeserialize {α : Type} (codec : Codec α) (bytes : Bytes) : Except Failure α :=
  match codec.deserialize bytes with
  | .ok v => .ok v
  | .error e => .error (.err (.deserializationError (.bincode e)))

/-- A value that `bincode` finds at the front. -/
theorem bincodeDeserialize_eq_ok {α : Type} {codec : Codec α} {bytes : Bytes} {v : α} :
    bincodeDeserialize codec bytes = .ok v ↔ ∃ slack, bytes = codec.serialize v ++ slack := by
  rw [← codec.deserialize_iff]
  unfold bincodeDeserialize
  split <;> simp_all

namespace Network

variable {C F : Type} (design : Design C F) (bincode : Bincode C F) (blake3 : Blake3)

/-- `self.weights.iter().zip(self.biases.iter())` -/
def layers (m : Network C F) : List (Array2 F × Array1 F) := m.weights.zip m.biases

/-! ### The code -/

/-- What has been fed to the hasher after the tag. -/
def checksum (hashed : Bytes) : Bytes := blake3.digest (ascii design.tag ++ hashed)

/-- `serialize`: version, checksum, configuration, layers, each part but the checksum behind
its length. -/
def serialize (m : Network C F) : Bytes :=
  let configBytes := bincode.config.serialize m.config
  let hashed := configBytes ++ m.layers.flatMap fun (w, b) =>
    bincode.array2.serialize w ++ bincode.array1.serialize b
  let weightBytes := m.layers.flatMap fun (w, b) =>
    framed 4 (bincode.array2.serialize w) ++ framed 4 (bincode.array1.serialize b)
  framed 2 (utf8 m.version) ++ (checksum design blake3 hashed ++
    (framed 4 configBytes ++ weightBytes))

/-- Up to `self.version = …`. -/
def readVersion (bytes : Bytes) : Except Failure (String × Bytes) := do
  let (version, rest) ← takeFramed 2 bytes
  match fromUtf8 version with
  | some s => return (s, rest)
  | none => throw (.err (.deserializationError (.utf8 version)))

/-- Up to `self.config = …`: the checksum, the bytes of the configuration and itself. -/
def readConfig (rest : Bytes) : Except Failure ((Bytes × Bytes × C) × Bytes) := do
  let (checksum, rest) ← take 32 rest
  let (configBytes, rest) ← takeFramed 4 rest
  let config ← bincodeDeserialize bincode.config configBytes
  return ((checksum, configBytes, config), rest)

/-- An array behind its length. -/
def readPart {α : Type} (codec : Codec α) (rest : Bytes) : Except Failure (α × Bytes) := do
  let (part, rest) ← takeFramed 4 rest
  let v ← bincodeDeserialize codec part
  return (v, rest)

/-- The loop over the layers: the model, and what the hasher has been fed. -/
def readLayers : ℕ → Network C F → Bytes → Bytes → Network C F × Except Failure Bytes
  | 0, m, _, hashed => (m, .ok hashed)
  | n + 1, m, rest, hashed =>
      match readPart bincode.array2 rest with
      | .error f => (m, .error f)
      | .ok (w, rest) =>
          let m := { m with weights := m.weights ++ [w] }
          match readPart bincode.array1 rest with
          | .error f => (m, .error f)
          | .ok (b, rest) =>
              let m := { m with biases := m.biases ++ [b] }
              readLayers n m rest
                (hashed ++ (bincode.array2.serialize w ++ bincode.array1.serialize b))

/-- The model after a call, and what the call returns. -/
def deserialize (m : Network C F) (bytes : Bytes) : Network C F × Except Failure Unit :=
  match readVersion bytes with
  | .error f => (m, .error f)
  | .ok (version, rest) =>
      let m := { m with version := version }
      match readConfig bincode rest with
      | .error f => (m, .error f)
      | .ok ((expected, configBytes, config), rest) =>
          let m := { m with config := config, weights := [], biases := [] }
          match readLayers bincode ((design.hiddenDims config).length + 1) m rest configBytes with
          | (m, .error f) => (m, .error f)
          | (m, .ok hashed) =>
              if checksum design blake3 hashed ≠ expected then
                (m, .error (.err (.deserializationError (.message "checksum mismatch"))))
              else (m, .ok ())

end Network

/-! ## Files -/

/-- A value and the bytes behind its encoding that nobody looks at. -/
structure Slot (α : Type) where
  value : α
  slack : Bytes

namespace Slot

variable {α : Type} (codec : Codec α) (s : Slot α)

/-- The bytes of a part: the encoding and its slack. -/
def bytes : Bytes := codec.serialize s.value ++ s.slack

/-- The length is not cut off. -/
def Fits : Prop := (s.bytes codec).length < 256 ^ 4

end Slot

/-- What `deserialize` finds in a file. -/
structure ModelFile (C F : Type) where
  version : String
  checksum : Bytes
  config : Slot C
  layers : List (Slot (Array2 F) × Slot (Array1 F))
  rest : Bytes

namespace ModelFile

variable {C F : Type} (design : Design C F) (bincode : Bincode C F) (blake3 : Blake3)
variable (file : ModelFile C F)

/-- The bytes of a layer, matrix and bias each behind its length. -/
def layerBytes (layer : Slot (Array2 F) × Slot (Array1 F)) : Bytes :=
  framed 4 (layer.1.bytes bincode.array2) ++ framed 4 (layer.2.bytes bincode.array1)

/-- The bytes of the file. -/
def bytes : Bytes :=
  framed 2 (utf8 file.version) ++ (file.checksum ++
    (framed 4 (file.config.bytes bincode.config) ++
      (file.layers.flatMap (layerBytes bincode) ++ file.rest)))

/-- The encodings of a layer without lengths, as they are hashed. -/
def layerCode (layer : Slot (Array2 F) × Slot (Array1 F)) : Bytes :=
  bincode.array2.serialize layer.1.value ++ bincode.array1.serialize layer.2.value

/-- What the checksum is computed from: the configuration with its slack, the layers without. -/
def hashed : Bytes :=
  file.config.bytes bincode.config ++ file.layers.flatMap (layerCode bincode)

/-- No length is cut off. -/
structure Fits : Prop where
  version : (utf8 file.version).length < 256 ^ 2
  config : file.config.Fits bincode.config
  layers : ∀ layer ∈ file.layers, layer.1.Fits bincode.array2 ∧ layer.2.Fits bincode.array1

/-- What `deserialize` asks of the parts that it has found. -/
structure Accepted : Prop where
  fits : file.Fits bincode
  count : file.layers.length = (design.hiddenDims file.config.value).length + 1
  checksum : file.checksum = Network.checksum design blake3 (file.hashed bincode)

/-- The checksum is a digest. -/
theorem Accepted.length_checksum {design : Design C F} {bincode : Bincode C F}
    {blake3 : Blake3} {file : ModelFile C F} (h : file.Accepted design bincode blake3) :
    file.checksum.length = 32 := by
  rw [h.checksum]
  exact blake3.length_digest _

/-- The model that is read. -/
def network (trainingSteps : UInt64) : Network C F where
  config := file.config.value
  weights := file.layers.map fun layer => layer.1.value
  biases := file.layers.map fun layer => layer.2.value
  version := file.version
  trainingSteps := trainingSteps

end ModelFile

namespace Network

variable {C F : Type} (design : Design C F) (bincode : Bincode C F) (blake3 : Blake3)

/-- Reading a part. -/
theorem readPart_eq_ok {α : Type} {codec : Codec α} {rest rest' : Bytes} {v : α} :
    readPart codec rest = .ok (v, rest') ↔
      ∃ slot : Slot α, slot.value = v ∧ slot.Fits codec ∧
        rest = framed 4 (slot.bytes codec) ++ rest' := by
  unfold readPart
  simp only [Except.bind_eq_ok]
  constructor
  · rintro ⟨⟨part, behind⟩, hpart, w, hw, h⟩
    obtain ⟨rfl, rfl⟩ := Prod.mk.inj (Except.ok.inj h)
    obtain ⟨hlt, rfl⟩ := takeFramed_eq_ok.mp hpart
    obtain ⟨slack, rfl⟩ := bincodeDeserialize_eq_ok.mp hw
    exact ⟨⟨w, slack⟩, rfl, hlt, rfl⟩
  · rintro ⟨slot, rfl, hfits, rfl⟩
    exact ⟨(slot.bytes codec, rest'), takeFramed_eq_ok.mpr ⟨hfits, rfl⟩, slot.value,
      bincodeDeserialize_eq_ok.mpr ⟨slot.slack, rfl⟩, rfl⟩

/-- Reading the version. -/
theorem readVersion_eq_ok {bytes rest : Bytes} {version : String} :
    readVersion bytes = .ok (version, rest) ↔
      (utf8 version).length < 256 ^ 2 ∧ bytes = framed 2 (utf8 version) ++ rest := by
  unfold readVersion
  rw [Except.bind_eq_ok]
  constructor
  · rintro ⟨⟨text, behind⟩, htext, h⟩
    obtain ⟨hlt, rfl⟩ := takeFramed_eq_ok.mp htext
    cases hs : fromUtf8 text with
    | none => simp [hs] at h
    | some s =>
        simp only [hs] at h
        obtain ⟨rfl, rfl⟩ := Prod.mk.inj (Except.ok.inj h)
        obtain rfl := (fromUtf8_eq_some text s).mp hs
        exact ⟨hlt, rfl⟩
  · rintro ⟨hlt, rfl⟩
    refine ⟨(utf8 version, rest), takeFramed_eq_ok.mpr ⟨hlt, rfl⟩, ?_⟩
    simp only [(fromUtf8_eq_some _ version).mpr rfl]
    rfl

/-- Reading the checksum and the configuration, whose bytes are kept for the hash. -/
theorem readConfig_eq_ok {rest rest' checksum configBytes : Bytes} {config : C} :
    readConfig bincode rest = .ok ((checksum, configBytes, config), rest') ↔
      ∃ slot : Slot C, slot.value = config ∧ slot.bytes bincode.config = configBytes ∧
        slot.Fits bincode.config ∧ checksum.length = 32 ∧
        rest = checksum ++ (framed 4 configBytes ++ rest') := by
  unfold readConfig
  simp only [Except.bind_eq_ok]
  constructor
  · rintro ⟨⟨sum, behind⟩, hsum, ⟨bytes, behind'⟩, hbytes, c, hc, h⟩
    simp only [pure, Except.pure, Except.ok.injEq, Prod.mk.injEq] at h
    obtain ⟨⟨rfl, rfl, rfl⟩, rfl⟩ := h
    obtain ⟨hlength, rfl⟩ := take_eq_ok.mp hsum
    obtain ⟨hlt, rfl⟩ := takeFramed_eq_ok.mp hbytes
    obtain ⟨slack, rfl⟩ := bincodeDeserialize_eq_ok.mp hc
    exact ⟨⟨c, slack⟩, rfl, rfl, hlt, hlength, rfl⟩
  · rintro ⟨slot, rfl, rfl, hfits, hlength, rfl⟩
    exact ⟨_, take_eq_ok.mpr ⟨hlength, rfl⟩, _, takeFramed_eq_ok.mpr ⟨hfits, rfl⟩, slot.value,
      bincodeDeserialize_eq_ok.mpr ⟨slot.slack, rfl⟩, rfl⟩

/-- The loop reads the layers that stand there, and feeds their own encodings to the hasher. -/
theorem readLayers_eq_ok {n : ℕ} {m m' : Network C F} {rest hashed hashed' : Bytes} :
    readLayers bincode n m rest hashed = (m', .ok hashed') ↔
      ∃ (layers : List (Slot (Array2 F) × Slot (Array1 F))) (rest' : Bytes),
        layers.length = n ∧
        (∀ layer ∈ layers, layer.1.Fits bincode.array2 ∧ layer.2.Fits bincode.array1) ∧
        rest = layers.flatMap (ModelFile.layerBytes bincode) ++ rest' ∧
        hashed' = hashed ++ layers.flatMap (ModelFile.layerCode bincode) ∧
        m' = { m with
          weights := m.weights ++ layers.map fun layer => layer.1.value
          biases := m.biases ++ layers.map fun layer => layer.2.value } := by
  induction n generalizing m rest hashed with
  | zero =>
      constructor
      · intro h
        obtain ⟨rfl, hhashed⟩ := Prod.mk.inj h
        obtain rfl := Except.ok.inj hhashed
        exact ⟨[], rest, rfl, by simp, by simp, by simp, by simp⟩
      · rintro ⟨layers, rest', hlength, -, -, rfl, rfl⟩
        obtain rfl := List.eq_nil_of_length_eq_zero hlength
        simp [readLayers]
  | succ n ih =>
      rw [readLayers]
      constructor
      · intro h
        split at h
        · cases h
        · rename_i w rest₁ hw
          dsimp only at h
          split at h
          · cases h
          · rename_i b rest₂ hb
            obtain ⟨ws, rfl, hwfits, rfl⟩ := readPart_eq_ok.mp hw
            obtain ⟨bs, rfl, hbfits, rfl⟩ := readPart_eq_ok.mp hb
            obtain ⟨layers, rest', rfl, hfits, rfl, rfl, rfl⟩ := ih.mp h
            refine ⟨(ws, bs) :: layers, rest', rfl, ?_, ?_, ?_, ?_⟩
            · exact List.forall_mem_cons.mpr ⟨⟨hwfits, hbfits⟩, hfits⟩
            · simp [ModelFile.layerBytes]
            · simp [ModelFile.layerCode]
            · simp
      · rintro ⟨layers, rest', hlength, hfits, rfl, rfl, rfl⟩
        cases layers with
        | nil => cases hlength
        | cons layer layers =>
            obtain ⟨⟨hwfits, hbfits⟩, hfits⟩ := List.forall_mem_cons.mp hfits
            have hw : readPart bincode.array2 _ = .ok (layer.1.value,
                framed 4 (layer.2.bytes bincode.array1) ++
                  (layers.flatMap (ModelFile.layerBytes bincode) ++ rest')) :=
              readPart_eq_ok.mpr ⟨layer.1, rfl, hwfits, rfl⟩
            have hb : readPart bincode.array1 _ = .ok (layer.2.value,
                layers.flatMap (ModelFile.layerBytes bincode) ++ rest') :=
              readPart_eq_ok.mpr ⟨layer.2, rfl, hbfits, rfl⟩
            rw [List.flatMap_cons, ModelFile.layerBytes, List.append_assoc, List.append_assoc, hw]
            dsimp only
            rw [hb]
            refine ih.mpr ⟨layers, rest', Nat.succ_injective hlength, hfits, rfl, ?_, ?_⟩
            · simp [ModelFile.layerCode]
            · simp

section Bytes

variable {file : ModelFile C F} (hfits : file.Fits bincode)

include hfits

/-- The version of a file is read back. -/
theorem readVersion_bytes :
    readVersion (file.bytes bincode) = .ok (file.version, file.checksum ++
      (framed 4 (file.config.bytes bincode.config) ++
        (file.layers.flatMap (ModelFile.layerBytes bincode) ++ file.rest))) :=
  readVersion_eq_ok.mpr ⟨hfits.version, rfl⟩

variable (hlength : file.checksum.length = 32)

include hlength

/-- So are its checksum and its configuration. -/
theorem readConfig_bytes :
    readConfig bincode (file.checksum ++ (framed 4 (file.config.bytes bincode.config) ++
        (file.layers.flatMap (ModelFile.layerBytes bincode) ++ file.rest))) =
      .ok ((file.checksum, file.config.bytes bincode.config, file.config.value),
        file.layers.flatMap (ModelFile.layerBytes bincode) ++ file.rest) :=
  (readConfig_eq_ok bincode).mpr ⟨file.config, rfl, rfl, hfits.config, hlength, rfl⟩

/-- A file whose parts can be found is read into the model; then the checksums are compared. -/
theorem deserialize_bytes
    (hcount : file.layers.length = (design.hiddenDims file.config.value).length + 1)
    (m : Network C F) :
    deserialize design bincode blake3 m (file.bytes bincode) =
      (file.network m.trainingSteps,
        if checksum design blake3 (file.hashed bincode) ≠ file.checksum then
          .error (.err (.deserializationError (.message "checksum mismatch")))
        else .ok ()) := by
  have hlayers : readLayers bincode _ ⟨file.config.value, [], [], file.version, m.trainingSteps⟩
      _ (file.config.bytes bincode.config) = (_, .ok (file.hashed bincode)) :=
    (readLayers_eq_ok bincode).mpr ⟨file.layers, file.rest, hcount, hfits.layers, rfl, rfl, rfl⟩
  rw [deserialize, readVersion_bytes bincode hfits]
  dsimp only
  rw [readConfig_bytes bincode hfits hlength]
  dsimp only
  rw [hlayers]
  dsimp only
  split_ifs <;> rfl

end Bytes

/-- **What is accepted.** -/
theorem deserialize_ok_iff {m m' : Network C F} {bytes : Bytes} :
    deserialize design bincode blake3 m bytes = (m', .ok ()) ↔
      ∃ file : ModelFile C F, bytes = file.bytes bincode ∧
        file.Accepted design bincode blake3 ∧ m' = file.network m.trainingSteps := by
  constructor
  · intro h
    unfold deserialize at h
    split at h
    · cases h
    · rename_i version rest hversion
      dsimp only at h
      split at h
      · cases h
      · rename_i expected configBytes config rest₁ hconfig
        split at h
        · cases h
        · rename_i m₁ hashed hlayers
          split_ifs at h with hsum
          · cases (Prod.mk.inj h).2
          obtain ⟨rfl, -⟩ := Prod.mk.inj h
          obtain ⟨hvfits, rfl⟩ := readVersion_eq_ok.mp hversion
          obtain ⟨slot, rfl, rfl, hcfits, -, rfl⟩ := (readConfig_eq_ok bincode).mp hconfig
          obtain ⟨layers, rest', hcount, hfits, rfl, rfl, rfl⟩ :=
            (readLayers_eq_ok bincode).mp hlayers
          refine ⟨⟨version, expected, slot, layers, rest'⟩, rfl, ?_, rfl⟩
          exact ⟨⟨hvfits, hcfits, hfits⟩, hcount, (not_not.mp hsum).symm⟩
  · rintro ⟨file, rfl, hfile, rfl⟩
    rw [deserialize_bytes design bincode blake3 hfile.fits hfile.length_checksum hfile.count,
      if_neg (not_not.mpr hfile.checksum.symm)]

/-! ## The file of a model -/

/-- No length in the bytes of the model is cut off. -/
structure Fits (m : Network C F) : Prop where
  version : (utf8 m.version).length < 256 ^ 2
  config : (bincode.config.serialize m.config).length < 256 ^ 4
  layers : ∀ layer ∈ m.layers, (bincode.array2.serialize layer.1).length < 256 ^ 4 ∧
    (bincode.array1.serialize layer.2).length < 256 ^ 4

/-- As many weights and biases as the configuration has layers. -/
structure Complete (m : Network C F) : Prop where
  weights : m.weights.length = (design.hiddenDims m.config).length + 1
  biases : m.biases.length = (design.hiddenDims m.config).length + 1

/-- What `serialize` feeds to the hasher after the tag. -/
def hashed (m : Network C F) : Bytes :=
  bincode.config.serialize m.config ++ m.layers.flatMap fun layer =>
    bincode.array2.serialize layer.1 ++ bincode.array1.serialize layer.2

/-- What is found in the bytes of a model. -/
def file (m : Network C F) : ModelFile C F where
  version := m.version
  checksum := checksum design blake3 (m.hashed bincode)
  config := ⟨m.config, []⟩
  layers := m.layers.map fun layer => (⟨layer.1, []⟩, ⟨layer.2, []⟩)
  rest := []

variable {design bincode blake3}

/-- `serialize` writes the bytes of the model's file. -/
theorem bytes_file (m : Network C F) :
    (m.file design bincode blake3).bytes bincode = m.serialize design bincode blake3 := by
  simp only [ModelFile.bytes, file, serialize, hashed, Slot.bytes, ModelFile.layerBytes,
    List.flatMap_map, List.append_nil]

/-- What is hashed of them is what is hashed of the model. -/
theorem hashed_file (m : Network C F) :
    (m.file design bincode blake3).hashed bincode = m.hashed bincode := by
  simp only [ModelFile.hashed, file, hashed, Slot.bytes, ModelFile.layerCode, List.flatMap_map,
    List.append_nil]

/-- The file of a model is accepted. -/
theorem accepted_file {m : Network C F} (hm : m.Complete design) (hfits : m.Fits bincode) :
    (m.file design bincode blake3).Accepted design bincode blake3 where
  fits.version := hfits.version
  fits.config := by simpa [Slot.Fits, Slot.bytes, file] using hfits.config
  fits.layers := by
    intro layer hlayer
    obtain ⟨parts, hparts, rfl⟩ := List.mem_map.mp hlayer
    simpa [Slot.Fits, Slot.bytes] using hfits.layers parts hparts
  count := by
    have hlength : m.layers.length = (design.hiddenDims m.config).length + 1 := by
      rw [layers, List.length_zip, hm.weights, hm.biases, min_self]
    simpa [file] using hlength
  checksum := by rw [hashed_file]; rfl

/-- And gives the model back; the training steps are not in the file. -/
theorem network_file {m : Network C F} (hm : m.Complete design) (trainingSteps : UInt64) :
    (m.file design bincode blake3).network trainingSteps =
      { m with trainingSteps := trainingSteps } := by
  have hlength : m.weights.length = m.biases.length := hm.weights.trans hm.biases.symm
  have hweights : m.layers.map Prod.fst = m.weights := List.map_fst_zip hlength.le
  have hbiases : m.layers.map Prod.snd = m.biases := List.map_snd_zip hlength.ge
  simp only [ModelFile.network, file, List.map_map]
  congr 1

/-- Bytes behind a file change nothing. -/
theorem deserialize_serialize_append {m : Network C F} (hm : m.Complete design)
    (hfits : m.Fits bincode) (r : Network C F) (more : Bytes) :
    deserialize design bincode blake3 r (m.serialize design bincode blake3 ++ more) =
      ({ m with trainingSteps := r.trainingSteps }, .ok ()) := by
  rw [deserialize_ok_iff]
  have hfile : (m.file design bincode blake3).Accepted design bincode blake3 :=
    accepted_file hm hfits
  refine ⟨{ m.file design bincode blake3 with rest := more }, ?_, ?_, ?_⟩
  · rw [← bytes_file]
    simp [ModelFile.bytes, file]
  · exact ⟨⟨hfile.fits.version, hfile.fits.config, hfile.fits.layers⟩, hfile.count, hfile.checksum⟩
  · have hnetwork : (m.file design bincode blake3).network r.trainingSteps = _ :=
      network_file hm r.trainingSteps
    exact hnetwork.symm

/-! ## Models that come about -/

section reachable

variable [Scalar F] (random : Random F)

/-- The models that come about from `new` by `update` and successful `deserialize` calls. -/
inductive Reachable (design : Design C F) (bincode : Bincode C F) (blake3 : Blake3) :
    Network C F → Prop where
  | new {config : C} {seed : UInt64} {m : Network C F}
      (h : new design random config seed = some m) : Reachable design bincode blake3 m
  | update {m m' : Network C F} {experience : Experience F}
      {result : Except IgpuMlError (UpdateResult F)} (hm : Reachable design bincode blake3 m)
      (h : m.update design experience = some (m', result)) : Reachable design bincode blake3 m'
  | deserialize {m m' : Network C F} {bytes : Bytes} (hm : Reachable design bincode blake3 m)
      (h : deserialize design bincode blake3 m bytes = (m', .ok ())) :
      Reachable design bincode blake3 m'

/-- The constructor makes one layer for each dimension and the last one; by induction on the
dimensions. -/
theorem length_newLayers {rng : ℕ → F} {outputDim : UInt64} {drawn : ℕ} {prevDim : UInt64}
    {dims : List UInt64} {ws : List (Array2 F)} {bs : List (Array1 F)}
    (h : newLayers rng outputDim drawn prevDim dims = some (ws, bs)) :
    ws.length = dims.length + 1 ∧ bs.length = dims.length + 1 := by
  induction dims generalizing drawn prevDim ws bs with
  | nil =>
      simp only [newLayers, Option.bind_eq_bind, Option.bind_eq_some_iff] at h
      obtain ⟨⟨w, b, n⟩, -, h⟩ := h
      obtain ⟨rfl, rfl⟩ := Prod.mk.inj (Option.some_injective _ h)
      exact ⟨rfl, rfl⟩
  | cons dim dims ih =>
      simp only [newLayers, Option.bind_eq_bind, Option.bind_eq_some_iff] at h
      obtain ⟨⟨w, b, n⟩, -, ⟨ws', bs'⟩, hrest, h⟩ := h
      obtain ⟨rfl, rfl⟩ := Prod.mk.inj (Option.some_injective _ h)
      obtain ⟨hws, hbs⟩ := ih hrest
      exact ⟨congrArg Nat.succ hws, congrArg Nat.succ hbs⟩

/-- So a new model is complete. -/
theorem complete_new {config : C} {seed : UInt64} {m : Network C F}
    (h : new design random config seed = some m) : m.Complete design := by
  simp only [new, Option.bind_eq_bind, Option.bind_eq_some_iff] at h
  obtain ⟨⟨ws, bs⟩, hlayers, h⟩ := h
  obtain rfl := Option.some_injective _ h
  obtain ⟨hws, hbs⟩ := length_newLayers hlayers
  exact ⟨hws, hbs⟩

/-- **Every model has the layers its configuration says.** -/
theorem Reachable.complete {m : Network C F} (hm : Reachable random design bincode blake3 m) :
    m.Complete design := by
  induction hm with
  | new h => exact complete_new random h
  | update _ h ih =>
      have hframe := update_frame design h
      refine ⟨?_, ?_⟩
      · rw [hframe.config, hframe.length_weights, ih.weights]
      · rw [hframe.config, hframe.length_biases, ih.biases]
  | deserialize _ h _ =>
      obtain ⟨file, -, hfile, rfl⟩ := (deserialize_ok_iff design bincode blake3).mp h
      have hcount := hfile.count
      exact ⟨by simpa [ModelFile.network] using hcount, by simpa [ModelFile.network] using hcount⟩

/-- **Models are read back** by every receiver of their type. -/
theorem model_bytes_read_back {m : Network C F} (hm : Reachable random design bincode blake3 m)
    (hfits : m.Fits bincode) (r : Network C F) :
    ∃ r', deserialize design bincode blake3 r (m.serialize design bincode blake3) = (r', .ok ()) ∧
      r'.version = m.version ∧ r'.config = m.config ∧ r'.weights = m.weights ∧
      r'.biases = m.biases ∧ ∀ features, r'.infer features = m.infer features := by
  refine ⟨{ m with trainingSteps := r.trainingSteps }, ?_, rfl, rfl, rfl, rfl, fun _ => rfl⟩
  rw [← List.append_nil (m.serialize design bincode blake3)]
  exact deserialize_serialize_append hm.complete hfits r []

/-- A configuration without hidden layers, and without inputs and outputs. -/
def emptyConfig : DynamicTileTransformerConfig F32 where
  inputDim := 0
  hiddenDims := []
  outputDim := 0
  learningRate := .zero
  epsilon := .zero
  l2Lambda := .zero
  energyWeight := .zero
  performanceWeight := .zero
  fits := by decide

/-- Its model, which has no entry to draw. -/
def emptyModel : Network (DynamicTileTransformerConfig F32) F32 where
  config := emptyConfig
  weights := [⟨0, 0, [], rfl, by decide⟩]
  biases := [⟨[], by decide⟩]
  version := "1.0.0"
  trainingSteps := 0

/-- What `blake3` gives for the bytes of the empty model. -/
def emptyModelBlake3 : Blake3 where
  digest _ := [0x3c, 0x08, 0x24, 0x8f, 0xb4, 0xaa, 0xcd, 0x78, 0x2e, 0x64, 0xf5, 0xc4, 0xb5, 0xa6,
    0xe3, 0x7d, 0xd2, 0x64, 0xdd, 0xb1, 0x3c, 0x74, 0x41, 0xfd, 0xf7, 0x0b, 0x45, 0x20, 0xbf, 0x70,
    0x34, 0x7a]
  length_digest _ := rfl

/-- A model whose layers have no entries can be constructed. -/
theorem reachable_emptyModel {blake3 : Blake3} :
    Reachable (fun _ _ => .zero) (dynamicTileTransformer F32) dynamicTileTransformerBincode
      blake3 emptyModel := by
  have hnew : new (dynamicTileTransformer F32) (fun _ _ => .zero) emptyConfig 42 =
      some emptyModel := rfl
  exact .new hnew

/-- It has its one layer. -/
theorem complete_emptyModel : emptyModel.Complete (dynamicTileTransformer F32) := ⟨rfl, rfl⟩

/-- Its parts are short. -/
theorem fits_emptyModel : emptyModel.Fits dynamicTileTransformerBincode where
  version := by decide
  config := by decide
  layers := by decide

/-- Eight inputs, one hidden layer and three outputs. -/
def tileConfig : DynamicTileTransformerConfig F32 :=
  { emptyConfig with inputDim := 8, hiddenDims := [3], outputDim := 3, fits := by decide }

/-- One half, and the numbers after it. -/
def fromHalf (n : ℕ) : F32 := ⟨0x3f000000 + UInt32.ofNat n⟩

/-- The last layer of `tileModel`. -/
def scoreWeights : Array2 F32 := ⟨3, 3, (List.range 9).map fromHalf, rfl, by decide⟩

/-- A model whose parts all have different weights. -/
def tileModel : Network (DynamicTileTransformerConfig F32) F32 where
  config := tileConfig
  weights := [⟨3, 8, (List.range 24).map fromHalf, rfl, Array2.fits_three_eight⟩, scoreWeights]
  biases := [⟨(List.range 3).map fromHalf, by decide⟩, ⟨(List.range 3).map fromHalf, by decide⟩]
  version := "1.0.0"
  trainingSteps := 0

/-- What `blake3` gives for the bytes of this model. -/
def tileModelBlake3 : Blake3 where
  digest _ := [0xbc, 0x3f, 0x43, 0x83, 0xc0, 0xf7, 0xa8, 0x97, 0x35, 0x10, 0x08, 0xbc, 0x66, 0xee,
    0x1a, 0xb7, 0x83, 0x54, 0x86, 0x72, 0x7c, 0x27, 0x74, 0x86, 0xef, 0xe2, 0xc1, 0xbb, 0xf8, 0xa0,
    0x18, 0xe1]
  length_digest _ := rfl

/-- The model of eight features, three hidden units and three scores has its two layers. -/
theorem complete_tileModel : tileModel.Complete (dynamicTileTransformer F32) := ⟨rfl, rfl⟩

/-- Its parts are short as well. -/
theorem fits_tileModel : tileModel.Fits dynamicTileTransformerBincode where
  version := by decide
  config := by decide
  layers := by decide +kernel

/-- The empty model reads it, whatever `blake3` is. -/
theorem deserialize_tileModel {blake3 : Blake3} :
    deserialize (dynamicTileTransformer F32) dynamicTileTransformerBincode blake3 emptyModel
        (tileModel.serialize (dynamicTileTransformer F32) dynamicTileTransformerBincode blake3) =
      (tileModel, .ok ()) := by
  rw [← List.append_nil (tileModel.serialize _ _ _)]
  exact deserialize_serialize_append complete_tileModel fits_tileModel emptyModel []

/-- It is read back into a receiver that held something else. -/
theorem tile_model_read_back :
    ∃ r', deserialize (dynamicTileTransformer F32) dynamicTileTransformerBincode tileModelBlake3
        { emptyModel with version := "" }
        (tileModel.serialize (dynamicTileTransformer F32) dynamicTileTransformerBincode
          tileModelBlake3) = (r', .ok ()) ∧
      r'.version = tileModel.version ∧ r'.config = tileModel.config ∧
      r'.weights = tileModel.weights ∧ r'.biases = tileModel.biases ∧
      ∀ features, r'.infer features = tileModel.infer features :=
  model_bytes_read_back _ (.deserialize reachable_emptyModel deserialize_tileModel)
    fits_tileModel _

end reachable

end Network

end Synapse.IgpuMl
