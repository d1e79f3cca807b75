import Synapse.IgpuMl.ModelBytes

/-!
# Fields that are cut off

`deserialize` cuts its fields out of the bytes without looking how many there are, so it
panics as soon as one is not there as a whole.  A field that cannot be decoded ends it with an
error before that.

So it returns exactly if all fields are whole up to the first one that cannot be decoded
(`returns_iff_wholeFields`).

### Predicates instead of runs

A computation of `deserialize` has three outcomes: a value, an error that is returned, or a
panic, and only the last is to be excluded.  `Averted x Q` says that `x` does not panic and
that what it returns has `Q`; for a sequence of computations it is a predicate on predicates,
so the condition on the bytes is found by pushing `Q` through the function from its end to its
start (`averted_bind`).  Each reader has one lemma of this kind, and what comes out is a
statement about the bytes alone.
-/

namespace Synapse.IgpuMl

open ByteRecords

/-! ## Calls that return -/

namespace Failure

variable {α β : Type}

/-- No panic; and a value is one that leads to none. -/
def Averted (x : Except Failure α) (Q : α → Prop) : Prop :=
  match x with
  | .ok a => Q a
  | .error .panic => False
  | .error (.err _) => True

/-- Without a condition on the value it is the absence of a panic. -/
theorem averted_true_iff (x : Except Failure α) :
    Averted x (fun _ => True) ↔ x ≠ .error .panic := by
  rcases x with (_ | e) | a
  · exact iff_of_false id fun h => h rfl
  · exact iff_of_true trivial fun h => by cases h
  · exact iff_of_true trivial fun h => by cases h

/-- An error is the same, whatever value was to follow. -/
theorem averted_error (f : Failure) (Q : α → Prop) (R : β → Prop) :
    Averted (.error f) Q ↔ Averted (.error f) R := by
  cases f with
  | panic => exact Iff.rfl
  | err e => exact Iff.rfl

/-- The second computation's condition is asked of what the first one returns. -/
theorem averted_bind (x : Except Failure α) (f : α → Except Failure β) (Q : β → Prop) :
    Averted (x >>= f) Q ↔ Averted x fun a => Averted (f a) Q := by
  rcases x with (_ | e) | a
  · exact Iff.rfl
  · exact Iff.rfl
  · exact Iff.rfl

/-- A piece of known length is there. -/
theorem averted_take (n : ℕ) (rest : Bytes) (Q : Bytes × Bytes → Prop) :
    Averted (take n rest) Q ↔
      ∃ bytes rest', bytes.length = n ∧ rest = bytes ++ rest' ∧ Q (bytes, rest') := by
  constructor
  · intro h
    cases htaken : take n rest with
    | ok p =>
        rw [htaken] at h
        obtain ⟨hlength, hrest⟩ := take_eq_ok.mp htaken
        exact ⟨p.1, p.2, hlength, hrest, h⟩
    | error e =>
        unfold take at htaken
        split_ifs at htaken with hn
        obtain rfl := Except.error.inj htaken
        rw [take, if_neg hn] at h
        exact h.elim
  · rintro ⟨bytes, rest', hlength, hrest, hQ⟩
    rw [take_eq_ok.mpr ⟨hlength, hrest⟩]
    exact hQ

/-- A piece with its length in front of it is there. -/
theorem averted_takeFramed (n : ℕ) (rest : Bytes) (Q : Bytes × Bytes → Prop) :
    Averted (takeFramed n rest) Q ↔
      ∃ field rest', field.length < 256 ^ n ∧ rest = framed n field ++ rest' ∧
        Q (field, rest') := by
  constructor
  · intro h
    cases htaken : takeFramed n rest with
    | ok p =>
        rw [htaken] at h
        obtain ⟨hlength, hrest⟩ := takeFramed_eq_ok.mp htaken
        exact ⟨p.1, p.2, hlength, hrest, h⟩
    | error e =>
        -- the length, or what comes after it, is cut off
        rw [takeFramed, averted_bind, averted_take] at h
        obtain ⟨length, behind, hlength, hbehind, hfield⟩ := h
        rw [averted_take] at hfield
        obtain ⟨field, rest', hfield, hrest, -⟩ := hfield
        have hok : takeFramed n rest = .ok (field, rest') := by
          refine Except.bind_eq_ok.mpr ⟨(length, behind), ?_, ?_⟩
          · exact take_eq_ok.mpr ⟨hlength, hbehind⟩
          · exact take_eq_ok.mpr ⟨hfield, hrest⟩
        rw [hok] at htaken
        cases htaken
  · rintro ⟨field, rest', hlength, hrest, hQ⟩
    rw [takeFramed_eq_ok.mpr ⟨hlength, hrest⟩]
    exact hQ

/-- `bincode` does not panic; what it cannot decode is an error. -/
theorem averted_bincodeDeserialize (codec : Codec α) (bytes : Bytes) (Q : α → Prop) :
    Averted (bincodeDeserialize codec bytes) Q ↔
      ∀ v, (∃ slack, bytes = codec.serialize v ++ slack) → Q v := by
  simp only [← bincodeDeserialize_eq_ok]
  unfold bincodeDeserialize
  cases codec.deserialize bytes with
  | error e => exact iff_of_true trivial fun v h => by cases h
  | ok v =>
      constructor
      · intro h w hw
        obtain rfl := Except.ok.inj hw
        exact h
      · intro h
        exact h v rfl

end Failure

/-! ## Whole fields -/

/-- There is a field, behind its length of `n` bytes; and if it decodes to a value, then what
follows is as `next` says. -/
def WholeField {α : Type} (n : ℕ) (Encodes : α → Bytes → Prop) (next : α → Bytes → Prop)
    (bytes : Bytes) : Prop :=
  ∃ field rest, field.length < 256 ^ n ∧ bytes = framed n field ++ rest ∧
    ∀ v, Encodes v field → next v rest

/-- The field starts with the encoding of the value. -/
def Starts {α : Type} (codec : Codec α) (v : α) (field : Bytes) : Prop :=
  ∃ slack, field = codec.serialize v ++ slack

namespace Network

variable {C F : Type} (design : Design C F) (bincode : Bincode C F) (blake3 : Blake3)

/-- The fields of `n` layers. -/
def WholeLayers : ℕ → Bytes → Prop
  | 0, _ => True
  | n + 1, rest =>
      WholeField 4 (Starts bincode.array2)
        (fun _ => WholeField 4 (Starts bincode.array1) fun _ rest => WholeLayers n rest) rest

/-- The checksum and the fields behind it. -/
def WholeBody (rest : Bytes) : Prop :=
  ∃ checksum rest', checksum.length = 32 ∧ rest = checksum ++ rest' ∧
    WholeField 4 (Starts bincode.config)
      (fun config => WholeLayers bincode ((design.hiddenDims config).length + 1)) rest'

/-- Every field is whole, up to the first one that cannot be decoded. -/
def WholeFields (bytes : Bytes) : Prop :=
  WholeField 2 (fun version text => text = utf8 version) (fun _ => WholeBody design bincode) bytes

open Failure

/-- A part is there, and if it can be decoded the rest goes on. -/
theorem averted_readPart {α : Type} (codec : Codec α) (rest : Bytes) (next : α → Bytes → Prop) :
    Averted (readPart codec rest) (fun p => next p.1 p.2) ↔
      WholeField 4 (Starts codec) next rest := by
  unfold readPart
  rw [averted_bind, averted_takeFramed]
  simp only [averted_bind, averted_bincodeDeserialize]
  exact Iff.rfl

/-- The version is there, and if it is text the rest goes on. -/
theorem averted_readVersion (bytes : Bytes) (next : String → Bytes → Prop) :
    Averted (readVersion bytes) (fun p => next p.1 p.2) ↔
      WholeField 2 (fun version text => text = utf8 version) next bytes := by
  unfold readVersion
  rw [averted_bind, averted_takeFramed]
  refine exists₂_congr fun text rest => and_congr_right fun _ => and_congr_right fun _ => ?_
  simp only [← fromUtf8_eq_some]
  cases fromUtf8 text with
  | none => exact iff_of_true trivial fun v h => by cases h
  | some version =>
      constructor
      · intro h v hv
        obtain rfl := Option.some_injective _ hv
        exact h
      · intro h
        exact h version rfl

/-- The checksum and the configuration. -/
theorem averted_readConfig (rest : Bytes) (next : C → Bytes → Prop) :
    Averted (readConfig bincode rest) (fun p => next p.1.2.2 p.2) ↔
      ∃ checksum rest', checksum.length = 32 ∧ rest = checksum ++ rest' ∧
        WholeField 4 (Starts bincode.config) next rest' := by
  unfold readConfig
  rw [averted_bind, averted_take]
  simp only [averted_bind, averted_takeFramed, averted_bincodeDeserialize]
  exact Iff.rfl

/-- The loop over the layers. -/
theorem averted_readLayers (n : ℕ) (m : Network C F) (rest hashed : Bytes) :
    Averted (readLayers bincode n m rest hashed).2 (fun _ => True) ↔
      WholeLayers bincode n rest := by
  induction n generalizing m rest hashed with
  | zero => exact Iff.rfl
  | succ n ih =>
      rw [readLayers, WholeLayers, ← averted_readPart]
      cases readPart bincode.array2 rest with
      | error f => exact averted_error f _ _
      | ok p =>
          obtain ⟨w, rest₁⟩ := p
          show _ ↔ WholeField 4 (Starts bincode.array1) (fun _ => WholeLayers bincode n) rest₁
          rw [← averted_readPart]
          dsimp only
          cases readPart bincode.array1 rest₁ with
          | error f => exact averted_error f _ _
          | ok q => exact ih _ _ _

/-- **`deserialize` returns** exactly if every field is whole up to the first one that cannot be
decoded. -/
theorem returns_iff_wholeFields (m : Network C F) (bytes : Bytes) :
    (deserialize design bincode blake3 m bytes).2 ≠ .error .panic ↔
      WholeFields design bincode bytes := by
  rw [← averted_true_iff, WholeFields, ← averted_readVersion]
  unfold deserialize
  cases readVersion bytes with
  | error f => exact averted_error f _ _
  | ok p =>
      obtain ⟨version, rest⟩ := p
      show _ ↔ WholeBody design bincode rest
      unfold WholeBody
      rw [← averted_readConfig]
      dsimp only
      cases readConfig bincode rest with
      | error f => exact averted_error f _ _
      | ok q =>
          obtain ⟨⟨expected, configBytes, config⟩, rest₁⟩ := q
          refine Iff.trans ?_ (averted_readLayers bincode ((design.hiddenDims config).length + 1)
            { m with version := version, config := config, weights := [], biases := [] } rest₁
            configBytes)
          dsimp only
          -- what is read is compared with the checksum, which is an error at most
          split
          · rename_i m₁ f heq
            rw [heq]
            exact averted_error f _ _
          · rename_i m₁ hashed heq
            rw [heq]
            split_ifs
            · exact Iff.rfl
            · exact Iff.rfl

/-- There is no length in an empty file. -/
theorem empty_bytes_panic :
    ¬ ∀ (m : Network (DynamicTileTransformerConfig F32) F32) (bytes : Bytes),
      (deserialize (dynamicTileTransformer F32) dynamicTileTransformerBincode emptyModelBlake3 m
        bytes).2 ≠ .error .panic := by
  intro h
  exact h emptyModel [] rfl

end Network

end Synapse.IgpuMl
