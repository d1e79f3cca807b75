import Synapse.Foundations.Calls
import Synapse.Foundations.Runs

/-!
# `JITSpecializationCache`

The shader cache of `jit_specialization_cache.h`: `insert` and `evict` calls on one
background thread, one store at a time, and any number of `get` calls that load the
key of their slot and then its shader.

A slot keeps the key of the shader that was in it until the new key is stored, and a
`get` that has seen its key keeps trusting the slot.  So a shader may only be stored
where it goes with the key and with every such `get` (`Replaceable`).

### Two words for one slot

The source stores the shader of a slot and then its key, whether it fills the slot or empties
it, and `get` loads the key first.  The comment in the source says that a reader sees both or
neither; between the two stores it can see the old key with the new shader.  No invariant
excludes this, so the condition is put where the damage is done: a shader may be stored into a
slot whose key is free, or its own, and only while no `get` is on its way that has already
found a key of another shader there.

Which context a shader was made for is a field of the shader, written when it is inserted.
Shaders are shared, so in the model the field is a map of the state (`sourceHash`).
-/

namespace Synapse

open Runs Calls

/-- What the background thread is at. -/
inductive CacheWriter (Shader : Type*) where
  | idle
  | inserting (contextHash : UInt64) (shader : Option Shader)
  | storedShader (contextHash : UInt64)
  | evicting (contextHash : UInt64)
  | clearedShader (contextHash : UInt64)

/-- How far a `get` call has come. -/
inductive CacheGet (Shader : Type*) where
  | called (contextHash : UInt64)
  | matched (contextHash : UInt64)
  | returned (contextHash : UInt64) (shader : Option Shader)

/-- The two arrays, the tags of the shaders, the threads, and what has been passed to
`insert` so far.  A shader is named by its address. -/
structure JITSpecializationCache (Shader : Type*) where
  keys : ℕ → UInt64
  cache : ℕ → Option Shader
  collisionCount : UInt32
  sourceHash : Shader → UInt64
  writer : CacheWriter Shader
  gets : List (CacheGet Shader)
  inserted : List (UInt64 × Shader)

namespace JITSpecializationCache

variable {Shader : Type*}

/-- `CACHE_SIZE` -/
def CACHE_SIZE : UInt64 := 1024

/-- `slot(h)`. -/
def slot (h : UInt64) : ℕ := (h &&& (CACHE_SIZE - 1)).toNat

/-- A call of the writer begins or goes on, a `get` begins or goes on. -/
inductive Action (Shader : Type*) where
  | insert (contextHash : UInt64) (shader : Option Shader)
  | evict (contextHash : UInt64)
  | write
  | get (contextHash : UInt64)
  | advance (i : ℕ)

/-- The constructor. -/
def create (sourceHash : Shader → UInt64) : JITSpecializationCache Shader where
  keys _ := 0
  cache _ := none
  collisionCount := 0
  sourceHash := sourceHash
  writer := .idle
  gets := []
  inserted := []

/-- The next store of the background thread. -/
def write (s : JITSpecializationCache Shader) :
    CacheWriter Shader → Option (JITSpecializationCache Shader)
  | .idle => none
  | .inserting contextHash shader =>
      some { s with
        cache := Function.update s.cache (slot contextHash) shader
        writer := .storedShader contextHash }
  | .storedShader contextHash =>
      some { s with
        keys := Function.update s.keys (slot contextHash) contextHash
        writer := .idle }
  | .evicting contextHash =>
      some { s with
        cache := Function.update s.cache (slot contextHash) none
        writer := .clearedShader contextHash }
  | .clearedShader contextHash =>
      some { s with
        keys := Function.update s.keys (slot contextHash) 0
        writer := .idle }

/-- The next load of a `get`. -/
def advance (s : JITSpecializationCache Shader) (i : ℕ) :
    CacheGet Shader → Option (JITSpecializationCache Shader)
  | .called contextHash =>
      let storedKey := s.keys (slot contextHash)
      if storedKey = 0 then
        some { s with gets := s.gets.set i (.returned contextHash none) }
      else if storedKey ≠ contextHash then
        some { s with
          collisionCount := s.collisionCount + 1
          gets := s.gets.set i (.returned contextHash none) }
      else some { s with gets := s.gets.set i (.matched contextHash) }
  | .matched contextHash =>
      some { s with
        gets := s.gets.set i (.returned contextHash (s.cache (slot contextHash))) }
  | .returned _ _ => none

/-- `shader->source_hash = context_hash`, if there is a shader. -/
def tag [DecidableEq Shader] (sourceHash : Shader → UInt64) (contextHash : UInt64) :
    Option Shader → Shader → UInt64
  | some shader => Function.update sourceHash shader contextHash
  | none => sourceHash

/-- The background thread takes a call when it is idle. -/
def step [DecidableEq Shader] (s : JITSpecializationCache Shader) :
    Action Shader → Option (JITSpecializationCache Shader)
  | .insert contextHash shader =>
      match s.writer with
      | .idle =>
          some { s with
            sourceHash := tag s.sourceHash contextHash shader
            writer := .inserting contextHash shader
            inserted := s.inserted ++ shader.toList.map fun shader => (contextHash, shader) }
      | _ => none
  | .evict contextHash =>
      match s.writer with
      | .idle => some { s with writer := .evicting contextHash }
      | _ => none
  | .write => s.write s.writer
  | .get contextHash => some { s with gets := s.gets ++ [.called contextHash] }
  | .advance i => s.gets[i]?.bind (s.advance i)

/-! ## What is asked -/

/-- Every shader that a `get` has returned was passed to an `insert` with its hash. -/
def OwnShaders (s : JITSpecializationCache Shader) : Prop :=
  ∀ contextHash shader, .returned contextHash (some shader) ∈ s.gets →
    (contextHash, shader) ∈ s.inserted

/-- A shader is only stored over another if it has also been passed to an `insert` with
the key that the slot still has, and with the hash of every `get` that has found its
key there and is still to load the shader. -/
def Replaceable (s : JITSpecializationCache Shader) : Action Shader → Prop
  | .write =>
      match s.writer with
      | .inserting contextHash (some shader) =>
          (s.keys (slot contextHash) ≠ 0 →
              (s.keys (slot contextHash), shader) ∈ s.inserted) ∧
            ∀ other, .matched other ∈ s.gets → slot other = slot contextHash →
              (other, shader) ∈ s.inserted
      | _ => True
  | _ => True

/-! ## What a slot holds -/

/-- A shader in the slot was passed to an `insert` with the hash. -/
def Holds (s : JITSpecializationCache Shader) (i : ℕ) (contextHash : UInt64) : Prop :=
  ∀ shader, s.cache i = some shader → (contextHash, shader) ∈ s.inserted

/-- Keys, trusting `get` calls and the background thread go with what the slots hold. -/
structure Consistent (s : JITSpecializationCache Shader) : Prop where
  keyed : ∀ i, s.keys i ≠ 0 → s.Holds i (s.keys i)
  matched : ∀ c ∈ s.gets, ∀ contextHash, c = .matched contextHash →
    s.Holds (slot contextHash) contextHash
  inserting : ∀ contextHash shader, s.writer = .inserting contextHash (some shader) →
    (contextHash, shader) ∈ s.inserted
  stored : ∀ contextHash, s.writer = .storedShader contextHash →
    s.Holds (slot contextHash) contextHash
  returned : ∀ c ∈ s.gets, ∀ contextHash shader, c = .returned contextHash (some shader) →
    (contextHash, shader) ∈ s.inserted

variable {s s' : JITSpecializationCache Shader}

/-- An empty cache is consistent. -/
theorem consistent_create (sourceHash : Shader → UInt64) :
    (create sourceHash).Consistent where
  keyed _ h := absurd rfl h
  matched _ hc := absurd hc List.not_mem_nil
  inserting _ _ h := nomatch h
  stored _ h := nomatch h
  returned _ hc := absurd hc List.not_mem_nil

/-- What is inserted later does not matter to what a slot holds. -/
theorem Holds.insert {i : ℕ} {contextHash : UInt64} (h : s.Holds i contextHash)
    (sourceHash : Shader → UInt64) (writer : CacheWriter Shader)
    (more : List (UInt64 × Shader)) :
    Holds { s with
      sourceHash := sourceHash
      writer := writer
      inserted := s.inserted ++ more } i contextHash :=
  fun shader hshader => List.mem_append_left more (h shader hshader)

/-- A shader in a slot that is trusted for a hash has to have been inserted with it. -/
theorem Holds.store {i j : ℕ} {contextHash : UInt64} {shader : Option Shader}
    (h : s.Holds j contextHash)
    (hshader : j = i → ∀ x, shader = some x → (contextHash, x) ∈ s.inserted)
    (writer : CacheWriter Shader) :
    Holds { s with
      cache := Function.update s.cache i shader
      writer := writer } j contextHash := by
  intro x hx
  change Function.update s.cache i shader j = some x at hx
  rcases eq_or_ne j i with rfl | hne
  · rw [Function.update_self] at hx
    exact hshader rfl x hx
  · rw [Function.update_of_ne hne] at hx
    exact h x hx

/-- What the background thread takes is taken when it is idle. -/
theorem idle_of_taken {taken : JITSpecializationCache Shader}
    (h : (match s.writer with
      | .idle => some taken
      | _ => none) = some s') : s.writer = .idle ∧ s' = taken := by
  cases hwriter : s.writer with
  | idle =>
      rw [hwriter] at h
      exact ⟨rfl, (Option.some_injective _ h).symm⟩
  | inserting _ _ | storedShader _ | evicting _ | clearedShader _ =>
      rw [hwriter] at h
      cases h

/-- An insertion begins when the writer is idle. -/
theorem step_insert [DecidableEq Shader] {contextHash : UInt64} {shader : Option Shader}
    (h : s.step (.insert contextHash shader) = some s') : s.writer = .idle ∧ s' = { s with
      sourceHash := tag s.sourceHash contextHash shader
      writer := .inserting contextHash shader
      inserted := s.inserted ++ shader.toList.map fun shader => (contextHash, shader) } :=
  idle_of_taken h

/-- So does an eviction. -/
theorem step_evict [DecidableEq Shader] {contextHash : UInt64}
    (h : s.step (.evict contextHash) = some s') :
    s.writer = .idle ∧ s' = { s with writer := .evicting contextHash } :=
  idle_of_taken h

namespace Consistent

/-! ### The background thread -/

/-- Beginning an insertion changes no slot. -/
theorem insert (h : s.Consistent) (contextHash : UInt64) (shader : Option Shader)
    (sourceHash : Shader → UInt64) :
    Consistent { s with
      sourceHash := sourceHash
      writer := .inserting contextHash shader
      inserted := s.inserted ++ shader.toList.map fun shader => (contextHash, shader) } where
  keyed i hi := (h.keyed i hi).insert _ _ _
  matched c hc other heq := (h.matched c hc other heq).insert _ _ _
  inserting := by
    rintro _ shader ⟨⟩
    exact List.mem_append_right _ (List.mem_singleton_self _)
  stored := nofun
  returned c hc other shader heq := List.mem_append_left _ (h.returned c hc other shader heq)

/-- The shader of an insertion is stored where it goes with the key and the `get`
calls. -/
theorem storeShader (h : s.Consistent) {contextHash : UInt64} {shader : Option Shader}
    (hwriter : s.writer = .inserting contextHash shader)
    (hkey : ∀ x, shader = some x → s.keys (slot contextHash) ≠ 0 →
      (s.keys (slot contextHash), x) ∈ s.inserted)
    (hmatched : ∀ x, shader = some x → ∀ other, .matched other ∈ s.gets →
      slot other = slot contextHash → (other, x) ∈ s.inserted) :
    Consistent { s with
      cache := Function.update s.cache (slot contextHash) shader
      writer := .storedShader contextHash } where
  keyed i hi := (h.keyed i hi).store (fun heq x hx => heq ▸ hkey x hx (heq ▸ hi)) _
  matched := by
    rintro c hc other rfl
    exact (h.matched _ hc other rfl).store (fun heq x hx => hmatched x hx other hc heq) _
  inserting := nofun
  stored := by
    rintro _ ⟨⟩ x hx
    change Function.update s.cache (slot contextHash) shader (slot contextHash) = some x at hx
    rw [Function.update_self] at hx
    exact h.inserting contextHash x (by rw [hwriter, hx])
  returned := h.returned

/-- The key of an insertion goes with the shader that has been stored before it. -/
theorem storeKey (h : s.Consistent) {contextHash : UInt64}
    (hwriter : s.writer = .storedShader contextHash) :
    Consistent { s with
      keys := Function.update s.keys (slot contextHash) contextHash
      writer := .idle } where
  keyed i hi := by
    change Function.update s.keys (slot contextHash) contextHash i ≠ 0 at hi
    change s.Holds i (Function.update s.keys (slot contextHash) contextHash i)
    rcases eq_or_ne i (slot contextHash) with rfl | hne
    · rw [Function.update_self]
      exact h.stored contextHash hwriter
    · rw [Function.update_of_ne hne] at hi ⊢
      exact h.keyed i hi
  matched := h.matched
  inserting := nofun
  stored := nofun
  returned := h.returned

/-- Nor does beginning an eviction. -/
theorem evict (h : s.Consistent) (contextHash : UInt64) :
    Consistent { s with writer := .evicting contextHash } where
  keyed := h.keyed
  matched := h.matched
  inserting := nofun
  stored := nofun
  returned := h.returned

/-- A slot without a shader contradicts no key. -/
theorem clearShader (h : s.Consistent) (contextHash : UInt64) :
    Consistent { s with
      cache := Function.update s.cache (slot contextHash) none
      writer := .clearedShader contextHash } where
  keyed i hi := (h.keyed i hi).store (fun _ _ hx => absurd hx.symm (Option.some_ne_none _)) _
  matched c hc other heq :=
    (h.matched c hc other heq).store (fun _ _ hx => absurd hx.symm (Option.some_ne_none _)) _
  inserting := nofun
  stored := nofun
  returned := h.returned

/-- A slot without a key is trusted by nobody new. -/
theorem clearKey (h : s.Consistent) (contextHash : UInt64) :
    Consistent { s with
      keys := Function.update s.keys (slot contextHash) 0
      writer := .idle } where
  keyed i hi := by
    change Function.update s.keys (slot contextHash) 0 i ≠ 0 at hi
    change s.Holds i (Function.update s.keys (slot contextHash) 0 i)
    rcases eq_or_ne i (slot contextHash) with rfl | hne
    · rw [Function.update_self] at hi
      exact absurd rfl hi
    · rw [Function.update_of_ne hne] at hi ⊢
      exact h.keyed i hi
  matched := h.matched
  inserting := nofun
  stored := nofun
  returned := h.returned

/-- The writer's next store, where it is allowed. -/
theorem write (h : s.Consistent) (hfree : s.Replaceable .write)
    (hstep : s.write s.writer = some s') : s'.Consistent := by
  cases hwriter : s.writer with
  | idle =>
      rw [hwriter] at hstep
      cases hstep
  | inserting contextHash shader =>
      rw [hwriter] at hstep
      obtain rfl := Option.some_injective _ hstep
      simp only [Replaceable, hwriter] at hfree
      refine h.storeShader hwriter ?_ ?_
      · rintro x rfl
        exact hfree.1
      · rintro x rfl
        exact hfree.2
  | storedShader contextHash =>
      rw [hwriter] at hstep
      obtain rfl := Option.some_injective _ hstep
      exact h.storeKey hwriter
  | evicting contextHash =>
      rw [hwriter] at hstep
      obtain rfl := Option.some_injective _ hstep
      exact h.clearShader contextHash
  | clearedShader contextHash =>
      rw [hwriter] at hstep
      obtain rfl := Option.some_injective _ hstep
      exact h.clearKey contextHash

/-! ### The `get` calls -/

/-- A `get` gets on; it may trust its slot or return a shader if that is right. -/
theorem moved (h : s.Consistent) {old : Option (CacheGet Shader)} {new : CacheGet Shader}
    {gets : List (CacheGet Shader)} (hmoved : Moved s.gets old new gets)
    (hmatched : ∀ contextHash, new = .matched contextHash →
      s.Holds (slot contextHash) contextHash)
    (hreturned : ∀ contextHash shader, new = .returned contextHash (some shader) →
      (contextHash, shader) ∈ s.inserted) (collisionCount : UInt32) :
    Consistent { s with collisionCount := collisionCount, gets := gets } where
  keyed := h.keyed
  matched := hmoved.forall_mem h.matched hmatched
  inserting := h.inserting
  stored := h.stored
  returned := hmoved.forall_mem h.returned hreturned

/-- A `get` goes on with what it has loaded. -/
theorem advance (h : s.Consistent) {i : ℕ} {c : CacheGet Shader} (hcall : s.gets[i]? = some c)
    (hstep : s.advance i c = some s') : s'.Consistent := by
  cases c with
  | called contextHash =>
      rw [JITSpecializationCache.advance] at hstep
      split at hstep
      · obtain rfl := Option.some_injective _ hstep
        exact h.moved (moved_set hcall (.returned contextHash none)) nofun nofun _
      · rename_i hkey
        split at hstep
        · obtain rfl := Option.some_injective _ hstep
          exact h.moved (moved_set hcall (.returned contextHash none)) nofun nofun _
        · rename_i heq
          obtain rfl := Option.some_injective _ hstep
          refine h.moved (moved_set hcall (.matched contextHash)) ?_ nofun _
          rintro _ ⟨⟩
          have hholds := h.keyed _ hkey
          rw [not_not.mp heq] at hholds
          exact hholds
  | matched contextHash =>
      obtain rfl := Option.some_injective _ hstep
      refine h.moved
        (moved_set hcall (.returned contextHash (s.cache (slot contextHash)))) nofun ?_ _
      intro other shader heq
      injection heq with hother hshader
      subst hother
      exact h.matched _ (List.mem_of_getElem? hcall) contextHash rfl shader hshader
  | returned contextHash shader => cases hstep

/-- The step lemma. -/
theorem step [DecidableEq Shader] {a : Action Shader} (h : s.Consistent)
    (hfree : s.Replaceable a) (hstep : s.step a = some s') : s'.Consistent := by
  cases a with
  | insert contextHash shader =>
      obtain ⟨-, rfl⟩ := step_insert hstep
      exact h.insert contextHash shader _
  | evict contextHash =>
      obtain ⟨-, rfl⟩ := step_evict hstep
      exact h.evict contextHash
  | write => exact h.write hfree hstep
  | get contextHash =>
      obtain rfl := Option.some_injective _ hstep
      exact h.moved (moved_append s.gets (.called contextHash)) nofun nofun _
  | advance i =>
      obtain ⟨c, hcall, hadvance⟩ := Option.bind_eq_some_iff.mp hstep
      exact h.advance hcall hadvance

end Consistent

/-! ## Whole runs -/

variable [DecidableEq Shader]

/-- **Every shader that a `get` returns has its hash**, if shaders are only stored where
they go with what the slot is trusted for. -/
theorem own_shaders_of_replaceable {sourceHash : Shader → UInt64}
    {actions : List (Action Shader)} (h : exec step (create sourceHash) actions = some s)
    (hfree : Along step Replaceable (create sourceHash) actions) : s.OwnShaders := by
  have hconsistent : s.Consistent :=
    invariant_of_along step (fun _ _ _ hs ha hP => hs.step hP ha)
      (consistent_create sourceHash) hfree h
  exact fun contextHash shader hmem =>
    hconsistent.returned _ hmem contextHash shader rfl

/-- The slot of 1 and 1025 is evicted between the two insertions. -/
theorem own_shaders_evicted :
    ∃ s, exec step (create fun _ : ℕ => 0) [.insert 1 (some 10), .write, .write, .get 1,
      .advance 0, .advance 0, .evict 1, .write, .write, .insert 1025 (some 20), .write, .get 1,
      .advance 1, .write] = some s ∧
      s.gets = [.returned 1 (some 10), .returned 1 none] ∧ s.OwnShaders := by
  obtain ⟨s, hrun, hgets⟩ : ∃ s, exec step (create fun _ : ℕ => 0) [.insert 1 (some 10), .write,
      .write, .get 1, .advance 0, .advance 0, .evict 1, .write, .write, .insert 1025 (some 20),
      .write, .get 1, .advance 1, .write] = some s ∧
      s.gets = [.returned 1 (some 10), .returned 1 none] := ⟨_, rfl, rfl⟩
  refine ⟨s, hrun, hgets, own_shaders_of_replaceable hrun ?_⟩
  refine along_of_step step rfl trivial <| along_of_step step rfl ⟨nofun, nofun⟩ <|
    along_of_step step rfl trivial <| along_of_step step rfl trivial <|
    along_of_step step rfl trivial <| along_of_step step rfl trivial <|
    along_of_step step rfl trivial <| along_of_step step rfl trivial <|
    along_of_step step rfl trivial <| along_of_step step rfl trivial <|
    along_of_step step rfl ⟨?_, ?_⟩ <| along_of_step step rfl trivial <|
    along_of_step step rfl trivial <| along_of_step step rfl trivial <| along_nil step _ _
  · exact fun hkey => absurd rfl hkey
  · exact fun other hother => absurd (List.mem_singleton.mp hother) nofun

/-- A `get` of 1 falls between the two stores of an insertion with 1025. -/
theorem get_between_stores :
    ∃ s, exec step (create fun _ : ℕ => 0) [.insert 1 (some 10), .write, .write,
      .insert 1025 (some 20), .write, .get 1, .advance 0, .advance 0] = some s ∧
      s.gets = [.returned 1 (some 20)] ∧ s.inserted = [(1, 10), (1025, 20)] ∧
      ¬ s.OwnShaders := by
  obtain ⟨s, hrun, hgets, hinserted⟩ : ∃ s, exec step (create fun _ : ℕ => 0)
      [.insert 1 (some 10), .write, .write, .insert 1025 (some 20), .write, .get 1, .advance 0,
        .advance 0] = some s ∧
      s.gets = [.returned 1 (some 20)] ∧ s.inserted = [(1, 10), (1025, 20)] :=
    ⟨_, rfl, rfl, rfl⟩
  refine ⟨s, hrun, hgets, hinserted, fun h => ?_⟩
  have hmem := h 1 20 (hgets ▸ List.mem_singleton_self _)
  rw [hinserted] at hmem
  exact absurd hmem (by decide)

end JITSpecializationCache

end Synapse
