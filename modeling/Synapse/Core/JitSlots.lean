import Synapse.Core.JitCache
import Synapse.Foundations.DirectMapped

/-!
# The slots of the JIT cache

The calls of `JITSpecializationCache` one after the other, against a direct-mapped map of
1024 slots.  A call alone takes the steps of `JitCache` without any other in between.

Two things come between.  The key of an empty slot is 0, so the entry of the hash 0
looks like none.  And `evict` clears the slot of its hash without a look at the key, so it
also removes the entry of another hash (`direct_mapped_iff`).

### Calls without others in between

`Core.JitCache` takes each store and each load as a step of its own.  A call by itself is a
run of these steps from its beginning to its end (`serial`), so the two modules are about one
model of the code and not two.  The specification is a map from slots to entries
(`Foundations.DirectMapped`), and the two differ in what an empty slot and an evicted one look
like.
-/

namespace Synapse.JITSpecializationCache

open Runs Calls DirectMapped

variable {Shader : Type*} [DecidableEq Shader]

/-- The steps of a call from its start to its return. -/
def actions (s : JITSpecializationCache Shader) : Op UInt64 Shader → List (Action Shader)
  | .insert contextHash shader => [.insert contextHash (some shader), .write, .write]
  | .evict contextHash => [.evict contextHash, .write, .write]
  | .get contextHash =>
      .get contextHash :: .advance s.gets.length ::
        if s.keys (slot contextHash) = contextHash ∧ contextHash ≠ 0 then
          [.advance s.gets.length]
        else []

/-- A call, from its first step to its last. -/
def serial (s : JITSpecializationCache Shader) (op : Op UInt64 Shader) :
    Option (JITSpecializationCache Shader) :=
  exec step s (s.actions op)

/-- A cache and the calls it has had, the last one first. -/
structure Logged (Shader : Type*) where
  cache : JITSpecializationCache Shader
  history : List (Op UInt64 Shader)

/-- A call, with the calls before it. -/
def serialStep (s : Logged Shader) (op : Op UInt64 Shader) : Option (Logged Shader) :=
  (s.cache.serial op).map fun cache => ⟨cache, op :: s.history⟩

/-- A new cache. -/
def logged (sourceHash : Shader → UInt64) : Logged Shader := ⟨create sourceHash, []⟩

/-! ## What is asked -/

/-- A `get` returns the shader of the last call that concerns its hash, if that inserted
the hash, and counts a collision if the slot is another's.  An `evict` leaves the
entries of other hashes. -/
def BehavesMapped (s : Logged Shader) (op : Op UInt64 Shader) : Prop :=
  ∀ s', serialStep s op = some s' →
    match op with
    | .insert _ _ => True
    | .evict contextHash => ∀ other shader, other ≠ contextHash →
        entry slot s.history (slot other) = some (other, shader) →
          s'.cache.keys (slot other) = other ∧ s'.cache.cache (slot other) = some shader
    | .get contextHash =>
        (∃ result, s'.cache.gets[s.cache.gets.length]? = some (.returned contextHash result) ∧
          ∀ shader, result = some shader ↔
            s.history.find? (concerns slot contextHash) = some (.insert contextHash shader)) ∧
        s'.cache.collisionCount =
          if isTaken slot s.history contextHash then s.cache.collisionCount + 1
          else s.cache.collisionCount

/-- A `get` does not come to a slot with the entry of the hash 0, and an `evict` not to a
slot with the entry of another hash. -/
def SparesEntries (s : Logged Shader) : Op UInt64 Shader → Prop
  | .insert _ _ => True
  | .evict contextHash => ∀ other shader,
      entry slot s.history (slot contextHash) = some (other, shader) → other = contextHash
  | .get contextHash => ∀ shader, entry slot s.history (slot contextHash) ≠ some (0, shader)

/-- The mask takes the lowest ten bits. -/
theorem slot_eq_mod (h : UInt64) : slot h = h.toNat % 1024 := by
  rw [slot, UInt64.toNat_and]
  exact Nat.and_two_pow_sub_one_eq_mod h.toNat 10

/-! ## One call -/

section Calls

variable {s : JITSpecializationCache Shader}

/-- An insertion alone. -/
theorem serial_insert (h : s.writer = .idle) (contextHash : UInt64) (shader : Shader) :
    s.serial (.insert contextHash shader) = some { s with
      keys := Function.update s.keys (slot contextHash) contextHash
      cache := Function.update s.cache (slot contextHash) (some shader)
      sourceHash := tag s.sourceHash contextHash (some shader)
      writer := .idle
      inserted := s.inserted ++ [(contextHash, shader)] } := by
  simp [serial, actions, exec, step, h, write]

/-- An eviction alone, which does not compare the key. -/
theorem serial_evict (h : s.writer = .idle) (contextHash : UInt64) :
    s.serial (.evict contextHash) = some { s with
      keys := Function.update s.keys (slot contextHash) 0
      cache := Function.update s.cache (slot contextHash) none
      writer := .idle } := by
  simp [serial, actions, exec, step, h, write]

/-- A look-up alone. -/
theorem serial_get (s : JITSpecializationCache Shader) (contextHash : UInt64) :
    s.serial (.get contextHash) = some { s with
      collisionCount :=
        if s.keys (slot contextHash) ≠ 0 ∧ s.keys (slot contextHash) ≠ contextHash then
          s.collisionCount + 1
        else s.collisionCount
      gets := s.gets ++ [.returned contextHash
        (if s.keys (slot contextHash) = contextHash ∧ contextHash ≠ 0 then
          s.cache (slot contextHash)
        else none)] } := by
  rw [serial, actions]
  by_cases hzero : s.keys (slot contextHash) = 0
  · have hnot : ¬ (s.keys (slot contextHash) = contextHash ∧ contextHash ≠ 0) :=
      fun h => h.2 (h.1.symm.trans hzero)
    rw [if_neg hnot, if_neg hnot, if_neg fun h => h.1 hzero]
    simp only [exec, step, List.getElem?_concat_length, Option.bind_some, advance, if_pos hzero,
      set_joined]
  · by_cases hkey : s.keys (slot contextHash) = contextHash
    · have hown : s.keys (slot contextHash) = contextHash ∧ contextHash ≠ 0 :=
        ⟨hkey, fun h => hzero (hkey.trans h)⟩
      rw [if_pos hown, if_pos hown, if_neg fun h => h.2 hkey]
      simp only [exec, step, List.getElem?_concat_length, Option.bind_some, advance, if_neg hzero,
        if_neg (not_not.mpr hkey), set_joined]
    · have hnot : ¬ (s.keys (slot contextHash) = contextHash ∧ contextHash ≠ 0) :=
        fun h => hkey h.1
      rw [if_neg hnot, if_neg hnot, if_pos ⟨hzero, hkey⟩]
      simp only [exec, step, List.getElem?_concat_length, Option.bind_some, advance, if_neg hzero,
        if_pos (show s.keys (slot contextHash) ≠ contextHash from hkey), set_joined]

end Calls

/-! ## The slots and the map -/

/-- What the arrays hold of an entry. -/
def Stores (s : JITSpecializationCache Shader) (i : ℕ) : Option (UInt64 × Shader) → Prop
  | none => s.keys i = 0
  | some e => s.keys i = e.1 ∧ s.cache i = some e.2

omit [DecidableEq Shader] in
/-- An entry stays where neither word of its slot is written. -/
theorem Stores.of_eq {s s' : JITSpecializationCache Shader} {i : ℕ}
    {e : Option (UInt64 × Shader)} (h : s.Stores i e) (hkey : s'.keys i = s.keys i)
    (hcache : s'.cache i = s.cache i) : s'.Stores i e := by
  cases e with
  | none => exact hkey.trans h
  | some e => exact ⟨hkey.trans h.1, hcache.trans h.2⟩

/-- What holds between the calls. -/
structure Follows (s : Logged Shader) : Prop where
  idle : s.cache.writer = .idle
  stores : ∀ i, s.cache.Stores i (entry slot s.history i)

variable {s s' : Logged Shader}

omit [DecidableEq Shader] in
/-- The empty cache and no calls. -/
theorem follows_logged (sourceHash : Shader → UInt64) : Follows (logged sourceHash) where
  idle := rfl
  stores _ := rfl

/-- A call that runs to its end is a step. -/
theorem serialStep_of_serial {op : Op UInt64 Shader} {cache : JITSpecializationCache Shader}
    (hserial : s.cache.serial op = some cache) (h : serialStep s op = some s') :
    s' = ⟨cache, op :: s.history⟩ := by
  rw [serialStep, hserial] at h
  exact (Option.some_injective _ h).symm

/-- An insertion replaces the entry of its slot. -/
theorem Follows.insert (h : Follows s) {contextHash : UInt64} {shader : Shader}
    (hstep : serialStep s (.insert contextHash shader) = some s') : Follows s' := by
  obtain rfl := serialStep_of_serial (serial_insert h.idle contextHash shader) hstep
  refine ⟨rfl, fun i => ?_⟩
  rw [entry]
  by_cases hi : slot contextHash = i
  · subst hi
    rw [if_pos rfl]
    exact ⟨Function.update_self _ _ _, Function.update_self _ _ _⟩
  · rw [if_neg hi]
    exact (h.stores i).of_eq (Function.update_of_ne (Ne.symm hi) _ _)
      (Function.update_of_ne (Ne.symm hi) _ _)

/-- An eviction that spares the entries of others. -/
theorem Follows.evict (h : Follows s) {contextHash : UInt64}
    (hspared : SparesEntries s (.evict contextHash))
    (hstep : serialStep s (.evict contextHash) = some s') : Follows s' := by
  obtain rfl := serialStep_of_serial (serial_evict h.idle contextHash) hstep
  refine ⟨rfl, fun i => ?_⟩
  by_cases hi : i = slot contextHash
  · subst hi
    rw [entry_evict_of_forall hspared]
    exact Function.update_self _ _ _
  · have hother : ∀ shader, entry slot s.history i ≠ some (contextHash, shader) :=
      fun shader hentry => hi (slot_of_entry hentry).symm
    rw [entry_evict_of_ne hother]
    exact (h.stores i).of_eq (Function.update_of_ne hi _ _) (Function.update_of_ne hi _ _)

/-- A look-up changes nothing but the count of collisions. -/
theorem Follows.get (h : Follows s) {contextHash : UInt64}
    (hstep : serialStep s (.get contextHash) = some s') : Follows s' := by
  obtain rfl := serialStep_of_serial (serial_get s.cache contextHash) hstep
  exact ⟨h.idle, fun i => (h.stores i).of_eq rfl rfl⟩

/-- An eviction behaves exactly if it spares the entries of others. -/
theorem Follows.behaves_evict_iff (h : Follows s) {contextHash : UInt64}
    (hstep : serialStep s (.evict contextHash) = some s') :
    BehavesMapped s (.evict contextHash) ↔ SparesEntries s (.evict contextHash) := by
  constructor
  · intro hbehaves other shader hentry
    by_contra hother
    have hslot := slot_of_entry hentry
    rw [← hslot] at hentry
    obtain ⟨-, hcache⟩ := hbehaves s' hstep other shader hother hentry
    obtain rfl := serialStep_of_serial (serial_evict h.idle contextHash) hstep
    have hcleared : Function.update s.cache.cache (slot contextHash) none (slot other) = none := by
      rw [hslot, Function.update_self]
    cases hcleared.symm.trans hcache
  · intro hspared s'' hstep' other shader hother hentry
    obtain rfl := serialStep_of_serial (serial_evict h.idle contextHash) hstep'
    have hne : slot other ≠ slot contextHash := by
      intro hslot
      rw [hslot] at hentry
      exact hother (hspared other shader hentry)
    have hstores := h.stores (slot other)
    rw [hentry] at hstores
    exact ⟨(Function.update_of_ne hne _ _).trans hstores.1,
      (Function.update_of_ne hne _ _).trans hstores.2⟩

/-- What a `get` returns. -/
def found (s : JITSpecializationCache Shader) (contextHash : UInt64) : Option Shader :=
  if s.keys (slot contextHash) = contextHash ∧ contextHash ≠ 0 then s.cache (slot contextHash)
  else none

/-- A `get` counts a collision. -/
def Collides (s : JITSpecializationCache Shader) (contextHash : UInt64) : Prop :=
  s.keys (slot contextHash) ≠ 0 ∧ s.keys (slot contextHash) ≠ contextHash

/-- Two counters go on alike if they count the same. -/
theorem count_eq_iff {p q : Prop} [Decidable p] [Decidable q] (count : UInt32) :
    (if p then count + 1 else count) = (if q then count + 1 else count) ↔ (p ↔ q) := by
  have hne : count + 1 ≠ count := by
    rw [ne_eq, add_eq_left]
    decide
  by_cases hp : p <;> by_cases hq : q <;> simp [hp, hq, hne, hne.symm]

/-- A lookup behaves if it finds what the map has, and counts what the map has of
others. -/
theorem behaves_get_iff_found {contextHash : UInt64}
    (hstep : serialStep s (.get contextHash) = some s') :
    BehavesMapped s (.get contextHash) ↔
      s.cache.found contextHash = lookup slot s.history contextHash ∧
        (s.cache.Collides contextHash ↔ isTaken slot s.history contextHash = true) := by
  obtain rfl := serialStep_of_serial (serial_get s.cache contextHash) hstep
  have hresult : (∀ shader, s.cache.found contextHash = some shader ↔
      s.history.find? (concerns slot contextHash) = some (.insert contextHash shader)) ↔
        s.cache.found contextHash = lookup slot s.history contextHash := by
    simp only [← lookup_eq_some_iff]
    exact ⟨Option.ext, fun heq shader => by rw [heq]⟩
  have hcount : ((if s.cache.keys (slot contextHash) ≠ 0 ∧
        s.cache.keys (slot contextHash) ≠ contextHash then s.cache.collisionCount + 1
        else s.cache.collisionCount) =
      if isTaken slot s.history contextHash then s.cache.collisionCount + 1
        else s.cache.collisionCount) ↔
      (s.cache.Collides contextHash ↔ isTaken slot s.history contextHash = true) :=
    count_eq_iff _
  rw [← hresult, ← hcount, BehavesMapped, hstep]
  simp only [Option.some.injEq, forall_eq', List.getElem?_concat_length, CacheGet.returned.injEq,
    true_and, exists_eq_left', found]

/-- A lookup behaves exactly if the slot does not have the entry of the hash 0. -/
theorem Follows.behaves_get_iff (h : Follows s) {contextHash : UInt64}
    (hstep : serialStep s (.get contextHash) = some s') :
    BehavesMapped s (.get contextHash) ↔ SparesEntries s (.get contextHash) := by
  rw [behaves_get_iff_found hstep, found, Collides, lookup, isTaken]
  have hstores := h.stores (slot contextHash)
  cases hentry : entry slot s.history (slot contextHash) with
  | none =>
      rw [hentry] at hstores
      have hkey : s.cache.keys (slot contextHash) = 0 := hstores
      refine iff_of_true ⟨?_, ?_⟩ fun shader => ?_
      · rw [hkey, if_neg fun hown => hown.2 hown.1.symm]
        rfl
      · exact iff_of_false (fun hcollides => hcollides.1 hkey) Bool.false_ne_true
      · rw [hentry]
        exact (Option.some_ne_none _).symm
  | some e =>
      obtain ⟨other, shader⟩ := e
      rw [hentry] at hstores
      obtain ⟨hkey, hcache⟩ := hstores
      replace hkey : s.cache.keys (slot contextHash) = other := hkey
      have hspares : SparesEntries s (.get contextHash) ↔ other ≠ 0 := by
        rw [SparesEntries, hentry]
        simp [Prod.ext_iff]
      rw [hspares, hkey, hcache]
      by_cases hown : other = contextHash
      · subst hown
        by_cases hzero : other = 0
        · simp [hzero]
        · simp [hzero]
      · simp [hown]

/-! ## Runs -/

/-- A call does what the map says, as long as it spares the entries of others. -/
theorem Follows.behaves_iff (h : Follows s) {op : Op UInt64 Shader}
    (hstep : serialStep s op = some s') : BehavesMapped s op ↔ SparesEntries s op := by
  cases op with
  | insert contextHash shader => exact iff_of_true (fun _ _ => trivial) trivial
  | evict contextHash => exact h.behaves_evict_iff hstep
  | get contextHash => exact h.behaves_get_iff hstep

/-- The step lemma. -/
theorem Follows.step (h : Follows s) {op : Op UInt64 Shader} (hspared : SparesEntries s op)
    (hstep : serialStep s op = some s') : Follows s' := by
  cases op with
  | insert contextHash shader => exact h.insert hstep
  | evict contextHash => exact h.evict hspared hstep
  | get contextHash => exact h.get hstep

/-- Every sequence of calls can be made. -/
theorem exists_run (sourceHash : Shader → UInt64) (ops : List (Op UInt64 Shader)) :
    ∃ s', exec serialStep (logged sourceHash) ops = some s' := by
  have hidle : ∀ (s : Logged Shader), ∀ op ∈ ops, s.cache.writer = .idle →
      ∃ s', serialStep s op = some s' ∧ s'.cache.writer = .idle := by
    intro s op _ h
    cases op with
    | insert contextHash shader =>
        exact ⟨_, congrArg (Option.map _) (serial_insert h contextHash shader), rfl⟩
    | evict contextHash => exact ⟨_, congrArg (Option.map _) (serial_evict h contextHash), rfl⟩
    | get contextHash => exact ⟨_, congrArg (Option.map _) (serial_get _ contextHash), h⟩
  obtain ⟨s', hexec, -⟩ := exists_exec serialStep hidle (follows_logged sourceHash).idle
  exact ⟨s', hexec⟩

/-- **The cache is a direct-mapped map** in a run exactly if no lookup comes to the entry of
the hash 0 and no eviction to the entry of another hash. -/
theorem direct_mapped_iff (sourceHash : Shader → UInt64) (ops : List (Op UInt64 Shader)) :
    Along serialStep BehavesMapped (logged sourceHash) ops ↔
      Along serialStep SparesEntries (logged sourceHash) ops :=
  along_iff_of_invariant serialStep (fun _ _ _ h hstep => h.behaves_iff hstep)
    (fun _ _ _ h hstep hbehaves => h.step ((h.behaves_iff hstep).mp hbehaves) hstep)
    (follows_logged sourceHash) ops

/-- The hash 0 is not found, and an eviction of 1025 removes the shader of 1. -/
theorem zero_not_found_and_other_evicted :
    ¬ Along serialStep BehavesMapped (logged fun _ : Bool => 0) [.insert 0 true, .get 0] ∧
      ¬ Along serialStep BehavesMapped (logged fun _ : Bool => 0)
        [.insert 1 true, .evict 1025] := by
  constructor
  · intro h
    have hbehaves := h [.insert 0 true] _ [] rfl _ _ rfl rfl _ rfl
    obtain ⟨⟨result, hresult, hfinds⟩, -⟩ := hbehaves
    have hnone : result = none := by
      cases hresult
      rfl
    rw [hnone] at hfinds
    exact absurd ((hfinds true).mpr rfl) nofun
  · intro h
    have hbehaves := h [.insert 1 true] _ [] rfl _ _ rfl rfl _ rfl 1 true (by decide) rfl
    exact absurd hbehaves.2 nofun

end Synapse.JITSpecializationCache
