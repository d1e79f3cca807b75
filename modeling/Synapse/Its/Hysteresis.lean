import Synapse.Its.TextureStreaming

/-!
# Hysteresis of the texture streaming engine

Runs of the engine in which textures come and go, transfers that others have made are
reported with `mark_dma_complete`, and frames and queries alternate.  As in
`TextureStreamingEngineHardened`, the build is the one for simulation, in which every fence is
complete, and the demand is the exact quotient of the counters.

A transfer of the engine is read off what `prepare_for_use` does to the residency of a mip, and
not off the thresholds (`Transfer.between`).  That the two agree is a lemma
(`transfers_prepareForUse`).

### Why the transfers hardly alternate

The engine loads on a demand above 0.85 and evicts on one below 0.15.  The demand is the
rate of all hits so far, so it takes five times as many hits as there were misses, or the
other way round, to get from one to the other (`five_mul_lt_of_load`,
`five_mul_lt_of_evict`).  The engine therefore changes between loading and evicting at most
logarithmically often (`switches_le`).
-/

namespace Synapse.Its

open Layer

/-- What the engine does to a mip on its own account. -/
inductive Transfer where
  | load
  | evict
  deriving DecidableEq

/-- The transfer between two states of a mip. -/
def Transfer.between (before after : MipResidencyState) : Option Transfer :=
  if !before.isResident && after.isResident then some .load
  else if before.isResident && !after.isResident then some .evict
  else none

/-- The transfers between two states of a texture, mip by mip. -/
def transfersBetween (before after : Option TextureObject) : List Transfer :=
  (before.bind fun tex => after.map fun tex' =>
    (List.zipWith Transfer.between tex.residency tex'.residency).reduceOption).getD []

/-- How often the transfers of a log change their kind, the latest transfer first. -/
def switches : List Transfer → ℕ
  | [] => 0
  | [_] => 0
  | x :: y :: log => (if x = y then 0 else 1) + switches (y :: log)

namespace TextureStreamingEngineHardened

variable (e : TextureStreamingEngineHardened)

/-- `unregister_texture` -/
def unregisterTexture (image : VkImage) : TextureStreamingEngineHardened :=
  { e with textures := Function.update e.textures image none }

/-- `mark_dma_complete`, which checks the mip level and not the fence. -/
def markDmaComplete (image : VkImage) (fenceId : UInt64) (mipLevel : UInt32) :
    TextureStreamingEngineHardened :=
  match e.textures image with
  | none => e
  | some tex =>
      if mipLevel ≥ tex.mipCount then e
      else { e with
        textures := Function.update e.textures image (some { tex with
          residency := tex.residency.modify mipLevel.toNat fun mr =>
            { mr with
              dmaFenceId := fenceId
              isResident := true } }) }

/-- The transfer that the loop over the mips requests for one of them. -/
def transferOf (demand : ℚ) (mr : MipResidencyState) : Option Transfer :=
  if !mr.isResident && demand > kLoadThreshold then some .load
  else if mr.isResident && demand < kEvictThreshold then some .evict
  else none

/-- `get_mip_demand_probability` after `update_its_stats` with the counters of the engine. -/
def demand : ℚ := (Analyzer.updateItsStats e.cacheHits e.cacheMisses).getMipDemandProbability

/-- The transfers that `prepare_for_use` requests. -/
def transfersFor (image : VkImage) : List Transfer :=
  ((e.textures image).map fun tex => tex.residency.filterMap (transferOf e.demand)).getD []

end TextureStreamingEngineHardened

open TextureStreamingEngineHardened

/-! ## Runs -/

/-- An engine with its own transfers so far, the latest first, and the number of queries.  A
transfer is noted when `prepare_for_use` has changed the residency of a mip. -/
structure StreamedEngine where
  engine : TextureStreamingEngineHardened
  log : List Transfer
  queries : ℕ

namespace StreamedEngine

/-- The calls of the engine. -/
inductive Action where
  | registerTexture (image : VkImage) (createInfo : VkImageCreateInfo) (textureId : UInt64)
  | unregisterTexture (image : VkImage)
  | markDmaComplete (image : VkImage) (fenceId : UInt64) (mipLevel : UInt32)
  | prepareForUse (image : VkImage)
  | getSafeMipLevel (image : VkImage)
  deriving DecidableEq

/-- No textures and no queries. -/
def create : StreamedEngine := ⟨⟨fun _ => none, 0, 0, 0⟩, [], 0⟩

/-- Before it prepares a texture the core passes the counters on to the analyzer. -/
def step (s : StreamedEngine) : Action → StreamedEngine
  | .registerTexture image createInfo textureId =>
      { s with engine := s.engine.registerTexture image createInfo textureId }
  | .unregisterTexture image => { s with engine := s.engine.unregisterTexture image }
  | .markDmaComplete image fenceId mipLevel =>
      { s with engine := s.engine.markDmaComplete image fenceId mipLevel }
  | .prepareForUse image =>
      let engine := s.engine.prepareForUse
        (.updateItsStats s.engine.cacheHits s.engine.cacheMisses) image
      { s with
        engine := engine
        log := (transfersBetween (s.engine.textures image) (engine.textures image)).reverse ++
          s.log }
  | .getSafeMipLevel image =>
      { s with
        engine := (s.engine.getSafeMipLevel image).2
        queries := s.queries + 1 }

/-- The engine behind a list of calls, with its log of transfers. -/
def run (actions : List Action) : StreamedEngine := actions.foldl step create

end StreamedEngine

/-! ## What a transfer takes -/

namespace Transfer

/-- What the loop over the mips does to one of them is the transfer that it requests. -/
theorem between_updated (demand : ℚ) (mr : MipResidencyState) :
    between mr (if !mr.isResident && demand > kLoadThreshold then triggerAsyncLoad mr
      else if mr.isResident && demand < kEvictThreshold then triggerAsyncEviction mr
      else mr) = transferOf demand mr := by
  unfold transferOf
  split_ifs with hload hevict
  · have hold := (Bool.and_eq_true_iff.mp hload).1
    exact if_pos ((Bool.and_true _).trans hold)
  · have hold := (Bool.and_eq_true_iff.mp hevict).1
    rw [between, hold]
    rfl
  · rw [between]
    cases mr.isResident <;> rfl

/-- What has to outweigh the other for a transfer: the hits, or the misses. -/
def weight (e : TextureStreamingEngineHardened) : Transfer → ℕ
  | load => e.cacheHits.toNat + 1
  | evict => e.cacheMisses.toNat + 1

end Transfer

variable {e : TextureStreamingEngineHardened}

/-- **The residency changes as requested**: what `prepare_for_use` does to the mips of a texture
are the transfers that the demand asks for. -/
theorem transfers_prepareForUse (e : TextureStreamingEngineHardened) (image : VkImage) :
    transfersBetween (e.textures image)
        ((e.prepareForUse (.updateItsStats e.cacheHits e.cacheMisses) image).textures image) =
      e.transfersFor image := by
  unfold prepareForUse transfersFor
  cases htex : e.textures image with
  | none => rfl
  | some tex =>
      dsimp only
      rw [Function.update_self, transfersBetween, Option.bind_some, Option.map_some,
        Option.map_some, Option.getD_some, Option.getD_some, updateResidencyWithHysteresis,
        List.zipWith_map_right, List.zipWith_self, List.reduceOption, List.filterMap_map]
      refine List.filterMap_congr fun mr _ => ?_
      exact Transfer.between_updated e.demand mr

/-- At a demand above the threshold for loads the hits outweigh the misses by five. -/
theorem five_mul_lt_of_load (h : e.demand > kLoadThreshold) :
    5 * (e.cacheMisses.toNat + 1) < e.cacheHits.toNat + 1 := by
  have hpos : (0 : ℚ) < e.cacheHits.toNat + e.cacheMisses.toNat + 2 := by positivity
  have hdemand : kLoadThreshold < (e.cacheHits.toNat + 1 : ℚ) /
      (e.cacheHits.toNat + e.cacheMisses.toNat + 2) := h
  rw [lt_div_iff₀ hpos, kLoadThreshold] at hdemand
  have hmisses : (0 : ℚ) ≤ e.cacheMisses.toNat := Nat.cast_nonneg _
  have hcast : (5 * (e.cacheMisses.toNat + 1) : ℚ) < e.cacheHits.toNat + 1 := by
    linarith
  exact_mod_cast hcast

/-- At a demand below the threshold for evictions the misses outweigh the hits by five. -/
theorem five_mul_lt_of_evict (h : e.demand < kEvictThreshold) :
    5 * (e.cacheHits.toNat + 1) < e.cacheMisses.toNat + 1 := by
  have hpos : (0 : ℚ) < e.cacheHits.toNat + e.cacheMisses.toNat + 2 := by positivity
  have hdemand : (e.cacheHits.toNat + 1 : ℚ) /
      (e.cacheHits.toNat + e.cacheMisses.toNat + 2) < kEvictThreshold := h
  rw [div_lt_iff₀ hpos, kEvictThreshold] at hdemand
  have hhits : (0 : ℚ) ≤ e.cacheHits.toNat := Nat.cast_nonneg _
  have hcast : (5 * (e.cacheHits.toNat + 1) : ℚ) < e.cacheMisses.toNat + 1 := by
    linarith
  exact_mod_cast hcast

/-- A transfer outweighs those of the other kind by five. -/
theorem five_mul_weight_le {image : VkImage} {x y : Transfer} (hx : x ∈ e.transfersFor image)
    (hne : x ≠ y) : 5 * y.weight e ≤ x.weight e := by
  unfold transfersFor at hx
  cases htex : e.textures image with
  | none =>
      rw [htex] at hx
      cases hx
  | some tex =>
      rw [htex] at hx
      obtain ⟨mr, -, hmr⟩ := List.mem_filterMap.mp hx
      unfold transferOf at hmr
      split at hmr
      · rename_i hload
        obtain rfl := Option.some_injective _ hmr
        have hdemand := of_decide_eq_true (Bool.and_eq_true_iff.mp hload).2
        cases y with
        | load => exact absurd rfl hne
        | evict => exact (five_mul_lt_of_load hdemand).le
      · split at hmr
        · rename_i hevict
          obtain rfl := Option.some_injective _ hmr
          have hdemand := of_decide_eq_true (Bool.and_eq_true_iff.mp hevict).2
          cases y with
          | load => exact (five_mul_lt_of_evict hdemand).le
          | evict => exact absurd rfl hne
        · cases hmr

/-- Each change of kind has multiplied the weight of the latest kind by five. -/
def Weighted (e : TextureStreamingEngineHardened) (log : List Transfer) : Prop :=
  ∀ x rest, log = x :: rest → 5 ^ switches log ≤ x.weight e

/-- One more transfer. -/
theorem Weighted.cons {log : List Transfer} (h : Weighted e log) {x : Transfer}
    (hx : ∀ y, x ≠ y → 5 * y.weight e ≤ x.weight e) : Weighted e (x :: log) := by
  rintro _ _ ⟨⟩
  cases log with
  | nil =>
      rw [switches, pow_zero]
      cases x <;> exact Nat.le_add_left _ _
  | cons y log =>
      have hlog := h y log rfl
      rw [switches]
      by_cases hxy : x = y
      · rw [if_pos hxy, zero_add, hxy]
        exact hlog
      · rw [if_neg hxy, pow_add, pow_one]
        exact (Nat.mul_le_mul_left 5 hlog).trans (hx y hxy)

/-- The transfers of a frame. -/
theorem Weighted.append {log : List Transfer} (h : Weighted e log) {new : List Transfer}
    (hnew : ∀ x ∈ new, ∀ y, x ≠ y → 5 * y.weight e ≤ x.weight e) :
    Weighted e (new ++ log) := by
  induction new with
  | nil => exact h
  | cons x new ih =>
      exact (ih fun y hy => hnew y (List.mem_cons_of_mem _ hy)).cons (hnew x List.mem_cons_self)

/-- Counters only grow. -/
theorem Weighted.mono {e' : TextureStreamingEngineHardened} {log : List Transfer}
    (h : Weighted e log) (hle : ∀ x : Transfer, x.weight e ≤ x.weight e') : Weighted e' log :=
  fun x rest heq => (h x rest heq).trans (hle x)

namespace StreamedEngine

variable {s : StreamedEngine}

/-- Every query is a hit or a miss, and the log is weighted. -/
structure Consistent (s : StreamedEngine) : Prop where
  counted : s.engine.cacheHits.toNat + s.engine.cacheMisses.toNat = s.queries
  weighted : Weighted s.engine s.log

/-- The counters agree with the queries that were made. -/
theorem consistent_create : create.Consistent := ⟨rfl, nofun⟩

/-- A counter that does not wrap. -/
theorem toNat_succ {n : UInt64} (h : n.toNat + 1 < 2 ^ 64) : (n + 1).toNat = n.toNat + 1 := by
  rw [UInt64.toNat_add, UInt64.toNat_one, Nat.mod_eq_of_lt h]

/-- A query is a hit or a miss. -/
theorem counted_getSafeMipLevel (e : TextureStreamingEngineHardened) (image : VkImage) :
    (e.getSafeMipLevel image).2 = e.hit ∨ (e.getSafeMipLevel image).2 = e.fault := by
  unfold TextureStreamingEngineHardened.getSafeMipLevel
  split
  · exact Or.inr rfl
  · split
    · exact Or.inl rfl
    · exact Or.inr rfl

/-- The counters are those before. -/
theorem counters_markDmaComplete (e : TextureStreamingEngineHardened) (image : VkImage)
    (fenceId : UInt64) (mipLevel : UInt32) :
    (e.markDmaComplete image fenceId mipLevel).cacheHits = e.cacheHits ∧
      (e.markDmaComplete image fenceId mipLevel).cacheMisses = e.cacheMisses := by
  unfold markDmaComplete
  split
  · exact ⟨rfl, rfl⟩
  · split <;> exact ⟨rfl, rfl⟩

/-- Preparing a texture is no query. -/
theorem counters_prepareForUse (e : TextureStreamingEngineHardened) (analyzer : Analyzer)
    (image : VkImage) : (e.prepareForUse analyzer image).cacheHits = e.cacheHits ∧
      (e.prepareForUse analyzer image).cacheMisses = e.cacheMisses := by
  unfold TextureStreamingEngineHardened.prepareForUse
  split <;> exact ⟨rfl, rfl⟩

/-- A query is a hit or a miss. -/
theorem Consistent.query (h : s.Consistent) (image : VkImage) (hbound : s.queries + 1 < 2 ^ 64) :
    (s.step (.getSafeMipLevel image)).Consistent := by
  have hcounted := h.counted
  show Consistent ⟨(s.engine.getSafeMipLevel image).2, s.log, s.queries + 1⟩
  rcases counted_getSafeMipLevel s.engine image with heq | heq
  · rw [heq]
    have hhits : (s.engine.cacheHits + 1).toNat = s.engine.cacheHits.toNat + 1 :=
      toNat_succ (by omega)
    refine ⟨?_, h.weighted.mono fun x => ?_⟩
    · show (s.engine.cacheHits + 1).toNat + s.engine.cacheMisses.toNat = s.queries + 1
      omega
    · cases x with
      | load =>
          show s.engine.cacheHits.toNat + 1 ≤ (s.engine.cacheHits + 1).toNat + 1
          omega
      | evict => exact le_rfl
  · rw [heq]
    have hmisses : (s.engine.cacheMisses + 1).toNat = s.engine.cacheMisses.toNat + 1 :=
      toNat_succ (by omega)
    refine ⟨?_, h.weighted.mono fun x => ?_⟩
    · show s.engine.cacheHits.toNat + (s.engine.cacheMisses + 1).toNat = s.queries + 1
      omega
    · cases x with
      | load => exact le_rfl
      | evict =>
          show s.engine.cacheMisses.toNat + 1 ≤ (s.engine.cacheMisses + 1).toNat + 1
          omega

/-- A step that leaves the counters alone, with transfers that the demand is for. -/
theorem Consistent.transfer (h : s.Consistent) {engine : TextureStreamingEngineHardened}
    (hcounters : engine.cacheHits = s.engine.cacheHits ∧
      engine.cacheMisses = s.engine.cacheMisses) (new : List Transfer)
    (hnew : ∀ x ∈ new, ∀ y, x ≠ y → 5 * y.weight s.engine ≤ x.weight s.engine) :
    Consistent ⟨engine, new ++ s.log, s.queries⟩ := by
  obtain ⟨hhits, hmisses⟩ := hcounters
  refine ⟨?_, (h.weighted.append hnew).mono fun x => ?_⟩
  · show engine.cacheHits.toNat + engine.cacheMisses.toNat = s.queries
    rw [hhits, hmisses]
    exact h.counted
  · show x.weight s.engine ≤ x.weight engine
    cases x with
    | load => rw [Transfer.weight, Transfer.weight, hhits]
    | evict => rw [Transfer.weight, Transfer.weight, hmisses]

/-- The step lemma. -/
theorem consistent_step (h : s.Consistent) (a : Action)
    (hbound : (s.step a).queries < 2 ^ 64) : (s.step a).Consistent := by
  cases a with
  | registerTexture image createInfo textureId =>
      have hcounters : (s.engine.registerTexture image createInfo textureId).cacheHits =
          s.engine.cacheHits ∧ (s.engine.registerTexture image createInfo textureId).cacheMisses =
            s.engine.cacheMisses := ⟨rfl, rfl⟩
      exact h.transfer hcounters [] nofun
  | unregisterTexture image =>
      have hcounters : (s.engine.unregisterTexture image).cacheHits = s.engine.cacheHits ∧
          (s.engine.unregisterTexture image).cacheMisses = s.engine.cacheMisses := ⟨rfl, rfl⟩
      exact h.transfer hcounters [] nofun
  | markDmaComplete image fenceId mipLevel =>
      exact h.transfer (counters_markDmaComplete s.engine image fenceId mipLevel) [] nofun
  | prepareForUse image =>
      refine h.transfer (counters_prepareForUse s.engine _ image) _ fun x hx y hne => ?_
      rw [List.mem_reverse, transfers_prepareForUse] at hx
      exact five_mul_weight_le hx hne
  | getSafeMipLevel image => exact h.query image hbound

/-- Queries are never taken back. -/
theorem queries_le_step (s : StreamedEngine) (a : Action) : s.queries ≤ (s.step a).queries := by
  cases a with
  | getSafeMipLevel image => exact Nat.le_succ _
  | registerTexture | unregisterTexture | markDmaComplete | prepareForUse => exact le_rfl

/-- The run lemma. -/
theorem consistent_run (actions : List Action) (hbound : (run actions).queries < 2 ^ 64) :
    (run actions).Consistent := by
  induction actions using List.reverseRecOn with
  | nil => exact consistent_create
  | append_singleton actions a ih =>
      have hrun : run (actions ++ [a]) = (run actions).step a := List.foldl_concat _ _ _ _
      rw [hrun] at hbound ⊢
      exact consistent_step (ih ((queries_le_step _ a).trans_lt hbound)) a hbound

/-- **Loads and evictions hardly alternate**: however textures come and go, whatever transfers
are reported and however frames and queries alternate, five to the number of changes between
loading and evicting is at most one more than the number of queries. -/
theorem switches_le (actions : List Action) (hbound : (run actions).queries < 2 ^ 64) :
    5 ^ switches (run actions).log ≤ (run actions).queries + 1 := by
  have hconsistent := consistent_run actions hbound
  have hcounted := hconsistent.counted
  cases hlog : (run actions).log with
  | nil => exact Nat.le_add_left _ _
  | cons x rest =>
      have hweight := hconsistent.weighted x rest hlog
      rw [hlog] at hweight
      refine hweight.trans ?_
      cases x with
      | load =>
          show (run actions).engine.cacheHits.toNat + 1 ≤ _
          omega
      | evict =>
          show (run actions).engine.cacheMisses.toNat + 1 ≤ _
          omega

/-- Hits on a texture that others have transferred load the mip of another one, which faults
then evict. -/
def loadedAndEvicted : List Action :=
  [.registerTexture 1 ⟨4, 4, 1⟩ 1, .registerTexture 2 ⟨4, 4, 1⟩ 2, .markDmaComplete 1 9 0] ++
    List.replicate 5 (.getSafeMipLevel 1) ++ [.prepareForUse 2] ++
      List.replicate 34 (.getSafeMipLevel 3) ++ [.prepareForUse 2]

/-- A texture that is evicted and loaded again. -/
theorem switches_le_evicted :
    (run loadedAndEvicted).log = [.evict, .load] ∧
      5 ^ switches (run loadedAndEvicted).log ≤ (run loadedAndEvicted).queries + 1 :=
  ⟨by decide +kernel, switches_le loadedAndEvicted (by decide +kernel)⟩

end StreamedEngine

end Synapse.Its
