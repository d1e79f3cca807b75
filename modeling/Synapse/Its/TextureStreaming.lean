import Synapse.Layer.ImageRegistry

/-!
# `TextureStreamingEngineHardened`

The texture streaming engine in a simulation build, and the demand probability of the
`Analyzer`, as an exact number.

A mip is loaded when the demand is above 0.85.  The demand is the rate of the hits so far,
one half without any, and a hit needs a resident mip.  So nothing is ever loaded
(`never_starts`).

### Which build

Without `SYNAPSE_REAL_FENCE` every fence is complete, and a load makes the mip resident at
once.  The other builds ask the kernel about a fence, and are not modelled.  The power
estimator, which gets a log line in some builds, is left out: nothing here reads it.
-/

namespace Synapse.Its

open Layer

/-! ## The analyzer -/

/-- The counters of `update_its_stats`. -/
structure Analyzer where
  itsHits : UInt64 := 0
  itsMisses : UInt64 := 0

namespace Analyzer

/-- The analyzer with the engine's two counters. -/
def updateItsStats (hits misses : UInt64) : Analyzer where
  itsHits := hits
  itsMisses := misses

/-- `get_mip_demand_probability`, without rounding. -/
def getMipDemandProbability (a : Analyzer) : ℚ :=
  (a.itsHits.toNat + 1) / (a.itsHits.toNat + a.itsMisses.toNat + 2)

end Analyzer

/-! ## The engine -/

/-- The textures by image, and the three counters. -/
structure TextureStreamingEngineHardened where
  textures : VkImage → Option TextureObject
  cacheHits : UInt64 := 0
  cacheMisses : UInt64 := 0
  faultCount : UInt32 := 0

namespace TextureStreamingEngineHardened

/-- `0.85f`. -/
def kLoadThreshold : ℚ := 7130317 / 8388608

/-- `0.15f`. -/
def kEvictThreshold : ℚ := 5033165 / 33554432

/-- A load, which in simulation is complete at once. -/
def triggerAsyncLoad (mr : MipResidencyState) : MipResidencyState :=
  { mr with
    dmaFenceId := 1
    isResident := true }

/-- An eviction, likewise. -/
def triggerAsyncEviction (mr : MipResidencyState) : MipResidencyState :=
  { mr with
    isResident := false
    dmaFenceId := 0 }

/-- The loop over the mips. -/
def updateResidencyWithHysteresis (demand : ℚ) (tex : TextureObject) : TextureObject :=
  { tex with
    residency := tex.residency.map fun mr =>
      if !mr.isResident && demand > kLoadThreshold then triggerAsyncLoad mr
      else if mr.isResident && demand < kEvictThreshold then triggerAsyncEviction mr
      else mr }

/-- The fences of a simulation are always complete. -/
def hardwareFenceCompleted (_fenceId : UInt64) : Bool := true

variable (e : TextureStreamingEngineHardened)

/-- Registers an image, in place of what was registered for it. -/
def registerTexture (image : VkImage) (createInfo : VkImageCreateInfo) (textureId : UInt64) :
    TextureStreamingEngineHardened :=
  { e with textures := Function.update e.textures image (some (.build createInfo textureId)) }

/-- Moves the mips of an image by the demand; an unknown image is left alone. -/
def prepareForUse (analyzer : Analyzer) (image : VkImage) : TextureStreamingEngineHardened :=
  match e.textures image with
  | none => e
  | some tex =>
      { e with
        textures := Function.update e.textures image
          (some (updateResidencyWithHysteresis analyzer.getMipDemandProbability tex)) }

/-- A hit is counted. -/
def hit : TextureStreamingEngineHardened := { e with cacheHits := e.cacheHits + 1 }

/-- A miss is counted, and a fault. -/
def fault : TextureStreamingEngineHardened :=
  { e with
    cacheMisses := e.cacheMisses + 1
    faultCount := e.faultCount + 1 }

/-- The finest mip that is there, which is a hit, or the last one and a fault. -/
def getSafeMipLevel (image : VkImage) : UInt32 × TextureStreamingEngineHardened :=
  match e.textures image with
  | none => (0, e.fault)
  | some tex =>
      match tex.residency.findIdx? fun mr =>
        mr.isResident && hardwareFenceCompleted mr.dmaFenceId with
      | some i => (UInt32.ofNat i, e.hit)
      | none => (if tex.mipCount > 0 then tex.mipCount - 1 else 0, e.fault)

/-! ## Frames -/

/-- The streaming step of a frame of the core, with a number of queries behind it. -/
def frame (image : VkImage) (queries : ℕ) : TextureStreamingEngineHardened :=
  let analyzer := Analyzer.updateItsStats e.cacheHits e.cacheMisses
  (fun e => (e.getSafeMipLevel image).2)^[queries] (e.prepareForUse analyzer image)

/-- A fresh engine on which textures have been registered. -/
def registered (textures : List (VkImage × VkImageCreateInfo × UInt64)) :
    TextureStreamingEngineHardened :=
  textures.foldl (fun e t => e.registerTexture t.1 t.2.1 t.2.2) ⟨fun _ => none, 0, 0, 0⟩

/-- The engine after frames for an image. -/
def afterFrames (image : VkImage) (queries : List ℕ) : TextureStreamingEngineHardened :=
  queries.foldl (fun e k => e.frame image k) e

/-- Some mip of the image is resident. -/
def SomeMipResident (image : VkImage) : Prop :=
  ∃ tex, e.textures image = some tex ∧ ∃ mr ∈ tex.residency, mr.isResident = true

/-- Some frames make a mip of the image resident. -/
def CanStart (image : VkImage) : Prop :=
  ∃ queries, (e.afterFrames image queries).SomeMipResident image

/-! ## No hits, no loads -/

/-- Nothing is resident, and nothing has been hit. -/
structure Cold : Prop where
  notResident : ∀ image tex, e.textures image = some tex → ∀ mr ∈ tex.residency,
    mr.isResident = false
  noHits : e.cacheHits = 0

variable {e}

/-- Without hits the demand is not above one half. -/
theorem demand_le_half (misses : UInt64) :
    (Analyzer.updateItsStats 0 misses).getMipDemandProbability ≤ 1 / 2 := by
  have hmisses : (0 : ℚ) ≤ (misses.toNat : ℚ) := Nat.cast_nonneg _
  unfold Analyzer.getMipDemandProbability Analyzer.updateItsStats
  rw [div_le_div_iff₀ (by positivity) two_pos]
  push_cast
  linarith

/-- Without a hit the demand is at most one half. -/
theorem demand_lt_load (misses : UInt64) :
    ¬ (Analyzer.updateItsStats 0 misses).getMipDemandProbability > kLoadThreshold := by
  refine not_lt.mpr ((demand_le_half misses).trans ?_)
  unfold kLoadThreshold
  norm_num

namespace Cold

/-- Textures come in without resident mips. -/
theorem registerTexture (h : e.Cold) (image : VkImage) (createInfo : VkImageCreateInfo)
    (textureId : UInt64) : (e.registerTexture image createInfo textureId).Cold := by
  refine ⟨fun other tex htex mr hmr => ?_, h.noHits⟩
  change Function.update e.textures image _ other = some tex at htex
  rw [Function.update_apply, ite_eq_iff] at htex
  rcases htex with ⟨-, hnew⟩ | ⟨-, hold⟩
  · obtain rfl := Option.some_injective _ hnew
    rw [List.eq_of_mem_replicate hmr]
  · exact h.notResident other tex hold mr hmr

/-- No demand without hits loads a mip. -/
theorem prepareForUse (h : e.Cold) (misses : UInt64) (image : VkImage) :
    (e.prepareForUse (.updateItsStats 0 misses) image).Cold := by
  unfold TextureStreamingEngineHardened.prepareForUse
  split
  · exact h
  · rename_i tex htex
    refine ⟨fun other tex' htex' mr hmr => ?_, h.noHits⟩
    change Function.update e.textures image _ other = some tex' at htex'
    rw [Function.update_apply, ite_eq_iff] at htex'
    rcases htex' with ⟨-, hnew⟩ | ⟨-, hkept⟩
    · obtain rfl := Option.some_injective _ hnew
      obtain ⟨old, hold, rfl⟩ := List.mem_map.mp hmr
      have hnot := h.notResident image tex htex old hold
      rw [hnot, decide_eq_false (demand_lt_load misses), Bool.and_false, Bool.false_and,
        if_neg Bool.false_ne_true, if_neg Bool.false_ne_true]
      exact hnot
    · exact h.notResident other tex' hkept mr hmr

/-- Without a resident mip a query is a fault. -/
theorem getSafeMipLevel (h : e.Cold) (image : VkImage) :
    (e.getSafeMipLevel image).2 = e.fault := by
  unfold TextureStreamingEngineHardened.getSafeMipLevel
  split
  · rfl
  · rename_i tex htex
    have hnone : tex.residency.findIdx? (fun mr =>
        mr.isResident && hardwareFenceCompleted mr.dmaFenceId) = none := by
      refine List.findIdx?_eq_none_iff.mpr fun mr hmr => ?_
      rw [h.notResident image tex htex mr hmr, Bool.false_and]
    rw [hnone]

theorem iterate (h : e.Cold) (image : VkImage) (queries : ℕ) :
    ((fun e => (e.getSafeMipLevel image).2)^[queries] e).Cold := by
  induction queries generalizing e with
  | zero => exact h
  | succ queries ih =>
      rw [Function.iterate_succ_apply, h.getSafeMipLevel]
      exact ih ⟨h.notResident, h.noHits⟩

/-- A frame. -/
theorem frame (h : e.Cold) (image : VkImage) (queries : ℕ) : (e.frame image queries).Cold := by
  unfold TextureStreamingEngineHardened.frame
  rw [h.noHits]
  exact (h.prepareForUse e.cacheMisses image).iterate image queries

theorem afterFrames (h : e.Cold) (image : VkImage) (queries : List ℕ) :
    (e.afterFrames image queries).Cold := by
  induction queries generalizing e with
  | nil => exact h
  | cons k queries ih => exact ih (h.frame image k)

end Cold

theorem cold_registered (textures : List (VkImage × VkImageCreateInfo × UInt64)) :
    (registered textures).Cold := by
  have hfold : ∀ e : TextureStreamingEngineHardened, e.Cold →
      (textures.foldl (fun e t => e.registerTexture t.1 t.2.1 t.2.2) e).Cold := by
    induction textures with
    | nil => exact fun _ h => h
    | cons t textures ih => exact fun _ h => ih _ (h.registerTexture _ _ _)
  exact hfold _ ⟨nofun, rfl⟩

/-- While the engine is cold, no load can start. -/
theorem Cold.not_canStart (h : e.Cold) (image : VkImage) : ¬ e.CanStart image := by
  rintro ⟨queries, tex, htex, mr, hmr, hresident⟩
  rw [(h.afterFrames image queries).notResident image tex htex mr hmr] at hresident
  cases hresident

/-- **Texture streaming never starts**, whatever is registered and however many frames and
queries there are. -/
theorem never_starts (textures : List (VkImage × VkImageCreateInfo × UInt64)) (image : VkImage) :
    ¬ (registered textures).CanStart image :=
  (cold_registered textures).not_canStart image

/-- A texture of eight mips. -/
theorem eight_mips_never_resident :
    ((registered [(1, ⟨256, 256, 8⟩, 1)]).textures 1).isSome = true ∧
      ¬ (registered [(1, ⟨256, 256, 8⟩, 1)]).CanStart 1 :=
  ⟨rfl, (cold_registered _).not_canStart 1⟩

end TextureStreamingEngineHardened

end Synapse.Its
