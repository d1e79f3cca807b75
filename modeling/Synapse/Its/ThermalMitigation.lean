import Synapse.Its.ITSCacheController
import Synapse.Sync.SyncManager

/-!
# Thermal mitigation

`PolicyArbiter`, and the two engines it tells to shed load: `PredictiveEngine`, which
emits prefetch hints, and `SmoothingEngine`, which emits scheduler hints.

The arbiter sets a mip cap and suppresses boosts.  Neither is looked at where hints are
emitted: what a call emits does not depend on them (`hints_evaluateAndPredict`,
`SmoothingEngine.processForecast`).  So load is shed exactly as far as no other hints come up
(`shedsLoad_iff_spared`).

### Shedding that nobody sees

The arbiter's decision reaches the engines as two values, the mip cap and the flag that
suppresses boosts.  The emitting functions are modelled with the whole state in hand, and the
lemmas say what they emit as a function of the other parts of it.  So that load is shed means
that the hints of a call keep under the cap (`ShedsLoad`), and when they do depends on what
the call meets (`Spared`), not on the cap.

Floats are words here, with the comparison of the hardware on their bits; not a number
compares with nothing.
-/

namespace Synapse

open Runs Its Sync

/-! ## Single-precision numbers -/

/-- A `float`, by its bits. -/
structure Binary32 where
  bits : UInt32
  deriving DecidableEq

namespace Binary32

/-- The bits without the sign. -/
def magnitude (x : Binary32) : ℕ := x.bits.toNat % 2 ^ 31

/-- Not a number. -/
def isNaN (x : Binary32) : Bool := 0x7F800000 < x.magnitude

/-- Numbers are ordered by their magnitude bits, and negative ones the other way. -/
def toOrder (x : Binary32) : ℤ :=
  if x.bits.toNat < 2 ^ 31 then x.magnitude else -x.magnitude

/-- Comparisons with a NaN are false. -/
instance : LT Binary32 where
  lt x y := x.isNaN = false ∧ y.isNaN = false ∧ x.toOrder < y.toOrder

instance (x y : Binary32) : Decidable (x < y) := inferInstanceAs (Decidable (_ ∧ _ ∧ _))

end Binary32

/-! ## Hints and resources -/

/-- `Priority` -/
inductive Priority where
  | LOW
  | MEDIUM
  | HIGH
  | CRITICAL
  deriving DecidableEq, Repr

/-- What has been emitted through the builder. -/
inductive Hint where
  | prefetch (resourceId : UInt64) (targetMip totalMips : UInt32)
  | scheduler (priority : Priority) (expectedCycles : UInt32)
  deriving DecidableEq, Repr

/-- A prefetch hint that keeps to the mip cap. -/
def Hint.IsUnder (mipCap : UInt32) : Hint → Prop
  | .prefetch _ targetMip _ => mipCap ≤ targetMip
  | .scheduler _ _ => False

/-- `ResourceMeta` -/
structure ResourceMeta where
  isTexture : Bool := false
  sizeBytes : UInt64 := 0
  mipLevels : UInt32 := 1
  residentMips : UInt32 := 0

/-- `DescriptorTracker`: what is known of each resource. -/
structure DescriptorTracker where
  registry : UInt64 → Option ResourceMeta

/-- `get_metadata`, with the defaults for a resource that is not known. -/
def DescriptorTracker.getMetadata (tracker : DescriptorTracker) (resourceHandle : UInt64) :
    ResourceMeta :=
  (tracker.registry resourceHandle).getD {}

/-! ## `PredictiveEngine` -/

/-- The counters of `PredictiveEngine`. -/
structure PredictionStats where
  totalPredictions : UInt64 := 0
  accuratePredictions : UInt64 := 0
  wastedPredictions : UInt64 := 0

/-- `PredictiveEngine` -/
structure PredictiveEngine (σ : Type*) where
  temporalWindow : UInt32
  cacheController : ITSCacheController σ
  syncManager : SyncManager
  mipCap : UInt32 := 0
  activePredictions : List (UInt64 × UInt64) := []
  stats : PredictionStats := {}

namespace PredictiveEngine

variable {σ : Type*} (lookup : σ → UInt64 → UInt64 × σ)

/-- A prediction of the resource is active. -/
def isActive (e : PredictiveEngine σ) (resourceId : UInt64) : Bool :=
  e.activePredictions.any fun p => p.1 = resourceId

/-- Its prediction is erased. -/
def eraseActive (e : PredictiveEngine σ) (resourceId : UInt64) : PredictiveEngine σ :=
  { e with activePredictions := e.activePredictions.filter fun p => p.1 ≠ resourceId }

/-- Score keeping for a resource that is used. -/
def keepScore (e : PredictiveEngine σ) (resourceId : UInt64) : PredictiveEngine σ :=
  if e.isActive resourceId then
    { e.eraseActive resourceId with
      stats := { e.stats with accuratePredictions := e.stats.accuratePredictions + 1 } }
  else e

/-- The next mip level, where 0 is the highest detail. -/
def targetMip (r : ResourceMeta) : UInt32 := if r.residentMips > 0 then r.residentMips - 1 else 0

/-- After a cache miss: the prefetch hint, with the fence that it waits for. -/
def prefetch (currentFrame resourceId : UInt64) (r : ResourceMeta)
    (state : PredictiveEngine σ × List Hint) : PredictiveEngine σ × List Hint :=
  let e := state.1.eraseActive resourceId
  ({ e with
      syncManager :=
        e.syncManager.markPendingLoad resourceId (currentFrame + e.temporalWindow.toUInt64)
      activePredictions := e.activePredictions ++ [(resourceId, currentFrame)]
      stats := { e.stats with totalPredictions := e.stats.totalPredictions + 1 } },
    state.2 ++ [.prefetch resourceId (targetMip r) r.mipLevels])

/-- The body of the loop over the bound resources. -/
def predict (currentFrame : UInt64) (tracker : DescriptorTracker) (resourceId : UInt64)
    (state : PredictiveEngine σ × List Hint) : Option (PredictiveEngine σ × List Hint) :=
  let e := state.1.keepScore resourceId
  let r := tracker.getMetadata resourceId
  if r.isTexture && r.mipLevels > 1 then
    -- never the case, as the score has just been kept
    if e.isActive resourceId then some (e, state.2)
    else
      (e.cacheController.accessResource lookup resourceId r.sizeBytes).map fun accessed =>
        let e := { e with cacheController := accessed.2 }
        if accessed.1 then (e, state.2) else prefetch currentFrame resourceId r (e, state.2)
  else some (e, state.2)

/-- The loop. -/
def predictAll (currentFrame : UInt64) (tracker : DescriptorTracker) :
    List UInt64 → PredictiveEngine σ × List Hint → Option (PredictiveEngine σ × List Hint)
  | [], state => some state
  | resourceId :: rest, state =>
      (predict lookup currentFrame tracker resourceId state).bind
        (predictAll currentFrame tracker rest)

/-- Predictions that have not been used in time are pruned. -/
def prune (currentFrame : UInt64) (e : PredictiveEngine σ) : PredictiveEngine σ :=
  let isWasted := fun p : UInt64 × UInt64 =>
    decide (currentFrame > p.2 + e.temporalWindow.toUInt64 + 5)
  { e with
    activePredictions := e.activePredictions.filter fun p => !isWasted p
    stats := { e.stats with
      wastedPredictions :=
        e.stats.wastedPredictions + UInt64.ofNat (e.activePredictions.countP isWasted) } }

/-- `evaluate_and_predict`: the loop over the bound resources, and then the old predictions
are pruned. -/
def evaluateAndPredict (currentFrame : UInt64) (boundResources : List UInt64)
    (tracker : DescriptorTracker) (state : PredictiveEngine σ × List Hint) :
    Option (PredictiveEngine σ × List Hint) :=
  (predictAll lookup currentFrame tracker boundResources state).map fun state =>
    (state.1.prune currentFrame, state.2)

/-! ### The hints of an evaluation -/

/-- The textures of the list that are not in the cache when it is their turn. -/
def missedTextures (tracker : DescriptorTracker) :
    List UInt64 → ITSCacheController σ → List UInt64
  | [], _ => []
  | resourceId :: rest, cache =>
      let r := tracker.getMetadata resourceId
      if r.isTexture && r.mipLevels > 1 then
        match cache.accessResource lookup resourceId r.sizeBytes with
        | some (hit, cache) =>
            if hit then missedTextures tracker rest cache
            else resourceId :: missedTextures tracker rest cache
        | none => []
      else missedTextures tracker rest cache

/-- The hint for a missed texture. -/
def prefetchHint (tracker : DescriptorTracker) (resourceId : UInt64) : Hint :=
  .prefetch resourceId (targetMip (tracker.getMetadata resourceId))
    (tracker.getMetadata resourceId).mipLevels

/-- Scoring leaves the cache alone. -/
theorem keepScore_cacheController (e : PredictiveEngine σ) (resourceId : UInt64) :
    (e.keepScore resourceId).cacheController = e.cacheController := by
  unfold keepScore
  split <;> rfl

/-- A prediction that has been scored is not active any more. -/
theorem isActive_keepScore (e : PredictiveEngine σ) (resourceId : UInt64) :
    (e.keepScore resourceId).isActive resourceId = false := by
  unfold keepScore
  split
  · refine List.any_eq_false.mpr fun p hp => ?_
    have hne := (List.mem_filter.mp hp).2
    simpa using hne
  · rename_i hinactive
    exact Bool.eq_false_iff.mpr hinactive

/-- **An evaluation emits a hint for each missed texture**, in either mode. -/
theorem hints_predictAll {currentFrame : UInt64} {tracker : DescriptorTracker}
    {resources : List UInt64} {state state' : PredictiveEngine σ × List Hint}
    (h : predictAll lookup currentFrame tracker resources state = some state') :
    state'.2 = state.2 ++
      (missedTextures lookup tracker resources state.1.cacheController).map
        (prefetchHint tracker) := by
  induction resources generalizing state with
  | nil =>
      obtain rfl := Option.some_injective _ h
      exact (List.append_nil _).symm
  | cons resourceId rest ih =>
      obtain ⟨state₁, hpredict, hrest⟩ := Option.bind_eq_some_iff.mp h
      rw [ih hrest]
      unfold predict at hpredict
      dsimp only at hpredict
      rw [missedTextures]
      split at hpredict
      · rename_i htexture
        rw [isActive_keepScore, if_neg Bool.false_ne_true, keepScore_cacheController] at hpredict
        rw [if_pos htexture]
        obtain ⟨⟨hit, cache⟩, haccess, rfl⟩ := Option.map_eq_some_iff.mp hpredict
        rw [haccess]
        cases hit with
        | true => rfl
        | false => exact List.append_assoc _ _ _
      · rename_i hother
        rw [if_neg hother]
        obtain rfl := Option.some_injective _ hpredict
        rw [keepScore_cacheController]

/-- The hints of a call: one for each texture that the cache misses. -/
theorem hints_evaluateAndPredict {currentFrame : UInt64} {tracker : DescriptorTracker}
    {resources : List UInt64} {state state' : PredictiveEngine σ × List Hint}
    (h : evaluateAndPredict lookup currentFrame resources tracker state = some state') :
    state'.2 = state.2 ++
      (missedTextures lookup tracker resources state.1.cacheController).map
        (prefetchHint tracker) := by
  obtain ⟨state₁, hall, rfl⟩ := Option.map_eq_some_iff.mp h
  have hhints := hints_predictAll lookup hall
  exact hhints

/-- Scoring leaves the cap alone. -/
theorem mipCap_keepScore (e : PredictiveEngine σ) (resourceId : UInt64) :
    (e.keepScore resourceId).mipCap = e.mipCap := by
  unfold keepScore
  split <;> rfl

/-- So does the loop; nothing in it reads the cap. -/
theorem mipCap_predictAll {currentFrame : UInt64} {tracker : DescriptorTracker}
    {resources : List UInt64} {state state' : PredictiveEngine σ × List Hint}
    (h : predictAll lookup currentFrame tracker resources state = some state') :
    state'.1.mipCap = state.1.mipCap := by
  induction resources generalizing state with
  | nil =>
      obtain rfl := Option.some_injective _ h
      rfl
  | cons resourceId rest ih =>
      obtain ⟨state₁, hpredict, hrest⟩ := Option.bind_eq_some_iff.mp h
      rw [ih hrest, ← mipCap_keepScore state.1 resourceId]
      unfold predict at hpredict
      dsimp only at hpredict
      split at hpredict
      · split at hpredict
        · obtain rfl := Option.some_injective _ hpredict
          rfl
        · obtain ⟨⟨hit, cache⟩, -, rfl⟩ := Option.map_eq_some_iff.mp hpredict
          cases hit <;> rfl
      · obtain rfl := Option.some_injective _ hpredict
        rfl

/-- An evaluation leaves the mip cap alone. -/
theorem mipCap_evaluateAndPredict {currentFrame : UInt64} {tracker : DescriptorTracker}
    {resources : List UInt64} {state state' : PredictiveEngine σ × List Hint}
    (h : evaluateAndPredict lookup currentFrame resources tracker state = some state') :
    state'.1.mipCap = state.1.mipCap := by
  obtain ⟨state₁, hall, rfl⟩ := Option.map_eq_some_iff.mp h
  have hcap := mipCap_predictAll lookup hall
  exact hcap

/-- The cap of the arbiter is kept exactly by textures with three resident mips or more. -/
theorem two_le_targetMip_iff (r : ResourceMeta) : 2 ≤ targetMip r ↔ 3 ≤ r.residentMips := by
  unfold targetMip
  split
  · rename_i hpos
    have hone : (1 : UInt32) ≤ r.residentMips := UInt32.le_iff_toNat_le.mpr hpos
    rw [UInt32.le_iff_toNat_le, UInt32.le_iff_toNat_le, UInt32.toNat_sub_of_le _ _ hone]
    change 2 ≤ r.residentMips.toNat - 1 ↔ 3 ≤ r.residentMips.toNat
    omega
  · rename_i hnone
    refine iff_of_false (by decide) fun hthree => hnone ?_
    exact UInt32.lt_of_lt_of_le (by decide) hthree

end PredictiveEngine

/-! ## `SmoothingEngine` and `PolicyArbiter` -/

/-- `Forecast`, as far as it is read. -/
structure Forecast where
  confidence : Binary32

/-- `SmoothingEngine` -/
structure SmoothingEngine where
  suppressed : Bool := false
  proactiveBoosts : UInt32 := 0

/-- `0.75f`. -/
def COMPLEXITY_THRESHOLD : Binary32 := ⟨0x3F400000⟩

/-- `0.82f`. -/
def kHighConfidence : Binary32 := ⟨0x3F51EB85⟩

/-- `process_forecast`, with what the two placeholder methods return. -/
def SmoothingEngine.processForecast (shaderTrend : Binary32) (expectedCycles : UInt32)
    (f : Forecast) (state : SmoothingEngine × List Hint) : SmoothingEngine × List Hint :=
  if COMPLEXITY_THRESHOLD < shaderTrend ∧ kHighConfidence < f.confidence then
    ({ state.1 with proactiveBoosts := state.1.proactiveBoosts + 1 },
      state.2 ++ [.scheduler .HIGH expectedCycles])
  else state

/-- The modes of the arbiter. -/
inductive Mode where
  | STANDARD
  | THERMAL_MITIGATION
  deriving DecidableEq, Repr

/-- `PolicyArbiter` -/
structure PolicyArbiter where
  currentMode : Mode := .STANDARD
  thermalMitigationEvents : UInt32 := 0

/-- An arbiter and its engines on one builder.  `hot` says that the last headroom was below
the threshold. -/
structure ThermalSystem (σ : Type*) where
  arbiter : PolicyArbiter := {}
  smoothing : SmoothingEngine := {}
  predictive : PredictiveEngine σ
  hints : List Hint := []
  hot : Bool := false

namespace ThermalSystem

variable {σ : Type*} (lookup : σ → UInt64 → UInt64 × σ)

/-- `resolve_environmental_state`, under the platform's threshold. -/
def resolveEnvironmentalState (threshold thermalHeadroom : Binary32) (s : ThermalSystem σ) :
    ThermalSystem σ :=
  if thermalHeadroom < threshold then
    { s with
      arbiter := {
        currentMode := .THERMAL_MITIGATION
        thermalMitigationEvents := s.arbiter.thermalMitigationEvents + 1 }
      smoothing := { s.smoothing with suppressed := true }
      predictive := { s.predictive with mipCap := 2 }
      hot := true }
  else
    { s with
      arbiter := { s.arbiter with currentMode := .STANDARD }
      smoothing := { s.smoothing with suppressed := false }
      predictive := { s.predictive with mipCap := 0 }
      hot := false }

/-- The calls of the three. -/
inductive Call where
  | resolveEnvironmentalState (threshold thermalHeadroom : Binary32)
  | evaluateAndPredict (currentFrame : UInt64) (boundResources : List UInt64)
      (tracker : DescriptorTracker)
  | processForecast (shaderTrend : Binary32) (expectedCycles : UInt32) (f : Forecast)

/-- One call. -/
def step (s : ThermalSystem σ) : Call → Option (ThermalSystem σ)
  | .resolveEnvironmentalState threshold thermalHeadroom =>
      some (s.resolveEnvironmentalState threshold thermalHeadroom)
  | .evaluateAndPredict currentFrame boundResources tracker =>
      (PredictiveEngine.evaluateAndPredict lookup currentFrame boundResources tracker
        (s.predictive, s.hints)).map fun state => { s with predictive := state.1, hints := state.2 }
  | .processForecast shaderTrend expectedCycles f =>
      let state := SmoothingEngine.processForecast shaderTrend expectedCycles f
        (s.smoothing, s.hints)
      some { s with smoothing := state.1, hints := state.2 }

/-! ## What is asked -/

/-- While the last headroom was below the threshold, only hints under the mip cap are
emitted. -/
def ShedsLoad (s : ThermalSystem σ) (call : Call) : Prop :=
  s.hot = true → ∀ s', s.step lookup call = some s' → ∀ new, s'.hints = s.hints ++ new →
    ∀ hint ∈ new, hint.IsUnder s.predictive.mipCap

/-- While the last headroom was below the threshold, no texture is missed that has less
than three resident mips, and no forecast is confident of a compute spike. -/
def Spared (s : ThermalSystem σ) (call : Call) : Prop :=
  s.hot = true →
    match call with
    | .resolveEnvironmentalState _ _ => True
    | .evaluateAndPredict _ boundResources tracker =>
        ∀ resourceId ∈ PredictiveEngine.missedTextures lookup tracker boundResources
            s.predictive.cacheController,
          3 ≤ (tracker.getMetadata resourceId).residentMips
    | .processForecast shaderTrend _ f =>
        ¬ (COMPLEXITY_THRESHOLD < shaderTrend ∧ kHighConfidence < f.confidence)

/-- Under mitigation the cap is set. -/
def Capped (s : ThermalSystem σ) : Prop := s.hot = true → s.predictive.mipCap = 2

variable {lookup} {s s' : ThermalSystem σ} {call : Call}

/-- The cap is set by the arbiter alone, and kept. -/
theorem Capped.step (h : s.Capped) (hstep : s.step lookup call = some s') : s'.Capped := by
  cases call with
  | resolveEnvironmentalState threshold thermalHeadroom =>
      obtain rfl := Option.some_injective _ hstep
      unfold ThermalSystem.resolveEnvironmentalState Capped
      split
      · exact fun _ => rfl
      · exact fun hhot => nomatch hhot
  | evaluateAndPredict currentFrame boundResources tracker =>
      obtain ⟨state, hstate, rfl⟩ := Option.map_eq_some_iff.mp hstep
      exact fun hhot => (PredictiveEngine.mipCap_evaluateAndPredict lookup hstate).trans (h hhot)
  | processForecast shaderTrend expectedCycles f =>
      obtain rfl := Option.some_injective _ hstep
      exact h

/-- What the step emits is what is to be looked at. -/
theorem shedsLoad_iff_of_hints {emitted : List Hint} (hhot : s.hot = true)
    (hstep : s.step lookup call = some s') (hemitted : s'.hints = s.hints ++ emitted) :
    s.ShedsLoad lookup call ↔ ∀ hint ∈ emitted, hint.IsUnder s.predictive.mipCap := by
  constructor
  · intro hsheds
    exact hsheds hhot s' hstep emitted hemitted
  · intro hunder _ s'' hstep' new hnew
    obtain rfl := Option.some_injective _ (hstep.symm.trans hstep')
    rw [hemitted] at hnew
    exact List.append_cancel_left hnew ▸ hunder

/-- Under the cap a call sheds load exactly if it is spared. -/
theorem Capped.shedsLoad_iff (h : s.Capped) (hstep : s.step lookup call = some s') :
    s.ShedsLoad lookup call ↔ s.Spared lookup call := by
  by_cases hhot : s.hot = true
  · unfold Spared
    rw [imp_iff_right hhot]
    cases call with
    | resolveEnvironmentalState threshold thermalHeadroom =>
        have hsame : s'.hints = s.hints ++ [] := by
          obtain rfl := Option.some_injective _ hstep
          unfold ThermalSystem.resolveEnvironmentalState
          split <;> exact (List.append_nil _).symm
        rw [shedsLoad_iff_of_hints hhot hstep hsame]
        exact iff_of_true (List.forall_mem_nil _) trivial
    | evaluateAndPredict currentFrame boundResources tracker =>
        have hhints : s'.hints = s.hints ++
            (PredictiveEngine.missedTextures lookup tracker boundResources
              s.predictive.cacheController).map (PredictiveEngine.prefetchHint tracker) := by
          obtain ⟨state, hstate, rfl⟩ := Option.map_eq_some_iff.mp hstep
          exact PredictiveEngine.hints_evaluateAndPredict lookup hstate
        rw [shedsLoad_iff_of_hints hhot hstep hhints, List.forall_mem_map, h hhot]
        refine forall₂_congr fun resourceId _ => ?_
        exact PredictiveEngine.two_le_targetMip_iff (tracker.getMetadata resourceId)
    | processForecast shaderTrend expectedCycles f =>
        by_cases hboost : COMPLEXITY_THRESHOLD < shaderTrend ∧ kHighConfidence < f.confidence
        · have hboosted : s'.hints = s.hints ++ [.scheduler .HIGH expectedCycles] := by
            obtain rfl := Option.some_injective _ hstep
            simp only [SmoothingEngine.processForecast, if_pos hboost]
          rw [shedsLoad_iff_of_hints hhot hstep hboosted]
          exact iff_of_false (fun hall => hall _ (List.mem_singleton_self _)) (not_not_intro hboost)
        · have hsame : s'.hints = s.hints ++ [] := by
            obtain rfl := Option.some_injective _ hstep
            simp only [SmoothingEngine.processForecast, if_neg hboost, List.append_nil]
          rw [shedsLoad_iff_of_hints hhot hstep hsame]
          exact iff_of_true (List.forall_mem_nil _) hboost
  · exact iff_of_true (fun hhot' => absurd hhot' hhot) fun hhot' => absurd hhot' hhot

/-- Before the first headroom. -/
def start (temporalWindow : UInt32) (cache : ITSCacheController σ) (sync : SyncManager) :
    ThermalSystem σ where
  predictive := {
    temporalWindow := temporalWindow
    cacheController := cache
    syncManager := sync }

/-- **Mitigation sheds load exactly where there is none to shed.** -/
theorem shedsLoad_iff_spared (lookup : σ → UInt64 → UInt64 × σ) (temporalWindow : UInt32)
    (cache : ITSCacheController σ) (sync : SyncManager) (calls : List Call) :
    Along (step lookup) (ShedsLoad lookup) (start temporalWindow cache sync) calls ↔
      Along (step lookup) (Spared lookup) (start temporalWindow cache sync) calls :=
  along_iff_of_invariant _ (fun _ _ _ (hs : Capped _) hstep => hs.shedsLoad_iff hstep)
    (fun _ _ _ hs hstep _ => Capped.step hs hstep)
    (fun hhot => absurd hhot Bool.false_ne_true) calls

/-- With a tenth of the headroom left, the full detail of a texture is prefetched. -/
theorem prefetch_in_mitigation :
    ¬ Along (step fun _ _ => ((0 : UInt64), ())) (ShedsLoad fun _ _ => (0, ()))
      (start 3 (.create 1000 ()) .create)
      [.resolveEnvironmentalState ⟨0x3E4CCCCD⟩ ⟨0x3DCCCCCD⟩,
        .evaluateAndPredict 0 [7] ⟨fun _ => some ⟨true, 100, 8, 1⟩⟩] := by
  obtain ⟨s, s', hrun, hhot, hcap, hstep, hhints⟩ : ∃ s s', exec (step fun _ _ => (0, ()))
      (start 3 (.create 1000 ()) .create)
      [.resolveEnvironmentalState ⟨0x3E4CCCCD⟩ ⟨0x3DCCCCCD⟩] = some s ∧ s.hot = true ∧
      s.predictive.mipCap = 2 ∧
      s.step (fun _ _ => (0, ())) (.evaluateAndPredict 0 [7] ⟨fun _ => some ⟨true, 100, 8, 1⟩⟩) =
        some s' ∧ s'.hints = s.hints ++ [.prefetch 7 0 8] := by
    refine ⟨_, _, rfl, ?_, ?_, rfl, ?_⟩
    · decide
    · decide
    · rfl
  refine not_along _ hrun hstep (fun hsheds => ?_) []
  have hunder := hsheds hhot s' hstep _ hhints _ (List.mem_singleton_self _)
  rw [hcap] at hunder
  exact absurd hunder (show ¬ (2 : UInt32) ≤ 0 by decide)

end ThermalSystem

end Synapse
