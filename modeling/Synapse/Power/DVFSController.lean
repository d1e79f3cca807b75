import Synapse.Foundations.BinaryFormats

/-!
# `DVFSController`

The governor of `dvfs_controller.cpp`, whose two policies wait until more than
`kHysteresisFrames` frames have passed since the last switch.

The frames are counted from zero after every switch, and nothing counts them up
(`Waiting.step`).  So no policy ever switches, and the demanded state is reached exactly if
it is the current one already (`reachesDemand_iff`).

### Waiting

Both policies guard the switch with the number of frames since the last one.  The counter is a
field of the controller, set to 0 where a switch is completed, and no statement of the source
increments it.  `Waiting` is the invariant that it is 0 and no transition is under way; it
holds at the start and every call keeps it, so the guards are false in every reachable state.
The calls that set a state directly, for a stall or on demand of the caller, do not ask the
guard.
-/

namespace Synapse.Power

open Numerals

/-- The performance states. -/
inductive PState where
  | F0_MAX
  | F1_BALANCED
  | F2_EFFICIENT
  deriving DecidableEq, Repr

/-- Whether a transition is under way. -/
inductive DVFSState where
  | STEADY
  | TRANSITIONING
  deriving DecidableEq, Repr

/-- `DVFSController` -/
structure DVFSController where
  currentPState : PState := .F0_MAX
  pendingPState : PState := .F0_MAX
  state : DVFSState := .STEADY
  transitionEndUs : UInt64 := 0
  lastSwitchUs : UInt64 := 0
  framesSinceSwitch : UInt32 := 0
  performanceLocked : Bool := false
  deriving DecidableEq, Repr

namespace DVFSController

/-- How long a transition takes. -/
def kTransitionLockUs : UInt64 := 75

/-- How many frames lie between two switches. -/
def kHysteresisFrames : UInt32 := 5

/-- `40000.0`. -/
def kMaxDemand : Binary64 := ⟨0x40E3880000000000⟩

/-- `20000.0`. -/
def kBalancedDemand : Binary64 := ⟨0x40D3880000000000⟩

/-- `0.35f`. -/
def kTLow : Binary32 := ⟨0x3EB33333⟩

/-- `0.82f`. -/
def kTHigh : Binary32 := ⟨0x3F51EB85⟩

/-- `calculate_target`, by two bandwidths. -/
def calculateTarget (predictedMbS : Binary64) : PState :=
  if kMaxDemand.lt predictedMbS then .F0_MAX
  else if kBalancedDemand.lt predictedMbS then .F1_BALANCED
  else .F2_EFFICIENT

/-- `calculate_target_state`, which is balanced without confidence. -/
def calculateTargetState (predictedMbS : Binary64) (confidence : Binary32) : PState :=
  if kTHigh.le confidence then calculateTarget predictedMbS else .F1_BALANCED

variable (c : DVFSController)

/-- `is_hysteresis_satisfied`: enough frames and enough time. -/
def isHysteresisSatisfied (currentUs : UInt64) : Bool :=
  let framesOk := decide (c.framesSinceSwitch > kHysteresisFrames)
  let timeOk := decide (currentUs - c.lastSwitchUs > (kHysteresisFrames * 16667).toUInt64)
  framesOk && timeOk

/-- `initiate_transition` -/
def initiateTransition (target : PState) (startUs : UInt64) : DVFSController :=
  { c with
    state := .TRANSITIONING
    transitionEndUs := startUs + kTransitionLockUs
    pendingPState := target }

/-- `complete_transition` -/
def completeTransition : DVFSController :=
  { c with
    currentPState := c.pendingPState
    state := .STEADY
    lastSwitchUs := c.transitionEndUs
    framesSinceSwitch := 0 }

/-- `apply_hardware_state` -/
def applyHardwareState (target : PState) : DVFSController :=
  { c with
    currentPState := target
    framesSinceSwitch := 0 }

/-- `update_policy(current_us, predicted_mb_s)`, once per frame. -/
def updatePolicy (currentUs : UInt64) (predictedMbS : Binary64) : DVFSController :=
  if c.state = .TRANSITIONING then
    if currentUs ≥ c.transitionEndUs then c.completeTransition else c
  else if c.performanceLocked then c
  else
    let target := calculateTarget predictedMbS
    if target ≠ c.currentPState && c.isHysteresisSatisfied currentUs then
      c.initiateTransition target currentUs
    else c

/-- `update_policy(predicted_mb_s, confidence)`. -/
def updatePolicyConfident (predictedMbS : Binary64) (confidence : Binary32) : DVFSController :=
  if confidence.lt kTLow then c
  else if c.performanceLocked then c
  else
    let requested := calculateTargetState predictedMbS confidence
    if requested ≠ c.currentPState && c.framesSinceSwitch > kHysteresisFrames then
      c.applyHardwareState requested
    else c

/-- `handle_sync_stall`, which goes to the highest state at once. -/
def handleSyncStall : DVFSController := { c with state := .STEADY }.applyHardwareState .F0_MAX

/-- `force_performance_state` -/
def forcePerformanceState (target : PState) : DVFSController :=
  { c with performanceLocked := true }.applyHardwareState target

/-- `release_performance_lock` -/
def releasePerformanceLock : DVFSController := { c with performanceLocked := false }

end DVFSController

/-! ## Runs -/

open DVFSController

/-- The calls of the controller. -/
inductive Call where
  | updatePolicy (currentUs : UInt64) (predictedMbS : Binary64)
  | updatePolicyConfident (predictedMbS : Binary64) (confidence : Binary32)
  | handleSyncStall
  | forcePerformanceState (target : PState)
  | releasePerformanceLock

namespace DVFSController

/-- One call. -/
def step (c : DVFSController) : Call → DVFSController
  | .updatePolicy currentUs predictedMbS => c.updatePolicy currentUs predictedMbS
  | .updatePolicyConfident predictedMbS confidence =>
      c.updatePolicyConfident predictedMbS confidence
  | .handleSyncStall => c.handleSyncStall
  | .forcePerformanceState target => c.forcePerformanceState target
  | .releasePerformanceLock => c.releasePerformanceLock

/-- A new controller after some calls. -/
def afterCalls (calls : List Call) : DVFSController := calls.foldl step {}

/-- The frames of a constant demand, one after the other. -/
def afterFrames (c : DVFSController) (demand : Binary64) (times : List UInt64) : DVFSController :=
  times.foldl (fun c currentUs => c.updatePolicy currentUs demand) c

/-- The times at which one of the frames starts a transition. -/
def transitions (c : DVFSController) (demand : Binary64) : List UInt64 → List UInt64
  | [] => []
  | currentUs :: times =>
      let c' := c.updatePolicy currentUs demand
      (if c.state = .STEADY ∧ c'.state = .TRANSITIONING then [currentUs] else []) ++
        transitions c' demand times

/-! ## What is asked -/

/-- Twenty frames from the last switch on, each at least 16667 microseconds after the one
before. -/
structure TwentyFrames (lastSwitchUs : UInt64) (times : List UInt64) : Prop where
  length : times.length = 20
  start : ∀ t ∈ times, lastSwitchUs ≤ t
  advances : times.IsChain fun t t' => t.toNat + 16667 ≤ t'.toNat

/-- The frames end in the demanded state, with one transition at most, which does not come
before `kHysteresisFrames` frames have passed since the last switch. -/
structure ReachesDemand (c : DVFSController) (demand : Binary64) (times : List UInt64) : Prop where
  demanded : (c.afterFrames demand times).currentPState = calculateTarget demand
  once : (c.transitions demand times).length ≤ 1
  late : ∀ t ∈ c.transitions demand times,
    c.lastSwitchUs.toNat + kHysteresisFrames.toNat * 16667 ≤ t.toNat

/-! ## The frame counter -/

/-- No frame has been counted, and no transition is under way. -/
structure Waiting (c : DVFSController) : Prop where
  frames : c.framesSinceSwitch = 0
  steady : c.state = .STEADY

variable {c : DVFSController}

/-- A new controller waits. -/
theorem waiting_new : Waiting {} := ⟨rfl, rfl⟩

namespace Waiting

/-- Then the guard is false, whatever the time. -/
theorem not_isHysteresisSatisfied (h : c.Waiting) (currentUs : UInt64) :
    c.isHysteresisSatisfied currentUs = false := by
  rw [isHysteresisSatisfied, h.frames]
  rfl

/-- **A frame changes nothing.** -/
theorem updatePolicy (h : c.Waiting) (currentUs : UInt64) (predictedMbS : Binary64) :
    c.updatePolicy currentUs predictedMbS = c := by
  unfold DVFSController.updatePolicy
  rw [if_neg (by rw [h.steady]; exact nofun), h.not_isHysteresisSatisfied currentUs]
  dsimp only
  rw [Bool.and_false, if_neg Bool.false_ne_true, ite_self]

/-- And the confident policy does nothing. -/
theorem updatePolicyConfident (h : c.Waiting) (predictedMbS : Binary64) (confidence : Binary32) :
    c.updatePolicyConfident predictedMbS confidence = c := by
  have hframes : decide (c.framesSinceSwitch > kHysteresisFrames) = false := by
    rw [h.frames]
    rfl
  unfold DVFSController.updatePolicyConfident
  dsimp only
  rw [hframes, Bool.and_false, if_neg Bool.false_ne_true, ite_self, ite_self]

/-- The step lemma. -/
theorem step (h : c.Waiting) (call : Call) : (c.step call).Waiting := by
  cases call with
  | updatePolicy currentUs predictedMbS =>
      show (c.updatePolicy currentUs predictedMbS).Waiting
      rw [h.updatePolicy]
      exact h
  | updatePolicyConfident predictedMbS confidence =>
      show (c.updatePolicyConfident predictedMbS confidence).Waiting
      rw [h.updatePolicyConfident]
      exact h
  | handleSyncStall => exact ⟨rfl, rfl⟩
  | forcePerformanceState target => exact ⟨rfl, h.steady⟩
  | releasePerformanceLock => exact ⟨h.frames, h.steady⟩

/-- No sequence of calls gets the counter up. -/
theorem foldl (h : c.Waiting) (calls : List Call) :
    (calls.foldl DVFSController.step c).Waiting := by
  induction calls generalizing c with
  | nil => exact h
  | cons call calls ih => exact ih (h.step call)

/-- The frames of any demand are over without a switch. -/
theorem afterFrames (h : c.Waiting) (demand : Binary64) (times : List UInt64) :
    c.afterFrames demand times = c := by
  induction times with
  | nil => rfl
  | cons currentUs times ih =>
      show (c.updatePolicy currentUs demand).afterFrames demand times = c
      rw [h.updatePolicy]
      exact ih

/-- Nor does the other policy ever make a transition. -/
theorem transitions (h : c.Waiting) (demand : Binary64) (times : List UInt64) :
    c.transitions demand times = [] := by
  induction times with
  | nil => rfl
  | cons currentUs times ih =>
      rw [DVFSController.transitions, h.updatePolicy, ih, List.append_nil]
      refine if_neg ?_
      rintro ⟨-, htransitioning⟩
      rw [h.steady] at htransitioning
      cases htransitioning

end Waiting

/-- The run lemma. -/
theorem waiting_afterCalls (calls : List Call) : (afterCalls calls).Waiting :=
  waiting_new.foldl calls

/-- **The demanded state is reached** exactly if it is the current one already. -/
theorem reachesDemand_iff (calls : List Call) (demand : Binary64) (times : List UInt64) :
    (afterCalls calls).ReachesDemand demand times ↔
      (afterCalls calls).currentPState = calculateTarget demand := by
  have hwaiting := waiting_afterCalls calls
  constructor
  · intro h
    have hdemanded := h.demanded
    rw [hwaiting.afterFrames] at hdemanded
    exact hdemanded
  · intro h
    refine ⟨?_, ?_, ?_⟩
    · rw [hwaiting.afterFrames]
      exact h
    · rw [hwaiting.transitions]
      exact Nat.zero_le 1
    · rw [hwaiting.transitions]
      exact List.forall_mem_nil _

/-- A new governor stays at full speed under a demand of 5000 MB/s. -/
theorem low_demand_ignored :
    (afterCalls []).state = .STEADY ∧ (afterCalls []).performanceLocked = false ∧
      TwentyFrames (afterCalls []).lastSwitchUs
        ((List.range 20).map fun i => UInt64.ofNat (16667 * i)) ∧
      ¬ (afterCalls []).ReachesDemand ⟨0x40B3880000000000⟩
        ((List.range 20).map fun i => UInt64.ofNat (16667 * i)) := by
  refine ⟨rfl, rfl, ⟨rfl, fun t _ => UInt64.zero_le, by decide +kernel⟩, ?_⟩
  intro h
  have hdemanded := h.demanded
  rw [(waiting_afterCalls []).afterFrames] at hdemanded
  exact absurd hdemanded (by decide)

end DVFSController

end Synapse.Power
