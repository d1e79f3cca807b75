import Synapse.Foundations.Numerals

/-!
# `AtomicConfig`

The snapshots of `atomic_config.h` and the object that holds the current one.  A
snapshot becomes current only if it validates, so the object carries that with it.

The methods here run without interference; the steps of concurrent updates are
taken one by one in `ConcurrentUpdates`.

### Two versions

A snapshot has a version of its own, and the object counts versions too.  `update` gives the
mutator a copy that has the next version in it, but the mutator may assign the whole snapshot,
and then the copy's version is what it says.
-/

namespace Synapse.Atomic

open Numerals

/-- A configuration, with the source's defaults. -/
structure ConfigSnapshot where
  version : UInt64 := 0
  powerBudgetWatts : UInt32 := 15
  thermalTargetCelsius : UInt32 := 80
  mlAggressive : Bool := true
  learningRate : Binary32 := .ofRatio 1 100
  epsilon : Binary32 := .ofRatio 1 20
  replayBufferSize : UInt32 := 4096
  jitEnabled : Bool := true
  haiEnabled : Bool := true
  telemetryEnabled : Bool := true
  deriving DecidableEq, Repr

/-- `AtomicConfig::validate`. -/
def ConfigSnapshot.validate (c : ConfigSnapshot) : Bool :=
  if c.powerBudgetWatts = 0 || c.powerBudgetWatts > 100 then false
  else if c.thermalTargetCelsius < 40 || c.thermalTargetCelsius > 105 then false
  else if c.learningRate.le .zero || Binary32.one.lt c.learningRate then false
  else if c.epsilon.lt .zero || Binary32.one.lt c.epsilon then false
  else if c.replayBufferSize < 256 || c.replayBufferSize > 65536 then false
  else true

/-- The defaults pass their own check. -/
theorem ConfigSnapshot.validate_default : ({} : ConfigSnapshot).validate = true := by decide

/-- The ranges a valid configuration stays within. -/
theorem ConfigSnapshot.validate_iff (c : ConfigSnapshot) :
    c.validate = true ↔
      (c.powerBudgetWatts ≠ 0 ∧ c.powerBudgetWatts ≤ 100) ∧
      (40 ≤ c.thermalTargetCelsius ∧ c.thermalTargetCelsius ≤ 105) ∧
      (c.learningRate.le .zero = false ∧ Binary32.one.lt c.learningRate = false) ∧
      (c.epsilon.lt .zero = false ∧ Binary32.one.lt c.epsilon = false) ∧
      256 ≤ c.replayBufferSize ∧ c.replayBufferSize ≤ 65536 := by
  unfold validate
  simp only [Bool.or_eq_true, decide_eq_true_eq, Bool.if_false_left, Bool.and_true,
    Bool.and_eq_true, Bool.not_eq_true', decide_eq_false_iff_not, not_or, Bool.not_eq_true,
    UInt32.not_lt, gt_iff_lt, ne_eq]

/-- The current snapshot, which is valid, and the version counter. -/
structure AtomicConfig where
  current : ConfigSnapshot
  version : UInt64
  valid : current.validate = true

namespace AtomicConfig

/-- The constructor. -/
def create : AtomicConfig where
  current := {}
  version := 0
  valid := ConfigSnapshot.validate_default

/-- A copy of the current snapshot. -/
def read (c : AtomicConfig) : ConfigSnapshot := c.current

/-- `update(mutator)`: whether the new snapshot is valid and so published. -/
def update (mutator : ConfigSnapshot → ConfigSnapshot) (c : AtomicConfig) : Bool × AtomicConfig :=
  let newSnapshot := mutator { c.current with version := c.version + 1 }
  if h : newSnapshot.validate = true then (true, ⟨newSnapshot, c.version + 1, h⟩)
  else (false, c)

/-- A mutation to something valid takes effect and raises the counter. -/
theorem update_of_valid {mutator : ConfigSnapshot → ConfigSnapshot} {c : AtomicConfig}
    (h : (mutator { c.current with version := c.version + 1 }).validate = true) :
    c.update mutator = (true, ⟨mutator { c.current with version := c.version + 1 },
      c.version + 1, h⟩) := dif_pos h

/-- The current snapshot after an update is the old one or the mutated copy. -/
theorem current_update (mutator : ConfigSnapshot → ConfigSnapshot) (c : AtomicConfig) :
    (c.update mutator).2.current = c.current ∨
      (c.update mutator).2.current = mutator { c.current with version := c.version + 1 } := by
  unfold update
  dsimp only
  split
  · exact Or.inr rfl
  · exact Or.inl rfl

end AtomicConfig

end Synapse.Atomic
