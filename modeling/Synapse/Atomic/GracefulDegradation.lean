import Mathlib

/-!
# Feature flags

`GracefulDegradation` of `graceful_degradation.h`: a map from feature names to
their state and one to their initial state.  A feature that was never registered
is disabled, and an error code outside the documented four disables.
-/

namespace Synapse.Atomic

/-- How far a feature is available. -/
inductive FeatureState where
  | enabled
  | degraded
  | disabled
  | fallback
  deriving DecidableEq, Repr

/-- The two maps. -/
structure GracefulDegradation where
  features : String → Option FeatureState
  initialStates : String → Option FeatureState

namespace GracefulDegradation

/-- Nothing is registered. -/
def empty : GracefulDegradation where
  features _ := none
  initialStates _ := none

/-- Registers a feature, or registers it again with another initial state. -/
def registerFeature (name : String) (initial : FeatureState) (g : GracefulDegradation) :
    GracefulDegradation where
  features := Function.update g.features name initial
  initialStates := Function.update g.initialStates name initial

/-- A feature's state; one that is not known is disabled. -/
def state (name : String) (g : GracefulDegradation) : FeatureState :=
  (g.features name).getD .disabled

/-- Enabled or degraded. -/
def isAvailable (name : String) (g : GracefulDegradation) : Bool :=
  g.state name = .enabled || g.state name = .degraded

/-- The state that `handle_error` moves a feature to. -/
def stateAfterError (initial : Option FeatureState) (errorCode : UInt32) : FeatureState :=
  if errorCode = 0 then initial.getD .enabled
  else if errorCode = 1 then .degraded
  else if errorCode = 2 then .disabled
  else if errorCode = 3 then .fallback
  else .disabled

/-- Moves a feature to the state for the error, whatever state it is in. -/
def handleError (name : String) (errorCode : UInt32) (g : GracefulDegradation) :
    GracefulDegradation :=
  { g with
    features := Function.update g.features name (stateAfterError (g.initialStates name) errorCode) }

/-! ## What an error changes -/

section HandleError

variable (g : GracefulDegradation) {name other : String} (errorCode : UInt32)

@[simp] theorem state_handleError_self : (g.handleError name errorCode).state name =
    stateAfterError (g.initialStates name) errorCode := by
  rw [state, handleError]
  simp

/-- Other features are not touched. -/
theorem state_handleError_of_ne (h : other ≠ name) :
    (g.handleError name errorCode).state other = g.state other := by
  rw [state, state, handleError]
  simp [h]

/-- So they are as available as before. -/
theorem isAvailable_handleError_of_ne (h : other ≠ name) :
    (g.handleError name errorCode).isAvailable other = g.isAvailable other := by
  rw [isAvailable, isAvailable, state_handleError_of_ne g errorCode h]

/-- A degraded feature can still be used. -/
theorem isAvailable_handleError_one : (g.handleError name 1).isAvailable name = true := by
  rw [isAvailable, state_handleError_self]
  rfl

/-- A persistent error takes the feature away. -/
theorem isAvailable_handleError_two : (g.handleError name 2).isAvailable name = false := by
  rw [isAvailable, state_handleError_self]
  rfl

/-- A recovery brings back a feature that was enabled at first. -/
theorem isAvailable_handleError_zero (h : g.initialStates name = some .enabled) :
    (g.handleError name 0).isAvailable name = true := by
  rw [isAvailable, state_handleError_self, h]
  rfl

end HandleError

end GracefulDegradation

end Synapse.Atomic
