import Synapse.Foundations.Calls
import Synapse.Foundations.Runs

/-!
# `SyncManager`

The timeline and the pending fences of `sync_manager.h`.  `is_safe_to_execute` takes
the lock twice: shared to look at the fence, and exclusive to clear the flag.

The flag is looked at again under the exclusive lock, and only cleared if the timeline
has come to the fence (`Fenced.reached_of_cleared`).  The answer is not: the call returns true
whatever it finds.  It is right exactly if no fence ahead of the timeline has come in
between (`StillReached`).

### Between two locks

The shared section finds the flag set and the fence reached; the exclusive one looks again and
clears.  What may happen in between is another mark, with a fence ahead of the timeline, and
then the second look prevents the clearing but not the answer.  `Fenced` is about the state
and holds in every run whose timeline and marks never go back; the condition of an answer is
about the step that gives it.
-/

namespace Synapse.Sync

open Runs Calls

/-- `ResourceSyncState` -/
structure ResourceSyncState where
  pendingFenceValue : UInt64 := 0
  isDirty : Bool := false
  deriving DecidableEq

/-- `SyncManager` -/
structure SyncManager where
  hardwareTimelineValue : UInt64
  resourceStates : UInt64 → Option ResourceSyncState

namespace SyncManager

/-- The constructor. -/
def create : SyncManager where
  hardwareTimelineValue := 0
  resourceStates _ := none

/-- `mark_pending_load` -/
def markPendingLoad (m : SyncManager) (resourceId targetValue : UInt64) : SyncManager :=
  { m with
    resourceStates := Function.update m.resourceStates resourceId (some ⟨targetValue, true⟩) }

/-- `update_hardware_timeline` -/
def updateHardwareTimeline (m : SyncManager) (currentValue : UInt64) : SyncManager :=
  { m with hardwareTimelineValue := currentValue }

/-- `is_safe_to_execute` under the shared lock: its answer, if it has one already. -/
def checkShared (m : SyncManager) (resourceId : UInt64) : Option Bool :=
  match m.resourceStates resourceId with
  | none => some true
  | some state =>
      if !state.isDirty then some true
      else if m.hardwareTimelineValue < state.pendingFenceValue then some false
      else none

/-- `is_safe_to_execute` under the exclusive lock, after which it returns true. -/
def clearExclusive (m : SyncManager) (resourceId : UInt64) : SyncManager :=
  match m.resourceStates resourceId with
  | none => m
  | some state =>
      if state.isDirty && decide (m.hardwareTimelineValue ≥ state.pendingFenceValue) then
        { m with
          resourceStates :=
            Function.update m.resourceStates resourceId (some { state with isDirty := false }) }
      else m

/-- The flag of a resource. -/
def isDirty (m : SyncManager) (resourceId : UInt64) : Bool :=
  ((m.resourceStates resourceId).map ResourceSyncState.isDirty).getD false

end SyncManager

/-! ## Concurrent calls -/

/-- How far a call of `is_safe_to_execute` has come. -/
inductive SafetyCheck where
  | called (resourceId : UInt64)
  | reached (resourceId : UInt64)
  | returned (resourceId : UInt64) (answer : Bool)
  deriving DecidableEq

/-- The manager, the calls, and the fences marked so far with their resources. -/
structure SyncCalls where
  manager : SyncManager
  checks : List SafetyCheck
  marked : List (UInt64 × UInt64)

namespace SyncCalls

/-- A call of the other two functions, or a step of a safety check. -/
inductive Action where
  | markPendingLoad (resourceId targetValue : UInt64)
  | updateHardwareTimeline (currentValue : UInt64)
  | isSafeToExecute (resourceId : UInt64)
  | advance (i : ℕ)

/-- No resource, no check. -/
def start : SyncCalls where
  manager := .create
  checks := []
  marked := []

/-- The next critical section of a call. -/
def advance (s : SyncCalls) (i : ℕ) : SafetyCheck → Option SyncCalls
  | .called resourceId =>
      match s.manager.checkShared resourceId with
      | some answer => some { s with checks := s.checks.set i (.returned resourceId answer) }
      | none => some { s with checks := s.checks.set i (.reached resourceId) }
  | .reached resourceId =>
      some { s with
        manager := s.manager.clearExclusive resourceId
        checks := s.checks.set i (.returned resourceId true) }
  | .returned _ _ => none

/-- One step, each of them one locked section. -/
def step (s : SyncCalls) : Action → Option SyncCalls
  | .markPendingLoad resourceId targetValue =>
      some { s with
        manager := s.manager.markPendingLoad resourceId targetValue
        marked := s.marked ++ [(resourceId, targetValue)] }
  | .updateHardwareTimeline currentValue =>
      some { s with manager := s.manager.updateHardwareTimeline currentValue }
  | .isSafeToExecute resourceId => some { s with checks := s.checks ++ [.called resourceId] }
  | .advance i => s.checks[i]?.bind (s.advance i)

/-! ## What is asked -/

/-- The timeline has come to every fence marked for the resource so far. -/
def Reached (s : SyncCalls) (resourceId : UInt64) : Prop :=
  ∀ fence, (resourceId, fence) ∈ s.marked → fence ≤ s.manager.hardwareTimelineValue

/-- The timeline never decreases, and neither do the fences of a resource. -/
def NeverDecreasing (s : SyncCalls) : Action → Prop
  | .markPendingLoad resourceId targetValue =>
      ∀ fence, (resourceId, fence) ∈ s.marked → fence ≤ targetValue
  | .updateHardwareTimeline currentValue => s.manager.hardwareTimelineValue ≤ currentValue
  | _ => True

/-- A call only returns true, and a flag is only cleared, when the timeline has come to
all fences of the resource. -/
def ReleasedAfterFences (s : SyncCalls) (a : Action) : Prop :=
  ∀ s', s.step a = some s' →
    (∀ i resourceId, a = .advance i → s'.checks[i]? = some (.returned resourceId true) →
      s.Reached resourceId) ∧
    ∀ resourceId, s.manager.isDirty resourceId = true → s'.manager.isDirty resourceId = false →
      s.Reached resourceId

/-- When a call takes the exclusive lock, the flag of its resource is not set with a
fence ahead of the timeline. -/
def StillReached (s : SyncCalls) : Action → Prop
  | .advance i =>
      match s.checks[i]? with
      | some (.reached resourceId) =>
          ∀ state, s.manager.resourceStates resourceId = some state → state.isDirty = true →
            state.pendingFenceValue ≤ s.manager.hardwareTimelineValue
      | _ => True
  | _ => True

/-! ## Fences and flags -/

/-- The pending fence is the greatest of those marked for the resource, and without the
flag the timeline has come to it. -/
structure Covered (s : SyncCalls) (resourceId : UInt64) (state : ResourceSyncState) : Prop where
  marked : (resourceId, state.pendingFenceValue) ∈ s.marked
  greatest : ∀ fence, (resourceId, fence) ∈ s.marked → fence ≤ state.pendingFenceValue
  clear : state.isDirty = false → state.pendingFenceValue ≤ s.manager.hardwareTimelineValue

/-- What is known of a resource covers all its marks. -/
structure Fenced (s : SyncCalls) : Prop where
  unmarked : ∀ resourceId, s.manager.resourceStates resourceId = none →
    ∀ fence, (resourceId, fence) ∉ s.marked
  covered : ∀ resourceId state, s.manager.resourceStates resourceId = some state →
    s.Covered resourceId state

variable {s s' : SyncCalls}

/-- It holds at the start. -/
theorem fenced_start : start.Fenced where
  unmarked _ _ _ := List.not_mem_nil
  covered := nofun

/-- A fence of another resource. -/
theorem mem_marked_of_ne {resourceId targetValue other fence : UInt64} (hne : other ≠ resourceId)
    (h : (other, fence) ∈ s.marked ++ [(resourceId, targetValue)]) :
    (other, fence) ∈ s.marked := by
  refine (List.mem_append.mp h).resolve_right fun hnew => hne ?_
  exact congrArg Prod.fst (List.mem_singleton.mp hnew)

/-- The exclusive section clears a flag only if the timeline has come to its fence. -/
theorem clearExclusive_cases (m : SyncManager) (resourceId : UInt64) :
    (∃ state, m.resourceStates resourceId = some state ∧ state.isDirty = true ∧
        state.pendingFenceValue ≤ m.hardwareTimelineValue ∧
        m.clearExclusive resourceId =
          { m with
            resourceStates := Function.update m.resourceStates resourceId
              (some { state with isDirty := false }) }) ∨
      m.clearExclusive resourceId = m := by
  cases hstate : m.resourceStates resourceId with
  | none =>
      simp only [SyncManager.clearExclusive, hstate]
      exact Or.inr trivial
  | some state =>
      simp only [SyncManager.clearExclusive, hstate]
      split
      · rename_i hreached
        obtain ⟨hdirty, hle⟩ := Bool.and_eq_true_iff.mp hreached
        exact Or.inl ⟨state, rfl, hdirty, of_decide_eq_true hle, rfl⟩
      · exact Or.inr rfl

namespace Fenced

/-- The timeline has come to all fences of a resource unless its flag is set with a
fence ahead. -/
theorem reached_iff (h : s.Fenced) (resourceId : UInt64) :
    s.Reached resourceId ↔ ∀ state, s.manager.resourceStates resourceId = some state →
      state.isDirty = true → state.pendingFenceValue ≤ s.manager.hardwareTimelineValue := by
  constructor
  · intro hreached state hstate _
    exact hreached _ (h.covered resourceId state hstate).marked
  · intro hstates fence hfence
    cases hstate : s.manager.resourceStates resourceId with
    | none => exact absurd hfence (h.unmarked resourceId hstate fence)
    | some state =>
        have hcovered := h.covered resourceId state hstate
        refine UInt64.le_trans (hcovered.greatest fence hfence) ?_
        cases hdirty : state.isDirty with
        | true => exact hstates state hstate hdirty
        | false => exact hcovered.clear hdirty

/-! ### The calls -/

/-- A record that covers its resource, when no fence of another one is added or lost. -/
theorem record (h : s.Fenced) {resourceId : UInt64} {state : ResourceSyncState}
    {marked : List (UInt64 × UInt64)}
    (hothers : ∀ other ≠ resourceId, ∀ fence, (other, fence) ∈ marked ↔ (other, fence) ∈ s.marked)
    (hcovered : Covered { s with marked := marked } resourceId state) :
    Fenced { s with
      manager := { s.manager with
        resourceStates := Function.update s.manager.resourceStates resourceId (some state) }
      marked := marked } := by
  refine ⟨fun other hnone fence hfence => ?_, fun other state' hstate => ?_⟩
  · change Function.update s.manager.resourceStates resourceId _ other = none at hnone
    rw [Function.update_apply, ite_eq_iff] at hnone
    rcases hnone with ⟨-, hsome⟩ | ⟨hne, hold⟩
    · cases hsome
    · exact h.unmarked other hold fence ((hothers other hne fence).mp hfence)
  · change Function.update s.manager.resourceStates resourceId _ other = some state' at hstate
    rw [Function.update_apply, ite_eq_iff] at hstate
    rcases hstate with ⟨rfl, hnew⟩ | ⟨hne, hold⟩
    · obtain rfl := Option.some_injective _ hnew
      exact ⟨hcovered.marked, hcovered.greatest, hcovered.clear⟩
    · have hkept := h.covered other state' hold
      refine ⟨(hothers other hne _).mpr hkept.marked, fun fence hfence => ?_, hkept.clear⟩
      exact hkept.greatest fence ((hothers other hne fence).mp hfence)

/-- A mark that is no smaller than those before it. -/
theorem markPendingLoad (h : s.Fenced) {resourceId targetValue : UInt64}
    (hgreatest : ∀ fence, (resourceId, fence) ∈ s.marked → fence ≤ targetValue) :
    Fenced { s with
      manager := s.manager.markPendingLoad resourceId targetValue
      marked := s.marked ++ [(resourceId, targetValue)] } := by
  refine h.record (fun other hne fence => ?_) ⟨?_, fun fence hfence => ?_, nofun⟩
  · exact ⟨mem_marked_of_ne hne, List.mem_append_left _⟩
  · exact List.mem_append_right _ (List.mem_singleton_self _)
  · rcases List.mem_append.mp hfence with hold | hnew
    · exact hgreatest fence hold
    · obtain ⟨-, rfl⟩ := Prod.mk.inj (List.mem_singleton.mp hnew)
      exact UInt64.le_refl _

/-- A timeline that does not go back. -/
theorem updateHardwareTimeline (h : s.Fenced) {currentValue : UInt64}
    (hle : s.manager.hardwareTimelineValue ≤ currentValue) :
    Fenced { s with manager := s.manager.updateHardwareTimeline currentValue } where
  unmarked := h.unmarked
  covered resourceId state hstate :=
    let hcovered := h.covered resourceId state hstate
    ⟨hcovered.marked, hcovered.greatest, fun hclear => UInt64.le_trans (hcovered.clear hclear) hle⟩

/-- A check that only goes on. -/
theorem moved (h : s.Fenced) (checks : List SafetyCheck) : Fenced { s with checks := checks } where
  unmarked := h.unmarked
  covered resourceId state hstate :=
    let hcovered := h.covered resourceId state hstate
    ⟨hcovered.marked, hcovered.greatest, hcovered.clear⟩

/-- Clearing covers the marks, since it looks again. -/
theorem clearExclusive (h : s.Fenced) (resourceId : UInt64) :
    Fenced { s with manager := s.manager.clearExclusive resourceId } := by
  rcases clearExclusive_cases s.manager resourceId with ⟨state, hstate, -, hle, heq⟩ | heq
  · rw [heq]
    have hcovered := h.covered resourceId state hstate
    exact h.record (fun _ _ _ => Iff.rfl) ⟨hcovered.marked, hcovered.greatest, fun _ => hle⟩
  · rw [heq]
    exact h

/-- The step lemma. -/
theorem step {a : Action} (h : s.Fenced) (hassumed : s.NeverDecreasing a)
    (hstep : s.step a = some s') : s'.Fenced := by
  cases a with
  | markPendingLoad resourceId targetValue =>
      obtain rfl := Option.some_injective _ hstep
      exact h.markPendingLoad hassumed
  | updateHardwareTimeline currentValue =>
      obtain rfl := Option.some_injective _ hstep
      exact h.updateHardwareTimeline hassumed
  | isSafeToExecute resourceId =>
      obtain rfl := Option.some_injective _ hstep
      exact h.moved _
  | advance i =>
      obtain ⟨c, hcall, hadvance⟩ := Option.bind_eq_some_iff.mp hstep
      cases c with
      | called resourceId =>
          rw [SyncCalls.advance] at hadvance
          split at hadvance <;> obtain rfl := Option.some_injective _ hadvance <;> exact h.moved _
      | reached resourceId =>
          obtain rfl := Option.some_injective _ hadvance
          exact (h.clearExclusive resourceId).moved _
      | returned resourceId answer => cases hadvance

end Fenced

/-! ## Answers -/

/-- An answer under the shared lock is right. -/
theorem Fenced.reached_of_checkShared (h : s.Fenced) {resourceId : UInt64}
    (hanswer : s.manager.checkShared resourceId = some true) : s.Reached resourceId := by
  refine (h.reached_iff resourceId).mpr fun state hstate hdirty => ?_
  simp only [SyncManager.checkShared, hstate, hdirty] at hanswer
  simp at hanswer

/-- One resource's flag. -/
theorem isDirty_update (m : SyncManager) (resourceId other : UInt64) (state : ResourceSyncState) :
    SyncManager.isDirty { m with
      resourceStates := Function.update m.resourceStates resourceId (some state) } other =
      if other = resourceId then state.isDirty else m.isDirty other := by
  simp only [SyncManager.isDirty, Function.update_apply]
  split <;> rfl

/-- A flag is only cleared when the timeline has come to the fences of its resource. -/
theorem Fenced.reached_of_clearExclusive (h : s.Fenced) {cleared resourceId : UInt64}
    (hset : s.manager.isDirty resourceId = true)
    (hclear : (s.manager.clearExclusive cleared).isDirty resourceId = false) :
    s.Reached resourceId := by
  rcases clearExclusive_cases s.manager cleared with ⟨state, hstate, -, hle, heq⟩ | heq
  · rcases eq_or_ne resourceId cleared with rfl | hne
    · refine (h.reached_iff resourceId).mpr fun state' hstate' _ => ?_
      obtain rfl := Option.some_injective _ (hstate.symm.trans hstate')
      exact hle
    · rw [heq, isDirty_update, if_neg hne] at hclear
      exact absurd (hset.symm.trans hclear) Bool.true_eq_false.mp
  · rw [heq] at hclear
    exact absurd (hset.symm.trans hclear) Bool.true_eq_false.mp

/-- A flag that a step clears is that of a resource whose fences are reached. -/
theorem Fenced.reached_of_cleared (h : s.Fenced) {a : Action} (hstep : s.step a = some s')
    {resourceId : UInt64} (hset : s.manager.isDirty resourceId = true)
    (hclear : s'.manager.isDirty resourceId = false) : s.Reached resourceId := by
  cases a with
  | markPendingLoad marked targetValue =>
      obtain rfl := Option.some_injective _ hstep
      have hafter := (isDirty_update s.manager marked resourceId ⟨targetValue, true⟩).symm.trans
        hclear
      split at hafter
      · cases hafter
      · exact absurd (hset.symm.trans hafter) Bool.true_eq_false.mp
  | updateHardwareTimeline currentValue =>
      obtain rfl := Option.some_injective _ hstep
      exact absurd (hset.symm.trans hclear) Bool.true_eq_false.mp
  | isSafeToExecute checked =>
      obtain rfl := Option.some_injective _ hstep
      exact absurd (hset.symm.trans hclear) Bool.true_eq_false.mp
  | advance i =>
      obtain ⟨c, hcall, hadvance⟩ := Option.bind_eq_some_iff.mp hstep
      cases c with
      | called checked =>
          rw [advance] at hadvance
          split at hadvance <;> obtain rfl := Option.some_injective _ hadvance <;>
            exact absurd (hset.symm.trans hclear) Bool.true_eq_false.mp
      | reached checked =>
          obtain rfl := Option.some_injective _ hadvance
          exact h.reached_of_clearExclusive hset hclear
      | returned checked answer => cases hadvance

/-- A call that returns true has found so under the shared lock, or has come to the
exclusive one. -/
theorem returned_cases {i : ℕ} {resourceId : UInt64} (hstep : s.step (.advance i) = some s')
    (hreturned : s'.checks[i]? = some (.returned resourceId true)) :
    s.checks[i]? = some (.called resourceId) ∧ s.manager.checkShared resourceId = some true ∨
      s.checks[i]? = some (.reached resourceId) := by
  obtain ⟨c, hcall, hadvance⟩ := Option.bind_eq_some_iff.mp hstep
  have hset : ∀ new, (s.checks.set i new)[i]? = some new := fun new =>
    List.getElem?_set_self (List.getElem?_eq_some_iff.mp hcall).1
  cases c with
  | called checked =>
      rw [advance] at hadvance
      split at hadvance
      · rename_i answer hanswer
        obtain rfl := Option.some_injective _ hadvance
        obtain ⟨rfl, rfl⟩ : checked = resourceId ∧ answer = true := by
          simpa only [hset, Option.some.injEq, SafetyCheck.returned.injEq] using hreturned
        exact Or.inl ⟨hcall, hanswer⟩
      · obtain rfl := Option.some_injective _ hadvance
        rw [hset] at hreturned
        cases hreturned
  | reached checked =>
      obtain rfl := Option.some_injective _ hadvance
      obtain rfl : checked = resourceId := by
        simpa only [hset, Option.some.injEq, SafetyCheck.returned.injEq, and_true] using hreturned
      exact Or.inr hcall
  | returned checked answer => cases hadvance

/-- The exclusive section ends in true. -/
theorem step_reached {i : ℕ} {resourceId : UInt64}
    (hcall : s.checks[i]? = some (.reached resourceId)) : ∃ s', s.step (.advance i) = some s' ∧
      s'.checks[i]? = some (.returned resourceId true) := by
  refine ⟨_, Option.bind_eq_some_iff.mpr ⟨_, hcall, rfl⟩, ?_⟩
  exact List.getElem?_set_self (List.getElem?_eq_some_iff.mp hcall).1

/-- The answer of a step is right exactly if it is still right when it is given. -/
theorem Fenced.releasedAfterFences_iff (h : s.Fenced) (a : Action) :
    s.ReleasedAfterFences a ↔ s.StillReached a := by
  constructor
  · intro hreleased
    cases a with
    | advance i =>
        rw [StillReached]
        split
        · rename_i resourceId hcall
          obtain ⟨s', hstep, hreturned⟩ := step_reached hcall
          exact (h.reached_iff resourceId).mp ((hreleased s' hstep).1 i resourceId rfl hreturned)
        · trivial
    | markPendingLoad _ _ | updateHardwareTimeline _ | isSafeToExecute _ => trivial
  · intro hstill s' hstep
    refine ⟨?_, fun resourceId hset hclear => h.reached_of_cleared hstep hset hclear⟩
    rintro i resourceId rfl hreturned
    rcases returned_cases hstep hreturned with ⟨-, hanswer⟩ | hcall
    · exact h.reached_of_checkShared hanswer
    · simp only [StillReached, hcall] at hstill
      exact (h.reached_iff resourceId).mpr hstill

/-! ## Whole runs -/

/-- **Resources are released after their fences** exactly if every call finds the fence
still reached under the exclusive lock. -/
theorem released_iff_stillReached {actions : List Action}
    (hassumed : Along step NeverDecreasing start actions) :
    Along step ReleasedAfterFences start actions ↔ Along step StillReached start actions :=
  along_iff_of_assumed step (fun _ a _ hs _ _ => hs.releasedAfterFences_iff a)
    (fun _ _ _ hs hstep hassumed _ => hs.step hassumed hstep) fenced_start hassumed

/-- A fence is marked and reached before the call. -/
theorem released_reached :
    Along step ReleasedAfterFences start [.markPendingLoad 1 5, .updateHardwareTimeline 5,
      .isSafeToExecute 1, .advance 0, .advance 0] := by
  refine (released_iff_stillReached ?_).mpr ?_
  · exact along_of_step step rfl (fun _ h => absurd h List.not_mem_nil) <|
      along_of_step step rfl (show (0 : UInt64) ≤ 5 by decide) <| along_of_step step rfl trivial <|
      along_of_step step rfl trivial <| along_of_step step rfl trivial <| along_nil step _ _
  · refine along_of_step step rfl trivial <| along_of_step step rfl trivial <|
      along_of_step step rfl trivial <| along_of_step step rfl trivial <|
      along_of_step step rfl ?_ <| along_nil step _ _
    rintro _ ⟨⟩ _
    decide

/-- A new fence is marked between the two critical sections. -/
theorem released_with_fence_pending :
    Along step NeverDecreasing start [.markPendingLoad 1 5, .updateHardwareTimeline 5,
      .isSafeToExecute 1, .advance 0, .markPendingLoad 1 9, .advance 0] ∧
    ∃ s, exec step start [.markPendingLoad 1 5, .updateHardwareTimeline 5, .isSafeToExecute 1,
      .advance 0, .markPendingLoad 1 9, .advance 0] = some s ∧
      s.checks = [.returned 1 true] ∧ ¬ s.Reached 1 := by
  refine ⟨along_of_step step rfl (fun _ h => absurd h List.not_mem_nil) <|
    along_of_step step rfl (show (0 : UInt64) ≤ 5 by decide) <| along_of_step step rfl trivial <|
    along_of_step step rfl trivial <| along_of_step step rfl (fun fence hfence => ?_) <|
    along_of_step step rfl trivial <| along_nil step _ _, ?_⟩
  · obtain ⟨-, rfl⟩ := Prod.mk.inj (List.mem_singleton.mp hfence)
    decide
  obtain ⟨s, hrun, hchecks, hmarked, htimeline⟩ : ∃ s, exec step start [.markPendingLoad 1 5,
      .updateHardwareTimeline 5, .isSafeToExecute 1, .advance 0, .markPendingLoad 1 9,
      .advance 0] = some s ∧ s.checks = [.returned 1 true] ∧ s.marked = [(1, 5), (1, 9)] ∧
      s.manager.hardwareTimelineValue = 5 := ⟨_, rfl, rfl, rfl, rfl⟩
  refine ⟨s, hrun, hchecks, fun h => ?_⟩
  have hle := h 9 (hmarked ▸ List.mem_cons_of_mem _ (List.mem_singleton_self _))
  rw [htimeline] at hle
  exact absurd hle (by decide)

end SyncCalls

end Synapse.Sync
