import Synapse.Foundations.LastValue
import Synapse.Sync.SyncManager

/-!
# Several fences of one resource

Single-threaded calls of the `SyncManager`.  A resource has room for one fence, so that a
query goes by the fence marked last (`Latest.answer_iff`), which need not be the greatest.
It is right about all of them exactly if the timeline never stands between the last one and
a greater one when it is asked (`countsFences_iff`).

### Which fence counts

Marking a resource twice overwrites its fence.  If the values grow with the marks the last one
is the greatest and a query is right about all of them; nothing in the manager asks for that.
So the condition is put on the queries: the timeline has not come to the last fence, or it has
come to all of them.  The marks are kept beside the manager, which forgets all but the last.
-/

namespace Synapse.Sync

open Runs LastValue

/-- `is_safe_to_execute`, with nothing between the two critical sections. -/
def SyncManager.isSafeToExecute (m : SyncManager) (resourceId : UInt64) : Bool × SyncManager :=
  match m.checkShared resourceId with
  | some answer => (answer, m)
  | none => (true, m.clearExclusive resourceId)

/-- The manager, and the fences marked so far with their resources. -/
structure FenceHistory where
  manager : SyncManager
  marked : List (UInt64 × UInt64)

namespace FenceHistory

/-- A call of the manager. -/
inductive Action where
  | markPendingLoad (resourceId targetValue : UInt64)
  | updateHardwareTimeline (currentValue : UInt64)
  | isSafeToExecute (resourceId : UInt64)

/-- No resource has a fence. -/
def start : FenceHistory where
  manager := .create
  marked := []

/-- One call. -/
def step (s : FenceHistory) : Action → Option FenceHistory
  | .markPendingLoad resourceId targetValue => some {
      manager := s.manager.markPendingLoad resourceId targetValue
      marked := s.marked ++ [(resourceId, targetValue)] }
  | .updateHardwareTimeline currentValue =>
      some { s with manager := s.manager.updateHardwareTimeline currentValue }
  | .isSafeToExecute resourceId =>
      some { s with manager := (s.manager.isSafeToExecute resourceId).2 }

/-! ## What is asked -/

/-- The timeline has come to a fence. -/
def Passed (s : FenceHistory) (fence : UInt64) : Prop := fence ≤ s.manager.hardwareTimelineValue

/-- The timeline never goes back. -/
def NeverBack (s : FenceHistory) : Action → Prop
  | .updateHardwareTimeline currentValue => s.manager.hardwareTimelineValue ≤ currentValue
  | _ => True

/-- A query answers whether the timeline has come to every fence marked for the resource. -/
def CountsFences (s : FenceHistory) : Action → Prop
  | .isSafeToExecute resourceId =>
      (s.manager.isSafeToExecute resourceId).1 = true ↔
        ∀ fence, (resourceId, fence) ∈ s.marked → s.Passed fence
  | _ => True

/-- The fence marked last for a resource. -/
def lastFence (s : FenceHistory) (resourceId : UInt64) : Option UInt64 :=
  lastSome (fun p => if p.1 = resourceId then some p.2 else none) s.marked

/-- At a query the timeline has not come to the fence marked last for the resource, or has
come to all the others too. -/
def LastPassedLast (s : FenceHistory) : Action → Prop
  | .isSafeToExecute resourceId =>
      ∀ last, s.lastFence resourceId = some last → s.Passed last →
        ∀ fence, (resourceId, fence) ∈ s.marked → s.Passed fence
  | _ => True

variable {s s' : FenceHistory}

/-- The fence of a resource after another mark. -/
theorem lastFence_mark (s : FenceHistory) (resourceId targetValue other : UInt64)
    (manager : SyncManager) :
    lastFence ⟨manager, s.marked ++ [(resourceId, targetValue)]⟩ other =
      if resourceId = other then some targetValue else s.lastFence other := by
  unfold lastFence
  rw [lastSome_concat]
  dsimp only
  split <;> rfl

/-- The last fence is one of those that have been marked. -/
theorem mem_of_lastFence {resourceId fence : UInt64} (h : s.lastFence resourceId = some fence) :
    (resourceId, fence) ∈ s.marked := by
  obtain ⟨p, hp, hfence⟩ := mem_of_lastSome h
  split at hfence
  · rename_i hid
    obtain rfl := Option.some_injective _ hfence
    rw [← hid]
    exact hp
  · cases hfence

/-- A resource without a last fence has none. -/
theorem not_mem_of_lastFence {resourceId : UInt64} (h : s.lastFence resourceId = none)
    (fence : UInt64) : (resourceId, fence) ∉ s.marked := by
  intro hmem
  have hnone := lastSome_eq_none_iff.mp h _ hmem
  rw [if_pos rfl] at hnone
  cases hnone

/-! ## The pending fence -/

/-- The pending fence is the one marked last, and it has been passed if the flag is clear. -/
structure Latest (s : FenceHistory) : Prop where
  unmarked : ∀ resourceId, s.manager.resourceStates resourceId = none →
    s.lastFence resourceId = none
  latest : ∀ resourceId state, s.manager.resourceStates resourceId = some state →
    s.lastFence resourceId = some state.pendingFenceValue
  clear : ∀ resourceId state, s.manager.resourceStates resourceId = some state →
    state.isDirty = false → s.Passed state.pendingFenceValue

/-- The manager knows no resource. -/
theorem latest_start : start.Latest where
  unmarked _ _ := rfl
  latest := nofun
  clear := nofun

namespace Latest

/-- **A query goes by the fence marked last.** -/
theorem answer_iff (h : s.Latest) (resourceId : UInt64) :
    (s.manager.isSafeToExecute resourceId).1 = true ↔
      ∀ last, s.lastFence resourceId = some last → s.Passed last := by
  unfold SyncManager.isSafeToExecute SyncManager.checkShared
  cases hstate : s.manager.resourceStates resourceId with
  | none =>
      rw [h.unmarked resourceId hstate]
      exact iff_of_true rfl nofun
  | some state =>
      have hlast : (∀ last, s.lastFence resourceId = some last → s.Passed last) ↔
          s.Passed state.pendingFenceValue := by
        rw [h.latest resourceId state hstate]
        constructor
        · intro hall
          exact hall _ rfl
        · rintro hpassed _ ⟨⟩
          exact hpassed
      rw [hlast]
      dsimp only
      cases hdirty : state.isDirty with
      | false => exact iff_of_true rfl (h.clear resourceId state hstate hdirty)
      | true =>
          rw [if_neg (by decide)]
          by_cases hbehind : s.manager.hardwareTimelineValue < state.pendingFenceValue
          · rw [if_pos hbehind]
            exact iff_of_false Bool.false_ne_true (UInt64.not_le.mpr hbehind)
          · rw [if_neg hbehind]
            exact iff_of_true rfl (UInt64.not_lt.mp hbehind)

/-- A record of the fence marked last, which is dirty if it has not been passed. -/
theorem record (h : s.Latest) {resourceId : UInt64} {state : ResourceSyncState}
    {marked : List (UInt64 × UInt64)}
    (hlast : ∀ other, lastFence ⟨s.manager, marked⟩ other =
      if resourceId = other then some state.pendingFenceValue else s.lastFence other)
    (hpassed : state.isDirty = false → s.Passed state.pendingFenceValue) :
    Latest ⟨{ s.manager with
      resourceStates := Function.update s.manager.resourceStates resourceId (some state) },
      marked⟩ := by
  have hstates : ∀ other state', Function.update s.manager.resourceStates resourceId
      (some state) other = some state' → other = resourceId ∧ some state = some state' ∨
        other ≠ resourceId ∧ s.manager.resourceStates other = some state' := by
    intro other state' hstate
    rw [Function.update_apply, ite_eq_iff] at hstate
    exact hstate
  refine ⟨?_, ?_, ?_⟩
  · intro other hnone
    change Function.update s.manager.resourceStates resourceId (some state) other = none at hnone
    rw [Function.update_apply, ite_eq_iff] at hnone
    rcases hnone with ⟨-, hsome⟩ | ⟨hne, hold⟩
    · cases hsome
    · exact (hlast other).trans ((if_neg (Ne.symm hne)).trans (h.unmarked other hold))
  · intro other state' hstate
    refine (hlast other).trans ?_
    rcases hstates other state' hstate with ⟨heq, hnew⟩ | ⟨hne, hold⟩
    · rw [if_pos heq.symm, Option.some_injective _ hnew]
    · exact (if_neg (Ne.symm hne)).trans (h.latest other state' hold)
  · intro other state' hstate hclear
    rcases hstates other state' hstate with ⟨-, hnew⟩ | ⟨-, hold⟩
    · obtain rfl := Option.some_injective _ hnew
      exact hpassed hclear
    · exact h.clear other state' hold hclear

/-- A mark is the resource's last fence. -/
theorem markPendingLoad (h : s.Latest) (resourceId targetValue : UInt64) :
    Latest ⟨s.manager.markPendingLoad resourceId targetValue,
      s.marked ++ [(resourceId, targetValue)]⟩ :=
  h.record (fun other => lastFence_mark s resourceId targetValue other _) nofun

/-- A timeline that goes on passes no fence backwards. -/
theorem updateHardwareTimeline (h : s.Latest) {currentValue : UInt64}
    (hle : s.manager.hardwareTimelineValue ≤ currentValue) :
    Latest { s with manager := s.manager.updateHardwareTimeline currentValue } where
  unmarked := h.unmarked
  latest := h.latest
  clear resourceId state hstate hclear :=
    UInt64.le_trans (h.clear resourceId state hstate hclear) hle

/-- A query clears a flag at most, and the timeline has come to the fence by then. -/
theorem isSafeToExecute (h : s.Latest) (resourceId : UInt64) :
    Latest { s with manager := (s.manager.isSafeToExecute resourceId).2 } := by
  unfold SyncManager.isSafeToExecute
  split
  · exact h
  · rcases SyncCalls.clearExclusive_cases s.manager resourceId with
      ⟨state, hstate, -, hpassed, heq⟩ | heq
    · rw [heq]
      refine h.record (fun other => ?_) fun _ => hpassed
      split
      · rename_i hid
        exact h.latest other state (hid ▸ hstate)
      · rfl
    · rw [heq]
      exact h

/-- The step lemma. -/
theorem step {a : Action} (h : s.Latest) (hforward : s.NeverBack a) (hstep : s.step a = some s') :
    s'.Latest := by
  cases a with
  | markPendingLoad resourceId targetValue =>
      obtain rfl := Option.some_injective _ hstep
      exact h.markPendingLoad resourceId targetValue
  | updateHardwareTimeline currentValue =>
      obtain rfl := Option.some_injective _ hstep
      exact h.updateHardwareTimeline hforward
  | isSafeToExecute resourceId =>
      obtain rfl := Option.some_injective _ hstep
      exact h.isSafeToExecute resourceId

/-- The fence marked last is one of the fences, so that only the others can make a
difference. -/
theorem countsFences_iff_lastPassed (h : s.Latest) (a : Action) :
    s.CountsFences a ↔ s.LastPassedLast a := by
  cases a with
  | markPendingLoad _ _ | updateHardwareTimeline _ => exact Iff.rfl
  | isSafeToExecute resourceId =>
      show (_ ↔ _) ↔ _
      rw [h.answer_iff resourceId]
      constructor
      · intro hcounts last hlast hpassed
        refine hcounts.mp fun last' hlast' => ?_
        obtain rfl := Option.some_injective _ (hlast.symm.trans hlast')
        exact hpassed
      · intro hothers
        constructor
        · intro hpassed fence hfence
          cases hlast : s.lastFence resourceId with
          | none => exact absurd hfence (not_mem_of_lastFence hlast fence)
          | some last => exact hothers last hlast (hpassed last hlast) fence hfence
        · intro hall last hlast
          exact hall last (mem_of_lastFence hlast)

end Latest

/-! ## Histories -/

/-- **Every pending fence counts** exactly if no query comes while the timeline stands at or
behind the fence marked last for the resource and before another one. -/
theorem countsFences_iff {actions : List Action} (hforward : Along step NeverBack start actions) :
    Along step CountsFences start actions ↔ Along step LastPassedLast start actions := by
  refine along_iff_of_assumed step (fun _ a _ h _ _ => h.countsFences_iff_lastPassed a) ?_
    latest_start hforward
  intro s a s' h hstep hassumed _
  exact h.step hassumed hstep

/-- Fences that are marked in order all count. -/
theorem lastPassedLast_of_le {s : FenceHistory} {resourceId : UInt64}
    (h : ∀ last, s.lastFence resourceId = some last →
      ∀ fence, (resourceId, fence) ∈ s.marked → fence ≤ last) :
    s.LastPassedLast (.isSafeToExecute resourceId) :=
  fun last hlast hpassed fence hfence => UInt64.le_trans (h last hlast fence hfence) hpassed

/-- Two fences of one resource, with a query at each stage of the timeline. -/
def twoFences : List Action :=
  [.markPendingLoad 1 5, .markPendingLoad 1 9, .isSafeToExecute 1, .updateHardwareTimeline 6,
    .isSafeToExecute 1, .updateHardwareTimeline 9, .isSafeToExecute 1]

/-- Two fences of one resource, asked for between and behind them. -/
theorem countsFences_two : Along step CountsFences start twoFences := by
  refine (countsFences_iff ?_).mpr ?_
  · exact along_of_step step rfl trivial <| along_of_step step rfl trivial <|
      along_of_step step rfl trivial <|
      along_of_step step rfl (show (0 : UInt64) ≤ 6 by decide) <|
      along_of_step step rfl trivial <|
      along_of_step step rfl (show (6 : UInt64) ≤ 9 by decide) <|
      along_of_step step rfl trivial <| along_nil step _ _
  · have htwo : ∀ s : FenceHistory, s.marked = [(1, 5), (1, 9)] →
        s.LastPassedLast (.isSafeToExecute 1) := by
      intro s hmarked
      refine lastPassedLast_of_le fun last hlast fence hfence => ?_
      have hnine : s.lastFence 1 = some 9 := by
        rw [lastFence, hmarked]
        rfl
      obtain rfl := Option.some_injective _ (hnine.symm.trans hlast)
      rw [hmarked] at hfence
      simp only [List.mem_cons, Prod.mk.injEq, true_and, List.not_mem_nil, or_false] at hfence
      rcases hfence with rfl | rfl <;> decide
    exact along_of_step step rfl trivial <| along_of_step step rfl trivial <|
      along_of_step step rfl (htwo _ rfl) <| along_of_step step rfl trivial <|
      along_of_step step rfl (htwo _ rfl) <| along_of_step step rfl trivial <|
      along_of_step step rfl (htwo _ rfl) <| along_nil step _ _

/-- A smaller fence hides the greater one that was marked before. -/
theorem greater_fence_hidden :
    Along step NeverBack start [.markPendingLoad 1 9, .markPendingLoad 1 5,
      .updateHardwareTimeline 5, .isSafeToExecute 1] ∧
    ¬ Along step CountsFences start [.markPendingLoad 1 9, .markPendingLoad 1 5,
      .updateHardwareTimeline 5, .isSafeToExecute 1] := by
  constructor
  · exact along_of_step step rfl trivial <| along_of_step step rfl trivial <|
      along_of_step step rfl (show (0 : UInt64) ≤ 5 by decide) <|
      along_of_step step rfl trivial <| along_nil step _ _
  · intro h
    have hcounts := h [.markPendingLoad 1 9, .markPendingLoad 1 5, .updateHardwareTimeline 5] _ []
      rfl _ _ rfl rfl
    have hpassed := hcounts.mp rfl 9 List.mem_cons_self
    exact absurd (show (9 : UInt64) ≤ 5 from hpassed) (by decide)

end FenceHistory

end Synapse.Sync
