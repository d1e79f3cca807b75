import Synapse.Foundations.Runs

/-!
# `FenceManager`

The state changes of `synapse_sync_manager.h` that wait for the GPU.  A poll stores the
reading of the timeline and then runs the actions that it covers, one after the other,
while changes are tracked and queries made.  The reading is an argument: the source has
a stub for it.

The actions run in the order of their ids, once, and covered by a reading (`Retired`).
A query looks at the stored reading only, which is ahead of the actions for as long as
the poll has actions to run.

### A poll takes its time

`poll_gpu_timeline` stores its reading, and then runs and pops the front of the queue in a
loop, one action after the other.  These are the steps of the model (`advance`), and between
any two of them changes may be tracked, by an action that the poll has just run as well, and
queries may be made.  Tracking a change draws its id and puts it at the end of the queue in
one step: the queue has no lock in the source, so no two threads are in it at once.

The ids are words of 64 bits.  The statements take the readings from the ids that have been
handed out, which is what a timeline of this manager can signal, and leave the wrapping of the
ids out by a condition on each tracking (`BelowLastId`).
-/

namespace Synapse.Sync

open Runs

/-- A change that waits, with the action that it runs. -/
structure PendingStateChange (Callback : Type*) where
  id : UInt64
  action : Callback
  deriving DecidableEq

/-- Where `poll_gpu_timeline` is: before the test of its loop, or in an action. -/
inductive TimelinePoll where
  | idle
  | draining (gpuVal : UInt64)
  | running (gpuVal : UInt64)

/-- The reading of the poll that is under way. -/
def TimelinePoll.reading : TimelinePoll → Option UInt64
  | idle => none
  | draining gpuVal => some gpuVal
  | running gpuVal => some gpuVal

/-- The fields, the poll, and what has happened so far: changes tracked, actions begun
and completed, readings taken, and the readings of completed polls. -/
structure FenceManager (Callback : Type*) where
  lastCompletedId : UInt64
  nextId : UInt64
  pendingChanges : List (PendingStateChange Callback)
  poll : TimelinePoll
  tracked : List (PendingStateChange Callback)
  begun : List (PendingStateChange Callback)
  completed : List (PendingStateChange Callback)
  readings : List UInt64
  polled : List UInt64

namespace FenceManager

variable {Callback : Type*}

/-- What happens next: a change is tracked, a poll begins or goes on, a query is made. -/
inductive Action (Callback : Type*) where
  | trackStateChange (onComplete : Callback)
  | pollGpuTimeline (gpuVal : UInt64)
  | advance
  | isSafeToExecute (requiredId : UInt64)

/-- The constructor. -/
def create : FenceManager Callback where
  lastCompletedId := 0
  nextId := 1
  pendingChanges := []
  poll := .idle
  tracked := []
  begun := []
  completed := []
  readings := []
  polled := []

/-- `track_state_change`: the next id, at the end of the queue. -/
def trackStateChange (s : FenceManager Callback) (onComplete : Callback) :
    FenceManager Callback :=
  { s with
    nextId := s.nextId + 1
    pendingChanges := s.pendingChanges ++ [⟨s.nextId, onComplete⟩]
    tracked := s.tracked ++ [⟨s.nextId, onComplete⟩] }

/-- `is_safe_to_execute`, which looks at the stored reading only. -/
def isSafeToExecute (s : FenceManager Callback) (requiredId : UInt64) : Bool :=
  s.lastCompletedId ≥ requiredId

/-- The test of the loop of `poll_gpu_timeline`, and the beginning of an action. -/
def test (s : FenceManager Callback) (gpuVal : UInt64) : FenceManager Callback :=
  match s.pendingChanges with
  | front :: _ =>
      if front.id ≤ gpuVal then { s with poll := .running gpuVal, begun := s.begun ++ [front] }
      else { s with poll := .idle, polled := s.polled ++ [gpuVal] }
  | [] => { s with poll := .idle, polled := s.polled ++ [gpuVal] }

/-- The action of the front returns, and the front is popped. -/
def pop (s : FenceManager Callback) (gpuVal : UInt64) : Option (FenceManager Callback) :=
  match s.pendingChanges with
  | front :: rest =>
      some { s with
        pendingChanges := rest
        poll := .draining gpuVal
        completed := s.completed ++ [front] }
  | [] => none

/-- One step.  A poll begins only when the one before has ended. -/
def step (s : FenceManager Callback) : Action Callback → Option (FenceManager Callback)
  | .trackStateChange onComplete => some (s.trackStateChange onComplete)
  | .pollGpuTimeline gpuVal =>
      match s.poll with
      | .idle =>
          some { s with
            lastCompletedId := gpuVal
            poll := .draining gpuVal
            readings := s.readings ++ [gpuVal] }
      | _ => none
  | .advance =>
      match s.poll with
      | .idle => none
      | .draining gpuVal => some (s.test gpuVal)
      | .running gpuVal => s.pop gpuVal
  | .isSafeToExecute _ => some s

/-! ## What is asked -/

/-- Actions are begun in the order of their ids, at most once, only when a reading
covers them, and a poll leaves none behind that its reading covers. -/
structure Retired (s : FenceManager Callback) : Prop where
  ordered : (s.begun.map PendingStateChange.id).Pairwise (· < ·)
  registered : ∀ c ∈ s.begun, c ∈ s.tracked
  covered : ∀ c ∈ s.begun, ∃ gpuVal ∈ s.readings, c.id ≤ gpuVal
  drained : ∀ gpuVal ∈ s.polled, ∀ c ∈ s.tracked, c.id ≤ gpuVal → c ∈ s.completed

/-- A query that returns true comes after the action. -/
def AnswersAfterAction (s : FenceManager Callback) : Action Callback → Prop
  | .isSafeToExecute requiredId =>
      s.isSafeToExecute requiredId = true → ∀ c ∈ s.tracked, c.id = requiredId → c ∈ s.completed
  | _ => True

/-- The GPU does not report an id that has not been handed out. -/
def ReadsHandedOut (s : FenceManager Callback) : Action Callback → Prop
  | .pollGpuTimeline gpuVal => gpuVal < s.nextId
  | _ => True

/-- The ids do not wrap. -/
def BelowLastId (s : FenceManager Callback) : Action Callback → Prop
  | .trackStateChange _ => s.nextId.toNat + 1 < 2 ^ 64
  | _ => True

instance (s : FenceManager Callback) : (a : Action Callback) → Decidable (s.ReadsHandedOut a)
  | .pollGpuTimeline gpuVal => inferInstanceAs (Decidable (gpuVal < s.nextId))
  | .trackStateChange _ | .advance | .isSafeToExecute _ => .isTrue trivial

instance (s : FenceManager Callback) : (a : Action Callback) → Decidable (s.BelowLastId a)
  | .trackStateChange _ => inferInstanceAs (Decidable (s.nextId.toNat + 1 < 2 ^ 64))
  | .pollGpuTimeline _ | .advance | .isSafeToExecute _ => .isTrue trivial

/-- No query for an id falls into a poll that has read it or a later one and has its
action still to complete. -/
def QueriesOutsidePoll (s : FenceManager Callback) : Action Callback → Prop
  | .isSafeToExecute requiredId =>
      ∀ gpuVal, s.poll.reading = some gpuVal → requiredId ≤ gpuVal →
        ∀ c ∈ s.pendingChanges, c.id ≠ requiredId
  | _ => True

/-! ## The queue -/

/-- The changes in the order of their ids: those completed, and those pending. -/
structure Queued (s : FenceManager Callback) : Prop where
  split : s.completed ++ s.pendingChanges = s.tracked
  ordered : (s.tracked.map PendingStateChange.id).Pairwise (· < ·)
  below : ∀ c ∈ s.tracked, c.id < s.nextId
  lastBelow : s.lastCompletedId < s.nextId
  covered : ∀ c ∈ s.begun, ∃ gpuVal ∈ s.readings, c.id ≤ gpuVal
  polledBelow : ∀ gpuVal ∈ s.polled, gpuVal < s.nextId
  drained : ∀ gpuVal ∈ s.polled, ∀ c ∈ s.pendingChanges, gpuVal < c.id
  idle : s.poll = .idle → s.begun = s.completed ∧ ∀ c ∈ s.pendingChanges, s.lastCompletedId < c.id
  draining : ∀ gpuVal, s.poll = .draining gpuVal → s.begun = s.completed ∧
    s.lastCompletedId = gpuVal ∧ gpuVal ∈ s.readings
  running : ∀ gpuVal, s.poll = .running gpuVal → s.lastCompletedId = gpuVal ∧
    gpuVal ∈ s.readings ∧ ∃ front rest, s.pendingChanges = front :: rest ∧
      s.begun = s.completed ++ [front]

variable {s s' : FenceManager Callback}

/-- The queue is empty at the start. -/
theorem queued_create : (create : FenceManager Callback).Queued where
  split := rfl
  ordered := .nil
  below _ hc := absurd hc List.not_mem_nil
  lastBelow := show (0 : UInt64) < 1 by decide
  covered _ hc := absurd hc List.not_mem_nil
  polledBelow _ hg := absurd hg List.not_mem_nil
  drained _ hg := absurd hg List.not_mem_nil
  idle _ := ⟨rfl, fun _ hc => absurd hc List.not_mem_nil⟩
  draining := nofun
  running := nofun

namespace Queued

/-- What waits is ordered by its ids. -/
theorem pending_ordered (h : s.Queued) :
    (s.pendingChanges.map PendingStateChange.id).Pairwise (· < ·) := by
  have hordered := h.ordered
  rw [← h.split, List.map_append] at hordered
  exact (List.pairwise_append.mp hordered).2.1

/-- What is pending has not completed. -/
theorem completed_ne (h : s.Queued) {c d : PendingStateChange Callback} (hc : c ∈ s.completed)
    (hd : d ∈ s.pendingChanges) : c.id < d.id := by
  have hordered := h.ordered
  rw [← h.split, List.map_append] at hordered
  exact (List.pairwise_append.mp hordered).2.2 _ (List.mem_map_of_mem hc) _
    (List.mem_map_of_mem hd)

/-! ### The steps -/

/-- A tracked change has the largest id, and goes to the end. -/
theorem track (h : s.Queued) (hwrap : s.nextId.toNat + 1 < 2 ^ 64) (onComplete : Callback) :
    (s.trackStateChange onComplete).Queued := by
  have hlt : s.nextId < s.nextId + 1 := by
    rw [UInt64.lt_iff_toNat_lt, UInt64.toNat_add]
    exact (Nat.lt_succ_self _).trans_eq (Nat.mod_eq_of_lt hwrap).symm
  refine ⟨?_, ?_, fun c hc => ?_, UInt64.lt_trans h.lastBelow hlt, h.covered,
    fun gpuVal hg => UInt64.lt_trans (h.polledBelow gpuVal hg) hlt, fun gpuVal hg c hc => ?_,
    fun hidle => ⟨(h.idle hidle).1, fun c hc => ?_⟩, h.draining, fun gpuVal hrunning => ?_⟩
  · change s.completed ++ (s.pendingChanges ++ _) = s.tracked ++ _
    rw [← List.append_assoc, h.split]
  · change ((s.tracked ++ _).map PendingStateChange.id).Pairwise (· < ·)
    rw [List.map_append]
    refine List.pairwise_append.mpr ⟨h.ordered, List.pairwise_singleton _ _, ?_⟩
    rintro _ hold _ hnew
    obtain ⟨c, hc, rfl⟩ := List.mem_map.mp hold
    rw [List.mem_singleton.mp hnew]
    exact h.below c hc
  · rcases List.mem_append.mp hc with hold | hnew
    · exact UInt64.lt_trans (h.below c hold) hlt
    · rw [List.mem_singleton.mp hnew]
      exact hlt
  · rcases List.mem_append.mp hc with hold | hnew
    · exact h.drained gpuVal hg c hold
    · rw [List.mem_singleton.mp hnew]
      exact h.polledBelow gpuVal hg
  · rcases List.mem_append.mp hc with hold | hnew
    · exact (h.idle hidle).2 c hold
    · rw [List.mem_singleton.mp hnew]
      exact h.lastBelow
  · obtain ⟨hlast, hread, front, rest, hpending, hbegun⟩ := h.running gpuVal hrunning
    refine ⟨hlast, hread, front, rest ++ [⟨s.nextId, onComplete⟩], ?_, hbegun⟩
    change s.pendingChanges ++ [⟨s.nextId, onComplete⟩] = _
    rw [hpending, List.cons_append]

/-- A poll begins with a reading. -/
theorem poll (h : s.Queued) (hidle : s.poll = .idle) {gpuVal : UInt64}
    (hread : gpuVal < s.nextId) :
    Queued { s with
      lastCompletedId := gpuVal
      poll := .draining gpuVal
      readings := s.readings ++ [gpuVal] } where
  split := h.split
  ordered := h.ordered
  below := h.below
  lastBelow := hread
  covered c hc := by
    obtain ⟨reading, hreading, hle⟩ := h.covered c hc
    exact ⟨reading, List.mem_append_left _ hreading, hle⟩
  polledBelow := h.polledBelow
  drained := h.drained
  idle := nofun
  draining := by
    rintro _ ⟨⟩
    exact ⟨(h.idle hidle).1, rfl, List.mem_append_right _ (List.mem_singleton_self _)⟩
  running := nofun

/-- The poll is over when the front is not covered. -/
theorem finish (h : s.Queued) {gpuVal : UInt64} (hpoll : s.poll = .draining gpuVal)
    (huncovered : ∀ c ∈ s.pendingChanges, gpuVal < c.id) :
    Queued { s with poll := .idle, polled := s.polled ++ [gpuVal] } := by
  obtain ⟨hbegun, hlast, -⟩ := h.draining gpuVal hpoll
  refine ⟨h.split, h.ordered, h.below, h.lastBelow, h.covered, fun reading hreading => ?_,
    fun reading hreading c hc => ?_, fun _ => ⟨hbegun, ?_⟩, nofun, nofun⟩
  · rcases List.mem_append.mp hreading with hold | hnew
    · exact h.polledBelow reading hold
    · rw [List.mem_singleton.mp hnew, ← hlast]
      exact h.lastBelow
  · rcases List.mem_append.mp hreading with hold | hnew
    · exact h.drained reading hold c hc
    · rw [List.mem_singleton.mp hnew]
      exact huncovered c hc
  · rw [hlast]
    exact huncovered

/-- The poll has looked at the front of the queue. -/
theorem test (h : s.Queued) {gpuVal : UInt64} (hpoll : s.poll = .draining gpuVal) :
    (s.test gpuVal).Queued := by
  obtain ⟨hbegun, hlast, hread⟩ := h.draining gpuVal hpoll
  rw [FenceManager.test]
  split
  · rename_i front rest hpending
    split
    · rename_i hcovered
      refine ⟨h.split, h.ordered, h.below, h.lastBelow, fun c hc => ?_, h.polledBelow, h.drained,
        nofun, nofun, ?_⟩
      · rcases List.mem_append.mp hc with hold | hnew
        · exact h.covered c hold
        · rw [List.mem_singleton.mp hnew]
          exact ⟨gpuVal, hread, hcovered⟩
      · rintro _ ⟨⟩
        exact ⟨hlast, hread, front, rest, hpending, congrArg (· ++ [front]) hbegun⟩
    · rename_i huncovered
      refine h.finish hpoll fun c hc => ?_
      have hordered := h.pending_ordered
      rw [hpending] at hc hordered
      have hfront : gpuVal < front.id := UInt64.not_le.mp huncovered
      rcases List.mem_cons.mp hc with rfl | hrest
      · exact hfront
      · have hlater := (List.pairwise_cons.mp hordered).1 c.id (List.mem_map_of_mem hrest)
        exact UInt64.lt_trans hfront hlater
  · rename_i hpending
    refine h.finish hpoll fun c hc => ?_
    rw [hpending] at hc
    exact absurd hc List.not_mem_nil

/-- It has taken the front away and run its action. -/
theorem pop (h : s.Queued) {gpuVal : UInt64} (hpoll : s.poll = .running gpuVal)
    (hstep : s.pop gpuVal = some s') : s'.Queued := by
  obtain ⟨hlast, hread, front, rest, hpending, hbegun⟩ := h.running gpuVal hpoll
  simp only [FenceManager.pop, hpending] at hstep
  obtain rfl := Option.some_injective _ hstep
  refine ⟨?_, h.ordered, h.below, h.lastBelow, h.covered, h.polledBelow,
    fun reading hreading c hc => h.drained reading hreading c ?_, nofun, ?_, nofun⟩
  · change s.completed ++ [front] ++ rest = s.tracked
    rw [List.append_assoc, List.singleton_append, ← hpending, h.split]
  · rw [hpending]
    exact List.mem_cons_of_mem _ hc
  · rintro _ ⟨⟩
    exact ⟨hbegun, hlast, hread⟩

/-- The step lemma. -/
theorem step {a : Action Callback} (h : s.Queued) (hread : s.ReadsHandedOut a)
    (hwrap : s.BelowLastId a) (hstep : s.step a = some s') : s'.Queued := by
  cases a with
  | trackStateChange onComplete =>
      obtain rfl := Option.some_injective _ hstep
      exact h.track hwrap onComplete
  | pollGpuTimeline gpuVal =>
      cases hpoll : s.poll with
      | idle =>
          simp only [FenceManager.step, hpoll] at hstep
          obtain rfl := Option.some_injective _ hstep
          exact h.poll hpoll hread
      | draining _ | running _ =>
          simp only [FenceManager.step, hpoll] at hstep
          cases hstep
  | advance =>
      cases hpoll : s.poll with
      | idle =>
          simp only [FenceManager.step, hpoll] at hstep
          cases hstep
      | draining gpuVal =>
          simp only [FenceManager.step, hpoll] at hstep
          obtain rfl := Option.some_injective _ hstep
          exact h.test hpoll
      | running gpuVal =>
          simp only [FenceManager.step, hpoll] at hstep
          exact h.pop hpoll hstep
  | isSafeToExecute requiredId =>
      obtain rfl := Option.some_injective _ hstep
      exact h

/-! ### What the queue says of actions and queries -/

/-- What has begun is among the completed changes, or the front of the queue. -/
theorem begun_prefix (h : s.Queued) : s.begun <+: s.tracked := by
  rw [← h.split]
  cases hpoll : s.poll with
  | idle =>
      rw [(h.idle hpoll).1]
      exact List.prefix_append _ _
  | draining gpuVal =>
      rw [(h.draining gpuVal hpoll).1]
      exact List.prefix_append _ _
  | running gpuVal =>
      obtain ⟨-, -, front, rest, hpending, hbegun⟩ := h.running gpuVal hpoll
      rw [hbegun, hpending]
      exact (List.prefix_append_right_inj _).mpr ⟨rest, rfl⟩

/-- The actions that have begun are the first ones tracked, each once. -/
theorem retired (h : s.Queued) : s.Retired where
  ordered := h.ordered.sublist (h.begun_prefix.map _).sublist
  registered _ hc := h.begun_prefix.subset hc
  covered := h.covered
  drained gpuVal hg c hc hle := by
    rw [← h.split] at hc
    refine (List.mem_append.mp hc).resolve_right fun hpending => ?_
    exact UInt64.not_le.mpr (h.drained gpuVal hg c hpending) hle

/-- Between polls the stored reading is behind whatever is pending; in a poll it is what
the poll has read. -/
theorem answersAfterAction_iff (h : s.Queued) (a : Action Callback) :
    s.AnswersAfterAction a ↔ s.QueriesOutsidePoll a := by
  cases a with
  | isSafeToExecute requiredId =>
      constructor
      · rintro hanswer gpuVal hreading hle c hc rfl
        have hlast : s.lastCompletedId = gpuVal := by
          cases hpoll : s.poll with
          | idle =>
              rw [hpoll] at hreading
              cases hreading
          | draining reading =>
              rw [hpoll] at hreading
              obtain rfl := Option.some_injective _ hreading
              exact (h.draining reading hpoll).2.1
          | running reading =>
              rw [hpoll] at hreading
              obtain rfl := Option.some_injective _ hreading
              exact (h.running reading hpoll).1
        have hcompleted : c ∈ s.completed := by
          refine hanswer (decide_eq_true (hlast ▸ hle)) c ?_ rfl
          rw [← h.split]
          exact List.mem_append_right _ hc
        exact UInt64.lt_irrefl _ (h.completed_ne hcompleted hc)
      · intro hquiet hanswer c hc hid
        have hle : requiredId ≤ s.lastCompletedId := of_decide_eq_true hanswer
        rw [← h.split] at hc
        refine (List.mem_append.mp hc).resolve_right fun hpending => ?_
        cases hpoll : s.poll with
        | idle =>
            have hlater := (h.idle hpoll).2 c hpending
            rw [hid] at hlater
            exact UInt64.not_le.mpr hlater hle
        | draining gpuVal =>
            refine hquiet gpuVal (by rw [hpoll]; rfl) ?_ c hpending hid
            exact (h.draining gpuVal hpoll).2.1 ▸ hle
        | running gpuVal =>
            refine hquiet gpuVal (by rw [hpoll]; rfl) ?_ c hpending hid
            exact (h.running gpuVal hpoll).1 ▸ hle
  | trackStateChange _ | pollGpuTimeline _ | advance => exact Iff.rfl

end Queued

/-! ## Whole runs -/

/-- **Actions are retired once, in order and covered**, and queries answer after the
action exactly if none falls into the poll that is to run it. -/
theorem retired_and_answers_iff {actions : List (Action Callback)}
    (h : exec step create actions = some s) (hread : Along step ReadsHandedOut create actions)
    (hwrap : Along step BelowLastId create actions) :
    s.Retired ∧ (Along step AnswersAfterAction create actions ↔
      Along step QueriesOutsidePoll create actions) := by
  have hassumed := (along_and step ReadsHandedOut BelowLastId create actions).mpr ⟨hread, hwrap⟩
  have hstep : ∀ (s : FenceManager Callback) (a : Action Callback) (s' : FenceManager Callback),
      s.Queued → s.step a = some s' → s.ReadsHandedOut a ∧ s.BelowLastId a → s'.Queued :=
    fun _ _ _ hs ha hP => hs.step hP.1 hP.2 ha
  refine ⟨(invariant_of_along step hstep queued_create hassumed h).retired, ?_⟩
  exact along_iff_of_assumed step (fun _ a _ hs _ _ => hs.answersAfterAction_iff a)
    (fun s a s' hs ha hP _ => hstep s a s' hs ha hP) queued_create hassumed

/-- A query between two actions of one poll, for the one that has completed. -/
theorem retired_two :
    ∃ s : FenceManager ℕ, exec step create [.trackStateChange 7, .trackStateChange 8,
      .pollGpuTimeline 2, .advance, .advance, .isSafeToExecute 1, .advance, .advance,
      .advance] = some s ∧ s.Retired ∧
      Along step AnswersAfterAction create [.trackStateChange 7, .trackStateChange 8,
        .pollGpuTimeline 2, .advance, .advance, .isSafeToExecute 1, .advance, .advance,
        .advance] := by
  obtain ⟨s, hrun⟩ : ∃ s : FenceManager ℕ, exec step create [.trackStateChange 7,
      .trackStateChange 8, .pollGpuTimeline 2, .advance, .advance, .isSafeToExecute 1, .advance,
      .advance, .advance] = some s := ⟨_, rfl⟩
  have hboth := retired_and_answers_iff hrun (by decide) (by decide)
  refine ⟨s, hrun, hboth.1, hboth.2.mpr ?_⟩
  refine along_of_step step rfl trivial <| along_of_step step rfl trivial <|
    along_of_step step rfl trivial <| along_of_step step rfl trivial <|
    along_of_step step rfl trivial <| along_of_step step rfl ?_ <|
    along_of_step step rfl trivial <| along_of_step step rfl trivial <|
    along_of_step step rfl trivial <| along_nil step _ _
  rintro _ ⟨⟩ - c hc
  rw [List.mem_singleton.mp hc]
  exact show (2 : UInt64) ≠ 1 by decide

/-- A query between the store of the reading and the action. -/
theorem safe_before_action :
    Along step ReadsHandedOut (create : FenceManager ℕ) [.trackStateChange 7,
      .pollGpuTimeline 1, .isSafeToExecute 1] ∧
    Along step BelowLastId (create : FenceManager ℕ) [.trackStateChange 7,
      .pollGpuTimeline 1, .isSafeToExecute 1] ∧
    ¬ Along step AnswersAfterAction (create : FenceManager ℕ) [.trackStateChange 7,
      .pollGpuTimeline 1, .isSafeToExecute 1] := by
  refine ⟨by decide, by decide, fun h => ?_⟩
  have hanswer := h [.trackStateChange 7, .pollGpuTimeline 1] _ [] rfl _ _ rfl rfl
  exact absurd (hanswer rfl ⟨1, 7⟩ (List.mem_singleton_self _) rfl) List.not_mem_nil

end FenceManager

end Synapse.Sync
