import Synapse.Foundations.Calls
import Synapse.Foundations.Runs

/-!
# `AtomicStateMachine`

The state machine of `atomic_state.h` and any number of concurrent `transition`
calls.  A call loads the state and checks its target, exchanges the state if it is
still the loaded one, appends a record to the history and counts it.

The exchanges form a path from the initial state to the current one, whatever the
interleaving (`Traced.path`).  The history is this path if the calls append in the
order in which they have exchanged (`Orderly`).

### Two orders

A call has two effects in two places: the exchange of the state, atomic by itself, and the
record in the history, behind a mutex.  Between the two another call may exchange and append.
So there is an order of the exchanges and an order of the records, and they are the same
exactly as long as no call overtakes another one in between.  `Traced` speaks of the first
order and `Orderly` of the second: it asks of each appending step that the call which appends
is the first of those that have exchanged and not appended.

The path of exchanges needs no condition.  An exchange succeeds on the loaded state only, and
it was from this state that the transition was checked; that the state may have changed and
changed back between does not matter to a path.
-/

namespace Synapse.Atomic

open Runs Calls

/-- The states. -/
inductive ShimState where
  | uninitialized
  | initializing
  | active
  | degraded
  | suspended
  | shuttingDown
  | crashed
  deriving DecidableEq, Repr

/-- A record of the history. -/
structure Transition where
  fromState : ShimState
  toState : ShimState
  timestampNs : UInt64
  threadId : UInt32
  reason : String
  errorCode : UInt32
  deriving DecidableEq, Repr

/-- `is_valid_transition(from, to)`. -/
def isValidTransition : ShimState → ShimState → Bool
  | .uninitialized, target => target = .initializing
  | .initializing, target => target = .active || target = .crashed
  | .active, target => target = .degraded || target = .suspended || target = .shuttingDown ||
      target = .crashed
  | .degraded, target => target = .active || target = .suspended || target = .crashed
  | .suspended, target => target = .active || target = .crashed
  | .shuttingDown, target => target = .uninitialized
  | .crashed, target => target = .uninitialized

/-! ## Calls and their steps -/

/-- The arguments of a `transition` call, and the time and the thread of its record. -/
structure TransitionCall where
  target : ShimState
  reason : String
  error : UInt32
  timestampNs : UInt64
  threadId : UInt32
  deriving DecidableEq

namespace TransitionCall

/-- What `log_transition` makes of the call. -/
def record (c : TransitionCall) (expected : ShimState) : Transition where
  fromState := expected
  toState := c.target
  timestampNs := c.timestampNs
  threadId := c.threadId
  reason := c.reason
  errorCode := c.error

/-- A call that starts the shim. -/
def toInitializing : TransitionCall where
  target := .initializing
  reason := "init"
  error := 0
  timestampNs := 1
  threadId := 1

/-- A call on another thread, for a shim that has started. -/
def toActive : TransitionCall where
  target := .active
  reason := "ready"
  error := 0
  timestampNs := 2
  threadId := 2

end TransitionCall

/-- How far a `transition` call has come.  `turn` is how many exchanges came before
its own. -/
inductive Transitioning where
  | called (c : TransitionCall)
  | checked (c : TransitionCall) (expected : ShimState)
  | exchanged (c : TransitionCall) (expected : ShimState) (turn : ℕ)
  | logged
  | returned (result : Bool)
  deriving DecidableEq

namespace Transitioning

/-- A call between its exchange and its record. -/
def isExchanged : Transitioning → Bool
  | exchanged _ _ _ => true
  | _ => false

end Transitioning

/-- The state machine, the calls, and the exchanges so far. -/
structure AtomicStateMachine where
  currentState : ShimState
  transitionCount : UInt64
  history : List Transition
  calls : List Transitioning
  trail : List Transition

namespace AtomicStateMachine

/-- A call begins, or one under way takes its next step. -/
inductive Action where
  | call (c : TransitionCall)
  | advance (i : ℕ)

/-- The constructor, before any call. -/
def create (initial : ShimState) : AtomicStateMachine where
  currentState := initial
  transitionCount := 0
  history := []
  calls := []
  trail := []

/-- The next step of a call. -/
def advance (s : AtomicStateMachine) (i : ℕ) : Transitioning → Option AtomicStateMachine
  | .called c =>
      some { s with
        calls := s.calls.set i (if isValidTransition s.currentState c.target
          then .checked c s.currentState else .returned false) }
  | .checked c expected =>
      if s.currentState = expected then
        some { s with
          currentState := c.target
          calls := s.calls.set i (.exchanged c expected s.trail.length)
          trail := s.trail ++ [c.record expected] }
      else some { s with calls := s.calls.set i (.returned false) }
  | .exchanged c expected _ =>
      some { s with
        history := s.history ++ [c.record expected]
        calls := s.calls.set i .logged }
  | .logged =>
      some { s with
        transitionCount := s.transitionCount + 1
        calls := s.calls.set i (.returned true) }
  | .returned _ => none

/-- One step of one call. -/
def step (s : AtomicStateMachine) : Action → Option AtomicStateMachine
  | .call c => some { s with calls := s.calls ++ [.called c] }
  | .advance i => s.calls[i]?.bind (s.advance i)

/-! ## What is asked -/

/-- All calls have returned. -/
def AtRest (s : AtomicStateMachine) : Prop := ∀ c ∈ s.calls, ∃ result, c = .returned result

/-- The records are valid transitions, each from where the one before led to. -/
def IsPath : ShimState → List Transition → ShimState → Prop
  | first, [], last => first = last
  | first, t :: rest, last =>
      t.fromState = first ∧ isValidTransition t.fromState t.toState = true ∧
        IsPath t.toState rest last

/-- The history is a path from the initial state to the current one, and is as long
as the count and the number of successful calls say. -/
structure Audited (initial : ShimState) (s : AtomicStateMachine) : Prop where
  path : IsPath initial s.history s.currentState
  length_eq_count : s.history.length = s.transitionCount.toNat
  length_eq_calls : s.history.length = s.calls.count (.returned true)

/-- A call appends its record after all calls that have exchanged before it, and the
count is not at its largest value. -/
def Orderly (s : AtomicStateMachine) : Action → Prop
  | .call _ => True
  | .advance i =>
      match s.calls[i]? with
      | some (.exchanged _ _ turn) => turn = s.history.length
      | some .logged => s.transitionCount.toNat + 1 < 2 ^ 64
      | _ => True

/-! ## The exchanges -/

/-- A path goes on with a transition from its end. -/
theorem isPath_concat {first last : ShimState} {trail : List Transition} {t : Transition}
    (h : IsPath first trail last) (hfrom : t.fromState = last)
    (hvalid : isValidTransition t.fromState t.toState = true) :
    IsPath first (trail ++ [t]) t.toState := by
  induction trail generalizing first with
  | nil => exact ⟨hfrom.trans (show first = last from h).symm, hvalid, rfl⟩
  | cons x trail ih =>
      obtain ⟨hx, hx', hrest⟩ := h
      exact ⟨hx, hx', ih hrest⟩

/-- The exchanges are a path, of which the history has the beginning; the rest are
those of the calls that are still to append their record. -/
structure Traced (initial : ShimState) (s : AtomicStateMachine) : Prop where
  path : IsPath initial s.trail s.currentState
  checked : ∀ c ∈ s.calls, ∀ call expected, c = .checked call expected →
    isValidTransition expected call.target = true
  pending : ∀ c ∈ s.calls, ∀ call expected turn, c = .exchanged call expected turn →
    s.trail[turn]? = some (call.record expected)
  history : s.history <+: s.trail
  unlogged : s.history.length + s.calls.countP Transitioning.isExchanged = s.trail.length
  counted : s.history.length = s.transitionCount.toNat + s.calls.count .logged
  succeeded : s.history.length = s.calls.count (.returned true) + s.calls.count .logged

variable {initial : ShimState} {s s' : AtomicStateMachine}

/-- Nothing has been exchanged at the start. -/
theorem traced_create (initial : ShimState) : (create initial).Traced initial where
  path := rfl
  checked _ hc := absurd hc List.not_mem_nil
  pending _ hc := absurd hc List.not_mem_nil
  history := List.prefix_rfl
  unlogged := rfl
  counted := rfl
  succeeded := rfl

/-- What a step can do. -/
inductive Stepped (s : AtomicStateMachine) : Action → AtomicStateMachine → Prop
  | call (c) : Stepped s (.call c) { s with calls := s.calls ++ [.called c] }
  | accept {i c} (hcall : s.calls[i]? = some (.called c))
      (hvalid : isValidTransition s.currentState c.target = true) :
      Stepped s (.advance i) { s with calls := s.calls.set i (.checked c s.currentState) }
  | refuse {i c} (hcall : s.calls[i]? = some c)
      (hexchanged : c.isExchanged = false) (hlogged : c ≠ .logged)
      (hreturned : ∀ result, c ≠ .returned result) :
      Stepped s (.advance i) { s with calls := s.calls.set i (.returned false) }
  | exchange {i c} (hcall : s.calls[i]? = some (.checked c s.currentState)) :
      Stepped s (.advance i)
        { s with
          currentState := c.target
          calls := s.calls.set i (.exchanged c s.currentState s.trail.length)
          trail := s.trail ++ [c.record s.currentState] }
  | log {i c expected turn} (hcall : s.calls[i]? = some (.exchanged c expected turn)) :
      Stepped s (.advance i)
        { s with
          history := s.history ++ [c.record expected]
          calls := s.calls.set i .logged }
  | count {i} (hcall : s.calls[i]? = some .logged) :
      Stepped s (.advance i)
        { s with
          transitionCount := s.transitionCount + 1
          calls := s.calls.set i (.returned true) }

/-- The shapes that a step can have; each call is in one stage. -/
theorem stepped_of_step {a : Action} (h : s.step a = some s') : s.Stepped a s' := by
  cases a with
  | call c =>
      obtain rfl := Option.some_injective _ h
      exact .call c
  | advance i =>
      obtain ⟨call, hcall, hadvance⟩ := Option.bind_eq_some_iff.mp h
      cases call with
      | called c =>
          obtain rfl := Option.some_injective _ hadvance
          split
          · rename_i hvalid
            exact .accept hcall hvalid
          · exact .refuse hcall rfl nofun nofun
      | checked c expected =>
          rw [advance] at hadvance
          split at hadvance
          · rename_i heq
            obtain rfl := heq
            obtain rfl := Option.some_injective _ hadvance
            exact .exchange hcall
          · obtain rfl := Option.some_injective _ hadvance
            exact .refuse hcall rfl nofun nofun
      | exchanged c expected turn =>
          obtain rfl := Option.some_injective _ hadvance
          exact .log hcall
      | logged =>
          obtain rfl := Option.some_injective _ hadvance
          exact .count hcall
      | returned result => cases hadvance

/-- A step that only moves a call on, between stages that are not counted. -/
theorem Traced.moved (h : s.Traced initial) {old : Option Transitioning} {new : Transitioning}
    {calls' : List Transitioning} (hmoved : Moved s.calls old new calls')
    (hold : ∀ c ∈ old, c.isExchanged = false ∧ c ≠ .logged ∧ c ≠ .returned true)
    (hnew : new.isExchanged = false ∧ new ≠ .logged ∧ new ≠ .returned true)
    (hchecked : ∀ c expected, new = .checked c expected →
      isValidTransition expected c.target = true) :
    Traced initial { s with calls := calls' } := by
  have hcount (p : Transitioning → Bool) (hp : p new = false) (hp' : ∀ c ∈ old, p c = false) :
      calls'.countP p = s.calls.countP p := by
    have hadd := hmoved.countP_add p
    have hnone : old.toList.countP p = 0 := by
      refine List.countP_eq_zero.mpr fun c hc => ?_
      rw [hp' c (Option.mem_toList.mp hc)]
      exact Bool.false_ne_true
    rw [hnone, List.countP_singleton, hp] at hadd
    exact hadd
  have hexchanged := hcount Transitioning.isExchanged hnew.1 fun c hc => (hold c hc).1
  have hlogged : calls'.count .logged = s.calls.count .logged :=
    hcount (· == .logged) (beq_false_of_ne hnew.2.1) fun c hc =>
      beq_false_of_ne (hold c hc).2.1
  have hreturned : calls'.count (.returned true) = s.calls.count (.returned true) :=
    hcount (· == .returned true) (beq_false_of_ne hnew.2.2) fun c hc =>
      beq_false_of_ne (hold c hc).2.2
  refine ⟨h.path, hmoved.forall_mem h.checked hchecked, hmoved.forall_mem h.pending ?_, h.history,
    ?_, ?_, ?_⟩
  · rintro c expected turn rfl
    exact absurd hnew.1 Bool.true_eq_false.mp
  · rw [hexchanged]
    exact h.unlogged
  · rw [hlogged]
    exact h.counted
  · rw [hreturned, hlogged]
    exact h.succeeded

/-- How many calls are in a stage, after one has got from a stage to another. -/
theorem count_set {calls : List Transitioning} {i : ℕ} {old : Transitioning}
    (hcall : calls[i]? = some old) (new stage : Transitioning) :
    (calls.set i new).count stage + (if old = stage then 1 else 0) =
      calls.count stage + (if new = stage then 1 else 0) := by
  have hadd := (moved_set hcall new).countP_add (· == stage)
  rw [Option.toList_some, List.countP_singleton, List.countP_singleton] at hadd
  simp only [beq_iff_eq] at hadd
  exact hadd

/-- A successful exchange makes the trail longer; its record is pending at the end of
the trail. -/
theorem Traced.exchange (h : s.Traced initial) {i : ℕ} {c : TransitionCall}
    (hcall : s.calls[i]? = some (.checked c s.currentState)) :
    Traced initial { s with
      currentState := c.target
      calls := s.calls.set i (.exchanged c s.currentState s.trail.length)
      trail := s.trail ++ [c.record s.currentState] } := by
  have hmoved := moved_set hcall (.exchanged c s.currentState s.trail.length)
  have hvalid := h.checked _ (List.mem_of_getElem? hcall) c s.currentState rfl
  have hlogged := count_set hcall (.exchanged c s.currentState s.trail.length) .logged
  have hreturned := count_set hcall (.exchanged c s.currentState s.trail.length) (.returned true)
  have hunlogged : (s.calls.set i (.exchanged c s.currentState s.trail.length)).countP
      Transitioning.isExchanged = s.calls.countP Transitioning.isExchanged + 1 :=
    hmoved.countP_add Transitioning.isExchanged
  simp only [reduceCtorEq, if_false, Nat.add_zero] at hlogged hreturned
  refine ⟨isPath_concat h.path rfl hvalid, hmoved.forall_mem h.checked nofun, ?_,
    h.history.trans (List.prefix_append _ _), ?_, ?_, ?_⟩
  · refine hmoved.forall_mem (fun call hmem call' expected turn heq => ?_) ?_
    · -- an earlier turn keeps its place in the longer trail
      have hpending := h.pending call hmem call' expected turn heq
      have hlt : turn < s.trail.length := (List.getElem?_eq_some_iff.mp hpending).1
      exact (List.getElem?_append_left hlt).trans hpending
    · rintro _ _ _ ⟨⟩
      exact List.getElem?_concat_length
  · rw [hunlogged, List.length_append, ← h.unlogged]
    rfl
  · have htotal := h.counted
    rw [hlogged]
    exact htotal
  · have htotal := h.succeeded
    rw [hlogged, hreturned]
    exact htotal

/-- A call that appends its record in its turn appends the next one of the trail. -/
theorem Traced.log (h : s.Traced initial) {i : ℕ} {c : TransitionCall} {expected : ShimState}
    (hcall : s.calls[i]? = some (.exchanged c expected s.history.length)) :
    Traced initial { s with
      history := s.history ++ [c.record expected]
      calls := s.calls.set i .logged } := by
  have hmoved := moved_set hcall Transitioning.logged
  have hpending := h.pending _ (List.mem_of_getElem? hcall) c expected _ rfl
  obtain ⟨hlt, hrecord⟩ := List.getElem?_eq_some_iff.mp hpending
  have hprefix : s.history ++ [c.record expected] <+: s.trail :=
    hrecord ▸ List.concat_get_prefix h.history hlt
  have hlogged := count_set hcall .logged .logged
  have hreturned := count_set hcall .logged (.returned true)
  have hunlogged : (s.calls.set i .logged).countP Transitioning.isExchanged + 1 =
      s.calls.countP Transitioning.isExchanged :=
    hmoved.countP_add Transitioning.isExchanged
  simp only [reduceCtorEq, if_false, if_true, Nat.add_zero] at hlogged hreturned
  have hlength : (s.history ++ [c.record expected]).length = s.history.length + 1 :=
    List.length_append
  refine ⟨h.path, hmoved.forall_mem h.checked nofun, hmoved.forall_mem h.pending nofun,
    hprefix, ?_, ?_, ?_⟩
  · have htotal := h.unlogged
    rw [hlength, Nat.add_assoc, Nat.add_comm 1, hunlogged]
    exact htotal
  · have htotal := h.counted
    rw [hlength, hlogged, htotal, Nat.add_assoc]
  · have htotal := h.succeeded
    rw [hlength, hreturned, hlogged, htotal, Nat.add_assoc]

/-- A call that has appended its record is counted, unless the count wraps. -/
theorem Traced.count (h : s.Traced initial) {i : ℕ} (hcall : s.calls[i]? = some .logged)
    (hwrap : s.transitionCount.toNat + 1 < 2 ^ 64) :
    Traced initial { s with
      transitionCount := s.transitionCount + 1
      calls := s.calls.set i (.returned true) } := by
  have hmoved := moved_set hcall (.returned true)
  have hlogged := count_set hcall (.returned true) .logged
  have hreturned := count_set hcall (.returned true) (.returned true)
  have hunlogged : (s.calls.set i (.returned true)).countP Transitioning.isExchanged =
      s.calls.countP Transitioning.isExchanged :=
    hmoved.countP_add Transitioning.isExchanged
  simp only [reduceCtorEq, if_false, if_true, Nat.add_zero] at hlogged hreturned
  refine ⟨h.path, hmoved.forall_mem h.checked nofun, hmoved.forall_mem h.pending nofun,
    h.history, ?_, ?_, ?_⟩
  · rw [hunlogged]
    exact h.unlogged
  · have hcount : (s.transitionCount + 1).toNat = s.transitionCount.toNat + 1 := by
      rw [UInt64.toNat_add]
      exact Nat.mod_eq_of_lt hwrap
    rw [hcount, Nat.add_assoc, Nat.add_comm 1, hlogged]
    exact h.counted
  · rw [hreturned, Nat.add_assoc, Nat.add_comm 1, hlogged]
    exact h.succeeded

/-- The step lemma. -/
theorem traced_step {a : Action} (h : s.Traced initial) (horderly : s.Orderly a)
    (hstep : s.step a = some s') : s'.Traced initial := by
  cases stepped_of_step hstep with
  | call c =>
      refine h.moved (moved_append s.calls _) ?_ ⟨rfl, nofun, nofun⟩ nofun
      exact fun old hold => absurd hold (Option.not_mem_none old)
  | @accept i c hcall hvalid =>
      refine h.moved (moved_set hcall _) ?_ ⟨rfl, nofun, nofun⟩ ?_
      · rintro _ ⟨⟩
        exact ⟨rfl, nofun, nofun⟩
      · rintro _ _ ⟨⟩
        exact hvalid
  | @refuse i c hcall hexchanged hlogged hreturned =>
      refine h.moved (moved_set hcall _) ?_ ⟨rfl, nofun, nofun⟩ nofun
      rintro _ ⟨⟩
      exact ⟨hexchanged, hlogged, hreturned true⟩
  | exchange hcall => exact h.exchange hcall
  | @log i c expected turn hcall =>
      simp only [Orderly, hcall] at horderly
      obtain rfl : turn = s.history.length := horderly
      exact h.log hcall
  | @count i hcall =>
      simp only [Orderly, hcall] at horderly
      exact h.count hcall horderly

/-! ## Whole runs -/

/-- When no call is under way, every exchange has its record. -/
theorem Traced.audited (h : s.Traced initial) (hrest : s.AtRest) : s.Audited initial := by
  have hexchanged : s.calls.countP Transitioning.isExchanged = 0 := by
    refine List.countP_eq_zero.mpr fun c hc => ?_
    obtain ⟨result, rfl⟩ := hrest c hc
    exact Bool.false_ne_true
  have hlogged : s.calls.count .logged = 0 := by
    refine List.count_eq_zero.mpr fun hmem => ?_
    obtain ⟨result, hresult⟩ := hrest _ hmem
    cases hresult
  have hall : s.history = s.trail := by
    refine h.history.eq_of_length ?_
    rw [← h.unlogged, hexchanged, Nat.add_zero]
  refine ⟨?_, ?_, ?_⟩
  · rw [hall]
    exact h.path
  · rw [h.counted, hlogged, Nat.add_zero]
  · rw [h.succeeded, hlogged, Nat.add_zero]

/-- **The audit trail** is a path if the calls append their records in the order of
their exchanges. -/
theorem audited_of_orderly (initial : ShimState) {actions : List Action}
    (h : exec step (create initial) actions = some s)
    (horderly : Along step Orderly (create initial) actions) (hrest : s.AtRest) :
    s.Audited initial := by
  have htraced : s.Traced initial :=
    invariant_of_along step (fun _ _ _ hs ha hP => traced_step hs hP ha)
      (traced_create initial) horderly h
  exact htraced.audited hrest

/-- Both calls have exchanged before either has appended, and they append in the order
of their exchanges: the history is the path of both. -/
theorem audited_overlapping :
    ∃ s, exec step (create .uninitialized) [.call .toInitializing, .call .toActive,
      .advance 0, .advance 0, .advance 1, .advance 1, .advance 0, .advance 1, .advance 1,
      .advance 0] = some s ∧ s.AtRest ∧ s.currentState = .active ∧
      s.history.map Transition.fromState = [.uninitialized, .initializing] ∧
      s.Audited .uninitialized := by
  obtain ⟨s, hrun, hcalls, hcurrent, hhistory⟩ : ∃ s, exec step (create .uninitialized)
      [.call .toInitializing, .call .toActive, .advance 0, .advance 0, .advance 1, .advance 1,
        .advance 0, .advance 1, .advance 1, .advance 0] = some s ∧
      s.calls = [.returned true, .returned true] ∧ s.currentState = .active ∧
      s.history.map Transition.fromState = [.uninitialized, .initializing] :=
    ⟨_, rfl, rfl, rfl, rfl⟩
  have hrest : s.AtRest := by
    rw [AtRest, hcalls]
    exact fun c hc => ⟨true, List.eq_of_mem_replicate (show c ∈ List.replicate 2 _ from hc)⟩
  refine ⟨s, hrun, hrest, hcurrent, hhistory, audited_of_orderly .uninitialized hrun ?_ hrest⟩
  exact along_of_step step rfl trivial <| along_of_step step rfl trivial <|
    along_of_step step rfl trivial <| along_of_step step rfl trivial <|
    along_of_step step rfl trivial <| along_of_step step rfl trivial <|
    along_of_step step rfl rfl <| along_of_step step rfl rfl <|
    along_of_step step rfl (show 0 + 1 < 2 ^ 64 by decide) <|
    along_of_step step rfl (show 1 + 1 < 2 ^ 64 by decide) <| along_nil step _ _

/-- The second call exchanges after the first and appends its record before it. -/
theorem overtaken_record :
    ∃ s, exec step (create .uninitialized) [.call .toInitializing, .call .toActive,
      .advance 0, .advance 0, .advance 1, .advance 1, .advance 1, .advance 0, .advance 1,
      .advance 0] = some s ∧ s.AtRest ∧
      s.history.map Transition.fromState = [.initializing, .uninitialized] ∧
      ¬ s.Audited .uninitialized := by
  obtain ⟨s, hrun, hcalls, hhistory⟩ : ∃ s, exec step (create .uninitialized)
      [.call .toInitializing, .call .toActive, .advance 0, .advance 0, .advance 1, .advance 1,
        .advance 1, .advance 0, .advance 1, .advance 0] = some s ∧
      s.calls = [.returned true, .returned true] ∧
      s.history = [TransitionCall.toActive.record .initializing,
        TransitionCall.toInitializing.record .uninitialized] :=
    ⟨_, rfl, rfl, rfl⟩
  have hrest : s.AtRest := by
    rw [AtRest, hcalls]
    exact fun c hc => ⟨true, List.eq_of_mem_replicate (show c ∈ List.replicate 2 _ from hc)⟩
  refine ⟨s, hrun, hrest, by rw [hhistory]; rfl, fun h => ?_⟩
  have hpath := h.path
  rw [hhistory] at hpath
  cases hpath.1

end AtomicStateMachine

end Synapse.Atomic
